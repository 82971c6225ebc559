import Tgpio.TdcPairing

/-!
# The statistics after a reset

Two devices report the same from then on when they keep the same of earlier
captures, whatever their cleared statistics hold. A reset device keeps a pending
capture, the interval statistics and the previous capture of each input.
-/

namespace Tgpio

open Statistics

set_option autoImplicit false

/-- Count, last value, minimum, maximum and mean, shown once there is a value. -/
def statistics (tally : Tally Int) : Option (Nat × Int × Int × Int × Int) :=
  if tally.count = 0 then none
  else some (tally.count, tally.last, tally.min, tally.max, tally.sum.tdiv (toS64 tally.count))

/-- What the status file shows of the statistics. -/
structure Status where
  lost : Nat
  lastCycles : Option Nat
  durations : Option (Nat × Int × Int × Int × Int)
  intervals : Fin 2 → Option (Nat × Int × Int × Int × Int)

def statusShow (device : InputDevice) : Status where
  lost := device.tdc.lost
  lastCycles := if device.tdc.durations.count = 0 then none else some device.tdc.lastCycles
  durations := statistics device.tdc.durations
  intervals := fun block => statistics (device.blocks block).intervals

/-- No later capture can follow the previous one. -/
def InputBlock.Unfollowed (block : InputBlock) : Prop :=
  block.inputHavePrev = false ∨ u64Max ≤ block.inputPrevArt

/-- Nothing that a reset leaves counts for a later capture. -/
def NothingKept (device : InputDevice) : Prop :=
  device.tdc.pending = false ∧ ∀ block,
    (device.blocks block).intervals.count = 0 ∧ (device.blocks block).intervals.sum = 0 ∧
      (device.blocks block).Unfollowed

section agreement

/-- The same statistics, for all that is shown of them now or later. -/
structure Alike (left right : Tally Int) : Prop where
  count : left.count = right.count
  sum : left.sum = right.sum
  shown : left.count ≠ 0 → left.last = right.last ∧ left.min = right.min ∧ left.max = right.max

theorem Alike.statistics {left right : Tally Int} (alike : Alike left right) :
    statistics left = statistics right := by
  unfold Tgpio.statistics
  rw [← alike.count, ← alike.sum]
  split
  · rfl
  next counted =>
    obtain ⟨last, min, max⟩ := alike.shown counted
    rw [last, min, max]

/-- The first value replaces the bounds, so only counted ones have to agree. -/
theorem Alike.recordValue {left right : Tally Int} (alike : Alike left right) (value : Int) :
    recordValue left value = recordValue right value := by
  unfold Tgpio.recordValue
  rw [← alike.count, ← alike.sum]
  by_cases counted : left.count = 0
  · have first : u64 (left.count + 1) = 1 := by
      rw [counted]
      rfl
    simp only [first, true_or, if_true]
  · obtain ⟨last, min, max⟩ := alike.shown counted
    rw [min, max]

theorem Alike.refl (tally : Tally Int) : Alike tally tally :=
  ⟨rfl, rfl, fun _ => ⟨rfl, rfl, rfl⟩⟩

/-- Input blocks that agree in what later captures read. -/
structure InputBlock.Agree (left right : InputBlock) : Prop where
  intervals : Alike left.intervals right.intervals
  previous : (left.inputHavePrev = right.inputHavePrev ∧ left.inputPrevArt = right.inputPrevArt) ∨
    (left.Unfollowed ∧ right.Unfollowed)

theorem InputBlock.Unfollowed.intervals {block : InputBlock} (unfollowed : block.Unfollowed)
    (setting : CaptureSetting) {art : Nat} (artInRange : art < 2 ^ 64) :
    (inputStatsUpdate setting art block).intervals = block.intervals := by
  have later : ¬(block.inputHavePrev = true ∧ art > block.inputPrevArt) := by
    rintro ⟨previous, after⟩
    rcases unfollowed with none_ | last
    · rw [none_] at previous
      contradiction
    · unfold u64Max at last
      omega
  exact if_neg later

theorem InputBlock.Agree.update {left right : InputBlock} (agree : left.Agree right)
    (setting : CaptureSetting) {art : Nat} (artInRange : art < 2 ^ 64) :
    (inputStatsUpdate setting art left).Agree (inputStatsUpdate setting art right) := by
  refine ⟨?_, .inl ⟨rfl, rfl⟩⟩
  rcases agree.previous with ⟨have_, prev⟩ | ⟨before, after⟩
  · unfold inputStatsUpdate
    dsimp only
    rw [have_, prev]
    split
    · cases clockArtCyclesToDeltaNs setting.params setting.clocks (art - right.inputPrevArt) with
      | error status => exact agree.intervals
      | ok delta =>
          dsimp only
          split
          · rw [agree.intervals.recordValue]
            exact Alike.refl _
          · exact agree.intervals
    · exact agree.intervals
  · rw [before.intervals setting artInRange, after.intervals setting artInRange]
    exact agree.intervals

/-- Pairing states that agree unless something waits. -/
def Tdc.Agree (left right : Tdc) : Prop :=
  left = right ∨ (left.pending = false ∧
    right = { left with pendingBlock := right.pendingBlock, pendingArt := right.pendingArt })

theorem Tdc.Agree.capture {left right : Tdc} (agree : left.Agree right)
    (setting : CaptureSetting) (capture : Capture) :
    (tdcCapture setting left capture).Agree (tdcCapture setting right capture) := by
  rcases agree with rfl | ⟨idle, same⟩
  · exact .inl rfl
  · by_cases on : setting.tdc = true
    · have waits : right.pending = false := by
        rw [same]
        exact idle
      apply Or.inl
      rw [tdc_capture_eq on, if_neg (by simp [idle]), tdc_capture_eq on, if_neg (by simp [waits]),
        same]
    · unfold tdcCapture
      rw [if_pos on, if_pos on]
      exact .inr ⟨idle, same⟩

/-- Devices that agree in what later captures read. -/
structure InputDevice.Agree (left right : InputDevice) : Prop where
  tdc : left.tdc.Agree right.tdc
  blocks : ∀ block, (left.blocks block).Agree (right.blocks block)

variable {left right : InputDevice}

theorem InputDevice.Agree.status (agree : left.Agree right) :
    statusShow left = statusShow right := by
  have intervals : (fun block => statistics (left.blocks block).intervals) =
      fun block => statistics (right.blocks block).intervals := by
    funext block
    exact (agree.blocks block).intervals.statistics
  unfold statusShow
  rw [intervals]
  rcases agree.tdc with same | ⟨idle, same⟩
  · rw [same]
  · rw [same]

theorem InputDevice.Agree.poll (agree : left.Agree right) (setting : CaptureSetting)
    (capture : Capture) :
    (pollCapture setting left capture).Agree (pollCapture setting right capture) := by
  refine ⟨agree.tdc.capture setting capture, fun block => ?_⟩
  unfold pollCapture
  dsimp only
  by_cases same : block = capture.block
  · rw [same, Function.update_self, Function.update_self]
    exact (agree.blocks capture.block).update setting capture.artInRange
  · rw [Function.update_of_ne same, Function.update_of_ne same]
    exact agree.blocks block

theorem InputDevice.Agree.polled (agree : left.Agree right)
    (captures : List (CaptureSetting × Capture)) :
    (polled left captures).Agree (polled right captures) := by
  induction captures generalizing left right with
  | nil => exact agree
  | cons next later ih => exact ih (agree.poll next.1 next.2)

end agreement

/-- A device that kept nothing agrees with a loaded one once it is reset. -/
theorem NothingKept.agree {device : InputDevice} (nothing : NothingKept device) :
    (tdcReset true device).Agree InputDevice.loaded := by
  obtain ⟨idle, inputs⟩ := nothing
  refine ⟨.inr ⟨idle, ?_⟩, fun block => ?_⟩
  · rw [tdcReset, if_pos rfl, idle]
    rfl
  · obtain ⟨count, sum, unfollowed⟩ := inputs block
    refine ⟨⟨count, sum, fun counted => absurd count counted⟩, .inr ⟨unfollowed, .inl rfl⟩⟩

section reachable

/-- What holds of the values a device keeps. -/
structure InputDevice.InRange (device : InputDevice) : Prop where
  pending : device.tdc.pendingArt < 2 ^ 64
  sums : ∀ block, -(2 ^ 63) ≤ (device.blocks block).intervals.sum ∧
    (device.blocks block).intervals.sum < 2 ^ 63

theorem record_value_range (tally : Tally Int) (value : Int) :
    -(2 ^ 63) ≤ (recordValue tally value).sum ∧ (recordValue tally value).sum < 2 ^ 63 :=
  to_s64_range _

theorem tdc_capture_range {setting : CaptureSetting} {tdc : Tdc} (range : tdc.pendingArt < 2 ^ 64)
    (capture : Capture) : (tdcCapture setting tdc capture).pendingArt < 2 ^ 64 := by
  unfold tdcCapture
  split
  · exact range
  · dsimp only
    split
    · exact capture.artInRange
    · unfold tdcMeasure
      dsimp only
      split
      · exact range
      · split
        · exact range
        · exact range

theorem input_stats_range {block : InputBlock}
    (range : -(2 ^ 63) ≤ block.intervals.sum ∧ block.intervals.sum < 2 ^ 63)
    (setting : CaptureSetting) (art : Nat) :
    -(2 ^ 63) ≤ (inputStatsUpdate setting art block).intervals.sum ∧
      (inputStatsUpdate setting art block).intervals.sum < 2 ^ 63 := by
  unfold inputStatsUpdate
  dsimp only
  split
  · cases clockArtCyclesToDeltaNs setting.params setting.clocks (art - block.inputPrevArt) with
    | error status => exact range
    | ok delta =>
        dsimp only
        split
        · exact record_value_range _ _
        · exact range
  · exact range

theorem InputDevice.InRange.poll {device : InputDevice} (range : device.InRange)
    (setting : CaptureSetting) (capture : Capture) :
    (pollCapture setting device capture).InRange := by
  refine ⟨tdc_capture_range range.pending capture, fun block => ?_⟩
  unfold pollCapture
  dsimp only
  by_cases same : block = capture.block
  · rw [same, Function.update_self]
    exact input_stats_range (range.sums _) setting _
  · rw [Function.update_of_ne same]
    exact range.sums block

theorem InputDevice.InRange.polled {device : InputDevice} (range : device.InRange)
    (captures : List (CaptureSetting × Capture)) : (polled device captures).InRange := by
  induction captures generalizing device with
  | nil => exact range
  | cons next later ih => exact ih (range.poll next.1 next.2)

theorem loaded_range : InputDevice.loaded.InRange := by
  refine ⟨by decide, fun block => ?_⟩
  change -(2 ^ 63) ≤ (0 : Int) ∧ (0 : Int) < 2 ^ 63
  decide

end reachable

section kept

/-- A value of uncounted statistics shows alone, with what the sum held. -/
theorem statistics_first {tally : Tally Int} (uncounted : tally.count = 0) (value : Int) :
    statistics (recordValue tally value) =
      some (1, value, value, value, toS64 (tally.sum + value)) := by
  have first : u64 (tally.count + 1) = 1 := by
    rw [uncounted]
    rfl
  have one : toS64 ((1 : Nat) : Int) = 1 := by decide
  unfold statistics recordValue
  simp only [first, true_or, if_true, one, Int.tdiv_one]
  rfl

/-- The next cycle is one nanosecond later. -/
theorem input_stats_next {block : InputBlock} {art : Nat} (have_ : block.inputHavePrev = true)
    (prev : block.inputPrevArt = art) :
    (inputStatsUpdate stopwatch (art + 1) block).intervals = recordValue block.intervals 1 := by
  have converted : clockArtCyclesToDeltaNs stopwatch.params stopwatch.clocks 1 = .ok 1 := by
    decide +kernel
  unfold inputStatsUpdate
  dsimp only
  rw [if_pos ⟨have_, by omega⟩, prev, Nat.add_sub_cancel_left, converted]
  exact if_pos (by decide)

theorem tdc_capture_there {tdc : Tdc} (waits : tdc.pending = true)
    (range : tdc.pendingArt < 2 ^ 64) {block : Fin 2} (other : tdc.pendingBlock ≠ block) :
    (tdcCapture stopwatch tdc ⟨block, tdc.pendingArt, 1, range⟩).durations =
      recordValue tdc.durations 0 := by
  let pair : Capture × Capture :=
    (⟨tdc.pendingBlock, tdc.pendingArt, 1, range⟩, ⟨block, tdc.pendingArt, 1, range⟩)
  have cycles : pairCycles pair = 0 := by
    unfold pairCycles
    exact Int.natAbs_eq_zero.mpr (sub_self _)
  have arts : (startStop stopwatch.tdcStart pair).1.art = tdc.pendingArt ∧
      (startStop stopwatch.tdcStart pair).2.art = tdc.pendingArt := by
    unfold startStop
    split
    · exact ⟨rfl, rfl⟩
    · exact ⟨rfl, rfl⟩
  have measures : pairDuration stopwatch pair = some 0 := by
    have converted : clockArtCyclesToDeltaNs stopwatch.params stopwatch.clocks 0 = .ok 0 := by
      decide +kernel
    unfold pairDuration
    rw [cycles, converted]
    dsimp only
    rw [if_neg (by decide), if_neg (by rw [arts.1, arts.2]; exact lt_irrefl _)]
    rfl
  have result := @tdc_measure_eq stopwatch
    { tdc with lost := countLost 1 tdc.lost } pair rfl
  rw [measures] at result
  rw [tdc_capture_eq rfl, if_pos ⟨waits, other⟩]
  exact congrArg Tdc.durations result

variable {device : InputDevice}

theorem fresh_uncounted
    (fresh : statusShow (tdcReset true device) = statusShow InputDevice.loaded)
    (block : Fin 2) : (device.blocks block).intervals.count = 0 := by
  have shown := congrFun (congrArg Status.intervals fresh) block
  change statistics (device.blocks block).intervals = none at shown
  unfold statistics at shown
  by_contra counted
  rw [if_neg counted] at shown
  contradiction

theorem fresh_idle (range : device.InRange)
    (fresh : ∀ later, statusShow (polled (tdcReset true device) later) =
      statusShow (polled InputDevice.loaded later)) : device.tdc.pending = false := by
  by_contra waits
  rw [Bool.not_eq_false] at waits
  have others : ∀ block : Fin 2, block ≠ block + 1 := by decide
  have other := others device.tdc.pendingBlock
  have shown := congrArg Status.durations
    (fresh [(stopwatch, ⟨device.tdc.pendingBlock + 1, device.tdc.pendingArt, 1, range.pending⟩)])
  have measured := @tdc_capture_there (tdcReset true device).tdc waits range.pending _ other
  have counted := (congrArg statistics measured).trans (statistics_first rfl 0)
  exact absurd (counted.symm.trans shown) (Option.some_ne_none _)

theorem fresh_unfollowed
    (fresh : ∀ later, statusShow (polled (tdcReset true device) later) =
      statusShow (polled InputDevice.loaded later)) (block : Fin 2) :
    (device.blocks block).Unfollowed := by
  have uncounted := fresh_uncounted (fresh []) block
  by_contra followed
  unfold InputBlock.Unfollowed at followed
  rw [not_or, Bool.not_eq_false, not_le] at followed
  obtain ⟨previous, last⟩ := followed
  have artInRange : (device.blocks block).inputPrevArt + 1 < 2 ^ 64 := by
    unfold u64Max at last
    omega
  have shown := congrFun (congrArg Status.intervals
    (fresh [(stopwatch, ⟨block, (device.blocks block).inputPrevArt + 1, 1, artInRange⟩)])) block
  unfold statusShow polled at shown
  simp only [List.foldl_cons, List.foldl_nil, pollCapture, Function.update_self, tdcReset,
    if_true] at shown
  rw [input_stats_next previous rfl, statistics_first uncounted] at shown
  contradiction

theorem fresh_sum (range : device.InRange)
    (fresh : ∀ later, statusShow (polled (tdcReset true device) later) =
      statusShow (polled InputDevice.loaded later)) (block : Fin 2) :
    (device.blocks block).intervals.sum = 0 := by
  have uncounted := fresh_uncounted (fresh []) block
  have unfollowed := fresh_unfollowed fresh block
  have bounds := range.sums block
  have shown := congrFun (congrArg Status.intervals
    (fresh [(stopwatch, ⟨block, 0, 1, by decide⟩), (stopwatch, ⟨block, 1, 1, by decide⟩)])) block
  unfold statusShow polled at shown
  simp only [List.foldl_cons, List.foldl_nil, pollCapture, Function.update_self, tdcReset,
    if_true] at shown
  have loaded : (InputDevice.loaded.blocks block).Unfollowed := .inl rfl
  rw [@input_stats_next _ 0 rfl rfl, @input_stats_next _ 0 rfl rfl,
    unfollowed.intervals _ (by decide), loaded.intervals _ (by decide),
    statistics_first uncounted, statistics_first rfl] at shown
  have sums : toS64 ((device.blocks block).intervals.sum + 1) = 1 :=
    congrArg (fun shown => (shown.getD (0, 0, 0, 0, 0)).2.2.2.2) shown
  have wraps := @Int.bmod_emod ((device.blocks block).intervals.sum + 1) (2 ^ 64)
  unfold toS64 at sums
  rw [sums] at wraps
  push_cast at wraps
  omega

end kept

/-- A reset is a fresh start where nothing it leaves counts, and only there. -/
theorem reset_fresh_iff (earlier : List (CaptureSetting × Capture)) :
    (∀ later, statusShow (polled (tdcReset true (polled InputDevice.loaded earlier)) later) =
      statusShow (polled InputDevice.loaded later)) ↔
    NothingKept (polled InputDevice.loaded earlier) := by
  constructor
  · intro fresh
    have range := loaded_range.polled earlier
    exact ⟨fresh_idle range fresh, fun block => ⟨fresh_uncounted (fresh []) block,
      fresh_sum range fresh block, fresh_unfollowed fresh block⟩⟩
  · intro nothing later
    exact (nothing.agree.polled later).status

/-- A capture from before the reset, measured after it. -/
theorem reset_keeps_pending :
    statusShow (polled
      (tdcReset true (polled InputDevice.loaded [(stopwatch, captureAt 0 1000)]))
      [(stopwatch, captureAt 1 5000)]) ≠
    statusShow (polled InputDevice.loaded [(stopwatch, captureAt 1 5000)]) := by
  intro same
  have durations := congrArg Status.durations same
  revert durations
  decide +kernel

end Tgpio

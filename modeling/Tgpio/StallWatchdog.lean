import Tgpio.OutputRequests

/-!
# The output stall watchdog

Every 10 seconds the watchdog compares COMPV with what it last saw. A waveform
is given by its halves; a check sees the compare value of the latest edge, which
moves with every edge until the waveform stops.
-/

namespace Tgpio

set_option autoImplicit false

def watchdogPeriodS : Nat := 10

def watchdogPeriodNs : Nat := watchdogPeriodS * nsecPerSec

structure Watchdog where
  lastCompv : Nat
  stalls : Nat
  deriving DecidableEq, Repr

/-- How many seconds without an edge are taken for granted. -/
def stallLimitS (highTimeNs : Nat) : Nat :=
  let periodS := u64 (2 * highTimeNs) / nsecPerSec
  max (3 * watchdogPeriodS) (3 * periodS)

/-- The second comparison is one of 32 bits against 64. -/
def stallWarns (highTimeNs stalls : Nat) : Bool :=
  stalls * watchdogPeriodS > stallLimitS highTimeNs ∧
    stalls * watchdogPeriodS % 2 ^ 32 ≤ stallLimitS highTimeNs + watchdogPeriodS

/-- A mapped output block that the watchdog looks at. -/
def MmioBlock.Watched (block : MmioBlock) : Prop :=
  (block.outputPhase = .hardwarePeriodic ∨ block.outputPhase = .hwDuty) ∧ block.outputHwPiv ≠ 0

instance (block : MmioBlock) : Decidable block.Watched := inferInstanceAs (Decidable (_ ∧ _))

/-- The part of `tgpio_watchdog_work_fn` for one block: the state after the
check, and whether it warned. -/
def watchdogCheck (block : MmioBlock) (compv : Nat) (watchdog : Watchdog) : Watchdog × Bool :=
  if ¬block.Watched then (watchdog, false)
  else if compv ≠ watchdog.lastCompv then (⟨compv, 0⟩, false)
  else
    let stalls := (watchdog.stalls + 1) % 2 ^ 32
    (⟨watchdog.lastCompv, stalls⟩, stallWarns block.outputHighTimeNs stalls)

section thresholds

variable {highTimeNs stalls : Nat}

theorem stall_warns_early (early : stalls * watchdogPeriodS ≤ stallLimitS highTimeNs) :
    stallWarns highTimeNs stalls = false :=
  decide_eq_false fun warns => absurd warns.1 (Nat.not_lt.mpr early)

def warningStalls (highTimeNs : Nat) : Nat := stallLimitS highTimeNs / watchdogPeriodS + 1

theorem stall_warns_iff (short : stalls * watchdogPeriodS < 2 ^ 32) :
    stallWarns highTimeNs stalls = true ↔ stalls = warningStalls highTimeNs := by
  unfold stallWarns warningStalls
  rw [decide_eq_true_iff, Nat.mod_eq_of_lt short]
  unfold watchdogPeriodS
  omega

theorem stall_warns_late (late : stalls = warningStalls highTimeNs) :
    stallWarns highTimeNs stalls = true := by
  have wraps := Nat.mod_le (stalls * watchdogPeriodS) (2 ^ 32)
  unfold warningStalls at late
  unfold stallWarns
  apply decide_eq_true
  unfold watchdogPeriodS at *
  omega

end thresholds

section sampling

/-- For how many samples in a row the value has been the same before. -/
def sightings (seen : Nat → Nat) : Nat → Nat
  | 0 => 0
  | check + 1 => if seen (check + 1) = seen check then sightings seen check + 1 else 0

variable {seen : Nat → Nat}

theorem sightings_same (check : Nat) :
    sightings seen check ≤ check ∧ seen (check - sightings seen check) = seen check := by
  induction check with
  | zero => exact ⟨le_refl _, rfl⟩
  | succ check ih =>
      rw [sightings]
      split
      next same =>
        refine ⟨Nat.succ_le_succ ih.1, ?_⟩
        rw [Nat.add_sub_add_right, ih.2, same]
      next => exact ⟨Nat.zero_le _, rfl⟩

theorem sightings_steady {first : Nat} (new : first = 0 ∨ seen (first - 1) ≠ seen first)
    (check : Nat) (steady : ∀ later, later ≤ check → seen (first + later) = seen first) :
    sightings seen (first + check) = check := by
  induction check with
  | zero =>
      cases first with
      | zero => rfl
      | succ first =>
          have changed := new.resolve_left (Nat.succ_ne_zero first)
          exact if_neg changed.symm
  | succ check ih =>
      have before := ih fun later le => steady later (le.trans (Nat.le_succ check))
      have same : seen (first + check + 1) = seen (first + check) :=
        (steady (check + 1) le_rfl).trans (steady check (Nat.le_succ check)).symm
      rw [← Nat.add_assoc, sightings, if_pos same, before]

end sampling

/-- A waveform of the hardware: its halves in clock time, counted from its first
rising edge, the compare value from each edge to the next, and the block as each
check finds it. -/
structure WatchedOutput where
  highNs : Nat
  lowNs : Nat
  compv : Nat → Nat
  block : Nat → MmioBlock
  highPos : 0 < highNs
  lowPos : 0 < lowNs
  watched : ∀ check, (block check).Watched
  times : ∀ check, (block check).outputHighTimeNs = highNs
  /-- Every edge moves COMPV, and no edge within reach of the next check moves it
  back. -/
  moves : ∀ edge later, edge < later →
    (later / 2 * (highNs + lowNs) + later % 2 * highNs) ≤
      ((edge + 1) / 2 * (highNs + lowNs) + (edge + 1) % 2 * highNs) + watchdogPeriodNs →
    compv edge ≠ compv later

namespace WatchedOutput

variable (wave : WatchedOutput)

/-- When an edge fires: rising ones are even, falling ones odd. -/
def edgeTime (edge : Nat) : Nat :=
  edge / 2 * (wave.highNs + wave.lowNs) + edge % 2 * wave.highNs

def lastEdge (time : Nat) : Nat :=
  2 * (time / (wave.highNs + wave.lowNs)) +
    if time % (wave.highNs + wave.lowNs) < wave.highNs then 0 else 1

/-- The latest edge a check sees, the first check being `phase` after the first
edge. A stopped waveform has a last edge. -/
def seenEdge (last : Option Nat) (phase check : Nat) : Nat :=
  match last with
  | none => wave.lastEdge (phase + check * watchdogPeriodNs)
  | some last => min last (wave.lastEdge (phase + check * watchdogPeriodNs))

def checked (last : Option Nat) (phase : Nat) (before : Watchdog) : Nat → Watchdog × Bool
  | 0 => watchdogCheck (wave.block 0) (wave.compv (wave.seenEdge last phase 0)) before
  | check + 1 => watchdogCheck (wave.block (check + 1))
      (wave.compv (wave.seenEdge last phase (check + 1)))
      (checked last phase before check).1

def firstStuck (last phase : Nat) : Nat :=
  (wave.edgeTime last - phase + (watchdogPeriodNs - 1)) / watchdogPeriodNs

/-- The first check finds COMPV moved. -/
def Fresh (last : Option Nat) (phase : Nat) (before : Watchdog) : Prop :=
  before.lastCompv ≠ wave.compv (wave.seenEdge last phase 0)

/-- No check warns while every edge fires; once COMPV stops, one check does. -/
def Accurate : Prop :=
  (∀ phase before, wave.Fresh none phase before →
    ∀ check, (wave.checked none phase before check).2 = false) ∧
  ∀ last phase before, wave.Fresh (some last) phase before →
    ∃! stalls, stalls * watchdogPeriodS < 2 ^ 32 ∧
      (wave.checked (some last) phase before (wave.firstStuck last phase + stalls)).2 = true

section edges

theorem edge_time_succ (edge : Nat) :
    wave.edgeTime (edge + 1) =
      wave.edgeTime edge + if edge % 2 = 0 then wave.highNs else wave.lowNs := by
  unfold edgeTime
  rcases Nat.mod_two_eq_zero_or_one edge with even | odd
  · have half : (edge + 1) / 2 = edge / 2 := by omega
    have next : (edge + 1) % 2 = 1 := by omega
    rw [half, next, even, if_pos rfl]
    omega
  · have half : (edge + 1) / 2 = edge / 2 + 1 := by omega
    have next : (edge + 1) % 2 = 0 := by omega
    rw [half, next, odd, if_neg (by omega), Nat.add_mul]
    omega

theorem edge_time_mono : Monotone wave.edgeTime := by
  apply monotone_nat_of_le_succ
  intro edge
  rw [wave.edge_time_succ]
  exact Nat.le_add_right _ _

theorem edge_time_gap (edge : Nat) :
    wave.edgeTime (edge + 1) ≤ wave.edgeTime edge + max wave.highNs wave.lowNs := by
  rw [wave.edge_time_succ]
  apply Nat.add_le_add_left
  split
  · exact le_max_left _ _
  · exact le_max_right _ _

theorem last_edge_bounds (time : Nat) :
    wave.edgeTime (wave.lastEdge time) ≤ time ∧
      time < wave.edgeTime (wave.lastEdge time + 1) := by
  have positive : 0 < wave.highNs + wave.lowNs := Nat.add_pos_left wave.highPos _
  have parts := Nat.div_add_mod time (wave.highNs + wave.lowNs)
  have inside := Nat.mod_lt time positive
  rw [wave.edge_time_succ]
  unfold edgeTime lastEdge
  rw [Nat.mul_comm] at parts
  split
  next high =>
    have half : (2 * (time / (wave.highNs + wave.lowNs)) + 0) / 2 =
        time / (wave.highNs + wave.lowNs) := by omega
    have even : (2 * (time / (wave.highNs + wave.lowNs)) + 0) % 2 = 0 := by omega
    rw [half, even, if_pos rfl]
    omega
  next low =>
    have half : (2 * (time / (wave.highNs + wave.lowNs)) + 1) / 2 =
        time / (wave.highNs + wave.lowNs) := by omega
    have odd : (2 * (time / (wave.highNs + wave.lowNs)) + 1) % 2 = 1 := by omega
    rw [half, odd, if_neg (by omega)]
    omega

theorem edge_time_le {edge later : Nat} (lt : edge < later) :
    wave.edgeTime (edge + 1) ≤ wave.edgeTime later :=
  wave.edge_time_mono lt

theorem last_edge_eq {edge time : Nat} (after : wave.edgeTime edge ≤ time)
    (before : time < wave.edgeTime (edge + 1)) : wave.lastEdge time = edge := by
  obtain ⟨lower, upper⟩ := wave.last_edge_bounds time
  rcases Nat.lt_trichotomy (wave.lastEdge time) edge with earlier | same | later
  · have next := wave.edge_time_le earlier
    omega
  · exact same
  · have next := wave.edge_time_le later
    omega

theorem last_edge_mono : Monotone wave.lastEdge := by
  intro time later le
  by_contra earlier
  have back := wave.edge_time_le (Nat.lt_of_not_le earlier)
  have lower := (wave.last_edge_bounds time).1
  have upper := (wave.last_edge_bounds later).2
  omega

end edges

section checks

variable {wave} {last : Option Nat} {phase : Nat} {before : Watchdog}

theorem seen_edge_mono {check later : Nat} (le : check ≤ later) :
    wave.seenEdge last phase check ≤ wave.seenEdge last phase later := by
  have times : phase + check * watchdogPeriodNs ≤ phase + later * watchdogPeriodNs :=
    Nat.add_le_add_left (Nat.mul_le_mul_right _ le) _
  have edges := wave.last_edge_mono times
  cases last with
  | none => exact edges
  | some last => exact min_le_min_left last edges

theorem compv_moves {check : Nat}
    (moved : wave.seenEdge last phase (check + 1) ≠ wave.seenEdge last phase check) :
    wave.compv (wave.seenEdge last phase (check + 1)) ≠
      wave.compv (wave.seenEdge last phase check) := by
  have later : wave.seenEdge last phase check < wave.seenEdge last phase (check + 1) :=
    lt_of_le_of_ne (seen_edge_mono (Nat.le_succ check)) moved.symm
  have upper := (wave.last_edge_bounds (phase + check * watchdogPeriodNs)).2
  have lower := (wave.last_edge_bounds (phase + (check + 1) * watchdogPeriodNs)).1
  rw [Nat.add_mul, Nat.one_mul] at lower
  refine (wave.moves _ _ later ?_).symm
  change wave.edgeTime _ ≤ wave.edgeTime (_ + 1) + _
  cases last with
  | none =>
      unfold seenEdge
      dsimp only
      rw [Nat.add_mul, Nat.one_mul]
      omega
  | some last =>
      unfold seenEdge at later ⊢
      dsimp only at later ⊢
      rw [Nat.add_mul, Nat.one_mul] at later ⊢
      have running : min last (wave.lastEdge (phase + check * watchdogPeriodNs)) =
          wave.lastEdge (phase + check * watchdogPeriodNs) := by omega
      rw [running]
      have fired := wave.edge_time_mono (min_le_right last
        (wave.lastEdge (phase + (check * watchdogPeriodNs + watchdogPeriodNs))))
      omega

theorem checked_eq (fresh : wave.Fresh last phase before) (check : Nat) :
    (wave.checked last phase before check).1 =
      ⟨wave.compv (wave.seenEdge last phase check),
        sightings (wave.seenEdge last phase) check % 2 ^ 32⟩ := by
  induction check with
  | zero =>
      unfold checked watchdogCheck
      rw [if_neg (not_not.mpr (wave.watched 0)), if_pos (Ne.symm fresh)]
      rfl
  | succ check ih =>
      unfold checked watchdogCheck
      rw [if_neg (not_not.mpr (wave.watched _)), ih, sightings]
      dsimp only
      by_cases same : wave.seenEdge last phase (check + 1) = wave.seenEdge last phase check
      · rw [if_neg (by rw [same]; exact not_not.mpr rfl), if_pos same, same]
        simp only [Nat.mod_add_mod]
      · rw [if_pos (compv_moves same), if_neg same]
        rfl

theorem checked_warns (fresh : wave.Fresh last phase before) (check : Nat) :
    (wave.checked last phase before check).2 =
      stallWarns wave.highNs (sightings (wave.seenEdge last phase) check % 2 ^ 32) := by
  cases check with
  | zero =>
      unfold checked watchdogCheck
      rw [if_neg (not_not.mpr (wave.watched 0)), if_pos (Ne.symm fresh)]
      exact (stall_warns_early (Nat.zero_le _)).symm
  | succ check =>
      unfold checked watchdogCheck
      rw [if_neg (not_not.mpr (wave.watched _)), checked_eq fresh, sightings, wave.times]
      dsimp only
      by_cases same : wave.seenEdge last phase (check + 1) = wave.seenEdge last phase check
      · rw [if_neg (by rw [same]; exact not_not.mpr rfl), if_pos same]
        simp only [Nat.mod_add_mod]
      · rw [if_pos (compv_moves same), if_neg same]
        exact (stall_warns_early (Nat.zero_le _)).symm

theorem healthy_seen (check : Nat) :
    wave.seenEdge none phase check = wave.lastEdge (phase + check * watchdogPeriodNs) := rfl

/-- Between two checks that see the same edge lies less than the longer half. -/
theorem healthy_sightings (check : Nat) :
    sightings (wave.seenEdge none phase) check * watchdogPeriodNs <
      max wave.highNs wave.lowNs := by
  obtain ⟨le, same⟩ := @sightings_same (wave.seenEdge none phase) check
  rw [healthy_seen, healthy_seen] at same
  have first := (wave.last_edge_bounds
    (phase + (check - sightings (wave.seenEdge none phase) check) * watchdogPeriodNs)).1
  have latest := (wave.last_edge_bounds (phase + check * watchdogPeriodNs)).2
  have gap := wave.edge_time_gap (wave.lastEdge (phase + check * watchdogPeriodNs))
  have split : check * watchdogPeriodNs =
      (check - sightings (wave.seenEdge none phase) check) * watchdogPeriodNs +
        sightings (wave.seenEdge none phase) check * watchdogPeriodNs := by
    rw [← Nat.add_mul, Nat.sub_add_cancel le]
  rw [same] at first
  omega

theorem long_half_sightings {edge count : Nat}
    (long : wave.edgeTime edge + count * watchdogPeriodNs < wave.edgeTime (edge + 1)) :
    sightings (wave.seenEdge none (wave.edgeTime edge)) count = count := by
  have steady : ∀ later, later ≤ count →
      wave.seenEdge none (wave.edgeTime edge) (0 + later) =
        wave.seenEdge none (wave.edgeTime edge) 0 := by
    intro later le
    have short := Nat.mul_le_mul_right watchdogPeriodNs le
    rw [healthy_seen, healthy_seen, Nat.zero_add,
      wave.last_edge_eq (Nat.le_add_right _ _) (by omega),
      wave.last_edge_eq (Nat.le_add_right _ _) (by omega)]
  have counted := sightings_steady (.inl rfl) count steady
  rwa [Nat.zero_add] at counted

theorem stuck_seen (last phase later : Nat) :
    wave.seenEdge (some last) phase (wave.firstStuck last phase + later) = last := by
  have positive : 0 < watchdogPeriodNs := by decide
  have reached : wave.edgeTime last ≤
      phase + (wave.firstStuck last phase + later) * watchdogPeriodNs := by
    have rounded := Nat.lt_div_mul_add positive
      (a := wave.edgeTime last - phase + (watchdogPeriodNs - 1))
    unfold firstStuck
    rw [Nat.add_mul]
    omega
  apply min_eq_left
  by_contra earlier
  have next := wave.edge_time_le (Nat.lt_of_not_le earlier)
  have upper := (wave.last_edge_bounds
    (phase + (wave.firstStuck last phase + later) * watchdogPeriodNs)).2
  omega

/-- Before that check the last edge has not fired. -/
theorem stuck_new (last phase : Nat) :
    wave.firstStuck last phase = 0 ∨
      wave.seenEdge (some last) phase (wave.firstStuck last phase - 1) ≠
        wave.seenEdge (some last) phase (wave.firstStuck last phase) := by
  by_cases none_ : wave.firstStuck last phase = 0
  · exact .inl none_
  · refine .inr fun same => ?_
    have seen := wave.stuck_seen last phase 0
    rw [Nat.add_zero, ← same] at seen
    have fired := wave.edge_time_mono (min_eq_left_iff.mp seen)
    have lower := (wave.last_edge_bounds
      (phase + (wave.firstStuck last phase - 1) * watchdogPeriodNs)).1
    have rounded := Nat.div_mul_le_self
      (wave.edgeTime last - phase + (watchdogPeriodNs - 1)) watchdogPeriodNs
    have positive : 0 < watchdogPeriodNs := by decide
    change wave.firstStuck last phase * watchdogPeriodNs ≤ _ at rounded
    rw [Nat.sub_one_mul] at fired lower
    have whole := Nat.mul_le_mul_right watchdogPeriodNs (Nat.one_le_iff_ne_zero.mpr none_)
    omega

theorem stuck_sightings (last phase stalls : Nat) :
    sightings (wave.seenEdge (some last) phase) (wave.firstStuck last phase + stalls) =
      stalls := by
  have first := wave.stuck_seen last phase 0
  rw [Nat.add_zero] at first
  exact sightings_steady (wave.stuck_new last phase) stalls fun later _ =>
    (wave.stuck_seen last phase later).trans first.symm

end checks

def unseen (last : Option Nat) (phase : Nat) : Watchdog :=
  ⟨wave.compv (wave.seenEdge last phase 0) + 1, 0⟩

theorem unseen_fresh (last : Option Nat) (phase : Nat) :
    wave.Fresh last phase (wave.unseen last phase) :=
  Nat.succ_ne_self _

theorem long_half_warns (edge : Nat)
    (reached : warningStalls wave.highNs * watchdogPeriodS < 2 ^ 32)
    (long : wave.edgeTime edge + warningStalls wave.highNs * watchdogPeriodNs <
      wave.edgeTime (edge + 1)) :
    (wave.checked none (wave.edgeTime edge) (wave.unseen none (wave.edgeTime edge))
      (warningStalls wave.highNs)).2 ≠ false := by
  rw [checked_warns (wave.unseen_fresh none _), long_half_sightings long, Nat.mod_eq_of_lt (by
    unfold watchdogPeriodS at reached
    omega), stall_warns_late rfl]
  exact Bool.noConfusion

/-- The watchdog is accurate when no half is longer than the checks that pass
before it warns, and the count reaches the warning. -/
theorem accurate_iff_short :
    wave.Accurate ↔
      max wave.highNs wave.lowNs ≤ warningStalls wave.highNs * watchdogPeriodNs ∧
        warningStalls wave.highNs * watchdogPeriodS < 2 ^ 32 := by
  constructor
  · rintro ⟨healthy, stuck⟩
    have reached : warningStalls wave.highNs * watchdogPeriodS < 2 ^ 32 := by
      obtain ⟨stalls, ⟨short, warns⟩, -⟩ := stuck 0 0 _ (wave.unseen_fresh (some 0) 0)
      rw [checked_warns (wave.unseen_fresh (some 0) 0), stuck_sightings, Nat.mod_eq_of_lt (by
        unfold watchdogPeriodS at short
        omega)] at warns
      exact (stall_warns_iff short).mp warns ▸ short
    refine ⟨?_, reached⟩
    by_contra longer
    rcases lt_max_iff.mp (Nat.lt_of_not_le longer) with high | low
    · exact wave.long_half_warns 0 reached (by rw [wave.edge_time_succ 0, if_pos rfl]; omega)
        (healthy _ _ (wave.unseen_fresh none _) _)
    · exact wave.long_half_warns 1 reached
        (by rw [wave.edge_time_succ 1, if_neg (by decide)]; omega)
        (healthy _ _ (wave.unseen_fresh none _) _)
  · rintro ⟨short, reached⟩
    constructor
    · intro phase before fresh check
      rw [checked_warns fresh]
      apply stall_warns_early
      have gap := @healthy_sightings wave phase check
      have few : sightings (wave.seenEdge none phase) check < warningStalls wave.highNs :=
        Nat.lt_of_mul_lt_mul_right (gap.trans_le short)
      unfold warningStalls at few reached
      unfold watchdogPeriodS at *
      rw [Nat.mod_eq_of_lt (by omega)]
      omega
    · intro last phase before fresh
      refine ⟨warningStalls wave.highNs, ⟨reached, ?_⟩, ?_⟩
      · rw [checked_warns fresh, stuck_sightings, Nat.mod_eq_of_lt (by
          unfold watchdogPeriodS at reached
          omega)]
        exact stall_warns_late rfl
      · rintro stalls ⟨short, warns⟩
        rw [checked_warns fresh, stuck_sightings, Nat.mod_eq_of_lt (by
          unfold watchdogPeriodS at short
          omega)] at warns
        exact (stall_warns_iff short).mp warns

/-- The longest half against the limit, which the high time alone sets: checks
until the first one beyond the limit must not fit into a half. -/
theorem accurate_iff :
    wave.Accurate ↔
      max wave.highNs wave.lowNs ≤
          (max 30 (3 * (u64 (2 * wave.highNs) / nsecPerSec)) / 10 + 1) * (10 * nsecPerSec) ∧
        (max 30 (3 * (u64 (2 * wave.highNs) / nsecPerSec)) / 10 + 1) * 10 < 2 ^ 32 := by
  have short := wave.accurate_iff_short
  unfold warningStalls stallLimitS watchdogPeriodNs watchdogPeriodS at short
  exact short

end WatchedOutput

/-- A block in duty mode, counting nanoseconds. -/
def dutyBlock (highNs lowNs : Nat) : MmioBlock where
  outputAppliedGen := 0
  outputAppliedFreqGen := 0
  outputAppliedFlipGen := 0
  outputPhase := .hwDuty
  outputHwFirstArt := 0
  outputHwPiv := nsecPerSec
  outputHwCkptCompv := 0
  outputHwFlopHigh := false
  outputHighTimeNs := highNs
  outputLowTimeNs := lowNs
  outputNextEdgeType := .rise
  outputNextEdge := 0
  outputWakeAt := 0

/-- A pulse of one second in every three. -/
def thirdPulse : WatchedOutput where
  highNs := nsecPerSec
  lowNs := 2 * nsecPerSec
  compv edge := edge / 2 * (nsecPerSec + 2 * nsecPerSec) + edge % 2 * nsecPerSec
  block _ := dutyBlock nsecPerSec (2 * nsecPerSec)
  highPos := by decide
  lowPos := by decide
  watched _ := by decide
  times _ := rfl
  moves edge later lt _ := by
    unfold nsecPerSec
    omega

theorem WatchedOutput.accurate_iff_third :
    thirdPulse.Accurate ∧ thirdPulse.Fresh none 0 ⟨1, 0⟩ ∧
      (thirdPulse.checked none 0 ⟨1, 0⟩ 10).2 = false ∧
      (thirdPulse.checked (some 5) 0 ⟨1, 0⟩ 5).2 = true := by
  refine ⟨thirdPulse.accurate_iff.mpr (by decide +kernel), ?_, by decide +kernel, by decide +kernel⟩
  unfold WatchedOutput.Fresh
  decide +kernel

/-- A pulse of one second in every 101, its compare values in nanoseconds. -/
def shortPulse : WatchedOutput where
  highNs := nsecPerSec
  lowNs := 100 * nsecPerSec
  compv edge := edge / 2 * (nsecPerSec + 100 * nsecPerSec) + edge % 2 * nsecPerSec
  block _ := dutyBlock nsecPerSec (100 * nsecPerSec)
  highPos := by decide
  lowPos := by decide
  watched _ := by decide
  times _ := rfl
  moves edge later lt _ := by
    unfold nsecPerSec
    omega

/-- The hardware runs this output, and the watchdog warns of it 41 seconds
after its first edge. -/
theorem short_pulse_warned :
    outputTimesGet (101 * nsecPerSec) nsecPerSec true =
        .ok ⟨101 * nsecPerSec, shortPulse.highNs, shortPulse.lowNs⟩ ∧
      outputCanUseHardware ⟨101 * nsecPerSec, shortPulse.highNs, shortPulse.lowNs⟩ = true ∧
      (shortPulse.checked none nsecPerSec ⟨0, 0⟩ 4).2 = true ∧ ¬shortPulse.Accurate := by
  have warned : (shortPulse.checked none nsecPerSec ⟨0, 0⟩ 4).2 = true := by decide +kernel
  have fresh : shortPulse.Fresh none nsecPerSec ⟨0, 0⟩ := by
    unfold WatchedOutput.Fresh
    decide +kernel
  refine ⟨by decide, by decide, warned, fun accurate => ?_⟩
  have quiet := accurate.1 nsecPerSec ⟨0, 0⟩ fresh 4
  rw [warned] at quiet
  contradiction

end Tgpio

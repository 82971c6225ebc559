import Tgpio.InputStatistics

/-!
# Pairing captures into durations

A capture on one input waits for one on the other. Taken off a sequence of
captures from the front, the durations are those of neighbours on opposite
blocks.
-/

namespace Tgpio

open Statistics

set_option autoImplicit false

/-- Neighbours on opposite blocks, none of them used twice. -/
def pairs : List Capture → List (Capture × Capture)
  | [] => []
  | [_] => []
  | first :: second :: rest =>
    if first.block = second.block then pairs (second :: rest)
    else (first, second) :: pairs rest

/-- The capture that waits for one on the other block. -/
def waiting : List Capture → Option Capture
  | [] => none
  | [capture] => some capture
  | first :: second :: rest =>
    if first.block = second.block then waiting (second :: rest) else waiting rest

/-- The pair that another capture completes. -/
def completed (before : List Capture) (capture : Capture) : Option (Capture × Capture) :=
  match waiting before with
  | none => none
  | some first => if first.block = capture.block then none else some (first, capture)

def pairCycles (pair : Capture × Capture) : Nat := ((pair.1.art : Int) - pair.2.art).natAbs

def startStop (tdcStart : Nat) (pair : Capture × Capture) : Capture × Capture :=
  if pair.2.block.val = tdcStart % 2 then (pair.2, pair.1) else pair

/-- The duration of a pair in clock time, stop minus start, where the clock can
tell it. -/
def pairDuration (setting : CaptureSetting) (pair : Capture × Capture) : Option Int :=
  match clockArtCyclesToDeltaNs setting.params setting.clocks (pairCycles pair) with
  | .error _ => none
  | .ok ns =>
    if ns > s64Max then none
    else if (startStop setting.tdcStart pair).2.art < (startStop setting.tdcStart pair).1.art then
      some (-(ns : Int))
    else some ns

def measured (setting : CaptureSetting) (captures : List Capture) : List (Nat × Int) :=
  (pairs captures).filterMap fun pair => (pairDuration setting pair).map (pairCycles pair, ·)

def durations (setting : CaptureSetting) (captures : List Capture) : List Int :=
  (measured setting captures).map Prod.snd

def tdcRun (setting : CaptureSetting) (captures : List Capture) : Tdc :=
  captures.foldl (tdcCapture setting) Tdc.loaded

section sequences

variable (before captures : List Capture) (capture : Capture)

theorem pairs_append_singleton :
    pairs (before ++ [capture]) = pairs before ++ (completed before capture).toList := by
  unfold completed
  induction before using pairs.induct with
  | case1 => rfl
  | case2 first =>
      simp only [List.singleton_append, pairs, waiting, List.nil_append]
      split <;> rfl
  | case3 first second rest same ih =>
      rw [pairs, if_pos same, waiting, if_pos same, ← ih]
      exact if_pos same
  | case4 first second rest other ih =>
      rw [pairs, if_neg other, waiting, if_neg other]
      exact (if_neg other).trans (congrArg _ ih)

theorem waiting_append_singleton :
    waiting (before ++ [capture]) =
      if completed before capture = none then some capture else none := by
  unfold completed
  induction before using pairs.induct with
  | case1 => rfl
  | case2 first =>
      simp only [List.singleton_append, waiting]
      split <;> rfl
  | case3 first second rest same ih =>
      rw [waiting, if_pos same, ← ih]
      exact if_pos same
  | case4 first second rest other ih =>
      rw [waiting, if_neg other, ← ih]
      exact if_neg other

/-- What waits is the latest capture. -/
theorem waiting_latest {first : Capture} (waits : waiting before = some first) :
    before.getLast? = some first := by
  induction before using List.reverseRecOn with
  | nil => contradiction
  | append_singleton before capture ih =>
      rw [waiting_append_singleton] at waits
      split at waits
      · cases waits
        exact List.getLast?_concat
      · contradiction

theorem pairs_sublist :
    List.Sublist ((pairs captures).flatMap fun pair => [pair.1, pair.2]) captures := by
  induction captures using pairs.induct with
  | case1 => exact List.Sublist.slnil
  | case2 first => exact List.nil_sublist _
  | case3 first second rest same ih =>
      rw [pairs, if_pos same]
      exact ih.cons first
  | case4 first second rest other ih =>
      rw [pairs, if_neg other, List.flatMap_cons]
      exact (ih.cons_cons second).cons_cons first

theorem pairs_opposite {pair : Capture × Capture} (member : pair ∈ pairs captures) :
    pair.1.block ≠ pair.2.block := by
  induction captures using pairs.induct with
  | case1 => contradiction
  | case2 first => contradiction
  | case3 first second rest same ih =>
      rw [pairs, if_pos same] at member
      exact ih member
  | case4 first second rest other ih =>
      rw [pairs, if_neg other] at member
      rcases List.mem_cons.mp member with rfl | later
      · exact other
      · exact ih later

end sequences

section runs

variable {setting : CaptureSetting} {tdc : Tdc} {captures : List Capture}

theorem tdc_capture_eq (on : setting.tdc = true) (capture : Capture) :
    tdcCapture setting tdc capture =
      if tdc.pending ∧ tdc.pendingBlock ≠ capture.block then
        tdcMeasure setting { tdc with lost := countLost capture.eventDelta tdc.lost } capture
      else { tdc with
        lost := countLost capture.eventDelta tdc.lost
        pending := true
        pendingBlock := capture.block
        pendingArt := capture.art } := by
  unfold tdcCapture
  rw [if_neg (by simp [on])]
  dsimp only
  by_cases waits : ¬tdc.pending = true ∨ tdc.pendingBlock = capture.block
  · rw [if_pos waits, if_neg (by tauto)]
  · rw [if_neg waits, if_pos (by tauto)]

theorem tdc_measure_eq {pair : Capture × Capture} (waits : tdc.pendingArt = pair.1.art) :
    tdcMeasure setting tdc pair.2 =
      match pairDuration setting pair with
      | none => { tdc with pending := false }
      | some duration => { tdc with
          pending := false
          lastCycles := pairCycles pair
          durations := recordValue tdc.durations duration } := by
  unfold tdcMeasure pairDuration startStop
  rw [waits]
  by_cases starts : pair.2.block.val = setting.tdcStart % 2
  · simp only [if_pos starts]
    have cycles : (if pair.1.art < pair.2.art then pair.2.art - pair.1.art
        else pair.1.art - pair.2.art) = pairCycles pair := by
      unfold pairCycles
      split <;> omega
    rw [cycles]
    cases clockArtCyclesToDeltaNs setting.params setting.clocks (pairCycles pair) with
    | error status => rfl
    | ok ns =>
        dsimp only
        by_cases far : ns > s64Max
        · rw [if_pos far, if_pos far]
        · rw [if_neg far, if_neg far]
          split <;> rfl
  · simp only [if_neg starts]
    have cycles : (if pair.2.art < pair.1.art then pair.1.art - pair.2.art
        else pair.2.art - pair.1.art) = pairCycles pair := by
      unfold pairCycles
      split <;> omega
    rw [cycles]
    cases clockArtCyclesToDeltaNs setting.params setting.clocks (pairCycles pair) with
    | error status => rfl
    | ok ns =>
        dsimp only
        by_cases far : ns > s64Max
        · rw [if_pos far, if_pos far]
        · rw [if_neg far, if_neg far]
          split <;> rfl

/-- What the state says about the captures so far. -/
structure Accounts (setting : CaptureSetting) (captures : List Capture) (tdc : Tdc) : Prop where
  pending : tdc.pending = (waiting captures).isSome
  first : ∀ capture ∈ waiting captures, tdc.pendingBlock = capture.block ∧
    tdc.pendingArt = capture.art
  cycles : tdc.lastCycles = ((measured setting captures).getLast?.map Prod.fst).getD 0
  statistics : tdc.durations = wrapped (tallied (durations setting captures))

theorem measured_append_singleton (captures : List Capture) (capture : Capture) :
    measured setting (captures ++ [capture]) = measured setting captures ++
      ((completed captures capture).bind fun pair =>
        (pairDuration setting pair).map (pairCycles pair, ·)).toList := by
  unfold measured
  rw [pairs_append_singleton, List.filterMap_append]
  congr 1
  cases completed captures capture with
  | none => rfl
  | some pair =>
      cases measures : pairDuration setting pair <;> simp [measures]

theorem durations_length (captures : List Capture) :
    (durations setting captures).length ≤ (pairs captures).length := by
  rw [durations, List.length_map]
  exact List.length_filterMap_le _ _

theorem Accounts.wait (accounts : Accounts setting captures tdc) (capture : Capture)
    (alone : completed captures capture = none) (lost : Nat) :
    Accounts setting (captures ++ [capture])
      { tdc with
        lost := lost
        pending := true
        pendingBlock := capture.block
        pendingArt := capture.art } := by
  have waits := waiting_append_singleton captures capture
  rw [if_pos alone] at waits
  have same := @measured_append_singleton setting captures capture
  rw [alone, Option.bind_none, Option.toList_none, List.append_nil] at same
  constructor
  · rw [waits]
    rfl
  · rw [waits]
    rintro _ ⟨⟩
    exact ⟨rfl, rfl⟩
  · rw [same]
    exact accounts.cycles
  · rw [Tgpio.durations, same]
    exact accounts.statistics

theorem Accounts.measure (accounts : Accounts setting captures tdc)
    {first capture : Capture} (few : (pairs (captures ++ [capture])).length < 2 ^ 64)
    (waits : waiting captures = some first) (other : first.block ≠ capture.block) (lost : Nat) :
    Accounts setting (captures ++ [capture])
      (tdcMeasure setting { tdc with lost := lost } capture) := by
  have completes : completed captures capture = some (first, capture) := by
    unfold completed
    rw [waits]
    exact if_neg other
  have idle := waiting_append_singleton captures capture
  rw [completes, if_neg (by simp)] at idle
  have more := @measured_append_singleton setting captures capture
  rw [completes, Option.bind_some] at more
  have counted : (tallied (Tgpio.durations setting captures)).count + 1 < 2 ^ 64 := by
    have length := @durations_length setting captures
    rw [pairs_append_singleton, completes, List.length_append] at few
    rw [tallied_count]
    exact (Nat.add_le_add_right length 1).trans_lt few
  have waited : ({ tdc with lost := lost } : Tdc).pendingArt = (first, capture).1.art :=
    (accounts.first first waits).2
  have measures := @tdc_measure_eq setting { tdc with lost := lost } (first, capture) waited
  change tdcMeasure setting { tdc with lost := lost } capture = _ at measures
  rw [measures]
  cases duration : pairDuration setting (first, capture) with
  | none =>
      rw [duration, Option.map_none, Option.toList_none, List.append_nil] at more
      constructor
      · rw [idle]
        rfl
      · rw [idle]
        rintro _ ⟨⟩
      · rw [more]
        exact accounts.cycles
      · rw [Tgpio.durations, more]
        exact accounts.statistics
  | some ns =>
      rw [duration, Option.map_some, Option.toList_some] at more
      constructor
      · rw [idle]
        rfl
      · rw [idle]
        rintro _ ⟨⟩
      · rw [more, List.getLast?_concat]
        rfl
      · change recordValue tdc.durations ns = _
        rw [accounts.statistics, record_value_eq _ _ counted, ← tallied_append]
        unfold Tgpio.durations
        rw [more, List.map_append]
        rfl

theorem Accounts.capture (accounts : Accounts setting captures tdc) (on : setting.tdc = true)
    (capture : Capture) (few : (pairs (captures ++ [capture])).length < 2 ^ 64) :
    Accounts setting (captures ++ [capture]) (tdcCapture setting tdc capture) := by
  have isPending := accounts.pending
  rw [tdc_capture_eq on]
  cases waits : waiting captures with
  | none =>
      rw [waits, Option.isSome_none] at isPending
      rw [if_neg (by simp [isPending])]
      exact accounts.wait capture (by simp [completed, waits]) _
  | some first =>
      rw [waits, Option.isSome_some] at isPending
      have isBlock := (accounts.first first waits).1
      by_cases same : first.block = capture.block
      · rw [if_neg (by simp [isBlock, same])]
        exact accounts.wait capture (by simp [completed, waits, same]) _
      · rw [if_pos (by simp [isPending, isBlock, same])]
        exact accounts.measure few waits same _

theorem accounts_run (on : setting.tdc = true) (captures : List Capture)
    (few : (pairs captures).length < 2 ^ 64) :
    Accounts setting captures (tdcRun setting captures) := by
  induction captures using List.reverseRecOn with
  | nil => exact ⟨rfl, nofun, rfl, rfl⟩
  | append_singleton captures capture ih =>
      have fewer : (pairs captures).length < 2 ^ 64 := by
        rw [pairs_append_singleton, List.length_append] at few
        exact (Nat.le_add_right _ _).trans_lt few
      have next := (ih fewer).capture on capture few
      rw [tdcRun, List.foldl_append]
      exact next

end runs

section steps

variable (setting : CaptureSetting) (before : List Capture) (capture : Capture)

/-- A capture on the block opposite to the pending one is measured with the
latest capture; every other capture is the pending one from then on. -/
def PairsLatest : Prop :=
  let tdc := tdcRun setting before
  let lost := countLost capture.eventDelta tdc.lost
  if tdc.pending ∧ tdc.pendingBlock ≠ capture.block then
    ∃ latest duration, before.getLast? = some latest ∧ latest.block = tdc.pendingBlock ∧
      pairs (before ++ [capture]) = pairs before ++ [(latest, capture)] ∧
      pairDuration setting (latest, capture) = some duration ∧
      tdcRun setting (before ++ [capture]) = { tdc with
        lost := lost
        pending := false
        lastCycles := pairCycles (latest, capture)
        durations := recordValue tdc.durations duration }
  else
    pairs (before ++ [capture]) = pairs before ∧
      tdcRun setting (before ++ [capture]) = { tdc with
        lost := lost
        pending := true
        pendingBlock := capture.block
        pendingArt := capture.art }

variable {setting before capture}

theorem pairs_latest (on : setting.tdc = true) (few : (pairs before).length < 2 ^ 64)
    (converts : ∀ pair ∈ pairs (before ++ [capture]), (pairDuration setting pair).isSome) :
    PairsLatest setting before capture := by
  have accounts := accounts_run on before few
  have isPending := accounts.pending
  have more := pairs_append_singleton before capture
  have next := @tdc_capture_eq setting (tdcRun setting before) on capture
  have step : tdcRun setting (before ++ [capture]) =
      tdcCapture setting (tdcRun setting before) capture := by
    rw [tdcRun, List.foldl_append]
    rfl
  rw [← step] at next
  unfold PairsLatest
  dsimp only
  split
  next opposite =>
    rw [if_pos opposite] at next
    rw [opposite.1] at isPending
    obtain ⟨latest, waits⟩ := Option.isSome_iff_exists.mp isPending.symm
    obtain ⟨block, art⟩ := accounts.first latest waits
    have completes : completed before capture = some (latest, capture) := by
      unfold completed
      rw [waits]
      exact if_neg (block ▸ opposite.2)
    rw [completes, Option.toList_some] at more
    obtain ⟨duration, measures⟩ := Option.isSome_iff_exists.mp
      (converts (latest, capture) (by rw [more]; simp))
    have result := @tdc_measure_eq setting
      { tdcRun setting before with
        lost := countLost capture.eventDelta (tdcRun setting before).lost }
      (latest, capture) art
    rw [measures] at result
    exact ⟨latest, duration, waiting_latest before waits, block.symm, more, measures,
      next.trans result⟩
  next waits =>
    rw [if_neg waits] at next
    have alone : completed before capture = none := by
      unfold completed
      cases pending : waiting before with
      | none => rfl
      | some latest =>
          rw [pending] at isPending
          rw [(accounts.first latest pending).1] at waits
          exact if_pos (by simpa [isPending] using waits)
    rw [alone, Option.toList_none, List.append_nil] at more
    exact ⟨more, next⟩

end steps

/-- What statistics of 64 bits say of some durations. -/
structure Reports (durations : List Int) (tally : Tally Int) : Prop where
  count : tally.count = durations.length
  last : ∀ duration ∈ durations.getLast?, tally.last = duration
  min : durations ≠ [] → IsLeast {duration | duration ∈ durations} tally.min
  max : durations ≠ [] → IsGreatest {duration | duration ∈ durations} tally.max
  sum : tally.sum = durations.sum

/-- What they say of the negated durations; the least sum has no negative. -/
structure Negates (tally other : Tally Int) : Prop where
  count : other.count = tally.count
  last : other.last = -tally.last
  min : other.min = -tally.max
  max : other.max = -tally.min
  sum : tally.sum ≠ s64Min → other.sum = -tally.sum

theorem wrapped_reports {values : List Int} (few : values.length < 2 ^ 64)
    (fits : s64Min ≤ values.sum ∧ values.sum ≤ s64Max) :
    Reports values (wrapped (tallied values)) := by
  unfold s64Min s64Max at fits
  constructor
  · rw [wrapped, tallied_count, u64_of_lt few]
  · intro value last
    obtain ⟨earlier, rfl⟩ := List.getLast?_eq_some_iff.mp last
    exact tallied_last earlier value
  · exact fun some_ => tallied_min some_
  · exact fun some_ => tallied_max some_
  · rw [wrapped, tallied_sum]
    exact to_s64_of_range (by omega) (by omega)

theorem wrapped_negates {values : List Int}
    (fits : s64Min ≤ values.sum ∧ values.sum ≤ s64Max) :
    Negates (wrapped (tallied values)) (wrapped (tallied (values.map fun value => -value))) := by
  rw [tallied_neg]
  constructor
  · rfl
  · rfl
  · rfl
  · rfl
  · intro negative
    unfold wrapped Tally.negated at *
    unfold s64Min s64Max at *
    dsimp only at *
    rw [tallied_sum] at *
    rw [to_s64_of_range (by omega) (by omega)] at negative
    rw [to_s64_of_range (by omega) (by omega), to_s64_of_range (by omega) (by omega)]

section roles

variable {setting : CaptureSetting} {pair : Capture × Capture} {otherStart : Nat}

theorem rescale_nothing {srcHz dstHz result : Nat} {roundNearest : Bool}
    (scaled : rescaleCommon 0 srcHz dstHz roundNearest = .ok result) : result = 0 := by
  unfold rescaleCommon at scaled
  split at scaled
  · contradiction
  next known =>
    have source : ¬0 ≥ srcHz := by omega
    simp [rescaleSub, u64, source] at scaled
    exact scaled.symm

theorem no_cycles_no_time {params : Params} {clocks : Clocks} {ns : Nat}
    (converted : clockArtCyclesToDeltaNs params clocks 0 = .ok ns) : ns = 0 := by
  unfold clockArtCyclesToDeltaNs at converted
  split at converted
  · unfold phcArtCyclesToDeltaNs cyclesDeltaToNs at converted
    rw [if_neg (by decide), if_pos rfl] at converted
    cases scaled : rescaleNearest (absS64 0) clocks.phc.baseArtHz nsecPerSec with
    | error status =>
        change rescaleNearest (absS64 ((0 : Nat) : Int)) _ _ = _ at scaled
        rw [scaled] at converted
        contradiction
    | ok base =>
        have nothing := rescale_nothing scaled
        change rescaleNearest (absS64 ((0 : Nat) : Int)) _ _ = _ at scaled
        rw [scaled, nothing] at converted
        simp [Except.bind, signed, phcBaseToAdjustedDelta, applyPpbToNs, addS64] at converted
        exact converted.symm
  · unfold artCyclesToRealtimeDeltaNs at converted
    split at converted
    · contradiction
    · exact rescale_nothing converted

/-- The other block starts: what started now stops. -/
theorem start_stop_swap (opposite : pair.1.block ≠ pair.2.block)
    (swapped : otherStart % 2 ≠ setting.tdcStart % 2) :
    startStop otherStart pair = (startStop setting.tdcStart pair).swap := by
  have blocks : pair.1.block.val ≠ pair.2.block.val := fun same => opposite (Fin.ext same)
  have first := pair.1.block.isLt
  have second := pair.2.block.isLt
  unfold startStop
  by_cases starts : pair.2.block.val = setting.tdcStart % 2
  · rw [if_pos starts, if_neg (by omega)]
    rfl
  · rw [if_neg starts, if_pos (by omega)]
    rfl

theorem pair_duration_swap (opposite : pair.1.block ≠ pair.2.block)
    (swapped : otherStart % 2 ≠ setting.tdcStart % 2) :
    pairDuration { setting with tdcStart := otherStart } pair =
      (pairDuration setting pair).map fun duration => -duration := by
  have swap := start_stop_swap opposite swapped
  have cycles : pairCycles pair = (((startStop setting.tdcStart pair).1.art : Int) -
      (startStop setting.tdcStart pair).2.art).natAbs := by
    unfold pairCycles startStop
    split
    · dsimp only
      omega
    · rfl
  unfold pairDuration
  rw [swap]
  dsimp only [Prod.fst_swap, Prod.snd_swap]
  cases converted : clockArtCyclesToDeltaNs setting.params setting.clocks (pairCycles pair) with
  | error status => rfl
  | ok ns =>
      dsimp only
      split
      · rfl
      · rcases Nat.lt_trichotomy (startStop setting.tdcStart pair).1.art
          (startStop setting.tdcStart pair).2.art with before | same | after
        · rw [if_pos before, if_neg before.not_gt]
          rfl
        · have none_ : pairCycles pair = 0 := by omega
          rw [none_] at converted
          rw [no_cycles_no_time converted, if_neg same.not_lt, if_neg same.symm.not_lt]
          rfl
        · rw [if_neg after.not_gt, if_pos after, Option.map_some, neg_neg]

theorem measured_swap (captures : List Capture)
    (swapped : otherStart % 2 ≠ setting.tdcStart % 2) :
    measured { setting with tdcStart := otherStart } captures =
      (measured setting captures).map fun entry => (entry.1, -entry.2) := by
  unfold measured
  rw [List.map_filterMap]
  apply List.filterMap_congr
  intro pair member
  rw [pair_duration_swap (pairs_opposite captures member) swapped, Option.map_map, Option.map_map]
  rfl

end roles

theorem pairs_grow {before captures : List Capture} (start : before <+: captures) :
    pairs before <+: pairs captures := by
  obtain ⟨later, rfl⟩ := start
  induction later using List.reverseRecOn with
  | nil => simp
  | append_singleton later capture ih =>
      rw [← List.append_assoc, pairs_append_singleton]
      exact ih.trans (List.prefix_append _ _)

theorem all_measured {setting : CaptureSetting} (captures : List Capture)
    (converts : ∀ pair ∈ pairs captures, (pairDuration setting pair).isSome) :
    (pairs captures).map (pairDuration setting) = (durations setting captures).map some := by
  unfold durations measured
  generalize pairs captures = found at converts ⊢
  induction found with
  | nil => rfl
  | cons pair rest ih =>
      obtain ⟨duration, measures⟩ := Option.isSome_iff_exists.mp (converts pair List.mem_cons_self)
      have later := ih fun pair member => converts pair (List.mem_cons_of_mem _ member)
      rw [List.map_cons, later, measures, List.filterMap_cons, measures]
      rfl

/-- What the driver says of any captures: who is paired with whom, the
statistics of the durations, and those with the other block as the start. -/
theorem tdc_pairs_once (setting : CaptureSetting) (on : setting.tdc = true) (otherStart : Nat)
    (swapped : otherStart % 2 ≠ setting.tdcStart % 2) (captures : List Capture)
    (converts : ∀ pair ∈ pairs captures, (pairDuration setting pair).isSome)
    (few : (pairs captures).length < 2 ^ 64)
    (fits : s64Min ≤ (durations setting captures).sum ∧
      (durations setting captures).sum ≤ s64Max) :
    let other := { setting with tdcStart := otherStart }
    (∀ before capture, before ++ [capture] <+: captures → PairsLatest setting before capture) ∧
      List.Sublist ((pairs captures).flatMap fun pair => [pair.1, pair.2]) captures ∧
      (pairs captures).map (pairDuration setting) = (durations setting captures).map some ∧
      Reports (durations setting captures) (tdcRun setting captures).durations ∧
      durations other captures = (durations setting captures).map (fun duration => -duration) ∧
      Negates (tdcRun setting captures).durations (tdcRun other captures).durations ∧
      (tdcRun other captures).lastCycles = (tdcRun setting captures).lastCycles := by
  have accounts := accounts_run on captures few
  have others := @accounts_run { setting with tdcStart := otherStart } on captures few
  have swap := measured_swap captures swapped
  have negated : durations { setting with tdcStart := otherStart } captures =
      (durations setting captures).map fun duration => -duration := by
    unfold durations
    rw [swap, List.map_map, List.map_map]
    rfl
  refine ⟨fun before capture start => ?_, pairs_sublist captures, ?_, ?_, negated, ?_, ?_⟩
  · have earlier := pairs_grow start
    have fewer := (pairs_grow ((List.prefix_append before [capture]).trans start)).length_le
    exact pairs_latest on (fewer.trans_lt few) fun pair member =>
      converts pair (earlier.subset member)
  · exact all_measured captures converts
  · rw [accounts.statistics]
    exact wrapped_reports ((durations_length captures).trans_lt few) fits
  · rw [accounts.statistics, others.statistics, negated]
    exact wrapped_negates fits
  · rw [accounts.cycles, others.cycles, swap, List.getLast?_map, Option.map_map]
    rfl

section runs

/-- A clock of one cycle for each nanosecond, durations from block 0 to block 1. -/
def stopwatch : CaptureSetting := ⟨true, 0, defaultParams, steadyClocks 0 zero_in_range⟩

def startBlock : Fin 2 := ⟨0, Nat.two_pos⟩
def stopBlock : Fin 2 := ⟨1, Nat.one_lt_two⟩

def captureAt (block : Fin 2) (art : Nat) (artInRange : art < 2 ^ 64 := by decide) : Capture :=
  ⟨block, art, 1, artInRange⟩

/-- A repeated start, a stop, and a stop before its start. -/
def threeEdgesAndTwo : List Capture :=
  [captureAt startBlock 100, captureAt startBlock 150, captureAt stopBlock 250,
    captureAt stopBlock 300, captureAt startBlock 340]

theorem tdc_pairs_once_stopwatch :
    (∀ before capture, before ++ [capture] <+: threeEdgesAndTwo →
      PairsLatest stopwatch before capture) ∧
    durations stopwatch threeEdgesAndTwo = [100, -40] ∧
    (tdcRun stopwatch threeEdgesAndTwo).durations = ⟨2, -40, -40, 100, 60⟩ ∧
    (tdcRun { stopwatch with tdcStart := 1 } threeEdgesAndTwo).durations =
      ⟨2, 40, -100, 40, -60⟩ := by
  have durations : durations stopwatch threeEdgesAndTwo = [100, -40] := by decide +kernel
  have results := tdc_pairs_once stopwatch rfl 1 (by decide) threeEdgesAndTwo (by decide +kernel)
    (by decide +kernel) (by decide +kernel)
  exact ⟨results.1, durations, by decide +kernel, by decide +kernel⟩

def repeated (rounds : Nat) : List Capture :=
  (List.replicate rounds [captureAt startBlock 0, captureAt stopBlock 0]).flatten

theorem pairs_repeated (rounds : Nat) :
    pairs (repeated rounds) = List.replicate rounds (captureAt 0 0, captureAt 1 0) := by
  induction rounds with
  | zero => rfl
  | succ rounds ih =>
      rw [List.replicate_succ, ← ih]
      rfl

theorem count_round {tdc : Tdc} (idle : tdc.pending = false) :
    let next := tdcCapture stopwatch (tdcCapture stopwatch tdc (captureAt 0 0)) (captureAt 1 0)
    next.pending = false ∧ next.durations.count = u64 (tdc.durations.count + 1) := by
  have measures : pairDuration stopwatch (captureAt 0 0, captureAt 1 0) = some 0 := by
    decide +kernel
  have first := (@tdc_capture_eq stopwatch tdc rfl (captureAt 0 0)).trans
    (if_neg (by simp [idle]))
  have second := (@tdc_capture_eq stopwatch (tdcCapture stopwatch tdc (captureAt 0 0)) rfl
    (captureAt 1 0)).trans (if_pos (by rw [first]; exact ⟨rfl, (by decide : (0 : Fin 2) ≠ 1)⟩))
  rw [first, @tdc_measure_eq stopwatch _ (captureAt 0 0, captureAt 1 0) rfl, measures] at second
  rw [first, second]
  exact ⟨rfl, rfl⟩

theorem count_repeated (rounds : Nat) (tdc : Tdc) (idle : tdc.pending = false)
    (counted : tdc.durations.count < 2 ^ 64) :
    ((repeated rounds).foldl (tdcCapture stopwatch) tdc).durations.count =
      u64 (tdc.durations.count + rounds) := by
  induction rounds generalizing tdc with
  | zero => exact (u64_of_lt counted).symm
  | succ rounds ih =>
      obtain ⟨idleNext, count⟩ := count_round idle
      have wraps : u64 (tdc.durations.count + 1) < 2 ^ 64 := Nat.mod_lt _ (by decide)
      have later := ih _ idleNext (count ▸ wraps)
      rw [count] at later
      rw [repeated, List.replicate_succ, List.flatten_cons, List.foldl_append]
      refine later.trans ?_
      unfold u64
      omega

/-- After 2^64 measurements the count is back at zero. -/
theorem tdc_count_wraps :
    (∀ pair ∈ pairs (repeated (2 ^ 64)), pairDuration stopwatch pair = some 0) ∧
      (pairs (repeated (2 ^ 64))).length = 2 ^ 64 ∧
      (tdcRun stopwatch (repeated (2 ^ 64))).durations.count = 0 := by
  have measures : pairDuration stopwatch (captureAt 0 0, captureAt 1 0) = some 0 := by
    decide +kernel
  rw [pairs_repeated, List.length_replicate]
  refine ⟨fun pair member => ?_, rfl, ?_⟩
  · rwa [List.eq_of_mem_replicate member]
  · unfold tdcRun
    rw [count_repeated (2 ^ 64) Tdc.loaded rfl (by decide)]
    decide

end runs

end Tgpio

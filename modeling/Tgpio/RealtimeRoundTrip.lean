import Tgpio.RealtimeConversion

/-!
# Realtime intervals and times there and back

In realtime mode an interval becomes cycles by the measured pair, and cycles
become an interval by the whole cycles of a second that the pair makes. What the
fraction is worth grows with the interval. An absolute time goes through its
distance from the snapshot, for which no distance at all is an error.
-/

namespace Tgpio

open Scaling

set_option autoImplicit false

/-- Realtime mode with one published pair, of a window between four and ten
seconds at 10 to 100 MHz, and one snapshot. -/
structure Published (params : Params) (clocks : Clocks) (artNow : Nat) : Prop where
  mode : params.clockMode = .realtime
  plain : params.experimentalInstantaneousRealtimeProjection = false
  shortest : realtimeRateMinWindowS * nsecPerSec ≤ clocks.realtimeRateRealNs
  longest : clocks.realtimeRateRealNs ≤ 10 * nsecPerSec
  slowest : 10000000 * clocks.realtimeRateRealNs ≤ clocks.realtimeRateArtCycles * nsecPerSec
  fastest : clocks.realtimeRateArtCycles * nsecPerSec ≤ 100000000 * clocks.realtimeRateRealNs
  snapshot : getCurrentArt clocks = .ok artNow
  era : 0 ≤ clocks.real ∧ clocks.real < 2 ^ 63

def returnLimitNs : Nat := 10 ^ 12

section rate

variable (clocks : Clocks)

def wholeRate : Nat := nearest nsecPerSec clocks.realtimeRateRealNs clocks.realtimeRateArtCycles

/-- How far the whole rate is from the cycles of a second by the pair, in cycles for
every window. -/
def rateDrift : Nat :=
  ((wholeRate clocks * clocks.realtimeRateRealNs : Nat) -
    (nsecPerSec * clocks.realtimeRateArtCycles : Nat) : Int).natAbs

/-- The fraction of a cycle lost in every second is worth half a cycle over the
interval, or less. -/
def DriftsLittle (delta : Nat) : Prop :=
  2 * (delta * rateDrift clocks) ≤ nsecPerSec * clocks.realtimeRateRealNs

/-- It is worth half a cycle and three nanoseconds over the longest interval, or
more. -/
def DriftsFar : Prop :=
  (clocks.realtimeRateRealNs + 6 * clocks.realtimeRateArtCycles) *
      (wholeRate clocks * clocks.realtimeRateRealNs) ≤
    2 * (returnLimitNs * rateDrift clocks) * clocks.realtimeRateArtCycles

def WithinCycle (back ns : Int) : Prop :=
  |back - ns| * clocks.realtimeRateArtCycles ≤
    clocks.realtimeRateRealNs + clocks.realtimeRateArtCycles

end rate

section returning

variable (params : Params) (clocks : Clocks)

def IntervalReturns (delta : Nat) : Prop :=
  ∃ cycles back, realtimeDeltaToArtCycles params clocks delta = .ok cycles ∧
    artCyclesToRealtimeDeltaNs params clocks cycles = .ok back ∧ WithinCycle clocks back delta

def TimeReturns (ns : Int) : Prop :=
  ∃ art back, clockNsToArt params clocks ns = .ok art ∧ clockArtToNs params clocks art = .ok back ∧
    WithinCycle clocks back ns

/-- The ART value of a time is one, and the time read back cannot pass the end of
the range. -/
def InScale (artNow : Nat) (ns : Int) : Prop :=
  let cycles := nearest (ns - clocks.real).natAbs clocks.realtimeRateRealNs
    clocks.realtimeRateArtCycles
  if ns ≥ clocks.real then artNow + cycles < 2 ^ 64 ∧ ns + 101 < 2 ^ 63 else cycles ≤ artNow

end returning

section conversions

variable {params : Params} {clocks : Clocks} {artNow delta cycles : Nat}

theorem Published.sizes (published : Published params clocks artNow) :
    4000000000 ≤ clocks.realtimeRateRealNs ∧ clocks.realtimeRateRealNs ≤ 10000000000 ∧
      clocks.realtimeRateRealNs ≤ 100 * clocks.realtimeRateArtCycles ∧
      10 * clocks.realtimeRateArtCycles ≤ clocks.realtimeRateRealNs := by
  have shortest := published.shortest
  have longest := published.longest
  have slowest := published.slowest
  have fastest := published.fastest
  unfold realtimeRateMinWindowS nsecPerSec at *
  omega

theorem Published.rate (published : Published params clocks artNow) :
    10000000 ≤ wholeRate clocks ∧ wholeRate clocks ≤ 100000000 := by
  obtain ⟨shortest, longest, slowest, fastest⟩ := published.sizes
  obtain ⟨up, low⟩ := nearest_bounds nsecPerSec clocks.realtimeRateArtCycles
    (by omega : 0 < clocks.realtimeRateRealNs)
  change 2 * (wholeRate clocks * _) ≤ _ at up
  change _ < 2 * (wholeRate clocks * _) + _ at low
  unfold nsecPerSec at up low
  constructor
  · by_contra slow
    have product : wholeRate clocks * clocks.realtimeRateRealNs ≤
        9999999 * clocks.realtimeRateRealNs := Nat.mul_le_mul_right _ (by omega)
    omega
  · by_contra fast
    have product : 100000001 * clocks.realtimeRateRealNs ≤
        wholeRate clocks * clocks.realtimeRateRealNs := Nat.mul_le_mul_right _ (by omega)
    omega

theorem Published.fewer (published : Published params clocks artNow) (delta : Nat) :
    nearest delta clocks.realtimeRateRealNs clocks.realtimeRateArtCycles ≤ delta := by
  obtain ⟨shortest, longest, slowest, fastest⟩ := published.sizes
  exact nearest_le (by omega) (by omega)

theorem Published.to_cycles (published : Published params clocks artNow) (positive : 0 < delta)
    (short : delta ≤ returnLimitNs) : realtimeDeltaToArtCycles params clocks delta =
      .ok (nearest delta clocks.realtimeRateRealNs clocks.realtimeRateArtCycles) := by
  obtain ⟨shortest, longest, slowest, fastest⟩ := published.sizes
  have source : 0 < clocks.realtimeRateRealNs := by omega
  have product : delta % clocks.realtimeRateRealNs * clocks.realtimeRateArtCycles < 2 ^ 64 := by
    have below := Nat.mod_lt delta source
    calc delta % clocks.realtimeRateRealNs * clocks.realtimeRateArtCycles
        ≤ 10000000000 * 1000000000 := Nat.mul_le_mul (by omega) (by omega)
      _ < 2 ^ 64 := by decide
  have few : nearest delta clocks.realtimeRateRealNs clocks.realtimeRateArtCycles ≤ s64Max := by
    have fewer := published.fewer delta
    unfold returnLimitNs at short
    unfold s64Max
    omega
  unfold returnLimitNs at short
  rw [realtime_delta_by_rate published.plain (by omega) (by omega) positive
    (by unfold s64Max; omega), rescale_common_eq true source (by omega) product, rescaled_nearest,
    if_pos few]

theorem Published.to_interval (published : Published params clocks artNow)
    (few : cycles ≤ returnLimitNs) : artCyclesToRealtimeDeltaNs params clocks cycles =
      .ok (nearest cycles (wholeRate clocks) nsecPerSec) := by
  obtain ⟨slowest, fastest⟩ := published.rate
  have source : 0 < wholeRate clocks := by omega
  have product : cycles % wholeRate clocks * nsecPerSec < 2 ^ 64 := by
    have below := Nat.mod_lt cycles source
    unfold nsecPerSec
    omega
  have short : nearest cycles (wholeRate clocks) nsecPerSec ≤ s64Max := by
    have scaled : 10000000 * cycles ≤ wholeRate clocks * cycles := Nat.mul_le_mul_right _ slowest
    refine Nat.lt_succ_iff.mp ((Nat.div_lt_iff_lt_mul (by omega)).mpr ?_)
    unfold returnLimitNs at few
    unfold nsecPerSec s64Max
    omega
  unfold artCyclesToRealtimeDeltaNs rescaleNearest
  rw [published.to_cycles (by decide) (by decide)]
  change rescaleCommon cycles (wholeRate clocks) nsecPerSec true = _
  rw [rescale_common_eq true source (by decide) product, rescaled_nearest, if_pos short]

/-- A second by the whole rate, against one by the pair. -/
theorem drift_bounds : wholeRate clocks * clocks.realtimeRateRealNs =
      nsecPerSec * clocks.realtimeRateArtCycles + rateDrift clocks ∨
    nsecPerSec * clocks.realtimeRateArtCycles =
      wholeRate clocks * clocks.realtimeRateRealNs + rateDrift clocks := by
  unfold rateDrift
  omega

theorem Published.le_cycle (published : Published params clocks artNow) {first second : Nat}
    (near : 2 * (first * wholeRate clocks) ≤
      2 * (second * wholeRate clocks) + (wholeRate clocks + 2 * nsecPerSec)) :
    first * clocks.realtimeRateArtCycles ≤ second * clocks.realtimeRateArtCycles +
      (clocks.realtimeRateRealNs + clocks.realtimeRateArtCycles) := by
  obtain ⟨shortest, longest, dense, fine⟩ := published.sizes
  obtain ⟨slowest, fastest⟩ := published.rate
  obtain ⟨-, rateDown⟩ := nearest_bounds nsecPerSec clocks.realtimeRateArtCycles
    (by omega : 0 < clocks.realtimeRateRealNs)
  change _ < 2 * (wholeRate clocks * _) + _ at rateDown
  generalize wholeRate clocks = rate at *
  have scaled := Nat.mul_le_mul_right clocks.realtimeRateArtCycles near
  have cycle : 10000000 * clocks.realtimeRateArtCycles ≤ rate * clocks.realtimeRateArtCycles :=
    Nat.mul_le_mul_right _ slowest
  apply Nat.le_of_mul_le_mul_left _ (by omega : 0 < 2 * rate)
  linarith

theorem Published.within_cycle (published : Published params clocks artNow)
    (little : DriftsLittle clocks delta) : WithinCycle clocks
      (nearest (nearest delta clocks.realtimeRateRealNs clocks.realtimeRateArtCycles)
        (wholeRate clocks) nsecPerSec : Nat) delta := by
  have source : 0 < clocks.realtimeRateRealNs := by
    have shortest := published.sizes.1
    omega
  have counts : 0 < wholeRate clocks := by
    have slowest := published.rate.1
    omega
  have drifts : wholeRate clocks * clocks.realtimeRateRealNs ≤
        nsecPerSec * clocks.realtimeRateArtCycles + rateDrift clocks ∧
      nsecPerSec * clocks.realtimeRateArtCycles ≤
        wholeRate clocks * clocks.realtimeRateRealNs + rateDrift clocks := by
    have either := @drift_bounds clocks
    omega
  have laws := nearest_there_and_back_of_drift delta nsecPerSec clocks.realtimeRateArtCycles source
    counts drifts
  change 2 * (nearest (nearest delta _ _) (wholeRate clocks) nsecPerSec * wholeRate clocks) * _ ≤
      2 * (delta * wholeRate clocks) * _ + (wholeRate clocks * _ + _ + _) ∧
    2 * (delta * wholeRate clocks) * _ ≤
      2 * (nearest (nearest delta _ _) (wholeRate clocks) nsecPerSec * wholeRate clocks) * _ +
        (wholeRate clocks * _ + _ + _) at laws
  generalize nearest (nearest delta clocks.realtimeRateRealNs clocks.realtimeRateArtCycles)
    (wholeRate clocks) nsecPerSec = back at laws ⊢
  obtain ⟨longer, shorter⟩ := laws
  unfold DriftsLittle at little
  have longest : 2 * (back * wholeRate clocks) ≤
      2 * (delta * wholeRate clocks) + (wholeRate clocks + 2 * nsecPerSec) := by
    apply Nat.le_of_mul_le_mul_right _ source
    linarith
  have shortest : 2 * (delta * wholeRate clocks) ≤
      2 * (back * wholeRate clocks) + (wholeRate clocks + 2 * nsecPerSec) := by
    apply Nat.le_of_mul_le_mul_right _ source
    linarith
  have above := published.le_cycle longest
  have below := published.le_cycle shortest
  unfold WithinCycle
  rcases abs_cases ((back : Int) - delta) with ⟨size, side⟩ | ⟨size, side⟩
  · rw [size, Int.sub_mul]
    zify at above
    linarith
  · rw [size, Int.neg_mul, Int.sub_mul]
    zify at below
    linarith

theorem Published.interval_returns_iff (published : Published params clocks artNow)
    (short : delta ≤ returnLimitNs) (little : DriftsLittle clocks delta) :
    IntervalReturns params clocks delta ↔ delta ≠ 0 := by
  constructor
  · rintro ⟨cycles, back, converted, -⟩ rfl
    unfold realtimeDeltaToArtCycles at converted
    rw [if_pos (.inl rfl)] at converted
    contradiction
  · intro some_
    have cycles := published.to_cycles (Nat.pos_of_ne_zero some_) short
    have back := published.to_interval ((published.fewer delta).trans short)
    exact ⟨_, _, cycles, back, published.within_cycle little⟩

theorem Published.interval_lost (published : Published params clocks artNow)
    (far : DriftsFar clocks) :
    ∃ delta, 0 < delta ∧ delta ≤ returnLimitNs ∧ ¬IntervalReturns params clocks delta := by
  obtain ⟨shortest, longest, dense, fine⟩ := published.sizes
  obtain ⟨slowest, fastest⟩ := published.rate
  have cycle : 10000000 * clocks.realtimeRateArtCycles ≤
      wholeRate clocks * clocks.realtimeRateArtCycles := Nat.mul_le_mul_right _ slowest
  obtain ⟨delta, positive, short, lost⟩ := @nearest_drift_lost clocks.realtimeRateRealNs
    clocks.realtimeRateArtCycles nsecPerSec returnLimitNs (rateDrift clocks) (by omega) (by omega)
    (by change _ ≤ wholeRate clocks * _; omega) (by unfold returnLimitNs; omega) drift_bounds far
  refine ⟨delta, positive, short, ?_⟩
  rintro ⟨cycles, back, converted, returned, within⟩
  cases (published.to_cycles positive short).symm.trans converted
  cases (published.to_interval ((published.fewer delta).trans short)).symm.trans returned
  change nearest (nearest delta _ _) (wholeRate clocks) nsecPerSec * _ + _ < _ ∨
    _ < nearest (nearest delta _ _) (wholeRate clocks) nsecPerSec * _ at lost
  generalize nearest (nearest delta clocks.realtimeRateRealNs clocks.realtimeRateArtCycles)
    (wholeRate clocks) nsecPerSec = back at within lost
  unfold WithinCycle at within
  zify at lost
  rcases abs_cases ((back : Int) - delta) with ⟨size, side⟩ | ⟨size, side⟩
  · rw [size, Int.sub_mul] at within
    have forward := Int.mul_nonneg side (Int.natCast_nonneg clocks.realtimeRateArtCycles)
    rw [Int.sub_mul] at forward
    omega
  · rw [size, Int.neg_mul, Int.sub_mul] at within
    have backward := Int.mul_nonneg (by omega : 0 ≤ (delta : Int) - back)
      (Int.natCast_nonneg clocks.realtimeRateArtCycles)
    rw [Int.sub_mul] at backward
    omega

theorem Published.near (published : Published params clocks artNow) {back ns : Int}
    (within : WithinCycle clocks back ns) : |back - ns| ≤ 101 := by
  obtain ⟨shortest, longest, dense, fine⟩ := published.sizes
  unfold WithinCycle at within
  by_contra far
  have product : (102 : Int) * clocks.realtimeRateArtCycles ≤
      |back - ns| * clocks.realtimeRateArtCycles :=
    Int.mul_le_mul_of_nonneg_right (by omega) (Int.natCast_nonneg _)
  omega

variable {ns : Int}

theorem Published.uses_model (published : Published params clocks artNow) :
    params.clockUsesModel = false := by
  unfold Params.clockUsesModel
  rw [published.mode]
  rfl

theorem Published.anchor (published : Published params clocks artNow) :
    realtimeAnchor clocks = .ok (artNow, clocks.real) := by
  unfold realtimeAnchor
  rw [published.snapshot]
  exact if_neg (by have era := published.era; omega)

theorem snapshot_distance (near : (ns - clocks.real).natAbs ≤ returnLimitNs) :
    (if ns ≥ clocks.real then toU64 (ns - clocks.real) else toU64 (clocks.real - ns)) =
      (ns - clocks.real).natAbs := by
  unfold returnLimitNs at near
  split
  · have exact_ := @to_u64_of_range (ns - clocks.real) (by omega) (by omega)
    omega
  · have exact_ := @to_u64_of_range (clocks.real - ns) (by omega) (by omega)
    omega

theorem Published.to_art (published : Published params clocks artNow) (other : ns ≠ clocks.real)
    (near : (ns - clocks.real).natAbs ≤ returnLimitNs) (inScale : InScale clocks artNow ns) :
    clockNsToArt params clocks ns =
      .ok (if ns ≥ clocks.real then
          artNow + nearest (ns - clocks.real).natAbs clocks.realtimeRateRealNs
            clocks.realtimeRateArtCycles
        else artNow - nearest (ns - clocks.real).natAbs clocks.realtimeRateRealNs
          clocks.realtimeRateArtCycles) := by
  have converted := published.to_cycles (by omega : 0 < (ns - clocks.real).natAbs) near
  unfold InScale at inScale
  unfold clockNsToArt
  rw [published.uses_model, published.plain, published.anchor]
  simp only [Bool.false_eq_true, if_false]
  rw [snapshot_distance near, converted]
  generalize nearest _ clocks.realtimeRateRealNs clocks.realtimeRateArtCycles = cycles at *
  dsimp only at inScale ⊢
  unfold u64Max
  split
  · rename_i ahead
    rw [if_pos ahead] at inScale
    rw [if_neg (by omega)]
  · rename_i behind
    rw [if_neg behind] at inScale
    rw [if_neg (by omega)]

theorem Published.to_time (published : Published params clocks artNow) {art back : Nat}
    (converted : artCyclesToRealtimeDeltaNs params clocks
      (if art ≥ artNow then art - artNow else artNow - art) = .ok back)
    (short : back ≤ s64Max)
    (inRange : -(2 ^ 63) ≤ clocks.real + (if art ≥ artNow then (back : Int) else -(back : Int)) ∧
      clocks.real + (if art ≥ artNow then (back : Int) else -(back : Int)) < 2 ^ 63) :
    clockArtToNs params clocks art =
      .ok (clocks.real + if art ≥ artNow then (back : Int) else -(back : Int)) := by
  unfold clockArtToNs clockArtCyclesToDeltaNs
  rw [published.uses_model, published.anchor]
  simp only [Bool.false_eq_true, if_false]
  rw [converted]
  dsimp only
  rw [if_neg (by omega)]
  exact add_s64_ok inRange.1 inRange.2

theorem Published.time_returns (published : Published params clocks artNow)
    (other : ns ≠ clocks.real) (near : (ns - clocks.real).natAbs ≤ returnLimitNs)
    (little : DriftsLittle clocks (ns - clocks.real).natAbs) (inScale : InScale clocks artNow ns) :
    TimeReturns params clocks ns := by
  have art := published.to_art other near inScale
  have interval := published.to_interval ((published.fewer _).trans near)
  have within := published.within_cycle little
  have close := published.near within
  have era := published.era
  unfold InScale at inScale
  unfold returnLimitNs at near
  generalize isCycles : nearest (ns - clocks.real).natAbs clocks.realtimeRateRealNs
    clocks.realtimeRateArtCycles = cycles at *
  generalize isBack : nearest cycles (wholeRate clocks) nsecPerSec = back at *
  dsimp only at inScale
  rw [abs_le] at close
  by_cases ahead : ns ≥ clocks.real
  · rw [if_pos ahead] at art inScale
    have after : artNow + cycles ≥ artNow := Nat.le_add_right _ _
    have time := @Published.to_time params clocks artNow published (artNow + cycles) back
      (by rw [if_pos after, Nat.add_sub_cancel_left]; exact interval) (by unfold s64Max; omega)
      (by rw [if_pos after]; omega)
    rw [if_pos after] at time
    refine ⟨_, _, art, time, ?_⟩
    have same : clocks.real + back - ns = back - ((ns - clocks.real).natAbs : Nat) := by omega
    unfold WithinCycle at within ⊢
    rwa [same]
  · rw [if_neg ahead] at art inScale
    have sign : clocks.real + (if artNow - cycles ≥ artNow then (back : Int) else -(back : Int)) =
        clocks.real - back := by
      split
      · -- no cycles at all: the time read back is that of the snapshot
        have none : cycles = 0 := by omega
        rw [none, nearest_zero] at isBack
        omega
      · ring
    have time := @Published.to_time params clocks artNow published (artNow - cycles) back
      (by
        have shape : (if artNow - cycles ≥ artNow then artNow - cycles - artNow
            else artNow - (artNow - cycles)) = cycles := by
          split <;> omega
        rw [shape]
        exact interval) (by unfold s64Max; omega) (by rw [sign]; omega)
    rw [sign] at time
    refine ⟨_, _, art, time, ?_⟩
    have same : clocks.real - back - ns = -(back - ((ns - clocks.real).natAbs : Nat) : Int) := by
      omega
    unfold WithinCycle at within ⊢
    rwa [same, abs_neg]

/-- The time of the snapshot itself is out of range. -/
theorem Published.present_refused (published : Published params clocks artNow) :
    clockNsToArt params clocks clocks.real = .error .erange := by
  unfold clockNsToArt
  rw [published.uses_model, published.plain, published.anchor]
  simp only [Bool.false_eq_true, if_false]
  have none : toU64 (clocks.real - clocks.real) = 0 := by
    rw [sub_self]
    rfl
  rw [if_pos (le_refl clocks.real), none]
  rfl

end conversions

/-- Where the drift over it is small, an interval returns exactly when it is not
empty, and a time exactly when it is not that of the snapshot, which is refused;
where the drift is far over the longest interval, not every interval returns. -/
theorem realtime_returns_iff (params : Params) (clocks : Clocks) (artNow : Nat)
    (published : Published params clocks artNow) :
    (∀ delta ≤ returnLimitNs, DriftsLittle clocks delta →
      (IntervalReturns params clocks delta ↔ delta ≠ 0)) ∧
    (∀ ns, (ns - clocks.real).natAbs ≤ returnLimitNs →
      DriftsLittle clocks (ns - clocks.real).natAbs → InScale clocks artNow ns →
      (TimeReturns params clocks ns ↔ ns ≠ clocks.real)) ∧
    (DriftsFar clocks →
      ∃ delta, 0 < delta ∧ delta ≤ returnLimitNs ∧ ¬IntervalReturns params clocks delta) := by
  refine ⟨fun delta short little => published.interval_returns_iff short little, ?_,
    published.interval_lost⟩
  intro ns near little inScale
  constructor
  · rintro ⟨art, back, converted, -⟩ rfl
    rw [published.present_refused] at converted
    contradiction
  · intro other
    exact published.time_returns other near little inScale

section cases

def returningParams : Params := { defaultParams with clockMode := .realtime }

def returningClocks (artCycles realNs : Nat) : Clocks :=
  { steadyClocks 500000000000 (by decide) with
    real := 1700000000000000000
    realtimeRateArtCycles := artCycles
    realtimeRateRealNs := realNs }

theorem realtime_returns_iff_whole :
    IntervalReturns returningParams (returningClocks 384000000 10000000000) 1000000000 ∧
      TimeReturns returningParams (returningClocks 384000000 10000000000) 1700000000000000001 := by
  have laws := realtime_returns_iff returningParams (returningClocks 384000000 10000000000)
    500000000000 ⟨rfl, rfl, by decide, by decide, by decide, by decide, rfl, by decide⟩
  constructor
  · exact (laws.1 1000000000 (by decide) (by unfold DriftsLittle; decide)).mpr (by decide)
  · exact (laws.2.1 1700000000000000001 (by decide) (by unfold DriftsLittle; decide)
      (by unfold InScale; decide)).mpr (by decide)

/-- Four seconds at half a cycle more: a thousand seconds come back 13 microseconds
short, and the present does not come back at all. -/
theorem half_cycle_lost :
    Published returningParams (returningClocks 153600002 4000000000) 500000000000 ∧
      ¬IntervalReturns returningParams (returningClocks 153600002 4000000000) (10 ^ 12) ∧
      ¬TimeReturns returningParams (returningClocks 153600002 4000000000) 1700000000000000000 := by
  have published : Published returningParams (returningClocks 153600002 4000000000) 500000000000 :=
    ⟨rfl, rfl, by decide, by decide, by decide, by decide, rfl, by decide⟩
  refine ⟨published, ?_, ?_⟩
  · rintro ⟨cycles, back, converted, returned, within⟩
    have there : realtimeDeltaToArtCycles returningParams (returningClocks 153600002 4000000000)
        (10 ^ 12) = .ok 38400000500 := by decide +kernel
    cases there.symm.trans converted
    have again : artCyclesToRealtimeDeltaNs returningParams (returningClocks 153600002 4000000000)
        38400000500 = .ok 999999986979 := by decide +kernel
    cases again.symm.trans returned
    revert within
    unfold WithinCycle
    decide
  · rintro ⟨art, back, converted, -⟩
    have refused := published.present_refused
    cases refused.symm.trans converted

end cases

end Tgpio

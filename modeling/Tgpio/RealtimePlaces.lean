import Mathlib.Algebra.Order.Ring.Rat
import Mathlib.Tactic.LinearCombination
import Tgpio.OutputHardware
import Tgpio.RealtimeConversion

/-!
# Where a compare value stands in realtime

In realtime mode a compare value stands for the time that its distance from ART
now has at the measured rate, counted from `CLOCK_REALTIME` now. The driver's
conversions round: to whole cycles on the way there, to whole nanoseconds on the
way back, and the rate to whole cycles a second. `exactPlace` is the time without
the roundings, and every conversion is near it.
-/

namespace Tgpio

open Scaling

set_option autoImplicit false

/-- The time of the edge a compare value stands for, on the grid's scale. -/
def edgePlace (params : Params) (clocks : Clocks) (compv : Nat) : S64Result :=
  match clockArtToNs params clocks (compv + artHwDelayCycles) with
  | .error status => .error status
  | .ok physical => addS64 physical (toS64 (-clocks.outputPhaseOffsetNs))

/-- The distance between a compare value and that of a point of the grid, back
in nanoseconds; between the times where one of the conversions fails. -/
def slotError (params : Params) (clocks : Clocks) (compv : Nat) (place slot : Int) : Int :=
  match clockNsToCompareArt params clocks slot with
  | .error _ => place - slot
  | .ok target =>
    match clockArtCyclesToDeltaNs params clocks
        (if compv ≥ target then compv - target else target - compv) with
    | .error _ => place - slot
    | .ok exact =>
      if exact ≤ s64Max then if compv ≥ target then exact else -(exact : Int)
      else place - slot

section places

variable (clocks : Clocks)

def cyclesPerSec : Nat :=
  nearest nsecPerSec clocks.realtimeRateRealNs clocks.realtimeRateArtCycles

def cycleNs : ℚ := nsecPerSec / cyclesPerSec clocks

def artNow : Nat :=
  match getCurrentArt clocks with
  | .ok art => art
  | .error _ => 0

/-- The time a compare value stands for, nothing rounded. -/
def exactPlace (compv : Nat) : ℚ :=
  clocks.real - clocks.outputPhaseOffsetNs +
    ((compv : ℚ) + artHwDelayCycles - artNow clocks) * cycleNs clocks

/-- What is lost on a distance in nanoseconds that is converted to cycles: half a
cycle, and what the rounded rate makes of it. -/
def countBlur (distance : ℚ) : ℚ := (nsecPerSec + distance) / (2 * cyclesPerSec clocks)

/-- How far from now, in nanoseconds, the conversions of a tick go. -/
def reachNs (desired : OutputDesired) : Nat :=
  5 * desired.highTimeNs + 3 * outputSafeTimeNs + clocks.outputPhaseOffsetNs.natAbs

end places

/-- A measured rate that a tick can go by: near now its conversions are within
`blur` nanoseconds, and far from the ends of their ranges. -/
structure Wide (desired : OutputDesired) (blur : ℚ) (params : Params) (clocks : Clocks) : Prop where
  realtime : params.clockUsesModel = false
  plain : params.experimentalInstantaneousRealtimeProjection = false
  fitting : Fitting clocks.realtimeRateArtCycles clocks.realtimeRateRealNs
  counted : getCurrentArt clocks = .ok (artNow clocks)
  inRange : clocks.real + 6 * desired.highTimeNs + 3 * outputSafeTimeNs ≤ s64Max
  offset : clocks.outputPhaseOffsetNs.natAbs < 2 ^ 60
  counts : 0 < cyclesPerSec clocks
  slow : cyclesPerSec clocks * nsecPerSec < 2 ^ 64
  sharp : countBlur clocks (reachNs clocks desired) + 1 / 2 ≤ blur
  grown : nearest (reachNs clocks desired) clocks.realtimeRateRealNs
    clocks.realtimeRateArtCycles + artHwDelayCycles < artNow clocks

section wide

variable {desired : OutputDesired} {blur : ℚ} {params : Params} {clocks : Clocks}

theorem Wide.second (wide : Wide desired blur params clocks) :
    (0 : ℚ) < cyclesPerSec clocks := by
  exact_mod_cast wide.counts

theorem Wide.cycle_pos (wide : Wide desired blur params clocks) : 0 < cycleNs clocks := by
  unfold cycleNs nsecPerSec
  exact div_pos (by norm_num) wide.second

theorem Wide.blur_mono (wide : Wide desired blur params clocks) {distance : ℚ}
    (near : distance ≤ reachNs clocks desired) : countBlur clocks distance + 1 / 2 ≤ blur := by
  refine le_trans ?_ wide.sharp
  unfold countBlur
  have rate := wide.second
  gcongr

theorem Wide.half_le (wide : Wide desired blur params clocks) : 1 / 2 ≤ blur := by
  have least := @Wide.blur_mono _ _ _ _ wide 0 (by positivity)
  have rate := wide.second
  have positive : 0 ≤ countBlur clocks 0 := by
    unfold countBlur
    positivity
  linarith

theorem Wide.to_cycles {distance cycles : Nat} (wide : Wide desired blur params clocks)
    (converted : realtimeDeltaToArtCycles params clocks distance = .ok cycles) :
    cycles = nearest distance clocks.realtimeRateRealNs clocks.realtimeRateArtCycles := by
  have fitting := wide.fitting
  have art := fitting.art
  have window := fitting.real
  unfold realtimeRateMinWindowS nsecPerSec at window
  have inside : ¬(distance = 0 ∨ distance > s64Max) := by
    intro outside
    unfold realtimeDeltaToArtCycles at converted
    rw [if_pos outside] at converted
    contradiction
  have exact_ := @converts_exactly_of_fitting
    { RealtimeRate.initial with
      artCycles := clocks.realtimeRateArtCycles, realNs := clocks.realtimeRateRealNs } fitting
    (by change clocks.realtimeRateArtCycles ≠ 0; omega)
    (by change clocks.realtimeRateRealNs ≠ 0; omega)
    params clocks wide.plain rfl rfl distance (by omega) (by omega)
  rw [exact_] at converted
  split at converted
  · exact (Except.ok.inj converted).symm
  · contradiction

theorem Wide.to_ns {cycles ns : Nat} (wide : Wide desired blur params clocks)
    (converted : clockArtCyclesToDeltaNs params clocks cycles = .ok ns) :
    ns = nearest cycles (cyclesPerSec clocks) nsecPerSec := by
  unfold clockArtCyclesToDeltaNs artCyclesToRealtimeDeltaNs at converted
  rw [wide.realtime, if_neg (by simp)] at converted
  split at converted
  · contradiction
  · rename_i rate found
    have same : rate = cyclesPerSec clocks := wide.to_cycles found
    subst same
    have below := Nat.mod_lt cycles wide.counts
    have fits : cycles % cyclesPerSec clocks * nsecPerSec < 2 ^ 64 :=
      lt_of_le_of_lt (Nat.mul_le_mul_right _ below.le) wide.slow
    have exact_ := rescale_common_ok true wide.counts (by decide) fits converted
    rw [exact_.1, rescaled_nearest]

theorem Wide.ns_near (wide : Wide desired blur params clocks) (cycles : Nat) :
    |(nearest cycles (cyclesPerSec clocks) nsecPerSec : ℚ) - cycles * cycleNs clocks| ≤ 1 / 2 := by
  have near := @abs_nearest_sub_le (cyclesPerSec clocks) ℚ _ _ _ cycles nsecPerSec wide.counts
  rwa [mul_div_assoc] at near

theorem Wide.cycles_near (wide : Wide desired blur params clocks) (distance : Nat) :
    |(nearest distance clocks.realtimeRateRealNs clocks.realtimeRateArtCycles : ℚ) *
      cycleNs clocks - distance| ≤ countBlur clocks distance := by
  have window := wide.fitting.real
  unfold realtimeRateMinWindowS nsecPerSec at window
  have positive : 0 < clocks.realtimeRateRealNs := by omega
  have rate := wide.second
  have cycle := wide.cycle_pos
  have counted := @abs_nearest_sub_le clocks.realtimeRateRealNs ℚ _ _ _ distance
    clocks.realtimeRateArtCycles positive
  have rated := @abs_nearest_sub_le clocks.realtimeRateRealNs ℚ _ _ _ nsecPerSec
    clocks.realtimeRateArtCycles positive
  change |(cyclesPerSec clocks : ℚ) - _| ≤ _ at rated
  rw [mul_div_assoc] at counted rated
  generalize (clocks.realtimeRateArtCycles / clocks.realtimeRateRealNs : ℚ) = ratio at counted rated
  generalize nearest distance clocks.realtimeRateRealNs clocks.realtimeRateArtCycles = cycles at *
  have unit : cycleNs clocks * cyclesPerSec clocks = nsecPerSec := div_mul_cancel₀ _ rate.ne'
  have split : ((cycles : ℚ) * cycleNs clocks - distance) * cyclesPerSec clocks =
      ((cycles : ℚ) - distance * ratio) * nsecPerSec -
        distance * (cyclesPerSec clocks - nsecPerSec * ratio) := by
    rw [← unit]
    ring
  have bound : |((cycles : ℚ) * cycleNs clocks - distance) * cyclesPerSec clocks| ≤
      1 / 2 * nsecPerSec + distance * (1 / 2) := by
    rw [split]
    refine (abs_sub _ _).trans ?_
    rw [abs_mul, abs_mul, abs_of_nonneg (by positivity : (0 : ℚ) ≤ nsecPerSec),
      abs_of_nonneg (by positivity : (0 : ℚ) ≤ distance)]
    gcongr
  rw [abs_mul, abs_of_pos rate] at bound
  unfold countBlur
  rw [le_div_iff₀ (by positivity)]
  linarith

theorem Wide.anchored {anchor : Nat × Int} (wide : Wide desired blur params clocks)
    (read : realtimeAnchor clocks = .ok anchor) : anchor = (artNow clocks, clocks.real) ∧
      0 ≤ clocks.real := by
  unfold realtimeAnchor at read
  rw [wide.counted] at read
  dsimp only at read
  split at read
  · contradiction
  · cases read
    exact ⟨rfl, by omega⟩

theorem Wide.art_to_ns {value : Nat} {time : Int} (wide : Wide desired blur params clocks)
    (converted : clockArtToNs params clocks value = .ok time) :
    |(time : ℚ) - (clocks.real + ((value : ℚ) - artNow clocks) * cycleNs clocks)| ≤ 1 / 2 ∧
      0 ≤ clocks.real ∧ -(2 ^ 63) ≤ time ∧ time < 2 ^ 63 := by
  have room := wide.inRange
  unfold clockArtToNs at converted
  rw [wide.realtime, if_neg (by simp)] at converted
  cases read : realtimeAnchor clocks with
  | error status =>
      rw [read] at converted
      contradiction
  | ok anchor =>
      obtain ⟨rfl, era⟩ := wide.anchored read
      rw [read] at converted
      dsimp only at converted
      split at converted
      · contradiction
      · rename_i delta found
        have same := wide.to_ns found
        split at converted
        · contradiction
        · obtain ⟨sum, range⟩ := add_s64_eq converted
          refine ⟨?_, era, range (by omega) (by unfold s64Max at room; omega)⟩
          subst sum same
          by_cases ahead : value ≥ artNow clocks
          · have near := wide.ns_near (value - artNow clocks)
            rw [Nat.cast_sub ahead] at near
            rw [if_pos ahead, if_pos ahead]
            push_cast
            rwa [add_sub_add_left_eq_sub]
          · have near := wide.ns_near (artNow clocks - value)
            rw [Nat.cast_sub (by omega)] at near
            rw [if_neg ahead, if_neg ahead]
            push_cast
            rw [add_sub_add_left_eq_sub, ← abs_neg]
            convert near using 2
            ring

theorem Wide.edge_place {compv : Nat} {place : Int} (wide : Wide desired blur params clocks)
    (placed : edgePlace params clocks compv = .ok place) :
    |(place : ℚ) - exactPlace clocks compv| ≤ 1 / 2 ∧ 0 ≤ clocks.real ∧ place ≤ s64Max := by
  have small := wide.offset
  unfold edgePlace at placed
  split at placed
  · contradiction
  · rename_i time found
    obtain ⟨near, era, inside⟩ := wide.art_to_ns found
    obtain ⟨sum, range⟩ := add_s64_eq placed
    rw [to_s64_of_range (by omega) (by omega)] at sum
    have bound := range inside.1 inside.2
    refine ⟨?_, era, by unfold s64Max; omega⟩
    subst sum
    unfold exactPlace
    push_cast at near ⊢
    convert near using 2
    ring

theorem Wide.ns_to_art {value : Nat} {ns : Int} (wide : Wide desired blur params clocks)
    (apart : (ns - clocks.real).natAbs < 2 ^ 64)
    (converted : clockNsToArt params clocks ns = .ok value) :
    |clocks.real + ((value : ℚ) - artNow clocks) * cycleNs clocks - ns| ≤
        countBlur clocks (ns - clocks.real).natAbs ∧
      artNow clocks ≤ value + nearest (ns - clocks.real).natAbs clocks.realtimeRateRealNs
        clocks.realtimeRateArtCycles := by
  unfold clockNsToArt at converted
  rw [wide.realtime, wide.plain] at converted
  simp only [Bool.false_eq_true, if_false] at converted
  cases read : realtimeAnchor clocks with
  | error status =>
      rw [read] at converted
      contradiction
  | ok anchor =>
      obtain ⟨rfl, era⟩ := wide.anchored read
      rw [read] at converted
      dsimp only at converted
      split at converted
      · contradiction
      · rename_i delta found
        have same := wide.to_cycles found
        by_cases ahead : ns ≥ clocks.real
        · rw [if_pos ahead] at converted same
          have distance : toU64 (ns - clocks.real) = (ns - clocks.real).natAbs := by
            have cast := to_u64_of_range (by omega : 0 ≤ ns - clocks.real) (by omega)
            omega
          have lies : (ns : ℚ) - clocks.real = (ns - clocks.real).natAbs := by
            rw [Nat.cast_natAbs, abs_of_nonneg (by omega)]
            push_cast
            rfl
          rw [distance] at same
          split at converted
          · contradiction
          · cases converted
            have near := wide.cycles_near (ns - clocks.real).natAbs
            rw [← same] at near ⊢
            refine ⟨?_, by omega⟩
            push_cast
            convert near using 2
            linear_combination -lies
        · rw [if_neg ahead] at converted same
          have distance : toU64 (clocks.real - ns) = (ns - clocks.real).natAbs := by
            have cast := to_u64_of_range (by omega : 0 ≤ clocks.real - ns) (by omega)
            omega
          have lies : (clocks.real : ℚ) - ns = (ns - clocks.real).natAbs := by
            rw [Nat.cast_natAbs, abs_of_nonpos (by omega)]
            push_cast
            ring
          rw [distance] at same
          split at converted
          · contradiction
          · rename_i room
            cases converted
            have near := wide.cycles_near (ns - clocks.real).natAbs
            rw [← same] at near ⊢
            refine ⟨?_, by omega⟩
            rw [Nat.cast_sub (by omega), ← abs_neg]
            convert near using 2
            linear_combination -lies

theorem Wide.era {value : Nat} {ns : Int} (wide : Wide desired blur params clocks)
    (converted : clockNsToArt params clocks ns = .ok value) : 0 ≤ clocks.real := by
  unfold clockNsToArt at converted
  rw [wide.realtime, wide.plain] at converted
  simp only [Bool.false_eq_true, if_false] at converted
  cases read : realtimeAnchor clocks with
  | error status =>
      rw [read] at converted
      contradiction
  | ok anchor => exact (wide.anchored read).2

/-- The compare value of a time, and what is lost where ART is too young for the
hardware delay. -/
theorem Wide.compare_place {target : Nat} {ns : Int} (wide : Wide desired blur params clocks)
    (inside : 0 ≤ ns ∧ ns ≤ s64Max)
    (converted : clockNsToCompareArt params clocks ns = .ok target) :
    |exactPlace clocks target - ns| ≤
        countBlur clocks (ns + clocks.outputPhaseOffsetNs - clocks.real).natAbs +
          artHwDelayCycles * cycleNs clocks ∧
      ((ns + clocks.outputPhaseOffsetNs - clocks.real).natAbs ≤ reachNs clocks desired →
        |exactPlace clocks target - ns| ≤
          countBlur clocks (ns + clocks.outputPhaseOffsetNs - clocks.real).natAbs) := by
  have cycle := wide.cycle_pos
  unfold clockNsToCompareArt at converted
  split at converted
  · contradiction
  rename_i shifted moved
  obtain ⟨rfl, -⟩ := add_s64_eq moved
  split at converted
  · contradiction
  rename_i value found
  have apart : (ns + clocks.outputPhaseOffsetNs - clocks.real).natAbs < 2 ^ 64 := by
    have era := wide.era found
    have room := wide.inRange
    have small := wide.offset
    unfold s64Max at room inside
    omega
  obtain ⟨near, reached⟩ := wide.ns_to_art apart found
  have target := Except.ok.inj converted
  split at target
  · rename_i grown
    have same : exactPlace clocks (value - artHwDelayCycles) - ns =
        clocks.real + ((value : ℚ) - artNow clocks) * cycleNs clocks -
          ((ns + clocks.outputPhaseOffsetNs : Int) : ℚ) := by
      unfold exactPlace
      rw [Nat.cast_sub grown.le]
      push_cast
      ring
    rw [← target, same]
    exact ⟨near.trans (le_add_of_nonneg_right (by positivity)), fun _ => near⟩
  · rename_i young
    have same : exactPlace clocks value - ns =
        clocks.real + ((value : ℚ) - artNow clocks) * cycleNs clocks -
          ((ns + clocks.outputPhaseOffsetNs : Int) : ℚ) + artHwDelayCycles * cycleNs clocks := by
      unfold exactPlace
      push_cast
      ring
    rw [← target, same]
    refine ⟨?_, fun close => ?_⟩
    · refine (abs_add_le _ _).trans ?_
      rw [abs_of_nonneg (by positivity : (0 : ℚ) ≤ artHwDelayCycles * cycleNs clocks)]
      gcongr
    · have grown := wide.grown
      have less : nearest (ns + clocks.outputPhaseOffsetNs - clocks.real).natAbs
          clocks.realtimeRateRealNs clocks.realtimeRateArtCycles ≤
            nearest (reachNs clocks desired) clocks.realtimeRateRealNs
              clocks.realtimeRateArtCycles := nearest_mono close
      omega

/-- Near now the compare value of a time is within the blur. -/
theorem Wide.compare_near {target : Nat} {ns : Int} (wide : Wide desired blur params clocks)
    (inside : 0 ≤ ns ∧ ns ≤ s64Max)
    (close : (ns + clocks.outputPhaseOffsetNs - clocks.real).natAbs ≤ reachNs clocks desired)
    (converted : clockNsToCompareArt params clocks ns = .ok target) :
    |exactPlace clocks target - ns| ≤ blur - 1 / 2 := by
  have near := (wide.compare_place inside converted).2 close
  have sharp := wide.blur_mono (Nat.cast_le.mpr close)
  linarith

/-- The error of a measurement against a point near now. -/
theorem Wide.slot_error {compv : Nat} {place slot : Int} (wide : Wide desired blur params clocks)
    (placed : edgePlace params clocks compv = .ok place) (inside : 0 ≤ slot ∧ slot ≤ s64Max)
    (close : (slot + clocks.outputPhaseOffsetNs - clocks.real).natAbs ≤ reachNs clocks desired) :
    |(slotError params clocks compv place slot : ℚ) - (exactPlace clocks compv - slot)| ≤ blur := by
  have half := wide.half_le
  have plain : |((place - slot : Int) : ℚ) - (exactPlace clocks compv - slot)| ≤ blur := by
    push_cast
    rw [sub_sub_sub_cancel_right]
    exact (wide.edge_place placed).1.trans half
  unfold slotError
  cases aimed : clockNsToCompareArt params clocks slot with
  | error status => exact plain
  | ok target =>
      have near := wide.compare_near inside close aimed
      dsimp only
      split
      · exact plain
      rename_i exact_ found
      split
      swap
      · exact plain
      rw [wide.to_ns found]
      split
      next ahead =>
        have counted := wide.ns_near (compv - target)
        rw [Nat.cast_sub ahead] at counted
        push_cast
        calc _ = |((nearest (compv - target) (cyclesPerSec clocks) nsecPerSec : ℚ) -
              (compv - target) * cycleNs clocks) - (exactPlace clocks target - slot)| := by
              unfold exactPlace
              congr 1
              ring
          _ ≤ 1 / 2 + (blur - 1 / 2) := (abs_sub _ _).trans (add_le_add counted near)
          _ = blur := by ring
      next behind =>
        have counted := wide.ns_near (target - compv)
        rw [Nat.cast_sub (by omega)] at counted
        push_cast
        calc _ = |((nearest (target - compv) (cyclesPerSec clocks) nsecPerSec : ℚ) -
              (target - compv) * cycleNs clocks) + (exactPlace clocks target - slot)| := by
              rw [← abs_neg]
              unfold exactPlace
              congr 1
              ring
          _ ≤ 1 / 2 + (blur - 1 / 2) := (abs_add_le _ _).trans (add_le_add counted near)
          _ = blur := by ring

theorem Wide.count_delta {delta cycles : Nat} (wide : Wide desired blur params clocks)
    (small : delta ≤ s64Max)
    (counted : clockDeltaToArtCycles params clocks (toS64 delta) = .ok cycles) :
    |cycles * cycleNs clocks - delta| ≤ countBlur clocks delta := by
  have same : toS64 delta = delta := by
    unfold s64Max at small
    exact to_s64_of_range (by omega) (by omega)
  have real : clockDeltaToRealNs params clocks delta = .ok delta := by
    unfold clockDeltaToRealNs
    rw [wide.realtime, if_neg (by simp)]
    split
    next zero =>
      have none : delta = 0 := by omega
      rw [none]
    next => rfl
  unfold clockDeltaToArtCycles at counted
  rw [wide.realtime, if_neg (by simp), same, real] at counted
  dsimp only at counted
  rw [if_neg (not_lt.mpr small)] at counted
  cases converted : realtimeDeltaToArtCycles params clocks delta with
  | error status =>
      rw [converted] at counted
      cases counted
  | ok whole =>
      rw [converted] at counted
      dsimp only at counted
      split at counted
      · cases counted
      · cases counted
        rw [wide.to_cycles converted]
        exact wide.cycles_near delta

end wide

end Tgpio

import Tgpio.PhcSpans
import Mathlib.Algebra.Order.Floor.Ring
import Mathlib.Data.Rat.Floor
import Mathlib.Tactic.FieldSimp

/-!
# Quantization of the clock

A clock time becomes a whole number of ART cycles and is read back, or an
interval is. Each stage rounds its own way; what comes back is within half a
cycle of what went in, and a few nanoseconds.
-/

namespace Tgpio

open Scaling

set_option autoImplicit false

def halfCycleNs (baseArtHz : Nat) (ppb : Int) : ℚ := (10 ^ 9 + ppb) / (2 * baseArtHz)

section stages

variable {baseArtHz : Nat} {ppb : Int}

theorem adjusted_bounds (base : Nat) (modest : Modest baseArtHz ppb) :
    let rate := ((nsecPerSec : Int) + ppb).toNat
    adjustedNs ppb base * nsecPerSec < base * rate + nsecPerSec ∧
      base * rate < adjustedNs ppb base * nsecPerSec + nsecPerSec := by
  have part := modest.part
  unfold adjustedNs
  split
  next faster =>
    have rate : ((nsecPerSec : Int) + ppb).toNat = nsecPerSec + ppb.natAbs := by omega
    have lower := down_le base (nsecPerSec + ppb.natAbs) (by decide : 0 < nsecPerSec)
    have upper := lt_down base (nsecPerSec + ppb.natAbs) (by decide : 0 < nsecPerSec)
    rw [← lengthened_eq (by decide)] at lower upper
    rw [rate]
    unfold nsecPerSec at *
    constructor <;> omega
  next slower =>
    have rate : ((nsecPerSec : Int) + ppb).toNat = nsecPerSec - ppb.natAbs := by omega
    obtain ⟨lower, upper⟩ := shortened_bounds base (by decide : 0 < nsecPerSec) part
    rw [rate]
    unfold nsecPerSec at *
    constructor <;> omega

/-- The cycles of an adjusted time, the base time they are read as, and that in
the adjusted scale again. -/
theorem quantization_bounds (ns : Nat) {back : Nat} (modest : Modest baseArtHz ppb)
    (upper : back * baseArtHz ≤ nearest (undoneNs ppb ns) nsecPerSec baseArtHz * nsecPerSec +
      baseArtHz)
    (lower : nearest (undoneNs ppb ns) nsecPerSec baseArtHz * nsecPerSec ≤
      back * baseArtHz + baseArtHz) :
    let rate := ((nsecPerSec : Int) + ppb).toNat
    2 * baseArtHz * adjustedNs ppb back < 2 * baseArtHz * ns + rate + 8 * baseArtHz ∧
      2 * baseArtHz * ns < 2 * baseArtHz * adjustedNs ppb back + rate + 8 * baseArtHz := by
  intro rate
  obtain ⟨adjustedUp, adjustedDown⟩ := adjusted_bounds back modest
  obtain ⟨undoneUp, undoneDown⟩ := undone_bounds ns modest
  obtain ⟨nearUp, nearDown⟩ :=
    nearest_bounds (undoneNs ppb ns) baseArtHz (by decide : 0 < nsecPerSec)
  have fast : rate ≤ 1100000000 := modest.pace.2.2
  have positive := modest.positive
  generalize nearest (undoneNs ppb ns) nsecPerSec baseArtHz = cycles at *
  generalize undoneNs ppb ns = base at *
  generalize adjustedNs ppb back = adjusted at *
  change _ < back * rate + nsecPerSec at adjustedUp
  change back * rate < _ at adjustedDown
  change base * rate ≤ _ at undoneUp
  change _ < base * rate + rate at undoneDown
  clear_value rate
  -- every stage at the scale of the last
  have pace : baseArtHz * rate ≤ baseArtHz * 1100000000 := Nat.mul_le_mul_left _ fast
  unfold nsecPerSec at *
  constructor
  · have stage := Nat.mul_lt_mul_of_pos_left adjustedUp (by omega : 0 < 2 * baseArtHz)
    have read := Nat.mul_le_mul_left (2 * rate) upper
    have counted := Nat.mul_le_mul_left rate nearUp
    have undone := Nat.mul_le_mul_left (2 * baseArtHz) undoneUp
    apply Nat.lt_of_mul_lt_mul_right (a := 1000000000)
    linarith
  · have stage := Nat.mul_lt_mul_of_pos_left adjustedDown (by omega : 0 < 2 * baseArtHz)
    have read := Nat.mul_le_mul_left (2 * rate) lower
    have counted := Nat.mul_le_mul_left rate nearDown.le
    have undone := Nat.mul_lt_mul_of_pos_left undoneDown (by omega : 0 < 2 * baseArtHz)
    apply Nat.lt_of_mul_lt_mul_right (a := 1000000000)
    linarith

theorem within_half_cycle {first second : Int} (modest : Modest baseArtHz ppb)
    (upper : 2 * baseArtHz * first < 2 * baseArtHz * second +
      ((nsecPerSec : Int) + ppb) + 8 * baseArtHz)
    (lower : 2 * baseArtHz * second < 2 * baseArtHz * first +
      ((nsecPerSec : Int) + ppb) + 8 * baseArtHz) :
    |first - second| ≤ ⌈halfCycleNs baseArtHz ppb⌉ + 3 := by
  have positive : (0 : ℚ) < 2 * baseArtHz := by
    have cycles : (0 : ℚ) < baseArtHz := by exact_mod_cast modest.positive
    linarith
  have bound (difference : Int) (small : 2 * baseArtHz * difference <
      ((nsecPerSec : Int) + ppb) + 8 * baseArtHz) :
      difference ≤ ⌈halfCycleNs baseArtHz ppb⌉ + 3 := by
    have less : ((difference - 4 : Int) : ℚ) < halfCycleNs baseArtHz ppb := by
      unfold halfCycleNs
      rw [lt_div_iff₀ positive]
      unfold nsecPerSec at small
      have cast : (2 * baseArtHz * difference : ℚ) < (1000000000 + ppb) + 8 * baseArtHz := by
        exact_mod_cast small
      push_cast
      linarith
    have whole := Int.lt_ceil.mpr less
    omega
  rw [abs_le]
  have above := bound (first - second) (by linarith)
  have below := bound (second - first) (by linarith)
  omega

theorem quantized_near (ns : Nat) {back : Nat} (modest : Modest baseArtHz ppb)
    (upper : back * baseArtHz ≤ nearest (undoneNs ppb ns) nsecPerSec baseArtHz * nsecPerSec +
      baseArtHz)
    (lower : nearest (undoneNs ppb ns) nsecPerSec baseArtHz * nsecPerSec ≤
      back * baseArtHz + baseArtHz) :
    |(adjustedNs ppb back : Int) - ns| ≤ ⌈halfCycleNs baseArtHz ppb⌉ + 3 := by
  obtain ⟨above, below⟩ := quantization_bounds ns modest upper lower
  have slowest := modest.pace.2.1
  apply within_half_cycle modest
  · zify at above
    rw [Int.toNat_of_nonneg (by omega)] at above
    exact above
  · zify at below
    rw [Int.toNat_of_nonneg (by omega)] at below
    exact below

theorem with_sign_distance (like : Int) (first second : Nat) :
    |withSign like first - withSign like second| = |(first : Int) - second| := by
  unfold withSign
  split
  · rw [← abs_neg]
    congr 1
    ring
  · rfl

end stages

section conversions

variable {phc : PhcParams}

theorem phc_ns_to_art_eq {ns : Int} {art : Nat}
    (modest : Modest phc.baseArtHz (scaledPpmToPpb phc.scaledPpm))
    (anchor : 0 ≤ phc.anchorNs ∧ phc.anchorNs < 2 ^ 63) (anchorArt : phc.anchorArt < 2 ^ 64)
    (range : -(2 ^ 63) ≤ ns ∧ ns < 2 ^ 63) (converted : phcNsToArt phc ns = .ok art) :
    (art : Int) - phc.anchorArt = withSign (ns - phc.anchorNs)
      (nearest (undoneNs (scaledPpmToPpb phc.scaledPpm) (ns - phc.anchorNs).natAbs) nsecPerSec
        phc.baseArtHz) := by
  unfold phcNsToArt at converted
  obtain ⟨delta, subtracted, converted⟩ := bind_ok converted
  obtain ⟨base, undone, converted⟩ := bind_ok converted
  obtain ⟨cycles, counted, converted⟩ := bind_ok converted
  have back : toS64 (-phc.anchorNs) = -phc.anchorNs := to_s64_of_range (by omega) (by omega)
  rw [back] at subtracted
  obtain ⟨difference, within⟩ := add_s64_eq subtracted
  have inside := within range.1 range.2
  rw [← sub_eq_add_neg] at difference
  rw [← difference]
  obtain ⟨isBase, fits⟩ := adjusted_to_base_eq modest (by unfold s64Max; omega) undone
  have size : base.natAbs = undoneNs (scaledPpmToPpb phc.scaledPpm) delta.natAbs := by
    rw [isBase, with_sign_nat_abs]
  obtain ⟨isCycles, bound⟩ := ns_delta_to_cycles_nearest modest (by omega) counted
  rw [size, isBase, with_sign_trans] at isCycles
  · rw [← isCycles]
    unfold s64Max at bound
    dsimp only at converted
    split at converted
    next ahead =>
      split at converted
      · contradiction
      · rename_i inOrder
        cases converted
        unfold u64 at inOrder ⊢
        omega
    next behind =>
      rw [abs_s64_eq (by omega) (by omega)] at converted
      split at converted
      · contradiction
      · cases converted
        omega
  · intro zero
    rw [zero]
    simp [nearest, nsecPerSec]

theorem phc_cycles_to_delta_eq {cycles ns : Nat}
    (modest : Modest phc.baseArtHz (scaledPpmToPpb phc.scaledPpm))
    (converted : phcArtCyclesToDeltaNs phc cycles = .ok ns) :
    ns = adjustedNs (scaledPpmToPpb phc.scaledPpm) (nearest cycles phc.baseArtHz nsecPerSec) := by
  unfold phcArtCyclesToDeltaNs at converted
  split at converted
  · contradiction
  rename_i small
  split at converted
  · contradiction
  rename_i base counted
  split at converted
  · contradiction
  rename_i adjusted corrected
  split at converted
  · contradiction
  rename_i positive
  cases converted
  obtain ⟨isBase, fits⟩ := cycles_delta_to_ns_eq modest (by omega) counted
  have isAdjusted := base_to_adjusted_eq modest fits corrected
  rw [Int.natAbs_natCast, rescaled_nearest, withSign, if_neg (by omega)] at isBase
  rw [isBase, Int.natAbs_natCast, withSign, if_neg (by omega)] at isAdjusted
  omega

theorem phc_time_read_back {ns : Int} {art : Nat}
    (modest : Modest phc.baseArtHz (scaledPpmToPpb phc.scaledPpm))
    (anchor : 0 ≤ phc.anchorNs ∧ phc.anchorNs < 2 ^ 63) (anchorArt : phc.anchorArt < 2 ^ 64)
    (range : -(2 ^ 63) ≤ ns ∧ ns < 2 ^ 63) (converted : phcNsToArt phc ns = .ok art) :
    |phcTime phc art - ns| ≤ ⌈halfCycleNs phc.baseArtHz (scaledPpmToPpb phc.scaledPpm)⌉ + 3 := by
  have positive := modest.positive
  have distance := phc_ns_to_art_eq modest anchor anchorArt range converted
  unfold phcTime offsetTime cyclesTime
  rw [distance, with_sign_nat_abs, with_sign_trans]
  · have short := down_le (nearest (undoneNs (scaledPpmToPpb phc.scaledPpm)
      (ns - phc.anchorNs).natAbs) nsecPerSec phc.baseArtHz) nsecPerSec positive
    have long := lt_down (nearest (undoneNs (scaledPpmToPpb phc.scaledPpm)
      (ns - phc.anchorNs).natAbs) nsecPerSec phc.baseArtHz) nsecPerSec positive
    have near := quantized_near _ modest (short.trans (Nat.le_add_right _ _)) long.le
    rw [← with_sign_distance (ns - phc.anchorNs), with_sign_self] at near
    have shift (time : Int) : phc.anchorNs + time - ns = time - (ns - phc.anchorNs) := by ring
    rwa [shift]
  · intro zero
    rw [zero, down_zero, adjusted_zero]

/-- A clock time that becomes an ART value and is read back, and an interval that
becomes a count and is read back, come back within half a cycle, rounded up, and
three nanoseconds. -/
theorem quantization_within_half_cycle (phc : PhcParams)
    (rate : 1000000 ≤ phc.baseArtHz ∧ phc.baseArtHz ≤ 250000000)
    (adjustment : -phcMaxAdjPpb ≤ scaledPpmToPpb phc.scaledPpm ∧
      scaledPpmToPpb phc.scaledPpm ≤ phcMaxAdjPpb)
    (anchor : 0 ≤ phc.anchorNs ∧ phc.anchorNs < 2 ^ 63) (anchorArt : phc.anchorArt < 2 ^ 64) :
    (∀ ns art back, -(2 ^ 63) ≤ ns → ns < 2 ^ 63 → phcNsToArt phc ns = .ok art →
      phcArtToNs phc art = .ok back →
      |back - ns| ≤ ⌈halfCycleNs phc.baseArtHz (scaledPpmToPpb phc.scaledPpm)⌉ + 3) ∧
    ∀ (delta : Int) cycles (back : Nat), 0 < delta → delta < 2 ^ 63 →
      phcDeltaToArtCycles phc delta = .ok cycles → phcArtCyclesToDeltaNs phc cycles = .ok back →
      |(back : Int) - delta| ≤ ⌈halfCycleNs phc.baseArtHz (scaledPpmToPpb phc.scaledPpm)⌉ + 3 := by
  have modest : Modest phc.baseArtHz (scaledPpmToPpb phc.scaledPpm) :=
    ⟨by omega, by unfold nsecPerSec; omega, adjustment.1, adjustment.2⟩
  have positive := modest.positive
  constructor
  · intro ns art back lower upper converted readBack
    rw [(phc_art_to_ns_eq modest readBack).1]
    exact phc_time_read_back modest anchor anchorArt ⟨lower, upper⟩ converted
  · intro delta cycles back ahead short converted readBack
    have count := phc_delta_to_cycles_eq modest ahead (by unfold s64Max; omega) converted
    have time := phc_cycles_to_delta_eq modest readBack
    have size : (delta.toNat : Int) = delta := Int.toNat_of_nonneg ahead.le
    obtain ⟨up, low⟩ := nearest_bounds cycles nsecPerSec positive
    have near := @quantized_near _ _ delta.toNat (nearest cycles phc.baseArtHz nsecPerSec) modest
      (by rw [← count]; omega) (by rw [← count]; omega)
    rwa [size, ← time] at near

/-- Between two cycles at 38.4 MHz, the clock 100 ppm fast. -/
theorem quantization_within_half_cycle_crystal :
    |(5002604426 : Int) - 5002604433| ≤ ⌈halfCycleNs 38400000 (scaledPpmToPpb 6553600)⌉ + 3 := by
  have laws := quantization_within_half_cycle ⟨1000, 5000000000, 38400000, 6553600⟩ (by decide)
    (by decide) (by decide) (by decide)
  exact laws.1 5002604433 101000 5002604426 (by decide) (by decide) (by decide) (by decide)

end conversions

end Tgpio

import Tgpio.PhcMapping

/-!
# From ART to clock time and back

The time of an ART value is rounded down to a nanosecond, corrected by a
rounded part of itself, and on the way back both corrections are undone with a
rounding of their own. Below 250 MHz a cycle is four nanoseconds or more, and
what the roundings leave is less than half a cycle.
-/

namespace Tgpio

open Scaling

set_option autoImplicit false

/-- The largest distance from the anchor for which the way back is in range. -/
def roundTripLimitNs : Nat := 8 * 10 ^ 18

section undoing

variable {baseArtHz : Nat} {ppb : Int}

/-- The base time that the code gets back from an adjusted one. -/
def undoneNs (ppb : Int) (adjusted : Nat) : Nat :=
  down adjusted (nsecPerSec + ppb).toNat nsecPerSec

theorem undone_le {adjusted : Nat} (modest : Modest baseArtHz ppb)
    (near : adjusted ≤ roundTripLimitNs) : undoneNs ppb adjusted ≤ 8888888888888888889 := by
  have slow : -100000000 ≤ ppb := modest.slow
  have slowest : 900000000 ≤ ((nsecPerSec : Int) + ppb).toNat := by
    unfold nsecPerSec
    omega
  unfold undoneNs
  generalize ((nsecPerSec : Int) + ppb).toNat = rate at slowest ⊢
  refine (Nat.div_le_iff_le_mul_add_pred (by omega)).mpr ?_
  unfold roundTripLimitNs at near
  unfold nsecPerSec
  omega

theorem undone_zero (ppb : Int) : undoneNs ppb 0 = 0 := down_zero _ _

theorem adjusted_to_base_ok {like : Int} {adjusted : Nat} (modest : Modest baseArtHz ppb)
    (near : adjusted ≤ roundTripLimitNs) :
    phcAdjustedToBaseDelta (withSign like adjusted) ppb =
      .ok (withSign (withSign like adjusted) (undoneNs ppb adjusted)) := by
  have slow : -100000000 ≤ ppb := modest.slow
  have fast : ppb ≤ 100000000 := modest.fast
  have total := undone_le modest near
  unfold roundTripLimitNs at near
  have range : -(2 ^ 63) ≤ withSign like adjusted ∧ withSign like adjusted < 2 ^ 63 := by
    unfold withSign
    split <;> omega
  have exact_ : toS64 (nsecPerSec + ppb) = nsecPerSec + ppb :=
    to_s64_of_range (by unfold nsecPerSec; omega) (by unfold nsecPerSec; omega)
  have slowest : 900000000 ≤ ((nsecPerSec : Int) + ppb).toNat := by
    unfold nsecPerSec
    omega
  have fastest : ((nsecPerSec : Int) + ppb).toNat ≤ 1100000000 := by
    unfold nsecPerSec
    omega
  have sign : ¬(nsecPerSec : Int) + ppb ≤ 0 := by omega
  unfold undoneNs at total ⊢
  unfold phcAdjustedToBaseDelta
  dsimp only
  rw [exact_, if_neg sign, abs_s64_eq range.1 range.2, with_sign_nat_abs]
  generalize ((nsecPerSec : Int) + ppb).toNat = rate at slowest fastest total ⊢
  have positive : 0 < rate := by omega
  have quotient : adjusted / rate ≤ 8888888888 :=
    (Nat.div_le_iff_le_mul_add_pred positive).mpr (by omega)
  have whole : adjusted / rate * nsecPerSec ≤ 8888888888 * nsecPerSec :=
    Nat.mul_le_mul_right _ quotient
  have rest : adjusted % rate * nsecPerSec ≤ 1100000000 * nsecPerSec :=
    Nat.mul_le_mul_right _ ((Nat.mod_lt _ positive).le.trans fastest)
  have split := @down_split adjusted rate nsecPerSec positive
  unfold nsecPerSec at whole rest
  rw [if_neg (by unfold s64Max nsecPerSec; omega : ¬adjusted / rate > s64Max / nsecPerSec),
    u64_of_lt (by unfold nsecPerSec; omega : adjusted / rate * nsecPerSec < 2 ^ 64),
    u64_of_lt (by unfold nsecPerSec; omega : adjusted % rate * nsecPerSec < 2 ^ 64), split,
    u64_of_lt (by omega), signed_ok (by unfold s64Max; omega)]

/-- Undoing the correction is off by one nanosecond at most. -/
theorem undone_near (base : Nat) (modest : Modest baseArtHz ppb) :
    base ≤ undoneNs ppb (adjustedNs ppb base) + 1 ∧
      undoneNs ppb (adjustedNs ppb base) ≤ base + 1 := by
  have slow : -100000000 ≤ ppb := modest.slow
  have fast : ppb ≤ 100000000 := modest.fast
  by_cases faster : 0 ≤ ppb
  · have rate : ((nsecPerSec : Int) + ppb).toNat = nsecPerSec + ppb.natAbs := by
      unfold nsecPerSec
      omega
    have answer : adjustedNs ppb base = lengthened base nsecPerSec ppb.natAbs := if_pos faster
    obtain ⟨upper, lower⟩ := lengthened_undo base ppb.natAbs (by decide : 0 < nsecPerSec)
    rw [undoneNs, rate, answer]
    omega
  · have rate : ((nsecPerSec : Int) + ppb).toNat = nsecPerSec - ppb.natAbs := by
      unfold nsecPerSec
      omega
    have answer : adjustedNs ppb base = shortened base nsecPerSec ppb.natAbs := if_neg faster
    obtain ⟨lower, upper⟩ := shortened_undo base (by decide : 0 < nsecPerSec)
      (by unfold nsecPerSec; omega : 2 * ppb.natAbs ≤ nsecPerSec)
    rw [undoneNs, rate, answer]
    omega

end undoing

section counting

/-- A base time within a nanosecond of that of some cycles counts as those
cycles, when a cycle is at least four nanoseconds long. -/
theorem nearest_cycles {baseArtHz cycles base : Nat} (positive : 0 < baseArtHz)
    (slow : baseArtHz ≤ 250000000) (lower : down cycles baseArtHz nsecPerSec ≤ base + 1)
    (upper : base ≤ down cycles baseArtHz nsecPerSec + 1) :
    nearest base nsecPerSec baseArtHz = cycles := by
  have below := down_le cycles nsecPerSec positive
  have above := lt_down cycles nsecPerSec positive
  have least := Nat.mul_le_mul_right baseArtHz lower
  have most := Nat.mul_le_mul_right baseArtHz upper
  rw [Nat.add_mul, Nat.one_mul] at least most
  unfold nsecPerSec at *
  apply nearest_eq <;> omega

theorem ns_delta_to_cycles_ok {like : Int} {baseArtHz cycles base : Nat} (positive : 0 < baseArtHz)
    (slow : baseArtHz ≤ 250000000) (near : nearest base nsecPerSec baseArtHz = cycles)
    (fits : base ≤ s64Max) (counted : cycles ≤ s64Max) :
    nsDeltaToCycles (withSign like base) baseArtHz true =
      .ok (withSign (withSign like base) cycles) := by
  unfold s64Max at fits
  have range : -(2 ^ 63) ≤ withSign like base ∧ withSign like base < 2 ^ 63 := by
    unfold withSign
    split <;> omega
  have product : base % nsecPerSec * baseArtHz < 2 ^ 64 := by
    have part : base % nsecPerSec * baseArtHz ≤ nsecPerSec * 250000000 :=
      Nat.mul_le_mul (Nat.mod_lt _ (by decide)).le slow
    unfold nsecPerSec at part ⊢
    omega
  have answer := rescale_common_eq true (by decide : 0 < nsecPerSec) positive product
  rw [rescaled_nearest, near, if_pos counted] at answer
  unfold nsDeltaToCycles rescaleNearest
  rw [abs_s64_eq range.1 range.2, with_sign_nat_abs, if_pos rfl, answer]
  exact signed_ok counted

end counting

section exactness

variable {phc : PhcParams}

theorem phc_ns_to_art_back {art : Nat} {ns : Int}
    (modest : Modest phc.baseArtHz (scaledPpmToPpb phc.scaledPpm))
    (slow : phc.baseArtHz ≤ 250000000) (anchor : 0 ≤ phc.anchorNs ∧ phc.anchorNs < 2 ^ 63)
    (bound : art < 2 ^ 64) (converted : phcArtToNs phc art = .ok ns)
    (near : (ns - phc.anchorNs).natAbs ≤ roundTripLimitNs) : phcNsToArt phc ns = .ok art := by
  obtain ⟨exact_, fits⟩ := phc_art_to_ns_eq modest converted
  unfold phcTime offsetTime cyclesTime at exact_
  have measured : phc.anchorArt + ((art : Int) - phc.anchorArt) = art := by omega
  generalize (art : Int) - phc.anchorArt = distance at exact_ fits measured
  generalize rate : scaledPpmToPpb phc.scaledPpm = ppb at exact_ modest
  have close := undone_near (down distance.natAbs phc.baseArtHz nsecPerSec) modest
  generalize adjusted : adjustedNs ppb (down distance.natAbs phc.baseArtHz nsecPerSec) = delta
    at exact_ close
  have size : delta ≤ roundTripLimitNs := by
    rw [exact_, add_sub_cancel_left, with_sign_nat_abs] at near
    exact near
  have small := undone_le modest size
  have cycles := nearest_cycles modest.positive slow close.1 close.2
  -- the way back, stage by stage
  have difference : addS64 ns (toS64 (-phc.anchorNs)) = .ok (withSign distance delta) := by
    have sum : ns + -phc.anchorNs = withSign distance delta := by omega
    have range : -(2 ^ 63) ≤ withSign distance delta ∧ withSign distance delta < 2 ^ 63 := by
      unfold roundTripLimitNs at size
      unfold withSign
      split <;> omega
    rw [to_s64_of_range (by omega) (by omega), add_s64_ok (sum ▸ range.1) (sum ▸ range.2), sum]
  have base : phcAdjustedToBaseDelta (withSign distance delta) ppb =
      .ok (withSign distance (undoneNs ppb delta)) := by
    rw [adjusted_to_base_ok modest size, with_sign_trans]
    rintro rfl
    exact undone_zero ppb
  have counted : nsDeltaToCycles (withSign distance (undoneNs ppb delta)) phc.baseArtHz true =
      .ok (withSign distance distance.natAbs) := by
    rw [ns_delta_to_cycles_ok modest.positive slow cycles (by unfold s64Max; omega) fits,
      with_sign_trans]
    intro zero
    rw [zero] at cycles
    rw [← cycles]
    simp [nearest, nsecPerSec]
  have whole : withSign distance distance.natAbs = distance := by
    unfold withSign
    split <;> omega
  rw [whole] at counted
  unfold phcNsToArt
  rw [difference, rate]
  change (phcAdjustedToBaseDelta (withSign distance delta) ppb >>= fun baseDelta => _) = _
  rw [base]
  change (nsDeltaToCycles (withSign distance (undoneNs ppb delta)) phc.baseArtHz true >>=
    fun cycles => _) = _
  rw [counted]
  unfold s64Max at fits
  by_cases after : distance ≥ 0
  · have sum : phc.anchorArt + distance.toNat = art := by omega
    simp only [bind, Except.bind, if_pos after, sum, u64_of_lt bound]
    exact if_neg (by omega)
  · have magnitude : absS64 distance = distance.natAbs := abs_s64_eq (by omega) (by omega)
    simp only [bind, Except.bind, if_neg after, magnitude]
    rw [if_neg (by omega)]
    exact congrArg _ (by omega)

/-- Any scaled frequency that `adjfine` accepts, on a crystal of a quarter of a
gigahertz at most: the time of an ART value leads back to that value, so no two
values share a time and times increase along ART. -/
theorem phc_time_round_trips (phc : PhcParams)
    (rate : 1 ≤ phc.baseArtHz ∧ phc.baseArtHz ≤ 250000000)
    (adjustment : -phcMaxAdjPpb ≤ scaledPpmToPpb phc.scaledPpm ∧
      scaledPpmToPpb phc.scaledPpm ≤ phcMaxAdjPpb)
    (anchor : 0 ≤ phc.anchorNs ∧ phc.anchorNs < 2 ^ 63) :
    (∀ art ns, art < 2 ^ 64 → phcArtToNs phc art = .ok ns →
      (ns - phc.anchorNs).natAbs ≤ roundTripLimitNs → phcNsToArt phc ns = .ok art) ∧
    (∀ first second firstNs secondNs, first < second → second < 2 ^ 64 →
      phcArtToNs phc first = .ok firstNs → phcArtToNs phc second = .ok secondNs →
      (firstNs - phc.anchorNs).natAbs ≤ roundTripLimitNs →
      (secondNs - phc.anchorNs).natAbs ≤ roundTripLimitNs → firstNs < secondNs) := by
  have modest : Modest phc.baseArtHz (scaledPpmToPpb phc.scaledPpm) :=
    ⟨rate.1, by unfold nsecPerSec; omega, adjustment.1, adjustment.2⟩
  have back (art : Nat) (ns : Int) := @phc_ns_to_art_back phc art ns modest rate.2 anchor
  refine ⟨back, ?_⟩
  intro first second firstNs secondNs order bound firstTime secondTime firstNear secondNear
  have weakly : firstNs ≤ secondNs := by
    rw [(phc_art_to_ns_eq modest firstTime).1, (phc_art_to_ns_eq modest secondTime).1]
    exact phc_time_mono modest order.le
  refine lt_of_le_of_ne weakly ?_
  rintro rfl
  have firstBack := back first firstNs (order.trans bound) firstTime firstNear
  have secondBack := back second firstNs bound secondTime secondNear
  rw [firstBack] at secondBack
  cases secondBack
  exact lt_irrefl _ order

theorem phc_time_round_trips_crystal :
    phcNsToArt ⟨1000, 5000000000, 38400000, 6553600⟩ 5002604426 = .ok 101000 := by
  have laws := phc_time_round_trips ⟨1000, 5000000000, 38400000, 6553600⟩ (by decide) (by decide)
    (by decide)
  exact laws.1 101000 5002604426 (by decide) (by decide) (by decide)

end exactness

end Tgpio

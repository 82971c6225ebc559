import Tgpio.PhcRoundTrip

/-!
# Spans of clock time

The time between two ART values by the clock model, the real time of a span of
clock time, and its ART cycles. Each is the exact value up to a few
nanoseconds, whatever the frequency adjustment.
-/

namespace Tgpio

open Scaling

set_option autoImplicit false

section spans

variable {baseArtHz : Nat} {ppb : Int}

theorem with_sign_self (value : Int) : withSign value value.natAbs = value := by
  unfold withSign
  split <;> omega

/-- The rate of the clock against its base, in nanoseconds for a second. -/
theorem Modest.pace (modest : Modest baseArtHz ppb) :
    toS64 (nsecPerSec + ppb) = nsecPerSec + ppb ∧
      900000000 ≤ ((nsecPerSec : Int) + ppb).toNat ∧
      ((nsecPerSec : Int) + ppb).toNat ≤ 1100000000 := by
  have slow : -100000000 ≤ ppb := modest.slow
  have fast : ppb ≤ 100000000 := modest.fast
  refine ⟨to_s64_of_range ?_ ?_, ?_, ?_⟩ <;> unfold nsecPerSec <;> omega

/-- The base time of a span, or a range error: the quotient is looked at first,
and the sum once more. -/
theorem adjusted_to_base_stage {ns : Int} (modest : Modest baseArtHz ppb)
    (range : -(2 ^ 63) ≤ ns ∧ ns < 2 ^ 63) :
    phcAdjustedToBaseDelta ns ppb =
      if undoneNs ppb ns.natAbs ≤ s64Max then .ok (withSign ns (undoneNs ppb ns.natAbs))
      else .error .erange := by
  obtain ⟨exact_, slowest, fastest⟩ := modest.pace
  have sign : ¬(nsecPerSec : Int) + ppb ≤ 0 := by omega
  unfold phcAdjustedToBaseDelta
  dsimp only
  rw [exact_, if_neg sign, abs_s64_eq range.1 range.2]
  unfold undoneNs
  generalize ((nsecPerSec : Int) + ppb).toNat = rate at slowest fastest ⊢
  have positive : 0 < rate := by omega
  have split := @down_split ns.natAbs rate nsecPerSec positive
  by_cases many : ns.natAbs / rate > s64Max / nsecPerSec
  · have above := (Nat.div_lt_iff_lt_mul (by decide : 0 < nsecPerSec)).mp many
    have more := above.trans_le ((Nat.le_add_right _ _).trans_eq split)
    rw [if_pos many, if_neg (by omega)]
  have whole : ns.natAbs / rate * nsecPerSec ≤ s64Max :=
    (Nat.le_div_iff_mul_le (by decide)).mp (by omega)
  have part : ns.natAbs % rate * nsecPerSec ≤ 1100000000 * nsecPerSec :=
    Nat.mul_le_mul_right _ ((Nat.mod_lt _ positive).le.trans fastest)
  have rest : ns.natAbs % rate * nsecPerSec / rate < nsecPerSec := by
    rw [Nat.div_lt_iff_lt_mul positive, Nat.mul_comm]
    exact Nat.mul_lt_mul_of_pos_left (Nat.mod_lt _ positive) (by decide)
  unfold s64Max at whole
  unfold nsecPerSec at part rest
  rw [if_neg many, u64_of_lt (by omega : ns.natAbs / rate * nsecPerSec < 2 ^ 64),
    u64_of_lt (by unfold nsecPerSec; omega : ns.natAbs % rate * nsecPerSec < 2 ^ 64)]
  rw [u64_of_lt (by unfold nsecPerSec at *; omega), split]
  by_cases fits : down ns.natAbs rate nsecPerSec ≤ s64Max
  · rw [if_pos fits, signed_ok fits]
  · rw [if_neg fits]
    exact if_pos (by omega)

theorem adjusted_to_base_eq {ns base : Int} (modest : Modest baseArtHz ppb)
    (within : -(s64Max : Int) - 1 ≤ ns ∧ ns ≤ s64Max)
    (converted : phcAdjustedToBaseDelta ns ppb = .ok base) :
    base = withSign ns (undoneNs ppb ns.natAbs) ∧ undoneNs ppb ns.natAbs ≤ s64Max := by
  unfold s64Max at within
  rw [adjusted_to_base_stage modest (by omega)] at converted
  split at converted
  · cases converted
    exact ⟨rfl, by assumption⟩
  · contradiction

/-- Only a span near the end of the range has no real time. -/
theorem adjusted_to_base_error {ns : Int} {status : Errno} (modest : Modest baseArtHz ppb)
    (failed : phcAdjustedToBaseDelta ns ppb = .error status) : roundTripLimitNs < ns.natAbs := by
  by_contra near
  have converted := @adjusted_to_base_ok _ _ ns _ modest (Nat.le_of_not_lt near)
  rw [with_sign_self, failed] at converted
  contradiction

theorem undone_bounds (ns : Nat) (modest : Modest baseArtHz ppb) :
    let rate := ((nsecPerSec : Int) + ppb).toNat
    undoneNs ppb ns * rate ≤ ns * nsecPerSec ∧ ns * nsecPerSec < undoneNs ppb ns * rate + rate := by
  obtain ⟨-, slowest, -⟩ := modest.pace
  exact ⟨down_le _ _ (by omega), lt_down _ _ (by omega)⟩

theorem undone_add (ns more : Nat) (modest : Modest baseArtHz ppb) :
    undoneNs ppb ns + undoneNs ppb more ≤ undoneNs ppb (ns + more) ∧
      undoneNs ppb (ns + more) ≤ undoneNs ppb ns + undoneNs ppb more + 1 := by
  obtain ⟨-, slowest, -⟩ := modest.pace
  exact down_add more (by omega)

theorem undone_mono {ns longer : Nat} (shorter : ns ≤ longer) :
    undoneNs ppb ns ≤ undoneNs ppb longer :=
  down_mono shorter

variable {phc : PhcParams}

/-- The real time of a span of clock time. -/
theorem phc_delta_to_real_eq {ns : Int} {real : Nat}
    (modest : Modest phc.baseArtHz (scaledPpmToPpb phc.scaledPpm)) (ahead : 0 < ns)
    (within : ns ≤ s64Max) (converted : phcDeltaToRealNs phc ns = .ok real) :
    real = undoneNs (scaledPpmToPpb phc.scaledPpm) ns.toNat := by
  unfold phcDeltaToRealNs at converted
  rw [if_neg (by omega)] at converted
  split at converted
  · contradiction
  · rename_i base based
    obtain ⟨exact_, -⟩ := adjusted_to_base_eq modest (by omega) based
    split at converted
    · contradiction
    · cases converted
      have size : ns.natAbs = ns.toNat := by omega
      rw [exact_, withSign, if_neg (by omega), size, Int.toNat_natCast]

theorem adjusted_to_base_le {ns base : Int} (converted : phcAdjustedToBaseDelta ns ppb = .ok base) :
    base.natAbs ≤ s64Max := by
  unfold phcAdjustedToBaseDelta at converted
  dsimp only at converted
  split at converted
  · contradiction
  split at converted
  · contradiction
  · obtain ⟨exact_, fits⟩ := signed_eq converted
    rw [exact_, with_sign_nat_abs]
    exact fits

theorem phc_delta_to_real_le {ns : Int} {real : Nat}
    (converted : phcDeltaToRealNs phc ns = .ok real) : real ≤ s64Max := by
  unfold phcDeltaToRealNs at converted
  split at converted
  · cases converted
    decide
  split at converted
  · contradiction
  rename_i base based
  have fits := adjusted_to_base_le based
  split at converted
  · contradiction
  · cases converted
    omega

/-- Base time in whole cycles. -/
theorem ns_delta_to_cycles_nearest {ns cycles : Int} (modest : Modest baseArtHz ppb)
    (within : ns.natAbs ≤ s64Max) (converted : nsDeltaToCycles ns baseArtHz true = .ok cycles) :
    cycles = withSign ns (nearest ns.natAbs nsecPerSec baseArtHz) ∧ cycles.natAbs ≤ s64Max := by
  have product : ns.natAbs % nsecPerSec * baseArtHz < 2 ^ 64 := by
    have part := Nat.mul_lt_mul_of_pos_right (Nat.mod_lt ns.natAbs (by decide : 0 < nsecPerSec))
      modest.positive
    have rate := modest.rate
    rw [Nat.mul_comm nsecPerSec] at part
    omega
  unfold s64Max at within
  unfold nsDeltaToCycles at converted
  rw [abs_s64_eq (by omega) (by omega), if_pos rfl] at converted
  obtain ⟨scaled, rescales, signs⟩ := bind_ok converted
  obtain ⟨value, -⟩ := rescale_common_ok true (by decide) modest.positive product rescales
  obtain ⟨signedValue, bound⟩ := signed_eq signs
  rw [signedValue, with_sign_nat_abs, value, rescaled_nearest]
  rw [value, rescaled_nearest] at bound
  exact ⟨rfl, bound⟩

/-- The cycles of a span of clock time: its real time, rounded to a cycle. -/
theorem phc_delta_to_cycles_eq {ns : Int} {cycles : Nat}
    (modest : Modest phc.baseArtHz (scaledPpmToPpb phc.scaledPpm)) (ahead : 0 < ns)
    (within : ns ≤ s64Max) (converted : phcDeltaToArtCycles phc ns = .ok cycles) :
    cycles = nearest (undoneNs (scaledPpmToPpb phc.scaledPpm) ns.toNat) nsecPerSec
      phc.baseArtHz := by
  unfold phcDeltaToArtCycles at converted
  rw [if_neg (by omega)] at converted
  split at converted
  · contradiction
  rename_i base based
  obtain ⟨exact_, fits⟩ := adjusted_to_base_eq modest (by omega) based
  split at converted
  · contradiction
  split at converted
  · contradiction
  rename_i count counted
  split at converted
  · contradiction
  cases converted
  have size : ns.natAbs = ns.toNat := by omega
  rw [size] at exact_ fits
  rw [withSign, if_neg (by omega)] at exact_
  have magnitude : base.natAbs = undoneNs (scaledPpmToPpb phc.scaledPpm) ns.toNat := by omega
  obtain ⟨value, -⟩ := ns_delta_to_cycles_nearest modest (by omega) counted
  rw [value, magnitude, withSign, if_neg (by omega), Int.toNat_natCast]

/-- The clock time between two ART values is that of the cycles between them, up
to three nanoseconds. -/
theorem phc_time_span {earlier later : Nat}
    (modest : Modest phc.baseArtHz (scaledPpmToPpb phc.scaledPpm)) (order : earlier ≤ later) :
    let span := cyclesTime phc.baseArtHz (scaledPpmToPpb phc.scaledPpm) (later - earlier)
    phcTime phc later - phcTime phc earlier ≤ span + 3 ∧
      (span : Int) ≤ phcTime phc later - phcTime phc earlier + 3 := by
  have near := offset_time_add ((earlier : Int) - phc.anchorArt) ((later : Int) - earlier) modest
  have sum : (earlier : Int) - phc.anchorArt + ((later : Int) - earlier) =
      (later : Int) - phc.anchorArt := by omega
  have size : ((later : Int) - earlier).natAbs = later - earlier := by omega
  have ahead : offsetTime phc.baseArtHz (scaledPpmToPpb phc.scaledPpm) ((later : Int) - earlier) =
      cyclesTime phc.baseArtHz (scaledPpmToPpb phc.scaledPpm) (later - earlier) := by
    rw [offsetTime, size, withSign, if_neg (by omega)]
  rw [sum, ahead] at near
  unfold phcTime
  intro span
  omega

end spans

end Tgpio

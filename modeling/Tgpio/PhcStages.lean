import Tgpio.CheckedClock

/-!
# The stages of a clock conversion

Each stage has an exact result and a type. A conversion answers what the formula
says where every stage is in range, and a range error elsewhere; the limits are
those of the code, which puts the sign on a magnitude last.
-/

namespace Tgpio

open Scaling Words

set_option autoImplicit false

section stages

variable {baseArtHz : Nat} {ppb : Int}

theorem art_distance_stage (anchorArt art : Nat) :
    artDistance anchorArt art =
      if ((art : Int) - anchorArt).natAbs ≤ s64Max then .ok ((art : Int) - anchorArt)
      else .error .erange := by
  unfold artDistance
  split
  · split
    · rw [if_neg (by omega)]
    · rw [if_pos (by omega), Nat.cast_sub (by assumption)]
  · split
    · rw [if_neg (by omega)]
    · rw [if_pos (by omega), Nat.cast_sub (by omega), Int.neg_sub]

theorem signed_stage {like : Int} {magnitude : U64Result} {value : Nat}
    (rescaled : magnitude = if value ≤ s64Max then .ok value else .error .erange) :
    magnitude.bind (signed like) =
      if value ≤ s64Max then .ok (withSign like value) else .error .erange := by
  rw [rescaled]
  split
  · exact signed_ok (by assumption)
  · rfl

theorem cycles_delta_stage {cycles : Int} (modest : Modest baseArtHz ppb)
    (range : -(2 ^ 63) ≤ cycles ∧ cycles < 2 ^ 63) :
    cyclesDeltaToNs cycles baseArtHz false =
      if down cycles.natAbs baseArtHz nsecPerSec ≤ s64Max then
        .ok (withSign cycles (down cycles.natAbs baseArtHz nsecPerSec))
      else .error .erange := by
  have answer := rescale_common_eq false modest.positive (by decide : 0 < nsecPerSec)
    (modest.cycles_product cycles.natAbs)
  rw [rescaled_down] at answer
  rw [cyclesDeltaToNs, abs_s64_eq range.1 range.2, if_neg Bool.false_ne_true, rescale]
  exact signed_stage answer

theorem ns_delta_stage {ns : Int} (modest : Modest baseArtHz ppb)
    (range : -(2 ^ 63) ≤ ns ∧ ns < 2 ^ 63) :
    nsDeltaToCycles ns baseArtHz true =
      if nearest ns.natAbs nsecPerSec baseArtHz ≤ s64Max then
        .ok (withSign ns (nearest ns.natAbs nsecPerSec baseArtHz))
      else .error .erange := by
  have answer := rescale_common_eq true (by decide : 0 < nsecPerSec) modest.positive
    (modest.product ns.natAbs)
  rw [rescaled_nearest] at answer
  rw [nsDeltaToCycles, abs_s64_eq range.1 range.2, if_pos rfl, rescaleNearest]
  exact signed_stage answer

theorem base_to_adjusted_stage {base : Int} (modest : Modest baseArtHz ppb)
    (fits : base.natAbs ≤ s64Max) :
    phcBaseToAdjustedDelta base ppb =
      if s64Type.Fits (withSign base (adjustedNs ppb base.natAbs)) then
        .ok (withSign base (adjustedNs ppb base.natAbs))
      else .error .erange := by
  have small := shortened_le base.natAbs (by decide : 0 < nsecPerSec) modest.part
  have correction := apply_ppb_eq modest fits
  have sum : base + applyPpbToNs base ppb = withSign base (adjustedNs ppb base.natAbs) := by
    rw [correction]
    unfold adjustedNs lengthened shortened withSign
    split <;> split <;> split <;> omega
  have range : -(2 ^ 63) ≤ applyPpbToNs base ppb ∧ applyPpbToNs base ppb < 2 ^ 63 := by
    rw [correction]
    unfold withSign s64Max at *
    split <;> split <;> omega
  unfold s64Max at fits
  rw [phcBaseToAdjustedDelta, add_s64_stage (by omega) range, sum]

end stages

section conversions

/-- The stages from an ART value to a time: the distance from the anchor, its
base time, its adjusted time, and the sum. -/
def ArtStages (phc : PhcParams) (art : Nat) : Prop :=
  ((art : Int) - phc.anchorArt).natAbs ≤ s64Max ∧
    down ((art : Int) - phc.anchorArt).natAbs phc.baseArtHz nsecPerSec ≤ s64Max ∧
    s64Type.Fits
      (offsetTime phc.baseArtHz (scaledPpmToPpb phc.scaledPpm) ((art : Int) - phc.anchorArt)) ∧
    s64Type.Fits (phcTime phc art)

instance (phc : PhcParams) (art : Nat) : Decidable (ArtStages phc art) :=
  inferInstanceAs (Decidable (_ ∧ _ ∧ _ ∧ _))

def baseSpan (phc : PhcParams) (ns : Int) : Nat :=
  undoneNs (scaledPpmToPpb phc.scaledPpm) (ns - phc.anchorNs).natAbs

def cycleSpan (phc : PhcParams) (ns : Int) : Nat :=
  nearest (baseSpan phc ns) nsecPerSec phc.baseArtHz

/-- The ART value of a clock time, by the formula of the model. -/
def artAt (phc : PhcParams) (ns : Int) : Int :=
  phc.anchorArt + withSign (ns - phc.anchorNs) (cycleSpan phc ns)

/-- The stages from a time to a number of cycles: the distance from the anchor,
its base time, and its cycles. -/
def CycleStages (phc : PhcParams) (ns : Int) : Prop :=
  s64Type.Fits (ns - phc.anchorNs) ∧ baseSpan phc ns ≤ s64Max ∧ cycleSpan phc ns ≤ s64Max

instance (phc : PhcParams) (ns : Int) : Decidable (CycleStages phc ns) :=
  inferInstanceAs (Decidable (_ ∧ _ ∧ _))

structure PhcParams.InRange (phc : PhcParams) : Prop where
  rates : Modest phc.baseArtHz (scaledPpmToPpb phc.scaledPpm)
  scaled : -(2 ^ 63) ≤ phc.scaledPpm ∧ phc.scaledPpm < 2 ^ 63
  anchorArt : phc.anchorArt < 2 ^ 64
  anchorNs : 0 ≤ phc.anchorNs ∧ phc.anchorNs < 2 ^ 63

variable {phc : PhcParams}

theorem stage_bind {α β : Type} {fits : Prop} [Decidable fits] (value : α)
    (rest : α → Except Errno β) :
    (if fits then .ok value else .error .erange : Except Errno α).bind rest =
      if fits then rest value else .error .erange := by
  split <;> rfl

theorem phc_art_to_ns_nested {art : Nat} (inRange : phc.InRange) :
    phcArtToNs phc art =
      if ((art : Int) - phc.anchorArt).natAbs ≤ s64Max then
        if down ((art : Int) - phc.anchorArt).natAbs phc.baseArtHz nsecPerSec ≤ s64Max then
          if s64Type.Fits (offsetTime phc.baseArtHz (scaledPpmToPpb phc.scaledPpm)
              ((art : Int) - phc.anchorArt)) then
            if s64Type.Fits (phcTime phc art) then .ok (phcTime phc art) else .error .erange
          else .error .erange
        else .error .erange
      else .error .erange := by
  have modest := inRange.rates
  have anchorNs := inRange.anchorNs
  change (artDistance _ _).bind _ = _
  rw [art_distance_stage, stage_bind]
  by_cases near : ((art : Int) - phc.anchorArt).natAbs ≤ s64Max
  case neg => rw [if_neg near, if_neg near]
  rw [if_pos near, if_pos near]
  change (cyclesDeltaToNs _ _ _).bind _ = _
  rw [cycles_delta_stage modest (by unfold s64Max at near; omega), stage_bind]
  by_cases short : down ((art : Int) - phc.anchorArt).natAbs phc.baseArtHz nsecPerSec ≤ s64Max
  case neg => rw [if_neg short, if_neg short]
  rw [if_pos short, if_pos short]
  change (phcBaseToAdjustedDelta _ _).bind _ = _
  have offset : withSign (withSign ((art : Int) - phc.anchorArt)
      (down ((art : Int) - phc.anchorArt).natAbs phc.baseArtHz nsecPerSec))
        (adjustedNs (scaledPpmToPpb phc.scaledPpm)
          (down ((art : Int) - phc.anchorArt).natAbs phc.baseArtHz nsecPerSec)) =
      offsetTime phc.baseArtHz (scaledPpmToPpb phc.scaledPpm) ((art : Int) - phc.anchorArt) := by
    apply with_sign_trans
    intro zero
    rw [zero, adjusted_zero]
  rw [base_to_adjusted_stage modest (by rw [with_sign_nat_abs]; exact short), with_sign_nat_abs,
    offset, stage_bind]
  by_cases fits : s64Type.Fits (offsetTime phc.baseArtHz (scaledPpmToPpb phc.scaledPpm)
      ((art : Int) - phc.anchorArt))
  case neg => rw [if_neg fits, if_neg fits]
  rw [if_pos fits, if_pos fits]
  exact add_s64_stage (by omega) ⟨fits.1, Int.lt_of_le_sub_one fits.2⟩

theorem phc_art_to_ns_stages {art : Nat} (inRange : phc.InRange) :
    phcArtToNs phc art = if ArtStages phc art then .ok (phcTime phc art) else .error .erange := by
  rw [phc_art_to_ns_nested inRange]
  by_cases stages : ArtStages phc art
  · obtain ⟨distance, base, adjusted, sum⟩ := stages
    rw [if_pos distance, if_pos base, if_pos adjusted, if_pos sum, if_pos ⟨distance, base, adjusted, sum⟩]
  · rw [if_neg stages]
    split_ifs with distance base adjusted sum
    · exact absurd ⟨distance, base, adjusted, sum⟩ stages
    all_goals rfl

theorem anchored_sum_eq {anchorArt : Nat} {cycles : Int} (anchored : anchorArt < 2 ^ 64)
    (range : -(2 ^ 63) ≤ cycles ∧ cycles < 2 ^ 63) :
    (if cycles ≥ 0 then
      let art := u64 (anchorArt + cycles.toNat)
      if art < anchorArt then .error .erange else .ok art
    else
      if absS64 cycles > anchorArt then .error .erange
      else .ok (anchorArt - absS64 cycles) : U64Result) = anchoredSum anchorArt cycles := by
  unfold anchoredSum
  rw [abs_s64_eq range.1 range.2]
  split
  · unfold u64
    dsimp only
    by_cases fits : (anchorArt : Int) + cycles < 2 ^ 64
    · rw [if_neg (by omega), if_pos (by omega)]
      congr 1
      omega
    · rw [if_pos (by omega), if_neg (by omega)]
  · by_cases far : cycles.natAbs > anchorArt
    · rw [if_pos far, if_neg (by omega)]
    · rw [if_neg far, if_pos (by omega)]
      congr 1
      omega

theorem cycle_span_sign (phc : PhcParams) (ns : Int) :
    withSign (withSign (ns - phc.anchorNs) (baseSpan phc ns)) (cycleSpan phc ns) =
      withSign (ns - phc.anchorNs) (cycleSpan phc ns) := by
  apply with_sign_trans
  intro zero
  rw [cycleSpan, nearest, zero, Nat.zero_mul]
  decide

theorem phc_ns_to_art_nested {ns : Int} (inRange : phc.InRange)
    (time : -(2 ^ 63) ≤ ns ∧ ns < 2 ^ 63) :
    phcNsToArt phc ns =
      if s64Type.Fits (ns - phc.anchorNs) then
        if baseSpan phc ns ≤ s64Max then
          if cycleSpan phc ns ≤ s64Max then
            anchoredSum phc.anchorArt (withSign (ns - phc.anchorNs) (cycleSpan phc ns))
          else .error .erange
        else .error .erange
      else .error .erange := by
  have modest := inRange.rates
  have anchorNs := inRange.anchorNs
  change (addS64 _ _).bind _ = _
  rw [to_s64_of_range (by omega) (by omega), add_s64_stage time (by omega), ← sub_eq_add_neg, stage_bind]
  by_cases fits : s64Type.Fits (ns - phc.anchorNs)
  case neg => rw [if_neg fits, if_neg fits]
  rw [if_pos fits, if_pos fits]
  have delta : -(2 ^ 63) ≤ ns - phc.anchorNs ∧ ns - phc.anchorNs < 2 ^ 63 :=
    ⟨fits.1, Int.lt_of_le_sub_one fits.2⟩
  change (phcAdjustedToBaseDelta _ _).bind _ = _
  rw [adjusted_to_base_stage modest delta, stage_bind]
  change (if baseSpan phc ns ≤ s64Max then _ else _) = _
  by_cases short : baseSpan phc ns ≤ s64Max
  case neg => rw [if_neg short, if_neg short]
  rw [if_pos short, if_pos short]
  have base := @with_sign_nat_abs (ns - phc.anchorNs) (baseSpan phc ns)
  have baseRange : -(2 ^ 63) ≤ withSign (ns - phc.anchorNs) (baseSpan phc ns) ∧
      withSign (ns - phc.anchorNs) (baseSpan phc ns) < 2 ^ 63 := by
    unfold s64Max at short
    omega
  change (nsDeltaToCycles (withSign _ (baseSpan phc ns)) _ _).bind _ = _
  rw [ns_delta_stage modest baseRange, base, stage_bind]
  change (if cycleSpan phc ns ≤ s64Max then _ else _) = _
  by_cases counted : cycleSpan phc ns ≤ s64Max
  case neg => rw [if_neg counted, if_neg counted]
  rw [if_pos counted, if_pos counted]
  change (if withSign (withSign (ns - phc.anchorNs) (baseSpan phc ns)) (cycleSpan phc ns) ≥ 0 then
    _ else _) = _
  have cycles := @with_sign_nat_abs (ns - phc.anchorNs) (cycleSpan phc ns)
  rw [← anchored_sum_eq inRange.anchorArt (by unfold s64Max at counted; omega), ← cycle_span_sign]
  rfl

/-- The way back answers the ART value of the formula, where there is one. -/
theorem phc_ns_to_art_stages {ns : Int} (inRange : phc.InRange)
    (time : -(2 ^ 63) ≤ ns ∧ ns < 2 ^ 63) :
    phcNsToArt phc ns =
      if CycleStages phc ns ∧ u64Type.Fits (artAt phc ns) then .ok (artAt phc ns).toNat
      else .error .erange := by
  rw [phc_ns_to_art_nested inRange time]
  have last : anchoredSum phc.anchorArt (withSign (ns - phc.anchorNs) (cycleSpan phc ns)) =
      if u64Type.Fits (artAt phc ns) then .ok (artAt phc ns).toNat else .error .erange := by
    apply if_congr ?_ rfl rfl
    exact and_congr_right fun _ => ⟨Int.le_sub_one_of_lt, Int.lt_of_le_sub_one⟩
  rw [last]
  by_cases stages : CycleStages phc ns
  · obtain ⟨delta, base, cycles⟩ := stages
    rw [if_pos delta, if_pos base, if_pos cycles]
    exact if_congr ⟨fun fits => ⟨⟨delta, base, cycles⟩, fits⟩, And.right⟩ rfl rfl
  · have notAll : ¬(CycleStages phc ns ∧ u64Type.Fits (artAt phc ns)) := fun both => stages both.1
    rw [if_neg notAll]
    split_ifs with delta base cycles
    · exact absurd ⟨delta, base, cycles⟩ stages
    · exact absurd ⟨delta, base, cycles⟩ stages
    all_goals rfl

theorem and_then_stage {α β : Type} {first : Calc (Except Errno α)}
    {rest : α → Calc (Except Errno β)} {fits : Prop} [Decidable fits] {value : α}
    (yields : first.Yields (if fits then .ok value else .error .erange)) :
    (Checked.andThen first rest).checked =
      if fits then (rest value).checked else some (.error .erange) := by
  rw [Checked.andThen, Calc.checked_bind, yields, Option.bind_some]
  by_cases holds : fits
  · rw [if_pos holds, if_pos holds]
  · rw [if_neg holds, if_neg holds]
    rfl

theorem phc_ns_to_cycles_yields {ns : Int} (inRange : phc.InRange)
    (time : -(2 ^ 63) ≤ ns ∧ ns < 2 ^ 63) :
    (Checked.phcNsToCycles phc ns).Yields
      (if CycleStages phc ns then .ok (withSign (ns - phc.anchorNs) (cycleSpan phc ns))
      else .error .erange) := by
  have modest := inRange.rates
  have anchorNs := inRange.anchorNs
  have negated : (s64Type.hold (-phc.anchorNs)).Yields (-phc.anchorNs) :=
    yields_hold (s64_fits (by omega) (by omega))
  have adds := @add_s64_yields ns (-phc.anchorNs) time (by omega)
  rw [add_s64_stage time (by omega), ← sub_eq_add_neg] at adds
  apply negated.bind
  unfold Calc.Yields
  rw [and_then_stage adds]
  by_cases fits : s64Type.Fits (ns - phc.anchorNs)
  case neg => rw [if_neg fits, if_neg fun all => fits all.1]
  have delta : -(2 ^ 63) ≤ ns - phc.anchorNs ∧ ns - phc.anchorNs < 2 ^ 63 :=
    ⟨fits.1, Int.lt_of_le_sub_one fits.2⟩
  have undoes := adjusted_to_base_yields modest delta
  rw [adjusted_to_base_stage modest delta] at undoes
  change (Checked.phcAdjustedToBaseDelta _ _).Yields
    (if baseSpan phc ns ≤ s64Max then .ok (withSign _ (baseSpan phc ns)) else _) at undoes
  rw [if_pos fits, Calc.checked_bind, scaled_ppm_yields inRange.scaled.1 inRange.scaled.2,
    Option.bind_some, and_then_stage undoes]
  by_cases short : baseSpan phc ns ≤ s64Max
  case neg => rw [if_neg short, if_neg fun all => short all.2.1]
  have base := @with_sign_nat_abs (ns - phc.anchorNs) (baseSpan phc ns)
  have baseRange : -(2 ^ 63) ≤ withSign (ns - phc.anchorNs) (baseSpan phc ns) ∧
      withSign (ns - phc.anchorNs) (baseSpan phc ns) < 2 ^ 63 := by
    unfold s64Max at short
    omega
  have counts := ns_delta_yields modest baseRange
  rw [ns_delta_stage modest baseRange, base] at counts
  change (Checked.nsDeltaToCycles _ _ _).Yields
    (if cycleSpan phc ns ≤ s64Max then .ok (withSign _ (cycleSpan phc ns)) else _) at counts
  rw [cycle_span_sign] at counts
  rw [if_pos short, counts]
  congr 1
  exact if_congr ⟨fun counted => ⟨fits, short, counted⟩, fun all => all.2.2⟩ rfl rfl

/-- The last sum wraps only where the code finds that it has. -/
theorem phc_ns_to_art_checked {ns : Int} (inRange : phc.InRange)
    (time : -(2 ^ 63) ≤ ns ∧ ns < 2 ^ 63) :
    (Checked.phcNsToArt phc ns).checked =
      if CycleStages phc ns ∧ 2 ^ 64 ≤ artAt phc ns then none else some (phcNsToArt phc ns) := by
  rw [Checked.phcNsToArt, and_then_stage (phc_ns_to_cycles_yields inRange time),
    phc_ns_to_art_stages inRange time]
  by_cases stages : CycleStages phc ns
  case neg => rw [if_neg stages, if_neg fun both => stages both.1, if_neg fun both => stages both.1]
  have counted : cycleSpan phc ns ≤ s64Max := stages.2.2
  have cycles := @with_sign_nat_abs (ns - phc.anchorNs) (cycleSpan phc ns)
  rw [if_pos stages,
    anchored_art_checked inRange.anchorArt (by unfold s64Max at counted; omega), ← artAt]
  by_cases wraps : 2 ^ 64 ≤ artAt phc ns
  · rw [if_neg (by omega), if_pos ⟨stages, wraps⟩]
  · rw [if_pos (by omega), if_neg fun both => wraps both.2]
    congr 1
    apply if_congr ?_ rfl rfl
    constructor
    · exact fun ⟨lower, upper⟩ => ⟨stages, u64_fits lower upper⟩
    · exact fun ⟨_, lower, upper⟩ => ⟨lower, Int.lt_of_le_sub_one upper⟩

/-- The conversions calculate in integers, with one exception: the ART value of a
time can be too large for its type, and the code sees that it has wrapped. Each
answers what the formula says exactly where its stages are in range. -/
theorem phc_conversions_exact (phc : PhcParams) (inRange : phc.InRange) :
    (∀ art < 2 ^ 64, (Checked.phcArtToNs phc art).Yields (phcArtToNs phc art) ∧
      phcArtToNs phc art =
        if ArtStages phc art then .ok (phcTime phc art) else .error .erange) ∧
    ∀ ns, -(2 ^ 63) ≤ ns → ns < 2 ^ 63 →
      (Checked.phcNsToCycles phc ns).Yields
        (if CycleStages phc ns then .ok (withSign (ns - phc.anchorNs) (cycleSpan phc ns))
        else .error .erange) ∧
      (Checked.phcNsToArt phc ns).checked =
        (if CycleStages phc ns ∧ 2 ^ 64 ≤ artAt phc ns then none else some (phcNsToArt phc ns)) ∧
      phcNsToArt phc ns =
        if CycleStages phc ns ∧ u64Type.Fits (artAt phc ns) then .ok (artAt phc ns).toNat
        else .error .erange := by
  constructor
  · intro art counted
    have anchorNs := inRange.anchorNs
    exact ⟨phc_art_to_ns_yields inRange.rates inRange.anchorArt (by omega) inRange.scaled counted,
      phc_art_to_ns_stages inRange⟩
  · intro ns lower upper
    exact ⟨phc_ns_to_cycles_yields inRange ⟨lower, upper⟩,
      phc_ns_to_art_checked inRange ⟨lower, upper⟩, phc_ns_to_art_stages inRange ⟨lower, upper⟩⟩

def lastAnchor : PhcParams := ⟨2 ^ 64 - 1, 0, 1000000000, 0⟩

theorem last_anchor_in_range : lastAnchor.InRange :=
  ⟨⟨by decide, by decide, by decide, by decide⟩, by decide, by decide, by decide⟩

/-- One nanosecond after the last ART value. -/
theorem phc_conversions_exact_past_last :
    (Checked.phcNsToArt lastAnchor 1).checked = none ∧
      phcNsToArt lastAnchor 1 = .error .erange := by
  obtain ⟨-, wraps, result⟩ :=
    (phc_conversions_exact lastAnchor last_anchor_in_range).2 1 (by decide) (by decide)
  rw [wraps, result]
  exact ⟨if_pos (by decide), if_neg (by decide)⟩

def middleAnchor : PhcParams := ⟨2 ^ 63, 0, 1000000000, 0⟩

/-- The least time and its cycles fit, the answer would be the first ART value,
and the way back is refused; and a sum wraps one past the last. -/
theorem least_time_refused :
    (middleAnchor.InRange ∧ s64Type.Fits (-2 ^ 63 - middleAnchor.anchorNs) ∧
      s64Type.Fits (withSign (-2 ^ 63) (baseSpan middleAnchor (-2 ^ 63))) ∧
      s64Type.Fits (withSign (-2 ^ 63) (cycleSpan middleAnchor (-2 ^ 63))) ∧
      artAt middleAnchor (-2 ^ 63) = 0 ∧ phcNsToArt middleAnchor (-2 ^ 63) = .error .erange) ∧
    lastAnchor.InRange ∧ (Checked.phcNsToArt lastAnchor 1).checked = none := by
  refine ⟨⟨⟨⟨?_, ?_, ?_, ?_⟩, ?_, ?_, ?_⟩, ?_, ?_, ?_, ?_, ?_⟩, last_anchor_in_range, ?_⟩
  all_goals decide +kernel

end conversions

end Tgpio

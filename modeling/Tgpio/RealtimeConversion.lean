import Tgpio.RealtimeRate
import Tgpio.PhcMapping

/-!
# Converting by the measured rate

A conversion multiplies what is left of one window by the ART cycles of the
window, in 64 bits. The window is bounded from below only: it is as long as the
samples that were accepted are far apart. It is right for every interval exactly
while the product of the two fits.
-/

namespace Tgpio

open Buffers Scaling

set_option autoImplicit false

/-- Every interval is converted to the nearest number of cycles, or refused
because that number is too large. -/
def ConvertsExactly (rate : RealtimeRate) : Prop :=
  rate.artCycles ≠ 0 → rate.realNs ≠ 0 → ∀ (params : Params) (clocks : Clocks),
    params.experimentalInstantaneousRealtimeProjection = false →
    clocks.realtimeRateArtCycles = rate.artCycles → clocks.realtimeRateRealNs = rate.realNs →
    ∀ delta, 1 ≤ delta → delta ≤ s64Max → realtimeDeltaToArtCycles params clocks delta =
      if nearest delta rate.realNs rate.artCycles ≤ s64Max then
        .ok (nearest delta rate.realNs rate.artCycles)
      else .error .erange

/-- A sample whose window, if it is published, is short enough for the product
of a conversion. -/
def Narrow (rate : RealtimeRate) (real : ArtRawSample) : Prop :=
  rate.ring.count ≠ 0 → let old := rate.ring.slots rate.ring.oldest
    real.clockWasSetSeq = old.clockWasSetSeq → Advances old real →
    (realtimeRateMinWindowS * nsecPerSec : Nat) ≤ toS64 (real.raw - old.raw) →
    (real.raw - old.raw - 1) * (real.art - old.art) < 2 ^ 64

section conversion

structure Fitting (artCycles realNs : Nat) : Prop where
  art : 0 < artCycles
  real : realtimeRateMinWindowS * nsecPerSec ≤ realNs
  small : realNs ≤ s64Max
  fits : (realNs - 1) * artCycles < 2 ^ 64

theorem realtime_delta_by_rate {params : Params} {clocks : Clocks} {delta : Nat}
    (plain : params.experimentalInstantaneousRealtimeProjection = false)
    (art : clocks.realtimeRateArtCycles ≠ 0) (real : clocks.realtimeRateRealNs ≠ 0)
    (positive : 1 ≤ delta) (small : delta ≤ s64Max) :
    realtimeDeltaToArtCycles params clocks delta =
      rescaleCommon delta clocks.realtimeRateRealNs clocks.realtimeRateArtCycles true := by
  unfold realtimeDeltaToArtCycles
  rw [if_neg (by omega), if_pos ⟨art, real, by simp [plain]⟩]
  rfl

theorem converts_exactly_of_fitting {rate : RealtimeRate} (fitting : Fitting rate.artCycles rate.realNs) :
    ConvertsExactly rate := by
  intro art real params clocks plain sameArt sameReal delta positive small
  rw [realtime_delta_by_rate plain (sameArt ▸ art) (sameReal ▸ real) positive small, sameArt,
    sameReal]
  have source : 0 < rate.realNs := Nat.pos_of_ne_zero real
  have below := Nat.mod_lt delta source
  have product : delta % rate.realNs * rate.artCycles < 2 ^ 64 :=
    lt_of_le_of_lt (Nat.mul_le_mul_right _ (by omega)) fitting.fits
  rw [rescale_common_eq true source fitting.art product, rescaled_nearest]

/-- A product that wraps loses at least two of the quotient. -/
theorem wrapped_quotient_lt {product src : Nat} (positive : 0 < src) (small : src ≤ s64Max)
    (wraps : 2 ^ 64 ≤ product) : u64 product / src + 2 ≤ product / src := by
  have less : u64 product + 2 ^ 64 ≤ product := by
    unfold u64
    omega
  have two : 2 * src ≤ 2 ^ 64 := by
    unfold s64Max at small
    omega
  calc u64 product / src + 2 = (u64 product + 2 * src) / src := by
        rw [Nat.add_mul_div_right _ _ positive]
    _ ≤ product / src := Nat.div_le_div_right (by omega)

theorem rescale_sub_le (product srcHz : Nat) (roundNearest : Bool) :
    rescaleSub product srcHz roundNearest ≤ product / srcHz + 1 := by
  unfold rescaleSub
  dsimp only
  split
  · exact Nat.mod_le _ _
  · exact Nat.le_succ _

def ratedClocks (artCycles realNs : Nat) : Clocks :=
  { steadyClocks 0 zero_in_range with
    realtimeRateArtCycles := artCycles, realtimeRateRealNs := realNs }

/-- The longest part of a window is converted wrongly if its product wraps. -/
theorem fits_of_converts_exactly {rate : RealtimeRate} (exact_ : ConvertsExactly rate)
    (art : 0 < rate.artCycles) (window : realtimeRateMinWindowS * nsecPerSec ≤ rate.realNs)
    (small : rate.realNs ≤ s64Max) : (rate.realNs - 1) * rate.artCycles < 2 ^ 64 := by
  by_contra wraps
  have wide : 4000000000 ≤ rate.realNs := window
  have source : 0 < rate.realNs := by omega
  have converted := exact_ (by omega) (by omega) defaultParams
    (ratedClocks rate.artCycles rate.realNs) rfl rfl rfl (rate.realNs - 1) (by omega) (by omega)
  rw [realtime_delta_by_rate rfl (Nat.pos_iff_ne_zero.mp art) (Nat.pos_iff_ne_zero.mp source)
    (by omega) (by omega)] at converted
  change rescaleCommon (rate.realNs - 1) rate.realNs rate.artCycles true = _ at converted
  have lost := wrapped_quotient_lt source small (Nat.not_lt.mp wraps)
  have nearby := @nearest_remainder (rate.realNs - 1) rate.realNs rate.artCycles source
  have whole : (rate.realNs - 1) / rate.realNs = 0 := Nat.div_eq_of_lt (by omega)
  have part : (rate.realNs - 1) % rate.realNs = rate.realNs - 1 := Nat.mod_eq_of_lt (by omega)
  unfold rescaleCommon at converted
  dsimp only at converted
  rw [if_neg (by omega), whole, part, Nat.zero_mul, if_neg (Nat.not_lt_zero _)] at converted
  have scaled := rescale_sub_le (u64 ((rate.realNs - 1) * rate.artCycles)) rate.realNs true
  have bound : u64 ((rate.realNs - 1) * rate.artCycles) / rate.realNs < 2 ^ 62 := by
    refine (Nat.div_lt_iff_lt_mul source).mpr ?_
    have word : u64 ((rate.realNs - 1) * rate.artCycles) < 2 ^ 64 := Nat.mod_lt _ (by decide)
    omega
  generalize rescaleSub _ rate.realNs true = sub at converted scaled
  rw [if_neg (by unfold s64Max u64; omega)] at converted
  split at converted
  · have same := Except.ok.inj converted
    have kept : u64 (u64 0 + sub) ≤ u64 0 + sub := Nat.mod_le _ _
    have zero : u64 0 = 0 := rfl
    omega
  · contradiction

def Unwrapped (rate : RealtimeRate) : Prop :=
  (rate.artCycles = 0 ∧ rate.realNs = 0) ∨ Fitting rate.artCycles rate.realNs

/-- A tick publishes the distance from the oldest sample when the window is wide
enough, and that distance fits if the sample is narrow. -/
theorem Unwrapped.refine {rate : RealtimeRate} {accepted : List ArtRawSample}
    (unwrapped : Unwrapped rate) (window : Window rate accepted) {real : ArtRawSample}
    (narrow : Narrow rate real) : Unwrapped (refineRealtime rate (.ok real)) := by
  obtain ⟨-, moves⟩ := window.refine real
  cases moves with
  | kept sameArt sameReal =>
      unfold Unwrapped at unwrapped ⊢
      rwa [sameArt, sameReal]
  | withdrawn old found sameSeq behind noArt noReal => exact .inl ⟨noArt, noReal⟩
  | published old found sameSeq positive wide small artIs realIs =>
      have oldest := window.oldest
      rw [found] at oldest
      split at oldest
      · contradiction
      rename_i used
      cases Option.some.inj oldest
      have advances : Advances (rate.ring.slots rate.ring.oldest) real := by
        unfold Advances realtimeRateMinWindowS nsecPerSec at *
        omega
      have whole : toS64 (real.raw - (rate.ring.slots rate.ring.oldest).raw) =
          real.raw - (rate.ring.slots rate.ring.oldest).raw := by
        unfold s64Max at small
        exact to_s64_of_range (by omega) (by omega)
      have fits := narrow used sameSeq advances (by omega)
      rw [← realIs, ← artIs] at fits
      have wideNs : 4000000000 ≤ (refineRealtime rate (.ok real)).realNs := wide
      refine .inr ⟨positive, wide, small, ?_⟩
      zify [(by omega : 1 ≤ (refineRealtime rate (.ok real)).realNs)]
      exact fits

theorem refined_by_append (ticks : List (Except Errno ArtRawSample))
    (sample : Except Errno ArtRawSample) :
    refinedBy (ticks ++ [sample]) = refineRealtime (refinedBy ticks) sample := by
  rw [refinedBy, List.foldl_append]
  rfl

theorem unwrapped_of_narrow {samples : List (Except Errno ArtRawSample)}
    (narrow : ∀ ticks real, ticks ++ [.ok real] <+: samples → Narrow (refinedBy ticks) real)
    (ticks : List (Except Errno ArtRawSample)) (before : ticks <+: samples) :
    Unwrapped (refinedBy ticks) := by
  induction ticks using List.reverseRecOn with
  | nil => exact .inl ⟨rfl, rfl⟩
  | append_singleton ticks sample ih =>
      have unwrapped := ih ((List.prefix_append ticks [sample]).trans before)
      rw [refined_by_append]
      cases sample with
      | error status => exact unwrapped
      | ok real => exact unwrapped.refine (window_refined ticks) (narrow ticks real before)

theorem converts_exactly_of_unwrapped {rate : RealtimeRate} (unwrapped : Unwrapped rate) :
    ConvertsExactly rate := by
  rcases unwrapped with ⟨noArt, -⟩ | fitting
  · intro art
    exact absurd noArt art
  · exact converts_exactly_of_fitting fitting

theorem refine_publishes {rate : RealtimeRate} {real : ArtRawSample} (used : rate.ring.count ≠ 0)
    (sameSeq : real.clockWasSetSeq = (rate.ring.slots rate.ring.oldest).clockWasSetSeq)
    (advances : Advances (rate.ring.slots rate.ring.oldest) real)
    (wide : (realtimeRateMinWindowS * nsecPerSec : Nat) ≤
      toS64 (real.raw - (rate.ring.slots rate.ring.oldest).raw)) :
    (refineRealtime rate (.ok real)).artCycles = real.art - (rate.ring.slots rate.ring.oldest).art ∧
      (refineRealtime rate (.ok real)).realNs =
        toU64 (toS64 (real.raw - (rate.ring.slots rate.ring.oldest).raw)) := by
  have moves : ¬(real.art ≤ (rate.ring.slots rate.ring.oldest).art ∨
      real.raw ≤ (rate.ring.slots rate.ring.oldest).raw) := by
    unfold Advances at advances
    omega
  unfold refineRealtime measureRealtime
  dsimp only
  rw [if_neg used, if_neg (not_not.mpr sameSeq), if_neg moves, if_pos wide]
  exact ⟨rfl, rfl⟩

theorem narrow_of_converts_exactly {rate : RealtimeRate} {real : ArtRawSample}
    (exact_ : ConvertsExactly (refineRealtime rate (.ok real))) : Narrow rate real := by
  intro used old sameSeq advances wide
  have publishes := refine_publishes used sameSeq advances wide
  change _ = real.art - old.art ∧ _ = toU64 (toS64 (real.raw - old.raw)) at publishes
  clear_value old
  obtain ⟨artIs, realIs⟩ := publishes
  have whole := to_s64_difference advances.2 wide
  have upper := real.rawInRange
  have lower := old.rawInRange
  have later := advances.2
  have newer := advances.1
  have range := @Int.bmod_lt (real.raw - old.raw) (2 ^ 64) (by decide : 0 < 2 ^ 64)
  change toS64 (real.raw - old.raw) < _ at range
  have value : (toU64 (real.raw - old.raw) : Int) = real.raw - old.raw :=
    to_u64_of_range (by omega) (by omega)
  rw [whole] at realIs wide range
  unfold realtimeRateMinWindowS nsecPerSec at wide
  have fits := fits_of_converts_exactly exact_ (by omega)
    (by unfold realtimeRateMinWindowS nsecPerSec; omega) (by unfold s64Max; omega)
  zify [(by omega : 1 ≤ (refineRealtime rate (.ok real)).realNs)] at fits
  rw [realIs, value, artIs, Int.ofNat_sub newer.le] at fits
  exact fits

end conversion

/-- After every tick of a run all intervals are converted exactly if and only if
every sample of the run is narrow. -/
theorem conversions_exact_iff_narrow (samples : List (Except Errno ArtRawSample)) :
    (∀ ticks, ticks <+: samples → ConvertsExactly (refinedBy ticks)) ↔
      ∀ ticks real, ticks ++ [.ok real] <+: samples → Narrow (refinedBy ticks) real := by
  constructor
  · intro exact_ ticks real before
    have after := exact_ _ before
    rw [refined_by_append] at after
    exact narrow_of_converts_exactly after
  · intro narrow ticks before
    exact converts_exactly_of_unwrapped (unwrapped_of_narrow narrow ticks before)

/-- ART runs at a given rate at most, between any two accepted samples. -/
def ArtAtMost (hz : Nat) (samples : List (Except Errno ArtRawSample)) : Prop :=
  (samples.filterMap Except.toOption).Pairwise fun older newer =>
    ((newer.art : Int) - older.art) * nsecPerSec ≤ hz * (newer.raw - older.raw)

def longWindow : List (Except Errno ArtRawSample) :=
  [.ok ⟨5000000000, 1700000000000000000, 7, by decide, by decide⟩, .error .enodev,
    .ok ⟨6152000000, 1700000030000000000, 7, by decide, by decide⟩]

theorem long_window_wraps :
    ¬∀ samples, ArtAtMost 100000000 samples → ConvertsExactly (refinedBy samples) := by
  intro exact_
  have slow : ArtAtMost 100000000 longWindow := by
    unfold ArtAtMost
    decide
  have pair : (refinedBy longWindow).artCycles = 1152000000 ∧
      (refinedBy longWindow).realNs = 30000000000 := by
    decide +kernel
  have converted := exact_ longWindow slow (by omega) (by omega) defaultParams
    (ratedClocks 1152000000 30000000000) rfl pair.1.symm pair.2.symm 20000000000 (by decide)
    (by decide)
  rw [pair.1, pair.2] at converted
  exact absurd converted (by decide +kernel)

end Tgpio

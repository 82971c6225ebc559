import Tgpio.ClockArithmetic
import Tgpio.Scaling.Rounding

/-!
# The clock model, without the machine

Each conversion of the clock model, when it succeeds, is the exact value of its
formula: no product wraps and no bound is hit on the way. `phcTime` is that
formula for the time at an ART value. The sign is carried apart from the
magnitude, as the code does, so it rounds towards the anchor on both sides.
-/

namespace Tgpio

open Scaling

set_option autoImplicit false

section magnitudes

/-- A conversion that succeeds has succeeded at every stage. -/
theorem bind_ok {α β : Type} {first : Except Errno α} {rest : α → Except Errno β} {value : β}
    (succeeds : first >>= rest = .ok value) : ∃ mid, first = .ok mid ∧ rest mid = .ok value := by
  cases first with
  | error status => contradiction
  | ok mid => exact ⟨mid, rfl, succeeds⟩

theorem abs_s64_eq {value : Int} (lower : -(2 ^ 63) ≤ value) (upper : value < 2 ^ 63) :
    absS64 value = value.natAbs := by
  unfold absS64
  split
  · have wraps : (toU64 (-(value + 1)) : Int) = -(value + 1) :=
      to_u64_of_range (by omega) (by omega)
    omega
  · omega

theorem add_s64_eq {lhs rhs sum : Int} (added : addS64 lhs rhs = .ok sum) :
    sum = lhs + rhs ∧ (-(2 ^ 63) ≤ lhs → lhs < 2 ^ 63 → -(2 ^ 63) ≤ sum ∧ sum < 2 ^ 63) := by
  unfold addS64 s64Max s64Min at added
  split at added
  · contradiction
  split at added
  · contradiction
  · cases added
    refine ⟨rfl, fun lower upper => ?_⟩
    omega

theorem add_s64_ok {lhs rhs : Int} (lower : -(2 ^ 63) ≤ lhs + rhs) (upper : lhs + rhs < 2 ^ 63) :
    addS64 lhs rhs = .ok (lhs + rhs) := by
  unfold addS64 s64Max s64Min
  rw [if_neg (by omega), if_neg (by omega)]

/-- The signed value of a magnitude. -/
def withSign (like : Int) (magnitude : Nat) : Int :=
  if like < 0 then -(magnitude : Int) else magnitude

theorem signed_eq {like value : Int} {magnitude : Nat} (fits : signed like magnitude = .ok value) :
    value = withSign like magnitude ∧ magnitude ≤ s64Max := by
  unfold signed at fits
  split at fits
  · contradiction
  · cases fits
    exact ⟨rfl, by omega⟩

theorem signed_ok {like : Int} {magnitude : Nat} (fits : magnitude ≤ s64Max) :
    signed like magnitude = .ok (withSign like magnitude) :=
  if_neg (by omega)

end magnitudes

section rescaling

/-- What `rescaleCommon` is to answer. -/
def rescaled (count srcHz dstHz : Nat) (roundNearest : Bool) : Nat :=
  if roundNearest then nearest count srcHz dstHz else down count srcHz dstHz

@[simp] theorem rescaled_down (count srcHz dstHz : Nat) :
    rescaled count srcHz dstHz false = down count srcHz dstHz := if_neg Bool.false_ne_true

@[simp] theorem rescaled_nearest (count srcHz dstHz : Nat) :
    rescaled count srcHz dstHz true = nearest count srcHz dstHz := if_pos rfl

theorem rescale_sub_eq {count srcHz dstHz : Nat} (roundNearest : Bool) (positive : 0 < srcHz)
    (fits : count * dstHz < 2 ^ 64) :
    rescaleSub (u64 (count * dstHz)) srcHz roundNearest = rescaled count srcHz dstHz roundNearest := by
  have remainder := Nat.mod_lt (count * dstHz) positive
  rw [u64_of_lt fits]
  unfold rescaleSub rescaled
  dsimp only
  cases roundNearest with
  | false => simp [down]
  | true =>
      simp only [true_and, if_true]
      rw [nearest_remainder positive]
      split
      · have quotient : count * dstHz / srcHz < 2 ^ 63 :=
          (Nat.div_lt_iff_lt_mul positive).mpr (by omega)
        exact u64_of_lt (by omega)
      · rfl

theorem rescaled_split {count srcHz dstHz : Nat} (roundNearest : Bool) (positive : 0 < srcHz) :
    count / srcHz * dstHz + rescaled (count % srcHz) srcHz dstHz roundNearest =
      rescaled count srcHz dstHz roundNearest := by
  cases roundNearest with
  | false =>
      simp only [rescaled_down]
      exact down_split positive
  | true =>
      simp only [rescaled_nearest]
      exact nearest_split positive

/-- The rescaled count or a range error, provided the product of the part below
a second fits in 64 bits. -/
theorem rescale_common_eq {count srcHz dstHz : Nat} (roundNearest : Bool) (source : 0 < srcHz)
    (target : 0 < dstHz) (fits : count % srcHz * dstHz < 2 ^ 64) :
    rescaleCommon count srcHz dstHz roundNearest =
      if rescaled count srcHz dstHz roundNearest ≤ s64Max then
        .ok (rescaled count srcHz dstHz roundNearest)
      else .error .erange := by
  have split : count / srcHz * dstHz + rescaled (count % srcHz) srcHz dstHz roundNearest =
      rescaled count srcHz dstHz roundNearest := rescaled_split roundNearest source
  unfold rescaleCommon
  dsimp only
  rw [if_neg (by omega), rescale_sub_eq roundNearest source fits]
  by_cases many : count / srcHz > s64Max / dstHz
  · have above := (Nat.div_lt_iff_lt_mul target).mp many
    rw [if_pos many, if_neg (by omega)]
  · have within := (Nat.le_div_iff_mul_le target).mp (by omega : count / srcHz ≤ s64Max / dstHz)
    rw [if_neg many, u64_of_lt (by unfold s64Max at within; omega)]
    by_cases fitting : rescaled count srcHz dstHz roundNearest ≤ s64Max
    · rw [if_neg (by omega), if_pos fitting, split,
        u64_of_lt (by unfold s64Max at fitting; omega)]
    · rw [if_pos (by omega), if_neg fitting]

theorem rescale_common_ok {count srcHz dstHz result : Nat} (roundNearest : Bool)
    (source : 0 < srcHz) (target : 0 < dstHz) (fits : count % srcHz * dstHz < 2 ^ 64)
    (scaled : rescaleCommon count srcHz dstHz roundNearest = .ok result) :
    result = rescaled count srcHz dstHz roundNearest ∧ result ≤ s64Max := by
  rw [rescale_common_eq roundNearest source target fits] at scaled
  by_cases within : rescaled count srcHz dstHz roundNearest ≤ s64Max
  · rw [if_pos within] at scaled
    cases scaled
    exact ⟨rfl, within⟩
  · rw [if_neg within] at scaled
    contradiction

end rescaling

section mapping

/-- `TGPIO_PHC_MAX_ADJ_PPB` -/
def phcMaxAdjPpb : Int := 100000000

/-- The rates of the clock model for which no product of a conversion wraps:
a base rate of a few gigahertz at most, and a bounded frequency adjustment. -/
structure Modest (baseArtHz : Nat) (ppb : Int) : Prop where
  positive : 0 < baseArtHz
  rate : baseArtHz * nsecPerSec ≤ 2 ^ 64
  slow : -phcMaxAdjPpb ≤ ppb
  fast : ppb ≤ phcMaxAdjPpb

/-- A base time in the adjusted time scale. -/
def adjustedNs (ppb : Int) (baseNs : Nat) : Nat :=
  if 0 ≤ ppb then lengthened baseNs nsecPerSec ppb.natAbs
  else shortened baseNs nsecPerSec ppb.natAbs

/-- The adjusted time of some cycles. -/
def cyclesTime (baseArtHz : Nat) (ppb : Int) (cycles : Nat) : Nat :=
  adjustedNs ppb (down cycles baseArtHz nsecPerSec)

/-- The signed time of a signed number of cycles. -/
def offsetTime (baseArtHz : Nat) (ppb cycles : Int) : Int :=
  withSign cycles (cyclesTime baseArtHz ppb cycles.natAbs)

/-- The time at an ART value, by the formula of the model. -/
def phcTime (phc : PhcParams) (art : Nat) : Int :=
  phc.anchorNs + offsetTime phc.baseArtHz (scaledPpmToPpb phc.scaledPpm)
    ((art : Int) - phc.anchorArt)

theorem with_sign_zero (like : Int) : withSign like 0 = 0 := by
  simp [withSign]

/-- A sign survives a magnitude that is zero only where the next one is. -/
theorem with_sign_trans {like : Int} {first second : Nat} (vanishes : first = 0 → second = 0) :
    withSign (withSign like first) second = withSign like second := by
  by_cases zero : first = 0
  · rw [vanishes zero, with_sign_zero, with_sign_zero]
  · have positive : 0 < first := Nat.pos_of_ne_zero zero
    unfold withSign
    split <;> split <;> omega

@[simp] theorem with_sign_nat_abs (like : Int) (magnitude : Nat) :
    (withSign like magnitude).natAbs = magnitude := by
  unfold withSign
  split <;> omega

theorem down_zero (src dst : Nat) : down 0 src dst = 0 := by
  simp [down]

theorem adjusted_zero (ppb : Int) : adjustedNs ppb 0 = 0 := by
  simp [adjustedNs, lengthened, shortened, down_zero]

variable {baseArtHz : Nat} {ppb : Int}

/-- The correction is the part of the time that `ppb` asks for. -/
theorem apply_ppb_eq {ns : Int} (modest : Modest baseArtHz ppb) (fits : ns.natAbs ≤ s64Max) :
    applyPpbToNs ns ppb =
      if ppb < 0 then -withSign ns (down ns.natAbs nsecPerSec ppb.natAbs)
      else withSign ns (down ns.natAbs nsecPerSec ppb.natAbs) := by
  have slow : -100000000 ≤ ppb := modest.slow
  have fast : ppb ≤ 100000000 := modest.fast
  unfold s64Max at fits
  have part : ppb.natAbs ≤ nsecPerSec := by
    unfold nsecPerSec
    omega
  have small := shortened_le ns.natAbs (by decide : 0 < nsecPerSec) part
  by_cases zero : ns = 0 ∨ ppb = 0
  · have nothing : down ns.natAbs nsecPerSec ppb.natAbs = 0 := by
      rcases zero with rfl | rfl
      · exact down_zero _ _
      · simp [down]
    unfold applyPpbToNs
    rw [if_pos zero, nothing, with_sign_zero]
    simp
  · unfold applyPpbToNs
    rw [if_neg zero, abs_s64_eq (by omega) (by omega), abs_s64_eq (by omega) (by omega)]
    have whole : ns.natAbs / nsecPerSec * ppb.natAbs ≤ 9223372036 * 10 ^ 8 :=
      Nat.mul_le_mul (by unfold nsecPerSec; omega) (by omega)
    have rest : ns.natAbs % nsecPerSec * ppb.natAbs ≤ 10 ^ 9 * 10 ^ 8 :=
      Nat.mul_le_mul (Nat.le_of_lt (Nat.mod_lt _ (by decide))) (by omega)
    have split := @down_split ns.natAbs nsecPerSec ppb.natAbs (by decide)
    dsimp only
    rw [u64_of_lt (by omega : ns.natAbs / nsecPerSec * ppb.natAbs < 2 ^ 64),
      u64_of_lt (by omega : ns.natAbs % nsecPerSec * ppb.natAbs < 2 ^ 64), split,
      u64_of_lt (by omega), if_neg (by unfold s64Max; omega :
        ¬down ns.natAbs nsecPerSec ppb.natAbs > s64Max)]
    unfold withSign
    by_cases before : ns < 0 <;> by_cases slower : ppb < 0 <;> simp [before, slower]

theorem base_to_adjusted_eq {base adjusted : Int} (modest : Modest baseArtHz ppb)
    (fits : base.natAbs ≤ s64Max) (converted : phcBaseToAdjustedDelta base ppb = .ok adjusted) :
    adjusted = withSign base (adjustedNs ppb base.natAbs) := by
  obtain ⟨sum, -⟩ := add_s64_eq converted
  rw [apply_ppb_eq modest fits] at sum
  have slow : -100000000 ≤ ppb := modest.slow
  have fast : ppb ≤ 100000000 := modest.fast
  have small := shortened_le base.natAbs (by decide : 0 < nsecPerSec)
    (by unfold nsecPerSec; omega : ppb.natAbs ≤ nsecPerSec)
  rw [sum]
  by_cases slower : ppb < 0
  · have answer : adjustedNs ppb base.natAbs =
        base.natAbs - down base.natAbs nsecPerSec ppb.natAbs := if_neg (by omega)
    rw [if_pos slower, answer]
    unfold withSign
    split <;> omega
  · have answer : adjustedNs ppb base.natAbs =
        base.natAbs + down base.natAbs nsecPerSec ppb.natAbs := if_pos (by omega)
    rw [if_neg slower, answer]
    unfold withSign
    split <;> omega

theorem cycles_delta_to_ns_eq {cycles base : Int} {roundNearest : Bool}
    (modest : Modest baseArtHz ppb) (fits : cycles.natAbs ≤ s64Max)
    (converted : cyclesDeltaToNs cycles baseArtHz roundNearest = .ok base) :
    base = withSign cycles (rescaled cycles.natAbs baseArtHz nsecPerSec roundNearest) ∧
      base.natAbs ≤ s64Max := by
  have product : cycles.natAbs % baseArtHz * nsecPerSec < 2 ^ 64 :=
    lt_of_lt_of_le (Nat.mul_lt_mul_of_pos_right (Nat.mod_lt _ modest.positive) (by decide))
      modest.rate
  obtain ⟨ns, scaled, signs⟩ := bind_ok converted
  rw [abs_s64_eq (by unfold s64Max at fits; omega) (by unfold s64Max at fits; omega)] at scaled
  have either : rescaleCommon cycles.natAbs baseArtHz nsecPerSec roundNearest = .ok ns := by
    generalize cycles.natAbs = count at scaled ⊢
    cases roundNearest with
    | false =>
        rw [if_neg Bool.false_ne_true] at scaled
        exact scaled
    | true =>
        rw [if_pos rfl] at scaled
        exact scaled
  obtain ⟨value, -⟩ := rescale_common_ok roundNearest modest.positive (by decide) product either
  obtain ⟨exact_, bound⟩ := signed_eq signs
  rw [exact_, with_sign_nat_abs]
  exact ⟨congrArg _ value, bound⟩

theorem art_distance_eq {anchorArt art : Nat} {distance : Int}
    (measured : artDistance anchorArt art = .ok distance) :
    distance = (art : Int) - anchorArt ∧ distance.natAbs ≤ s64Max := by
  unfold artDistance at measured
  split at measured
  · split at measured
    · contradiction
    · cases measured
      omega
  · split at measured
    · contradiction
    · cases measured
      omega

/-- A time of the model is one of 64 bits. -/
theorem phc_art_to_ns_range {phc : PhcParams} {art : Nat} {ns : Int}
    (anchor : -(2 ^ 63) ≤ phc.anchorNs ∧ phc.anchorNs < 2 ^ 63)
    (converted : phcArtToNs phc art = .ok ns) : -(2 ^ 63) ≤ ns ∧ ns < 2 ^ 63 := by
  unfold phcArtToNs at converted
  obtain ⟨_, -, converted⟩ := bind_ok converted
  obtain ⟨_, -, converted⟩ := bind_ok converted
  obtain ⟨_, -, converted⟩ := bind_ok converted
  exact (add_s64_eq converted).2 anchor.1 anchor.2

/-- A conversion that succeeds gives the time of the formula. -/
theorem phc_art_to_ns_eq {phc : PhcParams} {art : Nat} {ns : Int}
    (modest : Modest phc.baseArtHz (scaledPpmToPpb phc.scaledPpm))
    (converted : phcArtToNs phc art = .ok ns) :
    ns = phcTime phc art ∧ (((art : Int) - phc.anchorArt).natAbs ≤ s64Max) := by
  unfold phcArtToNs at converted
  obtain ⟨distance, measured, converted⟩ := bind_ok converted
  obtain ⟨base, counted, converted⟩ := bind_ok converted
  obtain ⟨adjusted, corrected, converted⟩ := bind_ok converted
  obtain ⟨exact_, near⟩ := art_distance_eq measured
  obtain ⟨baseEq, fits⟩ := cycles_delta_to_ns_eq modest near counted
  rw [rescaled_down] at baseEq
  have adjustedEq := base_to_adjusted_eq modest fits corrected
  obtain ⟨sum, -⟩ := add_s64_eq converted
  refine ⟨?_, exact_ ▸ near⟩
  rw [sum, adjustedEq, baseEq, with_sign_nat_abs, with_sign_trans, exact_]
  · rfl
  · intro zero
    rw [zero, adjusted_zero]

theorem Modest.part (modest : Modest baseArtHz ppb) : ppb.natAbs ≤ nsecPerSec := by
  have slow : -100000000 ≤ ppb := modest.slow
  have fast : ppb ≤ 100000000 := modest.fast
  unfold nsecPerSec
  omega

theorem cycles_time_mono {less more : Nat} (modest : Modest baseArtHz ppb) (fewer : less ≤ more) :
    cyclesTime baseArtHz ppb less ≤ cyclesTime baseArtHz ppb more := by
  have base : down less baseArtHz nsecPerSec ≤ down more baseArtHz nsecPerSec := down_mono fewer
  unfold cyclesTime adjustedNs
  split
  · exact lengthened_mono base
  · exact shortened_mono (by decide) modest.part base

/-- The time of a number of cycles and more is that of the two, rounded apart,
up to three nanoseconds. -/
theorem cycles_time_add (less more : Nat) (modest : Modest baseArtHz ppb) :
    cyclesTime baseArtHz ppb less + cyclesTime baseArtHz ppb more ≤
        cyclesTime baseArtHz ppb (less + more) + 1 ∧
      cyclesTime baseArtHz ppb (less + more) ≤
        cyclesTime baseArtHz ppb less + cyclesTime baseArtHz ppb more + 3 := by
  have slow : -100000000 ≤ ppb := modest.slow
  have fast : ppb ≤ 100000000 := modest.fast
  have base := @down_add less baseArtHz nsecPerSec more modest.positive
  unfold cyclesTime
  generalize down less baseArtHz nsecPerSec = first at base ⊢
  generalize down more baseArtHz nsecPerSec = second at base ⊢
  generalize down (less + more) baseArtHz nsecPerSec = both at base ⊢
  have unit : down 1 nsecPerSec ppb.natAbs = 0 := by
    unfold down nsecPerSec
    omega
  have positive : 0 < nsecPerSec := by decide
  unfold adjustedNs
  split
  · have sum := lengthened_add first second ppb.natAbs positive
    have next := lengthened_add (first + second) 1 ppb.natAbs positive
    have lower := @lengthened_mono _ nsecPerSec ppb.natAbs _ base.1
    have upper := @lengthened_mono _ nsecPerSec ppb.natAbs _ base.2
    have one : lengthened 1 nsecPerSec ppb.natAbs = 1 := by rw [lengthened, unit]
    omega
  · have sum := shortened_add first second positive modest.part
    have next := shortened_add (first + second) 1 positive modest.part
    have lower := shortened_mono positive modest.part base.1
    have upper := shortened_mono positive modest.part base.2
    have one : shortened 1 nsecPerSec ppb.natAbs = 1 := by rw [shortened, unit]
    omega

theorem with_sign_mono {first second : Int} {firstSize secondSize : Nat} (order : first ≤ second)
    (above : 0 ≤ first → firstSize ≤ secondSize) (below : second < 0 → secondSize ≤ firstSize) :
    withSign first firstSize ≤ withSign second secondSize := by
  unfold withSign
  split <;> split <;> omega

/-- The clock model never goes backwards along ART. -/
theorem phc_time_mono {phc : PhcParams} {first second : Nat}
    (modest : Modest phc.baseArtHz (scaledPpmToPpb phc.scaledPpm)) (order : first ≤ second) :
    phcTime phc first ≤ phcTime phc second := by
  refine Int.add_le_add_left (with_sign_mono (by omega) ?_ ?_) _
  · intro above
    exact cycles_time_mono modest (by omega)
  · intro below
    exact cycles_time_mono modest (by omega)

/-- Going by way of another ART value costs three nanoseconds at most. -/
theorem offset_time_add (first second : Int) (modest : Modest baseArtHz ppb) :
    (offsetTime baseArtHz ppb first + offsetTime baseArtHz ppb second -
      offsetTime baseArtHz ppb (first + second)).natAbs ≤ 3 := by
  have add (less more total : Nat) (sum : less + more = total) :=
    sum ▸ cycles_time_add less more modest
  unfold offsetTime withSign
  rcases lt_or_ge first 0 with left | left <;> rcases lt_or_ge second 0 with right | right <;>
    rcases lt_or_ge (first + second) 0 with both | both
  · have sum := add first.natAbs second.natAbs (first + second).natAbs (by omega)
    rw [if_pos left, if_pos right, if_pos both]
    omega
  · omega
  · have sum := add (first + second).natAbs second.natAbs first.natAbs (by omega)
    rw [if_pos left, if_neg (by omega), if_pos both]
    omega
  · have sum := add (first + second).natAbs first.natAbs second.natAbs (by omega)
    rw [if_pos left, if_neg (by omega), if_neg (by omega)]
    omega
  · have sum := add (first + second).natAbs first.natAbs second.natAbs (by omega)
    rw [if_neg (by omega), if_pos right, if_pos both]
    omega
  · have sum := add (first + second).natAbs second.natAbs first.natAbs (by omega)
    rw [if_neg (by omega), if_pos right, if_neg (by omega)]
    omega
  · omega
  · have sum := add first.natAbs second.natAbs (first + second).natAbs (by omega)
    rw [if_neg (by omega), if_neg (by omega), if_neg (by omega)]
    omega

end mapping

end Tgpio

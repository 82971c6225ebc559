import Tgpio.Words.Calculation
import Tgpio.PhcSpans

/-!
# The clock arithmetic, operation by operation

The conversions once more, now with the type of every sum, product and cast, to
see that none of them wraps. What a conversion calculates in integers is what
the wrapped one answers.
-/

namespace Tgpio

open Scaling Words

set_option autoImplicit false

def u64Type : IntType := ⟨64, false, by decide⟩
def s64Type : IntType := ⟨64, true, by decide⟩

theorem u64_fits {value : Int} (lower : 0 ≤ value) (upper : value < 2 ^ 64) : u64Type.Fits value := by
  constructor
  · exact lower
  · change value ≤ 2 ^ 64 - 1
    omega

theorem s64_fits {value : Int} (lower : -(2 ^ 63) ≤ value) (upper : value < 2 ^ 63) :
    s64Type.Fits value := by
  constructor
  · exact lower
  · change value ≤ 2 ^ 63 - 1
    omega

namespace Checked

def absS64 (value : Int) : Calc Int :=
  if value < 0 then do
    let next ← s64Type.hold (value + 1)
    let negated ← s64Type.hold (-next)
    let cast ← u64Type.hold negated
    u64Type.hold (cast + 1)
  else u64Type.hold value

/-- The last line of `tgpio_add_s64`. -/
def sumS64 (lhs rhs : Int) : Calc S64Result := do
  let sum ← s64Type.hold (lhs + rhs)
  return .ok sum

def addS64 (lhs rhs : Int) : Calc S64Result :=
  if rhs > 0 then do
    let room ← s64Type.hold (s64Max - rhs)
    if lhs > room then return .error .erange
    else sumS64 lhs rhs
  else if rhs < 0 then do
    let room ← s64Type.hold (s64Min - rhs)
    if lhs < room then return .error .erange
    else sumS64 lhs rhs
  else sumS64 lhs rhs

/-- The carry of the rounding. -/
def roundSub (scaledSub remainder : Int) (srcHz : Nat) (roundNearest : Bool) : Calc Int :=
  if roundNearest then do
    let rest ← u64Type.hold (srcHz - remainder)
    if remainder ≥ rest then u64Type.hold (scaledSub + 1)
    else return scaledSub
  else return scaledSub

def rescaleCommon (count srcHz dstHz : Nat) (roundNearest : Bool) : Calc U64Result :=
  if srcHz = 0 ∨ dstHz = 0 then return .error .enodev
  else do
    let (seconds, subSecond) ← u64Type.quotient count srcHz
    let most ← u64Type.whole s64Max dstHz
    if seconds > most then return .error .erange
    else do
      let result ← u64Type.hold (seconds * dstHz)
      let product ← u64Type.hold (subSecond * dstHz)
      let (scaledSub, remainder) ← u64Type.quotient product srcHz
      let scaledSub ← roundSub scaledSub remainder srcHz roundNearest
      let room ← u64Type.hold (s64Max - result)
      if scaledSub > room then return .error .erange
      else do
        let sum ← u64Type.hold (result + scaledSub)
        return .ok sum.toNat

/-- An error is handed on. -/
def andThen {α β : Type} (first : Calc (Except Errno α)) (rest : α → Calc (Except Errno β)) :
    Calc (Except Errno β) := do
  let result ← first
  match result with
  | .error status => return .error status
  | .ok value => rest value

def signed (like : Int) (magnitude : Nat) : Calc S64Result :=
  if magnitude > s64Max then return .error .erange
  else do
    let cast ← s64Type.hold magnitude
    if like < 0 then do
      let negated ← s64Type.hold (-cast)
      return .ok negated
    else return .ok cast

def cyclesDeltaToNs (cycles : Int) (cyclesPerSec : Nat) (roundNearest : Bool) :
    Calc S64Result := do
  let magnitude ← absS64 cycles
  andThen (rescaleCommon magnitude.toNat cyclesPerSec nsecPerSec roundNearest) (signed cycles)

def nsDeltaToCycles (ns : Int) (cyclesPerSec : Nat) (roundNearest : Bool) : Calc S64Result := do
  let magnitude ← absS64 ns
  andThen (rescaleCommon magnitude.toNat nsecPerSec cyclesPerSec roundNearest) (signed ns)

def scaledPpmToPpb (scaledPpm : Int) : Calc Int := do
  let most ← s64Type.whole s64Max 1000
  if scaledPpm > most then return s64Max
  else do
    let least ← s64Type.whole s64Min 1000
    if scaledPpm < least then return s64Min
    else do
      let product ← s64Type.hold (scaledPpm * 1000)
      s64Type.whole product (2 ^ 16)

def applyPpbToNs (ns ppb : Int) : Calc Int := do
  let absNs ← absS64 ns
  let absPpb ← absS64 ppb
  if ns = 0 ∨ ppb = 0 then return 0
  else do
    let (seconds, rem) ← u64Type.quotient absNs nsecPerSec
    let whole ← u64Type.hold (seconds * absPpb)
    let part ← u64Type.hold (rem * absPpb)
    let part ← u64Type.whole part nsecPerSec
    let correction ← u64Type.hold (whole + part)
    let cast ← s64Type.hold (if correction > s64Max then s64Max else correction)
    if (ns < 0) != (ppb < 0) then s64Type.hold (-cast)
    else return cast

def phcBaseToAdjustedDelta (baseNs ppb : Int) : Calc S64Result := do
  let correction ← applyPpbToNs baseNs ppb
  addS64 baseNs correction

def phcAdjustedToBaseDelta (adjustedNs ppb : Int) : Calc S64Result := do
  let absAdjusted ← absS64 adjustedNs
  let denominatorS64 ← s64Type.hold (nsecPerSec + ppb)
  if denominatorS64 ≤ 0 then return .error .erange
  else do
    let denominator ← u64Type.hold denominatorS64
    let (quotient, rem) ← u64Type.quotient absAdjusted denominator
    let most ← u64Type.whole s64Max nsecPerSec
    if quotient > most then return .error .erange
    else do
      let whole ← u64Type.hold (quotient * nsecPerSec)
      let part ← u64Type.hold (rem * nsecPerSec)
      let part ← u64Type.whole part denominator
      let absBase ← u64Type.hold (whole + part)
      signed adjustedNs absBase.toNat

/-- The opening of `tgpio_phc_art_to_ns`. -/
def artDistance (anchorArt art : Nat) : Calc S64Result :=
  if art ≥ anchorArt then do
    let distance ← u64Type.hold (art - anchorArt)
    if distance > s64Max then return .error .erange
    else do
      let cast ← s64Type.hold distance
      return .ok cast
  else do
    let distance ← u64Type.hold (anchorArt - art)
    if distance > s64Max then return .error .erange
    else do
      let cast ← s64Type.hold distance
      let negated ← s64Type.hold (-cast)
      return .ok negated

def phcArtToNs (phc : PhcParams) (art : Nat) : Calc S64Result :=
  andThen (artDistance phc.anchorArt art) fun cyclesDelta =>
    andThen (cyclesDeltaToNs cyclesDelta phc.baseArtHz false) fun base => do
      let ppb ← scaledPpmToPpb phc.scaledPpm
      andThen (phcBaseToAdjustedDelta base ppb) fun adjusted => addS64 phc.anchorNs adjusted

/-- The last lines of `tgpio_phc_ns_to_art`. -/
def anchoredArt (anchorArt : Nat) (cycles : Int) : Calc U64Result :=
  if cycles ≥ 0 then do
    let cast ← u64Type.hold cycles
    let art ← u64Type.hold (anchorArt + cast)
    if art < anchorArt then return .error .erange
    else return .ok art.toNat
  else do
    let magnitude ← absS64 cycles
    if magnitude > anchorArt then return .error .erange
    else do
      let art ← u64Type.hold (anchorArt - magnitude)
      return .ok art.toNat

/-- `tgpio_phc_ns_to_art` up to the cycles. -/
def phcNsToCycles (phc : PhcParams) (phcNs : Int) : Calc S64Result := do
  let negated ← s64Type.hold (-phc.anchorNs)
  andThen (addS64 phcNs negated) fun phcDelta => do
    let ppb ← scaledPpmToPpb phc.scaledPpm
    andThen (phcAdjustedToBaseDelta phcDelta ppb) fun baseDelta =>
      nsDeltaToCycles baseDelta phc.baseArtHz true

def phcNsToArt (phc : PhcParams) (phcNs : Int) : Calc U64Result :=
  andThen (phcNsToCycles phc phcNs) (anchoredArt phc.anchorArt)

end Checked

section rescaling

variable {count srcHz dstHz : Nat}

theorem round_sub_yields {product : Nat} (roundNearest : Bool) (positive : 0 < srcHz)
    (source : srcHz < 2 ^ 64) (fits : product < 2 ^ 64) :
    (Checked.roundSub ((product / srcHz : Nat) : Int) ((product % srcHz : Nat) : Int) srcHz
      roundNearest).Yields ((rescaleSub product srcHz roundNearest : Nat) : Int) := by
  have remainder := Nat.mod_lt product positive
  have quotient := Nat.div_le_self product srcHz
  have halved (atLeastTwo : 2 ≤ srcHz) : product / srcHz < 2 ^ 63 :=
    (Nat.div_lt_iff_lt_mul positive).mpr (by omega)
  unfold Checked.roundSub rescaleSub
  dsimp only
  generalize product / srcHz = scaledSub at quotient halved ⊢
  generalize product % srcHz = rest at remainder ⊢
  cases roundNearest with
  | false => exact Calc.yields_pure _
  | true =>
      rw [if_pos rfl]
      apply (yields_hold (u64_fits (by omega) (by omega))).bind
      by_cases carries : rest ≥ srcHz - rest
      · have below := halved (by omega)
        rw [if_pos (by omega), if_pos ⟨rfl, carries⟩, u64_of_lt (by omega)]
        exact yields_hold (u64_fits (by omega) (by omega))
      · rw [if_neg (by omega), if_neg fun both => carries both.2]
        exact Calc.yields_pure _

/-- No operation of a rescaling wraps while the product of the part below a
second fits. -/
theorem rescale_common_yields (roundNearest : Bool) (counted : count < 2 ^ 64)
    (source : srcHz < 2 ^ 64) (product : 0 < srcHz → count % srcHz * dstHz < 2 ^ 64) :
    (Checked.rescaleCommon count srcHz dstHz roundNearest).Yields
      (rescaleCommon count srcHz dstHz roundNearest) := by
  unfold Checked.rescaleCommon rescaleCommon
  by_cases zero : srcHz = 0 ∨ dstHz = 0
  · rw [if_pos zero, if_pos zero]
    exact Calc.yields_pure _
  rw [if_neg zero, if_neg zero]
  have fits := product (by omega)
  have seconds := Nat.div_le_self count srcHz
  have most := Nat.div_le_self s64Max dstHz
  apply (yields_quotient (u64_fits (by omega) (by omega)) (by omega)).bind
  apply (yields_whole (u64_fits (by omega) (by unfold s64Max; omega)) (by omega)).bind
  dsimp only
  by_cases many : count / srcHz > s64Max / dstHz
  · rw [if_pos (by exact_mod_cast many), if_pos many]
    exact Calc.yields_pure _
  rw [if_neg (by exact_mod_cast many), if_neg many]
  have within := (Nat.le_div_iff_mul_le (by omega)).mp (Nat.le_of_not_lt many)
  have inRange : count / srcHz * dstHz < 2 ^ 64 := by
    unfold s64Max at within
    omega
  rw [u64_of_lt inRange, u64_of_lt fits]
  apply (yields_hold_as (Nat.cast_mul _ _).symm (u64_fits (by omega) (by exact_mod_cast inRange))).bind
  apply (yields_hold_as (Nat.cast_mul _ _).symm (u64_fits (by omega) (by exact_mod_cast fits))).bind
  apply (yields_quotient (u64_fits (by omega) (by exact_mod_cast fits)) (by omega)).bind
  apply (round_sub_yields roundNearest (by omega) source fits).bind
  generalize count / srcHz * dstHz = result at within ⊢
  generalize rescaleSub _ srcHz roundNearest = scaledSub
  unfold s64Max at within ⊢
  apply (yields_hold (u64_fits (by omega) (by omega))).bind
  by_cases above : scaledSub > 2 ^ 63 - 1 - result
  · rw [if_pos (by omega), if_pos above]
    exact Calc.yields_pure _
  · rw [if_neg (by omega), if_neg above, u64_of_lt (by omega)]
    exact (yields_hold (u64_fits (by omega) (by omega))).bind (Calc.yields_pure _)

/-- A conversion of rates is exact: the rescaled count where it is in range, a
range error where it is not, and no operation that wraps. -/
theorem rescale_exact (count srcHz dstHz : Nat) (roundNearest : Bool) (counted : count < 2 ^ 64)
    (source : srcHz < 2 ^ 64) (product : ((srcHz : Int) - 1) * dstHz < 2 ^ 64) :
    (Checked.rescaleCommon count srcHz dstHz roundNearest).Yields
        (rescaleCommon count srcHz dstHz roundNearest) ∧
      (rescaleCommon count srcHz dstHz roundNearest = .error .enodev ↔ srcHz = 0 ∨ dstHz = 0) ∧
      (0 < srcHz → 0 < dstHz → rescaleCommon count srcHz dstHz roundNearest =
        if rescaled count srcHz dstHz roundNearest ≤ s64Max then
          .ok (rescaled count srcHz dstHz roundNearest)
        else .error .erange) := by
  have fits (positive : 0 < srcHz) : count % srcHz * dstHz < 2 ^ 64 := by
    have below : count % srcHz ≤ srcHz - 1 := Nat.le_sub_one_of_lt (Nat.mod_lt _ positive)
    have part : count % srcHz * dstHz ≤ (srcHz - 1) * dstHz := Nat.mul_le_mul_right _ below
    have whole : (((srcHz - 1) * dstHz : Nat) : Int) < 2 ^ 64 := by
      rw [Nat.cast_mul, Nat.cast_sub positive]
      exact product
    omega
  have answers (positive : 0 < srcHz) (target : 0 < dstHz) :=
    rescale_common_eq roundNearest positive target (fits positive)
  refine ⟨rescale_common_yields roundNearest counted source fits, ?_, answers⟩
  constructor
  · intro missing
    by_contra present
    rw [answers (by omega) (by omega)] at missing
    split at missing <;> contradiction
  · exact fun zero => if_pos zero

theorem rescale_exact_half :
    rescaleCommon 3 2 1 true = .ok 2 := by
  have rescales := (rescale_exact 3 2 1 true (by decide) (by decide) (by decide)).2.2
  exact rescales (by decide) (by decide)

end rescaling

section signs

variable {α β : Type}

theorem and_then_yields {first : Calc (Except Errno α)} {rest : α → Calc (Except Errno β)}
    {result : Except Errno α} {answer : α → Except Errno β} (yields : first.Yields result)
    (later : ∀ value, result = .ok value → (rest value).Yields (answer value)) :
    (Checked.andThen first rest).Yields (result.bind answer) := by
  apply yields.bind
  cases result with
  | error status => exact Calc.yields_pure _
  | ok value => exact later value rfl

theorem abs_s64_yields {value : Int} (lower : -(2 ^ 63) ≤ value) (upper : value < 2 ^ 63) :
    (Checked.absS64 value).Yields ((absS64 value : Nat) : Int) := by
  rw [abs_s64_eq lower upper]
  unfold Checked.absS64
  split
  · apply (yields_hold (s64_fits (by omega) (by omega))).bind
    apply (yields_hold (s64_fits (by omega) (by omega))).bind
    apply (yields_hold (u64_fits (by omega) (by omega))).bind
    exact yields_hold_as (by omega) (u64_fits (by omega) (by omega))
  · exact yields_hold_as (by omega) (u64_fits (by omega) (by omega))

theorem add_s64_stage {lhs rhs : Int} (left : -(2 ^ 63) ≤ lhs ∧ lhs < 2 ^ 63)
    (right : -(2 ^ 63) ≤ rhs ∧ rhs < 2 ^ 63) :
    addS64 lhs rhs =
      if s64Type.Fits (lhs + rhs) then .ok (lhs + rhs) else .error .erange := by
  have limits (value : Int) : s64Type.Fits value ↔ -(2 ^ 63) ≤ value ∧ value ≤ 2 ^ 63 - 1 :=
    Iff.rfl
  simp only [limits]
  unfold addS64 s64Max s64Min
  split
  · rw [if_neg (by omega)]
  split
  · rw [if_neg (by omega)]
  · rw [if_pos (by omega)]

theorem add_s64_yields {lhs rhs : Int} (left : -(2 ^ 63) ≤ lhs ∧ lhs < 2 ^ 63)
    (right : -(2 ^ 63) ≤ rhs ∧ rhs < 2 ^ 63) :
    (Checked.addS64 lhs rhs).Yields (addS64 lhs rhs) := by
  have sums (lower : -(2 ^ 63) ≤ lhs + rhs) (upper : lhs + rhs < 2 ^ 63) :
      (Checked.sumS64 lhs rhs).Yields (.ok (lhs + rhs)) :=
    (yields_hold (s64_fits lower upper)).bind (Calc.yields_pure _)
  unfold Checked.addS64 addS64 s64Max s64Min
  by_cases positive : rhs > 0
  · rw [if_pos positive]
    apply (yields_hold (s64_fits (by omega) (by omega))).bind
    by_cases above : lhs > ((2 ^ 63 - 1 : Nat) : Int) - rhs
    · rw [if_pos above, if_pos ⟨positive, above⟩]
      exact Calc.yields_pure _
    · rw [if_neg above, if_neg fun both => above both.2, if_neg fun both => by omega]
      exact sums (by omega) (by omega)
  have notPositive : ¬(rhs > 0 ∧ lhs > ((2 ^ 63 - 1 : Nat) : Int) - rhs) :=
    fun both => positive both.1
  rw [if_neg positive, if_neg notPositive]
  by_cases negative : rhs < 0
  · rw [if_pos negative]
    apply (yields_hold (s64_fits (by omega) (by omega))).bind
    by_cases below : lhs < -2 ^ 63 - rhs
    · rw [if_pos below, if_pos ⟨negative, below⟩]
      exact Calc.yields_pure _
    · rw [if_neg below, if_neg fun both => below both.2]
      exact sums (by omega) (by omega)
  · rw [if_neg negative, if_neg fun both => negative both.1]
    exact sums (by omega) (by omega)

theorem signed_yields (like : Int) (magnitude : Nat) :
    (Checked.signed like magnitude).Yields (signed like magnitude) := by
  unfold Checked.signed signed s64Max
  by_cases many : magnitude > 2 ^ 63 - 1
  · rw [if_pos many, if_pos many]
    exact Calc.yields_pure _
  rw [if_neg many, if_neg many]
  apply (yields_hold (s64_fits (by omega) (by omega))).bind
  split
  · exact (yields_hold (s64_fits (by omega) (by omega))).bind (Calc.yields_pure _)
  · exact Calc.yields_pure _

theorem scaled_ppm_yields {scaledPpm : Int} (lower : -(2 ^ 63) ≤ scaledPpm)
    (upper : scaledPpm < 2 ^ 63) :
    (Checked.scaledPpmToPpb scaledPpm).Yields (scaledPpmToPpb scaledPpm) := by
  have zero : s64Type.Fits 0 := by decide
  have most := @yields_whole_int s64Type s64Max 1000 (by decide) zero (by decide)
  have least := @yields_whole_int s64Type s64Min 1000 (by decide) zero (by decide)
  have limits : (s64Max : Int).tdiv 1000 = 9223372036854775 ∧
      s64Min.tdiv 1000 = -9223372036854775 := by decide
  unfold Checked.scaledPpmToPpb scaledPpmToPpb
  apply most.bind
  rw [show ((1000 : Nat) : Int) = 1000 from rfl, limits.1]
  split
  · exact Calc.yields_pure _
  apply least.bind
  rw [show ((1000 : Nat) : Int) = 1000 from rfl, limits.2]
  split
  · exact Calc.yields_pure _
  have fits : s64Type.Fits (scaledPpm * 1000) := s64_fits (by omega) (by omega)
  apply (yields_hold fits).bind
  exact @yields_whole_int s64Type (scaledPpm * 1000) (2 ^ 16) fits zero (by decide)

theorem art_distance_yields {anchorArt art : Nat} (anchor : anchorArt < 2 ^ 64)
    (counted : art < 2 ^ 64) :
    (Checked.artDistance anchorArt art).Yields (artDistance anchorArt art) := by
  unfold Checked.artDistance artDistance s64Max
  split
  · apply (yields_hold (u64_fits (by omega) (by omega))).bind
    by_cases far : art - anchorArt > 2 ^ 63 - 1
    · rw [if_pos (by omega), if_pos far]
      exact Calc.yields_pure _
    · rw [if_neg (by omega), if_neg far, Nat.cast_sub (by assumption)]
      exact (yields_hold (s64_fits (by omega) (by omega))).bind (Calc.yields_pure _)
  · apply (yields_hold (u64_fits (by omega) (by omega))).bind
    by_cases far : anchorArt - art > 2 ^ 63 - 1
    · rw [if_pos (by omega), if_pos far]
      exact Calc.yields_pure _
    · rw [if_neg (by omega), if_neg far, Nat.cast_sub (by omega)]
      apply (yields_hold (s64_fits (by omega) (by omega))).bind
      exact (yields_hold (s64_fits (by omega) (by omega))).bind (Calc.yields_pure _)

end signs

section rates

variable {baseArtHz : Nat} {ppb : Int}

theorem Modest.source (modest : Modest baseArtHz ppb) : baseArtHz < 2 ^ 64 := by
  have rate := modest.rate
  unfold nsecPerSec at rate
  omega

/-- What is left of a second, in nanoseconds, counts as cycles without a wrap. -/
theorem Modest.product (modest : Modest baseArtHz ppb) (ns : Nat) :
    ns % nsecPerSec * baseArtHz < 2 ^ 64 := by
  have part := Nat.mul_lt_mul_of_pos_right (Nat.mod_lt ns (by decide : 0 < nsecPerSec))
    modest.positive
  have rate := modest.rate
  rw [Nat.mul_comm nsecPerSec] at part
  omega

theorem Modest.cycles_product (modest : Modest baseArtHz ppb) (cycles : Nat) :
    cycles % baseArtHz * nsecPerSec < 2 ^ 64 :=
  (Nat.mul_lt_mul_of_pos_right (Nat.mod_lt _ modest.positive) (by decide)).trans_le modest.rate

theorem cycles_delta_yields {cycles : Int} (modest : Modest baseArtHz ppb)
    (range : -(2 ^ 63) ≤ cycles ∧ cycles < 2 ^ 63) :
    (Checked.cyclesDeltaToNs cycles baseArtHz false).Yields
      (cyclesDeltaToNs cycles baseArtHz false) := by
  apply (abs_s64_yields range.1 range.2).bind
  rw [Int.toNat_natCast, cyclesDeltaToNs, abs_s64_eq range.1 range.2, if_neg Bool.false_ne_true,
    rescale]
  apply and_then_yields
  · exact rescale_common_yields false (by omega) modest.source fun _ => modest.cycles_product _
  · exact fun ns _ => signed_yields cycles ns

theorem ns_delta_yields {ns : Int} (modest : Modest baseArtHz ppb)
    (range : -(2 ^ 63) ≤ ns ∧ ns < 2 ^ 63) :
    (Checked.nsDeltaToCycles ns baseArtHz true).Yields (nsDeltaToCycles ns baseArtHz true) := by
  apply (abs_s64_yields range.1 range.2).bind
  rw [Int.toNat_natCast, nsDeltaToCycles, abs_s64_eq range.1 range.2, if_pos rfl, rescaleNearest]
  apply and_then_yields
  · exact rescale_common_yields true (by omega) (by unfold nsecPerSec; omega)
      fun _ => modest.product _
  · exact fun cycles _ => signed_yields ns cycles

theorem apply_ppb_yields {ns : Int} (modest : Modest baseArtHz ppb) (fits : ns.natAbs ≤ s64Max) :
    (Checked.applyPpbToNs ns ppb).Yields (applyPpbToNs ns ppb) := by
  have slow : -100000000 ≤ ppb := modest.slow
  have fast : ppb ≤ 100000000 := modest.fast
  unfold s64Max at fits
  have absNs := @abs_s64_yields ns (by omega) (by omega)
  have absPpb := @abs_s64_yields ppb (by omega) (by omega)
  have whole : ns.natAbs / nsecPerSec * ppb.natAbs ≤ 9223372036 * 10 ^ 8 :=
    Nat.mul_le_mul (by unfold nsecPerSec; omega) (by omega)
  have rest : ns.natAbs % nsecPerSec * ppb.natAbs ≤ 10 ^ 9 * 10 ^ 8 :=
    Nat.mul_le_mul (Nat.le_of_lt (Nat.mod_lt _ (by decide))) (by omega)
  have part := Nat.div_le_self (ns.natAbs % nsecPerSec * ppb.natAbs) nsecPerSec
  have magnitudes : absS64 ns = ns.natAbs ∧ absS64 ppb = ppb.natAbs :=
    ⟨abs_s64_eq (by omega) (by omega), abs_s64_eq (by omega) (by omega)⟩
  rw [magnitudes.1] at absNs
  rw [magnitudes.2] at absPpb
  apply absNs.bind
  apply absPpb.bind
  unfold applyPpbToNs
  rw [magnitudes.1, magnitudes.2]
  by_cases zero : ns = 0 ∨ ppb = 0
  · rw [if_pos zero, if_pos zero]
    exact Calc.yields_pure _
  rw [if_neg zero, if_neg zero]
  have wholeRange : ns.natAbs / nsecPerSec * ppb.natAbs < 2 ^ 64 := by omega
  have restRange : ns.natAbs % nsecPerSec * ppb.natAbs < 2 ^ 64 := by omega
  apply (yields_quotient (u64_fits (by omega) (by omega)) (by decide)).bind
  apply (yields_hold_as (Nat.cast_mul _ _).symm
    (u64_fits (by omega) (by exact_mod_cast wholeRange))).bind
  apply (yields_hold_as (Nat.cast_mul _ _).symm
    (u64_fits (by omega) (by exact_mod_cast restRange))).bind
  apply (yields_whole (u64_fits (by omega) (by exact_mod_cast restRange)) (by decide)).bind
  dsimp only
  rw [u64_of_lt wholeRange, u64_of_lt restRange]
  generalize ns.natAbs / nsecPerSec * ppb.natAbs = seconds at whole ⊢
  generalize ns.natAbs % nsecPerSec * ppb.natAbs / nsecPerSec = fraction at part ⊢
  rw [u64_of_lt (by omega)]
  apply (yields_hold_as (Nat.cast_add _ _).symm (u64_fits (by omega) (by omega))).bind
  have small : ¬seconds + fraction > s64Max := by
    unfold s64Max
    omega
  rw [if_neg (by exact_mod_cast small), if_neg small]
  apply (yields_hold (s64_fits (by omega) (by omega))).bind
  split
  · exact yields_hold (s64_fits (by omega) (by omega))
  · exact Calc.yields_pure _

theorem base_to_adjusted_yields {base : Int} (modest : Modest baseArtHz ppb)
    (fits : base.natAbs ≤ s64Max) :
    (Checked.phcBaseToAdjustedDelta base ppb).Yields (phcBaseToAdjustedDelta base ppb) := by
  have small := shortened_le base.natAbs (by decide : 0 < nsecPerSec) modest.part
  have correction := apply_ppb_eq modest fits
  have range : -(2 ^ 63) ≤ applyPpbToNs base ppb ∧ applyPpbToNs base ppb < 2 ^ 63 := by
    rw [correction]
    unfold withSign s64Max at *
    split <;> split <;> omega
  apply (apply_ppb_yields modest fits).bind
  unfold s64Max at fits
  exact add_s64_yields (by omega) range

theorem adjusted_to_base_yields {ns : Int} (modest : Modest baseArtHz ppb)
    (range : -(2 ^ 63) ≤ ns ∧ ns < 2 ^ 63) :
    (Checked.phcAdjustedToBaseDelta ns ppb).Yields (phcAdjustedToBaseDelta ns ppb) := by
  obtain ⟨exact_, slowest, fastest⟩ := modest.pace
  have sign : ¬(nsecPerSec : Int) + ppb ≤ 0 := by omega
  have slow : -100000000 ≤ ppb := modest.slow
  have fast : ppb ≤ 100000000 := modest.fast
  unfold phcAdjustedToBaseDelta
  rw [abs_s64_eq range.1 range.2]
  apply (abs_s64_eq range.1 range.2 ▸ abs_s64_yields range.1 range.2).bind
  apply (yields_hold (s64_fits (by unfold nsecPerSec; omega) (by unfold nsecPerSec; omega))).bind
  dsimp only
  rw [exact_, if_neg sign, if_neg sign]
  have cast : (nsecPerSec : Int) + ppb = (((nsecPerSec : Int) + ppb).toNat : Int) := by omega
  generalize ((nsecPerSec : Int) + ppb).toNat = rate at slowest fastest cast ⊢
  rw [cast]
  have positive : rate ≠ 0 := by omega
  apply (yields_hold (u64_fits (by omega) (by omega))).bind
  apply (yields_quotient (u64_fits (by omega) (by omega)) positive).bind
  apply (yields_whole (u64_fits (by unfold s64Max; omega) (by unfold s64Max; omega)) (by decide)).bind
  dsimp only
  by_cases many : ns.natAbs / rate > s64Max / nsecPerSec
  · rw [if_pos (by exact_mod_cast many), if_pos many]
    exact Calc.yields_pure _
  rw [if_neg (by exact_mod_cast many), if_neg many]
  have whole : ns.natAbs / rate * nsecPerSec ≤ s64Max :=
    (Nat.le_div_iff_mul_le (by decide)).mp (by omega)
  have part : ns.natAbs % rate * nsecPerSec ≤ 1100000000 * nsecPerSec :=
    Nat.mul_le_mul_right _ ((Nat.mod_lt _ (by omega)).le.trans fastest)
  have below : ns.natAbs % rate * nsecPerSec / rate < nsecPerSec := by
    rw [Nat.div_lt_iff_lt_mul (by omega), Nat.mul_comm]
    exact Nat.mul_lt_mul_of_pos_left (Nat.mod_lt _ (by omega)) (by decide)
  have wholeRange : ns.natAbs / rate * nsecPerSec < 2 ^ 64 := by unfold s64Max at whole; omega
  have partRange : ns.natAbs % rate * nsecPerSec < 2 ^ 64 := by unfold nsecPerSec at part ⊢; omega
  apply (yields_hold_as (Nat.cast_mul _ _).symm
    (u64_fits (by omega) (by exact_mod_cast wholeRange))).bind
  apply (yields_hold_as (Nat.cast_mul _ _).symm
    (u64_fits (by omega) (by exact_mod_cast partRange))).bind
  apply (yields_whole (u64_fits (by omega) (by exact_mod_cast partRange)) positive).bind
  rw [u64_of_lt wholeRange, u64_of_lt partRange]
  generalize ns.natAbs / rate * nsecPerSec = seconds at whole ⊢
  generalize ns.natAbs % rate * nsecPerSec / rate = fraction at below ⊢
  unfold s64Max at whole
  unfold nsecPerSec at below
  rw [u64_of_lt (by omega)]
  apply (yields_hold_as (Nat.cast_add _ _).symm (u64_fits (by omega) (by omega))).bind
  exact signed_yields ns (seconds + fraction)

theorem phc_art_to_ns_yields {phc : PhcParams} {art : Nat}
    (modest : Modest phc.baseArtHz (scaledPpmToPpb phc.scaledPpm))
    (anchorArt : phc.anchorArt < 2 ^ 64) (anchorNs : -(2 ^ 63) ≤ phc.anchorNs ∧ phc.anchorNs < 2 ^ 63)
    (scaled : -(2 ^ 63) ≤ phc.scaledPpm ∧ phc.scaledPpm < 2 ^ 63) (counted : art < 2 ^ 64) :
    (Checked.phcArtToNs phc art).Yields (phcArtToNs phc art) := by
  apply and_then_yields (art_distance_yields anchorArt counted)
  intro cycles measured
  obtain ⟨-, near⟩ := art_distance_eq measured
  apply and_then_yields (cycles_delta_yields modest (by unfold s64Max at near; omega))
  intro base based
  obtain ⟨-, fits⟩ := cycles_delta_to_ns_eq modest near based
  apply (scaled_ppm_yields scaled.1 scaled.2).bind
  apply and_then_yields (base_to_adjusted_yields modest fits)
  intro adjusted corrected
  unfold s64Max at fits
  have range := (add_s64_eq corrected).2 (by omega) (by omega)
  exact add_s64_yields anchorNs range

/-- The ART value so many cycles from the anchor, where there is one. -/
def anchoredSum (anchorArt : Nat) (cycles : Int) : U64Result :=
  if 0 ≤ anchorArt + cycles ∧ anchorArt + cycles < 2 ^ 64 then .ok (anchorArt + cycles).toNat
  else .error .erange

/-- The last sum is the only operation on the way back that can wrap. -/
theorem anchored_art_checked {anchorArt : Nat} {cycles : Int} (anchored : anchorArt < 2 ^ 64)
    (range : -(2 ^ 63) ≤ cycles ∧ cycles < 2 ^ 63) :
    (Checked.anchoredArt anchorArt cycles).checked =
      if anchorArt + cycles < 2 ^ 64 then some (anchoredSum anchorArt cycles) else none := by
  unfold Checked.anchoredArt anchoredSum
  by_cases ahead : cycles ≥ 0
  · rw [if_pos ahead, Calc.checked_bind, yields_hold (u64_fits ahead (by omega)), Option.bind_some]
    by_cases fits : (anchorArt : Int) + cycles < 2 ^ 64
    · rw [if_pos fits, if_pos ⟨by omega, fits⟩]
      apply (yields_hold (u64_fits (by omega) fits)).bind
      rw [if_neg (by omega)]
      exact Calc.yields_pure _
    · have wraps : (u64Type.hold (anchorArt + cycles)).checked = none :=
        if_neg fun held => fits (Int.lt_of_le_sub_one held.2)
      rw [if_neg fits, Calc.checked_bind, wraps, Option.bind_none]
  · rw [if_neg ahead, if_pos (by omega)]
    have magnitude := abs_s64_yields range.1 range.2
    rw [abs_s64_eq range.1 range.2] at magnitude
    apply magnitude.bind
    by_cases far : (cycles.natAbs : Int) > anchorArt
    · rw [if_pos far, if_neg (by omega)]
      exact Calc.yields_pure _
    · have sum : (anchorArt : Int) - cycles.natAbs = anchorArt + cycles := by omega
      rw [if_neg far, if_pos (by omega)]
      apply (yields_hold_as sum (u64_fits (by omega) (by omega))).bind
      exact Calc.yields_pure _

end rates

end Tgpio

import Mathlib.Data.Int.Basic
import Mathlib.Tactic.Ring

/-!
# Calculations in machine words

A calculation is its operations, each with its exact result and the type that
has to hold it. A machine reduces every result to its type. A checked machine
stops at the first result that does not fit, and at a division by zero: what it
gets through, the machine has calculated as if with integers.
-/

namespace Words

set_option autoImplicit false

/-- An integer type: how wide it is, and whether one bit is the sign. -/
structure IntType where
  width : Nat
  signed : Bool
  positive : 0 < width

namespace IntType

variable (type : IntType)

def least : Int := if type.signed then -2 ^ (type.width - 1) else 0

def greatest : Int := if type.signed then 2 ^ (type.width - 1) - 1 else 2 ^ type.width - 1

def Fits (value : Int) : Prop := type.least ≤ value ∧ value ≤ type.greatest

instance (value : Int) : Decidable (type.Fits value) := inferInstanceAs (Decidable (_ ∧ _))

/-- What is left of a value in the type, by two's complement. -/
def reduce (value : Int) : Int :=
  if type.signed then Int.bmod value (2 ^ type.width) else value % 2 ^ type.width

variable {type}

theorem reduce_of_fits {value : Int} (fits : type.Fits value) : type.reduce value = value := by
  obtain ⟨lower, upper⟩ := fits
  have double : (2 : Int) ^ type.width = 2 * 2 ^ (type.width - 1) := by
    rw [← Int.pow_succ', Nat.sub_add_cancel type.positive]
  unfold least at lower
  unfold greatest at upper
  unfold reduce
  cases signs : type.signed with
  | true =>
      rw [signs, if_pos rfl] at lower upper
      rw [if_pos rfl]
      apply Int.bmod_eq_of_le_mul_two
      · push_cast
        omega
      · push_cast
        omega
  | false =>
      rw [signs, if_neg Bool.false_ne_true] at lower upper
      rw [if_neg Bool.false_ne_true]
      exact Int.emod_eq_of_lt lower (by omega)

end IntType

/-- A calculation: one operation after the other, by the results so far. -/
inductive Calc (α : Type) where
  | done (value : α)
  | operate (type : IntType) (result : Int) (next : Int → Calc α)
  | divide (type : IntType) (dividend divisor : Int) (next : Int → Int → Calc α)

namespace Calc

variable {α β : Type}

def bind : Calc α → (α → Calc β) → Calc β
  | done value, rest => rest value
  | operate type result next, rest => operate type result fun value => (next value).bind rest
  | divide type dividend divisor next, rest =>
      divide type dividend divisor fun quotient remainder => (next quotient remainder).bind rest

instance : Monad Calc where
  pure := done
  bind := bind

/-- The machine. -/
def run : Calc α → α
  | done value => value
  | operate type result next => (next (type.reduce result)).run
  | divide type dividend divisor next =>
      (next (type.reduce (dividend.tdiv divisor)) (type.reduce (dividend.tmod divisor))).run

/-- The checked machine. -/
def checked : Calc α → Option α
  | done value => some value
  | operate type result next => if type.Fits result then (next result).checked else none
  | divide type dividend divisor next =>
      if divisor ≠ 0 ∧ type.Fits (dividend.tdiv divisor) ∧ type.Fits (dividend.tmod divisor) then
        (next (dividend.tdiv divisor) (dividend.tmod divisor)).checked
      else none

/-- No operation of the calculation leaves its type, and it comes to a value. -/
def Yields (steps : Calc α) (value : α) : Prop := steps.checked = some value

/-- A machine that never has to reduce calculates with integers. -/
theorem Yields.run {steps : Calc α} {value : α} (yields : steps.Yields value) :
    steps.run = value := by
  unfold Yields at yields
  induction steps with
  | done found => exact Option.some.inj yields
  | operate type result next ih =>
      obtain ⟨fits, rest⟩ := Option.ite_none_right_eq_some.mp yields
      rw [Calc.run, IntType.reduce_of_fits fits]
      exact ih result rest
  | divide type dividend divisor next ih =>
      obtain ⟨⟨-, quotient, remainder⟩, rest⟩ := Option.ite_none_right_eq_some.mp yields
      rw [Calc.run, IntType.reduce_of_fits quotient, IntType.reduce_of_fits remainder]
      exact ih _ _ rest

theorem checked_bind (steps : Calc α) (rest : α → Calc β) :
    (steps >>= rest).checked = steps.checked.bind fun value => (rest value).checked := by
  change (steps.bind rest).checked = _
  induction steps with
  | done value => rfl
  | operate type result next ih =>
      simp only [bind, checked]
      split
      · exact ih result
      · rfl
  | divide type dividend divisor next ih =>
      simp only [bind, checked]
      split
      · exact ih _ _
      · rfl

theorem Yields.bind {steps : Calc α} {rest : α → Calc β} {value : α} {result : β}
    (first : steps.Yields value) (second : (rest value).Yields result) :
    (steps >>= rest).Yields result := by
  unfold Yields at first
  rw [Yields, checked_bind, first]
  exact second

theorem yields_pure (value : α) : (pure value : Calc α).Yields value := rfl

end Calc

/-- An operation in a type. -/
def IntType.hold (type : IntType) (result : Int) : Calc Int := .operate type result .done

/-- A division with its remainder. -/
def IntType.quotient (type : IntType) (dividend divisor : Int) : Calc (Int × Int) :=
  .divide type dividend divisor fun quotient remainder => .done (quotient, remainder)

/-- A division without. -/
def IntType.whole (type : IntType) (dividend divisor : Int) : Calc Int := do
  let (quotient, _) ← type.quotient dividend divisor
  return quotient

section rules

variable {type : IntType}

theorem yields_hold {result : Int} (fits : type.Fits result) : (type.hold result).Yields result :=
  if_pos fits

theorem yields_hold_as {result value : Int} (same : result = value) (fits : type.Fits value) :
    (type.hold result).Yields value := by
  rw [same]
  exact yields_hold fits

/-- The quotient of two natural numbers fits where the dividend does. -/
theorem yields_quotient {dividend divisor : Nat} (fits : type.Fits dividend)
    (nonzero : divisor ≠ 0) :
    (type.quotient dividend divisor).Yields
      (((dividend / divisor : Nat) : Int), ((dividend % divisor : Nat) : Int)) := by
  have quotient := Nat.div_le_self dividend divisor
  have remainder := Nat.mod_le dividend divisor
  have least : type.least ≤ 0 := by
    have wide : (0 : Int) < 2 ^ (type.width - 1) := Int.pow_pos (by decide)
    unfold IntType.least
    split <;> omega
  have smaller {value : Nat} (less : value ≤ dividend) : type.Fits value := by
    unfold IntType.Fits at fits ⊢
    omega
  unfold IntType.quotient Calc.Yields Calc.checked
  rw [← Int.ofNat_tdiv, ← Int.ofNat_tmod]
  rw [if_pos ⟨by exact_mod_cast nonzero, smaller quotient, smaller remainder⟩]
  rfl

theorem yields_whole {dividend divisor : Nat} (fits : type.Fits dividend) (nonzero : divisor ≠ 0) :
    (type.whole dividend divisor).Yields ((dividend / divisor : Nat) : Int) :=
  (yields_quotient fits nonzero).bind (Calc.yields_pure _)

/-- A signed quotient lies between zero and its dividend. -/
theorem yields_whole_int {dividend : Int} {divisor : Nat} (fits : type.Fits dividend)
    (zero : type.Fits 0) (nonzero : divisor ≠ 0) :
    (type.whole dividend divisor).Yields (dividend.tdiv divisor) := by
  have between {value : Int} (less : value.natAbs ≤ dividend.natAbs)
      (sign : 0 ≤ dividend → 0 ≤ value) (negative : dividend ≤ 0 → value ≤ 0) : type.Fits value := by
    unfold IntType.Fits at fits zero ⊢
    omega
  have quotient : type.Fits (dividend.tdiv divisor) := by
    apply between
    · rw [Int.natAbs_tdiv]
      exact Nat.div_le_self _ _
    · exact fun least => Int.tdiv_nonneg least (Int.natCast_nonneg _)
    · intro most
      have turned := Int.tdiv_nonneg (Int.neg_nonneg_of_nonpos most) (Int.natCast_nonneg divisor)
      rw [Int.neg_tdiv] at turned
      omega
  have remainder : type.Fits (dividend.tmod divisor) := by
    apply between
    · rw [Int.natAbs_tmod]
      exact Nat.mod_le _ _
    · exact fun least => Int.tmod_nonneg _ least
    · intro most
      have turned := Int.tmod_nonneg divisor (Int.neg_nonneg_of_nonpos most)
      rw [Int.neg_tmod] at turned
      omega
  have divides : (type.quotient dividend divisor).Yields
      (dividend.tdiv divisor, dividend.tmod divisor) := by
    unfold IntType.quotient Calc.Yields Calc.checked
    rw [if_pos ⟨by exact_mod_cast nonzero, quotient, remainder⟩]
    rfl
  exact divides.bind (Calc.yields_pure _)

end rules

end Words

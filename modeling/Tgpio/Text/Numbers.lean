import Tgpio.Text.Fields
import Mathlib.Data.List.Basic

/-!
# Decimal numbers in a text

Numbers as they are printed, read back by a reader that also takes a plus sign,
and underscores between digits.
-/

namespace Text

def decimal (value : Nat) : List Char := Nat.toDigits 10 value

def signed : Int → List Char
  | .ofNat value => decimal value
  | .negSucc value => '-' :: decimal (value + 1)

/-- Groups of digits between single underscores. -/
def readDigits (text : List Char) : Option Nat :=
  let groups := text.splitOnP (· == '_')
  if groups.all fun group => !group.isEmpty && group.all Char.isDigit then
    some (Nat.ofDigitChars 10 groups.flatten 0)
  else none

def readSigned : List Char → Option Int
  | '-' :: rest => (readDigits rest).map fun value => -(value : Int)
  | '+' :: rest => (readDigits rest).map Int.ofNat
  | rest => (readDigits rest).map Int.ofNat

/-- The digits in threes, counted from the last one. -/
def grouped (value : Int) : List Char :=
  let threes := ([','].intercalate ((decimal value.natAbs).reverse.toChunks 3)).reverse
  if value < 0 then '-' :: threes else threes

theorem decimal_ne_nil (value : Nat) : decimal value ≠ [] := Nat.toDigits_ne_nil

theorem digit_of_decimal {value : Nat} {symbol : Char} (member : symbol ∈ decimal value) :
    symbol.isDigit = true :=
  Nat.isDigit_of_mem_toDigits (by decide) (by decide) member

theorem digit_range {symbol : Char} (digit : symbol.isDigit = true) :
    48 ≤ symbol.toNat ∧ symbol.toNat ≤ 57 := by
  simpa [Char.isDigit, UInt32.le_iff_toNat_le] using digit

/-- A mark that is no digit and no minus sign does not occur in a number. -/
structure OffNumbers (mark : Char → Bool) : Prop where
  digits : ∀ symbol : Char, symbol.isDigit = true → mark symbol = false
  minus : mark '-' = false

variable {mark : Char → Bool}

theorem OffNumbers.decimal (off : OffNumbers mark) (value : Nat) : Clear mark (decimal value) :=
  fun symbol member => off.digits symbol (digit_of_decimal member)

theorem OffNumbers.signed (off : OffNumbers mark) (value : Int) : Clear mark (signed value) := by
  cases value with
  | ofNat value => exact off.decimal value
  | negSucc value => exact (off.decimal (value + 1)).cons off.minus

theorem read_digits_decimal (value : Nat) : readDigits (decimal value) = some value := by
  have whole : (decimal value).splitOnP (· == '_') = [decimal value] := by
    refine List.splitOnP_eq_singleton fun symbol member => ?_
    have digit := digit_range (digit_of_decimal member)
    have differ : symbol ≠ '_' := by
      rintro rfl
      exact absurd digit.2 (by decide)
    simpa using differ
  have filled : (decimal value).isEmpty = false := by simp [decimal_ne_nil]
  have digits : (decimal value).all Char.isDigit = true :=
    List.all_eq_true.mpr fun symbol member => digit_of_decimal member
  unfold readDigits
  simp only [whole, List.all_cons, List.all_nil, filled, digits, List.flatten_singleton]
  exact congrArg some Nat.ofDigitChars_ten_toDigits

theorem decimal_unsigned (value : Nat) :
    ∃ first rest, decimal value = first :: rest ∧ first ≠ '-' ∧ first ≠ '+' := by
  obtain ⟨first, rest, shape⟩ := List.exists_cons_of_ne_nil (decimal_ne_nil value)
  have member : first ∈ decimal value := by simp [shape]
  have digit := digit_range (digit_of_decimal member)
  refine ⟨first, rest, shape, ?_, ?_⟩ <;>
    · rintro rfl
      exact absurd digit.1 (by decide)

/-- What is printed is read back. -/
theorem read_signed (value : Int) : readSigned (signed value) = some value := by
  cases value with
  | ofNat value =>
      obtain ⟨first, rest, shape, notMinus, notPlus⟩ := decimal_unsigned value
      have read : readSigned (decimal value) = (readDigits (decimal value)).map Int.ofNat := by
        rw [shape]
        exact readSigned.eq_3 (first :: rest)
          (fun _ same => notMinus (List.cons.inj same).1) (fun _ same => notPlus (List.cons.inj same).1)
      rw [signed, read, read_digits_decimal]
      rfl
  | negSucc value =>
      rw [signed, readSigned, read_digits_decimal]
      rfl

/-- A unit of other letters behind a number can be taken off again. -/
theorem rdrop_unit (off : OffNumbers mark) (value : Int) {unit : List Char}
    (letters : ∀ symbol ∈ unit, mark symbol = true) :
    (signed value ++ unit).rdropWhile mark = signed value := by
  have filled : signed value ≠ [] := by
    cases value with
    | ofNat value => exact decimal_ne_nil value
    | negSucc value => exact List.cons_ne_nil _ _
  have number : (signed value).rdropWhile mark = signed value :=
    rdrop_while_word ⟨filled, off.signed value⟩ []
  unfold List.rdropWhile at number ⊢
  rw [List.reverse_append, List.dropWhile_append_of_pos
    (fun symbol member => letters symbol (List.mem_reverse.mp member)), number]

end Text

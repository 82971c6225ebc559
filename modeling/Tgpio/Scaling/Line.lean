import Mathlib.Algebra.Order.AbsoluteValue.Basic
import Mathlib.Tactic.Linarith
import Mathlib.Tactic.Ring

/-!
# Lines that are set, stepped and tuned

A value that advances at a rate along an axis. It can be set at a place, stepped
everywhere, or tuned to another rate from a place on. A second line that is set
where a rounded reading of its own puts it stays near the first, by one more
rounding for each step and tuning.
-/

namespace Scaling

set_option autoImplicit false

/-- The value `height` at `origin`, and how much it grows with each unit. -/
structure Line (K : Type*) where
  origin : K
  height : K
  rate : K

namespace Line

section ring

variable {K : Type*} [CommRing K] (line : Line K) (place : K)

def valueAt : K := line.height + line.rate * (place - line.origin)

def setTo (value : K) : Line K := { line with origin := place, height := value }

def step (delta : K) : Line K := { line with height := line.height + delta }

/-- The same value at the place, and another rate. -/
def tune (rate : K) : Line K := ⟨place, line.valueAt place, rate⟩

@[simp] theorem value_at_set_to (value other : K) :
    (line.setTo place value).valueAt other = value + line.rate * (other - place) := rfl

@[simp] theorem value_at_step (delta other : K) :
    (line.step delta).valueAt other = line.valueAt other + delta := by
  unfold valueAt step
  ring

@[simp] theorem value_at_tune (rate other : K) :
    (line.tune place rate).valueAt other = line.valueAt place + rate * (other - place) := rfl

/-- A line is the same wherever it is set on itself. -/
theorem value_at_along (other : K) :
    line.valueAt other = line.valueAt place + line.rate * (other - place) := by
  unfold valueAt
  ring

end ring

section order

variable {K : Type*} [CommRing K] [LinearOrder K] [IsStrictOrderedRing K]

/-- Lines of one rate, `bound` apart at most. -/
structure Near (bound : K) (line rough : Line K) : Prop where
  rate : rough.rate = line.rate
  near : ∀ place, |rough.valueAt place - line.valueAt place| ≤ bound

variable {line rough : Line K} {place bound error value : K}

theorem Near.refl (line : Line K) : Near 0 line line :=
  ⟨rfl, fun place => by rw [sub_self, abs_zero]⟩

theorem Near.reading (near : Near bound line rough)
    (rounded : |value - rough.valueAt place| ≤ error) :
    |value - line.valueAt place| ≤ bound + error := by
  have parts := abs_add_le (value - rough.valueAt place) (rough.valueAt place - line.valueAt place)
  have off := near.near place
  rw [sub_add_sub_cancel] at parts
  linarith

theorem Near.setTo (place value : K) (near : Near bound line rough) :
    Near 0 (line.setTo place value) (rough.setTo place value) := by
  refine ⟨near.rate, fun other => ?_⟩
  rw [value_at_set_to, value_at_set_to, near.rate, sub_self, abs_zero]

/-- A step of a line set by a rounded reading. -/
theorem Near.step (delta : K) (near : Near bound line rough)
    (rounded : |value - rough.valueAt place| ≤ error) :
    Near (bound + error) (line.step delta) (rough.setTo place (value + delta)) := by
  refine ⟨near.rate, fun other => ?_⟩
  have reading := near.reading rounded
  have apart : value + delta + line.rate * (other - place) - (line.valueAt other + delta) =
      value - line.valueAt place := by
    rw [line.value_at_along place other]
    ring
  rw [value_at_set_to, value_at_step, near.rate, apart]
  exact reading

theorem Near.tune (rate : K) (near : Near bound line rough)
    (rounded : |value - rough.valueAt place| ≤ error) :
    Near (bound + error) (line.tune place rate) ⟨place, value, rate⟩ := by
  refine ⟨rfl, fun other => ?_⟩
  have reading := near.reading rounded
  have apart : value + rate * (other - place) - (line.valueAt place + rate * (other - place)) =
      value - line.valueAt place := by ring
  have moved : Line.valueAt ⟨place, value, rate⟩ other = value + rate * (other - place) := rfl
  rw [value_at_tune, moved, apart]
  exact reading

end order

end Line

end Scaling

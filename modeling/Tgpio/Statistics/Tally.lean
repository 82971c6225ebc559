import Mathlib.Algebra.Order.Group.Defs
import Mathlib.Algebra.Order.Group.Unbundled.Basic
import Mathlib.Algebra.BigOperators.Group.List.Basic
import Mathlib.Data.List.Induction
import Mathlib.Order.Bounds.Basic

/-!
# Running statistics

How many values there were, the last one, the least, the greatest and the sum,
kept as the values come. The bounds of an empty tally are zero and count for
nothing: the first value replaces them.
-/

namespace Statistics

set_option autoImplicit false

universe u

variable {α : Type u}

structure Tally (α : Type u) where
  count : Nat
  last : α
  min : α
  max : α
  sum : α
  deriving DecidableEq, Repr

section recording

variable [AddCommGroup α] [LinearOrder α]

def Tally.empty : Tally α := ⟨0, 0, 0, 0, 0⟩

def Tally.record (tally : Tally α) (value : α) : Tally α where
  count := tally.count + 1
  last := value
  min := if tally.count = 0 ∨ value < tally.min then value else tally.min
  max := if tally.count = 0 ∨ tally.max < value then value else tally.max
  sum := tally.sum + value

/-- The tally of some values, the first one first. -/
def tallied (values : List α) : Tally α := values.foldl Tally.record Tally.empty

@[simp] theorem tallied_nil : tallied ([] : List α) = Tally.empty := rfl

theorem tallied_append (values : List α) (value : α) :
    tallied (values ++ [value]) = (tallied values).record value := by
  rw [tallied, List.foldl_append]
  rfl

@[simp] theorem tallied_count (values : List α) : (tallied values).count = values.length := by
  induction values using List.reverseRecOn with
  | nil => rfl
  | append_singleton values value ih =>
      rw [tallied_append, List.length_append]
      exact congrArg (· + 1) ih

theorem tallied_last (values : List α) (value : α) : (tallied (values ++ [value])).last = value := by
  rw [tallied_append]
  rfl

@[simp] theorem tallied_sum (values : List α) : (tallied values).sum = values.sum := by
  induction values using List.reverseRecOn with
  | nil => rfl
  | append_singleton values value ih =>
      rw [tallied_append, List.sum_append, List.sum_singleton, ← ih]
      rfl

theorem tallied_min {values : List α} (some_ : values ≠ []) :
    IsLeast {value | value ∈ values} (tallied values).min := by
  induction values using List.reverseRecOn with
  | nil => exact absurd rfl some_
  | append_singleton values value ih =>
      have least : (tallied (values ++ [value])).min =
          if values = [] ∨ value < (tallied values).min then value else (tallied values).min := by
        rw [tallied_append, Tally.record, tallied_count]
        simp only [List.length_eq_zero_iff]
      rw [least]
      split
      next lower =>
        refine ⟨by simp, fun other member => ?_⟩
        rcases List.mem_append.mp member with earlier | latest
        · rcases lower with rfl | lower
          · simp at earlier
          · exact lower.le.trans ((ih (List.ne_nil_of_mem earlier)).2 earlier)
        · exact (List.mem_singleton.mp latest).ge
      next higher =>
        rw [not_or, not_lt] at higher
        have known := ih higher.1
        refine ⟨List.mem_append_left _ known.1, fun other member => ?_⟩
        rcases List.mem_append.mp member with earlier | latest
        · exact known.2 earlier
        · exact higher.2.trans (List.mem_singleton.mp latest).ge

end recording

section negating

variable [AddCommGroup α] [LinearOrder α] [IsOrderedAddMonoid α]

/-- The tally of the negated values. -/
def Tally.negated (tally : Tally α) : Tally α :=
  ⟨tally.count, -tally.last, -tally.max, -tally.min, -tally.sum⟩

theorem Tally.record_negated (tally : Tally α) (value : α) :
    tally.negated.record (-value) = (tally.record value).negated := by
  unfold Tally.record Tally.negated
  simp only [neg_lt_neg_iff, neg_add, Tally.mk.injEq, true_and]
  refine ⟨?_, ?_, trivial⟩
  · split <;> rfl
  · split <;> rfl

theorem tallied_neg (values : List α) :
    tallied (values.map fun value => -value) = (tallied values).negated := by
  induction values using List.reverseRecOn with
  | nil => simp [Tally.empty, Tally.negated]
  | append_singleton values value ih =>
      rw [List.map_append, List.map_singleton, tallied_append, tallied_append, ih,
        Tally.record_negated]

theorem tallied_max {values : List α} (some_ : values ≠ []) :
    IsGreatest {value | value ∈ values} (tallied values).max := by
  have least := @tallied_min _ _ _ (values.map fun value => -value) (by simpa using some_)
  rw [tallied_neg] at least
  change IsLeast _ (-(tallied values).max) at least
  obtain ⟨member, below⟩ := least
  constructor
  · obtain ⟨value, found, same⟩ := List.mem_map.mp member
    rwa [← neg_injective same]
  · intro value found
    exact neg_le_neg_iff.mp (below (List.mem_map.mpr ⟨value, found, rfl⟩))

end negating

end Statistics

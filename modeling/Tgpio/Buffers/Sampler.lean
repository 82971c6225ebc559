import Mathlib.Algebra.BigOperators.Group.List.Basic
import Mathlib.Data.List.Induction
import Mathlib.Data.Nat.Cast.Basic

/-!
# A source that is looked at from time to time

Values come one by one; the source keeps the latest of them and a count. A look
takes what has come since the look before, a drop forgets it. A reader that
goes by the count sees of each batch its last value and its size, or nothing if
the count is where it was.
-/

namespace Buffers

universe u v

variable {α : Type u} {G : Type v}

inductive Happening (α : Type u) where
  | came (value : α)
  | looked
  | dropped
  deriving DecidableEq, Repr

/-- The batches taken so far, oldest first, and what has come since. -/
structure Sampling (α : Type u) where
  taken : List (List α)
  fresh : List α

namespace Sampling

def next (sampling : Sampling α) : Happening α → Sampling α
  | .came value => { sampling with fresh := sampling.fresh ++ [value] }
  | .looked => ⟨sampling.taken ++ [sampling.fresh], []⟩
  | .dropped => { sampling with fresh := [] }

def of (happenings : List (Happening α)) : Sampling α := happenings.foldl next ⟨[], []⟩

theorem of_append (happenings : List (Happening α)) (happening : Happening α) :
    of (happenings ++ [happening]) = (of happenings).next happening := by
  simp [of]

end Sampling

def Happening.arrival : Happening α → Option α
  | .came value => some value
  | _ => none

/-- Everything that has come. -/
def arrivals (happenings : List (Happening α)) : List α := happenings.filterMap Happening.arrival

theorem arrivals_append (happenings : List (Happening α)) (happening : Happening α) :
    arrivals (happenings ++ [happening]) = arrivals happenings ++ happening.arrival.toList := by
  cases happening <;> simp [arrivals, Happening.arrival]

/-- What is taken came, in this order, and nothing is taken twice. -/
theorem taken_sublist (happenings : List (Happening α)) :
    ((Sampling.of happenings).taken.flatten ++ (Sampling.of happenings).fresh).Sublist
      (arrivals happenings) := by
  induction happenings using List.reverseRecOn with
  | nil => exact .refl []
  | append_singleton happenings happening ih =>
      rw [Sampling.of_append, arrivals_append]
      cases happening with
      | came value =>
          simp only [Sampling.next, Happening.arrival, Option.toList_some, ← List.append_assoc]
          exact ih.append (.refl [value])
      | looked =>
          simpa [Sampling.next, Happening.arrival] using ih
      | dropped =>
          simp only [Sampling.next, Happening.arrival, Option.toList_none, List.append_nil]
          exact (List.sublist_append_left _ _).trans ih

section reports

variable [AddMonoidWithOne G]

/-- A counted batch is not empty. -/
theorem seen_not_empty {batch : List α} (seen : (batch.length : G) ≠ 0) : batch ≠ [] := by
  rintro rfl
  simp at seen

variable [DecidableEq G]

/-- What a reader of the count sees of a batch. -/
def report (batch : List α) : Option (α × G) :=
  if (batch.length : G) = 0 then none else batch.getLast?.map fun value => (value, batch.length)

def reports (batches : List (List α)) : List (α × G) := batches.filterMap report

theorem reports_append (batches : List (List α)) (batch : List α) :
    (reports (batches ++ [batch]) : List (α × G)) = reports batches ++ (report batch).toList := by
  rw [reports, List.filterMap_append]
  cases seen : (report batch : Option (α × G)) <;> simp [reports, seen]

theorem report_unseen {batch : List α} (unseen : (batch.length : G) = 0) :
    (report batch : Option (α × G)) = none :=
  if_pos unseen

theorem report_seen {batch : List α} {value : α} (seen : (batch.length : G) ≠ 0)
    (latest : batch.getLast? = some value) :
    report batch = some (value, (batch.length : G)) := by
  rw [report, if_neg seen, latest]
  rfl

/-- The reported values came, in this order, and none is reported twice. -/
theorem reports_sublist (batches : List (List α)) :
    ((reports batches : List (α × G)).map Prod.fst).Sublist batches.flatten := by
  induction batches using List.reverseRecOn with
  | nil => exact .refl []
  | append_singleton batches batch ih =>
      rw [reports_append, List.map_append, List.flatten_append]
      refine ih.append ?_
      by_cases seen : (batch.length : G) = 0
      · rw [report_unseen seen]
        exact List.nil_sublist _
      · have shown := List.getLast?_eq_some_getLast (seen_not_empty seen)
        rw [report_seen seen shown]
        simp

/-- The counts add up to the number of values taken. -/
theorem reports_sum (batches : List (List α)) :
    ((reports batches : List (α × G)).map Prod.snd).sum = (batches.flatten.length : G) := by
  induction batches using List.reverseRecOn with
  | nil => simp [reports]
  | append_singleton batches batch ih =>
      rw [reports_append, List.map_append, List.sum_append, ih, List.flatten_append,
        List.length_append, Nat.cast_add]
      congr 1
      by_cases seen : (batch.length : G) = 0
      · simp [report_unseen seen, seen]
      · have shown := List.getLast?_eq_some_getLast (seen_not_empty seen)
        simp [report_seen seen shown]

end reports

end Buffers

import Mathlib.Algebra.Order.Floor.Div
import Mathlib.Data.Int.ConditionallyCompleteOrder
import Tgpio.CheckedClock
import Tgpio.OutputHardware

/-!
# The first edge of a stale request

A request in the past is served at a later point of its own grid: the first one
that is not too early, or the earliest time itself where the grid has left the
times of the clock.
-/

namespace Tgpio

open Words

set_option autoImplicit false

namespace Checked

/-- The count of periods that covers a distance. -/
def periodsToCover (delta : Int) (periodNs : Nat) : Calc Int := do
  let (periods, rem) ← u64Type.quotient delta periodNs
  if rem ≠ 0 then u64Type.hold (periods + 1)
  else return periods

def outputAlignFirstEdge (requestedNs minFirstNs : Int) (periodNs : Nat) : Calc Int :=
  if requestedNs ≥ minFirstNs then return requestedNs
  else if periodNs = 0 ∨ periodNs > s64Max ∨ requestedNs < 0 then return minFirstNs
  else do
    let distance ← s64Type.hold (minFirstNs - requestedNs)
    let delta ← u64Type.hold distance
    let periods ← periodsToCover delta periodNs
    let most ← u64Type.whole s64Max periodNs
    if periods > most then return minFirstNs
    else do
      let product ← u64Type.hold (periods * periodNs)
      let cast ← s64Type.hold product
      match ← addS64 requestedNs cast with
      | .error _ => return minFirstNs
      | .ok aligned => return aligned

end Checked

section grid

variable {periodNs : Nat}

theorem rounded_up (delta : Nat) (positive : 0 < periodNs) :
    (if delta % periodNs ≠ 0 then delta / periodNs + 1 else delta / periodNs) =
      CeilDiv.ceilDiv delta periodNs := by
  have split := Nat.div_add_mod' delta periodNs
  have below := Nat.mod_lt delta positive
  rw [Nat.ceilDiv_eq_add_pred_div]
  symm
  split
  · rw [Nat.div_eq_iff positive, Nat.add_mul]
    omega
  · rw [Nat.div_eq_iff positive]
    omega

def laterEdges (requestedNs : Int) (periodNs : Nat) : Set Int :=
  { edge | ∃ k ≥ 1, edge = requestedNs + (k * periodNs : Nat) }

/-- The first point of a grid that is not too early. -/
theorem first_edge_least {requestedNs minFirstNs : Int} (positive : 0 < periodNs)
    (stale : requestedNs < minFirstNs) :
    IsLeast (laterEdges requestedNs periodNs ∩ Set.Ici minFirstNs)
      (requestedNs +
        (CeilDiv.ceilDiv (minFirstNs - requestedNs).toNat periodNs * periodNs : Nat)) := by
  have covers (k : Nat) : CeilDiv.ceilDiv (minFirstNs - requestedNs).toNat periodNs ≤ k ↔
      minFirstNs ≤ requestedNs + (k * periodNs : Nat) := by
    rw [ceilDiv_le_iff_le_mul positive, Nat.mul_comm]
    omega
  have reached := (covers _).mp le_rfl
  refine ⟨⟨⟨_, ?_, rfl⟩, reached⟩, ?_⟩
  · by_contra none
    have zero := (covers 0).mp (by omega)
    rw [Nat.zero_mul] at zero
    omega
  · rintro edge ⟨⟨k, -, rfl⟩, late⟩
    have fewer := Nat.mul_le_mul_right periodNs ((covers k).mpr late)
    omega

end grid

section alignment

variable {requestedNs minFirstNs : Int} {periodNs : Nat}

theorem periods_to_cover_yields {delta : Nat} (fits : delta < 2 ^ 63) (positive : 0 < periodNs) :
    (Checked.periodsToCover delta periodNs).Yields
      ((CeilDiv.ceilDiv delta periodNs : Nat) : Int) := by
  have fewer := Nat.div_le_self delta periodNs
  rw [← rounded_up delta positive]
  apply (yields_quotient (u64_fits (by omega) (by omega)) (by omega)).bind
  dsimp only
  generalize delta / periodNs = whole at fewer ⊢
  by_cases rest : delta % periodNs ≠ 0
  · rw [if_pos (by exact_mod_cast rest), if_pos rest]
    exact yields_hold_as (by push_cast; rfl) (u64_fits (by omega) (by omega))
  · rw [if_neg (by exact_mod_cast rest), if_neg rest]
    exact Calc.yields_pure _

/-- The alignment, with the guard of the product spelt out. -/
theorem output_align_first_edge_eq (requested : 0 ≤ requestedNs) (fits : requestedNs ≤ s64Max)
    (limit : minFirstNs ≤ s64Max) (period : 0 < periodNs ∧ periodNs ≤ s64Max)
    (stale : requestedNs < minFirstNs) {periods : Nat}
    (covered : CeilDiv.ceilDiv (minFirstNs - requestedNs).toNat periodNs = periods) :
    outputAlignFirstEdge requestedNs minFirstNs periodNs =
      if requestedNs + (periods * periodNs : Nat) ≤ s64Max then
        requestedNs + (periods * periodNs : Nat)
      else minFirstNs := by
  have distance : toU64 (minFirstNs - requestedNs) = (minFirstNs - requestedNs).toNat := by
    have cast := to_u64_of_range (show 0 ≤ minFirstNs - requestedNs by omega)
      (by unfold s64Max at limit; omega)
    omega
  have guard : periods > s64Max / periodNs ↔ s64Max < periods * periodNs :=
    Nat.div_lt_iff_lt_mul period.1
  unfold outputAlignFirstEdge
  rw [if_neg (by omega), if_neg (by omega), distance]
  dsimp only
  rw [rounded_up _ period.1, covered]
  by_cases many : periods > s64Max / periodNs
  · have far := guard.mp many
    rw [if_pos many, if_neg (by omega)]
  have near : ¬s64Max < periods * periodNs := fun far => many (guard.mpr far)
  unfold s64Max at near fits
  rw [if_neg many, add_s64_stage (by omega) (by omega)]
  unfold s64Max
  by_cases sum : requestedNs + (periods * periodNs : Nat) ≤ 2 ^ 63 - 1
  · rw [if_pos (s64_fits (by omega) (by omega)), if_pos (by omega)]
  · rw [if_neg fun within => sum within.2, if_neg (by omega)]

theorem output_align_first_edge_yields (requested : 0 ≤ requestedNs) (fits : requestedNs ≤ s64Max)
    (limit : minFirstNs ≤ s64Max) (period : 0 < periodNs ∧ periodNs ≤ s64Max) :
    (Checked.outputAlignFirstEdge requestedNs minFirstNs periodNs).Yields
      (outputAlignFirstEdge requestedNs minFirstNs periodNs) := by
  unfold Checked.outputAlignFirstEdge
  by_cases early : requestedNs ≥ minFirstNs
  · rw [if_pos early, outputAlignFirstEdge, if_pos early]
    exact Calc.yields_pure _
  obtain ⟨delta, gap⟩ : ∃ delta : Nat, minFirstNs - requestedNs = delta :=
    Int.eq_ofNat_of_zero_le (by omega)
  have size : (minFirstNs - requestedNs).toNat = delta := by omega
  rw [if_neg early, if_neg (by omega),
    output_align_first_edge_eq requested fits limit period (by omega) rfl, size]
  unfold s64Max at fits limit
  rw [gap]
  apply (yields_hold (s64_fits (by omega) (by omega))).bind
  apply (yields_hold (u64_fits (by omega) (by omega))).bind
  apply (periods_to_cover_yields (by omega) period.1).bind
  apply (yields_whole (u64_fits (by unfold s64Max; omega) (by unfold s64Max; omega)) (by omega)).bind
  generalize CeilDiv.ceilDiv delta periodNs = periods
  have guard : periods > s64Max / periodNs ↔ s64Max < periods * periodNs :=
    Nat.div_lt_iff_lt_mul period.1
  by_cases many : periods > s64Max / periodNs
  · have far := guard.mp many
    rw [if_pos (by exact_mod_cast many), if_neg (by omega)]
    exact Calc.yields_pure _
  have near : ¬s64Max < periods * periodNs := fun far => many (guard.mpr far)
  rw [if_neg (by exact_mod_cast many)]
  generalize product : periods * periodNs = span at near
  have spanned : (periods : Int) * periodNs = span := by exact_mod_cast product
  unfold s64Max at near
  apply (yields_hold_as spanned (u64_fits (by omega) (by omega))).bind
  apply (yields_hold (s64_fits (by omega) (by omega))).bind
  have adds := @add_s64_yields requestedNs span (by omega) (by omega)
  rw [add_s64_stage (by omega) (by omega)] at adds
  apply adds.bind
  unfold s64Max
  by_cases sum : requestedNs + span ≤ 2 ^ 63 - 1
  · rw [if_pos (s64_fits (by omega) (by omega)), if_pos (by omega)]
    exact Calc.yields_pure _
  · rw [if_neg fun within => sum within.2, if_neg (by omega)]
    exact Calc.yields_pure _

/-- A request that is not too early is served at its own time; a stale one at the
first point of its grid that is not, while the clock has it. Nothing wraps. -/
theorem output_aligned_to_grid (requestedNs minFirstNs : Int) (periodNs : Nat)
    (requested : 0 ≤ requestedNs ∧ requestedNs ≤ s64Max)
    (limit : s64Min ≤ minFirstNs ∧ minFirstNs ≤ s64Max)
    (period : 1 ≤ periodNs ∧ periodNs ≤ s64Max) :
    (Checked.outputAlignFirstEdge requestedNs minFirstNs periodNs).Yields
        (outputAlignFirstEdge requestedNs minFirstNs periodNs) ∧
      (minFirstNs ≤ requestedNs →
        outputAlignFirstEdge requestedNs minFirstNs periodNs = requestedNs) ∧
      (requestedNs < minFirstNs →
        ∃ edge, IsLeast (laterEdges requestedNs periodNs ∩ Set.Ici minFirstNs) edge ∧
          outputAlignFirstEdge requestedNs minFirstNs periodNs =
            if edge ≤ s64Max then edge else minFirstNs) := by
  refine ⟨output_align_first_edge_yields requested.1 requested.2 limit.2 period, ?_, ?_⟩
  · exact fun early => if_pos early
  · intro stale
    exact ⟨_, first_edge_least period.1 stale,
      output_align_first_edge_eq requested.1 requested.2 limit.2 period stale rfl⟩

theorem output_aligned_to_grid_sevens :
    IsLeast (laterEdges 3 7 ∩ Set.Ici 20) (outputAlignFirstEdge 3 20 7) := by
  obtain ⟨edge, least, result⟩ :=
    (output_aligned_to_grid 3 20 7 (by decide) (by decide) (by decide)).2.2 (by decide)
  have first : edge ≤ 24 := least.2 ⟨⟨3, by decide, rfl⟩, by decide⟩
  have soon : edge ≤ s64Max := by
    unfold s64Max
    omega
  rw [result, if_pos soon]
  exact least

end alignment

end Tgpio

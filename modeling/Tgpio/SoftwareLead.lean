import Tgpio.OutputAlone
import Tgpio.PhcSpans
import Tgpio.RequestTimes
import Tgpio.SoftwareEdges
import Mathlib.Data.Rat.Cast.Order

/-!
# The lead of the software path

A software edge is programmed by a wake-up that is to come after the edge before
it and before the edge itself. The edges advance in clock time, the wake-ups by
the real time of the same intervals in whole nanoseconds, so every wake-up is a
little further ahead of its edge than the last.
-/

namespace Tgpio

open Interference Interference.Prog Scaling

set_option autoImplicit false

/-! ## Edges and wake-ups -/

/-- What an arm of the software path goes by: one reading of both clocks, the
first edge, and the two halves. -/
structure WakePlan where
  nowNs : Int
  realNs : Int
  ppb : Int
  firstNs : Int
  highNs : Nat
  lowNs : Nat

namespace WakePlan

variable (plan : WakePlan)

def rate : Nat := ((nsecPerSec : Int) + plan.ppb).toNat

def leadNs : Nat := armLeadNs .software (outputMinIntervalNs plan.highNs plan.lowNs)

def delayNs : Nat := (plan.firstNs - plan.leadNs - plan.nowNs).toNat

def intervalNs (edge : Nat) : Nat := if edgeKind edge = .rise then plan.highNs else plan.lowNs

def edgeNs : Nat → Int
  | 0 => plan.firstNs
  | edge + 1 => edgeNs edge + plan.intervalNs edge

def wakeNs : Nat → Int
  | 0 => plan.realNs + undoneNs plan.ppb plan.delayNs
  | edge + 1 => wakeNs edge + undoneNs plan.ppb (plan.intervalNs edge)

/-- The real time at which the clock shows a time. -/
def realTime (clockNs : Int) : ℚ :=
  plan.realNs + (clockNs - plan.nowNs) * 10 ^ 9 / (10 ^ 9 + plan.ppb)

/-- What the conversion of an interval drops, a nanosecond being the rate. -/
def lost (ns : Nat) : Nat := ns * nsecPerSec % plan.rate

/-- What has been dropped up to a wake-up. -/
def lostBy : Nat → Nat
  | 0 => plan.lost plan.delayNs
  | edge + 1 => lostBy edge + plan.lost (plan.intervalNs edge)

/-- The lead and what has been dropped until the wake-up after an edge leave
something of the interval after it. -/
def Keeps (edge : Nat) : Prop :=
  plan.leadNs * nsecPerSec + plan.lostBy (edge + 1) < plan.intervalNs edge * nsecPerSec

instance (edge : Nat) : Decidable (plan.Keeps edge) := inferInstanceAs (Decidable (_ < _))

variable {plan}

theorem undone_lost (ns : Nat) :
    undoneNs plan.ppb ns * plan.rate + plan.lost ns = ns * nsecPerSec := by
  unfold undoneNs down lost rate
  rw [Nat.mul_comm (_ / _)]
  exact Nat.div_add_mod _ _

theorem edge_ahead (ahead : plan.nowNs ≤ plan.firstNs - plan.leadNs) (edge : Nat) :
    (plan.edgeNs edge - plan.nowNs) * nsecPerSec =
      (plan.wakeNs edge - plan.realNs) * plan.rate +
        ((plan.leadNs * nsecPerSec + plan.lostBy edge : Nat) : Int) := by
  induction edge with
  | zero =>
      have split := @undone_lost plan plan.delayNs
      have delay : (plan.delayNs : Int) = plan.firstNs - plan.leadNs - plan.nowNs :=
        Int.toNat_of_nonneg (by omega)
      zify at split
      rw [delay] at split
      unfold edgeNs wakeNs lostBy
      push_cast
      linarith
  | succ edge ih =>
      have split := @undone_lost plan (plan.intervalNs edge)
      zify at split
      unfold edgeNs wakeNs lostBy
      push_cast at ih ⊢
      linarith

theorem rate_cast (positive : 0 < plan.rate) : (plan.rate : ℚ) = 10 ^ 9 + plan.ppb := by
  have whole : ((plan.rate : Nat) : Int) = nsecPerSec + plan.ppb :=
    Int.toNat_of_nonneg (by unfold rate at positive; omega)
  have cast : ((plan.rate : Int) : ℚ) = ((nsecPerSec + plan.ppb : Int) : ℚ) := by rw [whole]
  unfold nsecPerSec at cast
  push_cast at cast
  linarith

theorem real_time_lt_iff (positive : 0 < plan.rate) (clockNs realNs : Int) :
    plan.realTime clockNs < realNs ↔
      (clockNs - plan.nowNs) * nsecPerSec < (realNs - plan.realNs) * plan.rate := by
  have ratePositive : (0 : ℚ) < plan.rate := by exact_mod_cast positive
  unfold realTime
  rw [← rate_cast positive, ← lt_sub_iff_add_lt', div_lt_iff₀ ratePositive]
  unfold nsecPerSec
  norm_cast

theorem lt_real_time_iff (positive : 0 < plan.rate) (clockNs realNs : Int) :
    (realNs : ℚ) < plan.realTime clockNs ↔
      (realNs - plan.realNs) * plan.rate < (clockNs - plan.nowNs) * nsecPerSec := by
  have ratePositive : (0 : ℚ) < plan.rate := by exact_mod_cast positive
  unfold realTime
  rw [← rate_cast positive, ← sub_lt_iff_lt_add', lt_div_iff₀ ratePositive]
  unfold nsecPerSec
  norm_cast

theorem lead_positive : 0 < plan.leadNs := (arm_lead_bounds .software _).1

/-- A wake-up comes before its edge, however long the run. -/
theorem wake_before_edge (positive : 0 < plan.rate) (ahead : plan.nowNs ≤ plan.firstNs - plan.leadNs)
    (edge : Nat) : (plan.wakeNs edge : ℚ) < plan.realTime (plan.edgeNs edge) := by
  have distance := edge_ahead ahead edge
  have lead := @lead_positive plan
  rw [lt_real_time_iff positive]
  unfold nsecPerSec at distance ⊢
  omega

/-- It comes after the edge before while the interval outlasts the lead and what
has been dropped. -/
theorem wake_after_edge_iff (positive : 0 < plan.rate)
    (ahead : plan.nowNs ≤ plan.firstNs - plan.leadNs) (edge : Nat) :
    plan.realTime (plan.edgeNs edge) < plan.wakeNs (edge + 1) ↔ plan.Keeps edge := by
  have distance := edge_ahead ahead (edge + 1)
  have next : plan.edgeNs (edge + 1) = plan.edgeNs edge + plan.intervalNs edge := rfl
  rw [next] at distance
  rw [real_time_lt_iff positive, Keeps]
  zify
  rw [add_sub_right_comm, add_mul] at distance
  push_cast at distance
  omega

theorem lost_by_two (edge : Nat) :
    plan.lostBy (edge + 2) = plan.lostBy edge + (plan.lost plan.highNs + plan.lost plan.lowNs) := by
  have kinds : edgeKind edge = .rise ∧ edgeKind (edge + 1) = .fall ∨
      edgeKind edge = .fall ∧ edgeKind (edge + 1) = .rise := by
    rw [edge_kind_succ]
    cases edgeKind edge with
    | rise => exact .inl ⟨rfl, rfl⟩
    | fall => exact .inr ⟨rfl, rfl⟩
  change plan.lostBy edge + plan.lost (plan.intervalNs edge) +
    plan.lost (plan.intervalNs (edge + 1)) = _
  unfold intervalNs
  rcases kinds with ⟨first, second⟩ | ⟨first, second⟩
  · rw [first, second, if_pos rfl, if_neg (by decide)]
    omega
  · rw [first, second, if_neg (by decide), if_pos rfl]
    omega

theorem lost_by_even (periods : Nat) :
    plan.lostBy (2 * periods) =
      plan.lost plan.delayNs + periods * (plan.lost plan.highNs + plan.lost plan.lowNs) := by
  induction periods with
  | zero => simp [lostBy]
  | succ periods ih =>
      rw [Nat.mul_succ, lost_by_two, ih, Nat.succ_mul]
      omega

theorem keeps_even {periods : Nat} (keeps : plan.Keeps (2 * periods)) :
    periods * (plan.lost plan.highNs + plan.lost plan.lowNs) < plan.highNs * nsecPerSec := by
  have rising : plan.intervalNs (2 * periods) = plan.highNs :=
    if_pos (if_pos (Nat.mul_mod_right 2 _))
  have next : plan.lostBy (2 * periods + 1) =
      plan.lostBy (2 * periods) + plan.lost (plan.intervalNs (2 * periods)) := rfl
  unfold Keeps at keeps
  rw [next, rising, lost_by_even] at keeps
  omega

/-- For good only if the intervals convert exactly. -/
theorem keeps_always_iff :
    (∀ edge, plan.Keeps edge) ↔ plan.lost plan.highNs = 0 ∧ plan.lost plan.lowNs = 0 ∧
      plan.leadNs * nsecPerSec + plan.lost plan.delayNs <
        min plan.highNs plan.lowNs * nsecPerSec := by
  constructor
  · intro keeps
    have none_ : plan.lost plan.highNs + plan.lost plan.lowNs = 0 := by
      by_contra some_
      have late := keeps_even (keeps (2 * (plan.highNs * nsecPerSec)))
      have many := Nat.le_mul_of_pos_right (plan.highNs * nsecPerSec) (Nat.pos_of_ne_zero some_)
      omega
    have high : plan.lost plan.highNs = 0 := by omega
    have low : plan.lost plan.lowNs = 0 := by omega
    have first : plan.leadNs * nsecPerSec + (plan.lost plan.delayNs + plan.lost plan.highNs) <
        plan.highNs * nsecPerSec := keeps 0
    have second : plan.leadNs * nsecPerSec +
        (plan.lost plan.delayNs + plan.lost plan.highNs + plan.lost plan.lowNs) <
          plan.lowNs * nsecPerSec := keeps 1
    refine ⟨high, low, ?_⟩
    rw [← Nat.mul_min_mul_right]
    omega
  · rintro ⟨high, low, room⟩ edge
    have dropped (edge : Nat) : plan.lostBy edge = plan.lost plan.delayNs := by
      induction edge with
      | zero => rfl
      | succ edge ih =>
          change plan.lostBy edge + plan.lost (plan.intervalNs edge) = _
          unfold intervalNs
          split
          · rw [ih, high, Nat.add_zero]
          · rw [ih, low, Nat.add_zero]
    unfold Keeps
    rw [dropped]
    rw [← Nat.mul_min_mul_right] at room
    unfold intervalNs
    split <;> omega

end WakePlan

end Tgpio

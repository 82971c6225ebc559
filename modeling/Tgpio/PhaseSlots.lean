import Mathlib.Data.Nat.Cast.Order.Field
import Tgpio.RealtimePlaces
import Tgpio.TickOutcomes

/-!
# Rises and falls on the half-period grid

A refine tick measures the pending edge against the nearest point of the grid of
half periods, and the points alternate: even ones are for rises, odd ones for
falls. In realtime mode nothing tells the driver that `CLOCK_REALTIME` has been
set; the next tick measures against the grid where it now is, and what it reads
is near the exact place of the edge.
-/

namespace Tgpio

open Interference Interference.Prog Scaling

set_option autoImplicit false

def OutputDesired.slot (desired : OutputDesired) (index : Int) : Int :=
  desired.firstEdgeNs + index * desired.highTimeNs

/-- The points for the edge that follows a level: a rise is due at the even
ones. -/
def OwnSlot (flop : Bool) (index : Int) : Prop := index % 2 = if flop then 1 else 0

structure Symmetric (desired : OutputDesired) : Prop where
  running : desired.run = .running
  hardware : desired.mode = .hardware
  halves : desired.lowTimeNs = desired.highTimeNs
  period : desired.periodNs = 2 * desired.highTimeNs

section measure

variable (desired : OutputDesired)

def Nearest (place : Int) (index : Int) : Prop :=
  -(desired.highTimeNs : Int) ≤ 2 * (place - desired.slot index) ∧
    2 * (place - desired.slot index) ≤ desired.highTimeNs

/-- A phase that a tick leaves alone. -/
structure LeftAlone (params : Params) (clocks : Clocks) (phase : HwPhase) : Prop where
  kept : ¬absS64 phase.errorNs > desired.highTimeNs / 4
  inside : phase.errorNs > -deadband params clocks ∧ phase.errorNs < deadband params clocks

def OnOwnGrid (flop : Bool) (tolerance : Int) (phase : HwPhase) : Prop :=
  ∃ k : Int, |phase.pendingNs - (desired.firstEdgeNs + k * desired.periodNs +
    (if flop then (desired.highTimeNs : Int) else 0))| < tolerance

/-- Put back by what it has strayed, the pending edge is less than `distance`
nanoseconds from a point for its own kind. -/
def NearOwn (distance strayed : ℚ) (m : Machine) : Prop :=
  ∃ index : Int, OwnSlot m.flop index ∧
    |exactPlace m.clocks m.regs.compv.toNat - strayed - desired.slot index| < distance

end measure

/-- The margins of an output: a conversion is within `blur` nanoseconds, and
between two live readings the pending edge strays by no more than `reserve`. -/
structure Allowance (desired : OutputDesired) where
  blur : ℚ
  reserve : ℚ
  roomy : 2 * (reserve + 2 * blur) < desired.highTimeNs

/-- How far from a point for its kind an edge may be put: with the margins, it is
then farther than a quarter of the high time from the points for the other kind. -/
def Allowance.limit {desired : OutputDesired} (allowance : Allowance desired) : ℚ :=
  3 / 4 * desired.highTimeNs - allowance.blur - allowance.reserve

/-! ## A live reading -/

section measuring

variable {params : Params} {clocks : Clocks}

theorem phase_error_slot {place grid : Int} {half : Nat} (positive : 0 < half)
    (after : grid ≤ place) (inside : place - grid < 2 ^ 64) :
    ∃ index : Int, place = grid + index * half + phaseError place grid half ∧
      -(half : Int) ≤ 2 * phaseError place grid half ∧ 2 * phaseError place grid half ≤ half := by
  have counted : (toU64 (place - grid) : Int) = place - grid :=
    to_u64_of_range (by omega) inside
  have parts := Nat.div_add_mod (toU64 (place - grid)) half
  have below := Nat.mod_lt (toU64 (place - grid)) positive
  unfold phaseError
  dsimp only
  generalize toU64 (place - grid) % half = rem at parts below ⊢
  generalize toU64 (place - grid) / half = quotient at parts
  have whole : (half : Int) * quotient + rem = place - grid := by
    rw [← counted, ← parts]
    push_cast
    ring
  split
  · refine ⟨quotient + 1, ?_, by omega, by omega⟩
    linarith
  · refine ⟨quotient, ?_, by omega, by omega⟩
    linarith

theorem phase_refine_eq {compv : Nat} {place slot : Int} (lower : -(2 ^ 63) ≤ place)
    (upper : place < 2 ^ 63) :
    phaseRefine compv (clockNsToCompareArt params clocks slot)
      (pointDistance params clocks compv (clockNsToCompareArt params clocks slot)) place
      (place - slot) =
      (toS64 (slot + slotError params clocks compv place slot),
        slotError params clocks compv place slot) := by
  have still : toS64 place = place := to_s64_of_range lower upper
  unfold phaseRefine slotError pointDistance
  cases clockNsToCompareArt params clocks slot with
  | error status => simp [still]
  | ok target =>
      dsimp only
      generalize clockArtCyclesToDeltaNs params clocks _ = converted
      cases converted with
      | error status => simp [still]
      | ok exact =>
          dsimp only
          split
          · simp [sub_sub_cancel]
          · simp [still]

theorem phase_pending_live {physical : S64Result} {real offset grid place now : Int} {half : Nat}
    (live : phasePending physical (.ok real) offset grid half = .ok (place, now)) :
    now = real ∧ 0 ≤ real ∧ (∃ time, physical = .ok time ∧
      addS64 time (toS64 (-offset)) = .ok place) ∧ grid ≤ place ∧ toS64 (real - half) ≤ place ∧
        toS64 (place - real) ≤ (4 * half : Nat) := by
  unfold phasePending at live
  cases physical with
  | error status => contradiction
  | ok time =>
      dsimp only at live
      split at live
      · contradiction
      · cases added : addS64 time (toS64 (-offset)) with
        | error status => simp [added] at live
        | ok sum =>
            rw [added] at live
            dsimp only at live
            split at live
            · contradiction
            · split at live
              · contradiction
              · cases live
                refine ⟨rfl, by omega, ⟨time, rfl, added⟩, by omega, ?_, ?_⟩ <;> omega

variable {desired : OutputDesired} {allowance : Allowance desired} {blur : ℚ} {compv : Nat}
  {phase : HwPhase} {place index : Int}

structure Read (desired : OutputDesired) (params : Params) (clocks : Clocks) (compv : Nat)
    (phase : HwPhase) (place index : Int) : Prop where
  placed : edgePlace params clocks compv = .ok place
  nearest : Nearest desired place index
  error : phase.errorNs = slotError params clocks compv place (desired.slot index)
  pending : phase.pendingNs = toS64 (desired.slot index + phase.errorNs)
  early : clocks.real - desired.highTimeNs ≤ place
  late : place ≤ clocks.real + 4 * desired.highTimeNs
  era : 0 ≤ clocks.real
  positive : 0 < desired.highTimeNs
  small : desired.highTimeNs ≤ s64Max / 4
  start : 0 ≤ desired.firstEdgeNs
  after : desired.firstEdgeNs ≤ place

theorem grid_phase_read (wide : Wide desired blur params clocks)
    (measured : gridPhase params clocks desired.firstEdgeNs desired.highTimeNs compv = .ok phase) :
    ∃ place index, Read desired params clocks compv phase place index := by
  have now : clockNowNs params clocks = .ok clocks.real := by
    unfold clockNowNs
    rw [wide.realtime]
    rfl
  unfold gridPhase at measured
  rw [now] at measured
  split at measured
  · contradiction
  rename_i sensible
  split at measured
  · contradiction
  split at measured
  · contradiction
  rename_i place _ live
  obtain ⟨_, era, ⟨time, physical, moved⟩, after, early, late⟩ := phase_pending_live live
  have placed : edgePlace params clocks compv = .ok place := by
    unfold edgePlace
    rw [physical]
    exact moved
  have room := wide.inRange
  have bound := (wide.edge_place placed).2.2
  unfold s64Max at room bound sensible
  rw [to_s64_of_range (by omega) (by omega)] at early late
  obtain ⟨index, whole, lower, upper⟩ :=
    @phase_error_slot place desired.firstEdgeNs desired.highTimeNs (by omega) after (by omega)
  have error : phaseError place desired.firstEdgeNs desired.highTimeNs =
      place - desired.slot index := by
    unfold OutputDesired.slot
    omega
  have aligned : toS64 (place - phaseError place desired.firstEdgeNs desired.highTimeNs) =
      desired.slot index := by
    rw [to_s64_of_range (by omega) (by omega), error]
    ring
  dsimp only at measured
  rw [aligned, error, wide.realtime, if_neg (by simp),
    phase_refine_eq (by omega) (by omega)] at measured
  cases measured
  rw [error] at lower upper
  refine ⟨place, index, placed, ⟨lower, upper⟩, rfl, rfl, by omega, ?_, era, by omega, ?_,
    by omega, after⟩
  · push_cast at late
    omega
  · unfold s64Max
    omega

theorem Read.slot_inside (read : Read desired params clocks compv phase place index)
    (wide : Wide desired blur params clocks) :
    0 ≤ desired.slot index ∧ desired.slot index ≤ s64Max := by
  obtain ⟨lower, upper⟩ := read.nearest
  have room := wide.inRange
  have late := read.late
  have after := read.after
  have start := read.start
  have positive := read.positive
  refine ⟨?_, by omega⟩
  have below : 0 ≤ index := by
    by_contra before
    have step : index * (desired.highTimeNs : Int) ≤ -1 * desired.highTimeNs :=
      Int.mul_le_mul_of_nonneg_right (by omega) (by omega)
    unfold OutputDesired.slot at upper
    omega
  unfold OutputDesired.slot
  positivity

theorem Read.close (read : Read desired params clocks compv phase place index) :
    (desired.slot index + clocks.outputPhaseOffsetNs - clocks.real).natAbs ≤
      reachNs clocks desired := by
  obtain ⟨lower, upper⟩ := read.nearest
  have early := read.early
  have late := read.late
  unfold reachNs
  omega

/-- The error read is the exact one, to within the blur. -/
theorem Read.error_near (read : Read desired params clocks compv phase place index)
    (wide : Wide desired blur params clocks) :
    |(phase.errorNs : ℚ) - (exactPlace clocks compv - desired.slot index)| ≤ blur := by
  rw [read.error]
  exact wide.slot_error read.placed (read.slot_inside wide) read.close

theorem Read.kept (read : Read desired params clocks compv phase place index)
    (wide : Wide desired blur params clocks)
    (kept : ¬absS64 phase.errorNs > desired.highTimeNs / 4) :
    phase.errorNs.natAbs ≤ desired.highTimeNs / 4 ∧
      phase.pendingNs = desired.slot index + phase.errorNs ∧
      phase.aligned = desired.slot index := by
  obtain ⟨first, last⟩ := read.slot_inside wide
  obtain ⟨lower, upper⟩ := read.nearest
  have room := wide.inRange
  have late := read.late
  have early := read.early
  have era := read.era
  have size : absS64 phase.errorNs = phase.errorNs.natAbs := by
    have bound : -(2 ^ 63) ≤ phase.errorNs ∧ phase.errorNs < 2 ^ 63 := by
      rw [read.error]
      unfold slotError
      unfold s64Max at room ⊢
      split
      · omega
      · split
        · omega
        · split
          · split <;> omega
          · omega
    exact abs_s64_eq bound.1 bound.2
  unfold s64Max at room last
  rw [size] at kept
  have pending : phase.pendingNs = desired.slot index + phase.errorNs := by
    rw [read.pending]
    exact to_s64_of_range (by omega) (by omega)
  refine ⟨by omega, pending, ?_⟩
  rw [HwPhase.aligned, pending, add_sub_cancel_right]
  exact to_s64_of_range (by omega) (by omega)

theorem Read.at_point (read : Read desired params clocks compv phase place index)
    (wide : Wide desired blur params clocks)
    (kept : ¬absS64 phase.errorNs > desired.highTimeNs / 4) :
    |exactPlace clocks compv - desired.slot index| ≤ desired.highTimeNs / 4 + blur := by
  have small : |(phase.errorNs : ℚ)| ≤ desired.highTimeNs / 4 := by
    have natural := (read.kept wide kept).1
    have quarter : ((desired.highTimeNs / 4 : Nat) : ℚ) ≤ desired.highTimeNs / 4 := Nat.cast_div_le
    calc |(phase.errorNs : ℚ)| = phase.errorNs.natAbs := by rw [Nat.cast_natAbs, Int.cast_abs]
      _ ≤ (desired.highTimeNs / 4 : Nat) := by exact_mod_cast natural
      _ ≤ desired.highTimeNs / 4 := quarter
  have near := read.error_near wide
  rw [abs_le] at small near ⊢
  constructor <;> linarith

theorem slots_apart {first second : Int} (positive : 0 < desired.highTimeNs)
    (close : |(desired.slot first : ℚ) - desired.slot second| < desired.highTimeNs) :
    first = second := by
  have half : (0 : ℚ) < desired.highTimeNs := by exact_mod_cast positive
  have difference : (desired.slot first : ℚ) - desired.slot second =
      ((first - second : Int) : ℚ) * desired.highTimeNs := by
    unfold OutputDesired.slot
    push_cast
    ring
  rw [difference, abs_mul, abs_of_pos half, mul_lt_iff_lt_one_left half] at close
  have none : |first - second| < 1 := by exact_mod_cast close
  rw [Int.abs_lt_one_iff] at none
  omega

theorem Allowance.half_wide (allowance : Allowance desired) :
    desired.highTimeNs / 4 + allowance.blur < allowance.limit := by
  have roomy := allowance.roomy
  unfold Allowance.limit
  linarith

/-- What is not sent back is at a point for its own kind, if it has not strayed
too far. -/
theorem Read.own {m : Machine} {strayed : ℚ}
    (read : Read desired m.params m.clocks m.regs.compv.toNat phase place index)
    (wide : Wide desired allowance.blur m.params m.clocks) (inside : |strayed| ≤ allowance.reserve)
    (near : NearOwn desired allowance.limit strayed m)
    (kept : ¬absS64 phase.errorNs > desired.highTimeNs / 4) : OwnSlot m.flop index := by
  obtain ⟨other, own, close⟩ := near
  have point := read.at_point wide kept
  have same : index = other := by
    apply slots_apart read.positive
    unfold Allowance.limit at close
    rw [abs_le] at point inside
    rw [abs_lt] at close ⊢
    constructor <;> linarith
  rwa [same]

theorem Read.on_own_grid {flop : Bool} (read : Read desired params clocks compv phase place index)
    (wide : Wide desired blur params clocks) (own : OwnSlot flop index)
    (period : desired.periodNs = 2 * desired.highTimeNs)
    (alone : LeftAlone desired params clocks phase) :
    OnOwnGrid desired flop (deadband params clocks) phase := by
  obtain ⟨_, pending, _⟩ := read.kept wide alone.kept
  obtain ⟨above, below⟩ := alone.inside
  refine ⟨index / 2, ?_⟩
  have parts := Int.mul_ediv_add_emod index 2
  rw [own] at parts
  have distance : phase.pendingNs - (desired.firstEdgeNs + index / 2 * desired.periodNs +
      (if flop then (desired.highTimeNs : Int) else 0)) = phase.errorNs := by
    rw [pending, period]
    unfold OutputDesired.slot
    generalize index / 2 = k at parts
    subst parts
    push_cast
    cases flop
    · simp only [Bool.false_eq_true, if_false]
      ring
    · simp only [if_true]
      ring
  rw [distance, abs_lt]
  exact ⟨by omega, below⟩

end measuring

end Tgpio

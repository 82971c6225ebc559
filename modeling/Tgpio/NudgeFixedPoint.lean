import Tgpio.NudgeWindow
import Tgpio.PhcQuantization

/-!
# A tick after a nudge

A nudge writes the compare value of a point of the grid, which is a whole number
of ART cycles. The next tick reads that value back: what is left of the error is
the rounding to a cycle, and the tick writes again when the dead-band does not
cover it.
-/

namespace Tgpio

open Interference Interference.Prog Scaling

set_option autoImplicit false

/-- A pending edge that a tick would write to, were it far enough off the grid. -/
structure Nudgeable (desired : OutputDesired) (compv : Nat) (placeNs nowNs : Int) : Prop where
  compare : compv ≠ 0 ∧ compv ≤ u64Max - artHwDelayCycles
  started : 0 ≤ nowNs
  onGrid : desired.firstEdgeNs ≤ placeNs
  live : toS64 (nowNs - desired.highTimeNs) ≤ placeNs ∧
    toS64 (placeNs - nowNs) ≤ (4 * desired.highTimeNs : Nat)
  safe : toS64 (nowNs + outputSafeTimeNs) ≤ placeNs

section grid

theorem phase_error_exact {place grid index error : Int} {half : Nat} (positive : 0 < half)
    (isPlace : place = grid + index * half + error) (small : error.natAbs ≤ half / 4)
    (after : grid ≤ place) (inside : place - grid < 2 ^ 64) :
    phaseError place grid half = error := by
  obtain ⟨other, same, lower, upper⟩ := phase_error_slot positive after inside
  have gap : (other - index) * half = error - phaseError place grid half := by linarith
  rcases lt_trichotomy other index with earlier | rfl | later
  · have steps := mul_le_mul_of_nonneg_right (by omega : other - index ≤ -1)
      (Int.natCast_nonneg half)
    omega
  · rw [sub_self, zero_mul] at gap
    omega
  · have steps := mul_le_mul_of_nonneg_right (by omega : 1 ≤ other - index)
      (Int.natCast_nonneg half)
    omega

end grid

section rounding

variable {params : Params} {clocks : Clocks}

/-- The rates for which the rounding is bounded here. -/
structure Crystal (phc : PhcParams) : Prop where
  rate : 1000000 ≤ phc.baseArtHz ∧ phc.baseArtHz ≤ 100000000
  adjustment : -phcMaxAdjPpb ≤ scaledPpmToPpb phc.scaledPpm ∧
    scaledPpmToPpb phc.scaledPpm ≤ phcMaxAdjPpb
  anchor : 0 ≤ phc.anchorNs ∧ phc.anchorNs < 2 ^ 63

theorem Crystal.anchor_s64 {phc : PhcParams} (crystal : Crystal phc) :
    -(2 ^ 63) ≤ phc.anchorNs ∧ phc.anchorNs < 2 ^ 63 := by
  have anchor := crystal.anchor
  omega

theorem Crystal.modest {phc : PhcParams} (crystal : Crystal phc) :
    Modest phc.baseArtHz (scaledPpmToPpb phc.scaledPpm) := by
  obtain ⟨rate, adjustment, -⟩ := crystal
  exact ⟨by omega, by unfold nsecPerSec; omega, adjustment.1, adjustment.2⟩

theorem Crystal.half_cycle {phc : PhcParams} (crystal : Crystal phc) :
    ⌈halfCycleNs phc.baseArtHz (scaledPpmToPpb phc.scaledPpm)⌉ ≤ 550 := by
  have rate := crystal.rate.1
  have fast : scaledPpmToPpb phc.scaledPpm ≤ 100000000 := crystal.adjustment.2
  rw [Int.ceil_le]
  unfold halfCycleNs
  have cycles : (1000000 : ℚ) ≤ phc.baseArtHz := by exact_mod_cast rate
  have adjusted : (scaledPpmToPpb phc.scaledPpm : ℚ) ≤ 100000000 := by exact_mod_cast fast
  rw [div_le_iff₀ (by linarith)]
  push_cast
  linarith

theorem Crystal.delay {phc : PhcParams} (crystal : Crystal phc) :
    cyclesTime phc.baseArtHz (scaledPpmToPpb phc.scaledPpm) artHwDelayCycles ≤ 2201 := by
  have rate := crystal.rate.1
  have base : down artHwDelayCycles phc.baseArtHz nsecPerSec ≤ 2000 := by
    unfold down artHwDelayCycles nsecPerSec
    exact Nat.div_le_of_le_mul (by omega)
  have bounds := adjusted_bounds (down artHwDelayCycles phc.baseArtHz nsecPerSec) crystal.modest
  have fast := crystal.modest.pace.2.2
  unfold cyclesTime
  have product := Nat.mul_le_mul base fast
  unfold nsecPerSec at *
  omega

theorem compare_parts {ns : Int} {target : Nat} (model : params.clockUsesModel = true)
    (converted : clockNsToCompareArt params clocks ns = .ok target) :
    ∃ shifted art, addS64 ns clocks.outputPhaseOffsetNs = .ok shifted ∧
      phcNsToArt clocks.phc shifted = .ok art ∧
      target = if art > artHwDelayCycles then art - artHwDelayCycles else art := by
  unfold clockNsToCompareArt at converted
  cases shifts : addS64 ns clocks.outputPhaseOffsetNs with
  | error status =>
      rw [shifts] at converted
      contradiction
  | ok shifted =>
      rw [shifts] at converted
      unfold clockNsToArt at converted
      dsimp only at converted
      rw [if_pos model] at converted
      cases counts : phcNsToArt clocks.phc shifted with
      | error status =>
          rw [counts] at converted
          contradiction
      | ok art =>
          rw [counts] at converted
          cases converted
          exact ⟨shifted, art, rfl, counts, rfl⟩

theorem place_parts {compv : Nat} {place : Int} (model : params.clockUsesModel = true)
    (placed : edgePlace params clocks compv = .ok place) :
    ∃ physical, phcArtToNs clocks.phc (compv + artHwDelayCycles) = .ok physical ∧
      addS64 physical (toS64 (-clocks.outputPhaseOffsetNs)) = .ok place := by
  unfold edgePlace clockArtToNs clockPhcArtToNs at placed
  rw [if_pos model] at placed
  cases reads : phcArtToNs clocks.phc (compv + artHwDelayCycles) with
  | error status =>
      rw [reads] at placed
      contradiction
  | ok physical =>
      rw [reads] at placed
      exact ⟨physical, rfl, placed⟩

theorem place_near {ns place : Int} {target : Nat} (model : params.clockUsesModel = true)
    (crystal : Crystal clocks.phc)
    (offset : -(2 ^ 63) < clocks.outputPhaseOffsetNs ∧ clocks.outputPhaseOffsetNs < 2 ^ 63)
    (range : -(2 ^ 63) ≤ ns ∧ ns < 2 ^ 63)
    (converted : clockNsToCompareArt params clocks ns = .ok target)
    (placed : edgePlace params clocks target = .ok place) : (place - ns).natAbs ≤ 2757 := by
  obtain ⟨shifted, art, shifts, counts, isTarget⟩ := compare_parts model converted
  obtain ⟨physical, reads, added⟩ := place_parts model placed
  obtain ⟨isShifted, inside⟩ := add_s64_eq shifts
  obtain ⟨isPlace, -⟩ := add_s64_eq added
  rw [to_s64_of_range (by omega) (by omega)] at isPlace
  have back := abs_le.mp (phc_time_read_back crystal.modest crystal.anchor clocks.anchorInRange
    (inside range.1 range.2) counts)
  have half := crystal.half_cycle
  have time := (phc_art_to_ns_eq crystal.modest reads).1
  rw [isTarget] at time
  by_cases early : art > artHwDelayCycles
  · rw [if_pos early, Nat.sub_add_cancel early.le] at time
    omega
  · rw [if_neg early] at time
    have span := phc_time_span crystal.modest (Nat.le_add_right art artHwDelayCycles)
    have order := phc_time_mono crystal.modest (Nat.le_add_right art artHwDelayCycles)
    have delay := crystal.delay
    rw [Nat.add_sub_cancel_left] at span
    dsimp only at span
    omega

end rounding

section settling

variable {desired : OutputDesired} {m t : Machine} {later : Clocks} {phase : HwPhase}
  {target : Nat} {now : Int}

theorem target_lt {params : Params} {clocks : Clocks} {ns : Int}
    (model : params.clockUsesModel = true)
    (converted : clockNsToCompareArt params clocks ns = .ok target) : target < 2 ^ 64 := by
  obtain ⟨shifted, art, -, counts, isTarget⟩ := compare_parts model converted
  have bound := phc_ns_to_art_lt counts
  rw [isTarget]
  split <;> omega

theorem model_now_range {params : Params} {clocks : Clocks} (model : params.clockUsesModel = true)
    (crystal : Crystal clocks.phc) (read : clockNowNs params clocks = .ok now) :
    now < 2 ^ 63 := by
  obtain ⟨art, -, counted⟩ := model_now model read
  exact (phc_art_to_ns_range crystal.anchor_s64 counted).2

theorem safe_half {params : Params} {clocks : Clocks} {compv : Nat}
    (model : params.clockUsesModel = true) (crystal : Crystal clocks.phc)
    (inRange : phase.pendingNs + 4 * desired.highTimeNs + outputSafeTimeNs < 2 ^ 63)
    (sighted : Sighted params clocks desired.firstEdgeNs desired.highTimeNs compv phase now)
    (safe : phase.nudgeSafe = true) : 5000000 ≤ desired.highTimeNs := by
  have upper := model_now_range model crystal sighted.read
  have half := sighted.half
  have started := sighted.started
  have grid := sighted.grid
  have onGrid := sighted.onGrid
  have live := sighted.live
  unfold s64Max at half
  rw [sighted.safe, decide_eq_true_eq] at safe
  rw [to_s64_of_range (by omega) (by omega)] at live
  rw [to_s64_of_range (by omega) (by omega)] at safe
  rw [to_s64_of_range (by omega) (by omega)] at live
  unfold outputSafeTimeNs nsecPerMsec at safe
  omega

theorem offset_above {params : Params} {clocks : Clocks} {compv : Nat} {place : Int}
    (model : params.clockUsesModel = true) (crystal : Crystal clocks.phc)
    (offset : -(2 ^ 63) ≤ clocks.outputPhaseOffsetNs ∧ clocks.outputPhaseOffsetNs < 2 ^ 63)
    (placed : edgePlace params clocks compv = .ok place) (started : 0 ≤ place) :
    -(2 ^ 63) < clocks.outputPhaseOffsetNs := by
  obtain ⟨physical, reads, added⟩ := place_parts model placed
  obtain ⟨isPlace, -⟩ := add_s64_eq added
  have inRange := phc_art_to_ns_range crystal.anchor_s64 reads
  by_contra least
  have same : clocks.outputPhaseOffsetNs = -(2 ^ 63) := by omega
  have wraps : toS64 (-clocks.outputPhaseOffsetNs) = -(2 ^ 63) := by
    rw [same]
    decide
  omega

theorem settles_iff (model : m.params.clockUsesModel = true) (crystal : Crystal m.clocks.phc)
    (offset : -(2 ^ 63) ≤ m.clocks.outputPhaseOffsetNs ∧ m.clocks.outputPhaseOffsetNs < 2 ^ 63)
    (inRange : phase.pendingNs + 4 * desired.highTimeNs + outputSafeTimeNs < 2 ^ 63)
    (sighted : Sighted m.params m.clocks desired.firstEdgeNs desired.highTimeNs
      m.regs.compv.toNat phase now)
    (near : phase.errorNs.natAbs ≤ desired.highTimeNs / 4)
    (wants : tickTarget m.params m.clocks phase = some target)
    (nudged : Ticks desired m (compareWrites target) t) (same : SameClock m.clocks later) :
    (∃ u, Ticks desired { t with clocks := later } [] u) ↔
      ∀ place laterNow, edgePlace m.params m.clocks target = .ok place →
        clockNowNs m.params later = .ok laterNow → Nudgeable desired target place laterNow →
        |place - phase.aligned| < deadband m.params m.clocks := by
  have half := sighted.half
  unfold s64Max at half
  have inside := edge_place_range model crystal.anchor_s64 sighted.placed
  have grid := sighted.grid
  have onGrid := sighted.onGrid
  have aligned : phase.aligned = phase.pendingNs - phase.errorNs :=
    to_s64_of_range (by omega) (by omega)
  obtain ⟨safe, converted⟩ := tick_target_some wants
  -- the first tick, and where it leaves COMPV
  have close : ¬absS64 phase.errorNs > desired.highTimeNs / 4 := by
    rw [abs_s64_eq (by omega) (by omega)]
    omega
  obtain ⟨t', ticks, isParams, -, isCompv⟩ :=
    @ticks_near desired m phase model sighted.model_phase close
  rw [wants] at ticks isCompv
  obtain ⟨rfl, -⟩ := nudged.unique ticks
  have compv : t'.regs.compv.toNat = target := by
    rw [isCompv target rfl, BitVec.toNat_ofNat, Nat.mod_eq_of_lt (target_lt model converted)]
  have fast := safe_half model crystal inRange sighted safe
  have positive : 0 < desired.highTimeNs := half.1
  have offsetAbove := offset_above model crystal offset sighted.placed (grid.trans onGrid)
  have small (place : Int) (placed : edgePlace m.params m.clocks target = .ok place) :
      (place - phase.aligned).natAbs ≤ desired.highTimeNs / 4 := by
    have near := place_near model crystal ⟨offsetAbove, offset.2⟩ (by omega) converted placed
    omega
  obtain ⟨index, onSlot, -, -⟩ :=
    @phase_error_slot phase.pendingNs desired.firstEdgeNs _ positive onGrid (by omega)
  rw [← sighted.error] at onSlot
  have measures (second : HwPhase) (laterNow : Int)
      (seen : Sighted m.params later desired.firstEdgeNs desired.highTimeNs target second
        laterNow) :
      second.errorNs = second.pendingNs - phase.aligned ∧
        ∃ u, Ticks desired { t' with clocks := later }
          (if |second.pendingNs - phase.aligned| < deadband m.params m.clocks ∨
              second.nudgeSafe = false then [] else compareWrites target) u := by
    have placed := seen.placed
    rw [same.place model] at placed
    have little := small _ placed
    have start := seen.onGrid
    have error : second.errorNs = second.pendingNs - phase.aligned := by
      rw [seen.error]
      exact @phase_error_exact _ _ index _ _ positive (by rw [aligned]; linarith) little start
        (by omega)
    refine ⟨error, ?_⟩
    have back : toS64 (second.pendingNs - second.errorNs) = phase.aligned := by
      rw [error, sub_sub_cancel]
      exact to_s64_of_range (by omega) (by omega)
    have wanted : tickTarget m.params later second =
        if |second.pendingNs - phase.aligned| < deadband m.params m.clocks ∨
          second.nudgeSafe = false then none else some target := by
      unfold tickTarget
      rw [same.deadband, same.compare model, back, converted, error]
      by_cases inside : |second.pendingNs - phase.aligned| < deadband m.params m.clocks
      · rw [if_pos (abs_lt.mp inside), if_pos (.inl inside)]
      · rw [if_neg fun bounds => inside (abs_lt.mpr bounds)]
        cases second.nudgeSafe with
        | false => simp
        | true => simp [inside]
    have model' : t'.params.clockUsesModel = true := by rw [isParams, model]
    have measured : modelPhase t'.params later desired.firstEdgeNs desired.highTimeNs
        t'.regs.compv.toNat = .ok second := by
      rw [isParams, compv]
      exact seen.model_phase
    obtain ⟨u, again, -⟩ := @ticks_near desired { t' with clocks := later } second model' measured
      (by rw [error, abs_s64_eq (by omega) (by omega)]; omega)
    have writes : (tickTarget t'.params later second).elim [] compareWrites =
        if |second.pendingNs - phase.aligned| < deadband m.params m.clocks ∨
          second.nudgeSafe = false then [] else compareWrites target := by
      rw [isParams, wanted]
      split <;> rfl
    exact ⟨u, writes ▸ again⟩
  constructor
  · rintro ⟨u, quiet⟩ place laterNow placed read nudgeable
    have seen : Sighted m.params later desired.firstEdgeNs desired.highTimeNs target
        ⟨place, place - phase.aligned, decide (place ≥ toS64 (laterNow + outputSafeTimeNs))⟩
        laterNow := by
      refine ⟨sighted.half, grid, nudgeable.compare, ?_, read, nudgeable.started,
        nudgeable.onGrid, nudgeable.live, ?_, rfl⟩
      · rw [same.place model]
        exact placed
      · have start := nudgeable.onGrid
        have little := small _ placed
        exact (@phase_error_exact _ _ index _ _ positive (by rw [aligned]; linarith) little start
          (by omega)).symm
    obtain ⟨-, v, again⟩ := measures _ _ seen
    have none_ := (quiet.unique again).2
    by_contra outside
    rw [if_neg (by
      rw [not_or]
      exact ⟨outside, by simpa using nudgeable.safe⟩)] at none_
    exact compare_writes_ne target none_
  · intro inside
    cases measured : modelPhase m.params later desired.firstEdgeNs desired.highTimeNs target with
    | error status =>
        have model' : t'.params.clockUsesModel = true := by rw [isParams, model]
        refine @ticks_blind desired { t' with clocks := later } status model' ?_
        change modelPhase t'.params later _ _ t'.regs.compv.toNat = _
        rw [isParams, compv]
        exact measured
    | ok second =>
        obtain ⟨laterNow, seen⟩ := sighted_of measured
        obtain ⟨error, u, again⟩ := measures _ _ seen
        have quiet : |second.pendingNs - phase.aligned| < deadband m.params m.clocks ∨
            second.nudgeSafe = false := by
          by_cases early : second.nudgeSafe = true
          · have placed := seen.placed
            rw [same.place model] at placed
            have before := seen.safe ▸ early
            exact .inl (inside _ _ placed seen.read ⟨seen.compare, seen.started, seen.onGrid,
              seen.live, by simpa using before⟩)
          · exact .inr (Bool.not_eq_true _ ▸ early)
        rw [if_pos quiet] at again
        exact ⟨u, again⟩

/-- A dead-band of one ART cycle, to the nearest nanosecond, covers the
rounding. -/
theorem cycle_covers_rounding {params : Params} {clocks : Clocks} {ns place : Int}
    (model : params.clockUsesModel = true) (crystal : Crystal clocks.phc)
    (offset : -(2 ^ 63) < clocks.outputPhaseOffsetNs ∧ clocks.outputPhaseOffsetNs < 2 ^ 63)
    (range : -(2 ^ 63) ≤ ns ∧ ns < 2 ^ 63)
    (converted : clockNsToCompareArt params clocks ns = .ok target)
    (late : artHwDelayCycles < target) (placed : edgePlace params clocks target = .ok place) :
    |place - ns| < divRoundClosest nsecPerSec clocks.phc.baseArtHz := by
  obtain ⟨shifted, art, shifts, counts, isTarget⟩ := compare_parts model converted
  obtain ⟨physical, reads, added⟩ := place_parts model placed
  obtain ⟨isShifted, within⟩ := add_s64_eq shifts
  obtain ⟨isPlace, -⟩ := add_s64_eq added
  rw [to_s64_of_range (by omega) (by omega)] at isPlace
  have early : art > artHwDelayCycles := by
    rw [isTarget] at late
    split at late <;> omega
  rw [isTarget, if_pos early, Nat.sub_add_cancel early.le] at reads
  have time := (phc_art_to_ns_eq crystal.modest reads).1
  have back := phc_time_read_back crystal.modest crystal.anchor clocks.anchorInRange
    (within range.1 range.2) counts
  have same : place - ns = phcTime clocks.phc art - shifted := by omega
  rw [same]
  refine back.trans_lt ?_
  have rate := crystal.rate
  have fast : scaledPpmToPpb clocks.phc.scaledPpm ≤ 100000000 := crystal.adjustment.2
  have rounded : (nsecPerSec : Int) + clocks.phc.baseArtHz / 2 <
      (divRoundClosest nsecPerSec clocks.phc.baseArtHz + 1) * clocks.phc.baseArtHz := by
    have above := Nat.lt_div_mul_add (a := nsecPerSec + clocks.phc.baseArtHz / 2)
      (by omega : 0 < clocks.phc.baseArtHz)
    rw [div_round_closest_word (by omega) (by decide)]
    zify at above ⊢
    linarith
  have cycles : (0 : ℚ) < 2 * clocks.phc.baseArtHz := by
    have positive : (0 : ℚ) < clocks.phc.baseArtHz := by exact_mod_cast (by omega)
    linarith
  have least : ⌈halfCycleNs clocks.phc.baseArtHz (scaledPpmToPpb clocks.phc.scaledPpm)⌉ ≤
      (divRoundClosest nsecPerSec clocks.phc.baseArtHz : Int) - 4 := by
    rw [Int.ceil_le]
    unfold halfCycleNs
    rw [div_le_iff₀ cycles]
    have whole : (1000000000 : Int) + scaledPpmToPpb clocks.phc.scaledPpm ≤
        ((divRoundClosest nsecPerSec clocks.phc.baseArtHz : Int) - 4) *
          (2 * clocks.phc.baseArtHz) := by
      have halved : (clocks.phc.baseArtHz : Int) ≤ 2 * (clocks.phc.baseArtHz / 2) + 1 := by omega
      have twice : (2 * nsecPerSec : Int) ≤
          2 * (divRoundClosest nsecPerSec clocks.phc.baseArtHz * clocks.phc.baseArtHz) +
            clocks.phc.baseArtHz := by linarith
      have second : (nsecPerSec : Int) = 1000000000 := rfl
      linarith [rate.2]
    exact_mod_cast whole
  omega

end settling

/-- The tick after a nudge, the clock parameters unchanged, leaves COMPV alone
exactly when the time that the written compare value reads back as is strictly
inside the dead-band of the grid, unless the edge is no longer one to nudge. A
dead-band of one ART cycle of the clock is enough. -/
theorem nudge_settles_iff {desired : OutputDesired} {m s t : Machine} {later : Clocks}
    {phase : HwPhase} {target : Nat} (model : m.params.clockUsesModel = true)
    (crystal : Crystal m.clocks.phc)
    (offset : -(2 ^ 63) ≤ m.clocks.outputPhaseOffsetNs ∧ m.clocks.outputPhaseOffsetNs < 2 ^ 63)
    (measured : Executes (alone Machine.perform)
      (hwPeriodicPhaseGet desired.firstEdgeNs desired.highTimeNs) m (.ok phase) s)
    (inRange : phase.pendingNs + 4 * desired.highTimeNs + outputSafeTimeNs < 2 ^ 63)
    (near : phase.errorNs.natAbs ≤ desired.highTimeNs / 4)
    (wants : tickTarget m.params m.clocks phase = some target)
    (nudged : Ticks desired m (compareWrites target) t) (same : SameClock m.clocks later) :
    ((∃ u, Ticks desired { t with clocks := later } [] u) ↔
      ∀ place laterNow, edgePlace m.params m.clocks target = .ok place →
        clockNowNs m.params later = .ok laterNow → Nudgeable desired target place laterNow →
        |place - phase.aligned| < deadband m.params m.clocks) ∧
    (artHwDelayCycles < target →
      divRoundClosest nsecPerSec m.clocks.phc.baseArtHz ≤ deadband m.params m.clocks →
      ∃ u, Ticks desired { t with clocks := later } [] u) := by
  obtain ⟨now, sighted⟩ := sighted_of (phase_get_executes model measured)
  have settles := settles_iff model crystal offset inRange sighted near wants nudged same
  refine ⟨settles, fun late covers => settles.mpr ?_⟩
  intro place laterNow placed _ nudgeable
  have above := offset_above model crystal offset sighted.placed
    (sighted.grid.trans sighted.onGrid)
  have aligned : -(2 ^ 63) ≤ phase.aligned ∧ phase.aligned < 2 ^ 63 := to_s64_range _
  have rounding := cycle_covers_rounding model crystal ⟨above, offset.2⟩ aligned
    (tick_target_some wants).2 late placed
  exact rounding.trans_le covers

section examples

def calibratedClocks (art : Nat) (artInRange : art < 2 ^ 64) : Clocks :=
  { steadyClocks art artInRange with
    phc := phcParamsMake 0 0 38400000 0, anchorInRange := crystal_anchor_in_range }

/-- A running output of one second, 1.2 s after load, its pending edge a
microsecond late. -/
def microsecondLate : Machine :=
  .zeroed defaultParams (calibratedClocks 46080000 (by decide))
    ⟨ctlWith (ctlWith ctlDir (ctlEpToggle ||| ctlPm)) ctlEn, 57600036, 19200000⟩ false

def secondFrom (firstEdgeNs : Int) : OutputDesired :=
  ⟨0, 1, 0, .running, .hardware, 1000000000, 500000000, 500000000, firstEdgeNs⟩

theorem nudge_settles_iff_whole :
    ∃ t u, Ticks (secondFrom 1000000000) microsecondLate (compareWrites 57599998) t ∧
      Ticks (secondFrom 1000000000) { t with clocks := microsecondLate.clocks } [] u := by
  have phase : modelPhase microsecondLate.params microsecondLate.clocks 1000000000 500000000
      microsecondLate.regs.compv.toNat = .ok ⟨1500000989, 989, true⟩ := by decide +kernel
  have wants : tickTarget microsecondLate.params microsecondLate.clocks ⟨1500000989, 989, true⟩ =
      some 57599998 := by decide +kernel
  obtain ⟨s, measured⟩ := phase_measured rfl phase
  obtain ⟨t, nudged, -⟩ := @ticks_near (secondFrom 1000000000) microsecondLate _ rfl phase
    (by decide)
  rw [wants] at nudged
  have settles := (nudge_settles_iff rfl ⟨by decide, by decide, by decide⟩ (by decide) measured
    (by decide) (by decide) wants nudged ⟨rfl, rfl, rfl, rfl, rfl⟩).1
  obtain ⟨u, quiet⟩ := settles.mpr fun place _ placed _ _ => by
    have whole : edgePlace microsecondLate.params microsecondLate.clocks 57599998 =
        .ok 1500000000 := by decide +kernel
    rw [whole] at placed
    cases placed
    decide +kernel
  exact ⟨t, u, nudged, quiet⟩

/-- A grid 13 ns off the cycles, the ART frequency not reported: the tick after
the nudge writes the same compare value again. -/
theorem nudge_rewrites :
    microsecondLate.params.artFrequency = 0 ∧
      deadband microsecondLate.params microsecondLate.clocks = 1 ∧
      ∃ t u, Ticks (secondFrom 1000000013) microsecondLate (compareWrites 57599998) t ∧
        Ticks (secondFrom 1000000013) t (compareWrites 57599998) u ∧
        ¬∃ v, Ticks (secondFrom 1000000013) t [] v := by
  have phase : modelPhase microsecondLate.params microsecondLate.clocks 1000000013 500000000
      microsecondLate.regs.compv.toNat = .ok ⟨1500000989, 976, true⟩ := by decide +kernel
  have wants : tickTarget microsecondLate.params microsecondLate.clocks ⟨1500000989, 976, true⟩ =
      some 57599998 := by decide +kernel
  obtain ⟨t, nudged, isParams, isClocks, isCompv⟩ :=
    @ticks_near (secondFrom 1000000013) microsecondLate _ rfl phase (by decide)
  rw [wants] at nudged isCompv
  have compv : t.regs.compv.toNat = 57599998 := by
    rw [isCompv _ rfl]
    rfl
  have left : modelPhase t.params t.clocks 1000000013 500000000 t.regs.compv.toNat =
      .ok ⟨1500000000, -13, true⟩ := by
    rw [isParams, isClocks, compv]
    decide +kernel
  have again : tickTarget t.params t.clocks ⟨1500000000, -13, true⟩ = some 57599998 := by
    rw [isParams, isClocks]
    decide +kernel
  obtain ⟨u, rewritten, -⟩ := @ticks_near (secondFrom 1000000013) t _ (by rw [isParams]; rfl) left
    (by decide)
  rw [again] at rewritten
  refine ⟨rfl, by decide +kernel, t, u, nudged, rewritten, ?_⟩
  rintro ⟨v, quiet⟩
  exact compare_writes_ne _ (quiet.unique rewritten).2

end examples

end Tgpio

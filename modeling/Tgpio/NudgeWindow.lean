import Tgpio.OutputRequests
import Tgpio.PhaseNudge

/-!
# When a pending edge can be nudged

A tick leaves an edge that is less than 20 ms away. An edge is pending for half a
period, so whether any tick can nudge it depends on the half period and on the
ART counts that fall into it.
-/

namespace Tgpio

open Interference Interference.Prog

set_option autoImplicit false

structure SameClock (clocks later : Clocks) : Prop where
  phc : later.phc = clocks.phc
  offset : later.outputPhaseOffsetNs = clocks.outputPhaseOffsetNs
  tolerance : later.outputPhaseToleranceNs = clocks.outputPhaseToleranceNs
  rateArt : later.realtimeRateArtCycles = clocks.realtimeRateArtCycles
  rateReal : later.realtimeRateRealNs = clocks.realtimeRateRealNs

/-- Some tick between the previous edge and the pending one writes the compare
value of the nearest point of the grid. -/
def NudgeReachable (desired : OutputDesired) (m : Machine) (phase : HwPhase) : Prop :=
  ∃ later now target t, SameClock m.clocks later ∧ clockNowNs m.params later = .ok now ∧
    phase.pendingNs - desired.highTimeNs ≤ now ∧ now < phase.pendingNs ∧
    clockNsToCompareArt m.params m.clocks phase.aligned = .ok target ∧
    Ticks desired { m with clocks := later } (compareWrites target) t ∧
    t.regs.compv = BitVec.ofNat 64 target

/-- An ART count between the previous edge and the pending one leaves the time
that a nudge wants before the edge. -/
def SafeCount (phc : PhcParams) (pendingNs : Int) (halfNs : Nat) : Prop :=
  ∃ art now, art < 2 ^ 64 ∧ phcArtToNs phc art = .ok now ∧ 0 ≤ now ∧
    pendingNs - halfNs ≤ now ∧ now < pendingNs ∧ toS64 (now + outputSafeTimeNs) ≤ pendingNs

section instants

variable {params : Params} {clocks later : Clocks}

theorem SameClock.art_to_ns (same : SameClock clocks later) (model : params.clockUsesModel = true)
    (art : Nat) : clockArtToNs params later art = clockArtToNs params clocks art := by
  unfold clockArtToNs clockPhcArtToNs
  rw [if_pos model, if_pos model, same.phc]

theorem SameClock.compare (same : SameClock clocks later) (model : params.clockUsesModel = true)
    (ns : Int) : clockNsToCompareArt params later ns = clockNsToCompareArt params clocks ns := by
  have converts (shifted : Int) : clockNsToArt params later shifted =
      clockNsToArt params clocks shifted := by
    unfold clockNsToArt
    rw [if_pos model, if_pos model, same.phc]
  unfold clockNsToCompareArt
  rw [same.offset]
  cases addS64 ns clocks.outputPhaseOffsetNs with
  | error status => rfl
  | ok shifted =>
      dsimp only
      rw [converts]

theorem SameClock.deadband (same : SameClock clocks later) :
    deadband params later = deadband params clocks := by
  unfold Tgpio.deadband outputPhaseNudgeMinNs
  rw [same.tolerance, same.rateArt, same.rateReal]

theorem SameClock.place (same : SameClock clocks later) (model : params.clockUsesModel = true)
    (compv : Nat) : edgePlace params later compv = edgePlace params clocks compv := by
  unfold edgePlace
  rw [same.art_to_ns model, same.offset]

theorem model_now {now : Int} (model : params.clockUsesModel = true)
    (read : clockNowNs params clocks = .ok now) :
    ∃ art, art < 2 ^ 64 ∧ phcArtToNs clocks.phc art = .ok now := by
  unfold clockNowNs clockPhcNowNs at read
  rw [if_pos model] at read
  cases counted : getCurrentArt clocks with
  | error status =>
      rw [counted] at read
      contradiction
  | ok art =>
      rw [counted] at read
      exact ⟨art, get_current_art_lt counted, read⟩

def Clocks.withArt (clocks : Clocks) (art : Nat) (artInRange : art < 2 ^ 64) : Clocks :=
  { clocks with art, artInRange, snapshotHasArt := true }

theorem with_art_same (art : Nat) (artInRange : art < 2 ^ 64) :
    SameClock clocks (clocks.withArt art artInRange) := ⟨rfl, rfl, rfl, rfl, rfl⟩

theorem with_art_now (model : params.clockUsesModel = true) (art : Nat)
    (artInRange : art < 2 ^ 64) :
    clockNowNs params (clocks.withArt art artInRange) = phcArtToNs clocks.phc art := by
  unfold clockNowNs
  rw [if_pos model]
  rfl

theorem edge_place_range {compv : Nat} {place : Int} (model : params.clockUsesModel = true)
    (anchor : -(2 ^ 63) ≤ clocks.phc.anchorNs ∧ clocks.phc.anchorNs < 2 ^ 63)
    (placed : edgePlace params clocks compv = .ok place) :
    -(2 ^ 63) ≤ place ∧ place < 2 ^ 63 := by
  unfold edgePlace clockArtToNs at placed
  rw [if_pos model] at placed
  cases physical : clockPhcArtToNs clocks (compv + artHwDelayCycles) with
  | error status =>
      rw [physical] at placed
      contradiction
  | ok physicalNs =>
      rw [physical] at placed
      have inRange := phc_art_to_ns_range anchor physical
      exact (add_s64_eq placed).2 inRange.1 inRange.2

end instants

section window

variable {desired : OutputDesired} {m : Machine} {phase : HwPhase}

/-- What a later tick sees of an edge that is still pending. -/
theorem Sighted.later {params : Params} {clocks later : Clocks} {gridStartNs now laterNow : Int}
    {halfNs compv : Nat} (model : params.clockUsesModel = true) (same : SameClock clocks later)
    (sighted : Sighted params clocks gridStartNs halfNs compv phase now)
    (range : phase.pendingNs < 2 ^ 63) (read : clockNowNs params later = .ok laterNow)
    (started : 0 ≤ laterNow) (after : phase.pendingNs - halfNs ≤ laterNow)
    (before : laterNow < phase.pendingNs) :
    Sighted params later gridStartNs halfNs compv
      { phase with nudgeSafe := decide (phase.pendingNs ≥ toS64 (laterNow + outputSafeTimeNs)) }
      laterNow := by
  have half := sighted.half
  unfold s64Max at half
  refine ⟨sighted.half, sighted.grid, sighted.compare, ?_, read, started, sighted.onGrid, ?_,
    sighted.error, rfl⟩
  · rw [same.place model]
    exact sighted.placed
  · dsimp only
    rw [to_s64_of_range (by omega) (by omega), to_s64_of_range (by omega) (by omega)]
    omega

theorem compare_writes_ne (target : Nat) : compareWrites target ≠ [] := List.cons_ne_nil _ _

/-- A tick before the pending edge writes the aligned compare value when it comes
early enough, and nothing otherwise. -/
theorem ticks_between {later : Clocks} {now laterNow : Int}
    (model : m.params.clockUsesModel = true) (same : SameClock m.clocks later)
    (sighted : Sighted m.params m.clocks desired.firstEdgeNs desired.highTimeNs
      m.regs.compv.toNat phase now)
    (range : phase.pendingNs < 2 ^ 63) (read : clockNowNs m.params later = .ok laterNow)
    (after : phase.pendingNs - desired.highTimeNs ≤ laterNow) (before : laterNow < phase.pendingNs)
    (apart : deadband m.params m.clocks ≤ |phase.errorNs|)
    (near : phase.errorNs.natAbs ≤ desired.highTimeNs / 4) :
    ∃ t, Ticks desired { m with clocks := later }
        (if 0 ≤ laterNow ∧ toS64 (laterNow + outputSafeTimeNs) ≤ phase.pendingNs then
          match clockNsToCompareArt m.params m.clocks phase.aligned with
          | .error _ => []
          | .ok target => compareWrites target
        else []) t ∧
      ∀ target, clockNsToCompareArt m.params m.clocks phase.aligned = .ok target →
        0 ≤ laterNow → toS64 (laterNow + outputSafeTimeNs) ≤ phase.pendingNs →
        t.regs.compv = BitVec.ofNat 64 target := by
  have half := sighted.half
  by_cases started : 0 ≤ laterNow
  · have seen := sighted.later model same range read started after before
    have close : ¬absS64 phase.errorNs > desired.highTimeNs / 4 := by
      unfold s64Max at half
      rw [abs_s64_eq (by omega) (by omega)]
      omega
    obtain ⟨t, ticks, -, -, isCompv⟩ :=
      @ticks_near desired { m with clocks := later } _ model seen.model_phase close
    have outside : ¬(phase.errorNs > -deadband m.params m.clocks ∧
        phase.errorNs < deadband m.params m.clocks) :=
      fun inside => absurd (abs_lt.mpr inside) (not_lt.mpr apart)
    have target : tickTarget m.params later { phase with
        nudgeSafe := decide (phase.pendingNs ≥ toS64 (laterNow + outputSafeTimeNs)) } =
        if toS64 (laterNow + outputSafeTimeNs) ≤ phase.pendingNs then
          match clockNsToCompareArt m.params m.clocks phase.aligned with
          | .error _ => none
          | .ok target => some target
        else none := by
      unfold tickTarget HwPhase.aligned
      dsimp only
      rw [same.deadband, if_neg outside, same.compare model]
      by_cases early : toS64 (laterNow + outputSafeTimeNs) ≤ phase.pendingNs
      · exact (if_neg (by simpa using early)).trans (if_pos early).symm
      · exact (if_pos (by simpa using early)).trans (if_neg early).symm
    dsimp only at ticks isCompv
    rw [target] at ticks isCompv
    refine ⟨t, ?_, ?_⟩
    · by_cases early : toS64 (laterNow + outputSafeTimeNs) ≤ phase.pendingNs
      · rw [if_pos early] at ticks
        rw [if_pos ⟨started, early⟩]
        cases converted : clockNsToCompareArt m.params m.clocks phase.aligned with
        | error status =>
            rw [converted] at ticks
            exact ticks
        | ok target =>
            rw [converted] at ticks
            exact ticks
      · rw [if_neg early] at ticks
        rw [if_neg fun both => early both.2]
        exact ticks
    · intro target converted _ early
      rw [if_pos early, converted] at isCompv
      exact isCompv target rfl
  · have blind : ∃ status, modelPhase m.params later desired.firstEdgeNs desired.highTimeNs
        m.regs.compv.toNat = .error status := by
      cases measured : modelPhase m.params later desired.firstEdgeNs desired.highTimeNs
          m.regs.compv.toNat with
      | error status => exact ⟨status, rfl⟩
      | ok phase =>
          obtain ⟨other, seen⟩ := sighted_of measured
          have known := seen.read.symm.trans read
          cases known
          exact absurd seen.started started
    obtain ⟨status, unseen⟩ := blind
    obtain ⟨t, ticks⟩ := @ticks_blind desired { m with clocks := later } status model unseen
    refine ⟨t, ?_, fun _ _ begun => absurd begun started⟩
    rw [if_neg fun both => started both.1]
    exact ticks

/-- The pending edge can be nudged if an ART count leaves the time for it. -/
theorem reachable_iff_safe {now : Int} (model : m.params.clockUsesModel = true)
    (anchor : -(2 ^ 63) ≤ m.clocks.phc.anchorNs ∧ m.clocks.phc.anchorNs < 2 ^ 63)
    (sighted : Sighted m.params m.clocks desired.firstEdgeNs desired.highTimeNs
      m.regs.compv.toNat phase now)
    (apart : deadband m.params m.clocks ≤ |phase.errorNs|)
    (near : phase.errorNs.natAbs ≤ desired.highTimeNs / 4) :
    NudgeReachable desired m phase ↔
      (∃ target, clockNsToCompareArt m.params m.clocks phase.aligned = .ok target) ∧
        SafeCount m.clocks.phc phase.pendingNs desired.highTimeNs := by
  have range := edge_place_range model anchor sighted.placed
  constructor
  · rintro ⟨later, laterNow, target, t, same, read, after, before, converted, ticks, -⟩
    obtain ⟨u, other, -⟩ :=
      ticks_between model same sighted range.2 read after before apart near
    have writes := (ticks.unique other).2
    split at writes
    next early =>
      obtain ⟨art, artInRange, counted⟩ := model_now model read
      rw [same.phc] at counted
      exact ⟨⟨target, converted⟩, art, laterNow, artInRange, counted, early.1, after, before,
        early.2⟩
    next => exact absurd writes.symm (compare_writes_ne target)
  · rintro ⟨⟨target, converted⟩, art, laterNow, artInRange, counted, started, after, before, early⟩
    have same := @with_art_same m.clocks art artInRange
    have read := (@with_art_now m.params m.clocks model art artInRange).trans counted
    obtain ⟨t, ticks, isCompv⟩ :=
      ticks_between model same sighted range.2 read after before apart near
    rw [if_pos ⟨started, early⟩, converted] at ticks
    exact ⟨_, laterNow, target, t, same, read, after, before, converted, ticks,
      isCompv target converted started early⟩

theorem phase_get_executes {gridStartNs : Int} {halfNs : Nat} {s : Machine}
    (model : m.params.clockUsesModel = true)
    (run : Executes (alone Machine.perform) (hwPeriodicPhaseGet gridStartNs halfNs) m (.ok phase)
      s) :
    modelPhase m.params m.clocks gridStartNs halfNs m.regs.compv.toNat = .ok phase := by
  have still : standingStill = Machine.perform := waiting_still
  have achieves := @achieves_model_get m.block m.regs m.flop m.params m.clocks model gridStartNs
    halfNs
  rw [still] at achieves
  exact (achieves.every ⟨rfl, rfl, rfl, rfl, rfl⟩ run).1.symm

theorem phase_measured {gridStartNs : Int} {halfNs : Nat} (model : m.params.clockUsesModel = true)
    (measured : modelPhase m.params m.clocks gridStartNs halfNs m.regs.compv.toNat = .ok phase) :
    ∃ s, Executes (alone Machine.perform) (hwPeriodicPhaseGet gridStartNs halfNs) m (.ok phase)
      s := by
  have still : standingStill = Machine.perform := waiting_still
  have achieves := @achieves_model_get m.block m.regs m.flop m.params m.clocks model gridStartNs
    halfNs
  rw [still] at achieves
  obtain ⟨answer, s, ran, isPhase, -⟩ := achieves m ⟨rfl, rfl, rfl, rfl, rfl⟩
  rw [measured] at isPhase
  exact ⟨s, isPhase ▸ ran⟩

theorem short_half_unsafe {phc : PhcParams} {pendingNs : Int} {halfNs : Nat}
    (short : halfNs < outputSafeTimeNs) (range : pendingNs + outputSafeTimeNs < 2 ^ 63) :
    ¬SafeCount phc pendingNs halfNs := by
  rintro ⟨art, now, -, -, started, after, before, early⟩
  rw [to_s64_of_range (by omega) (by omega)] at early
  omega

end window

/-- Drift outside the dead-band and within a quarter of the half period can be
nudged away before the pending edge exactly when an ART count leaves the safe
time before it. -/
theorem nudge_reachable_iff {desired : OutputDesired} {m s : Machine} {phase : HwPhase}
    (model : m.params.clockUsesModel = true)
    (anchor : -(2 ^ 63) ≤ m.clocks.phc.anchorNs ∧ m.clocks.phc.anchorNs < 2 ^ 63)
    (measured : Executes (alone Machine.perform)
      (hwPeriodicPhaseGet desired.firstEdgeNs desired.highTimeNs) m (.ok phase) s)
    (apart : deadband m.params m.clocks ≤ |phase.errorNs|)
    (near : phase.errorNs.natAbs ≤ desired.highTimeNs / 4) :
    NudgeReachable desired m phase ↔
      (∃ target, clockNsToCompareArt m.params m.clocks phase.aligned = .ok target) ∧
        SafeCount m.clocks.phc phase.pendingNs desired.highTimeNs := by
  obtain ⟨now, sighted⟩ := sighted_of (phase_get_executes model measured)
  exact reachable_iff_safe model anchor sighted apart near

section examples

/-- A running output, the clock one cycle a nanosecond, `art` after load. -/
def drifting (halfNs art : Nat) (artInRange : art < 2 ^ 64) (compv : BitVec 64) : Machine :=
  .zeroed defaultParams (steadyClocks art artInRange)
    ⟨ctlWith (ctlWith ctlDir (ctlEpToggle ||| ctlPm)) ctlEn, compv, BitVec.ofNat 64 halfNs⟩ false

def symmetricFrom (halfNs : Nat) : OutputDesired :=
  ⟨0, 1, 0, .running, .hardware, 2 * halfNs, halfNs, halfNs, 1000000000⟩

theorem nudge_reachable_iff_slow :
    NudgeReachable (symmetricFrom 500000000)
      (drifting 500000000 1200000000 (by decide) 1500000998) ⟨1500001000, 1000, true⟩ := by
  obtain ⟨s, measured⟩ := @phase_measured (drifting 500000000 1200000000 (by decide) 1500000998)
    ⟨1500001000, 1000, true⟩ 1000000000 500000000 rfl (by decide +kernel)
  refine (nudge_reachable_iff rfl (by decide) measured (by decide +kernel) (by decide)).mpr
    ⟨⟨1499999998, by decide +kernel⟩, 1200000000, 1200000000, ?_⟩
  decide +kernel

/-- A period of 10 ms: a microsecond of drift stays, whenever a tick comes. -/
theorem short_period_unreachable :
    outputTimesGet 10000000 0 false = .ok ⟨10000000, 5000000, 5000000⟩ ∧
      (∃ s, Executes (alone Machine.perform) (hwPeriodicPhaseGet 1000000000 5000000)
        (drifting 5000000 1003000000 (by decide) 1005000998)
        (.ok ⟨1005001000, 1000, false⟩) s) ∧
      clockNowNs defaultParams (steadyClocks 1003000000 (by decide)) = .ok 1003000000 ∧
      deadband defaultParams (steadyClocks 1003000000 (by decide)) = 1 ∧
      ¬NudgeReachable (symmetricFrom 5000000)
        (drifting 5000000 1003000000 (by decide) 1005000998) ⟨1005001000, 1000, false⟩ := by
  have phase : modelPhase defaultParams (steadyClocks 1003000000 (by decide)) 1000000000 5000000
      (1005000998 : BitVec 64).toNat = .ok ⟨1005001000, 1000, false⟩ := by decide +kernel
  obtain ⟨now, sighted⟩ := sighted_of phase
  refine ⟨by decide, phase_measured rfl phase, by decide +kernel, by decide +kernel, ?_⟩
  rw [reachable_iff_safe rfl (by decide) sighted (by decide +kernel) (by decide)]
  rintro ⟨-, count⟩
  exact short_half_unsafe (by decide) (by decide) count

end examples

end Tgpio

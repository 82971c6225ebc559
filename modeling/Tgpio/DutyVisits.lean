import Tgpio.DutyIntervals
import Tgpio.RequestOutcomes
import Tgpio.PhcSpans

/-!
# When the duty service comes back

A visit of the duty service asks the PHC model for the time of the pending edge
and sleeps until ten milliseconds after it. The timer runs on `CLOCK_REALTIME`
and the edges come by ART, so the two are compared through the rate at which
they advance together.
-/

namespace Tgpio

open Interference Interference.Prog Scaling

set_option autoImplicit false

/-! ## Between two edges -/

/-- So many ART cycles in so many nanoseconds of `CLOCK_REALTIME`. -/
structure ArtPace where
  cycles : Nat
  ns : Nat

/-- The base rate of the clock model, or the published rate in realtime mode. -/
def artPace (params : Params) (clocks : Clocks) : ArtPace :=
  if params.clockUsesModel then ⟨clocks.phc.baseArtHz, nsecPerSec⟩
  else ⟨clocks.realtimeRateArtCycles, clocks.realtimeRateRealNs⟩

def Machine.pace (m : Machine) : ArtPace := artPace m.params m.clocks

/-- The cycles until the pending edge is generated. -/
def Machine.ahead (m : Machine) : Nat := m.regs.compv.toNat + artHwDelayCycles - m.clocks.art

/-- A moment so many nanoseconds away lies between the pending edge and the one
that is `interval` cycles later. -/
def Machine.Between (m : Machine) (interval : Nat) (delay : Int) : Prop :=
  (m.ahead * m.pace.ns : Nat) < delay * m.pace.cycles ∧
    delay * m.pace.cycles < ((m.ahead + interval) * m.pace.ns : Nat)

instance (m : Machine) (interval : Nat) (delay : Int) : Decidable (m.Between interval delay) :=
  inferInstanceAs (Decidable (_ ∧ _))

/-- What a visit sleeps for when it cannot tell the time of the pending edge. -/
def hwDutyRetryNs : Nat := 100 * nsecPerMsec

def Machine.pendingNs (m : Machine) : S64Result :=
  clockPhcArtToNs m.clocks (m.regs.compv.toNat + artHwDelayCycles)

def Machine.nowNs (m : Machine) : S64Result := clockNowNs m.params m.clocks

/-- The times of the pending edge and of the visit are known, and the span from
one to a moment after the other can be slept for. -/
def Machine.Sleeps (m : Machine) : Prop :=
  ∃ pending now delay, m.pendingNs = .ok pending ∧ m.nowNs = .ok now ∧
    pending - now + hwDutyServiceDelayNs ≤ s64Max ∧
    clockDeltaToRealNs m.params m.clocks (pending - now + hwDutyServiceDelayNs) = .ok delay ∧
    m.clocks.real + delay ≤ s64Max

/-- One of the times is not known, and the fixed sleep ends at the right moment
all the same. -/
def Machine.Retries (m : Machine) (interval : Nat) : Prop :=
  ¬(isOk m.pendingNs = true ∧ isOk m.nowNs = true) ∧
    m.clocks.real + hwDutyRetryNs ≤ s64Max ∧ m.Between interval hwDutyRetryNs

/-- A visit of a duty output whose halves have been accepted: the edge is
pending, and the clocks are what the modes promise. In realtime mode nothing
sets up the PHC model. -/
structure DutyVisit (halves : Halves) (m : Machine) : Prop where
  highNs : m.block.outputHighTimeNs = halves.highNs
  lowNs : m.block.outputLowTimeNs = halves.lowNs
  accepted : hwDutyMinHalfNs ≤ halves.highNs ∧ halves.highNs ≤ s64Max ∧
    hwDutyMinHalfNs ≤ halves.lowNs ∧ halves.lowNs ≤ s64Max
  high : clockDeltaToArtCycles m.params m.clocks (toS64 halves.highNs) = .ok halves.highArt
  low : clockDeltaToArtCycles m.params m.clocks (toS64 halves.lowNs) = .ok halves.lowArt
  paced : m.regs.piv.toNat = m.block.outputHwPiv ∧ ∃ rise, m.block.outputHwPiv = halves.after rise
  room : m.regs.compv.toNat + artHwDelayCycles < 2 ^ 64
  pending : m.clocks.art ≤ m.regs.compv.toNat + artHwDelayCycles
  counter : ∀ art, getCurrentArt m.clocks = .ok art → art = m.clocks.art
  anchor : -(2 ^ 63) ≤ m.clocks.phc.anchorNs ∧ m.clocks.phc.anchorNs < 2 ^ 63
  real : -(2 ^ 63) ≤ m.clocks.real ∧ m.clocks.real < 2 ^ 63
  model : m.params.clockUsesModel = true →
    Modest m.clocks.phc.baseArtHz (scaledPpmToPpb m.clocks.phc.scaledPpm)
  realtime : m.params.clockUsesModel = false → m.clocks.phc.baseArtHz = 0 ∧
    0 < m.clocks.realtimeRateArtCycles ∧ 0 < m.clocks.realtimeRateRealNs

def Machine.dutyDelay (m : Machine) : Nat :=
  match m.pendingNs, m.nowNs with
  | .ok pending, .ok now =>
    match clockDeltaToRealNs m.params m.clocks (dutyWakeDelay pending now) with
    | .error _ => hwDutyRetryNs
    | .ok delay => delay
  | _, _ => hwDutyRetryNs

section spans

variable {hz : Nat} {ppb : Int}

theorem undone_after_span {cycles span : Nat} (modest : Modest hz ppb)
    (near : cyclesTime hz ppb cycles + 9999997 ≤ span ∧
      span ≤ cyclesTime hz ppb cycles + 10000003) :
    down cycles hz nsecPerSec + 9000000 ≤ undoneNs ppb span ∧
      undoneNs ppb span ≤ down cycles hz nsecPerSec + 12000000 := by
  have close := undone_near (down cycles hz nsecPerSec) modest
  obtain ⟨-, slowest, fastest⟩ := modest.pace
  have least := undone_bounds 9999997 modest
  have most := undone_bounds 10000003 modest
  have lower := (undone_add (cyclesTime hz ppb cycles) 9999997 modest).1
  have upper := (undone_add (cyclesTime hz ppb cycles) 10000003 modest).2
  have above := @undone_mono ppb _ _ near.1
  have below := @undone_mono ppb _ _ near.2
  unfold cyclesTime at *
  unfold nsecPerSec at *
  dsimp only at least most
  generalize ((1000000000 : Nat) : Int) + ppb = rate at *
  have short : 9000001 ≤ undoneNs ppb 9999997 := by nlinarith only [least.2, fastest]
  have long : undoneNs ppb 10000003 ≤ 11999998 := by nlinarith only [most.1, slowest]
  omega

theorem many_cycles {cycles : Nat} (modest : Modest hz ppb)
    (long : 7000000000000000000 ≤ cyclesTime hz ppb cycles) :
    1000000000 ≤ down cycles hz nsecPerSec := by
  have close := undone_near (down cycles hz nsecPerSec) modest
  obtain ⟨-, slowest, fastest⟩ := modest.pace
  have bounds := undone_bounds (cyclesTime hz ppb cycles) modest
  unfold cyclesTime at *
  unfold nsecPerSec at *
  dsimp only at bounds
  generalize ((1000000000 : Nat) : Int) + ppb = rate at *
  by_contra few
  have most : undoneNs ppb (adjustedNs ppb (down cycles hz 1000000000)) ≤ 1000000000 := by omega
  have scaled := Nat.mul_le_mul most fastest
  omega

/-- A half of fifty milliseconds counts more cycles than a visit comes late. -/
theorem half_outlasts_visit {phc : PhcParams} {half cycles : Nat}
    (modest : Modest phc.baseArtHz (scaledPpmToPpb phc.scaledPpm))
    (accepted : hwDutyMinHalfNs ≤ half ∧ half ≤ s64Max)
    (counted : phcDeltaToArtCycles phc half = .ok cycles) (positive : cycles ≠ 0) :
    12000000 * phc.baseArtHz < cycles * nsecPerSec := by
  have long : 50000000 ≤ half := accepted.1
  have size := phc_delta_to_cycles_eq modest (by omega) (by omega) counted
  rw [Int.toNat_natCast] at size
  obtain ⟨-, slowest, fastest⟩ := modest.pace
  have bounds := undone_bounds half modest
  dsimp only at bounds
  generalize ((nsecPerSec : Int) + scaledPpmToPpb phc.scaledPpm).toNat = rate at *
  have least : 45000000 ≤ undoneNs (scaledPpmToPpb phc.scaledPpm) half := by
    unfold nsecPerSec at bounds
    nlinarith only [bounds.2, fastest, long]
  have rounded := (nearest_bounds (undoneNs (scaledPpmToPpb phc.scaledPpm) half) phc.baseArtHz
    (by decide : 0 < nsecPerSec)).2
  rw [← size] at rounded
  have scaled := Nat.mul_le_mul_right phc.baseArtHz least
  unfold nsecPerSec at *
  omega

end spans

section waking

variable {m : Machine} {halves : Halves}

theorem between_ahead {interval : Nat} {delay : Int} (between : m.Between interval delay) :
    0 < delay := by
  by_contra behind
  have product : delay * m.pace.cycles ≤ 0 :=
    Int.mul_nonpos_of_nonpos_of_nonneg (by omega) (by omega)
  have first := between.1
  omega

theorem between_sleep_iff {interval delay : Nat} (visit : DutyVisit halves m)
    (fits : delay ≤ s64Max) :
    m.Between interval (toS64 (m.clocks.real + delay) - m.clocks.real) ↔
      m.clocks.real + delay ≤ s64Max ∧ m.Between interval delay := by
  obtain ⟨lower, upper⟩ := visit.real
  unfold s64Max at *
  by_cases within : m.clocks.real + delay ≤ (2 ^ 63 - 1 : Nat)
  · have same : toS64 (m.clocks.real + delay) - m.clocks.real = delay := by
      rw [to_s64_of_range (by omega) (by omega)]
      omega
    rw [same]
    exact ⟨fun between => ⟨within, between⟩, fun both => both.2⟩
  · have past : toS64 (m.clocks.real + delay) - m.clocks.real < 0 := by
      unfold toS64 Int.bmod
      dsimp only
      split <;> omega
    constructor
    · intro between
      have later := between_ahead between
      omega
    · exact fun both => absurd both.1 within

theorem unset_phc_unknown {phc : PhcParams} (unset : phc.baseArtHz = 0) (art : Nat) :
    isOk (phcArtToNs phc art) = false := by
  unfold phcArtToNs
  cases artDistance phc.anchorArt art with
  | error status => rfl
  | ok distance =>
      have failed : cyclesDeltaToNs distance phc.baseArtHz false = .error .enodev := by
        simp [cyclesDeltaToNs, rescale, rescaleCommon, unset, Except.bind]
      simp only [Bind.bind, Except.bind, failed]
      rfl

theorem DutyVisit.after_counted (visit : DutyVisit halves m) (rise : Bool) :
    ∃ half, hwDutyMinHalfNs ≤ half ∧ half ≤ s64Max ∧
      clockDeltaToArtCycles m.params m.clocks (toS64 half) = .ok (halves.after rise) := by
  obtain ⟨highLong, highFits, lowLong, lowFits⟩ := visit.accepted
  cases rise with
  | true => exact ⟨halves.highNs, highLong, highFits, visit.high⟩
  | false => exact ⟨halves.lowNs, lowLong, lowFits, visit.low⟩

theorem DutyVisit.outlasts (visit : DutyVisit halves m) (model : m.params.clockUsesModel = true)
    (rise : Bool) :
    12000000 * m.clocks.phc.baseArtHz < halves.after rise * nsecPerSec := by
  obtain ⟨half, long, fits, counted⟩ := visit.after_counted rise
  have positive := clock_delta_to_art_cycles_positive counted
  unfold clockDeltaToArtCycles at counted
  rw [if_pos model, to_s64_of_range (by omega) (by unfold s64Max at fits; omega)] at counted
  split at counted
  · contradiction
  · rename_i cycles converted
    split at counted
    · contradiction
    · cases counted
      exact half_outlasts_visit (visit.model model) ⟨long, fits⟩ converted positive

structure Told (m : Machine) (pending now : Int) : Prop where
  order : now ≤ pending
  span : pending - now ≤ cyclesTime m.clocks.phc.baseArtHz
      (scaledPpmToPpb m.clocks.phc.scaledPpm) m.ahead + 3 ∧
    (cyclesTime m.clocks.phc.baseArtHz (scaledPpmToPpb m.clocks.phc.scaledPpm) m.ahead : Int) ≤
      pending - now + 3
  range : pending < 2 ^ 63 ∧ -(2 ^ 63) ≤ now

theorem DutyVisit.told (visit : DutyVisit halves m) (model : m.params.clockUsesModel = true)
    {pending now : Int} (isPending : m.pendingNs = .ok pending) (isNow : m.nowNs = .ok now) :
    Told m pending now := by
  unfold Machine.nowNs clockNowNs clockPhcNowNs at isNow
  rw [if_pos model] at isNow
  split at isNow
  · contradiction
  rename_i art read
  cases visit.counter art read
  have modest := visit.model model
  obtain ⟨later, -⟩ := phc_art_to_ns_eq modest isPending
  obtain ⟨earlier, -⟩ := phc_art_to_ns_eq modest isNow
  have span := phc_time_span modest visit.pending
  have order := phc_time_mono modest visit.pending
  rw [← later, ← earlier] at order span
  exact ⟨order, span, (phc_art_to_ns_range visit.anchor isPending).2,
    (phc_art_to_ns_range visit.anchor isNow).1⟩

theorem model_pace (model : m.params.clockUsesModel = true) :
    m.pace = ⟨m.clocks.phc.baseArtHz, nsecPerSec⟩ :=
  if_pos model

/-- A sleep that lasts until ten milliseconds after the pending edge, give or
take two, lies between the edges. -/
theorem DutyVisit.lands (visit : DutyVisit halves m) (model : m.params.clockUsesModel = true)
    (rise : Bool) {delay : Nat}
    (near : down m.ahead m.clocks.phc.baseArtHz nsecPerSec + 9000000 ≤ delay ∧
      delay ≤ down m.ahead m.clocks.phc.baseArtHz nsecPerSec + 12000000) :
    m.Between (halves.after rise) delay := by
  have positive := (visit.model model).positive
  have outlasts := visit.outlasts model rise
  have below := down_le m.ahead nsecPerSec positive
  have above := lt_down m.ahead nsecPerSec positive
  have least := Nat.mul_le_mul_right m.clocks.phc.baseArtHz near.1
  have most := Nat.mul_le_mul_right m.clocks.phc.baseArtHz near.2
  rw [Nat.add_mul] at least most
  unfold Machine.Between
  rw [model_pace model, ← Int.natCast_mul, Int.ofNat_lt, Int.ofNat_lt, Nat.add_mul]
  dsimp only
  omega

/-- Towards the end of the range a short sleep ends before the pending edge. -/
theorem DutyVisit.early (visit : DutyVisit halves m) (model : m.params.clockUsesModel = true)
    {pending now : Int} {delay interval : Nat} (told : Told m pending now)
    (far : 7500000000000000000 ≤ pending - now) (short : delay ≤ hwDutyRetryNs) :
    ¬m.Between interval delay := by
  intro between
  have first := between.1
  rw [model_pace model, ← Int.natCast_mul, Int.ofNat_lt] at first
  dsimp only at first
  have span := told.span.1
  have many := @many_cycles _ _ m.ahead (visit.model model) (by omega)
  have below := down_le m.ahead nsecPerSec (visit.model model).positive
  have long : delay ≤ down m.ahead m.clocks.phc.baseArtHz nsecPerSec := by
    unfold hwDutyRetryNs nsecPerMsec at short
    omega
  have scaled := Nat.mul_le_mul_right m.clocks.phc.baseArtHz long
  omega

/-- Between the edges, by the span from now to the pending edge. -/
theorem DutyVisit.told_iff (visit : DutyVisit halves m) (model : m.params.clockUsesModel = true)
    (rise : Bool) {pending now : Int} (isPending : m.pendingNs = .ok pending)
    (isNow : m.nowNs = .ok now) :
    (m.clocks.real + m.dutyDelay ≤ s64Max ∧ m.Between (halves.after rise) m.dutyDelay) ↔
      m.Sleeps := by
  have told := visit.told model isPending isNow
  have modest := visit.model model
  obtain ⟨order, span, range⟩ := told
  have service : (hwDutyServiceDelayNs : Int) = 10000000 := rfl
  have real (delta : Int) : clockDeltaToRealNs m.params m.clocks delta =
      phcDeltaToRealNs m.clocks.phc delta := if_pos model
  have delayed : m.dutyDelay =
      match phcDeltaToRealNs m.clocks.phc (dutyWakeDelay pending now) with
      | .error _ => hwDutyRetryNs
      | .ok delay => delay := by
    simp only [Machine.dutyDelay, isPending, isNow, real]
  by_cases fits : pending - now + hwDutyServiceDelayNs ≤ s64Max
  · have exact_ : dutyWakeDelay pending now = pending - now + hwDutyServiceDelayNs := by
      unfold dutyWakeDelay
      unfold s64Max at fits
      dsimp only
      rw [to_s64_of_range (by omega) (by omega), if_neg (by omega)]
    rw [exact_] at delayed
    cases converted : phcDeltaToRealNs m.clocks.phc (pending - now + hwDutyServiceDelayNs) with
    | ok delay =>
        have sleeps : m.dutyDelay = delay := by rw [delayed, converted]
        have undone := phc_delta_to_real_eq modest (by omega) fits converted
        have close := @undone_after_span _ _ m.ahead
          (pending - now + hwDutyServiceDelayNs).toNat modest (by omega)
        rw [← undone] at close
        constructor
        · rintro ⟨within, -⟩
          exact ⟨pending, now, delay, isPending, isNow, fits, (real _).trans converted,
            sleeps ▸ within⟩
        · rintro ⟨_, _, _, samePending, sameNow, -, sameDelay, within⟩
          cases isPending.symm.trans samePending
          cases isNow.symm.trans sameNow
          cases ((real _).trans converted).symm.trans sameDelay
          rw [sleeps]
          exact ⟨within, visit.lands model rise close⟩
    | error status =>
        rw [converted] at delayed
        have far : roundTripLimitNs < (pending - now + hwDutyServiceDelayNs).natAbs := by
          unfold phcDeltaToRealNs at converted
          rw [if_neg (by omega)] at converted
          split at converted
          · rename_i failed
            exact adjusted_to_base_error modest failed
          · rename_i base based
            obtain ⟨positive, -⟩ := adjusted_to_base_eq modest (by omega) based
            rw [withSign, if_neg (by omega)] at positive
            rw [if_neg (by omega)] at converted
            contradiction
        unfold roundTripLimitNs at far
        constructor
        · rintro ⟨-, between⟩
          rw [delayed] at between
          exact absurd between (visit.early model ⟨order, span, range⟩ (by omega) le_rfl)
        · rintro ⟨_, _, _, samePending, sameNow, -, sameDelay, -⟩
          cases isPending.symm.trans samePending
          cases isNow.symm.trans sameNow
          rw [real, converted] at sameDelay
          contradiction
  · have clamped : dutyWakeDelay pending now = hwDutyServiceDelayNs := by
      unfold dutyWakeDelay toS64 Int.bmod
      unfold s64Max at fits
      dsimp only
      split <;> split <;> omega
    rw [clamped] at delayed
    have short : m.dutyDelay ≤ hwDutyRetryNs := by
      rw [delayed]
      split
      · exact le_rfl
      · rename_i delay converted
        have undone := phc_delta_to_real_eq modest (by omega) (by unfold s64Max; omega) converted
        have bounds : undoneNs (scaledPpmToPpb m.clocks.phc.scaledPpm) 10000000 *
            ((nsecPerSec : Int) + scaledPpmToPpb m.clocks.phc.scaledPpm).toNat ≤
              10000000 * nsecPerSec := (undone_bounds 10000000 modest).1
        obtain ⟨-, slowest, -⟩ := modest.pace
        generalize ((nsecPerSec : Int) + scaledPpmToPpb m.clocks.phc.scaledPpm).toNat = rate at *
        rw [service] at undone
        change delay = undoneNs _ 10000000 at undone
        rw [← undone] at bounds
        unfold hwDutyRetryNs nsecPerMsec
        unfold nsecPerSec at bounds
        nlinarith only [bounds, slowest]
    constructor
    · rintro ⟨-, between⟩
      unfold s64Max at fits
      exact absurd between (visit.early model ⟨order, span, range⟩ (by omega) short)
    · rintro ⟨_, _, _, samePending, sameNow, fitting, -⟩
      cases isPending.symm.trans samePending
      cases isNow.symm.trans sameNow
      exact absurd fitting fits

/-- The sleep of a visit ends between the edges exactly when its times are
known, or the fixed sleep happens to. -/
theorem DutyVisit.between_iff (visit : DutyVisit halves m) (rise : Bool) :
    m.Between (halves.after rise) (toS64 (m.clocks.real + m.dutyDelay) - m.clocks.real) ↔
      m.Sleeps ∨ m.Retries (halves.after rise) := by
  have retry (unknown : ¬(isOk m.pendingNs = true ∧ isOk m.nowNs = true)) :
      m.dutyDelay = hwDutyRetryNs := by
    unfold Machine.dutyDelay
    cases isPending : m.pendingNs with
    | error status => rfl
    | ok pending =>
        cases isNow : m.nowNs with
        | error status => rfl
        | ok now => exact absurd ⟨congrArg isOk isPending, congrArg isOk isNow⟩ unknown
  by_cases known : isOk m.pendingNs = true ∧ isOk m.nowNs = true
  · have model : m.params.clockUsesModel = true := by
      by_contra realtime
      have unset := (visit.realtime (Bool.eq_false_iff.mpr realtime)).1
      have unknown := unset_phc_unknown unset (m.regs.compv.toNat + artHwDelayCycles)
      exact Bool.false_ne_true (unknown.symm.trans known.1)
    obtain ⟨pending, isPending⟩ := is_ok_true known.1
    obtain ⟨now, isNow⟩ := is_ok_true known.2
    have bounded : m.dutyDelay ≤ s64Max := by
      simp only [Machine.dutyDelay, isPending, isNow, clockDeltaToRealNs, model, if_true]
      split
      · decide
      · rename_i delay converted
        exact phc_delta_to_real_le converted
    rw [between_sleep_iff visit bounded, visit.told_iff model rise isPending isNow]
    exact ⟨.inl, fun either => either.resolve_right fun retries => retries.1 known⟩
  · rw [retry known, between_sleep_iff visit (by decide)]
    constructor
    · exact fun lands => .inr ⟨known, lands⟩
    · rintro (⟨pending, now, -, isPending, isNow, -⟩ | ⟨-, lands⟩)
      · exact absurd ⟨congrArg isOk isPending, congrArg isOk isNow⟩ known
      · exact lands

end waking

/-! ## The run of a visit -/

section visit

variable {m : Machine} {halves : Halves} {block : MmioBlock} {regs : Regs} {flop : Bool}
  {params : Params} {clocks : Clocks} {sleep : Nat → Machine → Option Machine}

theorem achieves_refresh (rise : Bool) (wide : halves.after rise < 2 ^ 64)
    (known : ∃ rise, regs.piv.toNat = halves.after rise) :
    Achieves (Machine.waiting sleep) (Standing block regs flop params clocks)
      (refreshPiv (.ok (halves.after rise)))
      fun _ m => ∃ block piv, Standing block { regs with piv } flop params clocks m ∧
        ∃ rise, piv.toNat = halves.after rise := by
  refine Achieves.bind_known achieves_load ?_
  dsimp only
  split
  · refine Achieves.bind (achieves_write_piv _) fun _ => ?_
    refine (achieves_store _).post fun _ m standing => ⟨_, _, standing, rise, ?_⟩
    rw [BitVec.toNat_ofNat, Nat.mod_eq_of_lt wide]
  · exact Achieves.pure fun m standing => ⟨block, regs.piv, standing, known⟩

/-- What a visit leaves behind: the edge that was pending still is, one of the
halves in the register, and the timer set. -/
structure Slept (halves : Halves) (m m' : Machine) : Prop where
  compv : m'.regs.compv = m.regs.compv
  piv : ∃ rise, m'.regs.piv.toNat = halves.after rise
  armed : m'.timerArmed = true
  wakeAt : m'.block.outputWakeAt = toS64 (m.clocks.real + m.dutyDelay)

theorem duty_service_sleeps (visit : DutyVisit halves m) :
    ∃ m', Executes (alone Machine.perform) hwDutyService m () m' ∧ Slept halves m m' := by
  have standing : Standing m.block m.regs m.flop m.params m.clocks m := ⟨rfl, rfl, rfl, rfl, rfl⟩
  have runs : Achieves Machine.perform (Standing m.block m.regs m.flop m.params m.clocks)
      hwDutyService fun _ => Slept halves m := by
    rw [← waiting_still]
    refine Achieves.bind achieves_fold fun _ => ?_
    refine Achieves.bind_known achieves_load ?_
    obtain ⟨isPiv, isHigh, isLow⟩ := folded_keeps m.regs.compv.toNat m.block
    generalize folded m.regs.compv.toNat m.block = record at *
    refine Achieves.bind_known (achieves_sample _) ?_
    have counted : clockDeltaToArtCycles m.params m.clocks (toS64 (if record.outputHwFlopHigh = true
        then (record.outputLowTimeNs : Int) else record.outputHighTimeNs)) =
          .ok (halves.after !record.outputHwFlopHigh) := by
      rw [isHigh, isLow, visit.highNs, visit.lowNs]
      cases record.outputHwFlopHigh with
      | false => exact visit.high
      | true => exact visit.low
    have wide : halves.after (!record.outputHwFlopHigh) < 2 ^ 64 :=
      clock_delta_to_art_cycles_lt counted
    have known : ∃ rise, m.regs.piv.toNat = halves.after rise := by
      obtain ⟨same, rise, paced⟩ := visit.paced
      exact ⟨rise, same.trans paced⟩
    rw [counted]
    refine Achieves.bind (achieves_refresh _ wide known) fun _ => ?_
    rintro m₁ ⟨record, piv, standing, paced⟩
    refine (?_ : Achieves (Machine.waiting fun _ m => m)
      (Standing record { m.regs with piv } m.flop m.params m.clocks) _ _) m₁ standing
    refine Achieves.bind_known achieves_read_compv ?_
    have room : ¬m.regs.compv.toNat > u64Max - artHwDelayCycles := by
      have inside := visit.room
      unfold u64Max
      omega
    rw [if_neg room]
    refine Achieves.bind_known (achieves_sample _) ?_
    refine Achieves.bind_known (achieves_sample _) ?_
    -- Every way out sets the timer once, by the sleep of `dutyDelay`.
    have sleeps {delay : Nat} (same : m.dutyDelay = delay) :
        Achieves (Machine.waiting fun _ m => m) (Standing record { m.regs with piv } m.flop m.params m.clocks)
          (outputWakeAt (toS64 (m.clocks.real + delay))) fun _ => Slept halves m := by
      refine (achieves_wake_at _).post fun _ m' waking => ?_
      obtain ⟨standing, armed⟩ := waking
      refine ⟨by rw [standing.regs], by rw [standing.regs]; exact paced, armed, ?_⟩
      rw [standing.block, same]
      rfl
    change Achieves _ _ (match m.pendingNs, m.nowNs with
      | .ok pending, .ok now => _
      | _, _ => _) _
    unfold Machine.dutyDelay at sleeps
    split
    · rename_i pending now isPending isNow
      rw [isPending, isNow] at sleeps
      dsimp only at sleeps
      refine Achieves.bind_known (achieves_sample _) ?_
      refine Achieves.bind_known achieves_real ?_
      split
      · rename_i failed
        exact sleeps (by rw [failed]; rfl)
      · rename_i delay converted
        exact sleeps (by rw [converted])
    · rename_i unknown
      refine Achieves.bind_known achieves_real ?_
      apply sleeps
      split
      · rename_i pending now isPending isNow
        exact (unknown pending now isPending isNow).elim
      · rfl
  obtain ⟨_, m', ran, slept⟩ := runs m standing
  exact ⟨m', ran, slept⟩

/-- A visit that runs when it was told to: it sets the timer for a moment
between the pending edge and the next, whichever half is between them, exactly
when the span to the pending edge can be told and slept for, or the fixed sleep
of a visit that cannot tell lies between them by chance. -/
theorem visits_once_per_edge_iff (visit : DutyVisit halves m) :
    ∃ m', Executes (alone Machine.perform) hwDutyService m () m' ∧ m'.timerArmed = true ∧
      m'.regs.compv = m.regs.compv ∧ (∃ rise, m'.regs.piv.toNat = halves.after rise) ∧
      ∀ rise, m.Between (halves.after rise) (m'.block.outputWakeAt - m.clocks.real) ↔
        m.Sleeps ∨ m.Retries (halves.after rise) := by
  obtain ⟨m', ran, slept⟩ := duty_service_sleeps visit
  refine ⟨m', ran, slept.armed, slept.compv, slept.piv, fun rise => ?_⟩
  rw [slept.wakeAt]
  exact visit.between_iff rise

section oneVisit

def realtimeVisit : Machine :=
  let clocks : Clocks :=
    { steadyClocks 76800000 two_seconds_in_range with
      phc := phcParamsMake 0 0 0 0
      real := 2000000000
      realtimeRateArtCycles := 38400000
      realtimeRateRealNs := 1000000000
      anchorInRange := by decide }
  let m := Machine.zeroed { defaultParams with clockMode := .realtime } clocks
    ⟨ctlEn ||| ctlPm ||| ctlEpToggle, 76800000 + 192000, 1920000⟩ false
  { m with block := { m.block with
      outputPhase := .hwDuty
      outputHwPiv := 1920000
      outputHwCkptCompv := 76800000 + 192000
      outputHighTimeNs := 50000000
      outputLowTimeNs := 60000000 } }

def phcVisit : Machine :=
  { realtimeVisit with
    params := defaultParams
    clocks := { realtimeVisit.clocks with
      phc := phcParamsMake 0 0 38400000 0
      anchorInRange := crystal_anchor_in_range } }

def shortHalves : Halves := ⟨50000000, 60000000, 1920000, 2304000⟩

theorem visits_once_per_edge_phc :
    ∃ m', Executes (alone Machine.perform) hwDutyService phcVisit () m' ∧
      ∀ rise, phcVisit.Between (shortHalves.after rise)
        (m'.block.outputWakeAt - phcVisit.clocks.real) := by
  have visit : DutyVisit shortHalves phcVisit := by
    refine ⟨rfl, rfl, by decide, by decide +kernel, by decide +kernel, ⟨rfl, true, rfl⟩,
      by decide +kernel, by decide +kernel, ?_, by decide, by decide, fun _ => ?_, nofun⟩
    rotate_left
    · constructor <;> decide +kernel
    rintro art ⟨⟩
    rfl
  obtain ⟨m', ran, -, -, -, between⟩ := visits_once_per_edge_iff visit
  refine ⟨m', ran, fun rise => (between rise).mpr (.inl ?_)⟩
  exact ⟨2005000052, 2000000000, 15000052, by decide +kernel, by decide +kernel, by decide,
    by decide +kernel, by decide⟩

def afterVisit (m : Machine) : Machine := finalState Machine.perform 100 [] hwDutyService m

/-- In realtime mode a visit cannot tell the time of the pending edge, five
milliseconds away, and sleeps for a tenth of a second: the next edge, fifty or
sixty milliseconds later, comes before it wakes. -/
theorem realtime_visit_sleeps_past_edge :
    DutyVisit shortHalves realtimeVisit ∧
    Executes (alone Machine.perform) hwDutyService realtimeVisit () (afterVisit realtimeVisit) ∧
    ∀ rise, ¬realtimeVisit.Between (shortHalves.after rise)
      ((afterVisit realtimeVisit).block.outputWakeAt - realtimeVisit.clocks.real) := by
  refine ⟨?_, ?_, by decide +kernel⟩
  · refine ⟨rfl, rfl, by decide, by decide +kernel, by decide +kernel, ⟨rfl, true, rfl⟩,
      by decide +kernel, by decide +kernel, ?_, by decide, by decide, nofun,
      fun _ => ⟨rfl, by decide, by decide⟩⟩
    rintro art ⟨⟩
    rfl
  · exact exec_final (fun _ _ _ _ step => step) 100 [] (by simp) _ _ _ (by decide +kernel)

end oneVisit

end visit

end Tgpio

import Tgpio.TickArms

/-!
# Requests during rate acquisition

In realtime mode the driver has no rate until the refinement work has measured
one. A request made before that is published and armed by a later tick, unless
it is for the hardware engine: its half period is converted on the spot.
-/

namespace Tgpio

open Interference Interference.Prog

set_option autoImplicit false

/-- `tgpio_start_persistent_output`, with the values of its parameters. -/
def startPersistentOutput (slots : PinSlots) (channel periodNs dutyNs outputStartDelayNs : Nat) :
    Driver (Except Errno Unit) :=
  if outputStartDelayNs = 0 then
    configOutputValues slots channel periodNs dutyNs (dutyNs != 0) 0 true
  else if outputStartDelayNs > s64Max then return .error .erange
  else do
    let now ← sample clockNowNs
    match now with
    | .error _ => return .error .enodev
    | .ok now =>
      if now < 0 then return .error .enodev
      else match addS64 now outputStartDelayNs with
        | .error _ => return .error .erange
        | .ok firstEdge =>
          if firstEdge < 0 then return .error .erange
          else configOutputValues slots channel periodNs dutyNs (dutyNs != 0) firstEdge true

/-! ## Acceptance -/

/-- What the half period of a request needs: a rate, when it is for the hardware
engine. -/
def HalfConverts (params : Params) (clocks : Clocks) (times : OutputTimes) : Prop :=
  outputModeOf params times = .hardware →
    isOk (clockDeltaToArtCycles params clocks (toS64 times.highTimeNs)) = true

structure Params.Realtime (params : Params) : Prop where
  mode : params.clockMode = .realtime
  plain : params.experimentalInstantaneousRealtimeProjection = false

def InEra (headroom : Nat) (real : Int) : Prop := 0 ≤ real ∧ real + headroom ≤ s64Max

/-- A request under way, with the rate as it was when it was made. -/
structure Asking (start : Machine) (headroom : Nat) (m : Machine) : Prop where
  params : m.params = start.params
  base : m.clocks.clocksourceHasBase = true
  rateArt : m.clocks.realtimeRateArtCycles = start.clocks.realtimeRateArtCycles
  rateReal : m.clocks.realtimeRateRealNs = start.clocks.realtimeRateRealNs
  era : InEra headroom m.clocks.real

/-- Surroundings in which time passes, while nobody else requests anything and
the rate stays what it is. -/
structure Steady (start : Machine) (headroom : Nat) (env : Machine → Machine → Prop) : Prop where
  undisturbed : Undisturbed env
  asking : Stable (driverSem env) (Asking start headroom)

theorem Asking.same {start s t : Machine} {headroom : Nat} (asking : Asking start headroom s)
    (clocks : t.clocks = s.clocks) (params : t.params = s.params) : Asking start headroom t where
  params := params.trans asking.params
  base := clocks ▸ asking.base
  rateArt := clocks ▸ asking.rateArt
  rateReal := clocks ▸ asking.rateReal
  era := clocks ▸ asking.era

section acceptance

variable {start : Machine} {headroom : Nat} {env : Machine → Machine → Prop}

theorem Params.Realtime.uses_model {params : Params} (realtime : params.Realtime) :
    params.clockUsesModel = false := by
  simp [Params.clockUsesModel, realtime.mode]

theorem realtime_cycles_same {params : Params} {clocks other : Clocks} (realtime : params.Realtime)
    (art : other.realtimeRateArtCycles = clocks.realtimeRateArtCycles)
    (real : other.realtimeRateRealNs = clocks.realtimeRateRealNs) (delta : Int) :
    clockDeltaToArtCycles params other delta = clockDeltaToArtCycles params clocks delta := by
  have counted (ns : Nat) :
      realtimeDeltaToArtCycles params other ns = realtimeDeltaToArtCycles params clocks ns := by
    unfold realtimeDeltaToArtCycles
    rw [art, real, if_pos (c := ¬params.clockUsesModel ∧ _)
      ⟨by simp [realtime.uses_model], by simp [realtime.plain]⟩]
    rw [if_pos (c := ¬params.clockUsesModel ∧ _)
      ⟨by simp [realtime.uses_model], by simp [realtime.plain]⟩]
  unfold clockDeltaToArtCycles clockDeltaToRealNs
  simp only [realtime.uses_model, counted, Bool.false_eq_true, if_false]

theorem check_half_period_answer (steady : Steady start headroom env)
    (realtime : start.params.Realtime) (mode : OutputMode) (times : OutputTimes) :
    Triple (driverSem env) (Asking start headroom) (checkHalfPeriod mode times)
      fun counted m => (counted = true ↔ (mode = .hardware →
        isOk (clockDeltaToArtCycles start.params start.clocks (toS64 times.highTimeNs)) = true)) ∧
        Asking start headroom m := by
  unfold checkHalfPeriod
  split
  next hardware =>
    refine triple_sample_known _ steady.asking fun m asking => ?_
    rw [asking.params, realtime_cycles_same realtime asking.rateArt asking.rateReal]
    simp [hardware]
  next software =>
    exact Triple.pure steady.asking fun m asking => ⟨by simp [software], asking⟩

theorem clock_now_answer (steady : Steady start headroom env)
    (realtime : start.params.Realtime) :
    Triple (driverSem env) (Asking start headroom) (sample clockNowNs)
      fun now m => (∃ real, now = .ok real ∧ InEra headroom real) ∧ Asking start headroom m := by
  refine triple_sample_known _ steady.asking fun m asking => ⟨m.clocks.real, ?_, asking.era⟩
  unfold clockNowNs
  rw [asking.params, realtime.uses_model]
  rfl

theorem prepare_output_timing_answer (steady : Steady start headroom env)
    (realtime : start.params.Realtime) (roomy : 3 * outputSafeTimeNs ≤ headroom)
    (minIntervalNs periodNs : Nat) (mode : OutputMode) {firstEdgeNs : Int}
    (small : firstEdgeNs ≤ s64Max) :
    Triple (driverSem env) (Asking start headroom)
      (prepareOutputTiming minIntervalNs periodNs mode firstEdgeNs)
      fun timing m => isOk timing = true ∧ Asking start headroom m := by
  refine triple_known (clock_now_answer steady realtime) ?_
  rintro _ ⟨real, rfl, era, room⟩
  obtain ⟨-, bound⟩ := arm_lead_bounds mode minIntervalNs
  obtain ⟨first, plan, -⟩ := output_timing_plan_ok mode minIntervalNs periodNs era (by omega) small
  rw [plan]
  refine triple_known (triple_sample_known (fun value => isOk value = true) steady.asking
    fun m asking => ?_) fun delay converted => ?_
  · unfold clockDeltaToRealNs
    rw [asking.params, realtime.uses_model, if_neg (by decide)]
    split <;> rfl
  · obtain ⟨delay, rfl⟩ := is_ok_true converted
    have looked : Uses Op.ofWork ktimeGetReal := (uses_perform _).mpr trivial
    refine Triple.bind (triple_kept steady.asking looked fun op s reply t work step asking => ?_)
      fun nowReal => Triple.pure steady.asking fun m asking => ⟨rfl, asking⟩
    obtain ⟨clocks, params, -⟩ := work_frame work step
    exact asking.same clocks params

theorem check_output_timing_answer (steady : Steady start headroom env)
    (realtime : start.params.Realtime) (roomy : 3 * outputSafeTimeNs ≤ headroom)
    (mode : OutputMode) (times : OutputTimes) {firstEdgeNs : Int} (small : firstEdgeNs ≤ s64Max) :
    Triple (driverSem env) (Asking start headroom) (checkOutputTiming mode times firstEdgeNs)
      fun checked _ => checked = .ok () ↔ (mode = .hardware →
        isOk (clockDeltaToArtCycles start.params start.clocks (toS64 times.highTimeNs)) = true) := by
  refine triple_known (check_half_period_answer steady realtime mode times) fun counted known => ?_
  split
  next uncounted =>
    refine Triple.pure steady.asking fun m _ => ?_
    rw [← known]
    simp [uncounted]
  next converts =>
    rw [not_not] at converts
    refine triple_known (prepare_output_timing_answer steady realtime roomy _ _ mode small)
      fun timing prepared => ?_
    obtain ⟨timing, rfl⟩ := is_ok_true prepared
    refine Triple.pure steady.asking fun m _ => ?_
    rw [← known]
    simp [converts]

theorem wp_answers {α β : Type} (program : Driver α) (value : β) (s : Machine) :
    wp (driverSem env) (program >>= fun _ => Pure.pure value) (fun answer _ => answer = value) s := by
  rw [bind_def, wp_bind]
  have ends : wp (driverSem env) program (fun _ _ => True) s :=
    wp_uses (uses_true program) (fun _ _ _ _ _ _ _ => trivial) (fun _ _ _ _ => trivial) trivial
  exact wp_mono (fun _ t _ _ _ => rfl) ends

/-- A start is accepted exactly when its half period converts. -/
theorem start_output_values_answer (steady : Steady start headroom env)
    (realtime : start.params.Realtime) (roomy : 3 * outputSafeTimeNs ≤ headroom)
    (times : OutputTimes) {firstEdgeNs : Int} (small : firstEdgeNs ≤ s64Max) :
    Triple (driverSem env) (Asking start headroom) (startOutputValues times firstEdgeNs)
      fun status _ => status = .ok () ↔ HalfConverts start.params start.clocks times := by
  refine triple_known (triple_sample_known (· = true) steady.asking fun m asking => asking.base)
    fun hasBase base => ?_
  rw [if_neg (by simp [base])]
  refine triple_known (triple_sample_known (· = outputModeOf start.params times) steady.asking
    fun m asking => by rw [asking.params]) fun mode chosen => ?_
  subst chosen
  refine Triple.bind (check_output_timing_answer steady realtime roomy _ times small)
    fun checked => ?_
  have stable : Stable (driverSem env) fun _ => checked = .ok () ↔
      HalfConverts start.params start.clocks times := fun _ _ _ holds => holds
  cases checked with
  | error status =>
      refine Triple.pure stable fun m known => ?_
      simpa [HalfConverts] using known
  | ok done =>
      intro s known
      refine wp_mono (fun status m answered => ?_) (wp_answers _ _ s)
      rw [answered]
      exact known

variable {slots : PinSlots} {channel periodNs dutyNs : Nat} {dutyValid : Bool} {slot : PinSlot}
  {times : OutputTimes}

theorem config_output_values_start (found : peroutSlot slots channel = .ok slot)
    (valid : outputTimesGet periodNs dutyNs dutyValid = .ok times) (firstEdgeNs : Int) :
    configOutputValues slots channel periodNs dutyNs dutyValid firstEdgeNs true =
      (cancelOneshotStop >>= fun _ => startOutputValues times firstEdgeNs) := by
  unfold peroutSlot at found
  unfold configOutputValues
  cases lookup : findMmioBlockForChannel slots .perout channel with
  | error status =>
      rw [lookup] at found
      contradiction
  | ok other =>
      rw [lookup] at found
      obtain ⟨-, refused⟩ | ⟨usable, -⟩ := ite_eq_iff.mp found
      · cases refused
      · dsimp only
        rw [if_neg usable, valid]
        rfl

theorem config_output_values_answer (steady : Steady start headroom env)
    (realtime : start.params.Realtime) (roomy : 3 * outputSafeTimeNs ≤ headroom)
    (found : peroutSlot slots channel = .ok slot)
    (valid : outputTimesGet periodNs dutyNs dutyValid = .ok times) {firstEdgeNs : Int}
    (small : firstEdgeNs ≤ s64Max) :
    Triple (driverSem env) (Asking start headroom)
      (configOutputValues slots channel periodNs dutyNs dutyValid firstEdgeNs true)
      fun status _ => status = .ok () ↔ HalfConverts start.params start.clocks times := by
  rw [config_output_values_start found valid]
  refine Triple.via (fun _ => Asking start headroom) ?_
    fun _ => start_output_values_answer steady realtime roomy times small
  refine Triple.call steady.asking (fun _ => steady.asking) fun s reply t asking step => ?_
  cases step
  exact asking.same rfl rfl

theorem start_persistent_output_answer (steady : Steady start headroom env)
    (realtime : start.params.Realtime) (roomy : 3 * outputSafeTimeNs ≤ headroom)
    (found : peroutSlot slots channel = .ok slot)
    (valid : outputTimesGet periodNs dutyNs (dutyNs != 0) = .ok times) {delay : Nat}
    (fits : delay ≤ headroom) :
    Triple (driverSem env) (Asking start headroom)
      (startPersistentOutput slots channel periodNs dutyNs delay)
      fun status _ => status = .ok () ↔ HalfConverts start.params start.clocks times := by
  unfold startPersistentOutput
  split
  · exact config_output_values_answer steady realtime roomy found valid (by omega)
  split
  · rename_i far
    intro s asking
    have room := asking.era.2
    have begun := asking.era.1
    omega
  refine triple_known (clock_now_answer steady realtime) ?_
  rintro _ ⟨real, rfl, era, room⟩
  dsimp only
  unfold s64Max at room
  rw [if_neg (by omega), add_s64_ok (by omega) (by omega)]
  dsimp only
  rw [if_neg (by omega)]
  exact config_output_values_answer steady realtime roomy found valid (by unfold s64Max; omega)

end acceptance

/-- The promise of a published configuration: the first tick that finds a rate
brings the block to it, and arms it if it is still outstanding. -/
def ArmsOnTick (asked : OutputDesired) : Prop :=
  ∀ (begun offset : Int) (env : Machine → Machine → Prop), Attending asked begun offset env →
    ∀ s t, Ticking asked begun offset (Recorded asked) s →
      Executes (driverSem env) refineTickOutput s () t →
      t.block.has (Brought asked) ∧
        (Alongside env → Outstanding asked s → ArmedFor asked begun offset t)

/-- A request that is kept: accepted, published, and armed by the tick. -/
structure Kept (times : OutputTimes) (firstEdgeNs : Int) (before after : OutputDesired)
    (status : Except Errno Unit) : Prop where
  accepted : status = .ok ()
  published : ∃ mode, after = (Publish.configure .running mode times.periodNs times.highTimeNs
    times.lowTimeNs firstEdgeNs).update before
  arms : ArmsOnTick after

/-- In realtime mode an otherwise valid request is kept exactly when its half
period converts or is not needed, and the same decides whether an output that
is persisted lets the module load. -/
theorem acquisition_requests_kept_iff (env : Machine → Machine → Prop) (start : Machine)
    (headroom : Nat) (steady : Steady start headroom env) (realtime : start.params.Realtime)
    (roomy : 3 * outputSafeTimeNs ≤ headroom) (slots : PinSlots)
    (channel periodNs dutyNs : Nat) (dutyValid : Bool) (slot : PinSlot) (times : OutputTimes)
    (found : peroutSlot slots channel = .ok slot)
    (valid : outputTimesGet periodNs dutyNs dutyValid = .ok times)
    (asking : Asking start headroom start) :
    (∀ (firstEdgeNs : Int) (status : Except Errno Unit) (m : Machine), firstEdgeNs ≤ s64Max →
      Executes (driverSem env)
        (configOutputValues slots channel periodNs dutyNs dutyValid firstEdgeNs true)
        start status m →
      (Kept times firstEdgeNs start.desired m.desired status ↔
        HalfConverts start.params start.clocks times)) ∧
    (∀ (delay : Nat) (status : Except Errno Unit) (m : Machine), delay ≤ headroom →
      dutyValid = (dutyNs != 0) →
      Executes (driverSem env) (startPersistentOutput slots channel periodNs dutyNs delay)
        start status m →
      (status = .ok () ↔ HalfConverts start.params start.clocks times)) := by
  constructor
  · intro firstEdgeNs status m small run
    have answered := wp_executes (config_output_values_answer steady realtime roomy found valid small
      start asking) run
    rw [← answered]
    refine ⟨Kept.accepted, ?_⟩
    rintro rfl
    have outcome := wp_executes (config_output_values_outcome steady.undisturbed found start rfl) run
    rw [valid] at outcome
    cases outcome with
    | stopped off => contradiction
    | started same status asked valid started =>
        cases valid
        cases started with
        | published mode same =>
            refine ⟨rfl, ⟨mode, same⟩, fun begun offset env attending s t ticking tick => ?_⟩
            have running : m.desired.run = .running := congrArg OutputDesired.run same
            refine ⟨(wp_executes (refine_tick_brings attending running s ticking) tick).block, ?_⟩
            intro alongside outstanding
            have waiting : Waiting _ begun offset s :=
              ⟨ticking.imp fun _ => outstanding.unarmed, outstanding⟩
            exact (refine_tick_arms attending alongside running).ends waiting tick
  · rintro delay status m fits rfl run
    have answered := wp_executes (start_persistent_output_answer steady realtime roomy found valid
      fits start asking) run
    exact answered

/-- A realtime block at load, before anything has been measured. -/
def acquiringBlock (hardwarePeriodicOutput : Bool) : Machine :=
  .zeroed { defaultParams with clockMode := .realtime, hardwarePeriodicOutput }
    (steadyClocks 0 zero_in_range) ⟨0, 0, 0⟩ false

def secondRequest : Driver (Except Errno Unit) :=
  configOutputValues soleOutput 0 1000000000 0 false 0 true

def secondPersisted : Driver (Except Errno Unit) :=
  startPersistentOutput soleOutput 0 1000000000 0 0

def secondTimes : OutputTimes := ⟨1000000000, 500000000, 500000000⟩

theorem runs_alone {program : Driver (Except Errno Unit)} {m : Machine} {status : Except Errno Unit}
    (ends : (exec Machine.perform 20 [] program m).map Prod.fst = some status) :
    Executes (driverSem fun _ _ => False) program m status
      (finalState Machine.perform 20 [] program m) :=
  exec_final (fun _ _ _ _ step => step) 20 [] (by simp) program m status ends

def secondRequested : Machine := finalState Machine.perform 20 [] secondRequest (acquiringBlock false)

/-- The first tick after a rate has been measured. -/
def secondTicked : Machine :=
  finalState Machine.perform 60 [] refineTickOutput { secondRequested with clocks := unitRateClocks }

theorem acquisition_requests_kept_iff_software :
    Kept secondTimes 0 (acquiringBlock false).desired secondRequested.desired (.ok ()) ∧
      Executes (driverSem Beside) refineTickOutput { secondRequested with clocks := unitRateClocks } ()
        secondTicked ∧
      ArmedFor secondRequested.desired 0 0 secondTicked ∧
      secondTicked.block.outputNextEdge = 1000000000 ∧
      secondTicked.regs = ⟨ctlEn, 959999998, 0⟩ := by
  have steady : Steady (acquiringBlock false) (3 * outputSafeTimeNs) fun _ _ => False :=
    ⟨fun _ _ step => step.elim, fun _ _ step => step.elim⟩
  have asking : Asking (acquiringBlock false) (3 * outputSafeTimeNs) (acquiringBlock false) :=
    ⟨rfl, rfl, rfl, rfl, by decide +kernel, by decide +kernel⟩
  have kept := acquisition_requests_kept_iff _ (acquiringBlock false) _ steady ⟨rfl, rfl⟩ le_rfl
    soleOutput 0 1000000000 0 false ⟨.output, true, .perout, 0⟩ secondTimes rfl rfl asking
  have requested : Kept secondTimes 0 (acquiringBlock false).desired secondRequested.desired (.ok ()) := by
    refine (kept.1 0 (.ok ()) _ (by decide) (runs_alone (by decide +kernel))).mpr ?_
    intro hardware
    exact absurd hardware (by decide)
  have tick : Executes (driverSem Beside) refineTickOutput
      { secondRequested with clocks := unitRateClocks } () secondTicked :=
    exec_final (fun _ _ _ _ step => step) 60 [] (by simp) _ _ () (by decide +kernel)
  have attending : Attending secondRequested.desired 0 0 Beside := by
    refine ⟨?_, ?_, ?_⟩ <;> rintro s t (_ | _ | _ | _)
    all_goals first | rfl | exact id
  have measured : Measured secondRequested.desired 0 0 secondRequested.params unitRateClocks :=
    unit_rate_measured (by decide +kernel) (by decide +kernel) (by decide +kernel)
      (by decide +kernel)
  have ticking : Ticking secondRequested.desired 0 0 (Recorded secondRequested.desired)
      { secondRequested with clocks := unitRateClocks } :=
    ⟨measured, rfl, fun current => absurd current (by decide +kernel)⟩
  have outstanding : Outstanding secondRequested.desired
      { secondRequested with clocks := unitRateClocks } :=
    ⟨by decide +kernel, fun duty => absurd duty (by decide +kernel)⟩
  refine ⟨requested, tick, ?_, by decide +kernel, by decide +kernel⟩
  exact (requested.arms 0 0 Beside attending _ _ ticking tick).2 alongside_beside outstanding

/-- Without a rate a request for the hardware engine is refused, and an output
persisted for it keeps the module from loading. -/
theorem hardware_request_refused_without_rate :
    ¬∀ (start : Machine), start.params.Realtime → start.clocks.clocksourceHasBase = true →
      (∀ status m, Executes (driverSem fun _ _ => False) secondRequest start status m →
        Kept secondTimes 0 start.desired m.desired status) ∧
      (∀ status m, Executes (driverSem fun _ _ => False) secondPersisted start status m →
        status = .ok ()) := by
  intro claimed
  have persisted := (claimed (acquiringBlock true) ⟨rfl, rfl⟩ rfl).2 (.error .enodev) _
    (runs_alone (by decide +kernel))
  contradiction

end Tgpio

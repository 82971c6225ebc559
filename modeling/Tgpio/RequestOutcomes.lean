import Tgpio.OutputFrames
import Tgpio.OutputRequests
import Tgpio.PhcMapping

/-!
# What a request leaves behind

The outcomes of a request on its block: refused before anything is touched,
refused after the one-shot stop has been cancelled, a stop, a start. The claims
about a single request follow from these, with anything going on around it that
leaves the published configuration alone.
-/

namespace Tgpio

open Interference Interference.Prog

set_option autoImplicit false

/-- The part of a block that a request can change. -/
structure Footprint where
  desired : OutputDesired
  workQueued : Bool
  oneshotScheduled : Bool
  deriving DecidableEq, Repr

def Machine.footprint (m : Machine) : Footprint :=
  ⟨m.desired, m.workQueued, m.oneshotScheduled⟩

/-- Surroundings in which nobody else makes requests of the block. -/
def Undisturbed (env : Machine → Machine → Prop) : Prop :=
  ∀ s t, env s t → t.footprint = s.footprint

def Footprint.cancelled (before : Footprint) : Footprint :=
  { before with oneshotScheduled := false }

/-- The slot a request acts on, when it gets as far as a block. -/
def peroutSlot (slots : PinSlots) (channel : Nat) : Except Errno PinSlot :=
  match findMmioBlockForChannel slots .perout channel with
  | .error status => .error status
  | .ok slot => if slot.mode ≠ .output ∨ ¬slot.mapped then .error .eopnotsupp else .ok slot

/-- The outcomes of a start, by what was asked. -/
inductive Started (times : OutputTimes) (firstEdgeNs : Int) (before after : Footprint) :
    Except Errno Unit → Prop where
  | refused (status : Errno) : after = before →
      Started times firstEdgeNs before after (.error status)
  | published (mode : OutputMode) : after.desired = (Publish.configure .running mode
        times.periodNs times.highTimeNs times.lowTimeNs firstEdgeNs).update before.desired →
      after.oneshotScheduled = before.oneshotScheduled →
      Started times firstEdgeNs before after (.ok ())

/-- The outcomes of a request that has got as far as its block. -/
inductive Requested (times : Except Errno OutputTimes) (firstEdgeNs : Int) (on : Bool)
    (before after : Footprint) : Except Errno Unit → Prop where
  | stopped : on = false → after.desired = Publish.disable.update before.desired →
      Requested times firstEdgeNs on before after (.ok ())
  | refused (status : Errno) : on = true → times = .error status → after = before.cancelled →
      Requested times firstEdgeNs on before after (.error status)
  | started (valid : OutputTimes) (status : Except Errno Unit) : on = true → times = .ok valid →
      Started valid firstEdgeNs before.cancelled after status →
      Requested times firstEdgeNs on before after status

section outcomes

variable {env : Machine → Machine → Prop} {before : Footprint}

theorem stable_footprint (undisturbed : Undisturbed env) (fact : Footprint → Prop) :
    Stable (driverSem env) fun m => fact m.footprint := by
  intro s t step holds
  rw [undisturbed s t step]
  exact holds

def OnlyLooks : Op → Prop
  | .readl _ | .load | .sample _ _ | .ktimeGetReal | .outputDesiredGet | .msleep _ => True
  | _ => False

theorem only_looks_reading : Reading OnlyLooks := by
  constructor <;> intros <;> trivial

theorem looks_footprint {op : Op} {s t : Machine} {reply : op.Resp} (looks : OnlyLooks op)
    (step : s.perform op = some (reply, t)) : t.footprint = s.footprint := by
  cases op with
  | readl reg =>
      cases step
      cases reg <;> rfl
  | load | sample | ktimeGetReal | outputDesiredGet | msleep =>
      cases step
      rfl
  | _ => exact looks.elim

theorem triple_looks {α : Type} {program : Driver α} (undisturbed : Undisturbed env)
    (uses : Uses OnlyLooks program) (fact : Footprint → Prop) :
    Triple (driverSem env) (fun m => fact m.footprint) program (fun _ m => fact m.footprint) := by
  intro s holds
  refine wp_uses uses ?_ (stable_footprint undisturbed fact) holds
  intro op s reply t looks step kept
  rw [looks_footprint looks step]
  exact kept

theorem check_output_timing_uses (mode : OutputMode) (times : OutputTimes) (firstEdgeNs : Int) :
    Uses OnlyLooks (checkOutputTiming mode times firstEdgeNs) := by
  have counted : Uses OnlyLooks (checkHalfPeriod mode times) := by
    unfold checkHalfPeriod
    split
    · exact (uses_perform _).mpr trivial
    · exact uses_pure _
  refine Uses.seq counted fun counted => ?_
  split
  · exact uses_pure _
  refine Uses.seq (prepare_output_timing_uses only_looks_reading _ _ _ _) fun timing => ?_
  split <;> exact uses_pure _

theorem output_publish_outcome (undisturbed : Undisturbed env) (mode : OutputMode)
    (times : OutputTimes) (firstEdgeNs : Int) :
    Triple (driverSem env) (fun m => m.footprint = before)
      (outputPublish .running mode times.periodNs times.highTimeNs times.lowTimeNs firstEdgeNs)
      fun _ m => Started times firstEdgeNs before m.footprint (.ok ()) := by
  have stable := stable_footprint undisturbed fun after => Started times firstEdgeNs before after (.ok ())
  refine Triple.via (fun _ m => Started times firstEdgeNs before m.footprint (.ok ())) ?_ ?_
  · refine Triple.call (stable_footprint undisturbed (· = before)) (fun _ => stable) ?_
    intro s reply t same step
    cases step
    subst same
    exact .published mode rfl rfl
  · intro changed
    split
    · refine Triple.call stable (fun _ => stable) ?_
      intro s reply t started step
      cases step
      cases started with
      | published mode desired scheduled => exact .published mode desired scheduled
    · exact Triple.pure stable fun _ started => started

theorem start_output_values_outcome (undisturbed : Undisturbed env) (times : OutputTimes)
    (firstEdgeNs : Int) :
    Triple (driverSem env) (fun m => m.footprint = before) (startOutputValues times firstEdgeNs)
      fun status m => Started times firstEdgeNs before m.footprint status := by
  have refused (status : Errno) : Triple (driverSem env) (fun m => m.footprint = before)
      (Pure.pure (.error status) : Driver (Except Errno Unit))
      fun status m => Started times firstEdgeNs before m.footprint status :=
    Triple.pure (stable_footprint undisturbed (· = before)) fun m same => .refused status same
  refine Triple.bind (triple_looks undisturbed
    ((uses_perform _).mpr (only_looks_reading.sample _ _)) (· = before))
    fun hasBase => ?_
  split
  · exact refused .enodev
  refine Triple.bind (triple_looks undisturbed
    ((uses_perform _).mpr (only_looks_reading.sample _ _)) (· = before))
    fun mode => ?_
  refine Triple.bind (triple_looks undisturbed (check_output_timing_uses mode times firstEdgeNs)
    (· = before)) fun checked => ?_
  split
  · exact refused _
  · refine Triple.bind (output_publish_outcome undisturbed mode times firstEdgeNs) fun _ => ?_
    exact Triple.pure (stable_footprint undisturbed fun after =>
      Started times firstEdgeNs before after (.ok ())) fun _ started => started

variable {slots : PinSlots} {channel periodNs dutyNs : Nat} {dutyValid : Bool}
  {firstEdgeNs : Int} {on : Bool}

theorem config_output_values_refused {status : Errno}
    (refused : peroutSlot slots channel = .error status) :
    configOutputValues slots channel periodNs dutyNs dutyValid firstEdgeNs on =
      ret (.error status) := by
  unfold peroutSlot at refused
  unfold configOutputValues
  cases lookup : findMmioBlockForChannel slots .perout channel with
  | error other =>
      rw [lookup] at refused
      cases refused
      rfl
  | ok slot =>
      rw [lookup] at refused
      obtain ⟨unusable, refused⟩ | ⟨-, found⟩ := ite_eq_iff.mp refused
      · cases refused
        exact if_pos unusable
      · cases found

theorem disable_output_outcome (undisturbed : Undisturbed env) :
    Triple (driverSem env) (fun m => m.footprint = before) disableOutput
      fun _ m => m.footprint.desired = Publish.disable.update before.desired := by
  have stable := stable_footprint undisturbed fun after =>
    after.desired = Publish.disable.update before.desired
  refine Triple.via (fun _ m => m.footprint.desired = Publish.disable.update before.desired) ?_ ?_
  · refine Triple.call (stable_footprint undisturbed (· = before)) (fun _ => stable) ?_
    intro s reply t same step
    cases step
    subst same
    rfl
  · intro changed
    split
    · refine Triple.call stable (fun _ => stable) ?_
      intro s reply t published step
      cases step
      exact published
    · exact Triple.pure stable fun _ published => published

theorem config_output_values_outcome (undisturbed : Undisturbed env) {slot : PinSlot}
    (found : peroutSlot slots channel = .ok slot) :
    Triple (driverSem env) (fun m => m.footprint = before)
      (configOutputValues slots channel periodNs dutyNs dutyValid firstEdgeNs on)
      fun status m => Requested (outputTimesGet periodNs dutyNs dutyValid) firstEdgeNs on before
        m.footprint status := by
  unfold peroutSlot at found
  unfold configOutputValues
  cases lookup : findMmioBlockForChannel slots .perout channel with
  | error status =>
      rw [lookup] at found
      contradiction
  | ok other =>
  rw [lookup] at found
  obtain ⟨-, refused⟩ | ⟨usable, -⟩ := ite_eq_iff.mp found
  · cases refused
  dsimp only
  rw [if_neg usable]
  refine Triple.via (fun _ m => m.footprint = before.cancelled) ?_ fun _ => ?_
  · refine Triple.call (stable_footprint undisturbed (· = before))
      (fun _ => stable_footprint undisturbed (· = before.cancelled)) ?_
    intro s reply t same step
    cases step
    subst same
    rfl
  by_cases off : on = false
  · rw [if_pos (by simp [off])]
    refine Triple.bind (disable_output_outcome undisturbed) fun _ => ?_
    refine Triple.pure (stable_footprint undisturbed fun after =>
      after.desired = Publish.disable.update before.cancelled.desired) fun m published => ?_
    exact .stopped off published
  · have asked : on = true := by simpa using off
    rw [if_neg (by simp [asked])]
    split
    · rename_i status invalid
      refine Triple.pure (stable_footprint undisturbed (· = before.cancelled)) fun m same => ?_
      exact .refused status asked invalid same
    · rename_i times valid
      refine (start_output_values_outcome undisturbed times firstEdgeNs).post fun status m => ?_
      exact .started times status asked valid

/-- A request that is refused before its block is touched: by its own fields, or
because the channel has no usable output block. -/
def refusedFirst (slots : PinSlots) (perout : PtpPeroutRequest) (on : Bool) : Bool :=
  (on && !isOk (peroutValues perout)) || !isOk (peroutSlot slots perout.index)

theorem is_ok_false {α : Type} {result : Except Errno α} (failed : isOk result = false) :
    ∃ status, result = .error status := by
  cases result with
  | error status => exact ⟨status, rfl⟩
  | ok value => contradiction

theorem is_ok_true {α : Type} {result : Except Errno α} (succeeded : isOk result = true) :
    ∃ value, result = .ok value := by
  cases result with
  | error status => contradiction
  | ok value => exact ⟨value, rfl⟩

theorem config_output_refused_first {perout : PtpPeroutRequest}
    (refused : refusedFirst slots perout on = true) :
    ∃ status, configOutput slots perout on = ret (.error status) := by
  have noSlot (unusable : isOk (peroutSlot slots perout.index) = false) (p d : Nat) (v : Bool)
      (f : Int) : ∃ status, configOutputValues slots perout.index p d v f on = ret (.error status) := by
    obtain ⟨status, missing⟩ := is_ok_false unusable
    exact ⟨status, config_output_values_refused missing⟩
  unfold configOutput
  cases on with
  | false =>
      rw [if_pos (by simp)]
      exact noSlot (by simpa [refusedFirst] using refused) 0 0 false 0
  | true =>
      rw [if_neg (by simp)]
      cases parsed : peroutValues perout with
      | error status => exact ⟨status, rfl⟩
      | ok values =>
          refine noSlot ?_ values.1 values.2.1 perout.hasDuty values.2.2
          simpa [refusedFirst, parsed, isOk] using refused

theorem config_output_outcome (undisturbed : Undisturbed env) {perout : PtpPeroutRequest}
    (reached : refusedFirst slots perout on = false) :
    ∃ times first, Triple (driverSem env) (fun m => m.footprint = before)
      (configOutput slots perout on)
      fun status m => Requested times first on before m.footprint status := by
  obtain ⟨parses, usable⟩ := Bool.or_eq_false_iff.mp reached
  obtain ⟨slot, found⟩ := is_ok_true (by simpa using usable)
  unfold configOutput
  cases on with
  | false =>
      rw [if_pos (by simp)]
      exact ⟨_, _, config_output_values_outcome undisturbed found⟩
  | true =>
      rw [if_neg (by simp)]
      obtain ⟨⟨period, duty, first⟩, parsed⟩ := is_ok_true (by simpa using parses)
      rw [parsed]
      exact ⟨_, _, config_output_values_outcome undisturbed found⟩

end outcomes

/-- A rejected request changes nothing exactly when it is refused before its
block is touched, or when no one-shot stop was scheduled. -/
theorem rejected_request_changes_nothing (env : Machine → Machine → Prop)
    (undisturbed : Undisturbed env) (slots : PinSlots) (perout : PtpPeroutRequest) (on : Bool)
    (m m' : Machine) (status : Errno)
    (run : Executes (driverSem env) (configOutput slots perout on) m (.error status) m') :
    m'.footprint = m.footprint ↔
      m.oneshotScheduled = false ∨ refusedFirst slots perout on = true := by
  cases reached : refusedFirst slots perout on with
  | true =>
      obtain ⟨_, refused⟩ := config_output_refused_first reached
      rw [refused] at run
      have kept := wp_executes ((triple_looks undisturbed (uses_ret _) (· = m.footprint)) m rfl) run
      simpa using kept
  | false =>
      obtain ⟨times, first, outcome⟩ := config_output_outcome undisturbed reached
      have cancelled : m'.footprint = m.footprint.cancelled := by
        cases wp_executes (outcome m rfl) run with
        | refused status asked invalid same => exact same
        | started valid status asked times started =>
            cases started with
            | refused status same => exact same
      rw [cancelled]
      constructor
      · intro same
        exact Or.inl (congrArg Footprint.oneshotScheduled same).symm
      · intro unscheduled
        have off : m.oneshotScheduled = false := by simpa using unscheduled
        unfold Footprint.cancelled Machine.footprint
        rw [off]

def soleOutput : PinSlots := [⟨.output, true, .perout, 0⟩]

/-- A one-shot pulse in flight: published, with its stop scheduled. -/
def pulsing : Machine :=
  { loadedBlock.publish (.configure .running .hardware 200000000 100000000 100000000 1200000000) with
    oneshotScheduled := true }

def zeroPeriod : PtpPeroutRequest := ⟨⟨0, 0⟩, ⟨0, 0⟩, ⟨0, 0⟩, 0, 0⟩

def afterRequest (slots : PinSlots) (perout : PtpPeroutRequest) (m : Machine) : Machine :=
  finalState Machine.perform 20 [] (configOutput slots perout true) m

theorem request_runs_alone {slots : PinSlots} {perout : PtpPeroutRequest} {m : Machine}
    {status : Except Errno Unit}
    (ends : (exec Machine.perform 20 [] (configOutput slots perout true) m).map Prod.fst =
      some status) :
    Executes (driverSem fun _ _ => False) (configOutput slots perout true) m status
      (afterRequest slots perout m) := by
  unfold afterRequest
  exact exec_final (fun _ _ _ _ step => step) 20 [] (by simp) _ m status ends

/-- A request with a flag that is not supported. -/
def phaseRequest : PtpPeroutRequest := ⟨⟨0, 0⟩, ⟨1, 0⟩, ⟨0, 0⟩, 0, 4⟩

theorem rejected_request_changes_nothing_pulsing :
    pulsing.oneshotScheduled = true ∧
      (afterRequest soleOutput phaseRequest pulsing).footprint = pulsing.footprint := by
  refine ⟨rfl, ?_⟩
  have run : Executes (driverSem fun _ _ => False) (configOutput soleOutput phaseRequest true)
      pulsing (.error .eopnotsupp) (afterRequest soleOutput phaseRequest pulsing) :=
    request_runs_alone (by decide +kernel)
  exact (rejected_request_changes_nothing _ (fun _ _ step => step.elim) soleOutput phaseRequest true
    pulsing _ .eopnotsupp run).mpr (.inr (by decide +kernel))

/-- A bad request takes the stop of a pulse in flight with it. -/
theorem rejected_request_unschedules_stop :
    ¬∀ (slots : PinSlots) (perout : PtpPeroutRequest) (m m' : Machine) (status : Errno),
      Executes (driverSem fun _ _ => False) (configOutput slots perout true) m (.error status) m' →
      m'.footprint = m.footprint := by
  intro unchanged
  have same := unchanged soleOutput zeroPeriod pulsing _ .einval (request_runs_alone (by decide +kernel))
  exact absurd (congrArg Footprint.oneshotScheduled same) (by decide +kernel)

end Tgpio

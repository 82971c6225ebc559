import Tgpio.OutputWork
import Tgpio.Interference.Worker

/-!
# The reconciler and its surroundings

The moves of everything around a run of `outputWork`: the timer, the publishers
between their update and their `schedule_work`, the delayed one-shot stop, and
the edges of the block. `outputWorker` runs `outputWork` whenever it is queued.
-/

namespace Tgpio

open Interference Interference.Prog

set_option autoImplicit false

namespace Machine

variable (m : Machine)

def expire : Machine := { m with timerArmed := false, timerFiring := true }

/-- The callback of the timer: `schedule_work`, no restart. -/
def outputTimer : Machine := { m.scheduleWork with timerFiring := false }

/-- A publisher updates `output_desired`, and still has to schedule the work. -/
def beginPublish (request : Publish) : Machine :=
  { m.publish request with owed := m.owed + 1 }

def endPublish : Machine := { m.scheduleWork with owed := m.owed - 1 }

def beginOneshot : Machine := { m with oneshotScheduled := false, oneshotRun := .begun }

def publishOneshot : Machine := { m.publish .disable with oneshotRun := .published }

def endOneshot : Machine := { m.scheduleWork with oneshotRun := .idle }

def beginRun : Machine := { m with workQueued := false, workRunning := true, served := true }

def endRun : Machine := { m with workRunning := false }

end Machine

/-- Everything that can happen around the driver's accesses: time passes and
clocks are set, the timer expires, publishers come and go, edges are generated. -/
inductive Surroundings : Machine → Machine → Prop where
  | clocks {m : Machine} (clocks : Clocks) : Surroundings m { m with clocks }
  | expire {m : Machine} : m.timerArmed = true → m.timerFiring = false →
      Surroundings m m.expire
  | outputTimer {m : Machine} : m.timerFiring = true → Surroundings m m.outputTimer
  | beginPublish {m : Machine} (request : Publish) : request.applies m.desired = true →
      m.publishes + 1 < 2 ^ 32 → Surroundings m (m.beginPublish request)
  | endPublish {m : Machine} : 0 < m.owed → Surroundings m m.endPublish
  | edge {m : Machine} : m.freeRunning = true → Surroundings m m.periodicEdge
  | fire {m : Machine} : m.singleShot = true → Surroundings m m.fire

/-- The work item: queued, it runs `outputWork`, one run at a time. -/
def outputWorkerOf (sem : Semantics Op Op.Resp Machine) : Worker Op Op.Resp Machine where
  toSemantics := sem
  program := outputWork
  start m m' := m.workQueued = true ∧ m.workRunning = false ∧ m' = m.beginRun
  finish m m' := m' = m.endRun

def outputWorker (env : Machine → Machine → Prop) : Worker Op Op.Resp Machine :=
  outputWorkerOf (driverSem env)

def guardedSem (guard : Op → Machine → Prop) (env : Machine → Machine → Prop) :
    Semantics Op Op.Resp Machine where
  step op m reply m' := guard op m ∧ m.perform op = some (reply, m')
  env := env

theorem perform_running {op : Op} {s t : Machine} {reply : op.Resp}
    (step : Machine.perform op s = some (reply, t)) : t.workRunning = s.workRunning := by
  cases op with
  | readl reg =>
      cases step
      cases reg <;> rfl
  | writel reg value =>
      cases step
      cases reg <;> rfl
  | publish request =>
      cases step
      simp only [Machine.publish]
      split <;> rfl
  | mark point =>
      cases step
      cases point <;> rfl
  | hrtimerCancel | cancelOneshotStopSync | cancelWorkEnd =>
      simp only [Machine.perform] at step
      split at step
      all_goals
        cases step
        try rfl
  | _ =>
      cases step
      rfl

section tracing

/-- What a trace records of the surroundings. A publish and its
`schedule_work`, or an expiry and its callback, are one event here. -/
inductive Event where
  | clocks (clocks : Clocks)
  | timer
  | publish (request : Publish)
  | edge
  | fire

def Machine.act (m : Machine) : Event → Option Machine
  | .clocks clocks => some { m with clocks }
  | .timer =>
      if m.timerArmed = true ∧ m.timerFiring = false then some m.expire.outputTimer else none
  | .publish request =>
      if request.applies m.desired = true ∧ m.publishes + 1 < 2 ^ 32 then
        some (m.beginPublish request).endPublish
      else none
  | .edge =>
      if m.freeRunning = true ∧ m.regs.compv.toNat + m.regs.piv.toNat < 2 ^ 64 then
        some m.periodicEdge
      else none
  | .fire => if m.workRunning = false ∧ m.singleShot = true then some m.fire else none

theorem act_surroundings {event : Event} {m m' : Machine} (acted : m.act event = some m') :
    (driverSem Surroundings).Rely m m' := by
  cases event with
  | clocks clocks =>
      cases acted
      exact .single (.clocks clocks)
  | timer =>
      obtain ⟨ready, acted⟩ := Option.ite_none_right_eq_some.mp acted
      cases acted
      exact .tail (.single (.expire ready.1 ready.2)) (.outputTimer rfl)
  | publish request =>
      obtain ⟨room, acted⟩ := Option.ite_none_right_eq_some.mp acted
      cases acted
      exact .tail (.single (.beginPublish request room.1 room.2)) (.endPublish (Nat.succ_pos _))
  | edge =>
      obtain ⟨runs, acted⟩ := Option.ite_none_right_eq_some.mp acted
      cases acted
      exact .single (.edge runs.1)
  | fire =>
      obtain ⟨waits, acted⟩ := Option.ite_none_right_eq_some.mp acted
      cases acted
      exact .single (.fire waits.2)

def Machine.startRun (m : Machine) : Option Machine :=
  if m.workQueued = true ∧ m.workRunning = false then some m.beginRun else none

theorem start_run_sound (m m' : Machine) (started : m.startRun = some m') :
    m.workQueued = true ∧ m.workRunning = false ∧ m' = m.beginRun := by
  obtain ⟨ready, started⟩ := Option.ite_none_right_eq_some.mp started
  cases started
  exact ⟨ready.1, ready.2, rfl⟩

theorem end_run_sound {env : Machine → Machine → Prop} (m : Machine) :
    (outputWorker env).finish m m.endRun := rfl

def outputTracer : (outputWorker Surroundings).Tracer Event where
  handler := Machine.perform
  start := Machine.startRun
  finish := Machine.endRun
  act event m := m.act event
  handlerSound _ _ _ _ step := step
  startSound := start_run_sound
  finishSound := end_run_sound
  actSound _ _ _ := act_surroundings

def guardedTracer {guard : Op → Machine → Prop} (check : Op → Machine → Bool)
    (sound : ∀ op m, check op m = true → guard op m) :
    (outputWorkerOf (guardedSem guard Surroundings)).Tracer Event where
  handler op m := if check op m = true then m.perform op else none
  start := Machine.startRun
  finish := Machine.endRun
  act event m := m.act event
  handlerSound _ _ _ _ step :=
    have ⟨checked, performed⟩ := Option.ite_none_right_eq_some.mp step
    ⟨sound _ _ checked, performed⟩
  startSound := start_run_sound
  finishSound _ := rfl
  actSound _ _ _ := act_surroundings

/-- A hardware start: the prepared phase, then the arm. -/
def hardwareStart : List (Worker.Traced Event) :=
  [.act (.publish (.configure .running .hardware 1000000000 500000000 500000000 2000000000)), .run,
    .act .timer, .run]

end tracing

end Tgpio

import Tgpio.OutputAlone
import Tgpio.OutputSystem

/-!
# What is due, in time

One output block on a real-time axis. A queued run of the work comes at once, a
timer and the stop of a pulse when they are due, and the engine's edges at the
ART values they are generated at. Nothing else happens, so the course of events
is determined. When the stop is due depends on the jiffies of the kernel.
-/

namespace Tgpio

open Interference Interference.Prog

set_option autoImplicit false

/-- An edge as it is seen at the pin: its ART value, and the level after it. -/
structure PinEdge where
  art : Nat
  high : Bool
  deriving DecidableEq, Repr

/-- A block, the time its `oneshot_stop_work` is due, and the edges so far. The
timer has last been started for `outputWakeAt`, which is stored with each start. -/
structure Scene where
  machine : Machine
  stopAt : Int
  edges : List PinEdge

namespace Scene

variable (counter : Int → BitVec 64) (delayed : Nat → Nat) (s : Scene)

def withMachine (m : Machine) : Scene := { s with machine := m }

def now : Int := s.machine.clocks.real

def edgesUpTo (art : Nat) : List PinEdge :=
  (List.range (s.machine.edgesBy art)).map fun k =>
    ⟨s.machine.edgeArt + k * s.machine.regs.piv.toNat, s.machine.flop ^^ (k + 1).bodd⟩

/-- Time goes by until `time`, which may be over already. -/
def elapseTo (time : Int) : Scene :=
  let ns := (time - s.now).toNat
  { s with
    machine := s.machine.elapse counter ns
    edges := s.edges ++ s.edgesUpTo (counter (s.now + ns)).toNat }

/-- The accesses: a sleep lasts for as long as it asks to, and the stop of a
pulse is due `delayed` nanoseconds on, which `nsecs_to_jiffies` makes of its delay. -/
def perform : Handler Op Op.Resp Scene
  | .msleep msecs, s => some ((), s.elapseTo counter (s.now + (msecs * nsecPerMsec : Nat)))
  | .scheduleOneshotStop delayNs, s =>
      some ((), { s with
        machine := { s.machine with oneshotScheduled := true }
        stopAt := if s.machine.oneshotScheduled then s.stopAt else s.now + delayed delayNs })
  | op, s => (s.machine.perform op).map fun done => (done.1, s.withMachine done.2)

inductive Next : Scene → Scene → Prop where
  | work {s t : Scene} : s.machine.workQueued = true →
      Executes (alone (perform counter delayed)) outputWork (s.withMachine s.machine.beginRun) () t →
      Next s (t.withMachine t.machine.endRun)
  | timer {s t : Scene} : s.machine.workQueued = false → s.machine.timerArmed = true →
      (s.machine.oneshotScheduled = true → s.machine.block.outputWakeAt ≤ s.stopAt) →
      t = s.elapseTo counter s.machine.block.outputWakeAt →
      Next s (t.withMachine t.machine.expire.outputTimer)
  | stop {s t : Scene} : s.machine.workQueued = false → s.machine.oneshotScheduled = true →
      (s.machine.timerArmed = true → s.stopAt < s.machine.block.outputWakeAt) →
      t = s.elapseTo counter s.stopAt →
      Next s (t.withMachine t.machine.beginOneshot.publishOneshot.endOneshot)

structure Over : Prop where
  unqueued : s.machine.workQueued = false
  untimed : s.machine.timerArmed = false
  unscheduled : s.machine.oneshotScheduled = false

end Scene

section determined

variable {counter : Int → BitVec 64} {delayed : Nat → Nat} {s t u : Scene}

theorem next_unique : Relator.RightUnique (Scene.Next counter delayed) := by
  intro s t u first second
  cases first with
  | work queued ran =>
      cases second with
      | work _ other =>
          have same := ran.unique other
          rw [same.2]
      | timer idle => simp [queued] at idle
      | stop idle => simp [queued] at idle
  | timer idle armed before reached =>
      cases second with
      | work queued => simp [idle] at queued
      | timer _ _ _ other => rw [reached, other]
      | stop _ scheduled after =>
          have earlier := before scheduled
          have later := after armed
          omega
  | stop idle scheduled after reached =>
      cases second with
      | work queued => simp [idle] at queued
      | timer _ armed before =>
          have earlier := before scheduled
          have later := after armed
          omega
      | stop _ _ _ other => rw [reached, other]

theorem Scene.Over.last (ended : s.Over) : ¬Scene.Next counter delayed s t := by
  intro next
  cases next with
  | work queued => simp [ended.unqueued] at queued
  | timer _ armed => simp [ended.untimed] at armed
  | stop _ scheduled => simp [ended.unscheduled] at scheduled

theorem over_unique (first : Relation.ReflTransGen (Scene.Next counter delayed) s t)
    (second : Relation.ReflTransGen (Scene.Next counter delayed) s u) (firstOver : t.Over)
    (secondOver : u.Over) : t = u := by
  rcases Relation.ReflTransGen.total_of_right_unique next_unique first second with more | more
  · cases Relation.ReflTransGen.cases_head more with
    | inl same => exact same
    | inr further =>
        obtain ⟨_, next, -⟩ := further
        exact absurd next firstOver.last
  · cases Relation.ReflTransGen.cases_head more with
    | inl same => exact same.symm
    | inr further =>
        obtain ⟨_, next, -⟩ := further
        exact absurd next secondOver.last

end determined

/-- The accesses of a run that has no need to sleep. -/
def Machine.awake : Handler Op Op.Resp Machine := Machine.waiting fun _ _ => none

theorem awake_answers {counter : Int → BitVec 64} {delayed : Nat → Nat} {s : Scene} (op : Op) (m : Machine)
    (reply : op.Resp) (m' : Machine) (work : op.ofWork)
    (answered : Machine.awake op m = some (reply, m')) :
    Scene.perform counter delayed op (s.withMachine m) = some (reply, s.withMachine m') := by
  have plain (performed : Machine.perform op m = some (reply, m')) :
      (Machine.perform op m).map (fun done => (done.1, s.withMachine done.2)) =
        some (reply, s.withMachine m') := by
    rw [performed]
    rfl
  cases op with
  | msleep msecs => cases answered
  | scheduleOneshotStop delayNs => exact work.elim
  | _ => exact plain answered

theorem next_awake {counter : Int → BitVec 64} {delayed : Nat → Nat} {s : Scene} {m' : Machine}
    (queued : s.machine.workQueued = true)
    (ran : Executes (alone Machine.awake) outputWork s.machine.beginRun () m') :
    Scene.Next counter delayed s (s.withMachine m'.endRun) := by
  have embedded : Executes (alone (Scene.perform counter delayed)) outputWork
      (s.withMachine s.machine.beginRun) () (s.withMachine m') :=
    ran.embed s.withMachine awake_answers (output_work_uses of_work_working)
  exact .work queued embedded

def WorkFrame (s t : Machine) : Prop :=
  t = { s with
    regs := t.regs, comparePending := t.comparePending, history := t.history, block := t.block
    timerArmed := t.timerArmed }

theorem awake_performs {op : Op} {s t : Machine} {reply : op.Resp}
    (answered : Machine.awake op s = some (reply, t)) : Machine.perform op s = some (reply, t) := by
  cases op with
  | msleep msecs => cases answered
  | _ => exact answered

theorem awake_work_frame {m m' : Machine} (ran : Executes (alone Machine.awake) outputWork m () m') :
    WorkFrame m m' := by
  have still : Stable (alone Machine.awake) (WorkFrame m) := fun _ _ step => step.elim
  have accessed (op : Op) (s : Machine) (reply : op.Resp) (t : Machine) (work : op.ofWork)
      (step : Machine.awake op s = some (reply, t)) (frame : WorkFrame m s) : WorkFrame m t := by
    have parts := of_work_frame work (awake_performs step)
    unfold WorkFrame at *
    rw [parts, frame]
  have kept : wp (alone Machine.awake) outputWork (fun _ => WorkFrame m) m :=
    wp_uses (output_work_uses of_work_working) accessed still rfl
  have after := wp_executes kept ran
  exact after

end Tgpio

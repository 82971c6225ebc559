import Tgpio.Reconciler

/-!
# Tearing an output down

The timer queues the work, a run of the work arms the timer, and a run that
took its snapshot before the block was stopped knows nothing of the stop.
`disableOutputs` cancels both twice. After the first round every run is one that
saw STOPPED, and such a run neither arms the timer nor starts the engine.
-/

namespace Tgpio

open Interference Interference.Prog

set_option autoImplicit false

/-- The surroundings once the publishers are gone: time, the timer, the delayed
one-shot stop, and the hardware. -/
inductive Unpublished : Machine → Machine → Prop where
  | clocks {m : Machine} (clocks : Clocks) : Unpublished m { m with clocks }
  | expire {m : Machine} : m.timerArmed = true → m.timerFiring = false → Unpublished m m.expire
  | outputTimer {m : Machine} : m.timerFiring = true → Unpublished m m.outputTimer
  | beginOneshot {m : Machine} : m.oneshotScheduled = true → m.oneshotRun = .idle →
      Unpublished m m.beginOneshot
  | publishOneshot {m : Machine} : m.oneshotRun = .begun → Unpublished m m.publishOneshot
  | endOneshot {m : Machine} : m.oneshotRun = .published → Unpublished m m.endOneshot
  | edge {m : Machine} : m.freeRunning = true → Unpublished m m.periodicEdge
  | fire {m : Machine} : m.singleShot = true → Unpublished m m.fire

abbrev lastWorker : Worker Op Op.Resp Machine := outputWorker Unpublished

/-- What the unloading thread acts on: the machine and the run in progress. -/
abbrev Unloading := Worker.Config Op Op.Resp Machine

abbrev unloadSem : Semantics Op Op.Resp Unloading := lastWorker.beside

/-- A run of the work, or what is left of one. -/
inductive RestOfRun : Driver Unit → Prop where
  | whole : RestOfRun outputWork
  | later {program later : Driver Unit} {s t : Machine} : RestOfRun program →
      Step lastWorker.toSemantics program s later t → RestOfRun later

/-- The state of the block at entry is anything; a run in progress is at any
point of `outputWork`, with whatever snapshot it has taken. -/
structure Entry (config : Unloading) : Prop where
  paired : config.run.isSome = config.state.workRunning
  run : ∀ program, config.run = some program → RestOfRun program

/-- Accesses of a run that saw STOPPED. -/
def Op.ofStop (op : Op) : Prop := op.ofWork ∧ Unarming op

theorem of_stop_halting : Halting Op.ofStop := by
  have work := of_work_working
  have unarming := unarming_halting
  exact
    { readl := fun reg => ⟨work.readl reg, unarming.readl reg⟩
      load := ⟨work.load, unarming.load⟩
      sample := fun α read => ⟨work.sample α read, unarming.sample α read⟩
      real := ⟨work.real, unarming.real⟩
      desired := ⟨work.desired, unarming.desired⟩
      sleep := fun msecs => ⟨work.sleep msecs, unarming.sleep msecs⟩
      looked := ⟨work.looked, unarming.looked⟩
      duty := fun compv => ⟨work.duty compv, unarming.duty compv⟩
      periodic := fun compv => ⟨work.periodic compv, unarming.periodic compv⟩
      data := fun reg value notCtl => ⟨work.data reg value notCtl, unarming.data reg value notCtl⟩
      disable := fun value off => ⟨work.disable value off, unarming.disable value off⟩
      halt := ⟨work.halt, unarming.halt⟩ }

theorem unarming_cancel : Unarming .hrtimerCancel := by
  intro s reply t step _
  simp only [Machine.perform] at step
  split at step
  · contradiction
  · cases step
    rfl

/-- No one-shot stop is waiting or running. -/
def NoOneshot (m : Machine) : Prop := m.oneshotScheduled = false ∧ m.oneshotRun = .idle

/-- The timer is neither armed nor in its callback. -/
def NoTimer (m : Machine) : Prop := m.timerArmed = false ∧ m.timerFiring = false

/-- In the first round: STOPPED is published, and which sources of another run
are already gone. A work item that is being cancelled cannot be queued. -/
structure Stopping (oneshot cancelling : Bool) (m : Machine) : Prop where
  stopped : m.desired.run = .stopped
  noOneshot : oneshot = true → NoOneshot m
  unqueued : cancelling = true → m.workCancelling = true ∧ m.workQueued = false

/-- In the second round: no one-shot stop is left, and once the timer is gone
nothing is left that would queue the work. -/
structure Draining (timer queue : Bool) (m : Machine) : Prop where
  stopped : m.desired.run = .stopped
  noOneshot : NoOneshot m
  noTimer : timer = true → NoTimer m
  unqueued : queue = true → NoTimer m ∧ m.workQueued = false

section steps

variable {oneshot cancelling timer queue : Bool}

theorem Stopping.move {s t : Machine} (step : Unpublished s t)
    (stopping : Stopping oneshot cancelling s) : Stopping oneshot cancelling t := by
  obtain ⟨stopped, noOneshot, unqueued⟩ := stopping
  have scheduled (set : cancelling = true) :
      s.scheduleWork.workCancelling = true ∧ s.scheduleWork.workQueued = false := by
    refine ⟨(unqueued set).1, ?_⟩
    simp [Machine.scheduleWork, unqueued set]
  cases step with
  | clocks clocks => exact ⟨stopped, noOneshot, unqueued⟩
  | expire _ _ => exact ⟨stopped, noOneshot, unqueued⟩
  | outputTimer _ => exact ⟨stopped, noOneshot, scheduled⟩
  | beginOneshot waits _ =>
      exact ⟨stopped, fun set => by simp [(noOneshot set).1] at waits, unqueued⟩
  | publishOneshot begun =>
      exact ⟨rfl, fun set => by simp [(noOneshot set).2] at begun, unqueued⟩
  | endOneshot published =>
      exact ⟨stopped, fun set => by simp [(noOneshot set).2] at published, scheduled⟩
  | edge _ => exact ⟨stopped, noOneshot, unqueued⟩
  | fire _ => exact ⟨stopped, noOneshot, unqueued⟩

theorem Draining.move {s t : Machine} (step : Unpublished s t)
    (draining : Draining timer queue s) : Draining timer queue t := by
  obtain ⟨stopped, noOneshot, noTimer, unqueued⟩ := draining
  cases step with
  | clocks clocks => exact ⟨stopped, noOneshot, noTimer, unqueued⟩
  | expire armed _ =>
      exact ⟨stopped, noOneshot, fun set => by simp [(noTimer set).1] at armed,
        fun set => by simp [(unqueued set).1.1] at armed⟩
  | outputTimer firing =>
      exact ⟨stopped, noOneshot, fun set => by simp [(noTimer set).2] at firing,
        fun set => by simp [(unqueued set).1.2] at firing⟩
  | beginOneshot waits _ => simp [noOneshot.1] at waits
  | publishOneshot begun => simp [noOneshot.2] at begun
  | endOneshot published => simp [noOneshot.2] at published
  | edge _ => exact ⟨stopped, noOneshot, noTimer, unqueued⟩
  | fire _ => exact ⟨stopped, noOneshot, noTimer, unqueued⟩

/-- The part of the state that decides whether the work runs again, the armed
timer apart. -/
def Machine.sources (m : Machine) : OutputDesired × Bool × OneshotRun × Bool × Bool × Bool :=
  (m.desired, m.oneshotScheduled, m.oneshotRun, m.timerFiring, m.workQueued, m.workCancelling)

theorem of_work_sources {op : Op} {s t : Machine} {reply : op.Resp} (work : op.ofWork)
    (step : Machine.perform op s = some (reply, t)) : t.sources = s.sources := by
  rw [of_work_frame work step]
  rfl

theorem Stopping.sources {s t : Machine} (same : t.sources = s.sources)
    (stopping : Stopping oneshot cancelling s) : Stopping oneshot cancelling t := by
  simp only [Machine.sources, Prod.mk.injEq] at same
  obtain ⟨desired, scheduled, oneshotRun, firing, queued, cancels⟩ := same
  refine ⟨by rw [desired, stopping.stopped], fun set => ?_, fun set => ?_⟩
  · rw [NoOneshot, scheduled, oneshotRun]
    exact stopping.noOneshot set
  · rw [cancels, queued]
    exact stopping.unqueued set

theorem Draining.sources {s t : Machine} (same : t.sources = s.sources)
    (unarming : s.timerArmed = false → t.timerArmed = false)
    (draining : Draining timer queue s) : Draining timer queue t := by
  simp only [Machine.sources, Prod.mk.injEq] at same
  obtain ⟨desired, scheduled, oneshotRun, firing, queued, cancels⟩ := same
  have timer_ (none : NoTimer s) : NoTimer t := ⟨unarming none.1, firing.trans none.2⟩
  refine ⟨by rw [desired, draining.stopped], ?_, fun set => timer_ (draining.noTimer set),
    fun set => ⟨timer_ (draining.unqueued set).1, queued.trans (draining.unqueued set).2⟩⟩
  rw [NoOneshot, scheduled, oneshotRun]
  exact draining.noOneshot

end steps

section stages

variable {oneshot cancelling timer queue : Bool}

/-- A run is in progress exactly when the work item says so. -/
def Paired (config : Unloading) : Prop := config.run.isSome = config.state.workRunning

theorem stable_paired : Stable unloadSem Paired := by
  rintro before after (env | start | step | finish) paired
  · have same : ∀ {s t : Machine}, Unpublished s t → t.workRunning = s.workRunning := by
      intro s t env
      cases env with
      | publishOneshot _ =>
          simp only [Machine.publishOneshot, Machine.publish]
          split <;> rfl
      | _ => rfl
    exact paired.trans (same env).symm
  · obtain ⟨-, -, rfl⟩ := start
    rfl
  · cases step with
    | call step => exact paired.trans (perform_running step).symm
    | loop => exact paired
  · obtain rfl := finish
    rfl

/-- A run that has not taken its snapshot yet, or has seen STOPPED. -/
def Stops (program : Driver Unit) : Prop :=
  program = outputWork ∨ Uses Op.ofStop program

theorem RestOfRun.uses {program : Driver Unit} (rest : RestOfRun program) :
    Uses Op.ofWork program := by
  induction rest with
  | whole => exact output_work_uses of_work_working
  | later _ step ih => exact ih.step step

/-- A step of a run in the second round: its snapshot is STOPPED, and from there
on it arms nothing. -/
theorem Stops.step {s t : Machine} {program later : Driver Unit}
    (step : Step lastWorker.toSemantics program s later t) (stops : Stops program)
    (draining : Draining timer queue s) : Draining timer queue t ∧ Stops later := by
  rcases stops with rfl | uses
  · cases step with
    | call step =>
        cases step
        refine ⟨draining, .inr ?_⟩
        change Uses Op.ofStop (if s.desired.run = .stopped then stopOutput else _)
        rw [if_pos draining.stopped]
        exact stop_output_uses of_stop_halting ⟨trivial, unarming_cancel⟩
  · refine ⟨?_, .inr (uses.step step)⟩
    cases step with
    | call step =>
        exact draining.sources (of_work_sources uses.1.1 step) (uses.1.2 _ _ _ step)
    | loop => exact draining

/-- The first round: whatever is in progress may still arm the timer. -/
def InFirst (oneshot cancelling : Bool) (config : Unloading) : Prop :=
  Paired config ∧ Stopping oneshot cancelling config.state ∧
    ∀ program, config.run = some program → Uses Op.ofWork program

/-- The second round: every run in progress stops. -/
def InSecond (timer queue : Bool) (config : Unloading) : Prop :=
  Paired config ∧ Draining timer queue config.state ∧
    ∀ program, config.run = some program → Stops program

/-- Nothing runs and nothing will. -/
def Quiesced (config : Unloading) : Prop :=
  Paired config ∧ Draining true true config.state ∧ config.run = none

theorem stable_in_first : Stable unloadSem (InFirst oneshot cancelling) := by
  refine stable_paired.and (Worker.stable_beside (fun _ _ => Stopping.move) ?_ ?_ ?_)
  · rintro s t ⟨queued, -, rfl⟩ stopping
    refine ⟨⟨stopping.stopped, stopping.noOneshot, fun set => ?_⟩,
      output_work_uses of_work_working⟩
    simp [(stopping.unqueued set).2] at queued
  · intro s t program later step uses stopping
    refine ⟨?_, uses.step step⟩
    cases step with
    | call step => exact stopping.sources (of_work_sources uses.1 step)
    | loop => exact stopping
  · rintro s t rfl stopping
    exact ⟨stopping.stopped, stopping.noOneshot, stopping.unqueued⟩

theorem stable_in_second : Stable unloadSem (InSecond timer queue) := by
  refine stable_paired.and (Worker.stable_beside (fun _ _ => Draining.move) ?_ ?_ ?_)
  · rintro s t ⟨queued, -, rfl⟩ draining
    refine ⟨⟨draining.stopped, draining.noOneshot, draining.noTimer, fun set => ?_⟩, .inl rfl⟩
    simp [(draining.unqueued set).2] at queued
  · exact fun s t program later step stops draining => stops.step step draining
  · rintro s t rfl draining
    exact ⟨draining.stopped, draining.noOneshot, draining.noTimer, draining.unqueued⟩

/-- Only the hardware and the clocks still move. -/
theorem Quiesced.move {before after : Unloading} (move : lastWorker.Moves before after)
    (quiesced : Quiesced before) :
    Unpublished before.state after.state ∧ Quiesced after := by
  obtain ⟨paired, draining, none⟩ := quiesced
  have stays := stable_paired before after move paired
  cases move with
  | env env => exact ⟨env, stays, draining.move env, none⟩
  | start start =>
      exact absurd (start.1.symm.trans (draining.unqueued rfl).2) (by decide)
  | step _ => contradiction
  | finish _ => contradiction

theorem stable_quiesced : Stable unloadSem Quiesced :=
  fun _ _ move quiesced => (quiesced.move move).2

end stages

section unloading

/-- `disableOutputs` up to the second `cancel_work_sync`. -/
def cancelOutputs : Driver Unit := do
  let _ ← publish .disable
  cancelOneshotStopSync
  hrtimerCancel
  cancelWorkSync
  hrtimerCancel
  cancelWorkSync

theorem disable_outputs_eq (mapped : Bool) :
    disableOutputs mapped = (do
      cancelOutputs
      if mapped then do
        hwPeriodicDrainLow
        disableOutputHw
      else return) := rfl

theorem stable_entry : Stable unloadSem Entry := by
  have rest : Stable unloadSem fun config =>
      True ∧ ∀ program, config.run = some program → RestOfRun program :=
    Worker.stable_beside (fun _ _ _ _ => trivial) (fun _ _ _ _ => ⟨trivial, .whole⟩)
      (fun _ _ _ _ step rest _ => ⟨trivial, rest.later step⟩) (fun _ _ _ _ => trivial)
  intro before after move entry
  exact ⟨stable_paired before after move entry.paired,
    (rest before after move ⟨trivial, entry.run⟩).2⟩

/-- One access of the unloading thread: the run in progress stays as it is. -/
theorem triple_unload {op : Op} {pre : Unloading → Prop} {post : Unloading → Prop}
    (before : Stable unloadSem pre) (after : Stable unloadSem post)
    (step : ∀ s run reply t, pre ⟨s, run⟩ → Machine.perform op s = some (reply, t) →
      post ⟨t, run⟩) :
    Triple unloadSem pre (Prog.perform op) fun _ => post := by
  refine Triple.call before (fun _ => after) ?_
  rintro ⟨s, run⟩ reply ⟨t, run'⟩ holds ⟨performed, same⟩
  obtain rfl : run' = run := same
  exact step s _ reply t holds performed

theorem triple_first_publish :
    Triple unloadSem Entry (publish .disable) fun _ => InFirst false false := by
  refine triple_unload stable_entry stable_in_first ?_
  intro s run reply t entry step
  have same := perform_running step
  cases step
  exact ⟨entry.paired.trans same.symm, ⟨rfl, nofun, nofun⟩,
    fun program runs => (entry.run program runs).uses⟩

theorem triple_first_oneshot :
    Triple unloadSem (InFirst false false) cancelOneshotStopSync fun _ => InFirst true false := by
  refine triple_unload stable_in_first stable_in_first ?_
  rintro s run reply t ⟨paired, stopping, uses⟩ step
  simp only [Machine.perform] at step
  split at step
  · rename_i idle
    cases step
    exact ⟨paired, ⟨stopping.stopped, fun _ => ⟨rfl, idle⟩,
      fun off => (Bool.false_ne_true off).elim⟩, uses⟩
  · contradiction

theorem triple_first_timer :
    Triple unloadSem (InFirst true false) hrtimerCancel fun _ => InFirst true false := by
  refine triple_unload stable_in_first stable_in_first ?_
  rintro s run reply t ⟨paired, stopping, uses⟩ step
  simp only [Machine.perform] at step
  split at step
  · contradiction
  · cases step
    exact ⟨paired, ⟨stopping.stopped, stopping.noOneshot,
      fun off => (Bool.false_ne_true off).elim⟩, uses⟩

/-- The run that began before the stop, if any, is over; what it armed is left
to the second round. -/
theorem triple_first_work :
    Triple unloadSem (InFirst true false) cancelWorkSync fun _ => InSecond false false := by
  refine Triple.via (fun _ => InFirst true true) ?_ fun _ => ?_
  · refine triple_unload stable_in_first stable_in_first ?_
    rintro s run reply t ⟨paired, stopping, uses⟩ step
    cases step
    exact ⟨paired, ⟨stopping.stopped, stopping.noOneshot, fun _ => ⟨rfl, rfl⟩⟩, uses⟩
  · refine triple_unload stable_in_first stable_in_second ?_
    rintro s run reply t ⟨paired, stopping, uses⟩ step
    simp only [Machine.perform] at step
    split at step
    · contradiction
    · rename_i idle
      cases step
      refine ⟨paired, ⟨stopping.stopped, stopping.noOneshot rfl,
        fun off => (Bool.false_ne_true off).elim, fun off => (Bool.false_ne_true off).elim⟩, ?_⟩
      have none : run = none := by simpa [Paired, idle] using paired
      simp [none]

theorem triple_second_timer :
    Triple unloadSem (InSecond false false) hrtimerCancel fun _ => InSecond true false := by
  refine triple_unload stable_in_second stable_in_second ?_
  rintro s run reply t ⟨paired, draining, stops⟩ step
  simp only [Machine.perform] at step
  split at step
  · contradiction
  · rename_i quiet
    cases step
    exact ⟨paired, ⟨draining.stopped, draining.noOneshot, fun _ => ⟨rfl, by simpa using quiet⟩,
      fun off => (Bool.false_ne_true off).elim⟩, stops⟩

theorem triple_second_work :
    Triple unloadSem (InSecond true false) cancelWorkSync fun _ => Quiesced := by
  refine Triple.via (fun _ => InSecond true true) ?_ fun _ => ?_
  · refine triple_unload stable_in_second stable_in_second ?_
    rintro s run reply t ⟨paired, draining, stops⟩ step
    cases step
    exact ⟨paired, ⟨draining.stopped, draining.noOneshot, draining.noTimer,
      fun _ => ⟨draining.noTimer rfl, rfl⟩⟩, stops⟩
  · refine triple_unload stable_in_second stable_quiesced ?_
    rintro s run reply t ⟨paired, draining, stops⟩ step
    simp only [Machine.perform] at step
    split at step
    · contradiction
    · rename_i idle
      cases step
      refine ⟨paired, ⟨draining.stopped, draining.noOneshot, draining.noTimer,
        draining.unqueued⟩, ?_⟩
      simpa [Paired, idle] using paired

theorem triple_cancel_outputs : Triple unloadSem Entry cancelOutputs fun _ => Quiesced := by
  refine Triple.bind triple_first_publish fun _ => ?_
  refine Triple.bind triple_first_oneshot fun _ => ?_
  refine Triple.bind triple_first_timer fun _ => ?_
  refine Triple.bind triple_first_work fun _ => ?_
  refine Triple.bind triple_second_timer fun _ => ?_
  exact triple_second_work

theorem unpublished_still (s t : Machine) (step : Unpublished s t) :
    t.block = s.block ∧ t.regs.ctl = s.regs.ctl := by
  cases step with
  | publishOneshot _ =>
      simp only [Machine.publishOneshot, Machine.publish]
      split <;> exact ⟨rfl, rfl⟩
  | _ => exact ⟨rfl, rfl⟩

/-- With the work gone the unloading thread has the block to itself. -/
theorem triple_quiesced {α : Type} {program : Driver α} {post : α → Machine → Prop}
    (uses : Uses Op.ofStop program)
    (alone : Triple (driverSem Unpublished) (fun _ => True) program post) :
    Triple unloadSem Quiesced program
      fun value config => post value config.state ∧ Quiesced config := by
  intro config quiesced
  refine wp_view Worker.Config.state uses ?_
    (fun _ _ quiesced move => quiesced.move move) quiesced (alone _ trivial)
  rintro op ⟨s, run⟩ reply ⟨t, run'⟩ ofStop ⟨paired, draining, none⟩ ⟨performed, same⟩
  obtain rfl : run' = run := same
  exact ⟨performed, paired.trans (perform_running performed).symm,
    draining.sources (of_work_sources ofStop.1 performed) (ofStop.2 _ _ _ performed), none⟩

theorem triple_disable_quiesced :
    Triple unloadSem Quiesced
      (do
        hwPeriodicDrainLow
        disableOutputHw)
      fun _ config => Off config.state ∧ Quiesced config := by
  refine triple_quiesced (Uses.seq (hw_periodic_drain_low_uses of_stop_halting.toFolding)
    fun _ => disable_output_hw_uses of_stop_halting) ?_
  refine Triple.via (fun _ _ => True) ?_ fun _ => triple_disable_off unpublished_still
  exact fun s _ => wp_uses (uses_true _) (fun _ _ _ _ _ _ _ => trivial) (fun _ _ _ _ => trivial)
    trivial

end unloading

/-- Teardown quiesces the chain of timer and work: after the second cancel
neither is left, and after the stop the engine stays off. -/
theorem disable_outputs_quiesces (first : Unloading) (entry : Entry first) :
    (∀ middle, Executes unloadSem cancelOutputs first () middle →
      middle.state.timerArmed = false ∧ middle.state.workQueued = false ∧
      middle.run = none ∧ middle.state.workRunning = false) ∧
    (∀ last, Executes unloadSem (disableOutputs true) first () last →
      ∀ later, unloadSem.Rely last later →
        hasEn later.state.regs.ctl = false ∧ later.state.timerArmed = false ∧
        later.state.workQueued = false ∧ later.run = none) := by
  have cancelled := triple_cancel_outputs first entry
  constructor
  · intro middle ran
    obtain ⟨paired, draining, none⟩ := wp_executes cancelled ran
    have idle : middle.state.workRunning = false := by
      rw [← paired, none]
      rfl
    exact ⟨(draining.noTimer rfl).1, (draining.unqueued rfl).2, none, idle⟩
  · intro last ran later rely
    have disabled : wp unloadSem (disableOutputs true)
        (fun _ config => Off config.state ∧ Quiesced config) first := by
      rw [disable_outputs_eq]
      exact Triple.bind triple_cancel_outputs (fun _ => triple_disable_quiesced) first entry
    have stable : Stable unloadSem fun config => Off config.state ∧ Quiesced config := by
      rintro s t move ⟨off, quiesced⟩
      have moved := quiesced.move move
      have still := unpublished_still _ _ moved.1
      rw [Off, still.1, still.2]
      exact ⟨off, moved.2⟩
    have final := wp_executes disabled ran
    obtain ⟨off, -, draining, none⟩ := stable.rely rely final
    exact ⟨off.1, (draining.noTimer rfl).1, (draining.unqueued rfl).2, none⟩

section lateRun

/-- The run in progress goes on to its end. -/
def finishRun (config : Unloading) : Unloading :=
  match config.run with
  | none => config
  | some program =>
      match exec Machine.perform 1000 [] program config.state with
      | none => config
      | some (_, last) => ⟨last.endRun, none⟩

/-- The timer expires, and the run it queues goes on to its end. -/
def timerRun (config : Unloading) : Unloading :=
  if config.run.isNone = true ∧ config.state.timerArmed = true ∧
      config.state.timerFiring = false ∧ config.state.workRunning = false ∧
      config.state.workCancelling = false then
    finishRun ⟨config.state.expire.outputTimer.beginRun, some outputWork⟩
  else config

theorem finish_run_rely (config : Unloading) : unloadSem.Rely config (finishRun config) := by
  obtain ⟨state, run⟩ := config
  cases run with
  | none => exact .refl
  | some program =>
      simp only [finishRun]
      split
      · exact .refl
      · rename_i last ran
        have executed : Executes lastWorker.toSemantics program state () last :=
          exec_executes (fun _ _ _ _ step => step) 1000 [] (by simp) _ _ _ _ ran
        exact (Worker.Reaches.ofExecutes executed).tail (.finish rfl)

theorem timer_run_rely (config : Unloading) : unloadSem.Rely config (timerRun config) := by
  obtain ⟨state, run⟩ := config
  simp only [timerRun]
  split
  · rename_i ready
    obtain ⟨none, armed, quiet, idle, queues⟩ := ready
    obtain rfl : run = .none := by simpa using none
    refine .trans ?_ (finish_run_rely _)
    refine .head (.env (.expire armed quiet)) (.head (.env (.outputTimer rfl)) ?_)
    refine .single (.start ⟨?_, idle, rfl⟩)
    simp [Machine.outputTimer, Machine.scheduleWork, Machine.expire, queues]
  · exact .refl

/-- A request for hardware output, half a run before it is stopped: the run has
taken its snapshot, and has not armed anything yet. -/
def requestedOutput : Machine :=
  (loadedBlock.beginPublish
    (.configure .running .hardware 1000000000 500000000 500000000 2000000000)).endPublish.beginRun

/-- What `outputWork` does after its snapshot. -/
def afterSnapshot (desired : OutputDesired) : Driver Unit :=
  if desired.run = .stopped then stopOutput
  else do
    applyFlip desired
    let block ← loadBlock
    if desired.gen ≠ block.outputAppliedGen then reconcileArm desired
    else serviceOutput desired

def lateRun : Unloading := ⟨requestedOutput, some (afterSnapshot requestedOutput.desired)⟩

theorem late_run_entry : Entry lateRun := by
  have snapshot : Step lastWorker.toSemantics outputWork requestedOutput
      (afterSnapshot requestedOutput.desired) requestedOutput := by
    have opened : outputWork = Prog.call Op.outputDesiredGet afterSnapshot := rfl
    rw [opened]
    exact .call rfl
  refine ⟨rfl, ?_⟩
  rintro _ ⟨rfl⟩
  exact .later .whole snapshot

/-- The accesses of the unloading thread. -/
def performUnload (op : Op) (config : Unloading) : Option (op.Resp × Unloading) :=
  (config.state.perform op).map fun result => (result.1, ⟨result.2, config.run⟩)

/-- The late run arms the timer after the first cancel; the timer expires
between the two cancels of the work. -/
theorem disable_outputs_quiesces_late_run :
    ∃ last, Executes unloadSem (disableOutputs true) lateRun () last ∧
      hasEn last.state.regs.ctl = false ∧ last.state.timerArmed = false := by
  have sound : ∀ op config reply after, performUnload op config = some (reply, after) →
      unloadSem.step op config reply after := by
    intro op config reply after performed
    obtain ⟨⟨_, state⟩, step, same⟩ := Option.map_eq_some_iff.mp performed
    cases same
    exact ⟨step, rfl⟩
  have allowed : ∀ move ∈ [id, id, id, finishRun, id, timerRun], ∀ config,
      unloadSem.Rely config (move config) := by
    intro move member config
    simp only [List.mem_cons, List.not_mem_nil, or_false] at member
    rcases member with rfl | rfl | rfl | rfl | rfl | rfl
    · exact .refl
    · exact .refl
    · exact .refl
    · exact finish_run_rely config
    · exact .refl
    · exact timer_run_rely config
  have ran := exec_final sound 200 _ allowed (disableOutputs true) lateRun () (by decide +kernel)
  have off := (disable_outputs_quiesces lateRun late_run_entry).2 _ ran _ .refl
  exact ⟨_, ran, off.1, off.2.1⟩

end lateRun

end Tgpio

import Tgpio.InputReconcile

/-!
# Tearing the inputs down

`tgpio_disable_inputs` runs beside the poll work when no requests come any
more. The cancel waits for the run in progress, whose own rescheduling it
refuses. After it nothing queues the work again, and the unloading thread has
the registers to itself.
-/

namespace Tgpio.Inputs

open Interference Interference.Prog

set_option autoImplicit false

/-- The surroundings once the requests are gone. -/
inductive Unrequested : PollMachine → PollMachine → Prop where
  | setting {m : PollMachine} (setting : PollSetting) : m.setting.art ≤ setting.art →
      Unrequested m { m with setting }
  | pins {m : PollMachine} (pins : PinSlots) : Unrequested m { m with pins }
  | reset {m : PollMachine} (value : Bool) :
      Unrequested m { m with stats := tdcReset value m.stats }
  | captured {m : PollMachine} (index : BlockNumber) : hasEn (m.line index).ctl = true →
      Unrequested m (m.captured index)

abbrev lastPoller : Worker PollOp PollOp.Resp PollMachine := pollWorker Unrequested

/-- What the unloading thread acts on: the machine and the run in progress. -/
abbrev Unpolling := Worker.Config PollOp PollOp.Resp PollMachine

abbrev unpollSem : Semantics PollOp PollOp.Resp Unpolling := lastPoller.beside

def OfRun (op : PollOp) : Prop := (∃ index, op.at index) ∨ op = .schedule

theorem poll_work_of_run : Uses OfRun pollWork := by
  have turn (index : BlockNumber) : Uses OfRun (pollBlock index) :=
    poll_block_at.mono fun op at_ => .inl ⟨index, at_⟩
  refine Uses.seq (turn firstBlock) fun first => Uses.seq (turn secondBlock) fun second => ?_
  split
  · exact (uses_perform _).mpr (.inr rfl)
  · exact uses_pure _

/-- A run is in progress exactly when the work item says so, and does what runs
do. -/
structure Tidy (config : Unpolling) : Prop where
  paired : config.run.isSome = config.state.running
  run : ∀ program, config.run = some program → Uses OfRun program

structure Cancelling (m : PollMachine) : Prop where
  cancelling : m.cancelling = true
  unqueued : m.queued = false

structure Quiet (config : Unpolling) : Prop where
  none : config.run = none
  idle : config.state.running = false
  unqueued : config.state.queued = false

section steps

variable {s t : PollMachine} {before after : Unpolling} {cancelled : Bool}

/-- A run neither ends by itself nor queues a work item that is being cancelled. -/
theorem of_run_frame {op : PollOp} {reply : op.Resp} (run : OfRun op)
    (step : s.perform op = some (reply, t)) :
    t.running = s.running ∧ (Cancelling s → Cancelling t) := by
  rcases run with ⟨index, turn⟩ | rfl
  · have keeps := at_frame turn step
    exact ⟨keeps.running, fun held =>
      ⟨keeps.cancelling.trans held.cancelling, keeps.queued.trans held.unqueued⟩⟩
  · cases step
    refine ⟨rfl, fun held => ⟨held.cancelling, ?_⟩⟩
    simp [PollMachine.schedule, held.unqueued, held.cancelling]

theorem unrequested_frame (step : Unrequested s t) :
    t.running = s.running ∧ t.queued = s.queued ∧ t.cancelling = s.cancelling ∧
      t.block = s.block ∧ t.desired = s.desired ∧ t.processed = s.processed ∧
      ∀ index, (t.line index).ctl = (s.line index).ctl ∧
        (hasEn (s.line index).ctl = false → t.line index = s.line index) := by
  cases step with
  | setting | pins | reset =>
      exact ⟨rfl, rfl, rfl, rfl, rfl, rfl, fun _ => ⟨rfl, fun _ => rfl⟩⟩
  | captured here enabled =>
      refine ⟨rfl, rfl, rfl, rfl, rfl, rfl, fun index => ?_⟩
      by_cases same : index = here
      · rw [same]
        refine ⟨by simp [PollMachine.captured, PollMachine.updateLine, CaptureLine.captured], ?_⟩
        intro disabled
        rw [disabled] at enabled
        contradiction
      · simp [PollMachine.captured, PollMachine.updateLine, Function.update_of_ne same]

/-- The run in progress, and once the cancel has begun the work item, which
waits for nothing else. -/
def Ending (cancelled : Bool) (config : Unpolling) : Prop :=
  Tidy config ∧ (cancelled = true → Cancelling config.state)

theorem tidy_moves {env : PollMachine → PollMachine → Prop}
    (byEnv : ∀ s t, env s t → t.running = s.running) (move : (pollWorker env).Moves before after)
    (tidy : Tidy before) : Tidy after := by
  cases move with
  | env env => exact ⟨tidy.paired.trans (byEnv _ _ env).symm, tidy.run⟩
  | start start =>
      obtain ⟨-, -, rfl⟩ := start
      refine ⟨rfl, ?_⟩
      rintro _ ⟨rfl⟩
      exact poll_work_of_run
  | step step =>
      have uses := tidy.run _ rfl
      refine ⟨?_, ?_⟩
      · cases step with
        | call step => exact tidy.paired.trans (of_run_frame uses.1 step).1.symm
        | loop => exact tidy.paired
      · rintro _ ⟨rfl⟩
        exact uses.step step
  | finish finish =>
      cases finish
      exact ⟨rfl, fun _ running => by cases running⟩

theorem ending_stable : Stable unpollSem (Ending cancelled) := by
  rintro before after move ⟨tidy, held⟩
  refine ⟨tidy_moves (fun _ _ env => (unrequested_frame env).1) move tidy, fun set => ?_⟩
  obtain ⟨cancelling, unqueued⟩ := held set
  cases move with
  | env env =>
      obtain ⟨-, queued, same, -⟩ := unrequested_frame env
      exact ⟨same.trans cancelling, queued.trans unqueued⟩
  | start start => exact absurd (start.1.symm.trans unqueued) (by decide)
  | step step =>
      cases step with
      | call step => exact (of_run_frame (tidy.run _ rfl).1 step).2 ⟨cancelling, unqueued⟩
      | loop => exact ⟨cancelling, unqueued⟩
  | finish finish =>
      cases finish
      exact ⟨cancelling, unqueued⟩

/-- Only the hardware and the clocks still move. -/
theorem Quiet.move (move : lastPoller.Moves before after) (quiet : Quiet before) :
    Unrequested before.state after.state ∧ Quiet after := by
  obtain ⟨none, idle, unqueued⟩ := quiet
  cases move with
  | env env =>
      obtain ⟨running, queued, -⟩ := unrequested_frame env
      exact ⟨env, none, running.trans idle, queued.trans unqueued⟩
  | start start =>
      exact absurd (start.1.symm.trans unqueued) (by decide)
  | step _ => contradiction
  | finish _ => contradiction

theorem quiet_stable : Stable unpollSem Quiet := fun _ _ move quiet => (quiet.move move).2

end steps

section unloading

variable {index : BlockNumber}

/-- One access of the unloading thread: the run in progress stays as it is. -/
theorem triple_unpoll {op : PollOp} {pre : Unpolling → Prop} {post : op.Resp → Unpolling → Prop}
    (before : Stable unpollSem pre) (after : ∀ reply, Stable unpollSem (post reply))
    (step : ∀ s run reply t, pre ⟨s, run⟩ → PollMachine.perform op s = some (reply, t) →
      post reply ⟨t, run⟩) :
    Triple unpollSem pre (Prog.perform op) post := by
  refine Triple.call before after ?_
  rintro ⟨s, run⟩ reply ⟨t, run'⟩ holds ⟨performed, same⟩
  obtain rfl : run' = run := same
  exact step s _ reply t holds performed

/-- The cancel is over when no run is, and then none can begin. -/
theorem triple_cancel_poll : Triple unpollSem Tidy cancelPollSync fun _ => Quiet := by
  have entered : Triple unpollSem Tidy (Prog.perform PollOp.cancelBegin)
      fun _ => Ending true := by
    have tidy : Stable unpollSem Tidy := by
      intro before after move tidy
      have ending : Ending false before := ⟨tidy, fun no => by cases no⟩
      exact (ending_stable before after move ending).1
    refine triple_unpoll tidy (fun _ => ending_stable) ?_
    intro s run reply t tidy step
    cases step
    exact ⟨⟨tidy.paired, tidy.run⟩, fun _ => ⟨rfl, rfl⟩⟩
  refine entered.bind fun _ => ?_
  refine triple_unpoll ending_stable (fun _ => quiet_stable) ?_
  rintro s run reply t ⟨tidy, held⟩ step
  obtain ⟨idle, step⟩ := Option.ite_none_left_eq_some.mp step
  cases step
  have stopped : s.running = false := by simpa using idle
  have none : run = none := by simpa [stopped] using tidy.paired
  exact ⟨none, stopped, (held rfl).unqueued⟩

def Released (index : BlockNumber) (m : PollMachine) : Prop :=
  (m.block index).mode = .input → (m.block index).mapped = true →
    hasEn (m.line index).ctl = false ∧ m.desired index = 0

theorem released_stable : Stable unpollSem fun config =>
    Quiet config ∧ Released index config.state := by
  rintro before after move ⟨quiet, released⟩
  obtain ⟨env, quiet⟩ := quiet.move move
  obtain ⟨-, -, -, block, desired, -, lines⟩ := unrequested_frame env
  refine ⟨quiet, ?_⟩
  rw [Released, block, desired, (lines index).1]
  exact released

/-- A fact about the registers and the records of an input that is left to the
unloading thread. -/
theorem quiet_with (record : InputMmioBlock → BitVec 32 → Prop) :
    Stable unpollSem fun config =>
      Quiet config ∧ record (config.state.block index) (config.state.line index).ctl := by
  rintro before after move ⟨quiet, holds⟩
  obtain ⟨env, quiet⟩ := quiet.move move
  obtain ⟨-, -, -, block, -, -, lines⟩ := unrequested_frame env
  refine ⟨quiet, ?_⟩
  rw [block, (lines index).1]
  exact holds

theorem triple_disable_input :
    Triple unpollSem Quiet (disableInput index) fun _ config =>
      Quiet config ∧ Released index config.state := by
  have loaded : Triple unpollSem Quiet (loadInput index)
      fun (block : InputMmioBlock) config =>
        Quiet config ∧ config.state.block index = block := by
    refine triple_unpoll quiet_stable
      (fun reply => quiet_with fun block _ => block = reply) ?_
    intro s run reply t quiet step
    cases step
    exact ⟨quiet, rfl⟩
  refine loaded.bind fun block => ?_
  split
  · rename_i other
    refine Triple.pure (quiet_with fun now _ => now = block) fun config holds =>
      ⟨holds.1, fun input mapped => ?_⟩
    rw [holds.2] at input mapped
    simp [input, mapped] at other
  · have read : Triple unpollSem (fun config => Quiet config ∧ config.state.block index = block)
        (readLine index .ctl) fun _ => Quiet := by
      refine triple_unpoll (quiet_with fun now _ => now = block) (fun _ => quiet_stable) ?_
      rintro s run reply t ⟨quiet, -⟩ step
      obtain ⟨-, step⟩ := Option.ite_none_right_eq_some.mp step
      cases step
      exact ⟨quiet.none, quiet.idle, quiet.unqueued⟩
    refine read.bind fun ctrl => ?_
    have written : Triple unpollSem Quiet (writeLine index (ctlWithout ctrl ctlEn))
        fun _ config => Quiet config ∧ hasEn (config.state.line index).ctl = false := by
      refine triple_unpoll quiet_stable (fun _ => quiet_with fun _ ctl => hasEn ctl = false) ?_
      intro s run reply t quiet step
      obtain ⟨-, step⟩ := Option.ite_none_right_eq_some.mp step
      cases step
      refine ⟨⟨quiet.none, quiet.idle, quiet.unqueued⟩, ?_⟩
      simp [PollMachine.updateLine, CaptureLine.writeCtl]
    refine written.bind fun _ => ?_
    refine triple_unpoll (quiet_with fun _ ctl => hasEn ctl = false) (fun _ => released_stable) ?_
    rintro s run reply t ⟨quiet, off⟩ step
    cases step
    exact ⟨⟨quiet.none, quiet.idle, quiet.unqueued⟩, fun _ _ => ⟨off, by simp⟩⟩

def Releases (index : BlockNumber) : PollOp → Prop
  | .load other | .readl other .ctl | .writeCtl other _ | .atomicSet other _ => other = index
  | _ => False

theorem disable_input_releases : Uses (Releases index) (disableInput index) := by
  have one {op : PollOp} (allowed : Releases index op) :
      Uses (Releases index) (Prog.perform op : Poller op.Resp) := (uses_perform op).mpr allowed
  refine Uses.seq (one rfl) fun block => ?_
  split
  · exact uses_pure _
  · exact Uses.seq (one rfl) fun ctrl => Uses.seq (one rfl) fun _ => one rfl

/-- An input that is released stays so while the other one is. -/
theorem triple_released_apart {other : BlockNumber} (different : index ≠ other) :
    Triple unpollSem (fun config => Quiet config ∧ Released other config.state)
      (disableInput index) fun _ config => Quiet config ∧ Released other config.state := by
  intro config holds
  refine wp_uses disable_input_releases ?_ released_stable holds
  rintro op ⟨s, run⟩ reply ⟨t, run'⟩ releases ⟨step, same⟩ ⟨quiet, released⟩
  obtain rfl : run' = run := same
  have apart : other ≠ index := different.symm
  cases op with
  | load =>
      cases step
      exact ⟨quiet, released⟩
  | readl here reg =>
      obtain ⟨-, step⟩ := Option.ite_none_right_eq_some.mp step
      cases step
      cases reg with
      | ctl =>
          refine ⟨⟨quiet.none, quiet.idle, quiet.unqueued⟩, ?_⟩
          obtain rfl : here = index := releases
          simp only [Released, Function.update_of_ne apart]
          exact released
      | _ => exact releases.elim
  | writeCtl here value =>
      obtain ⟨-, step⟩ := Option.ite_none_right_eq_some.mp step
      cases step
      refine ⟨⟨quiet.none, quiet.idle, quiet.unqueued⟩, ?_⟩
      obtain rfl : here = index := releases
      simp only [Released, Function.update_of_ne apart]
      exact released
  | atomicSet here value =>
      cases step
      refine ⟨⟨quiet.none, quiet.idle, quiet.unqueued⟩, ?_⟩
      obtain rfl : here = index := releases
      simp only [Released, Function.update_of_ne apart]
      exact released
  | _ => exact releases.elim

theorem triple_disable_inputs :
    Triple unpollSem Tidy disableInputs fun _ config =>
      Quiet config ∧ ∀ index, Released index config.state := by
  refine triple_cancel_poll.bind fun _ => triple_disable_input.bind fun _ => ?_
  intro config holds
  have both := wp_and (triple_disable_input config holds.1)
    (triple_released_apart blocks_differ.symm config holds)
  exact wp_mono (fun _ _ done => ⟨done.1.1, each_block done.2.2 done.1.2⟩) both

end unloading

theorem tidy_reaches {first : PollMachine} (idle : first.running = false) {last : Unpolling}
    (reaches : poller.Reaches ⟨first, none⟩ last) : Tidy last := by
  induction reaches with
  | refl => exact ⟨idle.symm, fun _ running => by cases running⟩
  | tail _ move ih => exact tidy_moves (fun _ _ env => by cases env <;> rfl) move ih

/-- Teardown quiesces the inputs: once no requests come, from whatever the poll
work is at, `disableInputs` leaves it neither queued nor running, every input
disabled, and from then on nothing is captured and no capture is processed. -/
theorem disable_inputs_quiesces (loaded : PollMachine) (idle : loaded.running = false)
    (first last later : Unpolling) (reaches : poller.Reaches ⟨loaded, none⟩ first)
    (ran : Executes unpollSem disableInputs first () last) (rely : unpollSem.Rely last later) :
    later.run = none ∧ later.state.queued = false ∧
      later.state.processed = last.state.processed ∧
      ∀ index, (last.state.block index).mode = .input →
        (last.state.block index).mapped = true →
        hasEn (later.state.line index).ctl = false ∧
          (later.state.line index).capture = (last.state.line index).capture := by
  have done := wp_executes (triple_disable_inputs first (tidy_reaches idle reaches)) ran
  have after : Quiet later ∧ (∀ index, Released index later.state) ∧
      later.state.block = last.state.block ∧ later.state.processed = last.state.processed ∧
      ∀ index, (last.state.block index).mode = .input → (last.state.block index).mapped = true →
        later.state.line index = last.state.line index := by
    induction rely with
    | refl => exact ⟨done.1, done.2, rfl, rfl, fun _ _ _ => rfl⟩
    | tail _ move ih =>
        obtain ⟨quiet, released, block, processed, lines⟩ := ih
        have next (index : BlockNumber) := released_stable _ _ move ⟨quiet, released index⟩
        obtain ⟨env, -⟩ := quiet.move move
        obtain ⟨-, -, -, sameBlock, -, sameProcessed, sameLines⟩ := unrequested_frame env
        refine ⟨(next firstBlock).1, fun index => (next index).2, sameBlock.trans block,
          sameProcessed.trans processed, fun index input mapped => ?_⟩
        have off := (released index (block ▸ input) (block ▸ mapped)).1
        rw [(sameLines index).2 off]
        exact lines index input mapped
  obtain ⟨quiet, released, block, processed, lines⟩ := after
  refine ⟨quiet.none, quiet.unqueued, processed, fun index input mapped => ⟨?_, ?_⟩⟩
  · exact (released index (block ▸ input) (block ▸ mapped)).1
  · rw [lines index input mapped]

section trace

def performUnpoll (op : PollOp) (config : Unpolling) : Option (op.Resp × Unpolling) :=
  (config.state.perform op).map fun result => (result.1, ⟨result.2, config.run⟩)

theorem perform_unpoll_sound (op : PollOp) (config : Unpolling) (reply : op.Resp)
    (after : Unpolling) (performed : performUnpoll op config = some (reply, after)) :
    unpollSem.step op config reply after := by
  obtain ⟨⟨_, state⟩, step, same⟩ := Option.map_eq_some_iff.mp performed
  cases same
  exact ⟨step, rfl⟩

/-- The poll work is torn down while it is queued and an input is enabled. -/
theorem disable_inputs_quiesces_two_edges :
    ∃ last, Executes unpollSem disableInputs ⟨sampledTwice, none⟩ () last ∧
      last.state.queued = false ∧ hasEn (last.state.line firstBlock).ctl = false := by
  have ran := exec_final perform_unpoll_sound 100 [] (by simp) disableInputs ⟨sampledTwice, none⟩
    () (by decide +kernel)
  have quiet := disable_inputs_quiesces (loadedInputs false) rfl _ _ _ sampled_twice_reaches ran
    .refl
  exact ⟨_, ran, quiet.2.1, (quiet.2.2.2 firstBlock (by decide +kernel) (by decide +kernel)).1⟩

end trace

end Tgpio.Inputs

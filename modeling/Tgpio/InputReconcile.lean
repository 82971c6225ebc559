import Tgpio.InputDelivery

/-!
# Bringing the inputs to what is asked of them

Requests overwrite the desired word of an input at any moment of a run, and
queue the poll work afterwards. A run that no request has overtaken leaves every
input as it is asked to be, and the work keeps itself queued for as long as one
of them is on.
-/

namespace Tgpio.Inputs

open Interference Interference.Prog

set_option autoImplicit false

/-- What the control register of an input is for a desired word: `found` is
what it was before the driver first wrote it. -/
structure Configured (found desired ctl : BitVec 32) : Prop where
  on : inputDesiredState desired = .on → hasEn ctl = true ∧ ctl &&& ctlDir = ctlDir ∧
    ctl &&& ctlEp = inputDesiredEdge desired
  off : inputDesiredState desired = .off → hasEn ctl = false ∨ ctl = found

/-- An input whose record and whose register say `desired`. -/
structure Brought (found desired : BitVec 32) (v : InputView) : Prop where
  applied : v.block.inputApplied = desired
  configured : Configured found desired v.line.ctl

section registers

variable {index : BlockNumber} {found desired applied : BitVec 32}

theorem enabled_bits (ctrl desired : BitVec 32) :
    let ctl := ctlWith (ctlWith (ctlWithEdge ctrl (inputDesiredEdge desired)) ctlDir) ctlEn
    hasEn ctl = true ∧ ctl &&& ctlDir = ctlDir ∧ ctl &&& ctlEp = inputDesiredEdge desired := by
  have apart : ctlDir &&& ctlEp = 0 ∧ ctlEn &&& ctlEp = 0 := ⟨rfl, rfl⟩
  refine ⟨by simp, ?_, ?_⟩
  · ext i bound
    simp only [ctlWith, BitVec.getElem_and, BitVec.getElem_or]
    grind
  · ext i bound
    have dir : (ctlDir &&& ctlEp)[i] = (0 : BitVec 32)[i] := by rw [apart.1]
    have en : (ctlEn &&& ctlEp)[i] = (0 : BitVec 32)[i] := by rw [apart.2]
    simp only [ctlWith, ctlWithEdge, ctlWithout, inputDesiredEdge, BitVec.getElem_and,
      BitVec.getElem_or, BitVec.getElem_not] at dir en ⊢
    simp at dir en
    grind

theorem enduring_ctl (record : BitVec 32 → Prop) : Enduring fun v => record v.line.ctl := by
  intro v w moves before
  cases moves <;> exact before

theorem enduring_brought : Enduring (Brought found desired) := by
  intro v w moves brought
  have ctl := enduring_ctl (Configured found desired) v w moves brought.configured
  have applied := enduring_block (fun block => block.inputApplied = desired) v w moves
    brought.applied
  exact ⟨applied, ctl⟩

/-- Whatever came before, the register is what has been written. -/
theorem triple_write_ctl (value : BitVec 32) :
    Triple pollingSem (fun _ => True) (writeLine index value)
      fun _ m => (m.view index).line.ctl = value := by
  refine Triple.input (.writeCtl index value) (fun _ v => v.line.ctl = value) (enduring_const True)
    (fun _ => enduring_ctl fun ctl => ctl = value) ?_
  intro v reply w before step
  simp only [InputView.Step, if_pos] at step
  rw [step]
  rfl

theorem triple_anything {α : Type} (program : Poller α) :
    Triple pollingSem (fun _ => True) program fun _ _ => True :=
  fun _ _ => wp_uses (uses_true program) (fun _ _ _ _ _ _ _ => trivial)
    (fun _ _ _ _ => trivial) trivial

theorem triple_enable_ctl (ctrl : BitVec 32) :
    Triple pollingSem (fun _ => True) (enableInput index ctrl desired)
      fun _ m => (m.view index).line.ctl =
        ctlWith (ctlWith (ctlWithEdge ctrl (inputDesiredEdge desired)) ctlDir) ctlEn :=
  (triple_anything _).bind fun _ => (triple_anything _).bind fun _ =>
    (triple_anything _).bind fun _ => triple_write_ctl _

theorem triple_apply_ctl :
    Triple pollingSem (fun _ => True) (applyInput index desired)
      fun _ m => Configured found desired (m.view index).line.ctl := by
  refine (triple_anything _).bind fun ctrl => ?_
  refine (triple_write_ctl _).bind fun _ => ?_
  split
  · rename_i idle
    refine Triple.input (.store index _) (fun _ v => Configured found desired v.line.ctl)
      (enduring_ctl fun ctl => ctl = _) (fun _ => enduring_ctl (Configured found desired)) ?_
    intro v reply w off step
    simp only [InputView.Step, if_pos] at step
    rw [step]
    refine ⟨fun on => ?_, fun _ => .inl ?_⟩
    · rw [idle] at on
      cases on
    · simp [off]
  · rename_i active
    refine Triple.conseq (triple_enable_ctl _) (fun _ _ => trivial) fun _ m same => ?_
    rw [same]
    exact ⟨fun _ => enabled_bits _ desired, fun off => absurd off active⟩

theorem triple_reconcile_ctl :
    Triple pollingSem (fun m => Brought found applied (m.view index))
      (reconcileInput index desired applied)
      fun _ m => Brought found desired (m.view index) := by
  rw [reconcileInput]
  split
  · rename_i same
    rw [same]
    exact Triple.pure enduring_brought.stable fun _ brought => brought
  · have apply : Triple pollingSem (fun m => Brought found applied (m.view index))
        (applyInput index desired)
        fun _ m => Configured found desired (m.view index).line.ctl :=
      triple_apply_ctl.conseq (fun _ _ => trivial) fun _ _ holds => holds
    refine apply.bind fun _ => ?_
    refine Triple.input (.store index _) (fun _ v => Brought found desired v)
      (enduring_ctl (Configured found desired)) (fun _ => enduring_brought) ?_
    intro v reply w configured step
    simp only [InputView.Step, if_pos] at step
    rw [step]
    exact ⟨rfl, configured⟩

/-- A look at an input leaves its configuration. -/
theorem looks_step {op : PollOp} {reply : op.Resp} {v w : InputView} (looks : op.looks index)
    (step : InputView.Step index op v reply w) (brought : Brought found desired v) :
    Brought found desired w := by
  cases op with
  | readl other reg =>
      cases looks
      simp only [InputView.Step, if_pos] at step
      rw [step.2]
      refine ⟨brought.applied, ?_⟩
      cases reg <;> exact brought.configured
  | load | setting => exact step.1 ▸ brought
  | store other update =>
      obtain ⟨rfl, keeps⟩ := looks
      simp only [InputView.Step, if_pos] at step
      rw [step]
      exact ⟨(keeps v.block).2.trans brought.applied, brought.configured⟩
  | crosststamp | process => exact step ▸ ⟨brought.applied, brought.configured⟩
  | pins | ptpClock | ptpClockEvent | ppsEvent => exact step ▸ brought
  | _ => exact looks.elim

theorem triple_poll_input_ctl :
    Triple pollingSem (fun m => Brought found desired (m.view index)) (pollInput index)
      fun _ m => Brought found desired (m.view index) :=
  fun _ brought => wp_uses poll_input_looks
    (fun _ _ _ _ looks step before => looks_step looks (view_step step) before)
    enduring_brought.stable brought

end registers

section requests

variable {index : BlockNumber} {desired : BitVec 32} {s t m : PollMachine}

/-- Another run is on its way. -/
def Awaited (m : PollMachine) : Prop := m.queued = true ∨ 0 < m.owed

/-- A request that no run has begun after has one coming. -/
structure Heeded (m : PollMachine) : Prop where
  uncancelled : m.cancelling = false
  unserved : m.served = false → Awaited m

/-- Unless a request has come since, the desired word is `desired`. -/
def Asks (index : BlockNumber) (desired : BitVec 32) (m : PollMachine) : Prop :=
  m.served = true → m.desired index = desired

theorem awaited_move (uncancelled : s.cancelling = false) (step : PollSurroundings s t)
    (awaited : Awaited s) : Awaited t := by
  cases step with
  | setting | pins | reset | captured => exact awaited
  | beginRequest => exact .inr (Nat.succ_pos _)
  | endRequest => exact .inl (by simp [PollMachine.endRequest, PollMachine.schedule, uncancelled])

theorem heeded_stable : Stable pollingSem Heeded := by
  intro s t step heeded
  have coming (unserved : s.served = false) : Awaited t :=
    awaited_move heeded.uncancelled step (heeded.unserved unserved)
  cases step with
  | setting | pins | reset | captured | endRequest => exact ⟨heeded.uncancelled, coming⟩
  | beginRequest => exact ⟨heeded.uncancelled, fun _ => .inr (Nat.succ_pos _)⟩

theorem asks_stable : Stable pollingSem (Asks index desired) := by
  intro s t step asks
  cases step with
  | setting | pins | reset | captured | endRequest => exact asks
  | beginRequest => exact fun served => by cases served

theorem mode_stable (mode : TgpioMode) :
    Stable pollingSem fun m => (m.block index).mode = mode := by
  intro s t step same
  cases step <;> exact same

/-- A turn of the loop leaves what the requests go by. -/
theorem Heeded.turn {op : PollOp} {reply : op.Resp} (turn : op.at index)
    (step : s.perform op = some (reply, t)) (heeded : Heeded s) : Heeded t := by
  have keeps := at_frame turn step
  refine ⟨keeps.cancelling.trans heeded.uncancelled, fun unserved => ?_⟩
  have awaited := heeded.unserved (keeps.served ▸ unserved)
  rwa [Awaited, keeps.queued, keeps.owed]

theorem Asks.turn {other : BlockNumber} {op : PollOp} {reply : op.Resp} (turn : op.at index)
    (step : s.perform op = some (reply, t)) (asks : Asks other desired s) :
    Asks other desired t := by
  have keeps := at_frame turn step
  rw [Asks, keeps.desired, keeps.served]
  exact asks

end requests

section turns

variable {index other : BlockNumber} {found : BlockNumber → BitVec 32} {desired : BitVec 32}
  {active : Bool} {m : PollMachine}

/-- The register of an input is as recorded. -/
def Recorded (index : BlockNumber) (found : BitVec 32) (m : PollMachine) : Prop :=
  Brought found (m.block index).inputApplied (m.view index)

/-- A block whose turn has come in the present run: what is applied is what was
asked for, and an input that is on counts as active. -/
structure Turned (index : BlockNumber) (active : Bool) (m : PollMachine) : Prop where
  applied : (m.block index).mode = .input → Asks index (m.block index).inputApplied m
  active : (m.block index).mode = .input → active = false →
    inputDesiredState (m.block index).inputApplied = .off

/-- An input in its turn, in a run that serves the latest request. -/
structure Serving (index : BlockNumber) (desired : BitVec 32) (m : PollMachine) : Prop
    extends Heeded m where
  asks : Asks index desired m
  input : (m.block index).mode = .input

theorem serving_stable : Stable pollingSem (Serving index desired) :=
  fun s t step serving => ⟨heeded_stable s t step serving.toHeeded,
    asks_stable s t step serving.asks, mode_stable .input s t step serving.input⟩

theorem triple_serving {α : Type} {program : Poller α} (uses : Uses (PollOp.at index) program) :
    Triple pollingSem (Serving index desired) program fun _ => Serving index desired := by
  intro m serving
  refine wp_uses uses ?_ serving_stable serving
  intro op s reply t turn step before
  exact ⟨before.toHeeded.turn turn step, before.asks.turn turn step,
    ((at_frame turn step).mode index).trans before.input⟩

theorem recorded_stable : Stable pollingSem (Recorded index (found index)) := by
  intro s t step recorded
  have block : t.block = s.block := by cases step <;> rfl
  rw [Recorded, block]
  exact enduring_brought.stable s t step recorded

theorem turned_stable : Stable pollingSem (Turned index active) := by
  intro s t step turned
  have block : t.block = s.block := by cases step <;> rfl
  refine ⟨fun input => ?_, fun input => ?_⟩
  · rw [block] at input ⊢
    exact asks_stable s t step (turned.applied input)
  · rw [block] at input ⊢
    exact turned.active input

/-- What a brought input has become of, at the end of its turn. -/
theorem Serving.turned (serving : Serving index desired m)
    (brought : Brought (found index) desired (m.view index))
    (off : active = false → inputDesiredState desired = .off) :
    Heeded m ∧ Recorded index (found index) m ∧ Turned index active m := by
  have applied : (m.block index).inputApplied = desired := brought.applied
  refine ⟨serving.toHeeded, ?_, fun _ => ?_, fun _ => ?_⟩
  · rw [Recorded, applied]
    exact brought
  · rw [applied]
    exact serving.asks
  · rw [applied]
    exact off

theorem triple_turn :
    Triple pollingSem (fun m => Heeded m ∧ Recorded index (found index) m) (pollBlock index)
      fun active m => Heeded m ∧ Recorded index (found index) m ∧ Turned index active m := by
  have stable : Stable pollingSem fun m => Heeded m ∧ Recorded index (found index) m :=
    heeded_stable.and recorded_stable
  have fixed (block : InputMmioBlock) : Stable pollingSem fun m =>
      (Heeded m ∧ Recorded index (found index) m) ∧ (m.block index).mode = block.mode ∧
        (m.block index).inputApplied = block.inputApplied := by
    refine stable.and fun s t step same => ?_
    cases step <;> exact same
  have loaded : Triple pollingSem (fun m => Heeded m ∧ Recorded index (found index) m)
      (loadInput index) fun (block : InputMmioBlock) m =>
        (Heeded m ∧ Recorded index (found index) m) ∧ (m.block index).mode = block.mode ∧
          (m.block index).inputApplied = block.inputApplied := by
    refine Triple.call stable fixed ?_
    intro s block t before step
    cases step
    exact ⟨before, rfl, rfl⟩
  refine loaded.bind fun block => ?_
  split
  · rename_i notInput
    refine Triple.pure (fixed block) fun m holds => ⟨holds.1.1, holds.1.2, ?_⟩
    have elsewhere : (m.block index).mode ≠ .input := holds.2.1 ▸ notInput
    exact ⟨fun input => absurd input elsewhere, fun input => absurd input elsewhere⟩
  · rename_i isInput
    have input : block.mode = .input := not_not.mp isInput
    have read : Triple pollingSem (fun m => (Heeded m ∧ Recorded index (found index) m) ∧
          (m.block index).mode = block.mode ∧
          (m.block index).inputApplied = block.inputApplied) (readDesired index)
        fun (desired : BitVec 32) m => Serving index desired m ∧
          Brought (found index) block.inputApplied (m.view index) := by
      refine Triple.call (fixed block)
        (fun reply => serving_stable.and enduring_brought.stable) ?_
      rintro s reply t ⟨⟨heeded, recorded⟩, mode, applied⟩ step
      cases step
      exact ⟨⟨heeded, fun _ => rfl, mode.trans input⟩, applied ▸ recorded⟩
    refine read.bind fun desired => ?_
    have reconciled : Triple pollingSem (fun m => Serving index desired m ∧
          Brought (found index) block.inputApplied (m.view index))
        (reconcileInput index desired block.inputApplied)
        fun _ m => Serving index desired m ∧ Brought (found index) desired (m.view index) :=
      fun m holds => wp_and (triple_serving (reconcile_at _ _) m holds.1)
        (triple_reconcile_ctl m holds.2)
    refine reconciled.bind fun _ => ?_
    have bothStable : Stable pollingSem fun m => Serving index desired m ∧
        Brought (found index) desired (m.view index) :=
      serving_stable.and enduring_brought.stable
    split
    · rename_i off
      exact Triple.pure bothStable fun m holds => holds.1.turned holds.2 fun _ => off
    · have polled : Triple pollingSem (fun m => Serving index desired m ∧
            Brought (found index) desired (m.view index)) (pollInput index)
          fun _ m => Serving index desired m ∧ Brought (found index) desired (m.view index) :=
        fun m holds => wp_and (triple_serving (poll_input_looks.mono looks_at) m holds.1)
          (triple_poll_input_ctl m holds.2)
      refine polled.bind fun _ => ?_
      exact Triple.pure bothStable fun m holds => holds.1.turned holds.2 fun no => by cases no

theorem apart_frame {op : PollOp} {s t : PollMachine} {reply : op.Resp} (different : index ≠ other)
    (turn : op.at index) (step : s.perform op = some (reply, t)) :
    t.block other = s.block other ∧ t.line other = s.line other := by
  have apart := apart_step different turn (view_step step)
  exact ⟨congrArg InputView.block apart, congrArg InputView.line apart⟩

theorem triple_recorded_apart (different : index ≠ other) :
    Triple pollingSem (Recorded other (found other)) (pollBlock index)
      fun _ => Recorded other (found other) := by
  intro m recorded
  refine wp_uses poll_block_at ?_ recorded_stable recorded
  intro op s reply t turn step before
  obtain ⟨block, line⟩ := apart_frame different turn step
  refine ⟨rfl, ?_⟩
  have configured := before.configured
  simp only [PollMachine.view, block, line] at configured ⊢
  exact configured

theorem triple_turned_apart (different : index ≠ other) :
    Triple pollingSem (Turned other active) (pollBlock index) fun _ => Turned other active := by
  intro m turned
  refine wp_uses poll_block_at ?_ turned_stable turned
  intro op s reply t turn step before
  have block := (apart_frame different turn step).1
  refine ⟨fun input => ?_, fun input => ?_⟩
  · rw [block] at input ⊢
    exact (before.applied input).turn turn step
  · rw [block] at input ⊢
    exact before.active input

end turns

section runs

variable {found : BlockNumber → BitVec 32}

/-- The inputs and their requests between two runs. -/
structure Attended (found : BlockNumber → BitVec 32) (m : PollMachine) : Prop extends Heeded m where
  recorded : ∀ index, Recorded index (found index) m
  applied : ∀ index, (m.block index).mode = .input → Asks index (m.block index).inputApplied m
  active : ∀ index, (m.block index).mode = .input →
    inputDesiredState (m.block index).inputApplied = .on → Awaited m

theorem attended_stable : Stable pollingSem (Attended found) := by
  intro s t step attended
  have block : t.block = s.block := by cases step <;> rfl
  refine ⟨heeded_stable s t step attended.toHeeded, fun index =>
    recorded_stable s t step (attended.recorded index), ?_, ?_⟩
  · intro index input
    rw [block] at input ⊢
    exact asks_stable s t step (attended.applied index input)
  · intro index input on
    rw [block] at input on
    exact awaited_move attended.uncancelled step (attended.active index input on)

theorem each_block {holds : BlockNumber → Prop} (first : holds firstBlock)
    (second : holds secondBlock) (index : BlockNumber) : holds index := by
  have cases : index = firstBlock ∨ index = secondBlock := by
    revert index
    decide
  rcases cases with rfl | rfl
  · exact first
  · exact second

theorem blocks_differ : firstBlock ≠ secondBlock := by decide

/-- Both turns are over: the work is queued again if an input is on. -/
theorem attended_of_turned {m : PollMachine} {first second : Bool} (heeded : Heeded m)
    (recorded : ∀ index, Recorded index (found index) m) (one : Turned firstBlock first m)
    (two : Turned secondBlock second m) (again : first = true ∨ second = true → Awaited m) :
    Attended found m := by
  refine ⟨heeded, recorded, each_block one.applied two.applied, ?_⟩
  refine each_block (fun input on => again ?_) (fun input on => again ?_)
  · cases active : first with
    | true => exact .inl rfl
    | false =>
        rw [one.active input active] at on
        cases on
  · cases active : second with
    | true => exact .inr rfl
    | false =>
        rw [two.active input active] at on
        cases on

theorem triple_poll_work_ctl :
    Triple pollingSem (fun m => Heeded m ∧ ∀ index, Recorded index (found index) m) pollWork
      fun _ => Attended found := by
  have one : Triple pollingSem (fun m => Heeded m ∧ ∀ index, Recorded index (found index) m)
      (pollBlock firstBlock) fun first m =>
        (Heeded m ∧ Recorded firstBlock (found firstBlock) m ∧ Turned firstBlock first m) ∧
          Recorded secondBlock (found secondBlock) m :=
    fun m holds => wp_and (triple_turn m ⟨holds.1, holds.2 firstBlock⟩)
      (triple_recorded_apart blocks_differ m (holds.2 secondBlock))
  refine one.bind fun first => ?_
  have two : Triple pollingSem (fun m =>
        (Heeded m ∧ Recorded firstBlock (found firstBlock) m ∧ Turned firstBlock first m) ∧
          Recorded secondBlock (found secondBlock) m)
      (pollBlock secondBlock) fun second m =>
        ((Heeded m ∧ Recorded secondBlock (found secondBlock) m ∧ Turned secondBlock second m) ∧
          Recorded firstBlock (found firstBlock) m) ∧ Turned firstBlock first m :=
    fun m holds => wp_and (wp_and (triple_turn m ⟨holds.1.1, holds.2⟩)
      (triple_recorded_apart blocks_differ.symm m holds.1.2.1))
      (triple_turned_apart blocks_differ.symm m holds.1.2.2)
  refine two.bind fun second => ?_
  have stable : Stable pollingSem fun m =>
      ((Heeded m ∧ Recorded secondBlock (found secondBlock) m ∧ Turned secondBlock second m) ∧
          Recorded firstBlock (found firstBlock) m) ∧ Turned firstBlock first m :=
    ((heeded_stable.and (recorded_stable.and turned_stable)).and recorded_stable).and turned_stable
  split
  · refine Triple.call stable (fun _ => attended_stable) ?_
    rintro s reply t ⟨⟨⟨heeded, ofSecond, turnedSecond⟩, ofFirst⟩, turnedFirst⟩ step
    cases step
    have awaited : Awaited s.schedule := .inl (by simp [PollMachine.schedule, heeded.uncancelled])
    exact attended_of_turned ⟨heeded.uncancelled, fun _ => awaited⟩
      (each_block ofFirst ofSecond) ⟨turnedFirst.applied, turnedFirst.active⟩
      ⟨turnedSecond.applied, turnedSecond.active⟩ fun _ => awaited
  · rename_i idle
    refine Triple.pure stable fun m holds => ?_
    obtain ⟨⟨⟨heeded, ofSecond, turnedSecond⟩, ofFirst⟩, turnedFirst⟩ := holds
    refine attended_of_turned heeded (each_block ofFirst ofSecond) turnedFirst turnedSecond ?_
    intro active
    exact absurd (by simpa using active) idle

/-- Inputs as loaded: nothing is asked of them. -/
structure Unasked (m : PollMachine) : Prop where
  desired : ∀ index, m.desired index = 0
  applied : ∀ index, (m.block index).inputApplied = 0
  uncancelled : m.cancelling = false
  served : m.served = true

theorem Unasked.attended {m : PollMachine} (unasked : Unasked m) :
    Attended (fun index => (m.line index).ctl) m := by
  have off : inputDesiredState 0 = .off := by simp [inputDesiredState]
  have heeded : Heeded m := by
    refine ⟨unasked.uncancelled, fun unserved => ?_⟩
    rw [unasked.served] at unserved
    cases unserved
  refine ⟨heeded, fun index => ⟨rfl, fun on => ?_, fun _ => .inr rfl⟩, fun index _ _ => ?_,
    fun index _ on => ?_⟩
  · rw [unasked.applied index, off] at on
    cases on
  · rw [unasked.desired index, unasked.applied index]
  · rw [unasked.applied index, off] at on
    cases on

theorem attended_reaches {first last : PollMachine} (unasked : Unasked first)
    (reaches : poller.Reaches ⟨first, none⟩ ⟨last, none⟩) :
    Attended (fun index => (first.line index).ctl) last := by
  have byRun (s t : PollMachine) (start : poller.start s t)
      (attended : Attended (fun index => (first.line index).ctl) s) :
      wp pollingSem pollWork (poller.Owes (Attended fun index => (first.line index).ctl)) t := by
    obtain ⟨-, -, rfl⟩ := start
    have begun : Heeded s.beginRun := ⟨attended.uncancelled, fun unserved => by cases unserved⟩
    refine wp_mono ?_ (triple_poll_work_ctl s.beginRun ⟨begun, attended.recorded⟩)
    rintro _ u done w rfl
    exact ⟨⟨done.uncancelled, done.unserved⟩, done.recorded, done.applied, done.active⟩
  have holds : poller.Holds (Attended fun index => (first.line index).ctl) ⟨last, none⟩ :=
    Worker.holds_reaches (fun s t step => attended_stable s t step) byRun reaches unasked.attended
  exact holds

/-- The poll work brings every input to what is asked of it: between two runs,
another one is on its way for as long as an input is to be on or is not yet as
asked, and when one has begun since the last request the register is set. -/
theorem inputs_brought_as_asked (first last : PollMachine) (unasked : Unasked first)
    (reaches : poller.Reaches ⟨first, none⟩ ⟨last, none⟩) (index : BlockNumber)
    (input : (last.block index).mode = .input) :
    ((inputDesiredState (last.desired index) = .on ∨
        last.desired index ≠ (last.block index).inputApplied) →
      last.queued = true ∨ 0 < last.owed) ∧
    (last.served = true →
      Configured (first.line index).ctl (last.desired index) (last.line index).ctl) := by
  have attended := attended_reaches unasked reaches
  constructor
  · intro wanted
    cases served : last.served with
    | false => exact attended.unserved served
    | true =>
        have same := attended.applied index input served
        rcases wanted with on | differs
        · exact attended.active index input (same ▸ on)
        · exact absurd same differs
  · intro served
    rw [attended.applied index input served]
    exact (attended.recorded index).configured

theorem unasked_loaded : Unasked (loadedInputs false) := ⟨fun _ => rfl, fun _ => rfl, rfl, rfl⟩

theorem inputs_brought_as_asked_two_edges :
    (sampledTwice.queued = true ∨ 0 < sampledTwice.owed) ∧
      hasEn (sampledTwice.line firstBlock).ctl = true := by
  have brought := inputs_brought_as_asked _ _ unasked_loaded sampled_twice_reaches firstBlock
    (by decide +kernel)
  exact ⟨brought.1 (.inl (by decide +kernel)),
    ((brought.2 (by decide +kernel)).on (by decide +kernel)).1⟩

end runs

end Tgpio.Inputs

import Tgpio.InputPolling

/-!
# What one input sees of the poll work

An input shares a block, a line and a history with the poll work. A turn of the
loop on one block makes accesses to that block, reads the clocks, and sends
events; it neither asks anything of an input nor touches the work item.
-/

namespace Tgpio

open Interference Interference.Prog Buffers

set_option autoImplicit false

abbrev Art := BitVec 64

/-- What the poll work and the hardware share of one input. -/
structure InputView where
  block : InputMmioBlock
  line : CaptureLine
  art : Nat
  artInRange : art < 2 ^ 64
  /-- ART value and count of each capture processed. -/
  processed : List (Nat × Nat)
  conversions : List Conversion

def processedOf (index : BlockNumber) (m : PollMachine) : List (Nat × Nat) :=
  (m.processed.filter fun capture => capture.block.val = index.val).map fun capture =>
    (capture.art, capture.eventDelta)

def PollMachine.view (index : BlockNumber) (m : PollMachine) : InputView where
  block := m.block index
  line := m.line index
  art := m.setting.art
  artInRange := m.setting.capture.clocks.artInRange
  processed := processedOf index m
  conversions := m.conversions

namespace InputView

variable (v : InputView)

/-- The captures of the input, divided by the looks at it. -/
def sampling : Sampling Art := .of v.line.happenings

/-- After the read that latches the capture. -/
def latch : InputView := { v with line := v.line.readEffect .tcv31_0 }

/-- With no conversion on record. -/
def unconverted : InputView := { v with conversions := [] }

/-- What the surroundings do to an input: time passes, and an enabled input
captures. -/
inductive Moves : InputView → InputView → Prop where
  | tick {v : InputView} (art : Nat) (artInRange : art < 2 ^ 64) : v.art ≤ art →
      Moves v { v with art, artInRange }
  | captured {v : InputView} : hasEn v.line.ctl = true →
      Moves v { v with line := v.line.captured (BitVec.ofNat 64 v.art) }

/-- An access, as far as it concerns one input. -/
def Step (index : BlockNumber) : (op : PollOp) → InputView → op.Resp → InputView → Prop
  | .readl other reg, v, reply, w =>
      if other = index then
        reply = v.line.read reg ∧ w = { v with line := v.line.readEffect reg }
      else w = v
  | .writeCtl other value, v, _, w =>
      w = if other = index then { v with line := v.line.writeCtl value } else v
  | .load other, v, reply, w => w = v ∧ (other = index → reply = v.block)
  | .store other update, v, _, w =>
      w = if other = index then { v with block := update v.block } else v
  | .setting, v, reply, w => w = v ∧ reply.art = v.art
  | .crosststamp history art, v, _, w =>
      w = { v with conversions := v.conversions ++ [⟨history, art⟩] }
  | .process capture, v, _, w =>
      w = { v with
        processed := v.processed ++
          if capture.block.val = index.val then [(capture.art, capture.eventDelta)] else [] }
  | _, v, _, w => w = v

end InputView

section views

variable {index : BlockNumber} {s t : PollMachine}

theorem view_moves (step : PollSurroundings s t) :
    t.view index = s.view index ∨ (s.view index).Moves (t.view index) := by
  cases step with
  | setting setting later => exact .inr (.tick _ setting.capture.clocks.artInRange later)
  | captured other enabled =>
      by_cases same : other = index
      · subst same
        right
        have moved := InputView.Moves.captured (v := s.view other) enabled
        simpa [PollMachine.view, PollMachine.captured, PollMachine.updateLine, processedOf]
          using moved
      · left
        simp [PollMachine.view, PollMachine.captured, PollMachine.updateLine, processedOf,
          Function.update_of_ne (Ne.symm same)]
  | pins | reset | beginRequest | endRequest => exact .inl rfl

theorem view_step {op : PollOp} {reply : op.Resp} (step : s.perform op = some (reply, t)) :
    InputView.Step index op (s.view index) reply (t.view index) := by
  cases op with
  | readl other reg =>
      obtain ⟨-, step⟩ := Option.ite_none_right_eq_some.mp step
      cases step
      by_cases same : other = index
      · subst same
        simp only [InputView.Step, if_pos]
        exact ⟨rfl, by simp [PollMachine.view, PollMachine.updateLine, processedOf]⟩
      · simp [InputView.Step, PollMachine.view, PollMachine.updateLine, processedOf, same,
          Function.update_of_ne (Ne.symm same)]
  | writeCtl other value =>
      obtain ⟨-, step⟩ := Option.ite_none_right_eq_some.mp step
      cases step
      by_cases same : other = index
      · subst same
        simp [InputView.Step, PollMachine.view, PollMachine.updateLine, processedOf]
      · simp [InputView.Step, PollMachine.view, PollMachine.updateLine, processedOf, same,
          Function.update_of_ne (Ne.symm same)]
  | load other =>
      cases step
      exact ⟨rfl, fun same => same ▸ rfl⟩
  | store other update =>
      cases step
      by_cases same : other = index
      · subst same
        simp [InputView.Step, PollMachine.view, PollMachine.updateBlock, processedOf]
      · simp [InputView.Step, PollMachine.view, PollMachine.updateBlock, processedOf, same,
          Function.update_of_ne (Ne.symm same)]
  | process capture =>
      cases step
      by_cases same : capture.block.val = index.val
      · simp [InputView.Step, PollMachine.view, processedOf, same]
      · simp [InputView.Step, PollMachine.view, processedOf, same]
  | setting =>
      cases step
      exact ⟨rfl, rfl⟩
  | cancelEnd =>
      obtain ⟨-, step⟩ := Option.ite_none_left_eq_some.mp step
      cases step
      rfl
  | _ =>
      cases step
      rfl

end views

abbrev pollingSem : Semantics PollOp PollOp.Resp PollMachine := pollSem PollSurroundings

/-- A fact about an input that the surroundings cannot invalidate. -/
def Enduring (holds : InputView → Prop) : Prop := ∀ v w, v.Moves w → holds v → holds w

section rules

variable {index : BlockNumber} {holds : InputView → Prop}

theorem Enduring.stable (enduring : Enduring holds) :
    Stable pollingSem fun m => holds (m.view index) := by
  intro s t step before
  have moved : t.view index = s.view index ∨ (s.view index).Moves (t.view index) := view_moves step
  rcases moved with same | moves
  · rw [same]
    exact before
  · exact enduring _ _ moves before

theorem Enduring.and {other : InputView → Prop} (first : Enduring holds) (second : Enduring other) :
    Enduring fun v => holds v ∧ other v :=
  fun v w moves both => ⟨first v w moves both.1, second v w moves both.2⟩

theorem enduring_block (record : InputMmioBlock → Prop) : Enduring fun v => record v.block := by
  intro v w moves before
  cases moves <;> exact before

theorem enduring_const (fact : Prop) : Enduring fun _ => fact := fun _ _ _ before => before

/-- One access to an input. -/
theorem Triple.input (op : PollOp) (post : op.Resp → InputView → Prop) (enduring : Enduring holds)
    (after : ∀ reply, Enduring (post reply))
    (step : ∀ v reply w, holds v → InputView.Step index op v reply w → post reply w) :
    Triple pollingSem (fun m => holds (m.view index)) (Prog.perform op)
      fun reply m => post reply (m.view index) :=
  Triple.call enduring.stable (fun reply => (after reply).stable)
    fun _ _ _ before performed => step _ _ _ before (view_step performed)

end rules

section accesses

variable {index : BlockNumber}

/-- The accesses of a look at an input, which leave its configuration. -/
def PollOp.looks (index : BlockNumber) : PollOp → Prop
  | .readl other _ | .load other => other = index
  | .store other update => other = index ∧ ∀ block, (update block).mode = block.mode ∧
      (update block).inputApplied = block.inputApplied
  | .process capture => capture.block.val = index.val
  | .pins | .ptpClock | .setting | .crosststamp _ _ | .ptpClockEvent _ | .ppsEvent _ _ => True
  | _ => False

/-- The accesses of a turn of the loop on one block. -/
def PollOp.at (index : BlockNumber) : PollOp → Prop
  | .writeCtl other _ | .atomicRead other => other = index
  | .store other update => other = index ∧ ∀ block, (update block).mode = block.mode
  | op => op.looks index

theorem looks_at (op : PollOp) (looks : op.looks index) : op.at index := by
  cases op with
  | store other update => exact ⟨looks.1, fun block => (looks.2 block).1⟩
  | _ => first | exact looks | exact looks.elim

theorem access_looks {op : PollOp} (looks : op.looks index) :
    Uses (PollOp.looks index) (Prog.perform op : Poller op.Resp) :=
  (uses_perform op).mpr looks

theorem access_at {op : PollOp} (turn : op.at index) :
    Uses (PollOp.at index) (Prog.perform op : Poller op.Resp) :=
  (uses_perform op).mpr turn

theorem read_capture_looks : Uses (PollOp.looks index) (readCapture index) :=
  Uses.seq (access_looks rfl) fun _ => Uses.seq (access_looks rfl) fun _ =>
    Uses.seq (access_looks rfl) fun _ => Uses.seq (access_looks rfl) fun _ => uses_pure _

theorem enable_at (ctrl desired : BitVec 32) :
    Uses (PollOp.at index) (enableInput index ctrl desired) :=
  Uses.seq (access_at rfl) fun _ => Uses.seq (read_capture_looks.mono looks_at) fun _ =>
    Uses.seq (access_at ⟨rfl, fun _ => rfl⟩) fun _ => access_at rfl

theorem apply_at (desired : BitVec 32) : Uses (PollOp.at index) (applyInput index desired) := by
  refine Uses.seq (access_at rfl) fun ctrl => Uses.seq (access_at rfl) fun _ => ?_
  split
  · exact access_at ⟨rfl, fun _ => rfl⟩
  · exact enable_at _ _

theorem reconcile_at (desired applied : BitVec 32) :
    Uses (PollOp.at index) (reconcileInput index desired applied) := by
  rw [reconcileInput]
  split
  · exact uses_pure _
  · exact Uses.seq (apply_at desired) fun _ => access_at ⟨rfl, fun _ => rfl⟩

theorem realtime_now_looks : Uses (PollOp.looks index) realtimeNow :=
  Uses.seq (access_looks trivial) fun _ => uses_pure _

theorem poll_time_looks : Uses (PollOp.looks index) pollTime := by
  refine Uses.seq (access_looks trivial) fun setting => ?_
  split
  · exact realtime_now_looks
  · split
    · exact realtime_now_looks
    · exact uses_pure _

theorem art_to_realtime_looks (art : Nat) :
    Uses (PollOp.looks index) (artToRealtimeNs index art) :=
  Uses.seq (access_looks rfl) fun _ => access_looks trivial

theorem capture_time_looks (art : Nat) : Uses (PollOp.looks index) (captureTime index art) := by
  refine Uses.seq (access_looks trivial) fun setting => ?_
  split
  · exact poll_time_looks
  split
  · split
    · exact poll_time_looks
    · split
      · exact poll_time_looks
      · exact uses_pure _
  split
  · refine Uses.seq (art_to_realtime_looks art) fun time => ?_
    cases time with
    | error status => exact realtime_now_looks
    | ok time => exact uses_pure _
  · exact uses_pure _

theorem emit_event_looks (channel art : Nat) :
    Uses (PollOp.looks index) (emitEvent index channel art) := by
  refine Uses.seq (access_looks trivial) fun ptpClock => ?_
  split
  · exact uses_pure _
  · exact Uses.seq (capture_time_looks art) fun _ => access_looks trivial

theorem pps_emit_looks (art : Nat) : Uses (PollOp.looks index) (ppsEmit index art) := by
  refine Uses.seq (access_looks rfl) fun block => ?_
  split
  · exact uses_pure _
  · refine Uses.seq (art_to_realtime_looks art) fun real => ?_
    cases real with
    | error status => exact uses_pure _
    | ok real =>
        dsimp only
        split
        · exact uses_pure _
        · exact access_looks trivial

theorem deliver_looks (cap : TgpioCapture) (delta : BitVec 64) :
    Uses (PollOp.looks index) (deliverCapture index cap delta) :=
  Uses.seq (access_looks ⟨rfl, fun _ => ⟨rfl, rfl⟩⟩) fun _ =>
    Uses.seq (access_looks trivial) fun _ => Uses.seq (emit_event_looks _ _) fun _ =>
      Uses.seq (access_looks rfl) fun _ => pps_emit_looks _

theorem take_crosststamp_looks : Uses (PollOp.looks index) takeCrosststamp := by
  refine Uses.seq (access_looks trivial) fun setting => ?_
  split <;> exact uses_pure _

theorem poll_input_looks : Uses (PollOp.looks index) (pollInput index) := by
  refine Uses.seq take_crosststamp_looks fun snap => Uses.seq read_capture_looks fun cap =>
    Uses.seq (access_looks rfl) fun block => ?_
  split
  · exact access_looks ⟨rfl, fun _ => ⟨rfl, rfl⟩⟩
  · exact Uses.seq (deliver_looks _ _) fun _ => access_looks ⟨rfl, fun _ => ⟨rfl, rfl⟩⟩

theorem poll_block_at : Uses (PollOp.at index) (pollBlock index) := by
  refine Uses.seq (access_at rfl) fun block => ?_
  split
  · exact uses_pure _
  refine Uses.seq (access_at rfl) fun desired => Uses.seq (reconcile_at _ _) fun _ => ?_
  split
  · exact uses_pure _
  · exact Uses.seq (poll_input_looks.mono looks_at) fun _ => uses_pure _

/-- What a turn of the loop leaves as it is: what is asked, and the work item. -/
structure TurnKeeps (s t : PollMachine) : Prop where
  desired : t.desired = s.desired
  queued : t.queued = s.queued
  running : t.running = s.running
  cancelling : t.cancelling = s.cancelling
  owed : t.owed = s.owed
  served : t.served = s.served
  mode : ∀ index, (t.block index).mode = (s.block index).mode

theorem at_frame {op : PollOp} {s t : PollMachine} {reply : op.Resp} (turn : op.at index)
    (step : s.perform op = some (reply, t)) : TurnKeeps s t := by
  cases op with
  | readl | writeCtl =>
      obtain ⟨-, step⟩ := Option.ite_none_right_eq_some.mp step
      cases step
      exact ⟨rfl, rfl, rfl, rfl, rfl, rfl, fun _ => rfl⟩
  | store here update =>
      cases step
      refine ⟨rfl, rfl, rfl, rfl, rfl, rfl, fun other => ?_⟩
      by_cases same : other = here
      · rw [same]
        simp [PollMachine.updateBlock, turn.2]
      · simp [PollMachine.updateBlock, Function.update_of_ne same]
  | atomicSet | schedule | cancelBegin | cancelEnd => exact turn.elim
  | _ =>
      cases step
      exact ⟨rfl, rfl, rfl, rfl, rfl, rfl, fun _ => rfl⟩

/-- A turn on another block leaves the input as it is, conversions apart. -/
theorem apart_step {other : BlockNumber} {op : PollOp} {reply : op.Resp} {v w : InputView}
    (different : other ≠ index) (turn : op.at other)
    (step : InputView.Step index op v reply w) : w.unconverted = v.unconverted := by
  have apart : other.val ≠ index.val := fun same => different (Fin.ext same)
  cases op with
  | readl | writeCtl =>
      cases turn
      simp only [InputView.Step, if_neg different] at step
      rw [step]
  | store here update =>
      obtain ⟨rfl, -⟩ := turn
      simp only [InputView.Step, if_neg different] at step
      rw [step]
  | load | setting => rw [step.1]
  | process capture =>
      have elsewhere : capture.block.val ≠ index.val := fun same => apart (turn.symm.trans same)
      simp only [InputView.Step, if_neg elsewhere, List.append_nil] at step
      rw [step]
  | crosststamp => rw [step]; rfl
  | _ => rw [step]

end accesses

end Tgpio

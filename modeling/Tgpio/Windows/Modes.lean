import Tgpio.Windows.Requests

/-!
# The recorded mode and the hardware

The dispatch layer records a mode by the status the hardware layer answers, and
unload relies on it. Of a block only the control word, the mode and the live
interval matter here; each sequence changes them in a way that does not depend
on the hardware, whatever edges come in between.
-/

namespace Tgpio.Windows

open Interference Interference.Prog

set_option autoImplicit false

/-- The part of a block that its mode is about. -/
structure Pin where
  ctl : BitVec 32
  mode : BlockMode
  hwPiv : Nat
  mapped : Bool
  deriving DecidableEq, Repr

def WinMachine.pin (m : WinMachine) (index : BlockIndex) : Pin where
  ctl := (m.line index).regs.ctl
  mode := (m.device.block index).mode
  hwPiv := (m.device.block index).hwPiv
  mapped := (m.device.block index).mapped

def hasDir (ctrl : BitVec 32) : Bool := ctrl.getLsbD 1

/-- The mode and the live interval say what the control word says. -/
structure Matches (pin : Pin) : Prop where
  off : pin.mode = .off → hasEn pin.ctl = false
  output : pin.mode = .output ↔ pin.hwPiv ≠ 0 ∧ hasEn pin.ctl = true ∧ hasDir pin.ctl = false
  input : pin.mode = .input → pin.hwPiv = 0 ∧ hasEn pin.ctl = true ∧ hasDir pin.ctl = true

section pins

variable {index : BlockIndex} {pin : Pin} {α β : Type}

def PinIs (index : BlockIndex) (pin : Pin) (m : WinMachine) : Prop := m.pin index = pin

/-- Hardware moves neither the control word nor the driver's records. -/
theorem stable_pin : Stable winSem (PinIs index pin) := by
  intro s t step same
  have kept : t.pin index = s.pin index := by
    cases step with
    | edge other | captured other =>
        unfold WinMachine.pin
        by_cases own : index = other
        · subst own
          simp [WinMachine.edge, WinMachine.captured, WinMachine.updateLine]
        · simp [WinMachine.edge, WinMachine.captured, WinMachine.updateLine, own]
    | tick => rfl
  exact kept.trans same

/-- Accesses after which the pin is as before. -/
def Leaves (index : BlockIndex) (op : WinOp) : Prop :=
  ∀ s reply t, WinMachine.perform op s = some (reply, t) → t.pin index = s.pin index

theorem leaves_line {op : WinOp} {other : BlockIndex} {update : Line → Line}
    (keeps : ∀ line, (update line).regs.ctl = line.regs.ctl)
    (does : ∀ s reply t, WinMachine.perform op s = some (reply, t) →
      t = s.updateLine other update) : Leaves index op := by
  intro s reply t step
  rw [does s reply t step]
  unfold WinMachine.pin
  by_cases own : index = other
  · subst own
    simp [WinMachine.updateLine, keeps]
  · simp [WinMachine.updateLine, own]

theorem leaves_readl (other : BlockIndex) (reg : WinReg) : Leaves index (.readl other reg) := by
  refine @leaves_line index _ other (fun line => line.readEffect reg) (fun line => ?_) ?_
  · cases reg <;> rfl
  · intro s reply t step
    obtain ⟨-, done⟩ := Option.ite_none_right_eq_some.mp step
    cases done
    rfl

theorem leaves_data (other : BlockIndex) {reg : Reg} (value : BitVec 32) (notCtl : reg ≠ .ctl) :
    Leaves index (.writel other reg value) := by
  refine @leaves_line index _ other (fun line => line.write reg value) (fun line => ?_) ?_
  · cases reg <;> first | rfl | exact absurd rfl notCtl
  · intro s reply t step
    obtain ⟨-, done⟩ := Option.ite_none_right_eq_some.mp step
    cases done
    rfl

theorem leaves_other {other : BlockIndex} (reg : Reg) (value : BitVec 32) (apart : index ≠ other) :
    Leaves index (.writel other reg value) := by
  intro s reply t step
  obtain ⟨-, done⟩ := Option.ite_none_right_eq_some.mp step
  cases done
  simp [WinMachine.pin, WinMachine.updateLine, apart]

/-- What a record of the driver does to the pin. -/
def Pin.updated (pin : Pin) (block : WinBlock) : Pin :=
  { pin with mode := block.mode, hwPiv := block.hwPiv, mapped := block.mapped }

theorem updated_eq {pin : Pin} {block : WinBlock} (kept : pin.updated block = pin) :
    block.mode = pin.mode ∧ block.hwPiv = pin.hwPiv ∧ block.mapped = pin.mapped :=
  ⟨congrArg Pin.mode kept, congrArg Pin.hwPiv kept, congrArg Pin.mapped kept⟩

theorem pin_update_block (m : WinMachine) (update : WinBlock → WinBlock) :
    (m.updateBlock index update).pin index =
      (m.pin index).updated (update (m.device.block index)) := by
  simp [WinMachine.pin, WinMachine.updateBlock, Pin.updated]

theorem leaves_store (other : BlockIndex) {update : WinBlock → WinBlock}
    (keeps : index = other → ∀ block, (update block).mode = block.mode ∧
      (update block).hwPiv = block.hwPiv ∧ (update block).mapped = block.mapped) :
    Leaves index (.store other update) := by
  intro s reply t step
  cases step
  by_cases own : index = other
  · subst own
    obtain ⟨mode, piv, mapped⟩ := keeps rfl (s.device.block index)
    rw [pin_update_block, Pin.updated, mode, piv, mapped]
    rfl
  · simp [WinMachine.pin, WinMachine.updateBlock, own]

theorem leaves_device : Leaves index .device := by
  intro s reply t step
  cases step
  rfl

theorem leaves_rdtsc : Leaves index .rdtsc := by
  intro s reply t step
  cases step
  rfl

theorem leaves_system_time : Leaves index .systemTime := by
  intro s reply t step
  cases step
  rfl

theorem triple_leaves {program : WinProg α} (uses : Uses (Leaves index) program) :
    Triple winSem (PinIs index pin) program fun _ => PinIs index pin := by
  intro s same
  refine wp_uses uses (fun op s reply t leaves step same => ?_) stable_pin same
  exact (leaves s reply t step).trans same

/-- A part that leaves the pin alone, and the rest. -/
theorem triple_past {program : WinProg α} {rest : α → WinProg β} {post : β → WinMachine → Prop}
    (uses : Uses (Leaves index) program)
    (after : ∀ value, Triple winSem (PinIs index pin) (rest value) post) :
    Triple winSem (PinIs index pin) (program >>= rest) post :=
  Triple.bind (triple_leaves uses) after

theorem triple_return {value : α} {post : α → WinMachine → Prop}
    (holds : ∀ m, PinIs index pin m → post value m) :
    Triple winSem (PinIs index pin) (Pure.pure value : WinProg α) post :=
  Triple.pure stable_pin holds

/-- The control word read is the pin's. -/
theorem triple_read_ctl {rest : BitVec 32 → WinProg β} {post : β → WinMachine → Prop}
    (after : Triple winSem (PinIs index pin) (rest pin.ctl) post) :
    Triple winSem (PinIs index pin) (readCtl index >>= rest) post := by
  refine Triple.via (fun ctrl m => ctrl = pin.ctl ∧ PinIs index pin m) ?_ fun ctrl => ?_
  · refine Triple.call stable_pin (fun ctrl s t step holds => ⟨holds.1, stable_pin s t step holds.2⟩)
      fun s reply t same step => ?_
    have kept := (leaves_readl index (.block .ctl) s reply t step).trans same
    obtain ⟨-, done⟩ := Option.ite_none_right_eq_some.mp step
    cases done
    exact ⟨congrArg Pin.ctl same, kept⟩
  · intro s holds
    obtain ⟨rfl, same⟩ := holds
    exact after s same

theorem write_ctl_pin (value : BitVec 32) :
    Triple winSem (PinIs index pin) (writeCtl index value)
      fun _ => PinIs index { pin with ctl := value } := by
  refine Triple.call stable_pin (fun _ => stable_pin) fun s reply t same step => ?_
  obtain ⟨-, done⟩ := Option.ite_none_right_eq_some.mp step
  cases done
  subst same
  simp [PinIs, WinMachine.pin, WinMachine.updateLine, Line.write, Regs.write]

theorem triple_write_ctl (value : BitVec 32) {rest : Unit → WinProg β}
    {post : β → WinMachine → Prop}
    (after : Triple winSem (PinIs index { pin with ctl := value }) (rest ()) post) :
    Triple winSem (PinIs index pin) (writeCtl index value >>= rest) post :=
  (write_ctl_pin value).bind fun _ => after

theorem store_block_pin {update : WinBlock → WinBlock} {next : Pin}
    (does : ∀ block, pin.updated block = pin → pin.updated (update block) = next) :
    Triple winSem (PinIs index pin) (storeBlock index update) fun _ => PinIs index next := by
  refine Triple.call stable_pin (fun _ => stable_pin) fun s reply t same step => ?_
  cases step
  rw [PinIs, pin_update_block, show s.pin index = pin from same]
  refine does _ ?_
  subst same
  rfl

/-- The driver's records agree with the pin. -/
theorem triple_get_device {rest : WinDevice → WinProg β} {post : β → WinMachine → Prop}
    (after : ∀ dev, pin.updated (dev.block index) = pin →
      Triple winSem (PinIs index pin) (rest dev) post) :
    Triple winSem (PinIs index pin) (getDevice >>= rest) post := by
  refine Triple.via (fun dev m => pin.updated (dev.block index) = pin ∧ PinIs index pin m) ?_
    fun dev s holds => after dev holds.1 s holds.2
  refine Triple.call stable_pin (fun dev s t step holds => ⟨holds.1, stable_pin s t step holds.2⟩)
    fun s reply t same step => ?_
  cases step
  refine ⟨?_, same⟩
  subst same
  rfl

/-- Recording a mode, with the answer that follows. -/
theorem with_mode_pin (mode : BlockMode) (value : α) :
    Triple winSem (PinIs index pin)
      (storeBlock index (withMode mode) >>= fun _ => Pure.pure value)
      fun answer m => answer = value ∧ PinIs index { pin with mode } m := by
  refine (store_block_pin fun block kept => ?_).bind fun _ =>
    triple_return fun m same => ⟨rfl, same⟩
  obtain ⟨mode, piv, mapped⟩ := updated_eq kept
  simp [Pin.updated, withMode, piv, mapped]

end pins

/-! ## What leaves a block alone -/

section frames

variable {index other : BlockIndex}

section reads

variable {allowed : WinOp → Prop} (reads : ∀ reg, allowed (.readl other reg))

include reads

theorem read_compv_uses : Uses allowed (readCompv other) := by
  refine Uses.seq ((uses_perform _).mpr (reads _)) fun hi => ?_
  refine Uses.iterate fun prevHi => ?_
  refine Uses.seq ((uses_perform _).mpr (reads _)) fun lo => ?_
  refine Uses.seq ((uses_perform _).mpr (reads _)) fun hi => ?_
  split <;> exact uses_pure _

theorem read_piv_uses : Uses allowed (readPiv other) := by
  refine Uses.seq ((uses_perform _).mpr (reads _)) fun lo => ?_
  refine Uses.seq ((uses_perform _).mpr (reads _)) fun hi => ?_
  exact uses_pure _

theorem read_capture_uses : Uses allowed (readCapture other) := by
  refine Uses.seq ((uses_perform _).mpr (reads _)) fun tcvLo => ?_
  refine Uses.seq ((uses_perform _).mpr (reads _)) fun countHi => ?_
  refine Uses.seq ((uses_perform _).mpr (reads _)) fun countLo => ?_
  refine Uses.seq ((uses_perform _).mpr (reads _)) fun tcvHi => ?_
  exact uses_pure _

end reads

theorem read_compv_leaves : Uses (Leaves index) (readCompv other) :=
  read_compv_uses (leaves_readl other)

theorem read_piv_leaves : Uses (Leaves index) (readPiv other) := read_piv_uses (leaves_readl other)

theorem read_capture_leaves : Uses (Leaves index) (readCapture other) :=
  read_capture_uses (leaves_readl other)

theorem write_compv_leaves (value : Nat) : Uses (Leaves index) (writeCompv other value) := by
  refine Uses.seq ((uses_perform _).mpr (leaves_data _ _ (by decide))) fun _ => ?_
  exact (uses_perform _).mpr (leaves_data _ _ (by decide))

theorem write_piv_leaves (value : Nat) : Uses (Leaves index) (writePiv other value) := by
  refine Uses.seq ((uses_perform _).mpr (leaves_data _ _ (by decide))) fun _ => ?_
  exact (uses_perform _).mpr (leaves_data _ _ (by decide))

theorem art_now_leaves (dev : WinDevice) : Uses (Leaves index) (artNow dev) := by
  refine Uses.seq ((uses_perform _).mpr leaves_rdtsc) fun tsc => ?_
  exact uses_pure _

theorem hw_flop_fold_leaves : Uses (Leaves index) (hwFlopFold other) := by
  refine Uses.seq ((uses_perform _).mpr leaves_device) fun dev => ?_
  split
  · exact uses_pure _
  · refine Uses.seq read_compv_leaves fun compv => ?_
    split
    · exact uses_pure _
    · exact (uses_perform _).mpr (leaves_store other fun _ block => ⟨rfl, rfl, rfl⟩)

theorem read_capture_of_leaves : Uses (Leaves index) (readCaptureOf other) := by
  refine Uses.seq read_capture_leaves fun capture => ?_
  refine Uses.seq ((uses_perform _).mpr leaves_rdtsc) fun tscNow => ?_
  refine Uses.seq ((uses_perform _).mpr leaves_system_time) fun systime => ?_
  exact uses_pure _

theorem get_block_leaves : Uses (Leaves index) (getBlock other) := by
  refine Uses.seq hw_flop_fold_leaves fun _ => ?_
  refine Uses.seq ((uses_perform _).mpr leaves_device) fun dev => ?_
  refine Uses.seq ((uses_perform _).mpr (leaves_readl _ _)) fun ctl => ?_
  refine Uses.seq read_compv_leaves fun compv => ?_
  refine Uses.seq read_piv_leaves fun piv => ?_
  refine Uses.seq read_capture_leaves fun capture => ?_
  exact uses_pure _

variable (apart : index ≠ other)

include apart

theorem write_ctl_leaves (value : BitVec 32) : Uses (Leaves index) (writeCtl other value) :=
  (uses_perform _).mpr (leaves_other _ _ apart)

theorem store_block_leaves (update : WinBlock → WinBlock) :
    Uses (Leaves index) (storeBlock other update) :=
  (uses_perform _).mpr (leaves_store other fun own => absurd own apart)

theorem hw_stop_output_leaves : Uses (Leaves index) (hwStopOutput other) := by
  refine Uses.seq ((uses_perform _).mpr (leaves_readl _ _)) fun ctrl => ?_
  refine Uses.seq (write_ctl_leaves apart _) fun _ => ?_
  refine Uses.seq hw_flop_fold_leaves fun _ => ?_
  refine Uses.seq (write_compv_leaves 0) fun _ => ?_
  refine Uses.seq (write_piv_leaves 0) fun _ => ?_
  refine Uses.seq (write_ctl_leaves apart _) fun _ => ?_
  exact store_block_leaves apart _

theorem hw_set_input_leaves (enable : Bool) (edgeBits : BitVec 32) :
    Uses (Leaves index) (hwSetInput other enable edgeBits) := by
  refine Uses.seq ((uses_perform _).mpr (leaves_readl _ _)) fun ctrl => ?_
  refine Uses.seq (write_ctl_leaves apart _) fun _ => ?_
  split
  · exact uses_pure _
  · refine Uses.seq (write_ctl_leaves apart _) fun _ => ?_
    exact write_ctl_leaves apart _

theorem hw_start_output_leaves (highCycles lowCycles firstEdgeArt : Nat) :
    Uses (Leaves index) (hwStartOutput other highCycles lowCycles firstEdgeArt) := by
  unfold hwStartOutput
  split
  · exact uses_pure _
  · refine Uses.seq ((uses_perform _).mpr (leaves_readl _ _)) fun ctrl => ?_
    refine Uses.seq (write_ctl_leaves apart _) fun _ => ?_
    refine Uses.seq hw_flop_fold_leaves fun _ => ?_
    refine Uses.seq (write_compv_leaves 0) fun _ => ?_
    refine Uses.seq (write_piv_leaves 0) fun _ => ?_
    refine Uses.seq (write_ctl_leaves apart _) fun _ => ?_
    refine Uses.seq ((uses_perform _).mpr leaves_device) fun dev => ?_
    refine Uses.seq (art_now_leaves dev) fun nowArt => ?_
    dsimp only
    generalize lateArmGuard _ _ _ = aimed
    cases aimed with
    | none => exact uses_pure _
    | some first =>
      refine Uses.seq ?_ fun _ => uses_pure _
      refine Uses.seq (write_ctl_leaves apart _) fun _ => ?_
      refine Uses.seq (write_piv_leaves _) fun _ => ?_
      refine Uses.seq (write_compv_leaves _) fun _ => ?_
      refine Uses.seq (store_block_leaves apart _) fun _ => ?_
      exact write_ctl_leaves apart _

theorem set_input_leaves (enable edge : BitVec 32) :
    Uses (Leaves index) (setInput other enable edge) := by
  unfold setInput
  split
  · exact uses_pure _
  · rename_i edgeBits _
    have switched : Uses (Leaves index) (do
        hwSetInput other (enable ≠ 0) edgeBits
        storeBlock other (withMode (if enable ≠ 0 then .input else .off))
        return (.ok .done : Except NtStatus Reply)) := by
      refine Uses.seq (hw_set_input_leaves apart _ _) fun _ => ?_
      refine Uses.seq (store_block_leaves apart _) fun _ => ?_
      exact uses_pure _
    refine Uses.seq ((uses_perform _).mpr leaves_device) fun dev => ?_
    dsimp only
    split
    · exact Uses.seq (hw_stop_output_leaves apart) fun _ => switched
    · exact switched

theorem start_output_leaves (highCycles lowCycles firstEdgeArt : BitVec 64) :
    Uses (Leaves index) (startOutput other highCycles lowCycles firstEdgeArt) := by
  unfold startOutput
  split
  · exact uses_pure _
  · generalize (if lowCycles ≠ 0 then lowCycles else highCycles) = lowCycles
    dsimp only
    split
    · exact uses_pure _
    · refine Uses.seq (hw_start_output_leaves apart _ _ _) fun status => ?_
      cases status with
      | error status =>
          refine Uses.seq (store_block_leaves apart _) fun _ => ?_
          exact uses_pure _
      | ok =>
          refine Uses.seq (store_block_leaves apart _) fun _ => ?_
          exact uses_pure _

theorem invert_output_leaves : Uses (Leaves index) (invertOutput other) := by
  refine Uses.seq ?_ fun _ => uses_pure _
  refine Uses.seq (store_block_leaves apart _) fun _ => ?_
  refine Uses.seq ((uses_perform _).mpr leaves_device) fun dev => ?_
  split
  · exact uses_pure _
  · refine Uses.seq hw_flop_fold_leaves fun _ => ?_
    refine Uses.seq read_compv_leaves fun compv => ?_
    split
    · exact uses_pure _
    · refine Uses.seq ((uses_perform _).mpr (leaves_readl _ _)) fun ctrl => ?_
      refine Uses.seq (write_ctl_leaves apart _) fun _ => ?_
      refine Uses.seq (write_compv_leaves _) fun _ => ?_
      refine Uses.seq (write_ctl_leaves apart _) fun _ => ?_
      exact store_block_leaves apart _

/-- A request for another block. -/
theorem serve_leaves (request : Request) : Uses (Leaves index) (serve other request) := by
  cases request with
  | setInput _ enable edge => exact set_input_leaves apart enable edge
  | readCapture => exact read_capture_of_leaves
  | startOutput _ highCycles lowCycles firstEdgeArt =>
      exact start_output_leaves apart highCycles lowCycles firstEdgeArt
  | stopOutput =>
      refine Uses.seq (hw_stop_output_leaves apart) fun _ => ?_
      refine Uses.seq (store_block_leaves apart _) fun _ => ?_
      exact uses_pure _
  | invertOutput => exact invert_output_leaves apart
  | getBlock => exact get_block_leaves

theorem cleanup_block_leaves : Uses (Leaves index) (cleanupBlock other) := by
  refine Uses.seq ((uses_perform _).mpr leaves_device) fun dev => ?_
  split
  · exact uses_pure _
  · dsimp only
    split
    · exact Uses.seq (hw_stop_output_leaves apart) fun _ => store_block_leaves apart _
    · exact Uses.seq (hw_set_input_leaves apart _ _) fun _ => store_block_leaves apart _
    · exact store_block_leaves apart _

end frames

end Tgpio.Windows

import Tgpio.Windows.Modes

/-!
# Runs of requests

A start that is refused for its interval leaves the block as it was, but the
dispatch layer records it as off; one that overflows leaves the interval of the
waveform it has just stopped. Runs without these two keep the recorded mode and
the hardware together.
-/

namespace Tgpio.Windows

open Interference Interference.Prog

set_option autoImplicit false

@[simp] theorem has_dir_with (ctrl bits : BitVec 32) :
    hasDir (ctlWith ctrl bits) = (hasDir ctrl || hasDir bits) := by
  simp [hasDir, ctlWith]

@[simp] theorem has_dir_without (ctrl bits : BitVec 32) :
    hasDir (ctlWithout ctrl bits) = (hasDir ctrl && !hasDir bits) := by
  simp [hasDir, ctlWithout]

@[simp] theorem has_dir_or (ctrl bits : BitVec 32) :
    hasDir (ctrl ||| bits) = (hasDir ctrl || hasDir bits) := by
  simp [hasDir]

@[simp] theorem has_dir_ctl_dir : hasDir ctlDir = true := rfl
@[simp] theorem has_dir_ctl_en : hasDir ctlEn = false := rfl
@[simp] theorem has_dir_ctl_ep_toggle : hasDir ctlEpToggle = false := rfl
@[simp] theorem has_dir_ctl_pm : hasDir ctlPm = false := rfl

section sequences

variable {index : BlockIndex} {pin : Pin} {α β : Type}

/-- A sequence known by the pins it can leave, and the rest. -/
theorem triple_after {program : WinProg α} {rest : α → WinProg β} {reached : α → Pin → Prop}
    {post : β → WinMachine → Prop}
    (first : Triple winSem (PinIs index pin) program fun value m => reached value (m.pin index))
    (after : ∀ value next, reached value next →
      Triple winSem (PinIs index next) (rest value) post) :
    Triple winSem (PinIs index pin) (program >>= rest) post :=
  first.bind fun value s holds => after value (s.pin index) holds s rfl

def Pin.stopped (pin : Pin) : Pin :=
  { pin with ctl := ctlWithout pin.ctl (ctlEn ||| ctlPm), hwPiv := 0 }

theorem hw_stop_output_pin :
    Triple winSem (PinIs index pin) (hwStopOutput index) fun _ => PinIs index pin.stopped := by
  apply triple_read_ctl
  apply triple_write_ctl
  apply triple_past hw_flop_fold_leaves
  intro _
  apply triple_past (write_compv_leaves 0)
  intro _
  apply triple_past (write_piv_leaves 0)
  intro _
  apply triple_write_ctl
  apply store_block_pin
  intro block kept
  obtain ⟨mode, -, mapped⟩ := updated_eq kept
  simp only at mode mapped
  simp [Pin.updated, Pin.stopped, stopped, mode, mapped]

/-- What switching to an input does to the control word. -/
def inputCtl (ctrl : BitVec 32) (enable : Bool) (edgeBits : BitVec 32) : BitVec 32 :=
  if enable then
    ctlWith (ctlWith (ctlWith (ctlWithout (ctlWithout ctrl ctlEn) ctlEp) (edgeBits &&& ctlEp))
      ctlDir) ctlEn
  else ctlWithout ctrl ctlEn

theorem hw_set_input_pin (enable : Bool) (edgeBits : BitVec 32) :
    Triple winSem (PinIs index pin) (hwSetInput index enable edgeBits)
      fun _ => PinIs index { pin with ctl := inputCtl pin.ctl enable edgeBits } := by
  apply triple_read_ctl
  apply triple_write_ctl
  cases enable with
  | false => exact triple_return fun m same => same
  | true =>
      apply triple_write_ctl
      exact write_ctl_pin _

theorem input_ctl_en (ctrl : BitVec 32) (enable : Bool) (edgeBits : BitVec 32) :
    hasEn (inputCtl ctrl enable edgeBits) = enable := by
  cases enable <;> simp [inputCtl]

theorem input_ctl_dir (ctrl edgeBits : BitVec 32) :
    hasDir (inputCtl ctrl true edgeBits) = true := by
  simp [inputCtl]

theorem hw_invert_output_pin :
    Triple winSem (PinIs index pin) (hwInvertOutput index) fun _ => PinIs index pin := by
  refine triple_past ((uses_perform _).mpr (leaves_store index fun _ block => ⟨rfl, rfl, rfl⟩))
    fun _ => ?_
  refine triple_get_device fun dev kept => ?_
  split
  · exact triple_return fun m same => same
  · refine triple_past hw_flop_fold_leaves fun _ => ?_
    refine triple_past read_compv_leaves fun compv => ?_
    split
    · exact triple_return fun m same => same
    · apply triple_read_ctl
      apply triple_write_ctl
      refine triple_past (write_compv_leaves _) fun _ => ?_
      apply triple_write_ctl
      exact triple_leaves
        ((uses_perform _).mpr (leaves_store index fun _ block => ⟨rfl, rfl, rfl⟩))

def outOfRange (highCycles lowCycles : Nat) : Prop :=
  highCycles = 0 ∨ lowCycles = 0 ∨ highCycles > u64Max / 4 ∨ lowCycles > u64Max / 4

/-- What a start can leave: everything as it was, nothing running, or the new
waveform. -/
inductive StartLeaves (pin : Pin) (highCycles lowCycles : Nat) :
    Except NtStatus Unit → Pin → Prop where
  | refused {status : NtStatus} : outOfRange highCycles lowCycles →
      StartLeaves pin highCycles lowCycles (.error status) pin
  | overflowed {status : NtStatus} {ctl : BitVec 32} : hasEn ctl = false →
      StartLeaves pin highCycles lowCycles (.error status) { pin with ctl }
  | armed {ctl : BitVec 32} {hwPiv : Nat} : hasEn ctl = true → hasDir ctl = false → hwPiv ≠ 0 →
      StartLeaves pin highCycles lowCycles (.ok ()) { pin with ctl, hwPiv }

theorem hw_enable_output_pin {ctrl : BitVec 32} {highCycles lowCycles initialPiv first : Nat} :
    Triple winSem (PinIs index pin)
      (hwEnableOutput index ctrl highCycles lowCycles initialPiv first)
      fun _ => PinIs index { pin with
        ctl := ctlWith (ctlWith ctrl (ctlEpToggle ||| ctlPm)) ctlEn
        hwPiv := initialPiv } := by
  apply triple_write_ctl
  apply triple_past (write_piv_leaves _)
  intro _
  apply triple_past (write_compv_leaves _)
  intro _
  have recorded (block : WinBlock) {before : Pin} (kept : before.updated block = before) :
      before.updated (started highCycles lowCycles initialPiv first block) =
        { before with hwPiv := initialPiv } := by
    obtain ⟨mode, -, mapped⟩ := updated_eq kept
    simp [Pin.updated, started, mode, mapped]
  exact (store_block_pin fun block kept => recorded block kept).bind fun _ => write_ctl_pin _

theorem hw_start_output_pin (highCycles lowCycles firstEdgeArt : Nat) :
    Triple winSem (PinIs index pin) (hwStartOutput index highCycles lowCycles firstEdgeArt)
      fun status m => StartLeaves pin highCycles lowCycles status (m.pin index) := by
  unfold hwStartOutput
  split
  next range =>
    refine triple_return fun m same => ?_
    rw [show m.pin index = pin from same]
    exact .refused range
  next range =>
    apply triple_read_ctl
    apply triple_write_ctl
    apply triple_past hw_flop_fold_leaves
    intro _
    apply triple_past (write_compv_leaves 0)
    intro _
    apply triple_past (write_piv_leaves 0)
    intro _
    apply triple_write_ctl
    apply triple_get_device
    intro dev kept
    apply triple_past (art_now_leaves dev)
    intro nowArt
    dsimp only
    generalize lateArmGuard _ _ _ = aimed
    cases aimed with
    | none =>
        refine triple_return fun m same => ?_
        rw [show m.pin index = _ from same]
        exact .overflowed (by simp)
    | some first =>
        refine hw_enable_output_pin.bind fun _ => triple_return fun m same => ?_
        rw [show m.pin index = _ from same]
        refine .armed (by simp) (by simp) ?_
        split <;> omega

end sequences

/-! ## Requests -/

/-- Neither of the two requests that part the record from the hardware: a start
whose interval is out of range while the block is enabled, and an input that is
taken while an interval is still recorded for a block that is no output. -/
def Keeps (pin : Pin) : Request → Prop
  | .startOutput _ highCycles lowCycles _ =>
      lowCycles = 0 ∨ lowCycles = highCycles → u64Max / 4 < highCycles.toNat →
        hasEn pin.ctl = false
  | .setInput _ enable edge =>
      enable ≠ 0 → (inputEdgeBits edge).isSome → pin.mode ≠ .output → pin.hwPiv = 0
  | _ => True

/-- The same for a request as it is delivered, when it is for this block. -/
def Careful (index : BlockIndex) (m : WinMachine) (ioctl : Ioctl) : Prop :=
  ioctl.inputFits → ioctl.request.block.toNat = index.val → (m.pin index).mapped →
    Keeps (m.pin index) ioctl.request

section serving

variable {index : BlockIndex} {pin : Pin}

/-- The mode matches, and the block stays mapped or not. -/
def Served (pin next : Pin) : Prop := Matches next ∧ next.mapped = pin.mapped

theorem matches_off {pin : Pin} (cleared : hasEn pin.ctl = false) (off : pin.mode = .off) :
    Matches pin where
  off _ := cleared
  output := by simp [off, cleared]
  input isInput := by simp [off] at isInput

theorem matches_input {pin : Pin} (isInput : pin.mode = .input) (idle : pin.hwPiv = 0)
    (enabled : hasEn pin.ctl = true) (inward : hasDir pin.ctl = true) : Matches pin where
  off isOff := by simp [isInput] at isOff
  output := by simp [isInput, idle]
  input _ := ⟨idle, enabled, inward⟩

theorem set_input_served {enable edge : BitVec 32} (agrees : Matches pin)
    (keeps : enable ≠ 0 → (inputEdgeBits edge).isSome → pin.mode ≠ .output → pin.hwPiv = 0) :
    Triple winSem (PinIs index pin) (setInput index enable edge)
      fun _ m => Served pin (m.pin index) := by
  -- what is left to do once an output has been stopped
  have switched (before : Pin) (edgeBits : BitVec 32) (same : before.mapped = pin.mapped)
      (idle : enable ≠ 0 → before.hwPiv = 0) :
      Triple winSem (PinIs index before) (do
        hwSetInput index (enable ≠ 0) edgeBits
        storeBlock index (withMode (if enable ≠ 0 then .input else .off))
        return (.ok .done : Except NtStatus Reply)) fun _ m => Served pin (m.pin index) := by
    apply (hw_set_input_pin (enable ≠ 0) edgeBits).bind
    intro _
    refine (with_mode_pin _ _).post fun answer m holds => ?_
    rw [show m.pin index = _ from holds.2]
    refine ⟨?_, same⟩
    have enabled := input_ctl_en before.ctl (enable ≠ 0) edgeBits
    by_cases on : enable ≠ 0
    · have inward := input_ctl_dir before.ctl edgeBits
      rw [decide_eq_true on] at enabled ⊢
      exact matches_input (if_pos on) (idle on) enabled inward
    · rw [decide_eq_false on] at enabled ⊢
      exact matches_off enabled (if_neg on)
  unfold setInput
  split
  next => exact triple_return fun m same => by rw [show m.pin index = pin from same]; exact ⟨agrees, rfl⟩
  next edgeBits known =>
    refine triple_get_device fun dev kept => ?_
    have recorded : (dev.block index).mode = pin.mode := (updated_eq kept).1
    dsimp only
    rw [recorded]
    by_cases wasOutput : pin.mode = .output
    · rw [if_pos wasOutput]
      exact hw_stop_output_pin.bind fun _ => switched pin.stopped edgeBits rfl fun _ => rfl
    · rw [if_neg wasOutput]
      exact switched pin edgeBits rfl fun on => keeps on (by rw [known]; rfl) wasOutput

theorem start_output_served {highCycles lowCycles firstEdgeArt : BitVec 64}
    (agrees : Matches pin)
    (keeps : lowCycles = 0 ∨ lowCycles = highCycles → u64Max / 4 < highCycles.toNat →
      hasEn pin.ctl = false) :
    Triple winSem (PinIs index pin) (startOutput index highCycles lowCycles firstEdgeArt)
      fun _ m => Served pin (m.pin index) := by
  have unchanged (status : NtStatus) : Triple winSem (PinIs index pin)
      (Pure.pure (.error status) : WinProg (Except NtStatus Reply))
      fun _ m => Served pin (m.pin index) := by
    refine triple_return fun m same => ?_
    rw [show m.pin index = pin from same]
    exact ⟨agrees, rfl⟩
  unfold startOutput
  split
  next => exact unchanged _
  next nonzero =>
    generalize chosen : (if lowCycles ≠ 0 then lowCycles else highCycles) = effective
    dsimp only
    split
    next => exact unchanged _
    next symmetric =>
      rw [not_not] at symmetric
      subst symmetric
      have asked : lowCycles = 0 ∨ lowCycles = effective := by
        by_cases zero : lowCycles = 0
        · exact .inl zero
        · exact .inr (by rw [← chosen, if_pos zero])
      have some : effective.toNat ≠ 0 := fun zero => nonzero (BitVec.eq_of_toNat_eq zero)
      refine triple_after (hw_start_output_pin _ _ _) fun status next reached => ?_
      cases reached with
      | refused range =>
          refine (with_mode_pin .off _).post fun answer m holds => ?_
          rw [show m.pin index = _ from holds.2]
          have large : u64Max / 4 < effective.toNat := by
            unfold outOfRange at range
            omega
          exact ⟨matches_off (keeps asked large) rfl, rfl⟩
      | overflowed cleared =>
          refine (with_mode_pin .off _).post fun answer m holds => ?_
          rw [show m.pin index = _ from holds.2]
          exact ⟨matches_off cleared rfl, rfl⟩
      | armed enabled outward live =>
          refine (with_mode_pin .output _).post fun answer m holds => ?_
          rw [show m.pin index = _ from holds.2]
          refine ⟨?_, rfl⟩
          constructor <;> simp [enabled, outward, live]

theorem serve_served {request : Request} (agrees : Matches pin) (keeps : Keeps pin request) :
    Triple winSem (PinIs index pin) (serve index request)
      fun _ m => Served pin (m.pin index) := by
  have unchanged {program : WinProg (Except NtStatus Reply)}
      (kept : Triple winSem (PinIs index pin) program fun _ => PinIs index pin) :
      Triple winSem (PinIs index pin) program fun _ m => Served pin (m.pin index) := by
    refine kept.post fun answer m same => ?_
    rw [show m.pin index = pin from same]
    exact ⟨agrees, rfl⟩
  cases request with
  | setInput block enable edge => exact set_input_served agrees keeps
  | readCapture block => exact unchanged (triple_leaves read_capture_of_leaves)
  | startOutput block highCycles lowCycles firstEdgeArt => exact start_output_served agrees keeps
  | stopOutput block =>
      apply hw_stop_output_pin.bind
      intro _
      refine (with_mode_pin .off _).post fun answer m holds => ?_
      rw [show m.pin index = _ from holds.2]
      exact ⟨matches_off (by simp [Pin.stopped]) rfl, rfl⟩
  | invertOutput block =>
      exact unchanged (hw_invert_output_pin.bind fun _ => triple_return fun m same => same)
  | getBlock block => exact unchanged (triple_leaves get_block_leaves)

theorem block_from_index_val {dev : WinDevice} {number : BitVec 32} {found : BlockIndex}
    (same : blockFromIndex dev number = some found) :
    number.toNat = found.val ∧ (dev.block found).mapped = true := by
  unfold blockFromIndex at same
  split at same
  next bound =>
    obtain ⟨listed, same⟩ := Option.ite_none_right_eq_some.mp same
    obtain rfl := Option.some.inj same
    exact ⟨rfl, listed.2⟩
  next => contradiction

/-- One request, for this block or for another. -/
theorem ioctl_served {ioctl : Ioctl} (agrees : Matches pin)
    (careful : ioctl.inputFits → ioctl.request.block.toNat = index.val → pin.mapped →
      Keeps pin ioctl.request) :
    Triple winSem (PinIs index pin) (evtIoctl ioctl) fun _ m => Served pin (m.pin index) := by
  have unchanged {program : WinProg (Except NtStatus Reply)} (uses : Uses (Leaves index) program) :
      Triple winSem (PinIs index pin) program fun _ m => Served pin (m.pin index) := by
    refine (triple_leaves uses).post fun answer m same => ?_
    rw [show m.pin index = pin from same]
    exact ⟨agrees, rfl⟩
  unfold evtIoctl
  split
  next => exact unchanged (uses_pure _)
  next fits =>
    refine triple_get_device fun dev kept => ?_
    cases found : blockFromIndex dev ioctl.request.block with
    | none => exact unchanged (uses_pure _)
    | some other =>
        obtain ⟨number, mapped⟩ := block_from_index_val found
        by_cases own : index = other
        · subst own
          refine serve_served agrees (careful ?_ number ?_)
          · by_contra tooSmall
            exact fits (.inl tooSmall)
          · exact (updated_eq kept).2.2 ▸ mapped
        · exact unchanged (serve_leaves own ioctl.request)

theorem cleanup_block_clears (agrees : Matches pin) (mapped : pin.mapped = true) :
    Triple winSem (PinIs index pin) (cleanupBlock index)
      fun _ m => hasEn (m.pin index).ctl = false := by
  have forget {before : Pin} (cleared : hasEn before.ctl = false) :
      Triple winSem (PinIs index before) (storeBlock index unmapped)
        fun _ m => hasEn (m.pin index).ctl = false := by
    refine (@store_block_pin index before _ { before with mapped := false }
      fun block kept => ?_).post fun _ m same => ?_
    · obtain ⟨mode, piv, -⟩ := updated_eq kept
      simp [Pin.updated, unmapped, mode, piv]
    · rw [show m.pin index = _ from same]
      exact cleared
  refine triple_get_device fun dev kept => ?_
  obtain ⟨mode, -, recorded⟩ := updated_eq kept
  rw [if_neg (by simp [recorded, mapped]), mode]
  dsimp only
  cases isMode : pin.mode with
  | output => exact hw_stop_output_pin.bind fun _ => forget (by simp [Pin.stopped])
  | input => exact (hw_set_input_pin false 0).bind fun _ => forget (input_ctl_en _ _ _)
  | off => exact forget (agrees.off isMode)

theorem cleanup_clears (agrees : Matches pin) (mapped : pin.mapped = true) :
    Triple winSem (PinIs index pin) evtDeviceCleanup
      fun _ m => hasEn (m.pin index).ctl = false := by
  unfold evtDeviceCleanup
  match index with
  | ⟨0, _⟩ =>
      refine (cleanup_block_clears agrees mapped).bind fun _ s cleared => ?_
      have apart : (⟨0, by decide⟩ : BlockIndex) ≠ ⟨1, by decide⟩ := by simp
      have kept := triple_leaves (cleanup_block_leaves apart) s rfl
      refine wp_mono (fun _ m same => ?_) kept
      rw [show m.pin ⟨0, _⟩ = s.pin ⟨0, _⟩ from same]
      exact cleared
  | ⟨1, _⟩ =>
      apply triple_past (cleanup_block_leaves (by simp))
      intro _
      exact cleanup_block_clears agrees mapped

end serving

/-! ## Runs -/

/-- One request served from beginning to end, the hardware moving meanwhile. -/
def Serves (allowed : WinMachine → Ioctl → Prop) (s t : WinMachine) : Prop :=
  ∃ ioctl status, allowed s ioctl ∧ Executes winSem (evtIoctl ioctl) s status t

/-- A block as the zeroed context and a disabled timer leave it at load. -/
structure Loaded (pin : Pin) : Prop where
  off : pin.mode = .off
  idle : pin.hwPiv = 0
  disabled : hasEn pin.ctl = false

/-- At the end of every run of careful requests the recorded mode agrees with
the hardware, and unloading then leaves no mapped block enabled. -/
theorem careful_runs_match {index : BlockIndex} {first last : WinMachine}
    (loaded : Loaded (first.pin index))
    (run : Relation.ReflTransGen (Serves (Careful index)) first last) :
    Matches (last.pin index) ∧
      ((last.pin index).mapped = true → ∀ final,
        Executes winSem evtDeviceCleanup last () final → hasEn (final.pin index).ctl = false) := by
  have agrees : Matches (last.pin index) := by
    induction run with
    | refl => exact matches_off loaded.disabled loaded.off
    | tail _ served agrees =>
        obtain ⟨ioctl, status, careful, ran⟩ := served
        exact (wp_executes (ioctl_served agrees careful _ rfl) ran).1
  refine ⟨agrees, fun mapped final unloaded => ?_⟩
  exact @wp_executes _ _ _ _ _ _ (fun _ m => hasEn (m.pin index).ctl = false) _ _ _
    (cleanup_clears agrees mapped last rfl) unloaded

/-- A platform timer of 38.4 MHz with two blocks, one of them mapped. -/
def freshMachine : WinMachine where
  device := {
    block := fun index => ⟨index = ⟨0, max_blocks_pos⟩, .off, false, 0, 0, 0, 0⟩
    blockCount := 1
    artFrequencyHz := 38400000
    tscArtNumerator := 2
    tscArtDenominator := 1
    tscAdjust := 0 }
  line := fun _ => ⟨⟨0, 0, 0⟩, false, ⟨0, 0⟩, ⟨0, 0⟩⟩
  tsc := 1000000000
  systime := 0

def firstBlock : BlockIndex := ⟨0, max_blocks_pos⟩

def startOf (highCycles : BitVec 64) : Ioctl where
  request := .startOutput 0 highCycles 0 0
  inputFits := true
  outputFits := true

/-- The machine after a program that nothing interferes with. -/
def after {α : Type} (program : WinProg α) (m : WinMachine) : WinMachine :=
  finalState WinMachine.perform 100 [] program m

theorem after_executes {α : Type} {program : WinProg α} {m : WinMachine} {value : α}
    (ends : (exec WinMachine.perform 100 [] program m).map Prod.fst = some value) :
    Executes winSem program m value (after program m) :=
  exec_final (fun _ _ _ _ step => step) 100 [] (by simp) program m value ends

def runningMachine : WinMachine := after (evtIoctl (startOf 1000)) freshMachine
def refusedMachine : WinMachine := after (evtIoctl (startOf (BitVec.ofNat 64 (2 ^ 62)))) runningMachine

theorem careful_runs_match_start :
    Matches (runningMachine.pin firstBlock) ∧
      ((runningMachine.pin firstBlock).mapped = true → ∀ final,
        Executes winSem evtDeviceCleanup runningMachine () final →
          hasEn (final.pin firstBlock).ctl = false) := by
  have loaded : Loaded (freshMachine.pin firstBlock) := ⟨rfl, rfl, rfl⟩
  refine careful_runs_match loaded (.single ⟨startOf 1000, .ok .done, ?_, ?_⟩)
  · intro _ _ _ _ large
    exact absurd large (by decide)
  · exact after_executes (by decide +kernel)

/-- A start with an interval out of range, on a running output: the request is
refused, the block is recorded as off, and unloading leaves it enabled. -/
theorem refused_start_escapes_unload :
    ¬ ∀ (first last : WinMachine), Loaded (first.pin firstBlock) →
      Relation.ReflTransGen (Serves fun _ _ => True) first last →
      Matches (last.pin firstBlock) ∧
        ((last.pin firstBlock).mapped = true → ∀ final,
          Executes winSem evtDeviceCleanup last () final →
            hasEn (final.pin firstBlock).ctl = false) := by
  intro claimed
  have run : Relation.ReflTransGen (Serves fun _ _ => True) freshMachine refusedMachine := by
    apply Relation.ReflTransGen.tail (b := runningMachine)
    · exact .single ⟨startOf 1000, .ok .done, trivial, after_executes (by decide +kernel)⟩
    · exact ⟨startOf (BitVec.ofNat 64 (2 ^ 62)), .error .invalidParameter, trivial,
        after_executes (by decide +kernel)⟩
  have unloaded : Executes winSem evtDeviceCleanup refusedMachine ()
      (after evtDeviceCleanup refusedMachine) := after_executes (by decide +kernel)
  have cleared := (claimed _ _ ⟨rfl, rfl, rfl⟩ run).2 (by decide +kernel) _ unloaded
  exact absurd cleared (by decide +kernel)

end Tgpio.Windows

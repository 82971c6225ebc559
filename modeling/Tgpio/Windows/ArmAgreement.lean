import Tgpio.Interference.Alone
import Tgpio.OutputHardware
import Tgpio.Windows.ModeRuns

/-!
# The two arm sequences

`tgpio_hw_start_output` mirrors `tgpio_arm_hardware_periodic` of the other
driver. Both are run here against one plan: which slot and which first interval
an arm comes to, and which registers it writes on the way.
-/

namespace Tgpio.Windows

open Interference Interference.Prog

set_option autoImplicit false

abbrev RegWrite := Reg × BitVec 32

instance (highCycles lowCycles : Nat) : Decidable (outOfRange highCycles lowCycles) :=
  inferInstanceAs (Decidable (_ ∨ _ ∨ _ ∨ _))

/-- The slot and the first interval an arm comes to, unless it fails. -/
def armPlan (flopHigh : Bool) (highCycles lowCycles requested now margin : Nat) :
    Option (Nat × Nat) :=
  if outOfRange highCycles lowCycles then none
  else (lateArmGuard (startSlot flopHigh requested highCycles lowCycles) (now + margin)
    (highCycles + lowCycles)).map fun first => (first, if flopHigh then lowCycles else highCycles)

def compvWrites (value : Nat) : List RegWrite :=
  [(.compv63_32, upper32Bits value), (.compv31_0, lower32Bits value)]

def pivWrites (value : Nat) : List RegWrite :=
  [(.piv63_32, upper32Bits value), (.piv31_0, lower32Bits value)]

/-- The control value with the mode of the last use taken out. -/
def modeless (ctl : BitVec 32) : BitVec 32 :=
  ctlWithout (ctlWithout ctl ctlEn) (ctlDir ||| ctlEp ||| ctlPm)

def periodicCtl (ctl : BitVec 32) : BitVec 32 := ctlWith (modeless ctl) (ctlEpToggle ||| ctlPm)

/-- Everything an arm writes before EN. -/
def armPrefix (ctl : BitVec 32) (first piv : Nat) : List RegWrite :=
  [(.ctl, ctlWithout ctl ctlEn)] ++ compvWrites 0 ++ pivWrites 0 ++ [(.ctl, modeless ctl)] ++
    [(.ctl, periodicCtl ctl)] ++ pivWrites piv ++ compvWrites first

def armWrites (ctl : BitVec 32) (highCycles lowCycles : Nat) :
    Option (Nat × Nat) → List RegWrite
  | some (first, piv) => armPrefix ctl first piv ++ [(.ctl, ctlWith (periodicCtl ctl) ctlEn)]
  | none =>
      if outOfRange highCycles lowCycles then []
      else [(.ctl, ctlWithout ctl ctlEn)] ++ compvWrites 0 ++ pivWrites 0 ++ [(.ctl, modeless ctl)]

/-- What an arm leaves behind, in either driver. -/
structure Waveform where
  regs : Regs
  livePiv : Nat
  ckptCompv : Nat
  flopHigh : Bool
  deriving DecidableEq, Repr

def WinMachine.waveform (m : WinMachine) (index : BlockIndex) : Waveform where
  regs := (m.line index).regs
  livePiv := (m.device.block index).hwPiv
  ckptCompv := (m.device.block index).ckptCompv
  flopHigh := (m.device.block index).flopHigh

/-- An arm that followed the plan. -/
structure Follows (ctl : BitVec 32) (flopHigh : Bool) (highCycles lowCycles : Nat)
    (plan : Option (Nat × Nat)) (succeeded : Prop) (log : List RegWrite) (left : Waveform) :
    Prop where
  status : succeeded ↔ plan.isSome
  log : log = armWrites ctl highCycles lowCycles plan
  left : ∀ first piv, plan = some (first, piv) →
    left = ⟨⟨ctlWith (periodicCtl ctl) ctlEn, BitVec.ofNat 64 first, BitVec.ofNat 64 piv⟩,
      piv, first, flopHigh⟩

/-! ## The Windows sequence -/

def winNote (index : BlockIndex) : WinOp → List RegWrite
  | .writel other reg value => if other = index then [(reg, value)] else []
  | _ => []

abbrev winTraced (index : BlockIndex) :
    Handler WinOp WinOp.Resp (WinMachine × List RegWrite) :=
  traced WinMachine.perform (winNote index)

/-- The device, the registers of the block, the counter and the writes so far. -/
structure WinStands (index : BlockIndex) (dev : WinDevice) (regs : Regs) (tsc : Nat)
    (log : List RegWrite) (s : WinMachine × List RegWrite) : Prop where
  device : s.1.device = dev
  regs : (s.1.line index).regs = regs
  tsc : s.1.tsc = tsc
  log : s.2 = log

section windows

variable {index : BlockIndex} {dev : WinDevice} {regs : Regs} {tsc : Nat} {log : List RegWrite}

theorem win_writel (mapped : (dev.block index).mapped = true) (reg : Reg) (value : BitVec 32) :
    Achieves (winTraced index) (WinStands index dev regs tsc log) (writel index reg value)
      fun _ => WinStands index dev (regs.write reg value) tsc (log ++ [(reg, value)]) := by
  apply Achieves.call
  intro s stands
  refine ⟨(), (s.1.updateLine index fun line => line.write reg value, s.2 ++ [(reg, value)]), ?_, ?_⟩
  · simp [traced, WinMachine.perform, winNote, stands.device, mapped]
  · constructor
    · exact stands.device
    · simp [WinMachine.updateLine, Line.write, stands.regs]
    · exact stands.tsc
    · rw [stands.log]

theorem win_write_compv (mapped : (dev.block index).mapped = true) (value : Nat) :
    Achieves (winTraced index) (WinStands index dev regs tsc log) (writeCompv index value)
      fun _ => WinStands index dev { regs with compv := BitVec.ofNat 64 value } tsc
        (log ++ compvWrites value) := by
  refine (win_writel mapped _ _).bind fun _ => (win_writel mapped _ _).post fun _ s stands => ?_
  rw [write_compv_words, List.append_assoc] at stands
  exact stands

theorem win_write_piv (mapped : (dev.block index).mapped = true) (value : Nat) :
    Achieves (winTraced index) (WinStands index dev regs tsc log) (writePiv index value)
      fun _ => WinStands index dev { regs with piv := BitVec.ofNat 64 value } tsc
        (log ++ pivWrites value) := by
  refine (win_writel mapped _ _).bind fun _ => (win_writel mapped _ _).post fun _ s stands => ?_
  rw [write_piv_words, List.append_assoc] at stands
  exact stands

theorem win_read_ctl (mapped : (dev.block index).mapped = true) :
    Achieves (winTraced index) (WinStands index dev regs tsc log) (readCtl index)
      fun ctrl s => ctrl = regs.ctl ∧ WinStands index dev regs tsc log s := by
  apply Achieves.call
  intro s stands
  refine ⟨regs.ctl, (s.1.updateLine index fun line => line.readEffect (.block .ctl), s.2), ?_,
    rfl, ?_⟩
  · simp [traced, WinMachine.perform, winNote, stands.device, mapped, Line.read, Regs.read,
      stands.regs]
  · refine ⟨stands.device, ?_, stands.tsc, stands.log⟩
    simp [WinMachine.updateLine, Line.readEffect, stands.regs]

theorem win_get_device :
    Achieves (winTraced index) (WinStands index dev regs tsc log) getDevice
      fun known s => known = dev ∧ WinStands index dev regs tsc log s := by
  apply Achieves.call
  intro s stands
  refine ⟨dev, s, ?_, rfl, stands⟩
  simp [traced, WinMachine.perform, winNote, stands.device]

theorem win_art_now :
    Achieves (winTraced index) (WinStands index dev regs tsc log) (artNow dev)
      fun now s => now = artFromTsc dev tsc ∧ WinStands index dev regs tsc log s := by
  refine @Achieves.bind_known _ _ _ _ _ _ _ _ _ tsc (WinStands index dev regs tsc log) _ ?_
    (Achieves.pure fun s stands => ⟨rfl, stands⟩)
  apply Achieves.call
  intro s stands
  refine ⟨tsc, s, ?_, rfl, stands⟩
  simp [traced, WinMachine.perform, winNote, stands.tsc]

theorem win_store (update : WinBlock → WinBlock) :
    Achieves (winTraced index) (WinStands index dev regs tsc log) (storeBlock index update)
      fun _ => WinStands index
        { dev with block := Function.update dev.block index (update (dev.block index)) } regs tsc
        log := by
  apply Achieves.call
  intro s stands
  refine ⟨(), (s.1.updateBlock index update, s.2), ?_, ?_⟩
  · simp [traced, WinMachine.perform, winNote]
  · refine ⟨?_, stands.regs, stands.tsc, stands.log⟩
    simp [WinMachine.updateBlock, stands.device]

/-- Without a live interval a fold looks at nothing. -/
theorem win_fold (idle : (dev.block index).hwPiv = 0) :
    Achieves (winTraced index) (WinStands index dev regs tsc log) (hwFlopFold index)
      fun _ => WinStands index dev regs tsc log := by
  refine win_get_device.bind_known ?_
  rw [if_pos idle]
  exact Achieves.pure fun s stands => stands

/-- The Windows arm follows the plan. -/
theorem win_follows {highCycles lowCycles requested now margin : Nat}
    (mapped : (dev.block index).mapped = true) (idle : (dev.block index).hwPiv = 0)
    (asked : requested ≠ 0) (isNow : artFromTsc dev tsc = now)
    (isMargin : artNsToCycles dev armMarginNs = margin) (fits : now + margin < 2 ^ 64) :
    Achieves (winTraced index) (WinStands index dev regs tsc [])
      (hwStartOutput index highCycles lowCycles requested)
      fun status s => Follows regs.ctl (dev.block index).flopHigh highCycles lowCycles
        (armPlan (dev.block index).flopHigh highCycles lowCycles requested now margin)
        (status = .ok ()) s.2 (s.1.waveform index) := by
  by_cases range : outOfRange highCycles lowCycles
  · have refusal : hwStartOutput index highCycles lowCycles requested =
        Pure.pure (.error .invalidParameter) := by
      unfold outOfRange at range
      rw [hwStartOutput, if_pos range]
    rw [refusal, armPlan, if_pos range]
    refine Achieves.pure fun s stands => ⟨by simp, ?_, fun _ _ done => by cases done⟩
    rw [stands.log, armWrites, if_pos range]
  have inRange : ¬(highCycles = 0 ∨ lowCycles = 0 ∨ highCycles > u64Max / 4 ∨
    lowCycles > u64Max / 4) := range
  rw [hwStartOutput, if_neg inRange, armPlan, if_neg range]
  refine (win_read_ctl mapped).bind_known ?_
  refine (win_writel mapped _ _).bind fun _ => ?_
  refine (win_fold idle).bind fun _ => ?_
  refine (win_write_compv mapped 0).bind fun _ => ?_
  refine (win_write_piv mapped 0).bind fun _ => ?_
  refine (win_writel mapped _ _).bind fun _ => ?_
  refine win_get_device.bind_known ?_
  refine win_art_now.bind_known ?_
  have deadline : u64 (artFromTsc dev tsc + artNsToCycles dev armMarginNs) = now + margin := by
    rw [isNow, isMargin, u64, Nat.mod_eq_of_lt fits]
  dsimp only
  rw [if_neg asked, deadline]
  cases lateArmGuard (startSlot (dev.block index).flopHigh requested highCycles lowCycles)
      (now + margin) (highCycles + lowCycles) with
  | none =>
      refine Achieves.pure fun s stands => ⟨by simp, ?_, fun _ _ done => by cases done⟩
      rw [stands.log]
      simp [armWrites, range, modeless]
  | some first =>
      refine Achieves.bind ?_ fun _ => Achieves.pure fun s follows => follows
      refine (win_writel mapped _ _).bind fun _ => ?_
      refine (win_write_piv mapped _).bind fun _ => ?_
      refine (win_write_compv mapped _).bind fun _ => ?_
      refine (win_store _).bind fun _ => ?_
      refine (win_writel (by simpa [started] using mapped) _ _).post fun _ s stands => ⟨by simp, ?_, ?_⟩
      · rw [stands.log]
        simp [armWrites, armPrefix, periodicCtl, modeless]
      · intro slot piv same
        cases same
        simp [WinMachine.waveform, stands.regs, stands.device, started, Regs.write, periodicCtl,
          modeless]

end windows

/-! ## The sequence it mirrors -/

def linNote : Op → List RegWrite
  | .writel reg value => [(reg, value)]
  | _ => []

abbrev linTraced : Handler Op Op.Resp (Machine × List RegWrite) := traced Machine.perform linNote

def waveformOf (m : Machine) : Waveform where
  regs := m.regs
  livePiv := m.block.outputHwPiv
  ckptCompv := m.block.outputHwCkptCompv
  flopHigh := m.block.outputHwFlopHigh

/-- The block, the registers, the clocks and the writes so far. -/
structure LinStands (block : MmioBlock) (regs : Regs) (params : Params) (clocks : Clocks)
    (log : List RegWrite) (s : Machine × List RegWrite) : Prop where
  block : s.1.block = block
  regs : s.1.regs = regs
  params : s.1.params = params
  clocks : s.1.clocks = clocks
  log : s.2 = log

/-- A conversion that answers `cycles`; a count of zero is an error there. -/
def Counts (cycles : Nat) : U64Result → Prop
  | .ok answer => answer = cycles
  | .error _ => cycles = 0

/-- The compare value of a first edge: the pipeline delay taken off. -/
def compareOf (requested : Nat) : Nat :=
  if requested > artHwDelayCycles then requested - artHwDelayCycles else requested

section linux

variable {block : MmioBlock} {regs : Regs} {params : Params} {clocks : Clocks}
  {log : List RegWrite}

theorem lin_writel (reg : Reg) (value : BitVec 32) :
    Achieves linTraced (LinStands block regs params clocks log) (Tgpio.writel reg value)
      fun _ => LinStands block (regs.write reg value) params clocks (log ++ [(reg, value)]) := by
  apply Achieves.call
  intro s stands
  refine ⟨(), (s.1.writeReg reg value, s.2 ++ [(reg, value)]), rfl, ?_⟩
  rw [stands.log]
  constructor
  · cases reg <;> exact stands.block
  · rw [← stands.regs]
    cases reg <;> rfl
  · cases reg <;> exact stands.params
  · cases reg <;> exact stands.clocks
  · rfl

theorem lin_write_compv (value : Nat) :
    Achieves linTraced (LinStands block regs params clocks log) (Tgpio.writeCompv value)
      fun _ => LinStands block { regs with compv := BitVec.ofNat 64 value } params clocks
        (log ++ compvWrites value) := by
  refine (lin_writel _ _).bind fun _ => (lin_writel _ _).post fun _ s stands => ?_
  rw [write_compv_words, List.append_assoc] at stands
  exact stands

theorem lin_write_piv (value : Nat) :
    Achieves linTraced (LinStands block regs params clocks log) (Tgpio.writePiv value)
      fun _ => LinStands block { regs with piv := BitVec.ofNat 64 value } params clocks
        (log ++ pivWrites value) := by
  refine (lin_writel _ _).bind fun _ => (lin_writel _ _).post fun _ s stands => ?_
  rw [write_piv_words, List.append_assoc] at stands
  exact stands

theorem lin_read_ctl :
    Achieves linTraced (LinStands block regs params clocks log) Tgpio.readCtl
      fun ctrl s => ctrl = regs.ctl ∧ LinStands block regs params clocks log s := by
  apply Achieves.call
  intro s stands
  refine ⟨regs.ctl, s, ?_, rfl, stands⟩
  simp [traced, Machine.perform, linNote, Regs.read, stands.regs, Machine.readReg]

theorem lin_sample {α : Type} (read : Params → Clocks → α) :
    Achieves linTraced (LinStands block regs params clocks log) (sample read)
      fun value s => value = read params clocks ∧ LinStands block regs params clocks log s := by
  apply Achieves.call
  intro s stands
  refine ⟨read params clocks, s, ?_, rfl, stands⟩
  simp [traced, Machine.perform, linNote, stands.params, stands.clocks]

theorem lin_load :
    Achieves linTraced (LinStands block regs params clocks log) loadBlock
      fun known s => known = block ∧ LinStands block regs params clocks log s := by
  apply Achieves.call
  intro s stands
  refine ⟨block, s, ?_, rfl, stands⟩
  simp [traced, Machine.perform, linNote, stands.block]

theorem lin_store (update : MmioBlock → MmioBlock) :
    Achieves linTraced (LinStands block regs params clocks log) (Tgpio.storeBlock update)
      fun _ => LinStands (update block) regs params clocks log := by
  apply Achieves.call
  intro s stands
  refine ⟨(), ({ s.1 with block := update s.1.block }, s.2), ?_, ?_⟩
  · simp [traced, Machine.perform, linNote]
  · exact ⟨congrArg update stands.block, stands.regs, stands.params, stands.clocks, stands.log⟩

theorem lin_real :
    Achieves linTraced (LinStands block regs params clocks log) ktimeGetReal
      fun _ => LinStands block regs params clocks log := by
  apply Achieves.call
  intro s stands
  exact ⟨s.1.clocks.real, s, by simp [traced, Machine.perform, linNote], stands⟩

theorem lin_timer (expires : Int) :
    Achieves linTraced (LinStands block regs params clocks log) (hrtimerStart expires)
      fun _ => LinStands block regs params clocks log := by
  apply Achieves.call
  intro s stands
  refine ⟨(), ({ s.1 with timerArmed := true }, s.2), ?_, ?_⟩
  · simp [traced, Machine.perform, linNote]
  · exact ⟨stands.block, stands.regs, stands.params, stands.clocks, stands.log⟩

theorem lin_mark :
    Achieves linTraced (LinStands block regs params clocks log) (mark .slot)
      fun _ => LinStands block regs params clocks log := by
  apply Achieves.call
  intro s stands
  refine ⟨(), (s.1.mark .slot, s.2), ?_, ?_⟩
  · simp [traced, Machine.perform, linNote]
  · exact ⟨stands.block, stands.regs, stands.params, stands.clocks, stands.log⟩

theorem lin_fold (idle : block.outputHwPiv = 0) :
    Achieves linTraced (LinStands block regs params clocks log) Tgpio.hwFlopFold
      fun _ => LinStands block regs params clocks log := by
  refine lin_load.bind_known ?_
  rw [if_pos idle]
  exact Achieves.pure fun s stands => stands

theorem lin_stop_for_rearm (idle : block.outputHwPiv = 0) :
    Achieves linTraced (LinStands block regs params clocks []) stopForRearm
      fun ctrl s => ctrl = modeless regs.ctl ∧
        LinStands block ⟨modeless regs.ctl, 0, 0⟩ params clocks
          ([(.ctl, ctlWithout regs.ctl ctlEn)] ++ compvWrites 0 ++ pivWrites 0 ++
            [(.ctl, modeless regs.ctl)]) s := by
  refine lin_read_ctl.bind_known ?_
  refine (lin_writel _ _).bind fun _ => ?_
  refine (lin_fold idle).bind fun _ => ?_
  refine (lin_write_compv 0).bind fun _ => ?_
  refine (lin_write_piv 0).bind fun _ => ?_
  refine (lin_writel _ _).bind fun _ => ?_
  exact Achieves.pure fun s stands => ⟨rfl, stands⟩

theorem lin_start (ctrl : BitVec 32) (firstEdgeNs : Int) (highTimeNs lowTimeNs first piv : Nat) :
    Achieves linTraced (LinStands block regs params clocks log)
      (startHardwarePeriodic ctrl firstEdgeNs highTimeNs lowTimeNs first piv)
      fun _ s => waveformOf s.1 = ⟨⟨ctlWith (ctlWith ctrl (ctlEpToggle ||| ctlPm)) ctlEn,
          BitVec.ofNat 64 first, BitVec.ofNat 64 piv⟩, piv, first, block.outputHwFlopHigh⟩ ∧
        s.2 = log ++ [(.ctl, ctlWith ctrl (ctlEpToggle ||| ctlPm))] ++ pivWrites piv ++
          compvWrites first ++ [(.ctl, ctlWith (ctlWith ctrl (ctlEpToggle ||| ctlPm)) ctlEn)] := by
  refine (lin_writel _ _).bind fun _ => ?_
  refine (lin_write_piv _).bind fun _ => ?_
  refine (lin_write_compv _).bind fun _ => ?_
  refine (lin_store _).bind fun _ => ?_
  refine (lin_writel _ _).bind fun _ => ?_
  split
  · refine lin_real.bind fun nowReal => ?_
    refine (lin_store _).bind fun _ => (lin_timer _).post fun _ s stands => ⟨?_, stands.log⟩
    simp [waveformOf, stands.regs, stands.block, wakingAt, armed, Regs.write]
  · refine Achieves.pure fun s stands => ⟨?_, stands.log⟩
    simp [waveformOf, stands.regs, stands.block, armed, Regs.write]

theorem arm_intervals_eq {first highCycles lowCycles : Nat} {highArt lowArt : U64Result}
    (high : Counts highCycles highArt) (low : Counts lowCycles lowArt) :
    armIntervals (.ok first) highArt lowArt =
      if outOfRange highCycles lowCycles then .error .enodev
      else .ok (first, highCycles, lowCycles) := by
  cases highArt with
  | error status =>
      have zero : highCycles = 0 := high
      rw [if_pos (.inl zero)]
      rfl
  | ok highArt =>
      cases lowArt with
      | error status =>
          have zero : lowCycles = 0 := low
          rw [if_pos (.inr (.inl zero))]
          rfl
      | ok lowArt =>
          obtain rfl : highArt = highCycles := high
          obtain rfl : lowArt = lowCycles := low
          rfl

/-- Both drivers select the same slot. -/
theorem start_slot_eq (flopHigh : Bool) (requested highCycles lowCycles : Nat) :
    startSlot flopHigh requested highCycles lowCycles =
      selectSlot flopHigh (compareOf requested) highCycles lowCycles := rfl

/-- Both drivers push it alike while the deadline does not overflow. -/
theorem late_arm_guard_eq {now margin slot period : Nat} (fits : now + margin < 2 ^ 64) :
    Tgpio.lateArmGuard (.ok now) (.ok margin) slot period =
      match lateArmGuard slot (now + margin) period with
      | none => .error .enodev
      | some first => .ok first := by
  have small : now ≤ u64Max - margin := by
    unfold u64Max
    omega
  unfold Tgpio.lateArmGuard lateArmGuard
  dsimp only
  rw [if_pos small]
  split
  · split <;> rfl
  · rfl

/-- So does the arm it mirrors. -/
theorem lin_follows {firstEdgeNs : Int} {highTimeNs lowTimeNs : Nat}
    {highCycles lowCycles requested now margin : Nat} (idle : block.outputHwPiv = 0)
    (isFirst : clockNsToCompareArt params clocks firstEdgeNs = .ok (compareOf requested))
    (isHigh : Counts highCycles (clockDeltaToArtCycles params clocks (toS64 highTimeNs)))
    (isLow : Counts lowCycles (clockDeltaToArtCycles params clocks (toS64 lowTimeNs)))
    (isNow : getCurrentArt clocks = .ok now)
    (isMargin : clockDeltaToArtCycles params clocks (2 * nsecPerMsec : Nat) = .ok margin)
    (fits : now + margin < 2 ^ 64) :
    Achieves linTraced (LinStands block regs params clocks [])
      (armHardwarePeriodic firstEdgeNs highTimeNs lowTimeNs)
      fun status s => Follows regs.ctl block.outputHwFlopHigh highCycles lowCycles
        (armPlan block.outputHwFlopHigh highCycles lowCycles requested now margin)
        (status = .ok ()) s.2 (waveformOf s.1) := by
  refine (lin_sample _).bind_known ?_
  refine (lin_sample _).bind_known ?_
  refine (lin_sample _).bind_known ?_
  rw [isFirst, arm_intervals_eq isHigh isLow, armPlan]
  by_cases range : outOfRange highCycles lowCycles
  · rw [if_pos range, if_pos range]
    refine Achieves.pure fun s stands => ⟨by simp, ?_, nofun⟩
    rw [stands.log, armWrites, if_pos range]
  rw [if_neg range, if_neg range]
  refine (lin_stop_for_rearm idle).bind_known ?_
  refine lin_mark.bind fun _ => ?_
  refine lin_load.bind_known ?_
  refine (lin_sample _).bind_known ?_
  refine (lin_sample _).bind_known ?_
  rw [isNow, isMargin, late_arm_guard_eq fits, start_slot_eq]
  cases lateArmGuard (selectSlot block.outputHwFlopHigh (compareOf requested) highCycles lowCycles)
      (now + margin) (highCycles + lowCycles) with
  | none =>
      refine Achieves.pure fun s stands => ⟨by simp, ?_, nofun⟩
      rw [stands.log]
      simp [armWrites, range]
  | some first =>
      refine (lin_start _ _ _ _ _ _).bind fun _ => Achieves.pure fun s left => ⟨by simp, ?_, ?_⟩
      · rw [left.2]
        simp [armWrites, armPrefix, periodicCtl]
      · intro slot piv same
        cases same
        exact left.1

end linux

/-! ## Agreement -/

/-- The writes of a successful arm: EN is set in the last one only, right after
PIV and then COMPV. -/
def EnablesLast (log : List RegWrite) (left : Waveform) : Prop :=
  ∃ opening, log = opening ++ pivWrites left.livePiv ++ compvWrites left.ckptCompv ++
      [(.ctl, left.regs.ctl)] ∧ hasEn left.regs.ctl = true ∧
    ∀ value, (Reg.ctl, value) ∈ opening → hasEn value = false

theorem arm_writes_enable_last (ctl : BitVec 32) (highCycles lowCycles first piv : Nat)
    (flopHigh : Bool) :
    EnablesLast (armWrites ctl highCycles lowCycles (some (first, piv)))
      ⟨⟨ctlWith (periodicCtl ctl) ctlEn, BitVec.ofNat 64 first, BitVec.ofNat 64 piv⟩,
        piv, first, flopHigh⟩ := by
  refine ⟨[(.ctl, ctlWithout ctl ctlEn)] ++ compvWrites 0 ++ pivWrites 0 ++ [(.ctl, modeless ctl)] ++
    [(.ctl, periodicCtl ctl)], rfl, by simp, ?_⟩
  intro value written
  simp only [compvWrites, pivWrites, List.mem_append, List.mem_cons, Prod.mk.injEq,
    List.not_mem_nil, or_false, reduceCtorEq, false_and, true_and] at written
  rcases written with (rfl | rfl) | rfl
  · simp
  · simp [modeless]
  · simp [periodicCtl, modeless]

/-- The edge time converts to the ART value asked for. -/
def Requests (params : Params) (clocks : Clocks) (firstEdgeNs : Int) (requested : Nat) : Prop :=
  ∃ shifted, addS64 firstEdgeNs clocks.outputPhaseOffsetNs = .ok shifted ∧
    clockNsToArt params clocks shifted = .ok requested

theorem requests_compare {params : Params} {clocks : Clocks} {firstEdgeNs : Int} {requested : Nat}
    (requests : Requests params clocks firstEdgeNs requested) :
    clockNsToCompareArt params clocks firstEdgeNs = .ok (compareOf requested) := by
  obtain ⟨shifted, sum, converted⟩ := requests
  rw [clockNsToCompareArt, sum]
  dsimp only
  rw [converted]
  rfl

/-- Started from the same registers with no live interval, for the same cycle
counts, edge, counter and margin, the two arms make the same register writes,
fail alike, and leave the same waveform. -/
theorem arms_agree {index : BlockIndex} {w : WinMachine} {m : Machine}
    {highCycles lowCycles requested now margin : Nat} {firstEdgeNs : Int}
    {highTimeNs lowTimeNs : Nat} (mapped : (w.device.block index).mapped = true)
    (winIdle : (w.device.block index).hwPiv = 0) (linIdle : m.block.outputHwPiv = 0)
    (regs : m.regs = (w.line index).regs)
    (mirror : m.block.outputHwFlopHigh = (w.device.block index).flopHigh)
    (asked : requested ≠ 0) (isFirst : Requests m.params m.clocks firstEdgeNs requested)
    (isHigh : Counts highCycles (clockDeltaToArtCycles m.params m.clocks (toS64 highTimeNs)))
    (isLow : Counts lowCycles (clockDeltaToArtCycles m.params m.clocks (toS64 lowTimeNs)))
    (winNow : artFromTsc w.device w.tsc = now) (linNow : getCurrentArt m.clocks = .ok now)
    (winMargin : artNsToCycles w.device armMarginNs = margin)
    (linMargin : clockDeltaToArtCycles m.params m.clocks (2 * nsecPerMsec : Nat) = .ok margin)
    (fits : now + margin < 2 ^ 64) :
    ∃ winStatus w' linStatus m' log,
      (∀ status t, Executes (alone (winTraced index))
        (hwStartOutput index highCycles lowCycles requested) (w, []) status t ↔
          status = winStatus ∧ t = (w', log)) ∧
      (∀ status t, Executes (alone linTraced)
        (armHardwarePeriodic firstEdgeNs highTimeNs lowTimeNs) (m, []) status t ↔
          status = linStatus ∧ t = (m', log)) ∧
      (winStatus = .ok () ↔ linStatus = .ok ()) ∧
      (winStatus = .ok () →
        waveformOf m' = w'.waveform index ∧ EnablesLast log (w'.waveform index)) := by
  obtain ⟨winStatus, ⟨w', log⟩, winRan, win⟩ := win_follows mapped winIdle asked winNow winMargin fits
    (w, []) ⟨rfl, rfl, rfl, rfl⟩
  obtain ⟨linStatus, ⟨m', log'⟩, linRan, lin⟩ := lin_follows linIdle (requests_compare isFirst) isHigh
    isLow linNow linMargin fits (m, []) ⟨rfl, regs, rfl, rfl, rfl⟩
  rw [mirror] at lin
  have sameLog : log' = log := lin.log.trans win.log.symm
  subst sameLog
  refine ⟨winStatus, w', linStatus, m', log', fun status t => ?_, fun status t => ?_,
    win.status.trans lin.status.symm, fun succeeded => ?_⟩
  · constructor
    · intro run
      exact winRan.unique run
    · rintro ⟨rfl, rfl⟩
      exact winRan
  · constructor
    · intro run
      exact linRan.unique run
    · rintro ⟨rfl, rfl⟩
      exact linRan
  · obtain ⟨⟨first, piv⟩, plan⟩ := Option.isSome_iff_exists.mp (win.status.mp succeeded)
    have left := win.left first piv plan
    have log : log' = _ := win.log
    refine ⟨(lin.left first piv plan).trans left.symm, ?_⟩
    rw [left, log, plan]
    exact arm_writes_enable_last _ _ _ _ _ _

/-- A block beside a timer of one cycle a nanosecond, one second after load. -/
def steadyMachine : WinMachine :=
  { freshMachine with
    device := { freshMachine.device with artFrequencyHz := 1000000000 }
    tsc := 2000000000 }

theorem arms_agree_steady :
    ∃ winStatus w' linStatus m' log,
      (∀ status t, Executes (alone (winTraced firstBlock))
        (hwStartOutput firstBlock 300000000 700000000 1100000000) (steadyMachine, []) status t ↔
          status = winStatus ∧ t = (w', log)) ∧
      (∀ status t, Executes (alone linTraced)
        (armHardwarePeriodic 1100000000 300000000 700000000) (loadedBlock, []) status t ↔
          status = linStatus ∧ t = (m', log)) ∧
      (winStatus = .ok () ↔ linStatus = .ok ()) ∧
      (winStatus = .ok () →
        waveformOf m' = w'.waveform firstBlock ∧ EnablesLast log (w'.waveform firstBlock)) := by
  refine @arms_agree firstBlock steadyMachine loadedBlock 300000000 700000000 1100000000 1000000000
    2000000 1100000000 300000000 700000000 rfl rfl rfl rfl rfl (by decide) ?_ ?_ ?_ ?_ ?_ ?_ ?_
    (by decide)
  · exact ⟨1100000000, by decide +kernel, by decide +kernel⟩
  · have high : clockDeltaToArtCycles loadedBlock.params loadedBlock.clocks
        (toS64 (300000000 : Nat)) = .ok 300000000 := by decide +kernel
    rw [high]
    exact rfl
  · have low : clockDeltaToArtCycles loadedBlock.params loadedBlock.clocks
        (toS64 (700000000 : Nat)) = .ok 700000000 := by decide +kernel
    rw [low]
    exact rfl
  · decide +kernel
  · decide +kernel
  · decide +kernel
  · decide +kernel

end Tgpio.Windows

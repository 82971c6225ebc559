import Tgpio.Interference.Logic
import Tgpio.ClockDomain

/-!
# One output block and its machine

`Machine` is everything an output block shares with the world: its registers
and the level flop behind them, the fields private to `output_work`, the
desired configuration under its seqlock, the wake timer, the queued flag of the
work item, and the clocks. The driver reaches it only through `Op`.

The hardware model is the one the driver's comments give. COMPV reads back live
and advances by PIV on each generated edge; the level flop toggles on each
generated edge, survives a disable and cannot be read.
-/

namespace Tgpio

open Interference

set_option autoImplicit false

inductive Reg where
  | ctl
  | compv31_0
  | compv63_32
  | piv31_0
  | piv63_32
  deriving DecidableEq, Repr

def ctlEn : BitVec 32 := 1
def ctlDir : BitVec 32 := 2
def ctlEp : BitVec 32 := 12
def ctlEpRising : BitVec 32 := 0
def ctlEpFalling : BitVec 32 := 4
def ctlEpToggle : BitVec 32 := 8
def ctlPm : BitVec 32 := 16

def ctlWith (ctrl bits : BitVec 32) : BitVec 32 := ctrl ||| bits
def ctlWithout (ctrl bits : BitVec 32) : BitVec 32 := ctrl &&& ~~~bits

/-- The enable bit of a control value. -/
def hasEn (ctrl : BitVec 32) : Bool := ctrl.getLsbD 0

/-- The periodic-mode bit of a control value. -/
def hasPm (ctrl : BitVec 32) : Bool := ctrl.getLsbD 4

section ctl

variable (ctrl bits : BitVec 32)

@[simp] theorem has_en_with : hasEn (ctlWith ctrl bits) = (hasEn ctrl || hasEn bits) := by
  simp [hasEn, ctlWith]

@[simp] theorem has_pm_with : hasPm (ctlWith ctrl bits) = (hasPm ctrl || hasPm bits) := by
  simp [hasPm, ctlWith]

@[simp] theorem has_en_without :
    hasEn (ctlWithout ctrl bits) = (hasEn ctrl && !hasEn bits) := by
  simp [hasEn, ctlWithout]

@[simp] theorem has_pm_without :
    hasPm (ctlWithout ctrl bits) = (hasPm ctrl && !hasPm bits) := by
  simp [hasPm, ctlWithout]

@[simp] theorem has_en_or : hasEn (ctrl ||| bits) = (hasEn ctrl || hasEn bits) := by
  simp [hasEn]

@[simp] theorem has_pm_or : hasPm (ctrl ||| bits) = (hasPm ctrl || hasPm bits) := by
  simp [hasPm]

@[simp] theorem has_en_ctl_en : hasEn ctlEn = true := rfl
@[simp] theorem has_en_ctl_dir : hasEn ctlDir = false := rfl
@[simp] theorem has_en_ctl_ep : hasEn ctlEp = false := rfl
@[simp] theorem has_en_ctl_ep_toggle : hasEn ctlEpToggle = false := rfl
@[simp] theorem has_en_ctl_pm : hasEn ctlPm = false := rfl
@[simp] theorem has_pm_ctl_en : hasPm ctlEn = false := rfl
@[simp] theorem has_pm_ctl_dir : hasPm ctlDir = false := rfl
@[simp] theorem has_pm_ctl_ep : hasPm ctlEp = false := rfl
@[simp] theorem has_pm_ctl_ep_toggle : hasPm ctlEpToggle = false := rfl
@[simp] theorem has_pm_ctl_pm : hasPm ctlPm = true := rfl

end ctl

@[ext]
structure Regs where
  ctl : BitVec 32
  compv : BitVec 64
  piv : BitVec 64
  deriving DecidableEq, Repr

/-- Enabled in periodic mode. -/
def Regs.running (regs : Regs) : Bool := hasEn regs.ctl && hasPm regs.ctl

def upperWord (value : BitVec 64) : BitVec 32 := (value >>> 32).setWidth 32
def lowerWord (value : BitVec 64) : BitVec 32 := value.setWidth 32
def upper32Bits (value : Nat) : BitVec 32 := upperWord (BitVec.ofNat 64 value)
def lower32Bits (value : Nat) : BitVec 32 := lowerWord (BitVec.ofNat 64 value)

/-- A 64-bit register seen as its two 32-bit words. -/
def joinWords (high low : BitVec 32) : BitVec 64 := high.setWidth 64 <<< 32 ||| low.setWidth 64

section words

theorem join_words (value : BitVec 64) :
    joinWords (upperWord value) (lowerWord value) = value := by
  ext i bound
  by_cases low : i < 32
  · simp [joinWords, upperWord, lowerWord, low, bound]
  · have high : i - 32 < 32 := by omega
    have back : 32 + (i - 32) = i := by omega
    simp [joinWords, upperWord, lowerWord, low, high, back, bound]

theorem upper_join (high low : BitVec 32) : upperWord (joinWords high low) = high := by
  ext i bound
  have inside : i < 64 := by omega
  have shifted : 32 + i < 64 := by omega
  simp [joinWords, upperWord, inside, shifted, BitVec.getLsbD_eq_getElem bound]

theorem upper_word_mono {value larger : BitVec 64} (grown : value.toNat ≤ larger.toNat) :
    (upperWord value).toNat ≤ (upperWord larger).toNat := by
  have first := value.isLt
  have second := larger.isLt
  simp only [upperWord, BitVec.toNat_setWidth, BitVec.toNat_ushiftRight,
    Nat.shiftRight_eq_div_pow]
  rw [Nat.mod_eq_of_lt (by omega), Nat.mod_eq_of_lt (by omega)]
  exact Nat.div_le_div_right grown

end words

def Regs.read (regs : Regs) : Reg → BitVec 32
  | .ctl => regs.ctl
  | .compv31_0 => lowerWord regs.compv
  | .compv63_32 => upperWord regs.compv
  | .piv31_0 => lowerWord regs.piv
  | .piv63_32 => upperWord regs.piv

def Regs.write (regs : Regs) : Reg → BitVec 32 → Regs
  | .ctl, value => { regs with ctl := value }
  | .compv31_0, value => { regs with compv := joinWords (upperWord regs.compv) value }
  | .compv63_32, value => { regs with compv := joinWords value (lowerWord regs.compv) }
  | .piv31_0, value => { regs with piv := joinWords (upperWord regs.piv) value }
  | .piv63_32, value => { regs with piv := joinWords value (lowerWord regs.piv) }

/-- Two 32-bit stores write a 64-bit compare. -/
theorem write_compv_words (regs : Regs) (value : Nat) :
    (regs.write .compv63_32 (upper32Bits value)).write .compv31_0 (lower32Bits value) =
      { regs with compv := BitVec.ofNat 64 value } := by
  simp only [Regs.write, upper_join, upper32Bits, lower32Bits, join_words]

theorem write_piv_words (regs : Regs) (value : Nat) :
    (regs.write .piv63_32 (upper32Bits value)).write .piv31_0 (lower32Bits value) =
      { regs with piv := BitVec.ofNat 64 value } := by
  simp only [Regs.write, upper_join, upper32Bits, lower32Bits, join_words]

inductive OutputPhase where
  | armPeriodic
  | hardwarePeriodic
  | hwDuty
  | firstRising
  | toggle
  deriving DecidableEq, Repr

inductive LogicalEdge where
  | fall
  | rise
  deriving DecidableEq, Repr

inductive OutputRun where
  | stopped
  | running
  deriving DecidableEq, Repr

inductive OutputMode where
  | software
  | hardware
  deriving DecidableEq, Repr

/-- `struct tgpio_output_desired`: what the publishers ask for. -/
structure OutputDesired where
  flipGen : BitVec 32
  gen : BitVec 32
  freqGen : BitVec 32
  run : OutputRun
  mode : OutputMode
  periodNs : Nat
  highTimeNs : Nat
  lowTimeNs : Nat
  firstEdgeNs : Int
  deriving DecidableEq, Repr

/-- The fields of `struct tgpio_mmio_block` private to `output_work`. -/
structure MmioBlock where
  outputAppliedGen : BitVec 32
  outputAppliedFreqGen : BitVec 32
  outputAppliedFlipGen : BitVec 32
  outputPhase : OutputPhase
  outputHwFirstArt : Nat
  outputHwPiv : Nat
  outputHwCkptCompv : Nat
  outputHwFlopHigh : Bool
  outputHighTimeNs : Nat
  outputLowTimeNs : Nat
  outputNextEdgeType : LogicalEdge
  outputNextEdge : Int
  outputWakeAt : Int
  deriving DecidableEq, Repr

/-- What a slot selection of `armHardwarePeriodic` went by: the level mirror,
the level itself, and how often single-shot compares had changed the level. -/
structure Slot where
  mirror : Bool
  flop : Bool
  levelChanges : Nat
  deriving DecidableEq, Repr

/-- The hardware as it was at a read of the low word of COMPV. -/
structure Seen where
  compv : BitVec 64
  flop : Bool
  edges : Nat
  deriving DecidableEq, Repr

/-- A rewrite under a running engine, with the edges generated between the last
fold's look at COMPV and the rewrite. -/
inductive HotWrite where
  /-- PIV goes from one value to another. -/
  | piv (edges old new : Nat)
  /-- PM is cleared and EN kept. -/
  | pause (edges : Nat)
  deriving DecidableEq, Repr

/-- History variables of the hardware: no driver function reads them. -/
structure History where
  edges : Nat
  seen : Seen
  /-- Edges generated before the last fold's look at COMPV. -/
  foldEdges : Nat
  hotWrites : List HotWrite
  /-- Single-shot compare values programmed, and fired, in order. -/
  compares : List Nat
  fires : List Nat
  /-- Single-shot compares that changed the level. -/
  levelChanges : Nat
  slots : List Slot
  /-- Level beliefs inverted by `hwPeriodicInvert`. -/
  inversions : Nat
  deriving DecidableEq, Repr

/-- The requests that change `output_desired`. -/
inductive Publish where
  /-- `tgpio_output_publish` -/
  | configure (run : OutputRun) (mode : OutputMode) (periodNs highTimeNs lowTimeNs : Nat)
      (firstEdgeNs : Int)
  /-- `tgpio_disable_output` -/
  | disable
  /-- `tgpio_resync_outputs_after_phc_step` -/
  | resync
  /-- `tgpio_update_outputs_after_phc_freq` -/
  | freq
  /-- `tgpio_output_invert_write` -/
  | flip
  deriving DecidableEq, Repr

/-- Resync and frequency refreshes leave a stopped output alone. -/
def Publish.applies : Publish → OutputDesired → Bool
  | .resync, desired => desired.run == .running
  | .freq, desired => desired.run == .running
  | _, _ => true

def Publish.update : Publish → OutputDesired → OutputDesired
  | .configure run mode periodNs highTimeNs lowTimeNs firstEdgeNs, desired =>
      { flipGen := desired.flipGen, gen := desired.gen + 1, freqGen := desired.freqGen,
        run, mode, periodNs, highTimeNs, lowTimeNs, firstEdgeNs }
  | .disable, desired =>
      { flipGen := desired.flipGen, gen := desired.gen + 1, freqGen := desired.freqGen,
        run := .stopped, mode := .software, periodNs := 0, highTimeNs := 0, lowTimeNs := 0,
        firstEdgeNs := 0 }
  | .resync, desired => { desired with gen := desired.gen + 1 }
  | .freq, desired => { desired with freqGen := desired.freqGen + 1 }
  | .flip, desired => { desired with flipGen := desired.flipGen + 1 }

/-- A run of `oneshot_stop_work`: none, begun, or past its update of
`output_desired`. -/
inductive OneshotRun where
  | idle
  | begun
  | published
  deriving DecidableEq, Repr

structure Machine where
  regs : Regs
  /-- The physical level flop. -/
  flop : Bool
  /-- The compare value has not been reached since it was written. -/
  comparePending : Bool
  history : History
  block : MmioBlock
  desired : OutputDesired
  timerArmed : Bool
  timerFiring : Bool
  workQueued : Bool
  workRunning : Bool
  /-- `cancel_work_sync` in progress: the work item refuses to be queued. -/
  workCancelling : Bool
  /-- `oneshot_stop_work` waits for its delay. -/
  oneshotScheduled : Bool
  oneshotRun : OneshotRun
  /-- Publishers past their update and before their `schedule_work`. -/
  owed : Nat
  /-- A run has started since `output_desired` last changed. -/
  served : Bool
  publishes : Nat
  flips : Nat
  params : Params
  clocks : Clocks

/-- Points of the source that a property speaks about. -/
inductive Mark where
  /-- A RUNNING run of `output_work` gives up and disables the block. -/
  | giveUp
  /-- `armHardwarePeriodic` picks the compare slot from the level mirror. -/
  | slot
  /-- `hwPeriodicInvert` has inverted the level mirror. -/
  | inverted
  /-- `hwFlopFold` has read COMPV. -/
  | looked
  deriving DecidableEq, Repr

/-- The accesses of the driver, one constructor for each kind. A `mark` is no
access: it only leaves a trace in the history. -/
inductive Op : Type 1 where
  | readl (reg : Reg)
  | writel (reg : Reg) (value : BitVec 32)
  | load
  | store (update : MmioBlock → MmioBlock)
  | outputDesiredGet
  | sample (α : Type) (read : Params → Clocks → α)
  | ktimeGetReal
  | hrtimerStart (expires : Int)
  | hrtimerCancel
  | msleep (msecs : Nat)
  | publish (request : Publish)
  | scheduleWork
  | scheduleOneshotStop (delayNs : Nat)
  | cancelOneshotStop
  | cancelOneshotStopSync
  | cancelWorkBegin
  | cancelWorkEnd
  | mark (point : Mark)

def Op.Resp : Op → Type
  | .readl _ => BitVec 32
  | .load => MmioBlock
  | .outputDesiredGet => OutputDesired
  | .sample α _ => α
  | .ktimeGetReal => Int
  | .publish _ => Bool
  | _ => Unit

abbrev Driver := Prog Op Op.Resp

/-- EP bits of a single-shot compare for a logical edge. The encoding of the
supported hardware is inverted; a board of the other polarity has it direct. -/
def outputEdgeBits (polarity : OutputPolarity) (edge : LogicalEdge) : BitVec 32 :=
  let inverted := if edge = .rise then LogicalEdge.fall else .rise
  let program := if polarity = .inverted then edge else inverted
  if program = .rise then ctlEpRising else ctlEpFalling

/-- The bits of an edge program leave EN and PM alone. -/
theorem output_edge_bits_mode (polarity : OutputPolarity) (edge : LogicalEdge) :
    hasEn (outputEdgeBits polarity edge) = false ∧
      hasPm (outputEdgeBits polarity edge) = false := by
  cases polarity <;> cases edge <;> exact ⟨rfl, rfl⟩

namespace Machine

variable (m : Machine)

/-- The block generates edges by itself. -/
def freeRunning : Bool := m.regs.running

/-- The block waits for one programmed compare. -/
def singleShot : Bool := hasEn m.regs.ctl && !hasPm m.regs.ctl && m.comparePending

def look : Seen := ⟨m.regs.compv, m.flop, m.history.edges⟩

/-- Reading the low word of COMPV is the moment a compare read refers to. -/
def readReg (reg : Reg) : Machine :=
  match reg with
  | .compv31_0 => { m with history := { m.history with seen := m.look } }
  | _ => m

/-- The history of a control write: a free run is paused. -/
def writeCtlHistory (value : BitVec 32) : History :=
  if hasEn value && !hasPm value && m.freeRunning then
    { m.history with hotWrites := m.history.hotWrites ++
        [.pause (m.history.edges - m.history.foldEdges)] }
  else m.history

/-- A compare is pending from the write of its low word on. -/
def writeReg (reg : Reg) (value : BitVec 32) : Machine :=
  let regs := m.regs.write reg value
  match reg with
  | .ctl => { m with regs, history := m.writeCtlHistory value }
  | .compv31_0 =>
      { m with regs, comparePending := true
               history := if hasEn m.regs.ctl && !hasPm m.regs.ctl then
                   { m.history with compares := m.history.compares ++ [regs.compv.toNat] }
                 else m.history }
  | .piv31_0 =>
      { m with regs
               history := if m.freeRunning then
                   { m.history with hotWrites := m.history.hotWrites ++
                       [.piv (m.history.edges - m.history.foldEdges) m.regs.piv.toNat
                         regs.piv.toNat] }
                 else m.history }
  | _ => { m with regs }

/-- `schedule_work` on a work item that is being cancelled does nothing. -/
def scheduleWork : Machine := { m with workQueued := m.workQueued || !m.workCancelling }

def publish (request : Publish) : Machine :=
  if request.applies m.desired then
    { m with desired := request.update m.desired, served := false
             publishes := m.publishes + 1
             flips := m.flips + (if request = .flip then 1 else 0) }
  else m

def mark (point : Mark) : Machine :=
  match point with
  | .giveUp => m
  | .slot =>
      { m with history := { m.history with
          slots := m.history.slots ++
            [⟨m.block.outputHwFlopHigh, m.flop, m.history.levelChanges⟩] } }
  | .inverted => { m with history := { m.history with inversions := m.history.inversions + 1 } }
  | .looked => { m with history := { m.history with foldEdges := m.history.seen.edges } }

/-- One access. A cancel that has to wait for the other side is not possible
until that side is done. -/
def perform : (op : Op) → Machine → Option (op.Resp × Machine)
  | .readl reg, m => some (m.regs.read reg, m.readReg reg)
  | .writel reg value, m => some ((), m.writeReg reg value)
  | .load, m => some (m.block, m)
  | .store update, m => some ((), { m with block := update m.block })
  | .outputDesiredGet, m => some (m.desired, m)
  | .sample _ read, m => some (read m.params m.clocks, m)
  | .ktimeGetReal, m => some (m.clocks.real, m)
  | .hrtimerStart _, m => some ((), { m with timerArmed := true })
  | .hrtimerCancel, m => if m.timerFiring then none else some ((), { m with timerArmed := false })
  | .msleep _, m => some ((), m)
  | .publish request, m => some (request.applies m.desired, m.publish request)
  | .scheduleWork, m => some ((), m.scheduleWork)
  | .scheduleOneshotStop _, m => some ((), { m with oneshotScheduled := true })
  | .cancelOneshotStop, m => some ((), { m with oneshotScheduled := false })
  | .cancelOneshotStopSync, m =>
      if m.oneshotRun = .idle then some ((), { m with oneshotScheduled := false }) else none
  | .cancelWorkBegin, m => some ((), { m with workQueued := false, workCancelling := true })
  | .cancelWorkEnd, m =>
      if m.workRunning then none else some ((), { m with workCancelling := false })
  | .mark point, m => some ((), m.mark point)

/-- A generated edge of the free-running toggle engine. -/
def periodicEdge : Machine :=
  { m with flop := !m.flop
           regs := { m.regs with compv := m.regs.compv + m.regs.piv }
           history := { m.history with edges := m.history.edges + 1 } }

/-- The programmed compare is reached: toggle mode negates the level, a rising
or falling compare loads it. -/
def fire : Machine :=
  let ep := m.regs.ctl &&& ctlEp
  let level := if ep = ctlEpToggle then !m.flop
    else ep != outputEdgeBits m.params.outputPolarity .fall
  { m with comparePending := false, flop := level
           history := { m.history with
             fires := m.history.fires ++ [m.regs.compv.toNat]
             levelChanges := m.history.levelChanges + (m.flop ^^ level).toNat } }

end Machine

/-- A zeroed block under registers left by whoever used them before. -/
def Machine.zeroed (params : Params) (clocks : Clocks) (regs : Regs) (flop : Bool) : Machine where
  regs := regs
  flop := flop
  comparePending := false
  history := ⟨0, ⟨0, false, 0⟩, 0, [], [], [], 0, [], 0⟩
  block := ⟨0, 0, 0, .armPeriodic, 0, 0, 0, false, 0, 0, .fall, 0, 0⟩
  desired := ⟨0, 0, 0, .stopped, .software, 0, 0, 0, 0⟩
  timerArmed := false
  timerFiring := false
  workQueued := false
  workRunning := false
  workCancelling := false
  oneshotScheduled := false
  oneshotRun := .idle
  owed := 0
  served := false
  publishes := 0
  flips := 0
  params := params
  clocks := clocks

/-- A block one second after load, under a clock of one cycle a nanosecond. -/
def loadedBlock : Machine :=
  .zeroed defaultParams (steadyClocks 1000000000 billion_in_range) ⟨0, 0, 0⟩ false

/-- The driver's accesses in given surroundings. -/
def driverSem (env : Machine → Machine → Prop) : Semantics Op Op.Resp Machine where
  step op m reply m' := m.perform op = some (reply, m')
  env := env

section ops

def readl (reg : Reg) : Driver (BitVec 32) := Prog.perform (Op.readl reg)
def writel (reg : Reg) (value : BitVec 32) : Driver Unit := Prog.perform (Op.writel reg value)
def loadBlock : Driver MmioBlock := Prog.perform Op.load
def storeBlock (update : MmioBlock → MmioBlock) : Driver Unit := Prog.perform (Op.store update)
def outputDesiredGet : Driver OutputDesired := Prog.perform Op.outputDesiredGet
def sample {α : Type} (read : Params → Clocks → α) : Driver α := Prog.perform (Op.sample α read)
def ktimeGetReal : Driver Int := Prog.perform Op.ktimeGetReal
def hrtimerStart (expires : Int) : Driver Unit := Prog.perform (Op.hrtimerStart expires)
def hrtimerCancel : Driver Unit := Prog.perform Op.hrtimerCancel
def msleep (msecs : Nat) : Driver Unit := Prog.perform (Op.msleep msecs)
def publish (request : Publish) : Driver Bool := Prog.perform (Op.publish request)
def scheduleWork : Driver Unit := Prog.perform Op.scheduleWork
def scheduleOneshotStop (delayNs : Nat) : Driver Unit :=
  Prog.perform (Op.scheduleOneshotStop delayNs)
def cancelOneshotStop : Driver Unit := Prog.perform Op.cancelOneshotStop
def cancelOneshotStopSync : Driver Unit := Prog.perform Op.cancelOneshotStopSync
def mark (point : Mark) : Driver Unit := Prog.perform (Op.mark point)

/-- `cancel_work_sync`: take the work off its queue, then wait for the run in
progress; nothing can queue it in between. -/
def cancelWorkSync : Driver Unit := do
  Prog.perform Op.cancelWorkBegin
  Prog.perform Op.cancelWorkEnd

end ops

end Tgpio

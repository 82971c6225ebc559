import Tgpio.ModuleConfig
import Tgpio.ArtMaintenance
import Tgpio.Interference.Logic

/-!
# Loading and unloading the module

`tgpio_input_init` with its one cleanup label, and `tgpio_input_exit`. What the
kernel answers, and what depends on the clocks at that moment, is open. Work
that has been scheduled runs at any time, and some of it schedules more.
-/

namespace Tgpio

open Interference Interference.Prog

set_option autoImplicit false

/-- Everything with a handler that dereferences the device. -/
inductive Work where
  | watchdog
  | artRefine
  | poll
  | oneshotStop (number : BlockNumber)
  | outputWork (number : BlockNumber)
  | outputTimer (number : BlockNumber)
  deriving DecidableEq, Repr

structure WorkItem where
  scheduled : Bool
  running : Bool
  deriving DecidableEq, Repr

/-- Neither waiting for its time nor in its handler. -/
def WorkItem.idle (item : WorkItem) : Prop := item.scheduled = false ∧ item.running = false

instance (item : WorkItem) : Decidable item.idle := inferInstanceAs (Decidable (_ ∧ _))

/-- What exists when the device is freed. -/
structure Leftover where
  work : Work → WorkItem
  pps : BlockNumber → Bool

/-- Nothing that refers to the device, and no PPS source. -/
structure Leftover.Quiet (left : Leftover) : Prop where
  work : ∀ item, (left.work item).idle
  pps : ∀ number, left.pps number = false

structure LoadState where
  device : LoadedDevice
  work : Work → WorkItem
  allocated : Bool
  /-- What `kfree` has left behind. -/
  freed : Option Leftover

/-- The accesses of init and exit that reach the kernel or the clocks. -/
inductive LoadOp where
  | kzalloc
  | device
  | store (update : LoadedDevice → LoadedDevice)
  | schedule (work : Work)
  | cancelSync (work : Work)
  | requestMemRegion (number : BlockNumber)
  | ioremap (number : BlockNumber)
  | ppsRegisterSource (number : BlockNumber)
  | clocksourceHasBase
  | sampleArtRaw
  | sampleArtReal
  /-- `tgpio_realtime_delta_to_art_cycles(NSEC_PER_SEC)` -/
  | realtimeCyclesPerSec
  | phcInitClock
  | detectArtFrequency
  | ptpClockRegister
  /-- `tgpio_start_persistent_output`, whose checks go by the clocks. -/
  | startPersistentOutput (number : BlockNumber)
  | kfree

def LoadOp.Resp : LoadOp → Type
  | .kzalloc | .requestMemRegion _ | .ioremap _ | .ppsRegisterSource _ => Bool
  | .clocksourceHasBase => Bool
  | .device => LoadedDevice
  | .sampleArtRaw | .sampleArtReal => Except Errno ArtRawSample
  | .realtimeCyclesPerSec => U64Result
  | .phcInitClock | .ptpClockRegister => Except Errno Unit
  | .detectArtFrequency => Except Errno Nat
  | .startPersistentOutput _ => Except Errno BlockNumber
  | _ => Unit

abbrev Loader := Prog LoadOp LoadOp.Resp

/-- What the kernel and the clocks answer to a call. -/
structure KernelAnswers where
  grants : Bool
  artRaw : Except Errno ArtRawSample
  artReal : Except Errno ArtRawSample
  cyclesPerSec : U64Result
  phcInit : Except Errno Unit
  artFrequency : Except Errno Nat
  registers : Except Errno Unit
  /-- A request that is accepted goes to the work of a block. -/
  starts : Except Errno BlockNumber

namespace LoadState

variable (s : LoadState)

def setWork (work : Work) (item : WorkItem) : LoadState :=
  { s with work := Function.update s.work work item }

def schedule (work : Work) : LoadState :=
  s.setWork work { s.work work with scheduled := true }

/-- A synchronous cancel waits for a handler in progress. -/
def perform (answers : KernelAnswers) :
    (op : LoadOp) → LoadState → Option (op.Resp × LoadState)
  | .kzalloc, s => some (answers.grants,
      { s with device := .blank, allocated := s.allocated || answers.grants })
  | .device, s => some (s.device, s)
  | .store update, s => some ((), { s with device := update s.device })
  | .schedule work, s => some ((), s.schedule work)
  | .cancelSync work, s =>
      if (s.work work).running then none
      else some ((), s.setWork work ⟨false, false⟩)
  | .requestMemRegion _, s => some (answers.grants, s)
  | .ioremap _, s => some (answers.grants, s)
  | .ppsRegisterSource _, s => some (answers.grants, s)
  | .clocksourceHasBase, s => some (answers.grants, s)
  | .sampleArtRaw, s => some (answers.artRaw, s)
  | .sampleArtReal, s => some (answers.artReal, s)
  | .realtimeCyclesPerSec, s => some (answers.cyclesPerSec, s)
  | .phcInitClock, s => some (answers.phcInit, s)
  | .detectArtFrequency, s => some (answers.artFrequency, s)
  | .ptpClockRegister, s => some (answers.registers, s)
  | .startPersistentOutput _, s => some (answers.starts, match answers.starts with
      | .error _ => s
      | .ok number => s.schedule (.outputWork number))
  | .kfree, s => some ((), { s with
      freed := some ⟨s.work, fun number => (s.device.block number).pps⟩ })

end LoadState

/-- What a handler may schedule. -/
def Work.queues : Work → Work → Prop
  | .poll, .poll | .poll, .outputWork _ | .artRefine, .outputWork _
  | .oneshotStop _, .outputWork _ => True
  | .outputTimer timer, .outputWork number => timer = number
  | .outputWork number, .outputTimer timer => timer = number
  | _, _ => False

/-- The handlers that end by scheduling themselves again. -/
def Work.rearms : Work → Bool
  | .watchdog | .artRefine => true
  | _ => false

/-- The steps of the handlers. -/
inductive Handlers : LoadState → LoadState → Prop where
  | begins {s : LoadState} (work : Work) : (s.work work).scheduled = true →
      Handlers s (s.setWork work ⟨false, true⟩)
  | queues {s : LoadState} (work other : Work) : (s.work work).running = true →
      work.queues other → Handlers s (s.schedule other)
  | ends {s : LoadState} (work : Work) : (s.work work).running = true →
      Handlers s (s.setWork work ⟨(s.work work).scheduled || work.rearms, false⟩)

def loadSem : Semantics LoadOp LoadOp.Resp LoadState where
  step op s reply t := ∃ answers, LoadState.perform answers op s = some (reply, t)
  env := Handlers

section ops

def kzalloc : Loader Bool := Prog.perform LoadOp.kzalloc
def loadedDevice : Loader LoadedDevice := Prog.perform LoadOp.device
def storeDevice (update : LoadedDevice → LoadedDevice) : Loader Unit :=
  Prog.perform (LoadOp.store update)
def schedule (work : Work) : Loader Unit := Prog.perform (LoadOp.schedule work)
def cancelSync (work : Work) : Loader Unit := Prog.perform (LoadOp.cancelSync work)
def requestMemRegion (number : BlockNumber) : Loader Bool :=
  Prog.perform (LoadOp.requestMemRegion number)
def ioremap (number : BlockNumber) : Loader Bool := Prog.perform (LoadOp.ioremap number)
def ppsRegisterSource (number : BlockNumber) : Loader Bool :=
  Prog.perform (LoadOp.ppsRegisterSource number)
def clocksourceHasBase : Loader Bool := Prog.perform LoadOp.clocksourceHasBase
def sampleArtRaw : Loader (Except Errno ArtRawSample) := Prog.perform LoadOp.sampleArtRaw
def sampleArtReal : Loader (Except Errno ArtRawSample) := Prog.perform LoadOp.sampleArtReal
def realtimeCyclesPerSec : Loader U64Result := Prog.perform LoadOp.realtimeCyclesPerSec
def phcInitClock : Loader (Except Errno Unit) := Prog.perform LoadOp.phcInitClock
def detectArtFrequency : Loader (Except Errno Nat) := Prog.perform LoadOp.detectArtFrequency
def ptpClockRegister : Loader (Except Errno Unit) := Prog.perform LoadOp.ptpClockRegister
def startPersistentOutputAt (number : BlockNumber) : Loader (Except Errno BlockNumber) :=
  Prog.perform (LoadOp.startPersistentOutput number)
def kfree : Loader Unit := Prog.perform LoadOp.kfree

end ops

section init

/-- Go on unless the first part failed. -/
def andThen {α β : Type} (first : Loader (Except Errno α)) (rest : α → Loader (Except Errno β)) :
    Loader (Except Errno β) := do
  let result ← first
  match result with
  | .error status => return .error status
  | .ok value => rest value

variable (params : ModuleParams)

def LoadedDevice.setBlock (number : BlockNumber) (update : LoadedBlock → LoadedBlock)
    (dev : LoadedDevice) : LoadedDevice :=
  { dev with block := Function.update dev.block number (update (dev.block number)) }

/-- `tgpio_map_mmio_block`; the region is released again when it cannot be
mapped. -/
def mapMmioBlock (number : BlockNumber) : Loader (Except Errno Unit) :=
  match checkAddr (params.block number).addr params.mmioSize with
  | .error status => return .error status
  | .ok () => do
    let region ← requestMemRegion number
    if ¬region then return .error .ebusy
    else do
      let regs ← ioremap number
      if ¬regs then return .error .enomem
      else do
        storeDevice fun dev =>
          { dev.setBlock number (fun block => { block with mapped := true }) with
            nPtpPins := max dev.nPtpPins (number.val + 1) }
        return .ok ()

def parseBlock (number : BlockNumber) : Loader (Except Errno Unit) :=
  match parseMode (params.block number).mode with
  | .error status => return .error status
  | .ok mode => do
    storeDevice (LoadedDevice.setBlock number fun block => { block with mode })
    match parseEdge (params.block number).edge with
    | .error status => return .error status
    | .ok _ => return .ok ()

def mapBlock (number : BlockNumber) : Loader (Except Errno Unit) := do
  let dev ← loadedDevice
  match (dev.block number).mode with
  | .off => return .ok ()
  | _ => mapMmioBlock params number

def configureMmioBlocks : Loader (Except Errno Unit) :=
  andThen (parseBlock params firstBlock) fun _ =>
  andThen (parseBlock params secondBlock) fun _ => do
    if ¬params.useSecond then
      storeDevice (LoadedDevice.setBlock secondBlock fun block => { block with mode := .off })
    else pure ()
    andThen (mapBlock params firstBlock) fun _ => mapBlock params secondBlock

/-- One block of `tgpio_pps_register`; a failure is only logged. -/
def ppsRegisterBlock (number : BlockNumber) : Loader Unit := do
  let dev ← loadedDevice
  if (dev.block number).mode ≠ .input then return
  else do
    let registered ← ppsRegisterSource number
    storeDevice (LoadedDevice.setBlock number fun block => { block with pps := registered })

def ppsRegister : Loader Unit := do
  ppsRegisterBlock firstBlock
  ppsRegisterBlock secondBlock

/-- `tgpio_art_init_clock`: the refine work is scheduled at its end. -/
def artInit : Loader (Except Errno Unit) :=
  andThen sampleArtRaw fun first => do
    if params.artCalibration = "realtime" then do
      let real ← sampleArtReal
      let rate ← realtimeCyclesPerSec
      match rate, real with
      | .ok rate, .ok _ =>
        if rate = 0 then return .error .enodev
        else do
          schedule .artRefine
          return .ok ()
      | _, _ => return .error .enodev
    else do
      let second ← sampleArtRaw
      match artInitClock params.rateTrimPpb (.ok first) second with
      | .error status => return .error status
      | .ok _ => do
        schedule .artRefine
        return .ok ()

def resolveArtFrequency : Loader (Except Errno Unit) := do
  let detected ← detectArtFrequency
  if params.artFrequency ≠ 0 then return .ok ()
  else match detected with
    | .error _ => return .error .enodev
    | .ok _ => return .ok ()

def requireBase : Loader (Except Errno Unit) := do
  let hasBase ← clocksourceHasBase
  if ¬hasBase then return .error .enodev else return .ok ()

/-- What init needs of the clocks, by the modes. -/
def initClock (clock : ClockMode) (timestamp : TimestampMode) : Loader (Except Errno Unit) := do
  let dev ← loadedDevice
  if clock ≠ .realtime then
    andThen requireBase fun _ => if clock = .art then artInit params else phcInitClock
  else if needsArtFrequency params dev timestamp then resolveArtFrequency params
  else if needsArtBaseClock params dev timestamp then requireBase
  else return .ok ()

def registerPtpClock : Loader (Except Errno Unit) := do
  let dev ← loadedDevice
  if dev.nPtpPins = 0 then return .ok ()
  else andThen ptpClockRegister fun _ => do
    storeDevice fun dev => { dev with ptpClock := true }
    return .ok ()

def configInput (channel : Nat) : Loader (Except Errno Unit) := do
  let dev ← loadedDevice
  match findMmioBlockForChannel (pinSlots params dev) .extts channel with
  | .error status => return .error status
  | .ok slot =>
    if slot.mode ≠ .input ∨ ¬slot.mapped then return .error .eopnotsupp
    else do
      schedule .poll
      return .ok ()

/-- Both captures of TDC mode. -/
def startTdc : Loader (Except Errno Unit) := do
  if ¬params.tdc then return .ok ()
  else if params.tdcStart > 1 then return .error .einval
  else do
    let dev ← loadedDevice
    if (dev.block firstBlock).mode ≠ .input ∨ (dev.block secondBlock).mode ≠ .input then
      return .error .einval
    else andThen (configInput params (params.block firstBlock).inputChannel) fun _ =>
      configInput params (params.block secondBlock).inputChannel

def startPersistentInput (number : BlockNumber) : Loader (Except Errno Unit) :=
  if ¬(params.block number).inputEnable then return .ok ()
  else configInput params (params.block number).inputChannel

def startPersistentOutputOf (number : BlockNumber) : Loader (Except Errno Unit) :=
  if (params.block number).outputPeriodNs = 0 then return .ok ()
  else andThen (startPersistentOutputAt number) fun _ => return .ok ()

def startPersistentOperations : Loader (Except Errno Unit) :=
  if params.artCalibration ≠ "raw" ∧ params.artCalibration ≠ "realtime" then
    return .error .einval
  else
    andThen (startTdc params) fun _ =>
    andThen (startPersistentInput params firstBlock) fun _ =>
    andThen (startPersistentInput params secondBlock) fun _ =>
    andThen (startPersistentOutputOf params firstBlock) fun _ =>
    startPersistentOutputOf params secondBlock

/-- The part of init between the first schedule and its success. -/
def loadDevice : Loader (Except Errno Unit) :=
  andThen (return parseClockMode params.clockMode) fun clock =>
  andThen (return parseTimestampMode params.timestampMode) fun timestamp =>
  andThen (return parseOutputPolarity params.outputPolarity) fun _ =>
  andThen (configureMmioBlocks params) fun _ => do
    ppsRegister
    let dev ← loadedDevice
    andThen (return validatePersistentOperations params dev) fun _ =>
      andThen (initClock params clock timestamp) fun _ =>
      andThen registerPtpClock fun _ =>
      andThen (startPersistentOperations params) fun _ => do
        if clock = .realtime then schedule .artRefine
        else pure ()
        return .ok ()

def ptpClockUnregister : Loader Unit := storeDevice fun dev => { dev with ptpClock := false }

def cancelOutputBlock (number : BlockNumber) : Loader Unit := do
  let dev ← loadedDevice
  if (dev.block number).mode ≠ .output then return
  else do
    cancelSync (.oneshotStop number)
    cancelSync (.outputTimer number)
    cancelSync (.outputWork number)
    cancelSync (.outputTimer number)
    cancelSync (.outputWork number)

def disableMmioBlocks : Loader Unit := do
  cancelSync .poll
  cancelOutputBlock firstBlock
  cancelOutputBlock secondBlock

def unmapMmioBlocks : Loader Unit :=
  storeDevice fun dev => { dev with block := fun number =>
    { dev.block number with mapped := false } }

/-- The code at `err_cleanup`. -/
def errCleanup : Loader Unit := do
  ptpClockUnregister
  disableMmioBlocks
  unmapMmioBlocks
  kfree

def tgpioInputInit : Loader (Except Errno Unit) :=
  if params.mmioSize < minMmioSize then return .error .einval
  else do
    let allocated ← kzalloc
    if ¬allocated then return .error .enomem
    else do
      schedule .watchdog
      let loaded ← loadDevice params
      match loaded with
      | .error status => do
        errCleanup
        return .error status
      | .ok () => return .ok ()

def ppsUnregister : Loader Unit :=
  storeDevice fun dev => { dev with block := fun number =>
    { dev.block number with pps := false } }

/-- `tgpio_input_exit`, with the module loaded. -/
def tgpioInputExit : Loader Unit := do
  ptpClockUnregister
  cancelSync .artRefine
  cancelSync .watchdog
  ppsUnregister
  disableMmioBlocks
  unmapMmioBlocks
  kfree

end init

end Tgpio

import Tgpio.Buffers.Sampler
import Tgpio.InputStatistics
import Tgpio.Interference.Worker
import Tgpio.ModuleConfig

/-!
# Polling the inputs

`tgpio_poll_work` and everything it shares with the world: the capture hardware,
what the requests ask for, the clocks, and the work item itself. The driver
reaches it only through `PollOp`. Log records, the debug counters and the
polarity check are left out.
-/

namespace Tgpio

open Interference Buffers

set_option autoImplicit false

/-- `struct tgpio_capture` -/
structure TgpioCapture where
  eventCount : BitVec 64
  artCycles : BitVec 64
  deriving DecidableEq, Repr

/-- The registers the poll work reads. -/
inductive CaptureReg where
  | ctl
  | tcv31_0
  | tcv63_32
  | eccv31_0
  | eccv63_32
  deriving DecidableEq, Repr

/-- The hardware of an input block. No driver function reads `happenings`. -/
structure CaptureLine where
  ctl : BitVec 32
  /-- The count of captures, and the ART value of the last. -/
  capture : TgpioCapture
  /-- What the last read of the low timestamp word has latched. -/
  latched : TgpioCapture
  /-- Whether the counter begins again when the block is enabled. -/
  restarts : Bool
  /-- The captures and the looks at them; a look at a disabled block only sets
  the baseline. -/
  happenings : List (Happening (BitVec 64))
  deriving DecidableEq, Repr

namespace CaptureLine

variable (line : CaptureLine)

def read : CaptureReg → BitVec 32
  | .ctl => line.ctl
  | .tcv31_0 => lowerWord line.capture.artCycles
  | .tcv63_32 => upperWord line.latched.artCycles
  | .eccv31_0 => lowerWord line.latched.eventCount
  | .eccv63_32 => upperWord line.latched.eventCount

/-- Reading the low timestamp word latches the capture. -/
def readEffect : CaptureReg → CaptureLine
  | .tcv31_0 =>
      { line with
        latched := line.capture
        happenings := line.happenings ++ [if hasEn line.ctl then .looked else .dropped] }
  | _ => line

def writeCtl (value : BitVec 32) : CaptureLine :=
  { line with
    ctl := value
    capture :=
      if line.restarts && hasEn value && !hasEn line.ctl then { line.capture with eventCount := 0 }
      else line.capture }

/-- An edge at the input. -/
def captured (art : BitVec 64) : CaptureLine :=
  { line with
    capture := ⟨line.capture.eventCount + 1, art⟩
    happenings := line.happenings ++ [.came art] }

end CaptureLine

/-- A timekeeping snapshot, with the ART value of the moment it was taken. -/
structure SystemTimeSnapshot where
  cycles : Nat
  deriving DecidableEq, Repr

/-- The fields of `struct tgpio_mmio_block` of an input: the first four are set
up once, the others are private to the poll work. -/
structure InputMmioBlock where
  mode : TgpioMode
  mapped : Bool
  pps : Bool
  inputEdgeBits : BitVec 32
  inputApplied : BitVec 32
  lastEventCount : BitVec 64
  /-- `crosststamp_snapshot`, if its state is PRESENT. -/
  crosststampSnapshot : Option SystemTimeSnapshot
  deriving DecidableEq, Repr

/-- What the clocks and the parameters are at one moment. -/
structure PollSetting where
  hardwareTimestamps : Bool
  timestampMode : TimestampMode
  capture : CaptureSetting
  /-- `get_device_system_crosststamp` of an ART value. -/
  systemCrosststamp : Option SystemTimeSnapshot → Nat → Except Errno Int

def PollSetting.art (setting : PollSetting) : Nat := setting.capture.clocks.art

/-- `struct ptp_clock_event` -/
structure PtpClockEvent where
  index : Nat
  timestamp : Int
  deriving DecidableEq, Repr

/-- A conversion to realtime that has been asked for, with its history. -/
structure Conversion where
  history : Option SystemTimeSnapshot
  art : Nat
  deriving DecidableEq, Repr

structure PollMachine where
  block : BlockNumber → InputMmioBlock
  /-- `input_desired` of each block. -/
  desired : BlockNumber → BitVec 32
  line : BlockNumber → CaptureLine
  pins : PinSlots
  /-- `ptp_clock` is not NULL. -/
  ptpClock : Bool
  setting : PollSetting
  stats : InputDevice
  queued : Bool
  running : Bool
  /-- `cancel_delayed_work_sync` in progress: the work item refuses to be queued. -/
  cancelling : Bool
  /-- Requests past their update and before their `mod_delayed_work`. -/
  owed : Nat
  /-- No request has come since the last run began. -/
  served : Bool
  /-- The captures processed so far, and what else has left the driver. -/
  processed : List Capture
  ptpEvents : List PtpClockEvent
  ppsEvents : List (BlockNumber × Int)
  conversions : List Conversion

/-- The accesses of the poll work and of its unloading. -/
inductive PollOp : Type where
  | readl (index : BlockNumber) (reg : CaptureReg)
  | writeCtl (index : BlockNumber) (value : BitVec 32)
  | load (index : BlockNumber)
  | store (index : BlockNumber) (update : InputMmioBlock → InputMmioBlock)
  | atomicRead (index : BlockNumber)
  | atomicSet (index : BlockNumber) (value : BitVec 32)
  | pins
  | ptpClock
  | setting
  | crosststamp (history : Option SystemTimeSnapshot) (art : Nat)
  | process (capture : Capture)
  | ptpClockEvent (event : PtpClockEvent)
  | ppsEvent (index : BlockNumber) (time : Int)
  | schedule
  | cancelBegin
  | cancelEnd

def PollOp.Resp : PollOp → Type
  | .readl _ _ => BitVec 32
  | .load _ => InputMmioBlock
  | .atomicRead _ => BitVec 32
  | .pins => PinSlots
  | .ptpClock => Bool
  | .setting => PollSetting
  | .crosststamp _ _ => Except Errno Int
  | _ => Unit

abbrev Poller := Prog PollOp PollOp.Resp

namespace PollMachine

variable (m : PollMachine) (index : BlockNumber)

def updateBlock (update : InputMmioBlock → InputMmioBlock) : PollMachine :=
  { m with block := Function.update m.block index (update (m.block index)) }

def updateLine (update : CaptureLine → CaptureLine) : PollMachine :=
  { m with line := Function.update m.line index (update (m.line index)) }

/-- Queueing a work item that is being cancelled does nothing. -/
def schedule : PollMachine := { m with queued := m.queued || !m.cancelling }

/-- One access; there are no registers behind an unmapped block, and a cancel
waits for the run in progress. -/
def perform : (op : PollOp) → PollMachine → Option (op.Resp × PollMachine)
  | .readl index reg, m =>
      if (m.block index).mapped then
        some ((m.line index).read reg, m.updateLine index fun line => line.readEffect reg)
      else none
  | .writeCtl index value, m =>
      if (m.block index).mapped then
        some ((), m.updateLine index fun line => line.writeCtl value)
      else none
  | .load index, m => some (m.block index, m)
  | .store index update, m => some ((), m.updateBlock index update)
  | .atomicRead index, m => some (m.desired index, m)
  | .atomicSet index value, m =>
      some ((), { m with desired := Function.update m.desired index value })
  | .pins, m => some (m.pins, m)
  | .ptpClock, m => some (m.ptpClock, m)
  | .setting, m => some (m.setting, m)
  | .crosststamp history art, m =>
      some (m.setting.systemCrosststamp history art,
        { m with conversions := m.conversions ++ [⟨history, art⟩] })
  | .process capture, m =>
      some ((), { m with
        stats := pollCapture m.setting.capture m.stats capture
        processed := m.processed ++ [capture] })
  | .ptpClockEvent event, m => some ((), { m with ptpEvents := m.ptpEvents ++ [event] })
  | .ppsEvent index time, m => some ((), { m with ppsEvents := m.ppsEvents ++ [(index, time)] })
  | .schedule, m => some ((), m.schedule)
  | .cancelBegin, m => some ((), { m with queued := false, cancelling := true })
  | .cancelEnd, m => if m.running then none else some ((), { m with cancelling := false })

/-- The hardware captures an edge now. -/
def captured : PollMachine :=
  m.updateLine index fun line => line.captured (BitVec.ofNat 64 m.setting.art)

end PollMachine

section ops

def readLine (index : BlockNumber) (reg : CaptureReg) : Poller (BitVec 32) :=
  Prog.perform (PollOp.readl index reg)
def writeLine (index : BlockNumber) (value : BitVec 32) : Poller Unit :=
  Prog.perform (PollOp.writeCtl index value)
def loadInput (index : BlockNumber) : Poller InputMmioBlock := Prog.perform (PollOp.load index)
def storeInput (index : BlockNumber) (update : InputMmioBlock → InputMmioBlock) : Poller Unit :=
  Prog.perform (PollOp.store index update)
def readDesired (index : BlockNumber) : Poller (BitVec 32) :=
  Prog.perform (PollOp.atomicRead index)
def setDesired (index : BlockNumber) (value : BitVec 32) : Poller Unit :=
  Prog.perform (PollOp.atomicSet index value)
def getPins : Poller PinSlots := Prog.perform PollOp.pins
def getPtpClock : Poller Bool := Prog.perform PollOp.ptpClock
def getSetting : Poller PollSetting := Prog.perform PollOp.setting
def getDeviceSystemCrosststamp (history : Option SystemTimeSnapshot) (art : Nat) :
    Poller (Except Errno Int) :=
  Prog.perform (PollOp.crosststamp history art)
def processCapture (capture : Capture) : Poller Unit := Prog.perform (PollOp.process capture)
def sendPtpClockEvent (event : PtpClockEvent) : Poller Unit :=
  Prog.perform (PollOp.ptpClockEvent event)
def sendPpsEvent (index : BlockNumber) (time : Int) : Poller Unit :=
  Prog.perform (PollOp.ppsEvent index time)
def schedulePoll : Poller Unit := Prog.perform PollOp.schedule
def cancelPollSync : Poller Unit := do
  Prog.perform PollOp.cancelBegin
  Prog.perform PollOp.cancelEnd

end ops

section desired

/-- `enum tgpio_capture_state` -/
inductive CaptureState where
  | off
  | on
  deriving DecidableEq, Repr

/-- `TGPIO_INPUT_DESIRED_ON` -/
def inputDesiredOn : BitVec 32 := 2

def ctlWithEdge (ctrl edgeBits : BitVec 32) : BitVec 32 := ctlWithout ctrl ctlEp ||| edgeBits

/-- What is asked of an input, in one word. -/
def inputDesired (state : CaptureState) (edgeBits : BitVec 32) : BitVec 32 :=
  (if state = .on then inputDesiredOn else 0) ||| edgeBits

def inputDesiredState (desired : BitVec 32) : CaptureState :=
  if desired &&& inputDesiredOn ≠ 0 then .on else .off

def inputDesiredEdge (desired : BitVec 32) : BitVec 32 := desired &&& ctlEp

end desired

section reading

variable (index : BlockNumber)

/-- Reading TCV low latches the capture timestamp and the event count. -/
def readCapture : Poller TgpioCapture := do
  let tcvLo ← readLine index .tcv31_0
  let countHi ← readLine index .eccv63_32
  let countLo ← readLine index .eccv31_0
  let tcvHi ← readLine index .tcv63_32
  return ⟨joinWords countHi countLo, joinWords tcvHi tcvLo⟩

def withSnapshot (snapshot : Option SystemTimeSnapshot) (block : InputMmioBlock) :
    InputMmioBlock :=
  { block with crosststampSnapshot := snapshot }

def withCount (count : BitVec 64) (block : InputMmioBlock) : InputMmioBlock :=
  { block with lastEventCount := count }

def withApplied (desired : BitVec 32) (block : InputMmioBlock) : InputMmioBlock :=
  { block with inputApplied := desired }

/-- The second half of `tgpio_apply_input`: the mode, the baseline, the enable. -/
def enableInput (ctrl desired : BitVec 32) : Poller Unit := do
  let ctrl := ctlWith (ctlWithEdge ctrl (inputDesiredEdge desired)) ctlDir
  writeLine index ctrl
  let baseline ← readCapture index
  storeInput index (withCount baseline.eventCount)
  writeLine index (ctlWith ctrl ctlEn)

/-- Bring the hardware to the desired encoding. -/
def applyInput (desired : BitVec 32) : Poller Unit := do
  let ctrl ← readLine index .ctl
  let ctrl := ctlWithout ctrl ctlEn
  writeLine index ctrl
  if inputDesiredState desired = .off then storeInput index (withSnapshot none)
  else enableInput index ctrl desired

end reading

section times

variable (index : BlockNumber)

def artToRealtimeNs (art : Nat) : Poller (Except Errno Int) := do
  let block ← loadInput index
  getDeviceSystemCrosststamp block.crosststampSnapshot art

/-- Without hardware timestamps nothing needs the history. -/
def takeCrosststamp : Poller (Option SystemTimeSnapshot) := do
  let setting ← getSetting
  if setting.hardwareTimestamps then return some ⟨setting.art⟩ else return none

def realtimeNow : Poller Int := do
  let setting ← getSetting
  return setting.capture.clocks.real

/-- The time of the poll, when the capture's own is not asked for or cannot be
told. -/
def pollTime : Poller Int := do
  let setting ← getSetting
  match clockNowNs setting.capture.params setting.capture.clocks with
  | .error _ => realtimeNow
  | .ok now => if now < 0 then realtimeNow else return now

def artToNs (params : Params) (art : Nat) : Int :=
  match rescale art params.artFrequency nsecPerSec with
  | .error _ => 0
  | .ok ns => ns

/-- The timestamp of an event. -/
def captureTime (art : Nat) : Poller Int := do
  let setting ← getSetting
  if ¬setting.hardwareTimestamps then pollTime
  else if setting.capture.params.clockUsesModel then
    match clockPhcArtToNs setting.capture.clocks art with
    | .error _ => pollTime
    | .ok time => if time < 0 then pollTime else return time
  else if setting.timestampMode = .realtime then do
    let time ← artToRealtimeNs index art
    match time with
    | .error _ => realtimeNow
    | .ok time => return time
  else return artToNs setting.capture.params art

def emitEvent (channel art : Nat) : Poller Unit := do
  let ptpClock ← getPtpClock
  if ¬ptpClock then return
  else do
    let time ← captureTime index art
    sendPtpClockEvent ⟨channel, time⟩

def ppsEmit (art : Nat) : Poller Unit := do
  let block ← loadInput index
  if ¬block.pps then return
  else do
    let real ← artToRealtimeNs index art
    match real with
    | .error _ => return
    | .ok real => if real < 0 then return else sendPpsEvent index real

end times

/-- The channel of a pin that is assigned to the function, the block's own
number otherwise. -/
def channelForMmioBlock (slots : PinSlots) (index : Nat) (func : PtpPinFunction) : Nat :=
  match slots[index]? with
  | some slot => if slot.func = func then slot.chan else index
  | none => index

section poll

variable (index : BlockNumber)

/-- What becomes of a capture whose count has moved. -/
def deliverCapture (cap : TgpioCapture) (eventDelta : BitVec 64) : Poller Unit := do
  storeInput index (withCount cap.eventCount)
  let pins ← getPins
  emitEvent index (channelForMmioBlock pins index .extts) cap.artCycles.toNat
  processCapture ⟨index, cap.artCycles.toNat, eventDelta.toNat, cap.artCycles.isLt⟩
  ppsEmit index cap.artCycles.toNat

def reconcileInput (desired applied : BitVec 32) : Poller Unit :=
  if desired = applied then return
  else do
    applyInput index desired
    storeInput index (withApplied desired)

/-- A look at an enabled input. -/
def pollInput : Poller Unit := do
  let snap ← takeCrosststamp
  let cap ← readCapture index
  let block ← loadInput index
  if cap.eventCount = block.lastEventCount then storeInput index (withSnapshot snap)
  else do
    deliverCapture index cap (cap.eventCount - block.lastEventCount)
    storeInput index (withSnapshot snap)

/-- One turn of the loop over the blocks; answers whether the input is active. -/
def pollBlock : Poller Bool := do
  let block ← loadInput index
  if block.mode ≠ .input then return false
  else do
    let desired ← readDesired index
    reconcileInput index desired block.inputApplied
    if inputDesiredState desired = .off then return false
    else do
      pollInput index
      return true

def pollWork : Poller Unit := do
  let first ← pollBlock firstBlock
  let second ← pollBlock secondBlock
  if first || second then schedulePoll else return

def disableInput : Poller Unit := do
  let block ← loadInput index
  if block.mode ≠ .input ∨ ¬block.mapped then return
  else do
    let ctrl ← readLine index .ctl
    writeLine index (ctlWithout ctrl ctlEn)
    setDesired index 0

def disableInputs : Poller Unit := do
  cancelPollSync
  disableInput firstBlock
  disableInput secondBlock

end poll

section requests

def ptpRisingEdge : BitVec 32 := 2
def ptpFallingEdge : BitVec 32 := 4

def hasFlag (flags flag : BitVec 32) : Bool := flags &&& flag ≠ 0

def inputEdgeBits (block : InputMmioBlock) (flags : BitVec 32) : BitVec 32 :=
  match hasFlag flags ptpRisingEdge, hasFlag flags ptpFallingEdge with
  | false, false => block.inputEdgeBits
  | true, false => ctlEpRising
  | false, true => ctlEpFalling
  | true, true => ctlEpToggle

/-- The value that a request publishes. -/
def requestedInput (block : InputMmioBlock) (flags : BitVec 32) (on : Bool) : BitVec 32 :=
  if on then inputDesired .on (inputEdgeBits block flags) else inputDesired .off 0

end requests

namespace PollMachine

variable (m : PollMachine)

/-- A request for a mapped input publishes what it asks for, and still has to
queue the poll. -/
def beginRequest (index : BlockNumber) (flags : BitVec 32) (on : Bool) : PollMachine :=
  { m with
    desired := Function.update m.desired index (requestedInput (m.block index) flags on)
    owed := m.owed + 1
    served := false }

/-- `mod_delayed_work`: the poll is due now. -/
def endRequest : PollMachine := { m.schedule with owed := m.owed - 1 }

def beginRun : PollMachine := { m with queued := false, running := true, served := true }

def endRun : PollMachine := { m with running := false }

end PollMachine

/-- What happens around the poll work: time passes, clocks and parameters are
set, pins are assigned, statistics are reset, inputs are captured and requests
come. -/
inductive PollSurroundings : PollMachine → PollMachine → Prop where
  | setting {m : PollMachine} (setting : PollSetting) : m.setting.art ≤ setting.art →
      PollSurroundings m { m with setting }
  | pins {m : PollMachine} (pins : PinSlots) : PollSurroundings m { m with pins }
  | reset {m : PollMachine} (value : Bool) :
      PollSurroundings m { m with stats := tdcReset value m.stats }
  | captured {m : PollMachine} (index : BlockNumber) : hasEn (m.line index).ctl = true →
      PollSurroundings m (m.captured index)
  | beginRequest {m : PollMachine} (index : BlockNumber) (flags : BitVec 32) (on : Bool) :
      (m.block index).mode = .input → (m.block index).mapped = true →
      PollSurroundings m (m.beginRequest index flags on)
  | endRequest {m : PollMachine} : 0 < m.owed → PollSurroundings m m.endRequest

def pollSem (env : PollMachine → PollMachine → Prop) :
    Semantics PollOp PollOp.Resp PollMachine where
  step op m reply m' := m.perform op = some (reply, m')
  env := env

/-- The delayed work: queued, it runs `pollWork`, one run at a time. -/
def pollWorker (env : PollMachine → PollMachine → Prop) :
    Worker PollOp PollOp.Resp PollMachine where
  toSemantics := pollSem env
  program := pollWork
  start m m' := m.queued = true ∧ m.running = false ∧ m' = m.beginRun
  finish m m' := m' = m.endRun

/-- The poll work among its requests and captures. -/
abbrev poller : Worker PollOp PollOp.Resp PollMachine := pollWorker PollSurroundings

section tracing

/-- What a trace records of the surroundings. A request and its
`mod_delayed_work` are one event here. -/
inductive PollEvent where
  | setting (setting : PollSetting)
  | captured (index : BlockNumber)
  | request (index : BlockNumber) (flags : BitVec 32) (on : Bool)

def PollMachine.act (m : PollMachine) : PollEvent → Option PollMachine
  | .setting setting => if m.setting.art ≤ setting.art then some { m with setting } else none
  | .captured index => if hasEn (m.line index).ctl = true then some (m.captured index) else none
  | .request index flags on =>
      if (m.block index).mode = .input ∧ (m.block index).mapped = true then
        some (m.beginRequest index flags on).endRequest
      else none

theorem poll_act_surroundings {event : PollEvent} {m m' : PollMachine}
    (acted : m.act event = some m') : (pollSem PollSurroundings).Rely m m' := by
  cases event with
  | setting setting =>
      obtain ⟨later, acted⟩ := Option.ite_none_right_eq_some.mp acted
      cases acted
      exact .single (.setting setting later)
  | captured index =>
      obtain ⟨enabled, acted⟩ := Option.ite_none_right_eq_some.mp acted
      cases acted
      exact .single (.captured index enabled)
  | request index flags on =>
      obtain ⟨ready, acted⟩ := Option.ite_none_right_eq_some.mp acted
      cases acted
      exact .tail (.single (.beginRequest index flags on ready.1 ready.2))
        (.endRequest (Nat.succ_pos _))

def PollMachine.startRun (m : PollMachine) : Option PollMachine :=
  if m.queued = true ∧ m.running = false then some m.beginRun else none

theorem poll_start_sound (m m' : PollMachine) (started : m.startRun = some m') :
    m.queued = true ∧ m.running = false ∧ m' = m.beginRun := by
  obtain ⟨ready, started⟩ := Option.ite_none_right_eq_some.mp started
  cases started
  exact ⟨ready.1, ready.2, rfl⟩

theorem poll_finish_sound (m : PollMachine) : poller.finish m m.endRun := rfl

/-- Runs of the poll work on given states. -/
def pollTracer : poller.Tracer PollEvent where
  handler := PollMachine.perform
  start := PollMachine.startRun
  finish := PollMachine.endRun
  act event m := m.act event
  handlerSound _ _ _ _ step := step
  startSound := poll_start_sound
  finishSound := poll_finish_sound
  actSound _ _ _ := poll_act_surroundings

/-- The setting at an ART value, under a clock of one cycle a nanosecond. -/
def steadySetting (art : Nat) (artInRange : art < 2 ^ 64) : PollSetting where
  hardwareTimestamps := true
  timestampMode := .realtime
  capture := ⟨false, 0, defaultParams, steadyClocks art artInRange⟩
  systemCrosststamp _ art := .ok art

/-- Two inputs as loaded, on hardware whose counters restart or do not. -/
def loadedInputs (restarts : Bool) : PollMachine where
  block _ := ⟨.input, true, true, ctlEpRising, 0, 0, none⟩
  desired _ := 0
  line _ := ⟨0, ⟨0, 0⟩, ⟨0, 0⟩, restarts, []⟩
  pins := []
  ptpClock := true
  setting := steadySetting 0 zero_in_range
  stats := InputDevice.loaded
  queued := false
  running := false
  cancelling := false
  owed := 0
  served := true
  processed := []
  ptpEvents := []
  ppsEvents := []
  conversions := []

end tracing

end Tgpio

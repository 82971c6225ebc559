import Tgpio.OutputRequests

/-!
# Module parameters

The load-time parameters that `tgpio_input_init` parses and validates, and the
blocks they configure. Strings compare as sysfs writes them, with or without a
final newline.
-/

namespace Tgpio

set_option autoImplicit false

/-- `TGPIO_MAX_BLOCKS` -/
def maxBlocks : Nat := 2

abbrev BlockNumber := Fin maxBlocks

def firstBlock : BlockNumber := ⟨0, by decide⟩
def secondBlock : BlockNumber := ⟨1, by decide⟩

inductive TimestampMode where
  | realtime
  | art
  deriving DecidableEq, Repr

/-- The parameters of one block. -/
structure BlockParams where
  mode : String
  edge : String
  addr : Nat
  inputEnable : Bool
  inputChannel : Nat
  outputPeriodNs : Nat
  outputDutyNs : Nat
  outputChannel : Nat
  deriving DecidableEq, Repr

structure ModuleParams where
  mmioSize : Nat
  clockMode : String
  timestampMode : String
  outputPolarity : String
  useSecond : Bool
  block : BlockNumber → BlockParams
  hardwareTimestamps : Bool
  artFrequency : Nat
  artCalibration : String
  rateTrimPpb : Int
  tdc : Bool
  tdcStart : Nat

section parsing

def sysfsStreq (first second : String) : Bool :=
  first == second || first == second ++ "\n" || first ++ "\n" == second

/-- The value that goes by one of the names. -/
def parseNamed {α : Type} (value : String) : List (List String × α) → Except Errno α
  | [] => .error .einval
  | (names, meaning) :: rest =>
    if names.any (sysfsStreq value) then .ok meaning else parseNamed value rest

def parseMode (value : String) : Except Errno TgpioMode := parseNamed value
  [(["input", "in"], .input), (["output", "out", "pps"], .output),
    (["off", "none", "disable", "disabled"], .off)]

def parseEdge (value : String) : Except Errno (BitVec 32) := parseNamed value
  [(["rising", "rise"], ctlEpRising), (["falling", "fall"], ctlEpFalling),
    (["both", "toggle", "all"], ctlEpToggle)]

def parseClockMode (value : String) : Except Errno ClockMode := parseNamed value
  [(["realtime", "clock_realtime", "real"], .realtime),
    (["phc", "adjustable", "adjusted"], .phc), (["art", "raw", "monotonic_raw"], .art)]

def parseTimestampMode (value : String) : Except Errno TimestampMode := parseNamed value
  [(["realtime", "clock_realtime", "real"], .realtime), (["art", "raw"], .art)]

def parseOutputPolarity (value : String) : Except Errno OutputPolarity := parseNamed value
  [(["normal", "active_high"], .normal), (["inverted", "invert", "active_low"], .inverted)]

def minMmioSize : Nat := 0x38

def checkAddr (addr mmioSize : Nat) : Except Errno Unit :=
  if addr = 0 ∨ mmioSize < minMmioSize then .error .einval
  else if u64 (addr + mmioSize - 1) < addr then .error .eoverflow
  else .ok ()

end parsing

/-- What init has made of a block so far. -/
structure LoadedBlock where
  mode : TgpioMode
  mapped : Bool
  /-- `pps` is not NULL. -/
  pps : Bool
  deriving DecidableEq, Repr

structure LoadedDevice where
  block : BlockNumber → LoadedBlock
  nPtpPins : Nat
  /-- `ptp_clock` is not NULL. -/
  ptpClock : Bool

def LoadedDevice.blank : LoadedDevice := ⟨fun _ => ⟨.off, false, false⟩, 0, false⟩

section validation

variable (params : ModuleParams) (dev : LoadedDevice)

/-- Without an input there is nothing to timestamp. -/
def anyInput : Bool :=
  (dev.block firstBlock).mode == .input || (dev.block secondBlock).mode == .input

def needsArtFrequency (mode : TimestampMode) : Bool :=
  params.hardwareTimestamps && mode == .art && anyInput dev

def needsArtBaseClock (mode : TimestampMode) : Bool :=
  params.hardwareTimestamps && mode == .realtime && anyInput dev

/-- A persisted waveform has to have valid times. -/
def persistedTimes (block : BlockParams) : Except Errno Unit :=
  if block.outputPeriodNs = 0 then .ok ()
  else match outputTimesGet block.outputPeriodNs block.outputDutyNs (block.outputDutyNs != 0) with
    | .error status => .error status
    | .ok _ => .ok ()

def validatePersistentBlock (number : BlockNumber) : Except Errno Unit :=
  let block := params.block number
  let mode := (dev.block number).mode
  if block.inputEnable ∧ block.outputPeriodNs ≠ 0 then .error .einval
  else if block.outputPeriodNs > s64Max then .error .erange
  else if block.outputDutyNs ≠ 0 ∧ block.outputPeriodNs = 0 then .error .einval
  else match persistedTimes block with
    | .error status => .error status
    | .ok () =>
      if block.inputEnable ∧ mode ≠ .input then .error .einval
      else if block.outputPeriodNs ≠ 0 ∧ mode ≠ .output then .error .einval
      else if block.inputEnable ∧ block.inputChannel ≥ dev.nPtpPins then .error .einval
      else if block.outputPeriodNs ≠ 0 ∧ block.outputChannel ≥ dev.nPtpPins then .error .einval
      else .ok ()

/-- Two blocks must not persist the same channel. -/
def validatePersistentPair : Except Errno Unit :=
  let first := params.block firstBlock
  let second := params.block secondBlock
  if first.inputEnable ∧ second.inputEnable ∧ first.inputChannel = second.inputChannel then
    .error .einval
  else if first.outputPeriodNs ≠ 0 ∧ second.outputPeriodNs ≠ 0 ∧
      first.outputChannel = second.outputChannel then .error .einval
  else .ok ()

def validatePersistentOperations : Except Errno Unit := do
  validatePersistentBlock params dev firstBlock
  validatePersistentBlock params dev secondBlock
  validatePersistentPair params

/-- `pin_config` as `tgpio_setup_pin_descs` fills it in. -/
def pinSlot (number : BlockNumber) : PinSlot :=
  let block := params.block number
  let state := dev.block number
  if block.inputEnable then ⟨state.mode, state.mapped, .extts, block.inputChannel⟩
  else if block.outputPeriodNs ≠ 0 then
    ⟨state.mode, state.mapped, .perout, block.outputChannel⟩
  else ⟨state.mode, state.mapped, .none, number.val⟩

def pinSlots : PinSlots :=
  [pinSlot params dev firstBlock, pinSlot params dev secondBlock].take dev.nPtpPins

end validation

end Tgpio

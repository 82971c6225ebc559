import Tgpio.OutputWork

/-!
# Output requests

What a request for a periodic output goes through before it is published: the
channel's block, the times, the clock, the timing. The accesses of a request go
to the block its channel names; no other block is touched.
-/

namespace Tgpio

open Interference Interference.Prog

set_option autoImplicit false

/-- `enum ptp_pin_function` -/
inductive PtpPinFunction where
  | none
  | extts
  | perout
  | physync
  deriving DecidableEq, Repr

/-- `enum tgpio_mode` -/
inductive TgpioMode where
  | off
  | input
  | output
  deriving DecidableEq, Repr

/-- A pin slot: what the driver requires of the block behind it, and the entry
of `pin_config`, which a user can change. -/
structure PinSlot where
  mode : TgpioMode
  mapped : Bool
  func : PtpPinFunction
  chan : Nat
  deriving DecidableEq, Repr

/-- The slots below `n_ptp_pins`. -/
abbrev PinSlots := List PinSlot

def mmioBlockSupportsFunc (slot : PinSlot) : PtpPinFunction → Bool
  | .extts => slot.mode == .input
  | .perout => slot.mode == .output
  | _ => false

/-- An assigned pin first, the block of the channel's own number otherwise. -/
def findMmioBlockForChannel (slots : PinSlots) (func : PtpPinFunction) (channel : Nat) :
    Except Errno PinSlot :=
  match slots[channel]? with
  | none => .error .einval
  | some own =>
    match slots.find? fun slot =>
        mmioBlockSupportsFunc slot func && slot.func == func && slot.chan == channel with
    | some slot => .ok slot
    | none => if mmioBlockSupportsFunc own func then .ok own else .error .eopnotsupp

structure OutputTimes where
  periodNs : Nat
  highTimeNs : Nat
  lowTimeNs : Nat
  deriving DecidableEq, Repr

def outputTimesGet (periodNs dutyNs : Nat) (dutyValid : Bool) : Except Errno OutputTimes :=
  if periodNs = 0 then .error .einval
  else if periodNs > s64Max then .error .erange
  else
    let highTimeNs := if dutyValid then dutyNs else periodNs / 2
    if highTimeNs = 0 ∨ highTimeNs ≥ periodNs then .error .einval
    else
      let lowTimeNs := periodNs - highTimeNs
      if lowTimeNs = 0 ∨ lowTimeNs > s64Max then .error .erange
      else .ok ⟨periodNs, highTimeNs, lowTimeNs⟩

/-- Both halves of an asymmetric duty must leave room for the rewrite between
edges. -/
def outputCanUseHardware (times : OutputTimes) : Bool :=
  times.highTimeNs = times.lowTimeNs ∨ min times.highTimeNs times.lowTimeNs ≥ hwDutyMinHalfNs

def outputModeOf (params : Params) (times : OutputTimes) : OutputMode :=
  if params.hardwarePeriodicOutput ∧ outputCanUseHardware times then .hardware else .software

/-- The hardware engine needs its half period in ART cycles. -/
def checkHalfPeriod (mode : OutputMode) (times : OutputTimes) : Driver Bool :=
  if mode = .hardware then
    sample fun params clocks => isOk (clockDeltaToArtCycles params clocks (toS64 times.highTimeNs))
  else return true

/-- The checks of `tgpio_config_output_values` against the clock. -/
def checkOutputTiming (mode : OutputMode) (times : OutputTimes) (firstEdgeNs : Int) :
    Driver (Except Errno Unit) := do
  let counted ← checkHalfPeriod mode times
  if ¬counted then return .error .enodev
  else do
    let timing ← prepareOutputTiming (outputMinIntervalNs times.highTimeNs times.lowTimeNs)
      times.periodNs mode firstEdgeNs
    match timing with
    | .error _ => return .error .enodev
    | .ok _ => return .ok ()

/-- The part of `tgpio_config_output_values` that starts an output. -/
def startOutputValues (times : OutputTimes) (firstEdgeNs : Int) : Driver (Except Errno Unit) := do
  let hasBase ← sample fun _ clocks => clocks.clocksourceHasBase
  if ¬hasBase then return .error .enodev
  else do
    let mode ← sample fun params _ => outputModeOf params times
    let checked ← checkOutputTiming mode times firstEdgeNs
    match checked with
    | .error status => return .error status
    | .ok () => do
      outputPublish .running mode times.periodNs times.highTimeNs times.lowTimeNs firstEdgeNs
      return .ok ()

def configOutputValues (slots : PinSlots) (channel periodNs dutyNs : Nat) (dutyValid : Bool)
    (firstEdgeNs : Int) (on : Bool) : Driver (Except Errno Unit) :=
  match findMmioBlockForChannel slots .perout channel with
  | .error status => return .error status
  | .ok slot =>
    if slot.mode ≠ .output ∨ ¬slot.mapped then return .error .eopnotsupp
    else do
      cancelOneshotStop
      if ¬on then do
        disableOutput
        return .ok ()
      else match outputTimesGet periodNs dutyNs dutyValid with
        | .error status => return .error status
        | .ok times => startOutputValues times firstEdgeNs

/-- `struct ptp_perout_request` -/
structure PtpPeroutRequest where
  start : PtpClockTime
  period : PtpClockTime
  on_ : PtpClockTime
  index : Nat
  flags : BitVec 32
  deriving DecidableEq, Repr

/-- `PTP_PEROUT_DUTY_CYCLE`, the only flag the driver supports. -/
def ptpPeroutDutyCycle : BitVec 32 := 2

def PtpPeroutRequest.hasDuty (perout : PtpPeroutRequest) : Bool :=
  perout.flags &&& ptpPeroutDutyCycle != 0

def peroutDuty (perout : PtpPeroutRequest) : U64Result :=
  if perout.hasDuty then ptpTimeToNs perout.on_ else .ok 0

/-- The values `tgpio_config_output` passes on: period, duty, first edge. -/
def peroutValues (perout : PtpPeroutRequest) : Except Errno (Nat × Nat × Int) :=
  if perout.flags &&& ~~~ptpPeroutDutyCycle ≠ 0 then .error .eopnotsupp
  else do
    let period ← ptpTimeToNs perout.period
    let duty ← peroutDuty perout
    let firstEdge ← ptpTimeToS64Ns perout.start
    .ok (period, duty, firstEdge)

def configOutput (slots : PinSlots) (perout : PtpPeroutRequest) (on : Bool) :
    Driver (Except Errno Unit) :=
  if ¬on then configOutputValues slots perout.index 0 0 false 0 false
  else match peroutValues perout with
    | .error status => return .error status
    | .ok (period, duty, firstEdge) =>
      configOutputValues slots perout.index period duty perout.hasDuty firstEdge on

end Tgpio

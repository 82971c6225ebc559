import Tgpio.Text.Numbers
import Tgpio.InputPolling
import Tgpio.OutputHardware
import Tgpio.PhcMapping
import Tgpio.StatisticsReset

/-!
# The text of the status file

`tgpio_status_show` prints one line for each part of the driver: some of the
driver as a whole, one for each block, one for the duration measurement while it
is on, and the counters. What a block's line holds depends on its mode and state.
-/

namespace Tgpio

open Text

set_option autoImplicit false

structure OutputQuantization where
  clockHalfPeriodNs : Nat
  artHalfPeriodCycles : Nat
  actualHalfPeriodNs : Nat
  actualPeriodNs : Nat
  halfPeriodErrorNs : Int
  periodErrorNs : Int
  periodSplitErrorNs : Int
  deriving DecidableEq, Repr

/-- What rounding the half period to ART cycles does to the period. -/
def outputQuantizationGet (params : Params) (clocks : Clocks) (periodNs halfPeriodNs : Nat) :
    Except Errno OutputQuantization :=
  let splitError : Int := if periodNs % 2 = 1 then -1 else 0
  match clockDeltaToArtCycles params clocks (toS64 halfPeriodNs) with
  | .error status => .error status
  | .ok artHalf =>
    if artHalf = 0 then .error .erange
    else match clockArtCyclesToDeltaNs params clocks artHalf with
    | .error status => .error status
    | .ok actualHalf =>
      if actualHalf > s64Max then .error .erange
      else
        let halfError := toS64 (toS64 actualHalf - toS64 halfPeriodNs)
        match addS64 halfError halfError with
        | .error status => .error status
        | .ok doubled => match addS64 doubled splitError with
          | .error status => .error status
          | .ok periodError => .ok {
              clockHalfPeriodNs := halfPeriodNs
              artHalfPeriodCycles := artHalf
              actualHalfPeriodNs := actualHalf
              actualPeriodNs := u64 (actualHalf * 2)
              halfPeriodErrorNs := halfError
              periodErrorNs := periodError
              periodSplitErrorNs := splitError }

/-- The error of the period is that of the actual one against the one asked for. -/
theorem quantization_error {params : Params} {clocks : Clocks} {periodNs : Nat}
    {quant : OutputQuantization} (small : periodNs < 2 ^ 63)
    (quantized : outputQuantizationGet params clocks periodNs (periodNs / 2) = .ok quant) :
    quant.periodErrorNs = quant.actualPeriodNs - periodNs := by
  unfold outputQuantizationGet at quantized
  dsimp only at quantized
  split at quantized
  · contradiction
  split at quantized
  · contradiction
  split at quantized
  · contradiction
  split at quantized
  · contradiction
  next actualHalf _ inRange =>
    unfold s64Max at inRange
    have actual : toS64 actualHalf = actualHalf := to_s64_of_range (by omega) (by omega)
    have half : toS64 ((periodNs / 2 : Nat) : Int) = (periodNs / 2 : Nat) :=
      to_s64_of_range (by omega) (by omega)
    have difference : toS64 ((actualHalf : Int) - (periodNs / 2 : Nat)) =
        (actualHalf : Int) - (periodNs / 2 : Nat) := to_s64_of_range (by omega) (by omega)
    have whole : u64 (actualHalf * 2) = actualHalf * 2 := Nat.mod_eq_of_lt (by omega)
    rw [actual, half, difference] at quantized
    split at quantized
    · cases quantized
    next doubled twice =>
      split at quantized
      · cases quantized
      next periodError summed =>
        cases quantized
        have two := (add_s64_eq twice).1
        have last := (add_s64_eq summed).1
        dsimp only
        rw [whole, last, two]
        split <;> omega

/-- The number behind a status that is not OK. -/
def Errno.status : Errno → Int
  | .einval => -22
  | .erange => -34
  | .enodev => -19
  | .eopnotsupp => -95
  | .ebusy => -16
  | .enomem => -12
  | .eoverflow => -75
  | .efault => -14

/-- What `tgpio_status_show` reads of a block. -/
structure StatusBlock where
  mode : TgpioMode
  inputDesired : BitVec 32
  lastEventCount : BitVec 64
  input : InputBlock
  desired : OutputDesired
  output : MmioBlock
  /-- What `tgpio_hw_periodic_phase_get` answers at the time. -/
  phase : Except Errno HwPhase

/-- What `tgpio_status_show` reads. -/
structure StatusDevice where
  params : Params
  clocks : Clocks
  activityLog : Bool
  verbose : Bool
  tdc : Bool
  tdcStart : BitVec 32
  pairing : Tdc
  blocks : Fin 2 → StatusBlock
  events : Int
  fallbacks : Int

section names

def modeName : TgpioMode → String
  | .input => "input"
  | .output => "output"
  | .off => "off"

def outputModeName : OutputMode → String
  | .software => "software"
  | .hardware => "hardware"

def clockModeName : ClockMode → String
  | .realtime => "realtime"
  | .phc => "phc"
  | .art => "art"

end names

section printing

def field (key : String) (value : List Char) : Piece Char := .field key.toList value

def flag (word : String) : Piece Char := .flag word.toList

/-- A number of nanoseconds. -/
def nanoseconds (value : Int) : List Char := Text.signed value ++ "ns".toList

def onOff (on : Bool) : String := if on then "on" else "off"

def presence (present : Bool) : String := if present then "present" else "absent"

def highLow (high : Bool) : String := if high then "high" else "low"

/-- Pieces of a line, each after a blank. -/
def inLine (pieces : List (Piece Char)) : List Char :=
  spread ' ' (pieces.map (Piece.text '='))

/-- A line about the driver as a whole. -/
def named (key : String) (value : List Char) : List Char :=
  key.toList ++ ':' :: ' ' :: value

end printing

namespace StatusBlock

variable (block : StatusBlock)

def capturing : Bool := inputDesiredState block.inputDesired = .on

def running : Bool := block.desired.run = .running

def highTimeNs : Nat :=
  if block.running then block.output.outputHighTimeNs else block.desired.highTimeNs

def lowTimeNs : Nat :=
  if block.running then block.output.outputLowTimeNs else block.desired.lowTimeNs

/-- The output is one that the hardware engine can only round as a whole. -/
def Rounded : Prop :=
  block.running ∧ block.desired.mode = .hardware ∧ block.highTimeNs = block.lowTimeNs ∧
    block.highTimeNs ≠ 0

instance : Decidable block.Rounded := by unfold Rounded; infer_instance

def intervalPieces : List (Piece Char) :=
  match statistics block.input.intervals with
  | none => []
  | some (count, last, min, max, mean) =>
    [field "interval_last" (nanoseconds last), field "min" (nanoseconds min),
      field "max" (nanoseconds max), field "mean" (nanoseconds mean),
      field "n" (decimal count)]

def phasePieces (params : Params) : List (Piece Char) :=
  if params.clockUsesModel ∧ block.input.inputHavePrev then
    [field "phase" (nanoseconds block.input.inputPhaseNs)]
  else []

def inputPieces (params : Params) : List (Piece Char) :=
  [field "capture" (onOff block.capturing).toList,
    field "events" (decimal block.lastEventCount.toNat)] ++
    (block.phasePieces params ++ block.intervalPieces)

def quantizationPieces (params : Params) (clocks : Clocks) : List (Piece Char) :=
  match outputQuantizationGet params clocks block.desired.periodNs block.highTimeNs with
  | .ok quant =>
    [field "art_half_cycles" (decimal quant.artHalfPeriodCycles),
      field "actual_period" (nanoseconds quant.actualPeriodNs),
      field "period_error" (nanoseconds quant.periodErrorNs)]
  | .error status => [field "quantization_status" (Text.signed status.status)]

def measuredPieces : List (Piece Char) :=
  match block.phase with
  | .ok phase =>
    [field "armed_piv" (decimal block.output.outputHwPiv),
      field "phase_error" (nanoseconds phase.errorNs)]
  | .error _ => []

def armedPieces : List (Piece Char) :=
  if block.output.outputHwPiv ≠ 0 then
    block.measuredPieces ++
      [field "tracked_level" (highLow block.output.outputHwFlopHigh).toList]
  else []

def outputPieces (params : Params) (clocks : Clocks) : List (Piece Char) :=
  [flag (if block.running then "running" else "stopped"),
    field "mode" (outputModeName block.desired.mode).toList,
    field "period" (nanoseconds block.desired.periodNs),
    field "high_time" (nanoseconds block.highTimeNs),
    field "low_time" (nanoseconds block.lowTimeNs)] ++
    (if block.Rounded then block.quantizationPieces params clocks ++ block.armedPieces else [])

def pieces (params : Params) (clocks : Clocks) : List (Piece Char) :=
  match block.mode with
  | .input => block.inputPieces params
  | .output => block.outputPieces params clocks
  | .off => []

end StatusBlock

namespace StatusDevice

variable (device : StatusDevice)

def blockLine (index : Fin 2) : List Char :=
  "block".toList ++ decimal index ++ ':' :: ' ' ::
    (modeName (device.blocks index).mode).toList ++
    inLine ((device.blocks index).pieces device.params device.clocks)

def durationPieces : List (Piece Char) :=
  match statistics device.pairing.durations with
  | none => [field "count" (decimal 0)]
  | some (count, last, min, max, mean) =>
    [field "count" (decimal count), field "last" (nanoseconds last),
      field "last_cycles" (decimal device.pairing.lastCycles), field "min" (nanoseconds min),
      field "max" (nanoseconds max), field "mean" (nanoseconds mean)]

/-- The line names the blocks that a duration is measured between. -/
def tdcPieces : List (Piece Char) :=
  [field "start" ("block".toList ++ decimal (device.tdcStart.toNat % 2)),
    field "stop" ("block".toList ++ decimal (1 - device.tdcStart.toNat % 2))] ++
  (device.durationPieces ++
    [field "lost" (decimal device.pairing.lost),
      field "pending" (decimal device.pairing.pending.toNat)])

def phcPieces : List (Piece Char) :=
  [field "anchor_art" (decimal device.clocks.phc.anchorArt),
    field "anchor_ns" (Text.signed device.clocks.phc.anchorNs),
    field "base_art_hz" (decimal device.clocks.phc.baseArtHz),
    field "scaled_ppm" (Text.signed device.clocks.phc.scaledPpm)]

def counterPieces : List (Piece Char) :=
  [field "events" (Text.signed device.events), field "fallbacks" (Text.signed device.fallbacks)]

/-- The lines before those of the blocks, by name. -/
def firstLines : List (String × List Char) :=
  [("clock_mode", (clockModeName device.params.clockMode).toList),
    ("art_frequency", decimal device.params.artFrequency ++ " Hz".toList),
    ("activity_log", (onOff (device.activityLog || device.verbose)).toList),
    ("verbose", (onOff device.verbose).toList),
    ("art_base_clock", (presence device.clocks.clocksourceHasBase).toList),
    ("art_snapshot", (presence device.clocks.snapshotHasArt).toList),
    ("phc", (inLine device.phcPieces).tail)]

def statusLines : List (List Char) :=
  device.firstLines.map (fun line => named line.1 line.2) ++
    (List.finRange 2).map device.blockLine ++
    (if device.tdc then ["tdc:".toList ++ inLine device.tdcPieces] else []) ++
    [named "counters" (inLine device.counterPieces).tail]

def statusShow : List Char := unlines '\n' device.statusLines

end StatusDevice

end Tgpio

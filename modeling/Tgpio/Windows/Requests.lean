import Tgpio.Windows.Device

/-!
# The Windows driver's requests

The register sequences of the hardware layer and the requests above it. A
request that the framework cannot give the buffers it needs ends there.
-/

namespace Tgpio.Windows

open Interference

set_option autoImplicit false

section art

/-- `tgpio_muldiv`: a 128-bit product, and the largest count where the quotient
does not fit. -/
def muldiv (value mul div : Nat) : Nat :=
  if value * mul / 2 ^ 64 ≥ div then u64Max else value * mul / div

def artFromTsc (dev : WinDevice) (tsc : Nat) : Nat :=
  muldiv (u64 (tsc + (2 ^ 64 - dev.tscAdjust))) dev.tscArtDenominator dev.tscArtNumerator

def artNow (dev : WinDevice) : WinProg Nat := do
  let tsc ← rdtsc
  return artFromTsc dev tsc

def artNsToCycles (dev : WinDevice) (ns : Nat) : Nat := muldiv ns dev.artFrequencyHz nsecPerSec

def armMarginNs : Nat := 2000000
def autoStartNs : Nat := 50000000
def artHwDelayCycles : Nat := 2

end art

section hardware

variable (index : BlockIndex)

def readCtl : WinProg (BitVec 32) := readl index (.block .ctl)
def writeCtl (value : BitVec 32) : WinProg Unit := writel index .ctl value

def writeCompv (value : Nat) : WinProg Unit := do
  writel index .compv63_32 (upper32Bits value)
  writel index .compv31_0 (lower32Bits value)

def writePiv (value : Nat) : WinProg Unit := do
  writel index .piv63_32 (upper32Bits value)
  writel index .piv31_0 (lower32Bits value)

def readCompv : WinProg Nat := do
  let hi ← readl index (.block .compv63_32)
  Prog.iterate (fun prevHi => do
    let lo ← readl index (.block .compv31_0)
    let hi ← readl index (.block .compv63_32)
    if hi ≠ prevHi then return .inl hi
    else return .inr ((joinWords hi lo).toNat)) hi

def readPiv : WinProg Nat := do
  let lo ← readl index (.block .piv31_0)
  let hi ← readl index (.block .piv63_32)
  return (joinWords hi lo).toNat

/-- Reading the low timestamp word latches the others. -/
def readCapture : WinProg Capture := do
  let tcvLo ← readl index .tcv31_0
  let countHi ← readl index .eccv63_32
  let countLo ← readl index .eccv31_0
  let tcvHi ← readl index .tcv63_32
  return ⟨joinWords countHi countLo, joinWords tcvHi tcvLo⟩

def folded (compv : Nat) (block : WinBlock) : WinBlock :=
  { block with
    flopHigh := if (compv - block.ckptCompv) / block.hwPiv % 2 = 1 then !block.flopHigh
      else block.flopHigh
    ckptCompv := compv }

/-- Fold the edges since the checkpoint into the level mirror. -/
def hwFlopFold : WinProg Unit := do
  let dev ← getDevice
  if (dev.block index).hwPiv = 0 then return
  else do
    let compv ← readCompv index
    if compv < (dev.block index).ckptCompv then return
    else storeBlock index (folded compv)

def hwSetInput (enable : Bool) (edgeBits : BitVec 32) : WinProg Unit := do
  let ctrl ← readCtl index
  let ctrl := ctlWithout ctrl ctlEn
  writeCtl index ctrl
  if ¬enable then return
  else do
    let ctrl := ctlWith (ctlWith (ctlWithout ctrl ctlEp) (edgeBits &&& ctlEp)) ctlDir
    writeCtl index ctrl
    writeCtl index (ctlWith ctrl ctlEn)

def checkpointed (compv : Nat) (block : WinBlock) : WinBlock := { block with ckptCompv := compv }

/-- Rewrite the pending compare with the periodic engine paused. -/
def hwWriteCompvPaused (compv : Nat) : WinProg Unit := do
  let ctrl ← readCtl index
  writeCtl index (ctlWithout ctrl ctlPm)
  writeCompv index compv
  writeCtl index ctrl
  storeBlock index (checkpointed compv)

/-- The compare slot of a start: a high flop makes the first toggle a fall. -/
def startSlot (flopHigh : Bool) (firstEdgeArt highCycles lowCycles : Nat) : Nat :=
  let first := if firstEdgeArt > artHwDelayCycles then firstEdgeArt - artHwDelayCycles
    else firstEdgeArt
  if flopHigh then
    if first > lowCycles then first - lowCycles else u64 (first + highCycles)
  else first

/-- Push a compare that is already due forward by whole periods. -/
def lateArmGuard (first deadline periodCycles : Nat) : Option Nat :=
  if first < deadline then
    let periods := (deadline - first) / periodCycles + 1
    if periods > (u64Max - first) / periodCycles then none
    else some (first + periods * periodCycles)
  else some first

def started (highCycles lowCycles initialPiv first : Nat) (block : WinBlock) : WinBlock :=
  { block with highCycles, lowCycles, hwPiv := initialPiv, ckptCompv := first }

/-- The part of `tgpio_hw_start_output` after the late-arm guard. -/
def hwEnableOutput (ctrl : BitVec 32) (highCycles lowCycles initialPiv first : Nat) :
    WinProg Unit := do
  let ctrl := ctlWith ctrl (ctlEpToggle ||| ctlPm)
  writeCtl index ctrl
  writePiv index initialPiv
  writeCompv index first
  storeBlock index (started highCycles lowCycles initialPiv first)
  writeCtl index (ctlWith ctrl ctlEn)

def hwStartOutput (highCycles lowCycles firstEdgeArt : Nat) :
    WinProg (Except NtStatus Unit) := do
  if highCycles = 0 ∨ lowCycles = 0 ∨ highCycles > u64Max / 4 ∨ lowCycles > u64Max / 4 then
    return .error .invalidParameter
  else do
    let ctrl ← readCtl index
    let ctrl := ctlWithout ctrl ctlEn
    writeCtl index ctrl
    hwFlopFold index
    writeCompv index 0
    writePiv index 0
    let ctrl := ctlWithout ctrl (ctlDir ||| ctlEp ||| ctlPm)
    writeCtl index ctrl
    let dev ← getDevice
    let nowArt ← artNow dev
    let firstEdgeArt := if firstEdgeArt = 0 then u64 (nowArt + artNsToCycles dev autoStartNs)
      else firstEdgeArt
    let slot := startSlot (dev.block index).flopHigh firstEdgeArt highCycles lowCycles
    let deadline := u64 (nowArt + artNsToCycles dev armMarginNs)
    match lateArmGuard slot deadline (highCycles + lowCycles) with
    | none => return .error .integerOverflow
    | some first => do
      hwEnableOutput index ctrl highCycles lowCycles
        (if (dev.block index).flopHigh then lowCycles else highCycles) first
      return .ok ()

def stopped (block : WinBlock) : WinBlock := { block with hwPiv := 0, ckptCompv := 0 }

def hwStopOutput : WinProg Unit := do
  let ctrl ← readCtl index
  writeCtl index (ctlWithout ctrl ctlEn)
  hwFlopFold index
  writeCompv index 0
  writePiv index 0
  writeCtl index (ctlWithout ctrl (ctlEn ||| ctlPm))
  storeBlock index stopped

def flipped (block : WinBlock) : WinBlock := { block with flopHigh := !block.flopHigh }

def hwInvertOutput : WinProg Unit := do
  storeBlock index flipped
  let dev ← getDevice
  if (dev.block index).hwPiv = 0 then return
  else do
    hwFlopFold index
    let compv ← readCompv index
    if compv > u64Max - (dev.block index).hwPiv then return
    else hwWriteCompvPaused index (compv + (dev.block index).hwPiv)

end hardware

section requests

/-- The requests that act on one block, with the fields of their input. -/
inductive Request where
  | setInput (block enable edge : BitVec 32)
  | readCapture (block : BitVec 32)
  | startOutput (block : BitVec 32) (highCycles lowCycles firstEdgeArt : BitVec 64)
  | stopOutput (block : BitVec 32)
  | invertOutput (block : BitVec 32)
  | getBlock (block : BitVec 32)
  deriving DecidableEq, Repr

def Request.block : Request → BitVec 32
  | .setInput block _ _ | .readCapture block | .startOutput block _ _ _ | .stopOutput block
  | .invertOutput block | .getBlock block => block

/-- Requests with an output buffer. -/
def Request.answers : Request → Bool
  | .readCapture _ | .getBlock _ => true
  | _ => false

/-- A request as the framework delivers it. -/
structure Ioctl where
  request : Request
  inputFits : Bool
  outputFits : Bool
  deriving DecidableEq, Repr

structure BlockStatus where
  mode : BlockMode
  ctl : BitVec 32
  compv : Nat
  piv : Nat
  eventCount : BitVec 64
  flopHigh : Bool
  deriving DecidableEq, Repr

inductive Reply where
  | done
  | capture (capture : Capture) (tscNow systime100ns : Nat)
  | block (status : BlockStatus)
  deriving DecidableEq, Repr

def blockFromIndex (dev : WinDevice) (index : BitVec 32) : Option BlockIndex :=
  if bound : index.toNat < maxBlocks then
    if index.toNat < dev.blockCount ∧ (dev.block ⟨index.toNat, bound⟩).mapped then
      some ⟨index.toNat, bound⟩
    else none
  else none

/-- The edge program of an input, by `enum tgpio_win_edge`. -/
def inputEdgeBits (edge : BitVec 32) : Option (BitVec 32) :=
  if edge = 0 then some ctlEpRising
  else if edge = 1 then some ctlEpFalling
  else if edge = 2 then some ctlEpToggle
  else none

def withMode (mode : BlockMode) (block : WinBlock) : WinBlock := { block with mode }

variable (index : BlockIndex)

def setInput (enable edge : BitVec 32) : WinProg (Except NtStatus Reply) :=
  match inputEdgeBits edge with
  | none => return .error .invalidParameter
  | some edgeBits => do
    let dev ← getDevice
    if (dev.block index).mode = .output then hwStopOutput index
    else pure ()
    hwSetInput index (enable ≠ 0) edgeBits
    storeBlock index (withMode (if enable ≠ 0 then .input else .off))
    return .ok .done

def readCaptureOf : WinProg (Except NtStatus Reply) := do
  let capture ← readCapture index
  let tscNow ← rdtsc
  let systime ← systemTime
  return .ok (.capture capture tscNow systime)

/-- Only symmetric waveforms; a zero low time means the high time. -/
def startOutput (highCycles lowCycles firstEdgeArt : BitVec 64) :
    WinProg (Except NtStatus Reply) :=
  if highCycles = 0 then return .error .invalidParameter
  else
    let lowCycles := if lowCycles ≠ 0 then lowCycles else highCycles
    if lowCycles ≠ highCycles then return .error .notSupported
    else do
      let status ← hwStartOutput index highCycles.toNat lowCycles.toNat firstEdgeArt.toNat
      match status with
      | .error status => do
        storeBlock index (withMode .off)
        return .error status
      | .ok () => do
        storeBlock index (withMode .output)
        return .ok .done

def stopOutput : WinProg (Except NtStatus Reply) := do
  hwStopOutput index
  storeBlock index (withMode .off)
  return .ok .done

def invertOutput : WinProg (Except NtStatus Reply) := do
  hwInvertOutput index
  return .ok .done

def getBlock : WinProg (Except NtStatus Reply) := do
  hwFlopFold index
  let dev ← getDevice
  let ctl ← readCtl index
  let compv ← readCompv index
  let piv ← readPiv index
  let capture ← readCapture index
  return .ok (.block ⟨(dev.block index).mode, ctl, compv, piv, capture.eventCount,
    (dev.block index).flopHigh⟩)

def serve : Request → WinProg (Except NtStatus Reply)
  | .setInput _ enable edge => setInput index enable edge
  | .readCapture _ => readCaptureOf index
  | .startOutput _ highCycles lowCycles firstEdgeArt =>
      startOutput index highCycles lowCycles firstEdgeArt
  | .stopOutput _ => stopOutput index
  | .invertOutput _ => invertOutput index
  | .getBlock _ => getBlock index

def evtIoctl (ioctl : Ioctl) : WinProg (Except NtStatus Reply) :=
  if ¬ioctl.inputFits ∨ (ioctl.request.answers ∧ ¬ioctl.outputFits) then
    return .error .bufferTooSmall
  else do
    let dev ← getDevice
    match blockFromIndex dev ioctl.request.block with
    | none => return .error .invalidParameter
    | some index => serve index ioctl.request

def unmapped (block : WinBlock) : WinBlock := { block with mapped := false }

/-- One block of `tgpio_evt_device_cleanup`. -/
def cleanupBlock : WinProg Unit := do
  let dev ← getDevice
  if ¬(dev.block index).mapped then return
  else do
    match (dev.block index).mode with
    | .output => hwStopOutput index
    | .input => hwSetInput index false 0
    | .off => pure ()
    storeBlock index unmapped

def evtDeviceCleanup : WinProg Unit := do
  cleanupBlock ⟨0, by decide⟩
  cleanupBlock ⟨1, by decide⟩

end requests

end Tgpio.Windows

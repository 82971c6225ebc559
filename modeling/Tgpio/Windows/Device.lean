import Tgpio.OutputBlock

/-!
# The Windows driver's device

The context of the KMDF driver, the hardware behind its blocks, and the accesses
the driver makes. The register map and the meaning of the control bits are those
of the other driver. Requests are handled one at a time under the device lock,
so only the hardware moves between two accesses.
-/

namespace Tgpio.Windows

open Interference

set_option autoImplicit false

/-- `TGPIO_WIN_MAX_BLOCKS` -/
def maxBlocks : Nat := 2

abbrev BlockIndex := Fin maxBlocks

theorem max_blocks_pos : 0 < maxBlocks := by decide

inductive BlockMode where
  | off
  | input
  | output
  deriving DecidableEq, Repr

/-- The NTSTATUS values the driver answers with. -/
inductive NtStatus where
  | invalidParameter
  | notSupported
  | integerOverflow
  | bufferTooSmall
  deriving DecidableEq, Repr

/-- `struct tgpio_win_block` -/
structure WinBlock where
  /-- `regs` is not NULL. -/
  mapped : Bool
  mode : BlockMode
  flopHigh : Bool
  hwPiv : Nat
  ckptCompv : Nat
  highCycles : Nat
  lowCycles : Nat
  deriving DecidableEq, Repr

/-- `struct tgpio_win_device` -/
structure WinDevice where
  block : BlockIndex → WinBlock
  blockCount : Nat
  artFrequencyHz : Nat
  tscArtNumerator : Nat
  tscArtDenominator : Nat
  tscAdjust : Nat

/-- A captured event: how many there have been, and the ART value of the last. -/
structure Capture where
  eventCount : BitVec 64
  artCycles : BitVec 64
  deriving DecidableEq, Repr

/-- The hardware of a block. -/
structure Line where
  regs : Regs
  /-- The physical level flop. -/
  flop : Bool
  capture : Capture
  /-- What the last read of the low timestamp word has latched. -/
  latched : Capture
  deriving DecidableEq, Repr

structure WinMachine where
  device : WinDevice
  line : BlockIndex → Line
  tsc : Nat
  systime : Nat

/-- The registers the driver reads. -/
inductive WinReg where
  | block (reg : Reg)
  | tcv31_0
  | tcv63_32
  | eccv31_0
  | eccv63_32
  deriving DecidableEq, Repr

def Line.read (line : Line) : WinReg → BitVec 32
  | .block reg => line.regs.read reg
  | .tcv31_0 => lowerWord line.capture.artCycles
  | .tcv63_32 => upperWord line.latched.artCycles
  | .eccv31_0 => lowerWord line.latched.eventCount
  | .eccv63_32 => upperWord line.latched.eventCount

/-- Reading the low timestamp word latches the capture. -/
def Line.readEffect (line : Line) : WinReg → Line
  | .tcv31_0 => { line with latched := line.capture }
  | _ => line

def Line.write (line : Line) (reg : Reg) (value : BitVec 32) : Line :=
  { line with regs := line.regs.write reg value }

inductive WinOp : Type where
  | readl (index : BlockIndex) (reg : WinReg)
  | writel (index : BlockIndex) (reg : Reg) (value : BitVec 32)
  | device
  | store (index : BlockIndex) (update : WinBlock → WinBlock)
  | rdtsc
  | systemTime

def WinOp.Resp : WinOp → Type
  | .readl _ _ => BitVec 32
  | .device => WinDevice
  | .rdtsc => Nat
  | .systemTime => Nat
  | _ => Unit

abbrev WinProg := Prog WinOp WinOp.Resp

namespace WinMachine

variable (m : WinMachine) (index : BlockIndex)

def updateBlock (update : WinBlock → WinBlock) : WinMachine :=
  { m with device := { m.device with
      block := Function.update m.device.block index (update (m.device.block index)) } }

def updateLine (update : Line → Line) : WinMachine :=
  { m with line := Function.update m.line index (update (m.line index)) }

/-- One access; there are no registers behind an unmapped block. -/
def perform : (op : WinOp) → WinMachine → Option (op.Resp × WinMachine)
  | .readl index reg, m =>
      if (m.device.block index).mapped then
        some ((m.line index).read reg, m.updateLine index fun line => line.readEffect reg)
      else none
  | .writel index reg value, m =>
      if (m.device.block index).mapped then
        some ((), m.updateLine index fun line => line.write reg value)
      else none
  | .device, m => some (m.device, m)
  | .store index update, m => some ((), m.updateBlock index update)
  | .rdtsc, m => some (m.tsc, m)
  | .systemTime, m => some (m.systime, m)

/-- A generated edge of the periodic toggle engine. -/
def edge : WinMachine :=
  m.updateLine index fun line => { line with
    flop := !line.flop
    regs := { line.regs with compv := line.regs.compv + line.regs.piv } }

def captured (capture : Capture) : WinMachine :=
  m.updateLine index fun line => { line with capture }

end WinMachine

/-- The engine runs: enabled as an output, in periodic mode. -/
def Line.running (line : Line) : Bool := line.regs.running && !line.regs.ctl.getLsbD 1

/-- What the hardware does by itself: edges and captures of enabled blocks, and
the passing of time. -/
inductive Hardware : WinMachine → WinMachine → Prop where
  | edge {m : WinMachine} (index : BlockIndex) : (m.line index).running = true →
      Hardware m (m.edge index)
  | captured {m : WinMachine} (index : BlockIndex) (capture : Capture) :
      hasEn (m.line index).regs.ctl = true → Hardware m (m.captured index capture)
  | tick {m : WinMachine} (tsc systime : Nat) : Hardware m { m with tsc, systime }

def winSem : Semantics WinOp WinOp.Resp WinMachine where
  step op m reply m' := m.perform op = some (reply, m')
  env := Hardware

section ops

def readl (index : BlockIndex) (reg : WinReg) : WinProg (BitVec 32) :=
  Prog.perform (WinOp.readl index reg)
def writel (index : BlockIndex) (reg : Reg) (value : BitVec 32) : WinProg Unit :=
  Prog.perform (WinOp.writel index reg value)
def getDevice : WinProg WinDevice := Prog.perform WinOp.device
def storeBlock (index : BlockIndex) (update : WinBlock → WinBlock) : WinProg Unit :=
  Prog.perform (WinOp.store index update)
def rdtsc : WinProg Nat := Prog.perform WinOp.rdtsc
def systemTime : WinProg Nat := Prog.perform WinOp.systemTime

end ops

end Tgpio.Windows

import Tgpio.ClockReading
import Tgpio.ClockSteps

/-!
# The clock operations

`gettime64` and `settime64` beside the steering of the clock, and the calls of
any number of callers among each other. The calls of the system clock are
parameters: in PHC mode none is made.
-/

namespace Tgpio

open Interference Interference.Prog

set_option autoImplicit false

/-- `struct timespec64` -/
structure Timespec64 where
  tvSec : Int
  tvNsec : Int
  deriving DecidableEq, Repr

def Timespec64.ns (ts : Timespec64) : Int := ts.tvSec * nsecPerSec + ts.tvNsec

/-- `ns_to_timespec64` rounds the seconds down. -/
def nsToTimespec64 (ns : Int) : Timespec64 := ⟨ns / nsecPerSec, ns % nsecPerSec⟩

/-- `timespec64_to_ns` answers an end of the range from the last second on. -/
def timespec64ToNs (ts : Timespec64) : Int :=
  if ts.tvSec ≥ (s64Max / nsecPerSec : Nat) then s64Max
  else if ts.tvSec ≤ -(s64Max / nsecPerSec : Nat) then s64Min
  else ts.ns

theorem timespec64_ns (ns : Int) : (nsToTimespec64 ns).ns = ns := by
  unfold Timespec64.ns nsToTimespec64 nsecPerSec
  dsimp only
  omega

/-- The critical section of `settime64`. -/
def settimeCommit (ns : Int) (art : Nat) (phc : PhcParams) : Except Errno Unit × PhcParams :=
  (.ok (), phcParamsMake art ns phc.baseArtHz phc.scaledPpm)

def ptpSettime64 (doSettimeofday64 : Timespec64 → ClockCall (Except Errno Unit)) (mode : ClockMode)
    (ts : Timespec64) : ClockCall (Except Errno Unit) :=
  if mode = .art then return .error .eopnotsupp
  else if ts.tvSec < 0 ∨ ts.tvNsec < 0 ∨ ts.tvNsec ≥ nsecPerSec then return .error .einval
  else if mode = .realtime then do
    let status ← doSettimeofday64 ts
    afterCommit resyncOutputsAfterPhcStep status
  else if ts.tvSec > (s64Max / nsecPerSec : Nat) then return .error .erange
  else if timespec64ToNs ts < 0 then return .error .erange
  else commitAtArt (settimeCommit (timespec64ToNs ts)) resyncOutputsAfterPhcStep

def ptpGettime64 (ktimeGetRealTs64 : ClockCall Timespec64) (mode : ClockMode) :
    ClockCall (Except Errno Timespec64) :=
  if mode = .realtime then do
    let ts ← ktimeGetRealTs64
    return .ok ts
  else do
    let now ← phcNowNs
    match now with
    | .error status => return .error status
    | .ok now => if now < 0 then return .error .erange else return .ok (nsToTimespec64 now)

inductive ClockRequest where
  | gettime
  | settime (ts : Timespec64)
  | adjtime (delta : Int)
  | adjfine (scaledPpm : Int)
  deriving DecidableEq, Repr

inductive ClockAnswer where
  | time (now : Except Errno Timespec64)
  | status (status : Except Errno Unit)
  deriving DecidableEq

/-- The system clock, where the operations hand on to it. -/
structure SystemClock where
  doSettimeofday64 : Timespec64 → ClockCall (Except Errno Unit)
  ktimeGetRealTs64 : ClockCall Timespec64

def clockOperation (kernel : SystemClock) (mode : ClockMode) (hardwarePeriodicOutput : Bool) :
    ClockRequest → ClockCall ClockAnswer
  | .gettime => do
    let now ← ptpGettime64 kernel.ktimeGetRealTs64 mode
    return .time now
  | .settime ts => do
    let status ← ptpSettime64 kernel.doSettimeofday64 mode ts
    return .status status
  | .adjtime delta => do
    let status ← ptpAdjtime mode delta
    return .status status
  | .adjfine scaledPpm => do
    let status ← ptpAdjfine mode hardwarePeriodicOutput scaledPpm
    return .status status

/-- What is kept of the operations: the conversions, and the sections under the
lock that took effect, with the ART values they were given. -/
inductive ClockEntry where
  | read (art : Nat)
  | steered (art : Nat) (request : ClockRequest)
  deriving DecidableEq, Repr

def steeredEntry (art : Nat) (request : ClockRequest) : Except Errno Unit → List ClockEntry
  | .ok () => [.steered art request]
  | .error _ => []

def clockEntries : ClockRequest × ClockOp → Timebase → List ClockEntry
  | (_, .clockPhcArtToNs art), _ => [.read art]
  | (request, .phcUpdate art update), s => steeredEntry art request (update art s.phc).1
  | _, _ => []

abbrev ClockHistory := Timebase × List ClockEntry

/-- Clock operations in PHC mode, any number of them at a time. The last entry
comes first. -/
def clockOperations (kernel : SystemClock) (hardwarePeriodicOutput : Bool) :
    Pool (ClockRequest × ClockOp) (fun op => op.2.Resp) ClockHistory ClockRequest ClockAnswer where
  step op s reply t := (clockSem (fun _ _ => True) anyAccess).step op.2 s.1 reply t.1 ∧
    t.2 = clockEntries op s.1 ++ s.2
  env s t := (clockSem (fun _ _ => True) anyAccess).env s.1 t.1 ∧ t.2 = s.2
  program request := (clockOperation kernel .phc hardwarePeriodicOutput request).tag request

end Tgpio

import Tgpio.ClockDomain
import Tgpio.PhcMapping
import Tgpio.Interference.Pool

/-!
# Steering the clock

`adjtime`, `adjfine` and the reading of the clock, as calls that run
concurrently. Each samples ART first and takes the parameters of the clock, or
the lock around them, later; nothing ties the two together. A section under
`phc_seqlock` is one access here, and so is a read of the parameters, which
retries until no section has intervened.
-/

namespace Tgpio

open Interference Interference.Prog

set_option autoImplicit false

/-- The accesses of the clock operations. A section under the lock and a
conversion are given the ART value that was sampled before. -/
inductive ClockOp : Type 1 where
  /-- `tgpio_get_current_art` -/
  | currentArt
  /-- `tgpio_clock_phc_art_to_ns`: take the parameters, then convert. -/
  | clockPhcArtToNs (art : Nat)
  /-- A section under `phc_seqlock`. -/
  | phcUpdate (art : Nat) (update : Nat → PhcParams → Except Errno Unit × PhcParams)
  /-- The system clock, in realtime mode: `tgpio_realtime_adjtime`. -/
  | realtimeAdjtime (deltaNs : Int)
  /-- `tgpio_realtime_adjfine` -/
  | realtimeAdjfine (scaledPpm : Int)
  | resyncOutputsAfterPhcStep
  | updateOutputsAfterPhcFreq

def ClockOp.Resp : ClockOp → Type
  | .currentArt => U64Result
  | .clockPhcArtToNs _ => S64Result
  | .phcUpdate _ _ => Except Errno Unit
  | .realtimeAdjtime _ => Except Errno Unit
  | .realtimeAdjfine _ => Except Errno Unit
  | _ => Unit

abbrev ClockCall := Prog ClockOp ClockOp.Resp

/-- What the calls share: the parameters and the ART counter. -/
structure Timebase where
  phc : PhcParams
  art : Nat
  /-- History: the newest ART value converted so far. -/
  converted : Nat
  deriving DecidableEq, Repr

/-- The accesses that `guard` allows, among given movements of the ART counter.
A read of the counter may fail at any time; the system clock may refuse
anything. -/
def clockSem (counter : Nat → Nat → Prop) (guard : ClockOp → Timebase → Prop) :
    Semantics ClockOp ClockOp.Resp Timebase where
  step op s reply t := guard op s ∧
    match op, reply with
    | .currentArt, reply => t = s ∧ ∀ art, reply = .ok art → art = s.art
    | .clockPhcArtToNs art, reply =>
        reply = phcArtToNs s.phc art ∧ t = { s with converted := max s.converted art }
    | .phcUpdate art update, reply =>
        reply = (update art s.phc).1 ∧ t = { s with phc := (update art s.phc).2 }
    | _, _ => t = s
  env s t := counter s.art t.art ∧ t = { s with art := t.art }

def anyAccess : ClockOp → Timebase → Prop := fun _ _ => True

/-- The critical section of `adjtime`. -/
def adjtimeCommit (delta : Int) (art : Nat) (phc : PhcParams) : Except Errno Unit × PhcParams :=
  match phcArtToNs phc art with
  | .error _ => (.error .erange, phc)
  | .ok now =>
    match addS64 now delta with
    | .error _ => (.error .erange, phc)
    | .ok adjusted =>
      if adjusted < 0 then (.error .erange, phc)
      else (.ok (), phcParamsMake art adjusted phc.baseArtHz phc.scaledPpm)

/-- The critical section of `adjfine`. -/
def adjfineCommit (scaledPpm : Int) (art : Nat) (phc : PhcParams) : Except Errno Unit × PhcParams :=
  match phcArtToNs phc art with
  | .error _ => (.error .erange, phc)
  | .ok now => (.ok (), phcParamsMake art now phc.baseArtHz scaledPpm)

section calls

def currentArt : ClockCall U64Result := Prog.perform ClockOp.currentArt
def clockPhcArtToNsCall (art : Nat) : ClockCall S64Result :=
  Prog.perform (ClockOp.clockPhcArtToNs art)
def phcUpdate (art : Nat) (update : Nat → PhcParams → Except Errno Unit × PhcParams) :
    ClockCall (Except Errno Unit) :=
  Prog.perform (ClockOp.phcUpdate art update)
def realtimeAdjtime (deltaNs : Int) : ClockCall (Except Errno Unit) :=
  Prog.perform (ClockOp.realtimeAdjtime deltaNs)
def realtimeAdjfine (scaledPpm : Int) : ClockCall (Except Errno Unit) :=
  Prog.perform (ClockOp.realtimeAdjfine scaledPpm)
def resyncOutputsAfterPhcStep : ClockCall Unit :=
  Prog.perform ClockOp.resyncOutputsAfterPhcStep
def updateOutputsAfterPhcFreq : ClockCall Unit :=
  Prog.perform ClockOp.updateOutputsAfterPhcFreq

/-- `tgpio_clock_phc_now_ns` -/
def phcNowNs : ClockCall S64Result := do
  let art ← currentArt
  match art with
  | .error status => return .error status
  | .ok art => clockPhcArtToNsCall art

/-- What follows a section under the lock: outputs are told of a success. -/
def afterCommit (tell : ClockCall Unit) : Except Errno Unit → ClockCall (Except Errno Unit)
  | .error status => return .error status
  | .ok () => do
    tell
    return .ok ()

/-- A section under the lock, with ART sampled before it. -/
def commitAtArt (commit : Nat → PhcParams → Except Errno Unit × PhcParams) (tell : ClockCall Unit) :
    ClockCall (Except Errno Unit) := do
  let art ← currentArt
  match art with
  | .error _ => return .error .enodev
  | .ok art => do
    let status ← phcUpdate art commit
    afterCommit tell status

def ptpAdjtime (mode : ClockMode) (delta : Int) : ClockCall (Except Errno Unit) :=
  match mode with
  | .art => return .error .eopnotsupp
  | .realtime => do
    let status ← realtimeAdjtime delta
    afterCommit resyncOutputsAfterPhcStep status
  | .phc => commitAtArt (adjtimeCommit delta) resyncOutputsAfterPhcStep

/-- Running outputs learn of a new frequency if the hardware engine is in use. -/
def tellFrequency (hardwarePeriodicOutput : Bool) : ClockCall Unit :=
  if hardwarePeriodicOutput then updateOutputsAfterPhcFreq else return

def ptpAdjfine (mode : ClockMode) (hardwarePeriodicOutput : Bool) (scaledPpm : Int) :
    ClockCall (Except Errno Unit) :=
  match mode with
  | .art => return .error .eopnotsupp
  | .realtime => do
    let status ← realtimeAdjfine scaledPpm
    afterCommit (tellFrequency hardwarePeriodicOutput) status
  | .phc =>
    if scaledPpmToPpb scaledPpm > phcMaxAdjPpb ∨ scaledPpmToPpb scaledPpm < -phcMaxAdjPpb then
      return .error .erange
    else commitAtArt (adjfineCommit scaledPpm) (tellFrequency hardwarePeriodicOutput)

end calls

section tracing

/-- The accesses on given states, where every one of them succeeds. -/
def clockAnswer : (op : ClockOp) → Timebase → op.Resp × Timebase
  | .currentArt, s => (.ok s.art, s)
  | .clockPhcArtToNs art, s =>
      (phcArtToNs s.phc art, { s with converted := max s.converted art })
  | .phcUpdate art update, s => ((update art s.phc).1, { s with phc := (update art s.phc).2 })
  | .realtimeAdjtime _, s => (.ok (), s)
  | .realtimeAdjfine _, s => (.ok (), s)
  | .resyncOutputsAfterPhcStep, s => ((), s)
  | .updateOutputsAfterPhcFreq, s => ((), s)

theorem clock_answer_sound {counter : Nat → Nat → Prop} {guard : ClockOp → Timebase → Prop}
    (op : ClockOp) (s : Timebase) (allowed : guard op s) :
    (clockSem counter guard).step op s (clockAnswer op s).1 (clockAnswer op s).2 := by
  cases op with
  | currentArt => exact ⟨allowed, rfl, fun art same => by cases same; rfl⟩
  | clockPhcArtToNs | phcUpdate => exact ⟨allowed, rfl, rfl⟩
  | _ => exact ⟨allowed, rfl⟩

/-- Concurrent calls on given states; an event sets the ART counter. -/
def clockTracer {κ ρ : Type} (counter : Nat → Nat → Prop) [DecidableRel counter]
    {guard : ClockOp → Timebase → Prop} (check : ClockOp → Timebase → Bool)
    (sound : ∀ op s, check op s = true → guard op s) (program : κ → ClockCall ρ) :
    (Pool.mk (clockSem counter guard) program).Tracer Nat where
  handler op s := if check op s then some (clockAnswer op s) else none
  act art s := if counter s.art art then some { s with art } else none
  handlerSound op s reply t handled := by
    obtain ⟨checked, answered⟩ := Option.ite_none_right_eq_some.mp handled
    have allowed := @clock_answer_sound counter guard op s (sound op s checked)
    rwa [Option.some.inj answered] at allowed
  actSound art s t acted := by
    obtain ⟨moves, moved⟩ := Option.ite_none_right_eq_some.mp acted
    cases moved
    exact .single ⟨moves, rfl⟩

end tracing

end Tgpio

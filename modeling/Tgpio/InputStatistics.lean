import Tgpio.ClockDomain
import Tgpio.PhcMapping
import Tgpio.Statistics.Tally

/-!
# Statistics of the inputs

What the poll work keeps of the captures: the interval statistics of each input
and the pairing of the two inputs into durations. Log records are left out, and
so is the polarity check, which only steers the output of the other block.
-/

namespace Tgpio

open Statistics

set_option autoImplicit false

/-- A capture as the poll work reads it: the block, the ART value, and how far
the event counter has moved. -/
structure Capture where
  block : Fin 2
  art : Nat
  eventDelta : Nat
  artInRange : art < 2 ^ 64
  deriving Repr

structure CaptureSetting where
  tdc : Bool
  tdcStart : Nat
  params : Params
  clocks : Clocks

structure InputBlock where
  inputPrevArt : Nat
  inputHavePrev : Bool
  inputPhaseNs : Int
  intervals : Tally Int

structure Tdc where
  pending : Bool
  pendingBlock : Fin 2
  pendingArt : Nat
  lost : Nat
  lastCycles : Nat
  durations : Tally Int

structure InputDevice where
  tdc : Tdc
  blocks : Fin 2 → InputBlock

def recordValue (tally : Tally Int) (value : Int) : Tally Int :=
  let count := u64 (tally.count + 1)
  { count := count
    last := value
    min := if count = 1 ∨ value < tally.min then value else tally.min
    max := if count = 1 ∨ value > tally.max then value else tally.max
    sum := toS64 (tally.sum + value) }

/-- The distance of a time from the nearest whole second. -/
def secondPhase (ns : Int) : Int :=
  let frac := ns % nsecPerSec
  if frac ≥ (nsecPerSec / 2 : Nat) then frac - nsecPerSec else frac

def phaseUpdate (setting : CaptureSetting) (art : Nat) (phaseNs : Int) : Int :=
  if setting.params.clockUsesModel then
    match clockPhcArtToNs setting.clocks art with
    | .error _ => phaseNs
    | .ok ns => if ns ≥ 0 then secondPhase ns else phaseNs
  else phaseNs

def inputStatsUpdate (setting : CaptureSetting) (art : Nat) (block : InputBlock) : InputBlock :=
  let intervals :=
    if block.inputHavePrev ∧ art > block.inputPrevArt then
      match clockArtCyclesToDeltaNs setting.params setting.clocks (art - block.inputPrevArt) with
      | .error _ => block.intervals
      | .ok delta => if delta ≤ s64Max then recordValue block.intervals delta else block.intervals
    else block.intervals
  { inputPrevArt := art
    inputHavePrev := true
    inputPhaseNs := phaseUpdate setting art block.inputPhaseNs
    intervals := intervals }

/-- Only a small step of the event counter counts as lost captures. -/
def countLost (eventDelta lost : Nat) : Nat :=
  if eventDelta > 1 ∧ eventDelta ≤ 4096 then u64 (lost + (eventDelta - 1)) else lost

def tdcMeasure (setting : CaptureSetting) (tdc : Tdc) (capture : Capture) : Tdc :=
  let first := if capture.block.val = setting.tdcStart % 2 then capture.art else tdc.pendingArt
  let stop := if capture.block.val = setting.tdcStart % 2 then tdc.pendingArt else capture.art
  let negative := stop < first
  let cycles := if negative then first - stop else stop - first
  match clockArtCyclesToDeltaNs setting.params setting.clocks cycles with
  | .error _ => { tdc with pending := false }
  | .ok duration =>
    if duration > s64Max then { tdc with pending := false }
    else { tdc with
      pending := false
      lastCycles := cycles
      durations := recordValue tdc.durations (if negative then -(duration : Int) else duration) }

def tdcCapture (setting : CaptureSetting) (tdc : Tdc) (capture : Capture) : Tdc :=
  if ¬setting.tdc then tdc
  else
    let tdc := { tdc with lost := countLost capture.eventDelta tdc.lost }
    if ¬tdc.pending ∨ tdc.pendingBlock = capture.block then
      { tdc with
        pending := true
        pendingBlock := capture.block
        pendingArt := capture.art }
    else tdcMeasure setting tdc capture

def pollCapture (setting : CaptureSetting) (device : InputDevice) (capture : Capture) :
    InputDevice where
  tdc := tdcCapture setting device.tdc capture
  blocks := Function.update device.blocks capture.block
    (inputStatsUpdate setting capture.art (device.blocks capture.block))

/-- `tgpio_tdc_reset_write`, for a value that was parsed. -/
def tdcReset (value : Bool) (device : InputDevice) : InputDevice :=
  if value then
    { device with tdc := { device.tdc with lost := 0, lastCycles := 0, durations := Tally.empty } }
  else device

def Tdc.loaded : Tdc := ⟨false, ⟨0, Nat.two_pos⟩, 0, 0, 0, Tally.empty⟩

def InputBlock.loaded : InputBlock := ⟨0, false, 0, Tally.empty⟩

def InputDevice.loaded : InputDevice := ⟨Tdc.loaded, fun _ => InputBlock.loaded⟩

def polled (device : InputDevice) (captures : List (CaptureSetting × Capture)) : InputDevice :=
  captures.foldl (fun device next => pollCapture next.1 device next.2) device

/-- Statistics of 64 bits, of values counted and added up without end. -/
def wrapped (tally : Tally Int) : Tally Int :=
  { tally with count := u64 tally.count, sum := toS64 tally.sum }

/-- Until the count wraps, the driver's statistics are those of the values, the
sum wrapped. -/
theorem record_value_eq (tally : Tally Int) (value : Int) (few : tally.count + 1 < 2 ^ 64) :
    recordValue (wrapped tally) value = wrapped (tally.record value) := by
  have count : u64 (u64 tally.count + 1) = tally.count + 1 := by
    unfold u64
    omega
  have next : u64 (tally.count + 1) = tally.count + 1 := u64_of_lt few
  have sum : toS64 (toS64 tally.sum + value) = toS64 (tally.sum + value) := by
    unfold toS64
    exact Int.bmod_add_bmod
  unfold recordValue wrapped Tally.record
  dsimp only
  rw [count, next, sum]
  simp only [Nat.add_eq_right, gt_iff_lt]

end Tgpio

import Tgpio.OutputBlock

/-!
# Programming the block

The register sequences of the driver: reading and writing the 64-bit compare,
folding generated edges into the level mirror, stopping, priming, arming the
free-running engine, and measuring its phase. Log records are left out.
-/

namespace Tgpio

open Interference

set_option autoImplicit false

def outputSafeTimeNs : Nat := 20 * nsecPerMsec
def hwDutyMinHalfNs : Nat := 50 * nsecPerMsec
def hwDutyServiceDelayNs : Nat := 10 * nsecPerMsec

def readCtl : Driver (BitVec 32) := readl .ctl
def writeCtl (value : BitVec 32) : Driver Unit := writel .ctl value

def writeCompv (value : Nat) : Driver Unit := do
  writel .compv63_32 (upper32Bits value)
  writel .compv31_0 (lower32Bits value)

def writePiv (value : Nat) : Driver Unit := do
  writel .piv63_32 (upper32Bits value)
  writel .piv31_0 (lower32Bits value)

/-- Read until the high word is stable across the read of the low word. -/
def readCompv : Driver Nat := do
  let hi ← readl .compv63_32
  Prog.iterate (fun prevHi => do
    let lo ← readl .compv31_0
    let hi ← readl .compv63_32
    if hi ≠ prevHi then return .inl hi
    else return .inr ((joinWords hi lo).toNat)) hi

/-- The mirror after the edges between the checkpoint and `compv`. -/
def foldPeriodic (compv : Nat) (block : MmioBlock) : MmioBlock :=
  let events := (compv - block.outputHwCkptCompv) / block.outputHwPiv
  { block with
    outputHwFlopHigh :=
      if events % 2 = 1 then !block.outputHwFlopHigh else block.outputHwFlopHigh
    outputHwCkptCompv := compv }

/-- In duty mode at most one edge is unaccounted for. -/
def foldDuty (compv : Nat) (block : MmioBlock) : MmioBlock :=
  { block with outputHwFlopHigh := !block.outputHwFlopHigh, outputHwCkptCompv := compv }

/-- Fold the edges generated since the checkpoint into the level mirror. -/
def hwFlopFold : Driver Unit := do
  let block ← loadBlock
  if block.outputHwPiv = 0 then return
  else if block.outputPhase = .hwDuty then
    let compv ← readCompv
    mark .looked
    if compv ≠ block.outputHwCkptCompv then storeBlock (foldDuty compv)
    else return
  else if block.outputPhase = .hardwarePeriodic then
    let compv ← readCompv
    mark .looked
    if compv < block.outputHwCkptCompv then return
    else storeBlock (foldPeriodic compv)
  else return

/-- Record that the engine is off. -/
def halted (block : MmioBlock) : MmioBlock :=
  { block with outputPhase := .toggle, outputHwFirstArt := 0, outputHwPiv := 0 }

/-- Stop first, then fold: an edge between the two would be lost otherwise. -/
def disableOutputHw : Driver Unit := do
  let ctrl ← readCtl
  writeCtl (ctlWithout ctrl ctlEn)
  hwFlopFold
  writeCompv 0
  writePiv 0
  writeCtl (ctlWithout ctrl (ctlEn ||| ctlPm))
  storeBlock halted

/-- Toggle mode writes the compare before the control, the other modes after it. -/
def programOutputEdge (edgeTime : Int) (edgeBits : BitVec 32) : Driver (Except Errno Unit) := do
  let art ← sample fun params clocks => clockNsToCompareArt params clocks edgeTime
  match art with
  | .error status => return .error status
  | .ok art =>
    let ctrl ← readCtl
    let ctrl := ctlWith (ctlWithout ctrl ctlEp) edgeBits
    if edgeBits = ctlEpToggle then do
      writeCompv art
      writeCtl ctrl
      return .ok ()
    else do
      writeCtl ctrl
      writeCompv art
      return .ok ()

def outputLeadTimeNs (intervalNs : Nat) : Nat :=
  let lead := min outputSafeTimeNs (intervalNs / 4)
  if lead = 0 then 1 else lead

def outputMinIntervalNs (highTimeNs lowTimeNs : Nat) : Nat := min highTimeNs lowTimeNs

/-- A stale start time stays on its own period grid. -/
def outputAlignFirstEdge (requestedNs minFirstNs : Int) (periodNs : Nat) : Int :=
  if requestedNs ≥ minFirstNs then requestedNs
  else if periodNs = 0 ∨ periodNs > s64Max ∨ requestedNs < 0 then minFirstNs
  else
    let delta := toU64 (minFirstNs - requestedNs)
    let periods := if delta % periodNs ≠ 0 then delta / periodNs + 1 else delta / periodNs
    if periods > s64Max / periodNs then minFirstNs
    else match addS64 requestedNs (periods * periodNs : Nat) with
      | .error _ => minFirstNs
      | .ok aligned => aligned

structure OutputTiming where
  firstEdgeNs : Int
  primeEdgeNs : Int
  timerStart : Int
  deriving DecidableEq, Repr

/-- The clock-domain part of the timing: first edge, prime edge, and the delay
of the wake timer. -/
def outputTimingPlan (now : S64Result) (minIntervalNs periodNs : Nat) (mode : OutputMode)
    (requestedFirstEdgeNs : Int) : Except Errno (Int × Int × Int) :=
  match now with
  | .error _ => .error .enodev
  | .ok now =>
    if now < 0 then .error .erange
    else
      let lead : Nat :=
        if mode = .hardware then outputSafeTimeNs else outputLeadTimeNs minIntervalNs
      if lead > s64Max / 3 then .error .erange
      else match addS64 now (3 * lead : Nat) with
        | .error status => .error status
        | .ok minFirst =>
          let firstEdge := outputAlignFirstEdge requestedFirstEdgeNs minFirst periodNs
          match addS64 firstEdge (-2 * lead), addS64 firstEdge (-lead) with
          | .ok prime, .ok timerStart =>
            match addS64 timerStart (-now) with
            | .error _ => .error .erange
            | .ok delay => .ok (firstEdge, prime, delay)
          | _, _ => .error .erange

def prepareOutputTiming (minIntervalNs periodNs : Nat) (mode : OutputMode)
    (requestedFirstEdgeNs : Int) : Driver (Except Errno OutputTiming) := do
  let now ← sample clockNowNs
  match outputTimingPlan now minIntervalNs periodNs mode requestedFirstEdgeNs with
  | .error status => return .error status
  | .ok (firstEdgeNs, primeEdgeNs, delay) =>
    let timerDelay ← sample fun params clocks => clockDeltaToRealNs params clocks delay
    match timerDelay with
    | .error _ => return .error .enodev
    | .ok timerDelay =>
      let nowReal ← ktimeGetReal
      let timerStart := toS64 (nowReal + timerDelay)
      return .ok ⟨firstEdgeNs, primeEdgeNs,
        if timerStart < nowReal then nowReal else timerStart⟩

/-- The wake timer of an arm: after its delay, or at once if that time is out of
range. -/
def wakeFor (real delay : Int) : Int :=
  if toS64 (real + delay) < real then real else toS64 (real + delay)

def wakingAt (time : Int) (block : MmioBlock) : MmioBlock := { block with outputWakeAt := time }

def outputWakeAt (time : Int) : Driver Unit := do
  storeBlock (wakingAt time)
  hrtimerStart time

/-- The common opening of `armOutput` and `armHardwarePeriodic`: stop, fold,
clear the registers and the mode bits. Answers the control value left. -/
def stopForRearm : Driver (BitVec 32) := do
  let ctrl ← readCtl
  writeCtl (ctlWithout ctrl ctlEn)
  hwFlopFold
  writeCompv 0
  writePiv 0
  let ctrl := ctlWithout (ctlWithout ctrl ctlEn) (ctlDir ||| ctlEp ||| ctlPm)
  writeCtl ctrl
  return ctrl

/-- Record the configuration of a primed block. -/
def primed (firstEdgeNs : Int) (highTimeNs lowTimeNs : Nat) (mode : OutputMode)
    (block : MmioBlock) : MmioBlock :=
  { block with
    outputHighTimeNs := highTimeNs
    outputLowTimeNs := lowTimeNs
    outputNextEdge := firstEdgeNs
    outputNextEdgeType := .rise
    outputPhase := if mode = .hardware then .armPeriodic else .firstRising
    outputHwFirstArt := 0
    outputHwPiv := 0 }

def armOutput (firstEdgeNs primeEdgeNs : Int) (highTimeNs lowTimeNs : Nat) (mode : OutputMode) :
    Driver (Except Errno Unit) := do
  let _ ← stopForRearm
  if mode = .hardware then do
    storeBlock (primed firstEdgeNs highTimeNs lowTimeNs mode)
    return .ok ()
  else do
    let edgeBits ← sample fun params _ => outputEdgeBits params.outputPolarity .fall
    let status ← programOutputEdge primeEdgeNs edgeBits
    match status with
    | .error _ => do
      disableOutputHw
      return .error .enodev
    | .ok () => do
      storeBlock (primed firstEdgeNs highTimeNs lowTimeNs mode)
      let ctrl ← readCtl
      writeCtl (ctlWith ctrl ctlEn)
      return .ok ()

/-- A high flop makes the first toggle a fall: it takes the slot one low time
before the requested rise. -/
def selectSlot (flopHigh : Bool) (firstArt highArt lowArt : Nat) : Nat :=
  if flopHigh then
    if firstArt > lowArt then firstArt - lowArt else u64 (firstArt + highArt)
  else firstArt

/-- Push a compare that is already due forward by whole periods. -/
def lateArmGuard (nowArt margin : U64Result) (firstArt periodCycles : Nat) : U64Result :=
  match nowArt, margin with
  | .ok nowArt, .ok margin =>
    if nowArt ≤ u64Max - margin then
      let deadline := nowArt + margin
      if firstArt < deadline then
        let periods := (deadline - firstArt) / periodCycles + 1
        if periods > (u64Max - firstArt) / periodCycles then .error .enodev
        else .ok (firstArt + periods * periodCycles)
      else .ok firstArt
    else .ok firstArt
  | _, _ => .ok firstArt

/-- The interval counts an arm goes by, when they are usable. -/
def armIntervals (firstArt highArt lowArt : U64Result) : Except Errno (Nat × Nat × Nat) :=
  match firstArt, highArt, lowArt with
  | .ok first, .ok high, .ok low =>
    if high = 0 ∨ low = 0 ∨ high > u64Max / 4 ∨ low > u64Max / 4 then .error .enodev
    else .ok (first, high, low)
  | _, _, _ => .error .enodev

/-- Record a free-running waveform. -/
def armed (firstEdgeNs : Int) (highTimeNs lowTimeNs firstArt initialPiv : Nat)
    (block : MmioBlock) : MmioBlock :=
  { block with
    outputHighTimeNs := highTimeNs
    outputLowTimeNs := lowTimeNs
    outputNextEdge := firstEdgeNs
    outputPhase := if highTimeNs ≠ lowTimeNs then .hwDuty else .hardwarePeriodic
    outputHwFirstArt := firstArt
    outputHwPiv := initialPiv
    outputHwCkptCompv := firstArt }

/-- Program and enable the free-running engine at a chosen slot. -/
def startHardwarePeriodic (ctrl : BitVec 32) (firstEdgeNs : Int)
    (highTimeNs lowTimeNs firstArt initialPiv : Nat) : Driver Unit := do
  let ctrl := ctlWith ctrl (ctlEpToggle ||| ctlPm)
  writeCtl ctrl
  writePiv initialPiv
  writeCompv firstArt
  storeBlock (armed firstEdgeNs highTimeNs lowTimeNs firstArt initialPiv)
  writeCtl (ctlWith ctrl ctlEn)
  if highTimeNs ≠ lowTimeNs then do
    let nowReal ← ktimeGetReal
    outputWakeAt (toS64 (nowReal + hwDutyServiceDelayNs))
  else return

def armHardwarePeriodic (firstEdgeNs : Int) (highTimeNs lowTimeNs : Nat) :
    Driver (Except Errno Unit) := do
  let firstArt ← sample fun params clocks => clockNsToCompareArt params clocks firstEdgeNs
  let highArt ← sample fun params clocks => clockDeltaToArtCycles params clocks (toS64 highTimeNs)
  let lowArt ← sample fun params clocks => clockDeltaToArtCycles params clocks (toS64 lowTimeNs)
  match armIntervals firstArt highArt lowArt with
  | .error status => return .error status
  | .ok (firstArt, highArt, lowArt) =>
    let ctrl ← stopForRearm
    mark .slot
    let block ← loadBlock
    let slot := selectSlot block.outputHwFlopHigh firstArt highArt lowArt
    let nowArt ← sample fun _ clocks => getCurrentArt clocks
    let margin ← sample fun params clocks =>
      clockDeltaToArtCycles params clocks (2 * nsecPerMsec : Nat)
    match lateArmGuard nowArt margin slot (highArt + lowArt) with
    | .error status => return .error status
    | .ok firstArt => do
      startHardwarePeriodic ctrl firstEdgeNs highTimeNs lowTimeNs firstArt
        (if block.outputHwFlopHigh then lowArt else highArt)
      return .ok ()

structure HwPhase where
  /-- The next hardware edge, in clock time. -/
  pendingNs : Int
  /-- Its distance from the nearest half-period grid point. -/
  errorNs : Int
  nudgeSafe : Bool
  deriving DecidableEq, Repr

/-- The pending edge in the logical edge-time domain, when it is a live one. -/
def phasePending (pending now : S64Result) (offsetNs gridStartNs : Int) (halfNs : Nat) :
    Except Errno (Int × Int) :=
  match pending, now with
  | .ok pending, .ok now =>
    if now < 0 then .error .erange
    else match addS64 pending (toS64 (-offsetNs)) with
      | .error _ => .error .erange
      | .ok pending =>
        if pending < gridStartNs then .error .erange
        else if pending < toS64 (now - halfNs) ∨ toS64 (pending - now) > (4 * halfNs : Nat) then
          .error .erange
        else .ok (pending, now)
  | _, _ => .error .erange

/-- The signed distance of a pending edge from the nearest grid point. -/
def phaseError (pending gridStartNs : Int) (halfNs : Nat) : Int :=
  let rem := toU64 (pending - gridStartNs) % halfNs
  if rem ≥ halfNs - rem then (rem : Int) - halfNs else rem

/-- Recompute an error in ART cycles, against the compare of the grid edge. -/
def phaseRefine (compv : Nat) (target exact : U64Result) (pending error : Int) : Int × Int :=
  match target, exact with
  | .ok target, .ok exact =>
    if exact ≤ s64Max then
      let e : Int := if compv ≥ target then exact else -(exact : Int)
      (toS64 (pending - error + e), e)
    else (pending, error)
  | _, _ => (pending, error)

def hwPeriodicPhaseGet (gridStartNs : Int) (halfNs : Nat) : Driver (Except Errno HwPhase) := do
  if halfNs = 0 ∨ halfNs > s64Max / 4 ∨ gridStartNs < 0 then return .error .einval
  else do
    let compv ← readCompv
    if compv = 0 ∨ compv > u64Max - artHwDelayCycles then return .error .erange
    else do
      let pending ← sample fun params clocks =>
        clockArtToNs params clocks (compv + artHwDelayCycles)
      let now ← sample clockNowNs
      let offsetNs ← sample fun _ clocks => clocks.outputPhaseOffsetNs
      match phasePending pending now offsetNs gridStartNs halfNs with
      | .error status => return .error status
      | .ok (pending, now) => do
        let error := phaseError pending gridStartNs halfNs
        let usesModel ← sample fun params _ => params.clockUsesModel
        if usesModel then
          return .ok ⟨pending, error, pending ≥ toS64 (now + outputSafeTimeNs)⟩
        else do
          let target ← sample fun params clocks =>
            clockNsToCompareArt params clocks (toS64 (pending - error))
          let exact ← sample fun params clocks => match target with
            | .ok target => clockArtCyclesToDeltaNs params clocks
                (if compv ≥ target then compv - target else target - compv)
            | .error status => .error status
          let (pending, error) := phaseRefine compv target exact pending error
          return .ok ⟨pending, error, pending ≥ toS64 (now + outputSafeTimeNs)⟩

end Tgpio

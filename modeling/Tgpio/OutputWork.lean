import Tgpio.OutputHardware

/-!
# The output reconciler

`outputWork` is the sole writer of an output block and of its timer. It is
queued by the timer and by every publisher; a run takes one snapshot of the
desired configuration and brings the block to it.
-/

namespace Tgpio

open Interference

set_option autoImplicit false

/-- The failure exit of `reconcileArm` and of the software path. -/
def abandonOutput : Driver Unit := do
  mark .giveUp
  hrtimerCancel
  disableOutputHw

def applied (desired : OutputDesired) (block : MmioBlock) : MmioBlock :=
  { block with outputAppliedGen := desired.gen, outputAppliedFreqGen := desired.freqGen }

/-- Full disable, prime and arm cycle against the current clock mapping. -/
def reconcileArm (desired : OutputDesired) : Driver Unit := do
  let timing ← prepareOutputTiming (outputMinIntervalNs desired.highTimeNs desired.lowTimeNs)
    desired.periodNs desired.mode desired.firstEdgeNs
  match timing with
  | .error _ => abandonOutput
  | .ok timing => do
    let status ← armOutput timing.firstEdgeNs timing.primeEdgeNs desired.highTimeNs
      desired.lowTimeNs desired.mode
    match status with
    | .error _ => abandonOutput
    | .ok () => do
      storeBlock (applied desired)
      outputWakeAt timing.timerStart

def checkpointed (compv : Nat) (block : MmioBlock) : MmioBlock :=
  { block with outputHwCkptCompv := compv }

/-- Rewrite the pending compare with the periodic engine paused. -/
def hwPeriodicWriteCompvPaused (compv : Nat) : Driver Unit := do
  let ctrl ← readCtl
  writeCtl (ctlWithout ctrl ctlPm)
  writeCompv compv
  writeCtl ctrl
  storeBlock (checkpointed compv)

def paced (piv : Nat) (block : MmioBlock) : MmioBlock := { block with outputHwPiv := piv }

/-- A hot write of PIV, when its high word does not change. -/
def refreshPiv (piv : U64Result) : Driver Unit := do
  let block ← loadBlock
  match piv with
  | .error _ => return
  | .ok piv =>
    if piv ≠ 0 ∧ piv ≠ block.outputHwPiv ∧ upper32Bits piv = upper32Bits block.outputHwPiv then do
      writePiv piv
      storeBlock (paced piv)
    else return

def edgeAt (time : Int) (block : MmioBlock) : MmioBlock := { block with outputNextEdge := time }

/-- Bring the pending edge back to the grid once it has drifted off. -/
def nudgePhase (desired : OutputDesired) (phase : HwPhase) : Driver Unit := do
  if absS64 phase.errorNs > desired.highTimeNs / 4 then reconcileArm desired
  else do
    let tolerance ← sample fun params clocks =>
      max (toS64 clocks.outputPhaseToleranceNs) (toS64 (outputPhaseNudgeMinNs params clocks))
    if phase.errorNs > -tolerance ∧ phase.errorNs < tolerance then return
    else if ¬phase.nudgeSafe then return
    else do
      let alignedNs := toS64 (phase.pendingNs - phase.errorNs)
      let nudgedArt ← sample fun params clocks => clockNsToCompareArt params clocks alignedNs
      match nudgedArt with
      | .error _ => return
      | .ok nudgedArt => do
        hwPeriodicWriteCompvPaused nudgedArt
        storeBlock (edgeAt alignedNs)

/-- What `hwPeriodicApplyFreq` does after its PIV refresh. -/
def correctPhase (desired : OutputDesired) : Driver Unit := do
  let phase ← hwPeriodicPhaseGet desired.firstEdgeNs desired.highTimeNs
  match phase with
  | .error _ => return
  | .ok phase => nudgePhase desired phase

def hwPeriodicApplyFreq (desired : OutputDesired) : Driver Unit := do
  let block ← loadBlock
  let piv ← sample fun params clocks =>
    clockDeltaToArtCycles params clocks (toS64 block.outputHighTimeNs)
  hwFlopFold
  refreshPiv piv
  correctPhase desired

def drainRounds : Nat → Driver Unit
  | 0 => return
  | rounds + 1 => do
    let block ← loadBlock
    if block.outputHwFlopHigh then do
      msleep 100
      hwFlopFold
      drainRounds rounds
    else return

/-- Let a pending falling edge fire before a stop; give up after 30 rounds. -/
def hwPeriodicDrainLow : Driver Unit := do
  let block ← loadBlock
  if (block.outputPhase ≠ .hardwarePeriodic ∧ block.outputPhase ≠ .hwDuty) ∨
      block.outputHwPiv = 0 then return
  else do
    hwFlopFold
    drainRounds 30

def awaitSafeEdge : Nat → Driver Unit
  | 0 => return
  | rounds + 1 => do
    let block ← loadBlock
    let desired ← outputDesiredGet
    let phase ← hwPeriodicPhaseGet desired.firstEdgeNs block.outputHighTimeNs
    match phase with
    | .error _ => return
    | .ok phase =>
      if phase.nudgeSafe then return
      else do
        msleep 20
        awaitSafeEdge rounds

/-- The half-period shift of `hwPeriodicInvert`. -/
def shiftHalfPeriod : Driver Unit := do
  awaitSafeEdge 50
  hwFlopFold
  let compv ← readCompv
  let block ← loadBlock
  if compv > u64Max - block.outputHwPiv then return
  else hwPeriodicWriteCompvPaused (compv + block.outputHwPiv)

/-- The corrected level belief. -/
def inverted (block : MmioBlock) : MmioBlock :=
  { block with outputHwFlopHigh := !block.outputHwFlopHigh }

def hwPeriodicInvert : Driver Unit := do
  storeBlock inverted
  mark .inverted
  let block ← loadBlock
  if block.outputPhase = .hwDuty then do
    let desired ← outputDesiredGet
    if desired.run = .running then reconcileArm desired
    else return
  else if block.outputPhase ≠ .hardwarePeriodic ∨ block.outputHwPiv = 0 then return
  else shiftHalfPeriod

/-- The next visit of the duty service: just after the pending edge. -/
def dutyWakeDelay (pending now : Int) : Int :=
  let delay := toS64 (pending - now + hwDutyServiceDelayNs)
  if delay < hwDutyServiceDelayNs then hwDutyServiceDelayNs else delay

def hwDutyService : Driver Unit := do
  hwFlopFold
  let block ← loadBlock
  let piv ← sample fun params clocks => clockDeltaToArtCycles params clocks
    (toS64 (if block.outputHwFlopHigh then block.outputLowTimeNs else block.outputHighTimeNs))
  refreshPiv piv
  let compv ← readCompv
  if compv > u64Max - artHwDelayCycles then do
    mark .giveUp
    disableOutputHw
  else do
    let pending ← sample fun _ clocks => clockPhcArtToNs clocks (compv + artHwDelayCycles)
    let now ← sample clockNowNs
    match pending, now with
    | .ok pending, .ok now => do
      let delayReal ← sample fun params clocks =>
        clockDeltaToRealNs params clocks (dutyWakeDelay pending now)
      let nowReal ← ktimeGetReal
      match delayReal with
      | .error _ => outputWakeAt (toS64 (nowReal + (100 * nsecPerMsec : Nat)))
      | .ok delayReal => outputWakeAt (toS64 (nowReal + delayReal))
    | _, _ => do
      let nowReal ← ktimeGetReal
      outputWakeAt (toS64 (nowReal + (100 * nsecPerMsec : Nat)))

def outputOppositeEdge : LogicalEdge → LogicalEdge
  | .rise => .fall
  | .fall => .rise

def outputIntervalAfterEdge (block : MmioBlock) (edge : LogicalEdge) : Nat :=
  if edge = .rise then block.outputHighTimeNs else block.outputLowTimeNs

/-- Record a programmed software edge. -/
def advanced (block : MmioBlock) : MmioBlock :=
  { block with
    outputNextEdge := toS64 (block.outputNextEdge +
      outputIntervalAfterEdge block block.outputNextEdgeType)
    outputNextEdgeType := outputOppositeEdge block.outputNextEdgeType
    outputPhase := .toggle }

def softwareEdge : Driver Unit := do
  let block ← loadBlock
  let edgeBits ← sample fun params _ =>
    if params.softwareRearmToggle then ctlEpToggle
    else outputEdgeBits params.outputPolarity block.outputNextEdgeType
  let interval ← sample fun params clocks => clockDeltaToRealNs params clocks
    (toS64 (outputIntervalAfterEdge block block.outputNextEdgeType))
  let status ← programOutputEdge block.outputNextEdge edgeBits
  match status, interval with
  | .ok (), .ok interval =>
    if interval = 0 then abandonOutput
    else do
      storeBlock advanced
      outputWakeAt (toS64 (block.outputWakeAt + interval))
  | _, _ => abandonOutput

/-- The part of `outputWork` that serves an unchanged configuration. -/
def serviceEdge : Driver Unit := do
  let block ← loadBlock
  match block.outputPhase with
  | .armPeriodic => do
    let status ← armHardwarePeriodic block.outputNextEdge block.outputHighTimeNs
      block.outputLowTimeNs
    match status with
    | .ok () => return
    | .error _ => do
      mark .giveUp
      disableOutputHw
  | .hwDuty => hwDutyService
  | .hardwarePeriodic => return
  | .firstRising => softwareEdge
  | .toggle => softwareEdge

def appliedFreq (desired : OutputDesired) (block : MmioBlock) : MmioBlock :=
  { block with outputAppliedFreqGen := desired.freqGen }

/-- A frequency change first, then the edge. -/
def serviceOutput (desired : OutputDesired) : Driver Unit := do
  let block ← loadBlock
  if desired.freqGen ≠ block.outputAppliedFreqGen then do
    storeBlock (appliedFreq desired)
    match block.outputPhase with
    | .hardwarePeriodic => hwPeriodicApplyFreq desired
    | .hwDuty => return
    | .armPeriodic => do
      let nowReal ← ktimeGetReal
      if nowReal < block.outputWakeAt then return
      else serviceEdge
    | .firstRising => serviceEdge
    | .toggle => serviceEdge
  else serviceEdge

def appliedFlip (desired : OutputDesired) (block : MmioBlock) : MmioBlock :=
  { block with outputAppliedFlipGen := desired.flipGen }

def applyFlip (desired : OutputDesired) : Driver Unit := do
  let block ← loadBlock
  if (desired.flipGen - block.outputAppliedFlipGen).getLsbD 0 then hwPeriodicInvert
  else pure ()
  storeBlock (appliedFlip desired)

def stopOutput : Driver Unit := do
  hrtimerCancel
  hwPeriodicDrainLow
  disableOutputHw

def outputWork : Driver Unit := do
  let desired ← outputDesiredGet
  if desired.run = .stopped then stopOutput
  else do
    applyFlip desired
    let block ← loadBlock
    if desired.gen ≠ block.outputAppliedGen then reconcileArm desired
    else serviceOutput desired

/-- Every publisher updates `output_desired` in one step and then, if it did,
calls `schedule_work`. -/
def publishAndSchedule (request : Publish) : Driver Unit := do
  let changed ← publish request
  if changed then scheduleWork
  else return

def disableOutput : Driver Unit := publishAndSchedule .disable

def outputPublish (run : OutputRun) (mode : OutputMode) (periodNs highTimeNs lowTimeNs : Nat)
    (firstEdgeNs : Int) : Driver Unit :=
  publishAndSchedule (.configure run mode periodNs highTimeNs lowTimeNs firstEdgeNs)

/-- One block of `tgpio_resync_outputs_after_phc_step`. -/
def resyncOutputAfterPhcStep : Driver Unit := publishAndSchedule .resync

/-- One block of `tgpio_update_outputs_after_phc_freq`. -/
def updateOutputAfterPhcFreq : Driver Unit := publishAndSchedule .freq

/-- An accepted write to the invert file. -/
def outputInvertWrite : Driver Unit := publishAndSchedule .flip

/-- One block of `tgpio_disable_outputs`. -/
def disableOutputs (mapped : Bool) : Driver Unit := do
  let _ ← publish .disable
  cancelOneshotStopSync
  hrtimerCancel
  cancelWorkSync
  hrtimerCancel
  cancelWorkSync
  if mapped then do
    hwPeriodicDrainLow
    disableOutputHw
  else return

end Tgpio

import Tgpio.LevelParity
import Tgpio.OutputAlone

/-!
# What a tick leaves

While a refine tick refreshes a running output, nobody else is at its block. What
it measures is then a function of the compare value and the clocks, and it leaves
the pending edge alone, writes it another compare value, or sends the block back
to be armed. An arm is known from the state it starts in as well.
-/

namespace Tgpio

open Interference Interference.Prog

set_option autoImplicit false

/-- Nothing happens to the block or its clocks while a tick runs, and nothing is
requested. -/
structure DuringTick (s t : Machine) : Prop where
  block : t.block = s.block
  regs : t.regs = s.regs
  flop : t.flop = s.flop
  params : t.params = s.params
  clocks : t.clocks = s.clocks
  desired : t.desired = s.desired

abbrev tickSem : Semantics Op Op.Resp Machine := driverSem DuringTick

abbrev standingStill : Handler Op Op.Resp Machine := Machine.waiting fun _ m => some m

def tickPhase (desired : OutputDesired) : Driver (Except Errno HwPhase) := do
  let block ← loadBlock
  let piv ← sample fun params clocks =>
    clockDeltaToArtCycles params clocks (toS64 block.outputHighTimeNs)
  hwFlopFold
  refreshPiv piv
  hwPeriodicPhaseGet desired.firstEdgeNs desired.highTimeNs

theorem apply_freq_eq (desired : OutputDesired) : hwPeriodicApplyFreq desired = (do
    let phase ← tickPhase desired
    match phase with
    | .error _ => return
    | .ok phase => nudgePhase desired phase) := by
  have regroup (answer : Except Errno HwPhase → Driver Unit) :
      Prog.bind (tickPhase desired) answer = (do
        let block ← loadBlock
        let piv ← sample fun params clocks =>
          clockDeltaToArtCycles params clocks (toS64 block.outputHighTimeNs)
        hwFlopFold
        refreshPiv piv
        Prog.bind (hwPeriodicPhaseGet desired.firstEdgeNs desired.highTimeNs) answer) := by
    simp only [tickPhase, bind_def, bind_assoc]
  exact (regroup _).symm

def pointDistance (params : Params) (clocks : Clocks) (compv : Nat) (target : U64Result) :
    NsResult :=
  match target with
  | .ok target => clockArtCyclesToDeltaNs params clocks
      (if compv ≥ target then compv - target else target - compv)
  | .error status => .error status

def gridPhase (params : Params) (clocks : Clocks) (gridStartNs : Int) (halfNs compv : Nat) :
    Except Errno HwPhase :=
  if halfNs = 0 ∨ halfNs > s64Max / 4 ∨ gridStartNs < 0 then .error .einval
  else if compv = 0 ∨ compv > u64Max - artHwDelayCycles then .error .erange
  else match phasePending (clockArtToNs params clocks (compv + artHwDelayCycles))
      (clockNowNs params clocks) clocks.outputPhaseOffsetNs gridStartNs halfNs with
    | .error status => .error status
    | .ok (pending, now) =>
      let error := phaseError pending gridStartNs halfNs
      let target := clockNsToCompareArt params clocks (toS64 (pending - error))
      let (pending, error) :=
        if params.clockUsesModel then (pending, error)
        else phaseRefine compv target (pointDistance params clocks compv target) pending error
      .ok ⟨pending, error, pending ≥ toS64 (now + outputSafeTimeNs)⟩

def deadband (params : Params) (clocks : Clocks) : Int :=
  max (toS64 clocks.outputPhaseToleranceNs) (toS64 (outputPhaseNudgeMinNs params clocks))

/-- The nearest point of the grid, in 64 bits as the driver has it. -/
def HwPhase.aligned (phase : HwPhase) : Int := toS64 (phase.pendingNs - phase.errorNs)

/-- The compare value that a tick writes for a phase it does not arm again for. -/
def tickTarget (params : Params) (clocks : Clocks) (phase : HwPhase) : Option Nat :=
  if phase.errorNs > -deadband params clocks ∧ phase.errorNs < deadband params clocks then none
  else if ¬phase.nudgeSafe then none
  else match clockNsToCompareArt params clocks (toS64 (phase.pendingNs - phase.errorNs)) with
    | .error _ => none
    | .ok target => some target

theorem tick_target_some {params : Params} {clocks : Clocks} {phase : HwPhase}
    {target : Nat} (wants : tickTarget params clocks phase = some target) :
    phase.nudgeSafe = true ∧ clockNsToCompareArt params clocks phase.aligned = .ok target := by
  unfold tickTarget at wants
  split at wants
  · contradiction
  · split at wants
    · contradiction
    next safe =>
      cases converted : clockNsToCompareArt params clocks
          (toS64 (phase.pendingNs - phase.errorNs)) with
      | error status =>
          rw [converted] at wants
          contradiction
      | ok art =>
          rw [converted] at wants
          cases wants
          exact ⟨by simpa using safe, converted⟩

/-- The interval after a refresh: PIV is left as it is where its high word would
change. -/
def recounted (piv : U64Result) (old : Nat) : Nat :=
  match piv with
  | .error _ => old
  | .ok piv => if piv ≠ 0 ∧ upper32Bits piv = upper32Bits old then piv else old

theorem recounted_fits {piv : U64Result} {old : Nat} (positive : old ≠ 0) (fits : old < 2 ^ 64)
    (counted : ∀ cycles, piv = .ok cycles → cycles < 2 ^ 64) :
    recounted piv old ≠ 0 ∧ recounted piv old < 2 ^ 64 := by
  unfold recounted
  split
  · exact ⟨positive, fits⟩
  · split
    next usable => exact ⟨usable.1, counted _ rfl⟩
    next => exact ⟨positive, fits⟩

section alone

variable {α : Type} {program : Driver α} {s t : Machine} {value : α}

/-- A tick goes by what stands still; the timer callback is done when it has to
be waited for. -/
theorem work_alike {op : Op} {s s' t : Machine} {reply : op.Resp} (work : op.ofWork)
    (alike : DuringTick s s' ∧ s'.timerFiring = false)
    (step : Machine.perform op s = some (reply, t)) :
    ∃ t', Machine.perform op s' = some (reply, t') ∧ DuringTick t t' ∧ t'.timerFiring = false := by
  obtain ⟨⟨block, regs, flop, params, clocks, desired⟩, firing⟩ := alike
  cases op with
  | readl reg =>
      cases step
      refine ⟨s'.readReg reg, by rw [← regs]; rfl, ?_⟩
      cases reg <;> exact ⟨⟨block, regs, flop, params, clocks, desired⟩, firing⟩
  | writel reg written =>
      cases step
      refine ⟨s'.writeReg reg written, rfl, ?_⟩
      have values : s'.regs.write reg written = s.regs.write reg written := by rw [regs]
      cases reg <;> exact ⟨⟨block, values, flop, params, clocks, desired⟩, firing⟩
  | load =>
      cases step
      exact ⟨s', by rw [← block]; rfl, ⟨block, regs, flop, params, clocks, desired⟩, firing⟩
  | store update =>
      cases step
      exact ⟨_, rfl, ⟨congrArg update block, regs, flop, params, clocks, desired⟩, firing⟩
  | outputDesiredGet =>
      cases step
      exact ⟨s', by rw [← desired]; rfl, ⟨block, regs, flop, params, clocks, desired⟩, firing⟩
  | sample β read =>
      cases step
      exact ⟨s', by rw [← params, ← clocks]; rfl, ⟨block, regs, flop, params, clocks, desired⟩,
        firing⟩
  | ktimeGetReal =>
      cases step
      exact ⟨s', by rw [← clocks]; rfl, ⟨block, regs, flop, params, clocks, desired⟩, firing⟩
  | hrtimerStart expires =>
      cases step
      exact ⟨_, rfl, ⟨block, regs, flop, params, clocks, desired⟩, firing⟩
  | hrtimerCancel =>
      simp only [Machine.perform] at step
      split at step
      · contradiction
      · cases step
        exact ⟨{ s' with timerArmed := false }, by simp [Machine.perform, firing],
          ⟨block, regs, flop, params, clocks, desired⟩, firing⟩
  | msleep msecs =>
      cases step
      exact ⟨s', rfl, ⟨block, regs, flop, params, clocks, desired⟩, firing⟩
  | mark point =>
      cases step
      refine ⟨s'.mark point, rfl, ?_⟩
      cases point <;> exact ⟨⟨block, regs, flop, params, clocks, desired⟩, firing⟩
  | _ => exact work.elim

theorem tick_ends {pre : Machine → Prop} {post : α → Machine → Prop}
    (uses : Uses Op.ofWork program)
    (achieves : Achieves standingStill pre program post)
    (holds : pre { s with timerFiring := false })
    (run : Executes tickSem program s value t) : ∃ t', post value t' ∧ DuringTick t t' := by
  have still (r r' u : Machine) (step : DuringTick r r')
      (alike : DuringTick r u ∧ u.timerFiring = false) :
      DuringTick r' u ∧ u.timerFiring = false := by
    obtain ⟨⟨block, regs, flop, params, clocks, desired⟩, firing⟩ := alike
    exact ⟨⟨block.trans step.block.symm, regs.trans step.regs.symm, flop.trans step.flop.symm,
      params.trans step.params.symm, clocks.trans step.clocks.symm,
      desired.trans step.desired.symm⟩, firing⟩
  have performs : standingStill = Machine.perform := waiting_still
  rw [performs] at achieves
  have answers (op : Op) (r u : Machine) (reply : op.Resp) (r' : Machine) (work : op.ofWork)
      (alike : DuringTick r u ∧ u.timerFiring = false) (step : tickSem.step op r reply r') :=
    work_alike work alike step
  have begins : DuringTick s { s with timerFiring := false } ∧
      { s with timerFiring := false }.timerFiring = false :=
    ⟨⟨rfl, rfl, rfl, rfl, rfl, rfl⟩, rfl⟩
  obtain ⟨t', ran, alike⟩ := run.undisturbed still answers uses begins
  exact ⟨t', achieves.every holds ran, alike.1⟩

theorem tick_clocks (uses : Uses Op.ofWork program) (run : Executes tickSem program s value t) :
    t.params = s.params ∧ t.clocks = s.clocks := by
  have stable : Stable tickSem fun m => m.params = s.params ∧ m.clocks = s.clocks :=
    fun _ _ during holds => ⟨during.params.trans holds.1, during.clocks.trans holds.2⟩
  have kept : Triple tickSem (fun m => m.params = s.params ∧ m.clocks = s.clocks) program
      fun _ m => m.params = s.params ∧ m.clocks = s.clocks := by
    refine fun _ holds => wp_uses uses (fun op s reply t work step holds => ?_) stable holds
    rw [of_work_frame work step]
    exact holds
  exact kept.ends ⟨rfl, rfl⟩ run

end alone

section achieving

variable {block : MmioBlock} {regs : Regs} {flop : Bool} {params : Params} {clocks : Clocks}
  {desired : OutputDesired}

theorem achieves_phase_get (gridStartNs : Int) (halfNs : Nat) :
    Achieves standingStill (Standing block regs flop params clocks)
      (hwPeriodicPhaseGet gridStartNs halfNs)
      fun answer m => answer = gridPhase params clocks gridStartNs halfNs regs.compv.toNat ∧
        Standing block regs flop params clocks m := by
  unfold hwPeriodicPhaseGet gridPhase
  split
  · exact Achieves.pure fun m standing => ⟨rfl, standing⟩
  refine Achieves.bind_known achieves_read_compv ?_
  split
  · exact Achieves.pure fun m standing => ⟨rfl, standing⟩
  refine Achieves.bind_known (achieves_sample _) ?_
  refine Achieves.bind_known (achieves_sample _) ?_
  refine Achieves.bind_known (achieves_sample _) ?_
  dsimp only
  cases phasePending (clockArtToNs params clocks (regs.compv.toNat + artHwDelayCycles))
      (clockNowNs params clocks) clocks.outputPhaseOffsetNs gridStartNs halfNs with
  | error status => exact Achieves.pure fun m standing => ⟨rfl, standing⟩
  | ok measured =>
      refine Achieves.bind_known (achieves_sample _) ?_
      split
      · exact Achieves.pure fun m standing => ⟨rfl, standing⟩
      refine Achieves.bind_known (achieves_sample _) ?_
      refine Achieves.bind_known (achieves_sample _) ?_
      exact Achieves.pure fun m standing => ⟨rfl, standing⟩

theorem achieves_refresh_piv (piv : U64Result) (same : regs.piv = BitVec.ofNat 64 block.outputHwPiv) :
    Achieves standingStill (Standing block regs flop params clocks) (refreshPiv piv)
      fun _ => Standing (paced (recounted piv block.outputHwPiv) block)
        { regs with piv := BitVec.ofNat 64 (recounted piv block.outputHwPiv) } flop params
        clocks := by
  have left (m : Machine) (kept : recounted piv block.outputHwPiv = block.outputHwPiv)
      (standing : Standing block regs flop params clocks m) :
      Standing (paced (recounted piv block.outputHwPiv) block)
        { regs with piv := BitVec.ofNat 64 (recounted piv block.outputHwPiv) } flop params
        clocks m := by
    rw [kept, ← same]
    exact standing
  refine Achieves.bind_known achieves_load ?_
  cases piv with
  | error status => exact Achieves.pure fun m standing => left m rfl standing
  | ok piv =>
      dsimp only
      split
      next rewrites =>
        have written : recounted (.ok piv) block.outputHwPiv = piv :=
          if_pos ⟨rewrites.1, rewrites.2.2⟩
        rw [written]
        exact Achieves.bind (achieves_write_piv piv) fun _ => achieves_store _
      next keeps =>
        have kept : recounted (.ok piv) block.outputHwPiv = block.outputHwPiv := by
          unfold recounted
          dsimp only
          split
          next usable => exact not_not.mp fun differs => keeps ⟨usable.1, differs, usable.2⟩
          next => rfl
        exact Achieves.pure fun m standing => left m kept standing

theorem achieves_tick_phase
    (same : regs.piv = BitVec.ofNat 64 (folded regs.compv.toNat block).outputHwPiv) :
    let piv := recounted (clockDeltaToArtCycles params clocks (toS64 block.outputHighTimeNs))
      (folded regs.compv.toNat block).outputHwPiv
    Achieves standingStill (Standing block regs flop params clocks) (tickPhase desired)
      fun answer m => answer = gridPhase params clocks desired.firstEdgeNs desired.highTimeNs
          regs.compv.toNat ∧
        Standing (paced piv (folded regs.compv.toNat block))
          { regs with piv := BitVec.ofNat 64 piv } flop params clocks m := by
  intro piv
  refine Achieves.bind_known achieves_load ?_
  refine Achieves.bind_known (achieves_sample _) ?_
  refine Achieves.bind achieves_fold fun _ => ?_
  refine Achieves.bind (achieves_refresh_piv _ same) fun _ => ?_
  exact achieves_phase_get _ _

theorem achieves_write_compv_paused (compv : Nat) :
    Achieves standingStill (Standing block regs flop params clocks)
      (hwPeriodicWriteCompvPaused compv) fun _ => Standing (checkpointed compv block)
        { regs with compv := BitVec.ofNat 64 compv } flop params clocks := by
  refine Achieves.bind_known (achieves_readl .ctl) ?_
  refine Achieves.bind (achieves_writel .ctl _) fun _ => ?_
  refine Achieves.bind (achieves_write_compv compv) fun _ => ?_
  refine Achieves.bind (achieves_writel .ctl _) fun _ => ?_
  exact achieves_store _

theorem achieves_nudge {phase : HwPhase} (near : ¬absS64 phase.errorNs > desired.highTimeNs / 4) :
    Achieves standingStill (Standing block regs flop params clocks) (nudgePhase desired phase)
      fun _ m => match tickTarget params clocks phase with
        | none => Standing block regs flop params clocks m
        | some target =>
            Standing (edgeAt (toS64 (phase.pendingNs - phase.errorNs)) (checkpointed target block))
              { regs with compv := BitVec.ofNat 64 target } flop params clocks m := by
  unfold nudgePhase
  rw [if_neg near]
  refine Achieves.bind_known (achieves_sample _) ?_
  change Achieves _ _ (if phase.errorNs > -deadband params clocks ∧
    phase.errorNs < deadband params clocks then _ else _) _
  unfold tickTarget
  split
  · exact Achieves.pure fun _ standing => standing
  split
  · exact Achieves.pure fun _ standing => standing
  refine Achieves.bind_known (achieves_sample _) ?_
  cases clockNsToCompareArt params clocks (toS64 (phase.pendingNs - phase.errorNs)) with
  | error status => exact Achieves.pure fun _ standing => standing
  | ok target => exact Achieves.bind (achieves_write_compv_paused target) fun _ => achieves_store _

/-- A block that is off, and is armed again, if at all, for the request. -/
structure SentBack (desired : OutputDesired) (flopHigh flop : Bool) (params : Params)
    (clocks : Clocks) (m : Machine) : Prop where
  due : m.block.outputPhase = .armPeriodic →
    m.block.outputHighTimeNs = desired.highTimeNs ∧ m.block.outputLowTimeNs = desired.lowTimeNs ∧
      ∃ timing : OutputTiming, m.block.outputNextEdge = timing.firstEdgeNs ∧
        preparedTiming params clocks (outputMinIntervalNs desired.highTimeNs desired.lowTimeNs)
          desired.periodNs desired.mode desired.firstEdgeNs = .ok timing
  off : m.freeRunning = false
  idle : m.block.outputHwPiv = 0
  mirror : m.block.outputHwFlopHigh = flopHigh
  level : m.flop = flop
  params : m.params = params
  clocks : m.clocks = clocks

theorem achieves_abandon :
    Achieves standingStill
      (fun m => Standing block regs flop params clocks m ∧ m.timerFiring = false) abandonOutput
      fun _ => Standing (halted (folded regs.compv.toNat block))
        (clearedRegs (ctlWithout regs.ctl (ctlEn ||| ctlPm))) flop params clocks := by
  have gives : Achieves standingStill
      (fun m => Standing block regs flop params clocks m ∧ m.timerFiring = false) (mark .giveUp)
      fun _ m => Standing block regs flop params clocks m ∧ m.timerFiring = false :=
    Achieves.call fun m known => ⟨(), m, rfl, known⟩
  have cancels : Achieves standingStill
      (fun m => Standing block regs flop params clocks m ∧ m.timerFiring = false) hrtimerCancel
      fun _ => Standing block regs flop params clocks := by
    refine Achieves.call fun m known => ⟨(), { m with timerArmed := false }, ?_, ?_⟩
    · change (if m.timerFiring then none else _) = _
      rw [if_neg (by simp [known.2])]
    · exact ⟨known.1.block, known.1.regs, known.1.flop, known.1.params, known.1.clocks⟩
  refine Achieves.bind gives fun _ => ?_
  exact Achieves.bind cancels fun _ => achieves_disable

theorem not_firing_kept (op : Op) (s : Machine) (reply : op.Resp) (t : Machine) (work : op.ofWork)
    (step : standingStill op s = some (reply, t)) (off : s.timerFiring = false) :
    t.timerFiring = false := by
  have performs : standingStill = Machine.perform := waiting_still
  rw [performs] at step
  rw [of_work_frame work step]
  exact off

theorem achieves_send_back (hardware : desired.mode = .hardware) :
    Achieves standingStill
      (fun m => Standing block regs flop params clocks m ∧ m.timerFiring = false)
      (reconcileArm desired)
      fun _ => SentBack desired (folded regs.compv.toNat block).outputHwFlopHigh flop params
        clocks := by
  cases prepared : preparedTiming params clocks (outputMinIntervalNs desired.highTimeNs
      desired.lowTimeNs) desired.periodNs desired.mode desired.firstEdgeNs with
  | ok timing =>
      have primes := @achieves_reconcile (fun _ m => some m) block regs flop params clocks desired
        timing hardware prepared
      rintro m ⟨standing, -⟩
      obtain ⟨done, t, ran, ends, -⟩ := primes m standing
      refine ⟨done, t, ran, ?_⟩
      obtain ⟨isBlock, isRegs, isFlop, isParams, isClocks⟩ := ends
      refine ⟨fun _ => ⟨?_, ?_, timing, ?_, prepared⟩, ?_, ?_, ?_, isFlop, isParams, isClocks⟩
      · rw [isBlock]
        rfl
      · rw [isBlock]
        rfl
      · rw [isBlock]
        rfl
      · rw [Machine.freeRunning, isRegs]
        exact cleared_running _ (by simp [rearmCtl])
      · rw [isBlock]
        rfl
      · rw [isBlock]
        rfl
  | error status =>
      have prepares := (@achieves_prepare (fun _ m => some m) block regs flop params clocks
        (outputMinIntervalNs desired.highTimeNs desired.lowTimeNs) desired.periodNs desired.mode
        desired.firstEdgeNs).keeping not_firing_kept
          (prepare_output_timing_uses of_work_working.toReading _ _ _ _)
      rw [prepared] at prepares
      have failed := prepares.post fun _ m known =>
        (⟨known.1.1, known.1.2, known.2⟩ : _ ∧ Standing block regs flop params clocks m ∧ _)
      refine Achieves.bind_known failed (achieves_abandon.post fun _ m ends => ?_)
      obtain ⟨isBlock, isRegs, isFlop, isParams, isClocks⟩ := ends
      refine ⟨fun armed => ?_, ?_, ?_, ?_, isFlop, isParams, isClocks⟩
      · rw [isBlock] at armed
        contradiction
      · rw [Machine.freeRunning, isRegs]
        exact cleared_running _ (by simp)
      · rw [isBlock]
        rfl
      · rw [isBlock]
        rfl

theorem tick_phase_of_work : Uses Op.ofWork (tickPhase desired) := by
  have working := of_work_working
  refine Uses.seq ((uses_perform _).mpr working.load) fun block => ?_
  refine Uses.seq ((uses_perform _).mpr (working.sample _ _)) fun piv => ?_
  refine Uses.seq (hw_flop_fold_uses working.toFolding) fun _ => ?_
  refine Uses.seq (refresh_piv_uses working.toRewriting _) fun _ => ?_
  exact hw_periodic_phase_get_uses working.toReading _ _

/-- What a tick leaves of a block with the interval `piv`, by what it has measured. -/
def TickLeaves (desired : OutputDesired) (block : MmioBlock) (regs : Regs) (flop : Bool)
    (params : Params) (clocks : Clocks) (m : Machine) : Prop :=
  match gridPhase params clocks desired.firstEdgeNs desired.highTimeNs regs.compv.toNat with
  | .error _ => Standing block regs flop params clocks m
  | .ok phase =>
    if absS64 phase.errorNs > desired.highTimeNs / 4 then
      SentBack desired (folded regs.compv.toNat block).outputHwFlopHigh flop params clocks m
    else match tickTarget params clocks phase with
      | none => Standing block regs flop params clocks m
      | some target =>
          Standing (edgeAt (toS64 (phase.pendingNs - phase.errorNs)) (checkpointed target block))
            { regs with compv := BitVec.ofNat 64 target } flop params clocks m

theorem achieves_apply_freq (hardware : desired.mode = .hardware)
    (same : regs.piv = BitVec.ofNat 64 (folded regs.compv.toNat block).outputHwPiv) :
    let piv := recounted (clockDeltaToArtCycles params clocks (toS64 block.outputHighTimeNs))
      (folded regs.compv.toNat block).outputHwPiv
    Achieves standingStill
      (fun m => Standing block regs flop params clocks m ∧ m.timerFiring = false)
      (hwPeriodicApplyFreq desired)
      fun _ => TickLeaves desired (paced piv (folded regs.compv.toNat block))
        { regs with piv := BitVec.ofNat 64 piv } flop params clocks := by
  intro piv
  rw [apply_freq_eq]
  have measures := (@achieves_tick_phase block regs flop params clocks desired same).keeping
    not_firing_kept tick_phase_of_work
  have known := measures.post fun _ m ends =>
    (⟨ends.1.1, ends.1.2, ends.2⟩ : _ ∧ Standing _ _ flop params clocks m ∧ _)
  refine Achieves.bind_known known ?_
  unfold TickLeaves
  dsimp only
  cases gridPhase params clocks desired.firstEdgeNs desired.highTimeNs regs.compv.toNat with
  | error status => exact Achieves.pure fun _ standing => standing.1
  | ok phase =>
      dsimp only
      split
      next far =>
        have sends := @achieves_send_back (paced piv (folded regs.compv.toNat block))
          { regs with piv := BitVec.ofNat 64 piv } flop params clocks desired hardware
        unfold nudgePhase
        rw [if_pos far]
        exact sends
      next near =>
        rintro m ⟨standing, -⟩
        exact achieves_nudge near m standing

theorem Standing.before {s t : Machine} (standing : Standing block regs flop params clocks t)
    (same : DuringTick s t) : Standing block regs flop params clocks s :=
  ⟨same.block.symm.trans standing.block, same.regs.symm.trans standing.regs,
    same.flop.symm.trans standing.flop, same.params.symm.trans standing.params,
    same.clocks.symm.trans standing.clocks⟩

theorem TickLeaves.before {s t : Machine}
    (leaves : TickLeaves desired block regs flop params clocks t) (same : DuringTick s t) :
    TickLeaves desired block regs flop params clocks s := by
  unfold TickLeaves at *
  split
  next failed =>
    rw [failed] at leaves
    exact leaves.before same
  next phase measured =>
    rw [measured] at leaves
    dsimp only at leaves
    split
    next far =>
      rw [if_pos far] at leaves
      obtain ⟨due, off, idle, mirror, level, isParams, isClocks⟩ := leaves
      rw [same.block] at due idle mirror
      rw [Machine.freeRunning, same.regs] at off
      exact ⟨due, off, idle, mirror, same.flop.symm.trans level, same.params.symm.trans isParams,
        same.clocks.symm.trans isClocks⟩
    next near =>
      rw [if_neg near] at leaves
      split
      next none_ =>
        rw [none_] at leaves
        exact leaves.before same
      next target some_ =>
        rw [some_] at leaves
        exact leaves.before same

theorem achieves_arm (firstEdgeNs : Int) (halfNs : Nat) :
    Achieves standingStill (Standing block regs flop params clocks)
      (armHardwarePeriodic firstEdgeNs halfNs halfNs) fun status m => status = .ok () →
        ∃ first cycles picked, clockNsToCompareArt params clocks firstEdgeNs = .ok first ∧
          clockDeltaToArtCycles params clocks (toS64 halfNs) = .ok cycles ∧
          cycles ≠ 0 ∧ cycles ≤ u64Max / 4 ∧
          lateArmGuard (getCurrentArt clocks)
            (clockDeltaToArtCycles params clocks (2 * nsecPerMsec : Nat))
            (selectSlot (folded regs.compv.toNat block).outputHwFlopHigh first cycles cycles)
            (cycles + cycles) = .ok picked ∧
          Standing (armed firstEdgeNs halfNs halfNs picked cycles (folded regs.compv.toNat block))
            ⟨ctlWith (ctlWith (rearmCtl regs.ctl) (ctlEpToggle ||| ctlPm)) ctlEn,
              BitVec.ofNat 64 picked, BitVec.ofNat 64 cycles⟩ flop params clocks m := by
  refine Achieves.bind_known (achieves_sample _) ?_
  refine Achieves.bind_known (achieves_sample _) ?_
  refine Achieves.bind_known (achieves_sample _) ?_
  cases usable : armIntervals (clockNsToCompareArt params clocks firstEdgeNs)
      (clockDeltaToArtCycles params clocks (toS64 halfNs))
      (clockDeltaToArtCycles params clocks (toS64 halfNs)) with
  | error status => exact Achieves.pure fun _ _ => nofun
  | ok intervals =>
      obtain ⟨first, cycles, low⟩ := intervals
      obtain ⟨isFirst, isHigh, isLow, positive, -, bound, -⟩ := pick_intervals usable
      obtain rfl : cycles = low := Except.ok.inj (isHigh.symm.trans isLow)
      refine Achieves.bind_known achieves_stop_for_rearm ?_
      refine Achieves.bind (achieves_mark .slot) fun _ => ?_
      refine Achieves.bind_known achieves_load ?_
      refine Achieves.bind_known (achieves_sample _) ?_
      refine Achieves.bind_known (achieves_sample _) ?_
      cases guarded : lateArmGuard (getCurrentArt clocks)
          (clockDeltaToArtCycles params clocks (2 * nsecPerMsec : Nat))
          (selectSlot (folded regs.compv.toNat block).outputHwFlopHigh first cycles cycles)
          (cycles + cycles) with
      | error status => exact Achieves.pure fun _ _ => nofun
      | ok picked =>
          refine Achieves.bind (achieves_start_periodic _ _ _ _ _) fun _ => ?_
          refine Achieves.pure fun m standing _ => ?_
          rw [ite_self] at standing
          exact ⟨first, cycles, picked, isFirst, isHigh, positive, bound, guarded, standing⟩

end achieving

end Tgpio

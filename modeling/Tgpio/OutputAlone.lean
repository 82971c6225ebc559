import Tgpio.LevelTracking
import Tgpio.Interference.Alone

/-!
# The block, left alone

What a sequence does when nothing happens between its accesses: each answers at
once, and time passes in a sleep only. The state is then known in full after
each access, and a sequence runs to its end.
-/

namespace Tgpio

open Interference Interference.Prog

set_option autoImplicit false

/-- The accesses, where a sleep does `sleep` to the machine. -/
def Machine.waiting (sleep : Nat → Machine → Option Machine) : Handler Op Op.Resp Machine
  | .msleep msecs, m => (sleep msecs m).map fun m' => ((), m')
  | op, m => m.perform op

theorem waiting_still : Machine.waiting (fun _ m => some m) = Machine.perform := by
  funext op m
  cases op <;> rfl

section alone

variable {sleep : Nat → Machine → Option Machine} {block : MmioBlock} {regs : Regs} {flop : Bool}
  {params : Params} {clocks : Clocks} {α : Type}

structure Standing (block : MmioBlock) (regs : Regs) (flop : Bool) (params : Params)
    (clocks : Clocks) (m : Machine) : Prop where
  block : m.block = block
  regs : m.regs = regs
  flop : m.flop = flop
  params : m.params = params
  clocks : m.clocks = clocks

theorem achieves_writel (reg : Reg) (value : BitVec 32) :
    Achieves (Machine.waiting sleep) (Standing block regs flop params clocks) (writel reg value)
      fun _ => Standing block (regs.write reg value) flop params clocks := by
  apply Achieves.call
  intro m standing
  refine ⟨(), m.writeReg reg value, rfl, ?_⟩
  have parts := m.write_reg_parts reg value
  have rest : (m.writeReg reg value).params = m.params ∧
      (m.writeReg reg value).clocks = m.clocks := by
    cases reg <;> exact ⟨rfl, rfl⟩
  exact ⟨parts.1.trans standing.block, by rw [parts.2.1, standing.regs],
    parts.2.2.trans standing.flop, rest.1.trans standing.params, rest.2.trans standing.clocks⟩

theorem achieves_store (update : MmioBlock → MmioBlock) :
    Achieves (Machine.waiting sleep) (Standing block regs flop params clocks) (storeBlock update)
      fun _ => Standing (update block) regs flop params clocks := by
  apply Achieves.call
  intro m standing
  exact ⟨(), _, rfl, congrArg update standing.block, standing.regs, standing.flop, standing.params,
    standing.clocks⟩

theorem achieves_look {op : Op} {reply : op.Resp}
    (answers : ∀ m, Standing block regs flop params clocks m →
      ∃ m', Machine.waiting sleep op m = some (reply, m') ∧ m'.block = m.block ∧ m'.regs = m.regs ∧
        m'.flop = m.flop ∧ m'.params = m.params ∧ m'.clocks = m.clocks) :
    Achieves (Machine.waiting sleep) (Standing block regs flop params clocks) (perform op)
      fun answer m => answer = reply ∧ Standing block regs flop params clocks m := by
  apply Achieves.call
  intro m standing
  obtain ⟨m', answered, isBlock, isRegs, isFlop, isParams, isClocks⟩ := answers m standing
  exact ⟨reply, m', answered, rfl, isBlock.trans standing.block, isRegs.trans standing.regs,
    isFlop.trans standing.flop, isParams.trans standing.params, isClocks.trans standing.clocks⟩

theorem achieves_readl (reg : Reg) :
    Achieves (Machine.waiting sleep) (Standing block regs flop params clocks) (readl reg)
      fun answer m => answer = regs.read reg ∧ Standing block regs flop params clocks m := by
  apply achieves_look
  intro m standing
  refine ⟨m.readReg reg, by rw [← standing.regs]; rfl, ?_⟩
  cases reg <;> exact ⟨rfl, rfl, rfl, rfl, rfl⟩

theorem achieves_load :
    Achieves (Machine.waiting sleep) (Standing block regs flop params clocks) loadBlock
      fun answer m => answer = block ∧ Standing block regs flop params clocks m := by
  apply achieves_look
  intro m standing
  exact ⟨m, by rw [← standing.block]; rfl, rfl, rfl, rfl, rfl, rfl⟩

theorem achieves_sample (read : Params → Clocks → α) :
    Achieves (Machine.waiting sleep) (Standing block regs flop params clocks) (sample read)
      fun answer m => answer = read params clocks ∧
        Standing block regs flop params clocks m := by
  apply achieves_look
  intro m standing
  exact ⟨m, by rw [← standing.params, ← standing.clocks]; rfl, rfl, rfl, rfl, rfl, rfl⟩

theorem achieves_real :
    Achieves (Machine.waiting sleep) (Standing block regs flop params clocks) ktimeGetReal
      fun answer m => answer = clocks.real ∧ Standing block regs flop params clocks m := by
  apply achieves_look
  intro m standing
  exact ⟨m, by rw [← standing.clocks]; rfl, rfl, rfl, rfl, rfl, rfl⟩

theorem achieves_mark (point : Mark) :
    Achieves (Machine.waiting sleep) (Standing block regs flop params clocks) (mark point)
      fun _ => Standing block regs flop params clocks := by
  have looks (m : Machine) (_ : Standing block regs flop params clocks m) :
      ∃ m', Machine.waiting sleep (.mark point) m = some ((), m') ∧ m'.block = m.block ∧
        m'.regs = m.regs ∧ m'.flop = m.flop ∧ m'.params = m.params ∧ m'.clocks = m.clocks := by
    refine ⟨m.mark point, rfl, ?_⟩
    cases point <;> exact ⟨rfl, rfl, rfl, rfl, rfl⟩
  exact (achieves_look looks).post fun _ _ answered => answered.2

theorem achieves_write_compv (value : Nat) :
    Achieves (Machine.waiting sleep) (Standing block regs flop params clocks) (writeCompv value)
      fun _ => Standing block { regs with compv := BitVec.ofNat 64 value } flop params clocks := by
  refine Achieves.bind (achieves_writel .compv63_32 _) fun _ => ?_
  rw [← write_compv_words]
  exact achieves_writel .compv31_0 _

theorem achieves_write_piv (value : Nat) :
    Achieves (Machine.waiting sleep) (Standing block regs flop params clocks) (writePiv value)
      fun _ => Standing block { regs with piv := BitVec.ofNat 64 value } flop params clocks := by
  refine Achieves.bind (achieves_writel .piv63_32 _) fun _ => ?_
  rw [← write_piv_words]
  exact achieves_writel .piv31_0 _

/-- The high word does not change between its two reads. -/
theorem achieves_read_compv :
    Achieves (Machine.waiting sleep) (Standing block regs flop params clocks) readCompv
      fun compv m => compv = regs.compv.toNat ∧ Standing block regs flop params clocks m := by
  refine Achieves.bind_known (achieves_readl .compv63_32) ?_
  intro m standing
  let body (previous : BitVec 32) : Driver (BitVec 32 ⊕ Nat) := do
    let low ← readl .compv31_0
    let high ← readl .compv63_32
    if high ≠ previous then return .inl high
    else return .inr (joinWords high low).toNat
  have turn : Achieves (Machine.waiting sleep) (Standing block regs flop params clocks)
      (body (upperWord regs.compv))
      fun outcome m => outcome = .inr regs.compv.toNat ∧
        Standing block regs flop params clocks m := by
    refine Achieves.bind_known (achieves_readl .compv31_0) ?_
    refine Achieves.bind_known (achieves_readl .compv63_32) ?_
    change Achieves _ _ (if upperWord regs.compv ≠ upperWord regs.compv then _ else _) _
    rw [if_neg fun other => other rfl]
    refine Achieves.pure fun m standing => ⟨?_, standing⟩
    change Sum.inr (joinWords (upperWord regs.compv) (lowerWord regs.compv)).toNat = _
    rw [join_words]
  obtain ⟨outcome, m', ran, rfl, after⟩ := turn m standing
  exact ⟨regs.compv.toNat, m', .loop (ran.sequence (.ret .refl)), rfl, after⟩

theorem achieves_fold :
    Achieves (Machine.waiting sleep) (Standing block regs flop params clocks) hwFlopFold
      fun _ => Standing (folded regs.compv.toNat block) regs flop params clocks := by
  refine Achieves.bind_known achieves_load ?_
  unfold folded
  split
  · exact Achieves.pure fun _ standing => standing
  split
  · refine Achieves.bind_known achieves_read_compv ?_
    refine Achieves.bind (achieves_mark .looked) fun _ => ?_
    split
    · exact achieves_store _
    · exact Achieves.pure fun _ standing => standing
  split
  · refine Achieves.bind_known achieves_read_compv ?_
    refine Achieves.bind (achieves_mark .looked) fun _ => ?_
    split
    · exact Achieves.pure fun _ standing => standing
    · exact achieves_store _
  · exact Achieves.pure fun _ standing => standing

theorem achieves_wake_at (time : Int) :
    Achieves (Machine.waiting sleep) (Standing block regs flop params clocks) (outputWakeAt time)
      fun _ m => Standing (wakingAt time block) regs flop params clocks m ∧ m.timerArmed = true := by
  refine Achieves.bind (achieves_store _) fun _ => ?_
  refine Achieves.call fun m standing => ⟨(), _, rfl, ?_, rfl⟩
  exact ⟨standing.block, standing.regs, standing.flop, standing.params, standing.clocks⟩

theorem achieves_disable :
    Achieves (Machine.waiting sleep) (Standing block regs flop params clocks) disableOutputHw
      fun _ => Standing (halted (folded regs.compv.toNat block))
        (clearedRegs (ctlWithout regs.ctl (ctlEn ||| ctlPm))) flop params clocks := by
  refine Achieves.bind_known (achieves_readl .ctl) ?_
  refine Achieves.bind (achieves_writel .ctl _) fun _ => ?_
  refine Achieves.bind achieves_fold fun _ => ?_
  refine Achieves.bind (achieves_write_compv 0) fun _ => ?_
  refine Achieves.bind (achieves_write_piv 0) fun _ => ?_
  refine Achieves.bind (achieves_writel .ctl _) fun _ => ?_
  exact achieves_store _

/-- A fold on its own, from a state it is not told. -/
theorem achieves_folding (pre : Machine → Prop) :
    Achieves (Machine.waiting sleep) pre hwFlopFold fun _ t => ∃ s, pre s ∧
      Standing (folded s.regs.compv.toNat s.block) s.regs s.flop s.params s.clocks t := by
  intro s holds
  obtain ⟨_, t, ran, standing⟩ := @achieves_fold sleep _ _ _ _ _ s ⟨rfl, rfl, rfl, rfl, rfl⟩
  exact ⟨(), t, ran, s, holds, standing⟩

theorem achieves_low_rounds (post : Machine → Prop)
    (rounds : Nat) : Achieves (Machine.waiting sleep)
      (fun s => s.block.outputHwFlopHigh = false ∧ post s) (drainRounds rounds) fun _ => post := by
  cases rounds with
  | zero => exact Achieves.pure fun s holds => holds.2
  | succ rounds =>
      have loads : Achieves (Machine.waiting sleep)
          (fun s => s.block.outputHwFlopHigh = false ∧ post s) loadBlock
          fun answer s => answer.outputHwFlopHigh = false ∧ post s :=
        Achieves.call fun s holds => ⟨s.block, s, rfl, holds⟩
      refine Achieves.bind loads fun block => ?_
      intro s holds
      rw [if_neg (by simp [holds.1])]
      exact ⟨(), s, .ret .refl, holds.2⟩

/-- The control value left by a stop for an arm. -/
def rearmCtl (ctl : BitVec 32) : BitVec 32 :=
  ctlWithout (ctlWithout ctl ctlEn) (ctlDir ||| ctlEp ||| ctlPm)

theorem achieves_stop_for_rearm :
    Achieves (Machine.waiting sleep) (Standing block regs flop params clocks) stopForRearm
      fun ctrl m => ctrl = rearmCtl regs.ctl ∧ Standing (folded regs.compv.toNat block)
        (clearedRegs (rearmCtl regs.ctl)) flop params clocks m := by
  refine Achieves.bind_known (achieves_readl .ctl) ?_
  refine Achieves.bind (achieves_writel .ctl _) fun _ => ?_
  refine Achieves.bind achieves_fold fun _ => ?_
  refine Achieves.bind (achieves_write_compv 0) fun _ => ?_
  refine Achieves.bind (achieves_write_piv 0) fun _ => ?_
  refine Achieves.bind (achieves_writel .ctl _) fun _ => ?_
  exact Achieves.pure fun _ standing => ⟨rfl, standing⟩

def preparedTiming (params : Params) (clocks : Clocks) (minIntervalNs periodNs : Nat)
    (mode : OutputMode) (requested : Int) : Except Errno OutputTiming :=
  match outputTimingPlan (clockNowNs params clocks) minIntervalNs periodNs mode requested with
  | .error status => .error status
  | .ok (first, prime, delay) =>
    match clockDeltaToRealNs params clocks delay with
    | .error _ => .error .enodev
    | .ok delayReal => .ok ⟨first, prime, wakeFor clocks.real delayReal⟩

theorem achieves_prepare (minIntervalNs periodNs : Nat) (mode : OutputMode) (requested : Int) :
    Achieves (Machine.waiting sleep) (Standing block regs flop params clocks)
      (prepareOutputTiming minIntervalNs periodNs mode requested)
      fun timing m =>
        timing = preparedTiming params clocks minIntervalNs periodNs mode requested ∧
          Standing block regs flop params clocks m := by
  unfold preparedTiming
  refine Achieves.bind_known (achieves_sample _) ?_
  cases outputTimingPlan (clockNowNs params clocks) minIntervalNs periodNs mode requested with
  | error status => exact Achieves.pure fun _ standing => ⟨rfl, standing⟩
  | ok plan =>
      obtain ⟨first, prime, delay⟩ := plan
      refine Achieves.bind_known (achieves_sample _) ?_
      dsimp only
      cases clockDeltaToRealNs params clocks delay with
      | error status => exact Achieves.pure fun _ standing => ⟨rfl, standing⟩
      | ok delayReal =>
          refine Achieves.bind_known achieves_real ?_
          exact Achieves.pure fun _ standing => ⟨rfl, standing⟩

theorem achieves_reconcile {desired : OutputDesired} {timing : OutputTiming}
    (hardware : desired.mode = .hardware)
    (prepared : preparedTiming params clocks (outputMinIntervalNs desired.highTimeNs
      desired.lowTimeNs) desired.periodNs desired.mode desired.firstEdgeNs = .ok timing) :
    Achieves (Machine.waiting sleep) (Standing block regs flop params clocks)
      (reconcileArm desired)
      fun _ m => Standing (wakingAt timing.timerStart (applied desired
          (primed timing.firstEdgeNs desired.highTimeNs desired.lowTimeNs .hardware
            (folded regs.compv.toNat block))))
        (clearedRegs (rearmCtl regs.ctl)) flop params clocks m ∧ m.timerArmed = true := by
  refine Achieves.bind_known (achieves_prepare _ _ _ _) ?_
  rw [prepared]
  have primes : Achieves (Machine.waiting sleep) (Standing block regs flop params clocks)
      (armOutput timing.firstEdgeNs timing.primeEdgeNs desired.highTimeNs desired.lowTimeNs
        desired.mode)
      fun status m => status = .ok () ∧ Standing (primed timing.firstEdgeNs desired.highTimeNs
        desired.lowTimeNs .hardware (folded regs.compv.toNat block))
          (clearedRegs (rearmCtl regs.ctl)) flop params clocks m := by
    refine Achieves.bind_known achieves_stop_for_rearm ?_
    rw [hardware, if_pos rfl]
    refine Achieves.bind (achieves_store _) fun _ => ?_
    exact Achieves.pure fun _ standing => ⟨rfl, standing⟩
  refine Achieves.bind_known primes ?_
  refine Achieves.bind (achieves_store _) fun _ => ?_
  exact achieves_wake_at _

/-- The free-running engine with equal halves: no duty service is started. -/
theorem achieves_start_periodic (ctrl : BitVec 32) (firstEdgeNs : Int) (halfNs firstArt piv : Nat) :
    Achieves (Machine.waiting sleep) (Standing block regs flop params clocks)
      (startHardwarePeriodic ctrl firstEdgeNs halfNs halfNs firstArt piv)
      fun _ => Standing (armed firstEdgeNs halfNs halfNs firstArt piv block)
        ⟨ctlWith (ctlWith ctrl (ctlEpToggle ||| ctlPm)) ctlEn, BitVec.ofNat 64 firstArt,
          BitVec.ofNat 64 piv⟩ flop params clocks := by
  refine Achieves.bind (achieves_writel .ctl _) fun _ => ?_
  refine Achieves.bind (achieves_write_piv piv) fun _ => ?_
  refine Achieves.bind (achieves_write_compv firstArt) fun _ => ?_
  refine Achieves.bind (achieves_store _) fun _ => ?_
  refine Achieves.bind (achieves_writel .ctl _) fun _ => ?_
  rw [if_neg fun differ => differ rfl]
  exact Achieves.pure fun _ standing => standing

/-- An arm of equal halves under a low mirror, well ahead of its first edge. -/
theorem achieves_arm_periodic {firstEdgeNs : Int} {halfNs first cycles nowArt margin : Nat}
    (low : (folded regs.compv.toNat block).outputHwFlopHigh = false)
    (firstArt : clockNsToCompareArt params clocks firstEdgeNs = .ok first)
    (counted : clockDeltaToArtCycles params clocks (toS64 halfNs) = .ok cycles)
    (fits : cycles ≠ 0 ∧ cycles ≤ u64Max / 4) (now : getCurrentArt clocks = .ok nowArt)
    (late : clockDeltaToArtCycles params clocks (2 * nsecPerMsec : Nat) = .ok margin)
    (ahead : nowArt + margin ≤ first) :
    Achieves (Machine.waiting sleep) (Standing block regs flop params clocks)
      (armHardwarePeriodic firstEdgeNs halfNs halfNs)
      fun status m => status = .ok () ∧
        Standing (armed firstEdgeNs halfNs halfNs first cycles (folded regs.compv.toNat block))
          ⟨ctlWith (ctlWith (rearmCtl regs.ctl) (ctlEpToggle ||| ctlPm)) ctlEn,
            BitVec.ofNat 64 first, BitVec.ofNat 64 cycles⟩ flop params clocks m := by
  have picked : armIntervals (.ok first) (.ok cycles) (.ok cycles) = .ok (first, cycles, cycles) := by
    unfold armIntervals
    dsimp only
    rw [if_neg (by omega)]
  have guarded (period : Nat) : lateArmGuard (.ok nowArt) (.ok margin) first period = .ok first := by
    unfold lateArmGuard
    dsimp only
    split
    · rw [if_neg (by omega)]
    · rfl
  refine Achieves.bind_known (achieves_sample _) ?_
  refine Achieves.bind_known (achieves_sample _) ?_
  refine Achieves.bind_known (achieves_sample _) ?_
  rw [firstArt, counted, picked]
  refine Achieves.bind_known achieves_stop_for_rearm ?_
  refine Achieves.bind (achieves_mark .slot) fun _ => ?_
  refine Achieves.bind_known achieves_load ?_
  refine Achieves.bind_known (achieves_sample _) ?_
  refine Achieves.bind_known (achieves_sample _) ?_
  have slot : selectSlot false first cycles cycles = first := rfl
  rw [low, slot, now, late, guarded]
  refine Achieves.bind (achieves_start_periodic _ firstEdgeNs halfNs first cycles) fun _ => ?_
  exact Achieves.pure fun _ standing => ⟨rfl, standing⟩

end alone

/-! ## The engine in time -/

section time

namespace Machine

variable (m : Machine)

def runOn (n : Nat) : Machine := periodicEdge^[n] m

def edgeArt : Nat := m.regs.compv.toNat + artHwDelayCycles

def edgesBy (art : Nat) : Nat :=
  if m.freeRunning = true ∧ m.edgeArt ≤ art then (art - m.edgeArt) / m.regs.piv.toNat + 1 else 0

/-- `CLOCK_REALTIME` moves on by `ns` and ART with it, and the edges that are due
on the way are generated. -/
def elapse (counter : Int → BitVec 64) (ns : Nat) : Machine :=
  { m.runOn (m.edgesBy (counter (m.clocks.real + ns)).toNat) with
    clocks := { m.clocks with
      real := m.clocks.real + ns
      art := (counter (m.clocks.real + ns)).toNat
      artInRange := (counter (m.clocks.real + ns)).isLt } }

end Machine

variable {m : Machine}

/-- The edges generated are those that come an interval after another, up to
that value. -/
theorem edges_by_iff (running : m.freeRunning = true) (positive : 0 < m.regs.piv.toNat)
    (art k : Nat) : k < m.edgesBy art ↔ m.edgeArt + k * m.regs.piv.toNat ≤ art := by
  unfold Machine.edgesBy
  by_cases due : m.edgeArt ≤ art
  · rw [if_pos ⟨running, due⟩, Nat.lt_succ_iff, Nat.le_div_iff_mul_le positive]
    omega
  · rw [if_neg fun both => due both.2]
    omega

theorem ran_run_on (n : Nat) (running : m.freeRunning = true)
    (fits : m.regs.compv.toNat + n * m.regs.piv.toNat < 2 ^ 64) : Ran n m (m.runOn n) := by
  induction n with
  | zero => exact .refl m
  | succ n ih =>
      rw [Nat.add_one_mul] at fits
      have before := ih (by omega)
      have next : Ran 1 (m.runOn n) (m.runOn n).periodicEdge := by
        refine .edge (before.free_running.trans running) ?_
        rw [before.compv, before.piv]
        omega
      have same : m.runOn (n + 1) = (m.runOn n).periodicEdge :=
        Function.iterate_succ_apply' Machine.periodicEdge n m
      rw [same]
      exact before.trans next

/-- Edges change the level, COMPV and the history, and nothing else. -/
theorem run_on_frame (n : Nat) : m.runOn n = { m with
    flop := (m.runOn n).flop, regs := (m.runOn n).regs, history := (m.runOn n).history } := by
  induction n with
  | zero => rfl
  | succ n ih =>
      have next : m.runOn (n + 1) = (m.runOn n).periodicEdge :=
        Function.iterate_succ_apply' Machine.periodicEdge n m
      rw [next, ih]
      rfl

structure TimeKept (s t : Machine) : Prop where
  block : t.block = s.block
  desired : t.desired = s.desired
  params : t.params = s.params
  armed : t.timerArmed = s.timerArmed
  firing : t.timerFiring = s.timerFiring
  queued : t.workQueued = s.workQueued
  cancelling : t.workCancelling = s.workCancelling
  scheduled : t.oneshotScheduled = s.oneshotScheduled

theorem elapse_kept (counter : Int → BitVec 64) (ns : Nat) : TimeKept m (m.elapse counter ns) := by
  have frame := run_on_frame (m := m) (m.edgesBy (counter (m.clocks.real + ns)).toNat)
  constructor
  · exact (congrArg Machine.block frame :)
  · exact (congrArg Machine.desired frame :)
  · exact (congrArg Machine.params frame :)
  · exact (congrArg Machine.timerArmed frame :)
  · exact (congrArg Machine.timerFiring frame :)
  · exact (congrArg Machine.workQueued frame :)
  · exact (congrArg Machine.workCancelling frame :)
  · exact (congrArg Machine.oneshotScheduled frame :)

theorem elapse_still (counter : Int → BitVec 64) (ns : Nat) (still : m.freeRunning = false) :
    m.edgesBy (counter (m.clocks.real + ns)).toNat = 0 ∧
      (m.elapse counter ns).regs = m.regs ∧ (m.elapse counter ns).flop = m.flop := by
  have none : m.edgesBy (counter (m.clocks.real + ns)).toNat = 0 := by
    rw [Machine.edgesBy, if_neg (by simp [still])]
  unfold Machine.elapse
  rw [none]
  exact ⟨rfl, rfl, rfl⟩

end time

end Tgpio

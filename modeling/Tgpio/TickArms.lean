import Tgpio.LevelTracking
import Tgpio.OutputSystem
import Tgpio.RefineTick

/-!
# What a tick arms

A request that is still pending when a tick comes is armed by it: the block is
recorded at the configuration with a wake-up on its way, and a software output has
its compare value for the priming edge in the registers, enabled. From the stop at
its beginning on nobody else writes the registers, so an arm cycle leaves what it
has written.
-/

namespace Tgpio

open Interference Interference.Prog

set_option autoImplicit false

/-- The output work will run again. -/
def Machine.Wakes (m : Machine) : Prop :=
  m.timerArmed = true ∨ m.timerFiring = true ∨ m.workQueued = true

/-- Surroundings that write no registers of a stopped engine, and lose no wake-up. -/
structure Alongside (env : Machine → Machine → Prop) : Prop where
  regs : ∀ s t, env s t → s.freeRunning = false → t.regs = s.regs
  wakes : ∀ s t, env s t → s.Wakes → t.Wakes

inductive Beside : Machine → Machine → Prop where
  | expire {m : Machine} : m.timerArmed = true → m.timerFiring = false → Beside m m.expire
  | outputTimer {m : Machine} : m.timerFiring = true → m.workCancelling = false →
      Beside m m.outputTimer
  | edge {m : Machine} : m.freeRunning = true → Beside m m.periodicEdge
  | fire {m : Machine} : m.singleShot = true → Beside m m.fire

theorem alongside_beside : Alongside Beside := by
  constructor
  · rintro s t (_ | _ | running | _) stopped
    · rfl
    · rfl
    · rw [stopped] at running
      contradiction
    · rfl
  · rintro s t (_ | ⟨firing, cancelling⟩ | _ | _) wakes
    · exact .inr (.inl rfl)
    · refine .inr (.inr ?_)
      simp [Machine.outputTimer, Machine.scheduleWork, cancelling]
    · exact wakes
    · exact wakes

def ComparesAt (asked : OutputDesired) (begun offset edge : Int) (target : Nat) : Prop :=
  ∃ params clocks, Measured asked begun offset params clocks ∧
    clockNsToCompareArt params clocks edge = .ok target

structure Primed (asked : OutputDesired) (begun offset : Int) (firstEdgeNs : Int)
    (regs : Regs) : Prop where
  hardware : asked.mode = .hardware → hasEn regs.ctl = false
  software : asked.mode = .software → hasEn regs.ctl = true ∧
    ∃ target, ComparesAt asked begun offset (firstEdgeNs - 2 * asked.leadNs) target ∧
      regs.compv = BitVec.ofNat 64 target
  single : hasPm regs.ctl = false

structure Carries (asked : OutputDesired) (firstEdgeNs : Int) (block : MmioBlock) : Prop where
  high : block.outputHighTimeNs = asked.highTimeNs
  low : block.outputLowTimeNs = asked.lowTimeNs
  edge : block.outputNextEdge = firstEdgeNs
  rise : block.outputNextEdgeType = .rise
  phase : block.outputPhase = if asked.mode = .hardware then .armPeriodic else .firstRising

structure ArmedFor (asked : OutputDesired) (begun offset : Int) (m : Machine) : Prop where
  applied : m.block.outputAppliedGen = asked.gen
  carries : Carries asked m.block.outputNextEdge m.block
  first : FirstFrom asked begun m.block.outputNextEdge
  primed : Primed asked begun offset m.block.outputNextEdge m.regs
  wakes : m.Wakes

/-- The work has the registers to itself, and they are known. -/
structure Still (asked : OutputDesired) (begun offset : Int) (fact : MmioBlock → Prop) (regs : Regs)
    (m : Machine) : Prop where
  measured : Measured asked begun offset m.params m.clocks
  asks : Asks asked m.desired
  block : fact m.block
  regs : m.regs = regs

/-- Accesses of the work that write no register and keep a fact about the block. -/
def Idles (fact : MmioBlock → Prop) (op : Op) : Prop :=
  op.ofWork ∧ (∀ reg value, op ≠ .writel reg value) ∧
    ∀ update, op = .store update → ∀ block, fact block → fact (update block)

section still

variable {asked : OutputDesired} {begun offset : Int} {env : Machine → Machine → Prop}
  {fact : MmioBlock → Prop} {regs : Regs}

theorem stable_still (attending : Attending asked begun offset env) (alongside : Alongside env)
    (stopped : regs.running = false) (fact : MmioBlock → Prop) :
    Stable (driverSem env) (Still asked begun offset fact regs) := by
  rintro s t step ⟨measured, asks, block, same⟩
  refine ⟨attending.measured s t step measured, ?_, ?_, ?_⟩
  · rw [attending.desired s t step]
    exact asks
  · rw [attending.block s t step]
    exact block
  · rw [alongside.regs s t step (by rw [Machine.freeRunning, same]; exact stopped)]
    exact same

theorem idles_plain {op : Op} (work : op.ofWork) (plain : ∀ update, op ≠ .store update)
    (quiet : ∀ reg value, op ≠ .writel reg value) : Idles fact op :=
  ⟨work, quiet, fun update same => absurd same (plain update)⟩

theorem idles_store {update : MmioBlock → MmioBlock}
    (keeps : ∀ block, fact block → fact (update block)) : Idles fact (.store update) := by
  refine ⟨trivial, by simp, fun other same => ?_⟩
  cases same
  exact keeps

theorem idles_folding : Folding (Idles fun _ => True) where
  readl _ := idles_plain trivial (by simp) (by simp)
  load := idles_plain trivial (by simp) (by simp)
  sample _ _ := idles_plain trivial (by simp) (by simp)
  real := idles_plain trivial (by simp) (by simp)
  desired := idles_plain trivial (by simp) (by simp)
  sleep _ := idles_plain trivial (by simp) (by simp)
  looked := idles_plain trivial (by simp) (by simp)
  duty _ := idles_store fun _ _ => trivial
  periodic _ := idles_store fun _ _ => trivial

theorem Still.idle {op : Op} {s t : Machine} {reply : op.Resp} (idles : Idles fact op)
    (step : Machine.perform op s = some (reply, t)) (still : Still asked begun offset fact regs s) :
    Still asked begun offset fact regs t := by
  obtain ⟨work, quiet, stores⟩ := idles
  obtain ⟨measured, asks, block, same⟩ := still
  obtain ⟨clocks, params, desired⟩ := work_frame work step
  refine ⟨by rw [clocks, params]; exact measured, desired ▸ asks, ?_, ?_⟩
  · cases op with
    | store update =>
        cases step
        exact stores update rfl _ block
    | readl reg =>
        cases step
        cases reg <;> exact block
    | writel reg value => exact absurd rfl (quiet reg value)
    | mark point =>
        cases step
        cases point <;> exact block
    | hrtimerCancel =>
        simp only [Machine.perform] at step
        split at step
        · contradiction
        · cases step
          exact block
    | load | outputDesiredGet | sample | ktimeGetReal | hrtimerStart | msleep =>
        cases step
        exact block
    | _ => exact work.elim
  · cases op with
    | readl reg =>
        cases step
        cases reg <;> exact same
    | writel reg value => exact absurd rfl (quiet reg value)
    | mark point =>
        cases step
        cases point <;> exact same
    | hrtimerCancel =>
        simp only [Machine.perform] at step
        split at step
        · contradiction
        · cases step
          exact same
    | store | load | outputDesiredGet | sample | ktimeGetReal | hrtimerStart | msleep =>
        cases step
        exact same
    | _ => exact work.elim

theorem triple_idles {α : Type} {program : Driver α} (attending : Attending asked begun offset env)
    (alongside : Alongside env) (stopped : regs.running = false)
    (uses : Uses (Idles fact) program) :
    Triple (driverSem env) (Still asked begun offset fact regs) program
      fun _ => Still asked begun offset fact regs :=
  triple_kept (stable_still attending alongside stopped fact) uses
    fun _ _ _ _ idles step still => still.idle idles step

theorem triple_writel_still (attending : Attending asked begun offset env)
    (alongside : Alongside env) (reg : Reg) (value : BitVec 32) (stopped : regs.running = false)
    (after : (regs.write reg value).running = false) :
    Triple (driverSem env) (Still asked begun offset fact regs) (writel reg value)
      fun _ => Still asked begun offset fact (regs.write reg value) := by
  refine Triple.call (stable_still attending alongside stopped fact)
    (fun _ => stable_still attending alongside after fact) ?_
  rintro s reply t ⟨measured, asks, block, rfl⟩ step
  cases step
  cases reg <;> exact ⟨measured, asks, block, rfl⟩

theorem triple_write_compv_still (attending : Attending asked begun offset env)
    (alongside : Alongside env) (value : Nat) (stopped : regs.running = false) :
    Triple (driverSem env) (Still asked begun offset fact regs) (writeCompv value)
      fun _ => Still asked begun offset fact { regs with compv := BitVec.ofNat 64 value } := by
  refine Triple.bind (triple_writel_still attending alongside .compv63_32 _ stopped stopped)
    fun _ => ?_
  rw [← write_compv_words]
  exact triple_writel_still attending alongside .compv31_0 _ stopped stopped

theorem triple_write_piv_still (attending : Attending asked begun offset env)
    (alongside : Alongside env) (value : Nat) (stopped : regs.running = false) :
    Triple (driverSem env) (Still asked begun offset fact regs) (writePiv value)
      fun _ => Still asked begun offset fact { regs with piv := BitVec.ofNat 64 value } := by
  refine Triple.bind (triple_writel_still attending alongside .piv63_32 _ stopped stopped)
    fun _ => ?_
  rw [← write_piv_words]
  exact triple_writel_still attending alongside .piv31_0 _ stopped stopped

theorem triple_read_ctl_still (attending : Attending asked begun offset env)
    (alongside : Alongside env) (stopped : regs.running = false) :
    Triple (driverSem env) (Still asked begun offset fact regs) readCtl
      fun ctrl m => ctrl = regs.ctl ∧ Still asked begun offset fact regs m := by
  have stable := stable_still attending alongside stopped fact
  refine Triple.call stable (fun _ s t step holds => ⟨holds.1, stable s t step holds.2⟩) ?_
  rintro s reply t ⟨measured, asks, block, rfl⟩ step
  cases step
  exact ⟨rfl, measured, asks, block, rfl⟩

theorem triple_store_still {weaker : MmioBlock → Prop} {update : MmioBlock → MmioBlock}
    (attending : Attending asked begun offset env) (alongside : Alongside env)
    (stopped : regs.running = false) (keeps : ∀ block, fact block → weaker (update block)) :
    Triple (driverSem env) (Still asked begun offset fact regs) (storeBlock update)
      fun _ => Still asked begun offset weaker regs := by
  refine Triple.call (stable_still attending alongside stopped fact)
    (fun _ => stable_still attending alongside stopped weaker) ?_
  rintro s reply t ⟨measured, asks, block, same⟩ step
  cases step
  exact ⟨measured, asks, keeps _ block, same⟩

theorem stop_for_rearm_still {before : BlockFact} (attending : Attending asked begun offset env)
    (alongside : Alongside env) :
    Triple (driverSem env) (Ticking asked begun offset before) stopForRearm fun ctrl m =>
      (hasEn ctrl = false ∧ hasPm ctrl = false) ∧
        Still asked begun offset (fun _ => True) (clearedRegs ctrl) m := by
  have arming : Arming (Maintains before) := maintains_servicing.toArming
  refine Triple.bind (triple_maintains attending ((uses_perform _).mpr (arming.readl .ctl)))
    fun ctrl => ?_
  have off : hasEn (ctlWithout ctrl ctlEn) = false := by simp
  refine Triple.via (fun _ m => ∃ regs, regs.ctl = ctlWithout ctrl ctlEn ∧
    Still asked begun offset (fun _ => True) regs m) ?_ fun _ => ?_
  · refine Triple.call (stable_ticking attending before) (fun _ => ?_) ?_
    · rintro s t step ⟨regs, ctl, still⟩
      exact ⟨regs, ctl, stable_still attending alongside (running_of_disabled (by rw [ctl, off]))
        _ s t step still⟩
    · rintro s reply t ⟨measured, asks, block⟩ step
      cases step
      exact ⟨_, rfl, measured, asks, trivial, rfl⟩
  · rintro s ⟨regs, ctl, still⟩
    have stopped : regs.running = false := running_of_disabled (by rw [ctl, off])
    refine Triple.bind (triple_idles attending alongside stopped
      (hw_flop_fold_uses idles_folding)) (fun _ => ?_) s still
    refine Triple.bind (triple_write_compv_still attending alongside 0 stopped) fun _ => ?_
    refine Triple.bind (triple_write_piv_still attending alongside 0 stopped) fun _ => ?_
    refine Triple.bind (triple_writel_still attending alongside .ctl _ stopped
      (running_of_disabled (by simp [Regs.write]))) fun _ => ?_
    exact Triple.pure (stable_still attending alongside (running_of_disabled (by simp [Regs.write]))
      _) fun m still => ⟨⟨by simp, by simp⟩, still⟩

/-- A compare of the stopped engine: its value, and bits that leave it stopped. -/
theorem program_output_edge_still (attending : Attending asked begun offset env)
    (alongside : Alongside env) {timing : OutputTiming} (aimed : Aimed asked begun offset timing)
    {ctrl edgeBits : BitVec 32} (off : hasEn ctrl = false ∧ hasPm ctrl = false)
    (mode : hasEn edgeBits = false ∧ hasPm edgeBits = false) :
    Triple (driverSem env) (Still asked begun offset fact (clearedRegs ctrl))
      (programOutputEdge timing.primeEdgeNs edgeBits)
      fun status m => status = .ok () ∧ ∃ ctl target, (hasEn ctl = false ∧ hasPm ctl = false) ∧
        ComparesAt asked begun offset timing.primeEdgeNs target ∧
        Still asked begun offset fact ⟨ctl, BitVec.ofNat 64 target, 0⟩ m := by
  have rests (ctl : BitVec 32) (compv : BitVec 64) (disabled : hasEn ctl = false) :
      (⟨ctl, compv, 0⟩ : Regs).running = false := running_of_disabled disabled
  have stopped := rests ctrl 0 off.1
  refine triple_known (triple_sample_known
    (fun art => ∃ target, art = .ok target ∧ ComparesAt asked begun offset timing.primeEdgeNs target)
    (stable_still attending alongside stopped fact) fun m still => ?_) ?_
  · obtain ⟨target, converted⟩ :=
      is_ok_true (measured_compare still.measured aimed.ahead aimed.inside)
    exact ⟨target, converted, _, _, still.measured, converted⟩
  rintro _ ⟨target, rfl, compares⟩
  refine triple_known (triple_read_ctl_still attending alongside stopped) fun value same => ?_
  obtain rfl : ctrl = value := same.symm
  dsimp only
  have quiet : hasEn (ctlWith (ctlWithout ctrl ctlEp) edgeBits) = false ∧
      hasPm (ctlWith (ctlWithout ctrl ctlEp) edgeBits) = false := by simp [off, mode]
  generalize ctlWith (ctlWithout ctrl ctlEp) edgeBits = ctl at quiet
  have ends : Triple (driverSem env)
      (Still asked begun offset fact ⟨ctl, BitVec.ofNat 64 target, 0⟩)
      (Pure.pure (.ok ()) : Driver (Except Errno Unit)) fun status m => status = .ok () ∧
        ∃ ctl target, (hasEn ctl = false ∧ hasPm ctl = false) ∧
          ComparesAt asked begun offset timing.primeEdgeNs target ∧
          Still asked begun offset fact ⟨ctl, BitVec.ofNat 64 target, 0⟩ m :=
    Triple.pure (stable_still attending alongside (rests _ _ quiet.1) fact)
      fun m still => ⟨rfl, ctl, target, quiet, compares, still⟩
  split
  · exact Triple.bind (triple_write_compv_still attending alongside target stopped) fun _ =>
      Triple.bind (triple_writel_still attending alongside .ctl ctl (rests _ _ off.1)
        (rests _ _ quiet.1)) fun _ => ends
  · exact Triple.bind (triple_writel_still attending alongside .ctl ctl stopped
        (rests _ _ quiet.1)) fun _ =>
      Triple.bind (triple_write_compv_still attending alongside target (rests _ _ quiet.1))
        fun _ => ends

theorem Primed.stopped {firstEdgeNs : Int} (primed : Primed asked begun offset firstEdgeNs regs) :
    regs.running = false := by
  simp [Regs.running, primed.single]

theorem arm_output_still {before : BlockFact} (attending : Attending asked begun offset env)
    (alongside : Alongside env) {timing : OutputTiming} (aimed : Aimed asked begun offset timing) :
    Triple (driverSem env) (Ticking asked begun offset before)
      (armOutput timing.firstEdgeNs timing.primeEdgeNs asked.highTimeNs asked.lowTimeNs asked.mode)
      fun status m => status = .ok () ∧ ∃ regs, Primed asked begun offset timing.firstEdgeNs regs ∧
        Still asked begun offset (Carries asked timing.firstEdgeNs) regs m := by
  have records (ctl : BitVec 32) (compv : BitVec 64) (off : hasEn ctl = false) :
      Triple (driverSem env) (Still asked begun offset (fun _ => True) ⟨ctl, compv, 0⟩)
        (storeBlock (primed timing.firstEdgeNs asked.highTimeNs asked.lowTimeNs asked.mode))
        fun _ => Still asked begun offset (Carries asked timing.firstEdgeNs) ⟨ctl, compv, 0⟩ :=
    triple_store_still attending alongside (running_of_disabled off) fun block _ =>
      ⟨rfl, rfl, rfl, rfl, rfl⟩
  refine Triple.bind (stop_for_rearm_still attending alongside) fun ctrl => Triple.given fun off => ?_
  have ends {regs : Regs} (primed : Primed asked begun offset timing.firstEdgeNs regs) :
      Triple (driverSem env)
        (Still asked begun offset (Carries asked timing.firstEdgeNs) regs)
        (Pure.pure (.ok ()) : Driver (Except Errno Unit)) fun status m => status = .ok () ∧
          ∃ regs, Primed asked begun offset timing.firstEdgeNs regs ∧
            Still asked begun offset (Carries asked timing.firstEdgeNs) regs m :=
    Triple.pure (stable_still attending alongside primed.stopped _)
      fun m still => ⟨rfl, regs, primed, still⟩
  split
  next hardware =>
    refine Triple.bind (records ctrl 0 off.1) fun _ => ends ?_
    exact ⟨fun _ => off.1, fun software => absurd (hardware.symm.trans software) (by decide), off.2⟩
  next software =>
    refine triple_known (triple_sample_known
      (fun edgeBits => hasEn edgeBits = false ∧ hasPm edgeBits = false)
      (stable_still attending alongside (running_of_disabled off.1) _)
      fun m _ => output_edge_bits_mode m.params.outputPolarity .fall) fun edgeBits mode => ?_
    refine triple_known (program_output_edge_still attending alongside aimed off mode)
      fun status accepted => ?_
    subst accepted
    dsimp only
    rintro s ⟨ctl, target, quiet, compares, still⟩
    refine Triple.bind (records ctl _ quiet.1) (fun _ => ?_) s still
    have stopped : (⟨ctl, BitVec.ofNat 64 target, 0⟩ : Regs).running = false :=
      running_of_disabled quiet.1
    refine triple_known (triple_read_ctl_still attending alongside stopped) fun value same => ?_
    obtain rfl : ctl = value := same.symm
    have primed : Primed asked begun offset timing.firstEdgeNs
        ⟨ctlWith ctl ctlEn, BitVec.ofNat 64 target, 0⟩ := by
      refine ⟨fun hardware => absurd hardware software, fun _ => ⟨by simp, target, ?_, rfl⟩,
        by simp [quiet.2]⟩
      rw [← aimed.prime]
      exact compares
    exact Triple.bind (triple_writel_still attending alongside .ctl _ stopped primed.stopped)
      fun _ => ends primed

theorem reconcile_arm_arms {before : BlockFact} (attending : Attending asked begun offset env)
    (alongside : Alongside env) {desired : OutputDesired} (asks : Asks asked desired) :
    Triple (driverSem env) (Ticking asked begun offset before) (reconcileArm desired)
      fun _ => ArmedFor asked begun offset := by
  rw [asks]
  refine triple_known (prepare_timing_aimed attending) ?_
  rintro _ ⟨timing, rfl, aimed⟩
  refine triple_known (arm_output_still attending alongside aimed) fun status accepted => ?_
  subst accepted
  refine Triple.named fun regs => Triple.given fun primed => ?_
  let fact (block : MmioBlock) : Prop :=
    block.outputAppliedGen = asked.gen ∧ Carries asked timing.firstEdgeNs block
  have stable := stable_still attending alongside primed.stopped fact
  refine Triple.via (fun _ => Still asked begun offset fact regs)
    (triple_store_still attending alongside primed.stopped fun block carries =>
      ⟨rfl, carries.high, carries.low, carries.edge, carries.rise, carries.phase⟩) fun _ => ?_
  have keeps : ∀ block, fact block → fact (wakingAt timing.timerStart block) :=
    fun block carried => ⟨carried.1, carried.2.high, carried.2.low, carried.2.edge, carried.2.rise,
      carried.2.phase⟩
  refine Triple.bind (triple_store_still attending alongside primed.stopped keeps) fun _ => ?_
  have armed (m : Machine) (still : Still asked begun offset fact regs m) (wakes : m.Wakes) :
      ArmedFor asked begun offset m := by
    obtain ⟨applied, carries⟩ := still.block
    have edge := carries.edge
    exact ⟨applied, edge ▸ carries, edge ▸ aimed.first, edge ▸ still.regs ▸ primed, wakes⟩
  refine Triple.conseq (Triple.call stable
    (fun _ => stable.and fun s t step wakes => alongside.wakes s t step wakes) ?_)
    (fun _ still => still) fun _ m holds => armed m holds.1 holds.2
  rintro s reply t ⟨measured, asks, block, same⟩ step
  cases step
  exact ⟨⟨measured, asks, block, same⟩, .inl rfl⟩

/-- The configuration has not been armed yet, and no flip of a duty output comes first. -/
structure Outstanding (asked : OutputDesired) (m : Machine) : Prop where
  unarmed : m.block.outputAppliedGen ≠ asked.gen
  direct : m.block.outputPhase = .hwDuty →
    (m.desired.flipGen - m.block.outputAppliedFlipGen).getLsbD 0 = false

def Unarmed (asked : OutputDesired) : BlockFact := fun gen _ _ => gen ≠ asked.gen

def Waiting (asked : OutputDesired) (begun offset : Int) (m : Machine) : Prop :=
  Ticking asked begun offset (Unarmed asked) m ∧ Outstanding asked m

theorem stable_waiting (attending : Attending asked begun offset env) :
    Stable (driverSem env) (Waiting asked begun offset) := by
  rintro s t step ⟨ticking, unarmed, direct⟩
  refine ⟨stable_ticking attending _ s t step ticking, ?_, ?_⟩
  · rw [attending.block s t step]
    exact unarmed
  · rw [attending.block s t step, attending.desired s t step]
    exact direct

/-- What a load answers, by what is known of the block when it is made. -/
theorem triple_load_known {pre : Machine → Prop} (good : MmioBlock → Prop)
    (stable : Stable (driverSem env) pre) (reads : ∀ m, pre m → good m.block) :
    Triple (driverSem env) pre loadBlock fun block m => good block ∧ pre m := by
  refine Triple.call stable (fun block s t step holds => ⟨holds.1, stable s t step holds.2⟩) ?_
  intro s reply t holds step
  cases step
  exact ⟨reads s holds, holds⟩

/-- A flip of an output that is not in duty mode arms nothing. -/
theorem invert_unarmed (attending : Attending asked begun offset env) :
    Triple (driverSem env) (fun m => Ticking asked begun offset (Unarmed asked) m ∧
        m.block.outputPhase ≠ .hwDuty) hwPeriodicInvert
      fun _ => Ticking asked begun offset (Unarmed asked) := by
  have servicing : Servicing (Maintains (Unarmed asked)) := maintains_servicing
  have stable : Stable (driverSem env) fun m => Ticking asked begun offset (Unarmed asked) m ∧
      m.block.outputPhase ≠ .hwDuty := by
    rintro s t step ⟨ticking, plain⟩
    refine ⟨stable_ticking attending _ s t step ticking, ?_⟩
    rw [attending.block s t step]
    exact plain
  refine Triple.bind (Triple.call stable (fun _ => stable) fun s reply t holds step => ?_) fun _ => ?_
  · cases step
    exact ⟨⟨holds.1.measured, holds.1.asks, holds.1.block⟩, holds.2⟩
  refine Triple.bind (Triple.call stable (fun _ => stable) fun s reply t holds step => ?_) fun _ => ?_
  · cases step
    exact ⟨⟨holds.1.measured, holds.1.asks, holds.1.block⟩, holds.2⟩
  refine triple_known (triple_load_known (·.outputPhase ≠ .hwDuty) stable fun m holds => holds.2)
    fun block plain => ?_
  rw [if_neg plain]
  refine Triple.conseq ?_ (fun s holds => holds.1) fun _ _ ticking => ticking
  split
  · exact triple_maintains attending (uses_pure _)
  · exact triple_maintains attending (shift_half_period_uses servicing.toRewriting)

theorem triple_desired_waiting (attending : Attending asked begun offset env) :
    Triple (driverSem env) (Waiting asked begun offset) outputDesiredGet fun desired m =>
      Asks asked desired ∧ m.desired = desired ∧ Waiting asked begun offset m := by
  have stable := stable_waiting attending
  refine Triple.call stable (fun desired s t step holds =>
    ⟨holds.1, (attending.desired s t step).trans holds.2.1, stable s t step holds.2.2⟩) ?_
  intro s reply t waiting step
  cases step
  exact ⟨waiting.1.asks, rfl, waiting⟩

theorem apply_flip_unarmed (attending : Attending asked begun offset env)
    (desired : OutputDesired) :
    Triple (driverSem env) (fun m => m.desired = desired ∧ Waiting asked begun offset m)
      (applyFlip desired) fun _ => Ticking asked begun offset (Unarmed asked) := by
  have waiting := stable_waiting attending
  have recorded : Uses (Maintains (Unarmed asked)) (storeBlock (appliedFlip desired)) :=
    (uses_perform _).mpr (maintains_store fun _ holds => holds)
  have loads : Triple (driverSem env) (fun m => m.desired = desired ∧ Waiting asked begun offset m)
      loadBlock fun block m =>
        (m.block = block ∧ m.desired = desired) ∧ Waiting asked begun offset m := by
    refine Triple.call
      (fun s t step holds =>
        ⟨(attending.desired s t step).trans holds.1, waiting s t step holds.2⟩)
      (fun block s t step holds => ⟨⟨(attending.block s t step).trans holds.1.1,
        (attending.desired s t step).trans holds.1.2⟩, waiting s t step holds.2⟩) ?_
    intro s reply t holds step
    cases step
    exact ⟨⟨rfl, holds.1⟩, holds.2⟩
  refine Triple.bind loads fun block => ?_
  rintro s ⟨⟨rfl, rfl⟩, ticking, pending⟩
  split
  next flips =>
    refine Triple.bind (invert_unarmed attending) (fun _ => triple_maintains attending recorded)
      s ⟨ticking, fun duty => ?_⟩
    rw [pending.direct duty] at flips
    contradiction
  · exact triple_maintains attending recorded s ticking

theorem output_work_arms (attending : Attending asked begun offset env) (alongside : Alongside env)
    (running : asked.run = .running) :
    Triple (driverSem env) (Waiting asked begun offset) outputWork
      fun _ => ArmedFor asked begun offset := by
  refine Triple.bind (triple_desired_waiting attending) fun desired => Triple.given fun asks => ?_
  have same : desired.run = asked.run := by rw [asks]
  have gen : desired.gen = asked.gen := by rw [asks]
  rw [if_neg (by simp [same, running])]
  refine Triple.bind (apply_flip_unarmed attending desired) fun _ => ?_
  refine Triple.bind (triple_load_fact attending) fun block => Triple.given fun unarmed => ?_
  rw [if_pos (by rw [gen]; exact unarmed.symm)]
  exact reconcile_arm_arms attending alongside asks

/-- A tick arms a running configuration that is still pending. -/
theorem refine_tick_arms (attending : Attending asked begun offset env) (alongside : Alongside env)
    (running : asked.run = .running) :
    Triple (driverSem env) (Waiting asked begun offset) refineTickOutput
      fun _ => ArmedFor asked begun offset := by
  refine Triple.via (fun _ => Waiting asked begun offset) ?_
    fun _ => output_work_arms attending alongside running
  have stable := stable_waiting attending
  refine Triple.via (fun _ => Waiting asked begun offset) ?_ fun changed => ?_
  · refine Triple.call stable (fun _ => stable) ?_
    rintro s reply t ⟨ticking, pending⟩ step
    cases step
    have applies : Publish.freq.applies s.desired = true := by
      have same : s.desired.run = asked.run := by rw [ticking.asks]
      simp [Publish.applies, same, running]
    unfold Machine.publish
    rw [if_pos applies]
    refine ⟨⟨ticking.measured, ?_, ticking.block⟩, pending.unarmed, pending.direct⟩
    rw [ticking.asks]
    rfl
  split
  · refine Triple.call stable (fun _ => stable) ?_
    rintro s reply t ⟨ticking, pending⟩ step
    cases step
    exact ⟨⟨ticking.measured, ticking.asks, ticking.block⟩, pending.unarmed, pending.direct⟩
  · exact Triple.pure stable fun m waiting => waiting

end still

end Tgpio

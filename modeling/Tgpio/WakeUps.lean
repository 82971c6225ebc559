import Tgpio.Reconciler

/-!
# Lost wake-ups

One work item serves the timer and every publisher, and a run that returns
early has used up whatever queued it. Two early returns rely on a wake-up that
may already be gone: a refresh of an asymmetric output leaves the next edge to
the timer, and a refresh of a prepared output leaves the arm to it. A run is
`Wakeful` when neither return is taken without a wake-up pending.
-/

namespace Tgpio

open Interference Interference.Prog

set_option autoImplicit false

def Pending (m : Machine) : Prop :=
  m.timerArmed = true ∨ m.timerFiring = true ∨ m.workQueued = true ∨ 0 < m.owed

/-- A run on this snapshot would refresh the frequency of an asymmetric output,
and leave its next edge to the timer. -/
structure DutyRefresh (desired : OutputDesired) (block : MmioBlock) : Prop where
  gen : desired.gen = block.outputAppliedGen
  refreshed : desired.freqGen ≠ block.outputAppliedFreqGen
  phase : block.outputPhase = .hwDuty

def Unflipped (desired : OutputDesired) (block : MmioBlock) : Prop :=
  (desired.flipGen - block.outputAppliedFlipGen).getLsbD 0 = false

/-- `CLOCK_REALTIME` read here leads to a run that leaves the arm of a prepared
output to the timer. -/
structure EarlyWake (m : Machine) : Prop where
  gen : m.block.outputAppliedGen = m.desired.gen
  phase : m.block.outputPhase = .armPeriodic
  early : m.clocks.real < m.block.outputWakeAt

def Unfailing : Op → Machine → Prop
  | .mark .giveUp, _ => False
  | _, _ => True

/-- Unfailing runs in which neither early return uses up the last wake-up. -/
def Wakeful : Op → Machine → Prop
  | .mark .giveUp, _ => False
  | .outputDesiredGet, m => m.desired.run = .running → Unflipped m.desired m.block →
      DutyRefresh m.desired m.block → Pending m
  | .ktimeGetReal, m => EarlyWake m → Pending m
  | _, _ => True

abbrev wakeSem : Semantics Op Op.Resp Machine := guardedSem Wakeful Surroundings

/-- Runs of the work whose steps all meet the condition. -/
abbrev wakefulWorker : Worker Op Op.Resp Machine := outputWorkerOf wakeSem

/-- What a run may rely on throughout. -/
structure Base (desired : OutputDesired) (m : Machine) : Prop where
  queueable : m.workCancelling = false
  snapshot : Snapshot desired m.requests

def Overtaken (desired : OutputDesired) (m : Machine) : Prop :=
  desired.gen.toNat < m.desired.gen.toNat

section stability

variable {desired : OutputDesired}

theorem Pending.move {s t : Machine} (step : Surroundings s t) (queueable : s.workCancelling = false)
    (pending : Pending s) : Pending t := by
  have queues : s.scheduleWork.workQueued = true := by
    simp [Machine.scheduleWork, queueable]
  cases step with
  | clocks clocks => exact pending
  | expire _ _ => exact .inr (.inl rfl)
  | outputTimer _ => exact .inr (.inr (.inl queues))
  | beginPublish request _ _ => exact .inr (.inr (.inr (Nat.succ_pos _)))
  | endPublish _ => exact .inr (.inr (.inl queues))
  | edge _ => exact pending
  | fire _ => exact pending

theorem surroundings_cancelling {s t : Machine} (step : Surroundings s t) :
    t.workCancelling = s.workCancelling := by
  cases step with
  | beginPublish request _ _ =>
      simp only [Machine.beginPublish, Machine.publish]
      split <;> rfl
  | _ => rfl

theorem stable_base : Stable wakeSem (Base desired) := by
  intro s t step base
  refine ⟨(surroundings_cancelling step).trans base.queueable, ?_⟩
  obtain ⟨-, -, -, -, requests | ⟨request, room, requests⟩⟩ := surroundings_step step
  · rw [requests]
    exact base.snapshot
  · rw [requests]
    exact base.snapshot.publish room

theorem Base.pending_stable : Stable wakeSem fun m => Base desired m ∧ Pending m :=
  fun s t step holds => ⟨stable_base s t step holds.1, holds.2.move step holds.1.queueable⟩

theorem Base.overtaken_stable : Stable wakeSem fun m => Base desired m ∧ Overtaken desired m := by
  rintro s t step ⟨base, overtaken⟩
  refine ⟨stable_base s t step base, ?_⟩
  obtain ⟨-, -, -, -, requests | ⟨request, room, requests⟩⟩ := surroundings_step step
  · have same : t.desired = s.desired := congrArg Requests.desired requests
    rw [Overtaken, same]
    exact overtaken
  · have published : t.desired = (s.requests.publish request).desired :=
      congrArg Requests.desired requests
    rw [Overtaken, published]
    rcases publish_gen request base.snapshot.counts room with ⟨gen, -⟩ | gen
    · rw [gen]
      exact overtaken
    · rw [gen]
      exact Nat.lt_succ_of_lt overtaken

/-- Accesses of a run that leave an armed timer armed. -/
def Op.peaceful : Op → Prop
  | .hrtimerCancel => False
  | op => op.ofWork

theorem Op.peaceful.ofWork {op : Op} (peaceful : op.peaceful) : op.ofWork := by
  cases op <;> first | contradiction | trivial

theorem Base.step {op : Op} {s t : Machine} {reply : op.Resp} (work : op.ofWork)
    (step : Machine.perform op s = some (reply, t)) (base : Base desired s) : Base desired t := by
  have frame := of_work_frame work step
  have same : t.desired = s.desired ∧ t.served = s.served ∧ t.publishes = s.publishes ∧
      t.flips = s.flips ∧ t.workCancelling = s.workCancelling := by
    rw [frame]
    exact ⟨rfl, rfl, rfl, rfl, rfl⟩
  obtain ⟨desired_, served, publishes, flips, cancelling⟩ := same
  have counts := base.snapshot.counts
  refine ⟨cancelling.trans base.queueable, ⟨⟨?_, ?_, ?_⟩, ?_, ?_, ?_⟩⟩
  · simp only [Machine.requests, desired_, publishes]
    exact counts.total
  · simp only [Machine.requests, publishes]
    exact counts.bound
  · simp only [Machine.requests, desired_, flips]
    exact counts.flips
  · simp only [Machine.requests, desired_]
    exact base.snapshot.order
  · simp only [Machine.requests, desired_]
    exact base.snapshot.same
  · simp only [Machine.requests, desired_, served]
    exact base.snapshot.latest

theorem Pending.step {op : Op} {s t : Machine} {reply : op.Resp} (peaceful : op.peaceful)
    (step : Machine.perform op s = some (reply, t)) (pending : Pending s) : Pending t := by
  have frame := of_work_frame peaceful.ofWork step
  have same : t.timerFiring = s.timerFiring ∧ t.workQueued = s.workQueued ∧ t.owed = s.owed := by
    rw [frame]
    exact ⟨rfl, rfl, rfl⟩
  have armed : s.timerArmed = true → t.timerArmed = true := by
    intro before
    cases op with
    | readl reg =>
        cases step
        cases reg <;> exact before
    | writel reg value =>
        cases step
        cases reg <;> exact before
    | mark point =>
        cases step
        cases point <;> exact before
    | load | store | outputDesiredGet | sample | ktimeGetReal | msleep =>
        cases step
        exact before
    | hrtimerStart expires =>
        cases step
        rfl
    | _ => contradiction
  rw [Pending, same.1, same.2.1, same.2.2]
  exact pending.imp armed id

/-- A wake-up is pending, or the run will be followed by another anyway. -/
def Spared (desired : OutputDesired) (m : Machine) : Prop := Pending m ∨ Overtaken desired m

theorem Base.spared_stable : Stable wakeSem fun m => Base desired m ∧ Spared desired m := by
  rintro s t step ⟨base, pending | overtaken⟩
  · have holds := Base.pending_stable s t step ⟨base, pending⟩
    exact ⟨holds.1, .inl holds.2⟩
  · have holds := Base.overtaken_stable s t step ⟨base, overtaken⟩
    exact ⟨holds.1, .inr holds.2⟩

theorem stable_with_block {holds : Machine → Prop} (stable : Stable wakeSem holds)
    (record : MmioBlock → Prop) : Stable wakeSem fun m => holds m ∧ record m.block := by
  intro s t step before
  refine ⟨stable s t step before.1, ?_⟩
  rw [(surroundings_step step).2.1]
  exact before.2

end stability

section waking

variable {desired : OutputDesired}

/-- What the reconciler ensures in every run, it ensures in these. -/
theorem triple_guarded {α : Type} {pre : Machine → Prop} {program : Driver α}
    {post : α → Machine → Prop} (triple : Triple workSem pre program post) :
    Triple wakeSem pre program post := by
  intro s before
  refine wp_mono (fun _ _ holds => holds.1) (wp_view id (uses_true program) ?_ ?_ trivial
    (triple s before) : wp wakeSem program (fun value t => post value t ∧ True) s)
  · exact fun _ _ _ _ _ _ step => ⟨step.2, trivial⟩
  · exact fun _ _ _ step => ⟨step, trivial⟩

theorem triple_base {α : Type} {program : Driver α} (uses : Uses Op.ofWork program) :
    Triple wakeSem (Base desired) program fun _ => Base desired := by
  intro s base
  exact wp_uses uses (fun _ _ _ _ work step base => base.step work step.2) stable_base base

theorem triple_reads {α : Type} (read : Params → Clocks → α) :
    Triple wakeSem (Base desired) (sample read) fun _ => Base desired :=
  triple_base ((uses_perform _).mpr trivial)

theorem triple_never {α : Type} {pre : Machine → Prop} {rest : Unit → Driver α}
    {post : α → Machine → Prop} (stable : Stable wakeSem pre) :
    Triple wakeSem pre (mark .giveUp >>= rest) post := by
  refine Triple.via (fun _ _ => False) ?_ fun _ _ never => never.elim
  exact Triple.call stable (fun _ _ _ _ never => never) fun _ _ _ _ step => step.1

theorem triple_wake_at (time : Int) :
    Triple wakeSem (Base desired) (outputWakeAt time) fun _ m => Base desired m ∧ Pending m := by
  refine Triple.bind (triple_base ((uses_perform _).mpr trivial)) fun _ => ?_
  refine Triple.call stable_base (fun _ => Base.pending_stable) ?_
  intro s reply t base step
  refine ⟨base.step (of_work_working.start time) step.2, ?_⟩
  obtain ⟨-, step⟩ := step
  cases step
  exact .inl rfl

theorem triple_reconcile_wakes (config : OutputDesired) :
    Triple wakeSem (Base desired) (reconcileArm config) fun _ m => Base desired m ∧ Pending m := by
  have working := of_work_working
  refine Triple.bind (triple_base (prepare_output_timing_uses working.toReading _ _ _ _))
    fun timing => ?_
  cases timing with
  | error status => exact triple_never stable_base
  | ok timing =>
      refine Triple.bind (triple_base (arm_output_uses working.toArming _ _ _ _ _ trivial))
        fun status => ?_
      cases status with
      | error status => exact triple_never stable_base
      | ok done =>
          refine Triple.bind (triple_base ((uses_perform _).mpr trivial)) fun _ => ?_
          exact triple_wake_at _

theorem triple_software_wakes :
    Triple wakeSem (Base desired) softwareEdge fun _ m => Base desired m ∧ Pending m := by
  have working := of_work_working
  refine Triple.bind (triple_base ((uses_perform _).mpr trivial)) fun block => ?_
  refine Triple.bind (triple_reads _) fun edgeBits => ?_
  refine Triple.bind (triple_reads _) fun interval => ?_
  refine Triple.bind (triple_base (program_output_edge_uses working.toArming _ _)) fun status => ?_
  split
  · split
    · exact triple_never stable_base
    · refine Triple.bind (triple_base ((uses_perform _).mpr trivial)) fun _ => ?_
      exact triple_wake_at _
  · exact triple_never stable_base

theorem triple_duty_wakes :
    Triple wakeSem (Base desired) hwDutyService fun _ m => Base desired m ∧ Pending m := by
  have working := of_work_working
  refine Triple.bind (triple_base (hw_flop_fold_uses working.toFolding)) fun _ => ?_
  refine Triple.bind (triple_base ((uses_perform _).mpr trivial)) fun block => ?_
  refine Triple.bind (triple_reads _) fun piv => ?_
  refine Triple.bind (triple_base (refresh_piv_uses working.toRewriting _)) fun _ => ?_
  refine Triple.bind (triple_base (read_compv_uses working.toReading)) fun compv => ?_
  split
  · exact triple_never stable_base
  refine Triple.bind (triple_reads _) fun pending => ?_
  refine Triple.bind (triple_reads _) fun now => ?_
  split
  · refine Triple.bind (triple_reads _) fun delayReal => ?_
    refine Triple.bind (triple_base ((uses_perform _).mpr trivial)) fun nowReal => ?_
    split <;> exact triple_wake_at _
  · refine Triple.bind (triple_base ((uses_perform _).mpr trivial)) fun nowReal => ?_
    exact triple_wake_at _

/-- Free-running, the output needs no further wake-up. -/
def Awaited (m : Machine) : Prop := Pending m ∨ m.block.outputPhase = .hardwarePeriodic

theorem Base.awaited_stable : Stable wakeSem fun m => Base desired m ∧ Awaited m := by
  rintro s t step ⟨base, pending | free⟩
  · have holds := Base.pending_stable s t step ⟨base, pending⟩
    exact ⟨holds.1, .inl holds.2⟩
  · refine ⟨stable_base s t step base, .inr ?_⟩
    rw [(surroundings_step step).2.1]
    exact free

/-- A prepared output free-runs from here, or is served after its first edge. -/
theorem triple_start_awaited (ctrl : BitVec 32) (firstEdgeNs : Int)
    (highTimeNs lowTimeNs firstArt initialPiv : Nat) :
    Triple wakeSem (Base desired)
      (startHardwarePeriodic ctrl firstEdgeNs highTimeNs lowTimeNs firstArt initialPiv)
      fun _ m => Base desired m ∧ Awaited m := by
  have working := of_work_working
  refine Triple.bind (triple_base ((uses_perform _).mpr trivial)) fun _ => ?_
  refine Triple.bind (triple_base (write_piv_uses _ working.data)) fun _ => ?_
  refine Triple.bind (triple_base (write_compv_uses _ working.data)) fun _ => ?_
  by_cases duty : highTimeNs ≠ lowTimeNs
  · refine Triple.bind (triple_base ((uses_perform _).mpr trivial)) fun _ => ?_
    refine Triple.bind (triple_base ((uses_perform _).mpr trivial)) fun _ => ?_
    rw [if_pos duty]
    refine Triple.bind (triple_base ((uses_perform _).mpr trivial)) fun nowReal => ?_
    exact (triple_wake_at _).post fun _ m holds => ⟨holds.1, .inl holds.2⟩
  · have free := stable_with_block (@stable_base desired)
      fun block => block.outputPhase = .hardwarePeriodic
    refine Triple.via (fun _ m => Base desired m ∧
      m.block.outputPhase = .hardwarePeriodic) ?_ fun _ => ?_
    · refine Triple.call stable_base (fun _ => free) ?_
      intro s reply t base step
      refine ⟨base.step (of_work_working.store _) step.2, ?_⟩
      obtain ⟨-, step⟩ := step
      cases step
      exact if_neg duty
    refine Triple.via (fun _ m => Base desired m ∧
      m.block.outputPhase = .hardwarePeriodic) ?_ fun _ => ?_
    · refine Triple.call free (fun _ => free) ?_
      rintro s reply t ⟨base, phase⟩ step
      refine ⟨base.step (of_work_working.writel _ _) step.2, ?_⟩
      obtain ⟨-, step⟩ := step
      cases step
      exact phase
    rw [if_neg duty]
    exact Triple.pure free fun _ holds => ⟨holds.1, .inr holds.2⟩

def KeepsPhase (op : Op) : Prop :=
  op.ofWork ∧ ∀ s reply t, Machine.perform op s = some (reply, t) →
    t.block.outputPhase = s.block.outputPhase

theorem keeps_phase_rewriting : Rewriting KeepsPhase where
  readl reg := by
    refine ⟨trivial, fun s reply t step => ?_⟩
    cases step
    cases reg <;> rfl
  load := by
    refine ⟨trivial, fun s reply t step => ?_⟩
    cases step
    rfl
  sample α read := by
    refine ⟨trivial, fun s reply t step => ?_⟩
    cases step
    rfl
  real := by
    refine ⟨trivial, fun s reply t step => ?_⟩
    cases step
    rfl
  desired := by
    refine ⟨trivial, fun s reply t step => ?_⟩
    cases step
    rfl
  sleep msecs := by
    refine ⟨trivial, fun s reply t step => ?_⟩
    cases step
    rfl
  looked := by
    refine ⟨trivial, fun s reply t step => ?_⟩
    cases step
    rfl
  duty compv := by
    refine ⟨trivial, fun s reply t step => ?_⟩
    cases step
    rfl
  periodic compv := by
    refine ⟨trivial, fun s reply t step => ?_⟩
    cases step
    rfl
  writel reg value := by
    refine ⟨trivial, fun s reply t step => ?_⟩
    cases step
    cases reg <;> rfl
  pace piv := by
    refine ⟨trivial, fun s reply t step => ?_⟩
    cases step
    rfl
  checkpoint compv := by
    refine ⟨trivial, fun s reply t step => ?_⟩
    cases step
    rfl
  edge time := by
    refine ⟨trivial, fun s reply t step => ?_⟩
    cases step
    rfl

theorem triple_phase {α : Type} {program : Driver α} (phase : OutputPhase → Prop)
    (uses : Uses KeepsPhase program) :
    Triple wakeSem (fun m => Base desired m ∧ phase m.block.outputPhase) program
      fun _ m => Base desired m ∧ phase m.block.outputPhase := by
  intro s before
  refine wp_uses uses ?_ (stable_with_block stable_base fun block => phase block.outputPhase) before
  rintro op s reply t ⟨work, keeps⟩ step ⟨base, holds⟩
  refine ⟨base.step work step.2, ?_⟩
  rw [keeps s reply t step.2]
  exact holds

theorem triple_apply_freq_awaited :
    Triple wakeSem (fun m => Base desired m ∧ m.block.outputPhase = .hardwarePeriodic)
      (hwPeriodicApplyFreq desired) fun _ m => Base desired m ∧ Awaited m := by
  have rewriting := keeps_phase_rewriting
  have free := stable_with_block (@stable_base desired)
    fun block => block.outputPhase = .hardwarePeriodic
  have keeps {α : Type} {program : Driver α} (uses : Uses KeepsPhase program) :
      Triple wakeSem (fun m => Base desired m ∧ m.block.outputPhase = .hardwarePeriodic) program
        fun _ m => Base desired m ∧ m.block.outputPhase = .hardwarePeriodic :=
    triple_phase (· = .hardwarePeriodic) uses
  have ends : Triple wakeSem (fun m => Base desired m ∧ m.block.outputPhase = .hardwarePeriodic)
      (pure () : Driver Unit) fun _ m => Base desired m ∧ Awaited m :=
    Triple.pure free fun _ holds => ⟨holds.1, .inr holds.2⟩
  refine Triple.bind (keeps ((uses_perform _).mpr rewriting.load)) fun block => ?_
  refine Triple.bind (keeps ((uses_perform _).mpr (rewriting.sample _ _))) fun piv => ?_
  refine Triple.bind (keeps (hw_flop_fold_uses rewriting.toFolding)) fun _ => ?_
  refine Triple.bind (keeps (refresh_piv_uses rewriting _)) fun _ => ?_
  refine Triple.bind (keeps (hw_periodic_phase_get_uses rewriting.toReading _ _)) fun phase => ?_
  split
  · exact ends
  unfold nudgePhase
  split
  · exact (triple_reconcile_wakes desired).conseq (fun _ holds => holds.1)
      fun _ m holds => ⟨holds.1, .inl holds.2⟩
  refine Triple.bind (keeps ((uses_perform _).mpr (rewriting.sample _ _))) fun tolerance => ?_
  split
  · exact ends
  split
  · exact ends
  refine Triple.bind (keeps ((uses_perform _).mpr (rewriting.sample _ _))) fun nudgedArt => ?_
  split
  · exact ends
  refine Triple.bind (keeps (hw_periodic_write_compv_paused_uses rewriting _)) fun _ => ?_
  exact (keeps ((uses_perform _).mpr (rewriting.edge _))).post
    fun _ m holds => ⟨holds.1, .inr holds.2⟩

theorem triple_arm_awaited (firstEdgeNs : Int) (highTimeNs lowTimeNs : Nat) :
    Triple wakeSem (Base desired) (armHardwarePeriodic firstEdgeNs highTimeNs lowTimeNs)
      fun status m => Base desired m ∧ (status = .ok () → Awaited m) := by
  have working := of_work_working
  have refuses (status : Errno) : Triple wakeSem (Base desired)
      (pure (.error status) : Driver (Except Errno Unit))
      fun status m => Base desired m ∧ (status = .ok () → Awaited m) :=
    Triple.pure stable_base fun _ base => ⟨base, nofun⟩
  refine Triple.bind (triple_reads _) fun firstArt => ?_
  refine Triple.bind (triple_reads _) fun highArt => ?_
  refine Triple.bind (triple_reads _) fun lowArt => ?_
  split
  · exact refuses _
  refine Triple.bind (triple_base (stop_for_rearm_uses working.toHalting)) fun ctrl => ?_
  refine Triple.bind (triple_base ((uses_perform _).mpr trivial)) fun _ => ?_
  refine Triple.bind (triple_base ((uses_perform _).mpr trivial)) fun block => ?_
  refine Triple.bind (triple_reads _) fun nowArt => ?_
  refine Triple.bind (triple_reads _) fun margin => ?_
  split
  · exact refuses _
  refine Triple.bind (triple_start_awaited _ _ _ _ _ _) fun _ => ?_
  exact Triple.pure Base.awaited_stable fun _ holds => ⟨holds.1, fun _ => holds.2⟩

/-- Serving an edge asks for the next wake-up, or needs none. -/
theorem triple_service_awaited :
    Triple wakeSem (Base desired) serviceEdge fun _ m => Base desired m ∧ Awaited m := by
  have wakes {program : Driver Unit} (triple : Triple wakeSem (Base desired) program
      fun _ m => Base desired m ∧ Pending m) (block : MmioBlock) :
      Triple wakeSem (fun m => Base desired m ∧ m.block = block) program
        fun _ m => Base desired m ∧ Awaited m :=
    triple.conseq (fun _ holds => holds.1) fun _ m holds => ⟨holds.1, .inl holds.2⟩
  refine Triple.via (fun block m => Base desired m ∧ m.block = block) ?_ fun block => ?_
  · refine Triple.call stable_base (fun block => stable_with_block stable_base (· = block)) ?_
    intro s reply t base step
    refine ⟨base.step of_work_working.load step.2, ?_⟩
    obtain ⟨-, step⟩ := step
    cases step
    rfl
  split
  · refine Triple.bind ((triple_arm_awaited _ _ _).conseq (fun _ holds => holds.1)
      fun _ _ holds => holds) fun status => ?_
    cases status with
    | ok done =>
        exact Triple.pure (fun s t step holds =>
          have kept := Base.awaited_stable s t step ⟨holds.1, holds.2 rfl⟩
          ⟨kept.1, fun _ => kept.2⟩) fun _ holds => ⟨holds.1, holds.2 rfl⟩
    | error status =>
        exact (triple_never stable_base).conseq (fun _ holds => holds.1) fun _ _ holds => holds
  · exact wakes triple_duty_wakes block
  · rename_i free
    exact Triple.pure (stable_with_block stable_base (· = block))
      fun _ holds => ⟨holds.1, .inr (holds.2 ▸ free)⟩
  · exact wakes triple_software_wakes block
  · exact wakes triple_software_wakes block

/-- A wake-up is pending, another run will follow, or none is needed. -/
def Attended (desired : OutputDesired) (m : Machine) : Prop := Awaited m ∨ Overtaken desired m

/-- Under a condition on the block, a wake-up or another run is on its way. -/
def SparedIf (desired : OutputDesired) (condition : MmioBlock → Prop) (m : Machine) : Prop :=
  Base desired m ∧ (condition m.block → Spared desired m)

theorem SparedIf.stable (condition : MmioBlock → Prop) :
    Stable wakeSem (SparedIf desired condition) := by
  rintro s t step ⟨base, spared⟩
  refine ⟨stable_base s t step base, fun holds => ?_⟩
  rw [(surroundings_step step).2.1] at holds
  exact (Base.spared_stable s t step ⟨base, spared holds⟩).2

theorem triple_spared_load (condition : MmioBlock → Prop) :
    Triple wakeSem (SparedIf desired condition) loadBlock
      fun block m => SparedIf desired condition m ∧ m.block = block := by
  refine Triple.call (SparedIf.stable condition)
    (fun block => stable_with_block (SparedIf.stable condition) (· = block)) ?_
  rintro s reply t holds ⟨-, step⟩
  cases step
  exact ⟨holds, rfl⟩

/-- An inverted duty output has been armed afresh, unless it has been stopped
in the meantime. -/
theorem triple_invert_spared (running : desired.run = .running) :
    Triple wakeSem (Base desired) hwPeriodicInvert
      fun _ => SparedIf desired fun block => block.outputPhase = .hwDuty := by
  refine Triple.bind (triple_base ((uses_perform _).mpr trivial)) fun _ => ?_
  refine Triple.bind (triple_base ((uses_perform _).mpr trivial)) fun _ => ?_
  refine Triple.bind ((triple_spared_load fun _ => False).conseq
    (fun _ base => ⟨base, False.elim⟩) fun _ _ holds => ⟨holds.1.1, holds.2⟩ :
    Triple wakeSem (Base desired) loadBlock fun block m => Base desired m ∧ m.block = block)
    fun block => ?_
  by_cases duty : block.outputPhase = .hwDuty
  · rw [if_pos duty]
    refine Triple.via (fun second => SparedIf desired fun _ => second.run ≠ .running)
      ?_ fun second => ?_
    · refine Triple.call (stable_with_block stable_base (· = block))
        (fun second => SparedIf.stable _) ?_
      rintro s reply t ⟨base, -⟩ ⟨-, step⟩
      cases step
      refine ⟨base, fun stopped => .inr (lt_of_le_of_ne base.snapshot.order fun same => ?_)⟩
      have equal : desired.run = s.desired.run := (base.snapshot.same (BitVec.eq_of_toNat_eq same)).1
      exact stopped (equal.symm.trans running)
    split
    · exact (triple_reconcile_wakes second).conseq (fun _ holds => holds.1)
        fun _ m holds => ⟨holds.1, fun _ => .inl holds.2⟩
    · rename_i stopped
      exact Triple.pure (SparedIf.stable _) fun _ holds => ⟨holds.1, fun _ => holds.2 stopped⟩
  rw [if_neg duty]
  have other {program : Driver Unit} (uses : Uses KeepsPhase program) :
      Triple wakeSem (fun m => Base desired m ∧ m.block = block) program
        fun _ => SparedIf desired fun block => block.outputPhase = .hwDuty :=
    (triple_phase (· ≠ .hwDuty) uses).conseq (fun _ holds => ⟨holds.1, holds.2 ▸ duty⟩)
      fun _ m holds => ⟨holds.1, fun phase => absurd phase holds.2⟩
  split
  · exact other (uses_pure _)
  · exact other (shift_half_period_uses keeps_phase_rewriting)

theorem triple_flip_spared (running : desired.run = .running) :
    Triple wakeSem (SparedIf desired fun block => Unflipped desired block ∧ DutyRefresh desired block)
      (applyFlip desired) fun _ => SparedIf desired (DutyRefresh desired) := by
  refine Triple.bind (triple_spared_load _) fun block => ?_
  by_cases flipped : (desired.flipGen - block.outputAppliedFlipGen).getLsbD 0 = true
  · rw [if_pos flipped]
    refine Triple.bind ((triple_invert_spared running).conseq (fun _ holds => holds.1.1)
      fun _ _ holds => holds) fun _ => ?_
    refine Triple.call (SparedIf.stable _) (fun _ => SparedIf.stable _) ?_
    rintro s reply t ⟨base, spared⟩ step
    refine ⟨base.step (of_work_working.store _) step.2, ?_⟩
    obtain ⟨-, step⟩ := step
    cases step
    exact fun refresh => spared refresh.phase
  · rw [if_neg flipped]
    rw [Bool.not_eq_true] at flipped
    have stable := stable_with_block (@SparedIf.stable desired
      fun block => Unflipped desired block ∧ DutyRefresh desired block) (· = block)
    refine Triple.call stable (fun _ => SparedIf.stable _) ?_
    rintro s reply t ⟨⟨base, spared⟩, loaded⟩ step
    refine ⟨base.step (of_work_working.store _) step.2, ?_⟩
    obtain ⟨-, step⟩ := step
    cases step
    exact fun refresh => spared ⟨loaded ▸ flipped, refresh.gen, refresh.refreshed, refresh.phase⟩

theorem Attended.stable : Stable wakeSem fun m => Base desired m ∧ Attended desired m := by
  rintro s t step ⟨base, awaited | overtaken⟩
  · have holds := Base.awaited_stable s t step ⟨base, awaited⟩
    exact ⟨holds.1, .inl holds.2⟩
  · have holds := Base.overtaken_stable s t step ⟨base, overtaken⟩
    exact ⟨holds.1, .inr holds.2⟩

theorem Spared.attended {m : Machine} (spared : Spared desired m) : Attended desired m :=
  spared.imp .inl id

/-- The early returns of a refresh. -/
theorem triple_refresh_attended (block : MmioBlock) (current : block.outputAppliedGen = desired.gen) :
    Triple wakeSem
      (fun m => SparedIf desired (fun block => block.outputPhase = .hwDuty) m ∧
        m.block = appliedFreq desired block)
      (match block.outputPhase with
        | .hardwarePeriodic => hwPeriodicApplyFreq desired
        | .hwDuty => return
        | .armPeriodic => do
          let nowReal ← ktimeGetReal
          if nowReal < block.outputWakeAt then return
          else serviceEdge
        | .firstRising => serviceEdge
        | .toggle => serviceEdge)
      fun _ m => Base desired m ∧ Attended desired m := by
  have stable := stable_with_block (@SparedIf.stable desired
    fun block => block.outputPhase = .hwDuty) (· = appliedFreq desired block)
  have serves : Triple wakeSem (Base desired) serviceEdge
      fun _ m => Base desired m ∧ Attended desired m :=
    triple_service_awaited.post fun _ m holds => ⟨holds.1, .inl holds.2⟩
  split
  · rename_i free
    exact triple_apply_freq_awaited.conseq (fun _ holds => ⟨holds.1.1, holds.2 ▸ free⟩)
      fun _ m holds => ⟨holds.1, .inl holds.2⟩
  · rename_i duty
    exact Triple.pure stable fun _ holds => ⟨holds.1.1, (holds.1.2 (holds.2 ▸ duty)).attended⟩
  · rename_i prepared
    refine Triple.via (fun now => SparedIf desired fun _ => now < block.outputWakeAt)
      ?_ fun now => ?_
    · refine Triple.call stable (fun now => SparedIf.stable _) ?_
      rintro s reply t ⟨⟨base, -⟩, loaded⟩ ⟨wakes, step⟩
      cases step
      refine ⟨base, fun early => ?_⟩
      by_cases overtaken : desired.gen = s.desired.gen
      · refine .inl (wakes ⟨?_, ?_, ?_⟩)
        · rw [loaded]
          exact current.trans overtaken
        · rw [loaded]
          exact prepared
        · rw [loaded]
          exact early
      · exact .inr (lt_of_le_of_ne base.snapshot.order
          fun same => overtaken (BitVec.eq_of_toNat_eq same))
    split
    · rename_i early
      exact Triple.pure (SparedIf.stable _) fun _ holds => ⟨holds.1, (holds.2 early).attended⟩
    · exact serves.conseq (fun _ holds => holds.1) fun _ _ holds => holds
  · exact serves.conseq (fun _ holds => holds.1.1) fun _ _ holds => holds
  · exact serves.conseq (fun _ holds => holds.1.1) fun _ _ holds => holds

theorem triple_service_attended :
    Triple wakeSem (fun m => SparedIf desired (DutyRefresh desired) m ∧
        m.block.outputAppliedGen = desired.gen)
      (serviceOutput desired) fun _ m => Base desired m ∧ Attended desired m := by
  have serves : Triple wakeSem (Base desired) serviceEdge
      fun _ m => Base desired m ∧ Attended desired m :=
    triple_service_awaited.post fun _ m holds => ⟨holds.1, .inl holds.2⟩
  refine Triple.via (fun block m => SparedIf desired (DutyRefresh desired) m ∧ m.block = block ∧
    block.outputAppliedGen = desired.gen) ?_ fun block => ?_
  · refine Triple.call (stable_with_block (SparedIf.stable _)
      fun block => block.outputAppliedGen = desired.gen)
      (fun block => stable_with_block (SparedIf.stable _)
        fun now => now = block ∧ block.outputAppliedGen = desired.gen) ?_
    rintro s reply t ⟨spared, current⟩ ⟨-, step⟩
    cases step
    exact ⟨spared, rfl, current⟩
  by_cases current : block.outputAppliedGen = desired.gen
  · by_cases refreshed : desired.freqGen ≠ block.outputAppliedFreqGen
    · rw [if_pos refreshed]
      refine Triple.bind ?_ fun _ => triple_refresh_attended block current
      refine Triple.call (stable_with_block (SparedIf.stable _)
        fun now => now = block ∧ block.outputAppliedGen = desired.gen)
        (fun _ => stable_with_block (SparedIf.stable _) (· = appliedFreq desired block)) ?_
      rintro s reply t ⟨⟨base, spared⟩, loaded, -⟩ step
      have after : Base desired t := base.step (of_work_working.store _) step.2
      obtain ⟨-, step⟩ := step
      cases step
      rw [loaded] at spared
      exact ⟨⟨after, fun phase => spared ⟨current.symm, refreshed, loaded ▸ phase⟩⟩,
        congrArg (appliedFreq desired) loaded⟩
    · rw [if_neg refreshed]
      exact serves.conseq (fun _ holds => holds.1.1) fun _ _ holds => holds
  · exact fun s holds => absurd holds.2.2 current

end waking

section runs

/-- A RUNNING output at its published generation is waiting for something. -/
def Awake (m : Machine) : Prop :=
  m.desired.run = .running → m.block.outputAppliedGen = m.desired.gen →
    m.block.outputPhase ≠ .hardwarePeriodic → Pending m

variable {desired : OutputDesired}

theorem Attended.awake {m : Machine} (attended : Attended desired m)
    (current : m.block.outputAppliedGen = desired.gen) : Awake m := by
  intro _ applied phase
  rcases attended with (pending | free) | overtaken
  · exact pending
  · exact absurd free phase
  · rw [Overtaken, ← applied, current] at overtaken
    exact absurd overtaken (lt_irrefl _)

/-- A stopped snapshot with a running configuration has been overtaken. -/
theorem awake_of_stopped {m : Machine} (stopped : desired.run = .stopped)
    (behind : m.applied.gen.toNat ≤ desired.gen.toNat) (snapshot : Snapshot desired m.requests) :
    Awake m := by
  intro running applied _
  have same : m.block.outputAppliedGen.toNat = m.desired.gen.toNat :=
    congrArg BitVec.toNat applied
  have order : desired.gen.toNat ≤ m.desired.gen.toNat := snapshot.order
  change m.block.outputAppliedGen.toNat ≤ desired.gen.toNat at behind
  have gen : desired.gen = m.desired.gen := BitVec.eq_of_toNat_eq (by omega)
  have run : desired.run = m.desired.run := (snapshot.same gen).1
  rw [stopped, running] at run
  contradiction

def Taken (desired : OutputDesired) (gen : BitVec 32) (applied : Applied) (requests : Requests) :
    Prop :=
  applied.gen.toNat ≤ desired.gen.toNat ∧ Following desired (Flips gen (gen.getLsbD 0)) applied requests

theorem lasting_taken (desired : OutputDesired) (gen : BitVec 32) : Lasting (Taken desired gen) :=
  fun applied requests request room holds =>
    ⟨holds.1, lasting_following _ (lasting_flips _ _) applied requests request room holds.2⟩

theorem triple_serve_awake :
    Triple wakeSem (fun m => Following desired (Flips desired.flipGen (desired.flipGen.getLsbD 0))
        m.applied m.requests ∧ SparedIf desired (DutyRefresh desired) m)
      (do
        let block ← loadBlock
        if desired.gen ≠ block.outputAppliedGen then reconcileArm desired
        else serviceOutput desired)
      fun _ => Awake := by
  have following := lasting_following desired
    (lasting_flips desired.flipGen (desired.flipGen.getLsbD 0))
  have stable := following.stable.and (@SparedIf.stable desired (DutyRefresh desired))
  refine Triple.via (fun block m => (Following desired (Flips desired.flipGen
    (desired.flipGen.getLsbD 0)) m.applied m.requests ∧ SparedIf desired (DutyRefresh desired) m) ∧
    m.block = block) ?_ fun block => ?_
  · refine Triple.call stable (fun block => stable_with_block stable (· = block)) ?_
    rintro s reply t holds ⟨-, step⟩
    cases step
    exact ⟨holds, rfl⟩
  by_cases changed : desired.gen = block.outputAppliedGen
  · rw [if_neg (not_not.mpr changed)]
    rintro s ⟨⟨holds, spared⟩, rfl⟩
    refine wp_mono ?_ (wp_and (triple_service_attended s ⟨spared, changed.symm⟩)
      (triple_guarded (triple_service_current (lasting_flips _ _)) s ⟨holds, changed.symm⟩))
    exact fun _ m after => after.1.2.awake after.2.2
  · rw [if_pos changed]
    exact (triple_reconcile_wakes desired).conseq (fun _ holds => holds.1.2.1)
      fun _ m holds _ _ _ => holds.2

/-- A run whose snapshot is spared leaves the output awake. -/
theorem triple_work_awake {gen : BitVec 32} :
    Triple wakeSem (fun m => (Sound m.applied m.requests ∧ Counts m.requests ∧
        Flips gen (gen.getLsbD 0) m.requests) ∧ m.workCancelling = false) outputWork
      fun _ => Awake := by
  have begins : Lasting fun applied requests => Sound applied requests ∧ Counts requests ∧
      Flips gen (gen.getLsbD 0) requests :=
    fun applied requests request room holds => ⟨holds.1.publish holds.2.1 room,
      holds.2.1.publish room, holds.2.2⟩
  have queueable : Stable wakeSem fun m => m.workCancelling = false :=
    fun s t step before => (surroundings_cancelling step).trans before
  refine Triple.via (fun desired m => Taken desired gen m.applied m.requests ∧
    SparedIf desired (fun block => desired.run = .running ∧ Unflipped desired block ∧
      DutyRefresh desired block) m) ?_ fun desired => ?_
  · refine Triple.call (begins.stable.and queueable) (fun desired =>
      (lasting_taken desired gen).stable.and (SparedIf.stable _)) ?_
    rintro s reply t ⟨⟨sound, counts, flips⟩, queueable⟩ ⟨wakes, step⟩
    cases step
    exact ⟨⟨sound.order, sound, counts.snapshot, flips⟩, ⟨queueable, counts.snapshot⟩,
      fun refresh => .inl (wakes refresh.1 refresh.2.1 refresh.2.2)⟩
  by_cases stop : desired.run = .stopped
  · rw [if_pos stop]
    have keeps := triple_keeps (lasting_taken desired gen)
      (stop_output_uses keeps_servicing.toHalting keeps_servicing.cancel)
    exact (triple_guarded keeps).conseq (fun _ holds => holds.1)
      fun _ m holds => awake_of_stopped stop holds.1 holds.2.2.1
  have running : desired.run = .running := by
    cases run : desired.run with
    | stopped => exact absurd run stop
    | running => rfl
  rw [if_neg stop]
  refine Triple.bind ?_ fun _ => triple_serve_awake
  rintro s ⟨taken, spared⟩
  exact wp_and (triple_guarded triple_apply_flip s taken.2)
    (triple_flip_spared running s ⟨spared.1, fun refresh => spared.2 ⟨running, refresh⟩⟩)

theorem triple_work_queueable :
    Triple wakeSem (fun m => m.workCancelling = false) outputWork
      fun _ m => m.workCancelling = false := by
  intro s before
  refine wp_uses (output_work_uses of_work_working) ?_
    (fun s t step before => (surroundings_cancelling step).trans before) before
  intro op s reply t work step before
  rw [of_work_frame work step.2]
  exact before

/-- Between two runs: reconciled, and awake. -/
structure Woken (m : Machine) : Prop where
  reconciled : Reconciled m
  queueable : m.workCancelling = false
  awake : Awake m

theorem Woken.move {s t : Machine} (step : Surroundings s t) (woken : Woken s) :
    Woken t := by
  have counts := woken.reconciled.counts
  refine ⟨woken.reconciled.move step, (surroundings_cancelling step).trans woken.queueable, ?_⟩
  intro running applied phase
  obtain ⟨_, block, -, -, requests | ⟨request, room, requests⟩⟩ := surroundings_step step
  · have desired : t.desired = s.desired := congrArg Requests.desired requests
    rw [desired] at running applied
    rw [block] at applied phase
    exact (woken.awake running applied phase).move step woken.queueable
  · cases step with
    | beginPublish request _ _ => exact .inr (.inr (.inr (Nat.succ_pos _)))
    | endPublish _ =>
        refine .inr (.inr (.inl ?_))
        simp [Machine.endPublish, Machine.scheduleWork, woken.queueable]
    | _ =>
        have published : s.publishes = s.publishes + 1 := congrArg Requests.publishes requests
        omega

theorem Woken.run {s t : Machine} (start : wakefulWorker.start s t) (woken : Woken s) :
    wp wakefulWorker.toSemantics wakefulWorker.program (wakefulWorker.Owes Woken) t := by
  obtain ⟨-, -, rfl⟩ := start
  have counts := woken.reconciled.counts
  have sound := woken.reconciled.sound
  have begun : Sound s.beginRun.applied s.beginRun.requests ∧ Counts s.beginRun.requests ∧
      Flips s.block.outputAppliedFlipGen (s.block.outputAppliedFlipGen.getLsbD 0)
        s.beginRun.requests :=
    ⟨⟨sound.order, sound.times⟩, ⟨counts.total, counts.bound, counts.flips⟩, rfl,
      woken.reconciled.parity⟩
  refine wp_mono ?_ (wp_and (wp_and (triple_guarded triple_work_reconciles s.beginRun begun)
    (triple_work_awake s.beginRun ⟨begun, woken.queueable⟩))
    (triple_work_queueable s.beginRun woken.queueable))
  rintro _ u ⟨⟨after, awake⟩, queueable⟩ _ rfl
  exact ⟨⟨after.counts, after.sound, after.parity, after.stopped, after.running⟩, queueable, awake⟩

end runs

/-- No wake-up is lost in runs that meet the condition: an output that still
has edges to be served is being served, or something is on its way to queue the
work, or has queued it. -/
theorem running_output_has_wake_up (params : Params) (clocks : Clocks) (regs : Regs) (flop : Bool)
    (last : Worker.Config Op Op.Resp Machine)
    (reaches : wakefulWorker.Reaches ⟨.zeroed params clocks regs flop, none⟩ last)
    (running : last.state.desired.run = .running)
    (applied : last.state.block.outputAppliedGen = last.state.desired.gen)
    (phase : last.state.block.outputPhase ≠ .hardwarePeriodic) :
    last.run.isSome = true ∨ last.state.timerArmed = true ∨ last.state.timerFiring = true ∨
      last.state.workQueued = true ∨ 0 < last.state.owed := by
  have woken : wakefulWorker.Holds Woken last :=
    Worker.holds_reaches (fun _ _ => Woken.move) (fun _ _ => Woken.run) reaches
      ⟨zeroed_reconciled params clocks regs flop, rfl, nofun⟩
  obtain ⟨state, run⟩ := last
  cases run with
  | none => exact .inr (woken.awake running applied phase)
  | some program => exact .inl rfl

def dutyStart : List (Worker.Traced Event) :=
  [.act (.publish (.configure .running .hardware 1000000000 300000000 700000000 2000000000)), .run,
    .act .timer, .run]

def unfailingTracer : (outputWorkerOf (guardedSem Unfailing Surroundings)).Tracer Event :=
  guardedTracer (fun op _ => match op with
    | .mark .giveUp => false
    | _ => true) fun op m checked => by
      cases op with
      | mark point => cases point <;> first | contradiction | trivial
      | _ => trivial

/-- Runs that meet the condition because neither early return is near. -/
def wakefulTracer : wakefulWorker.Tracer Event :=
  guardedTracer (fun op m => match op with
    | .mark .giveUp => false
    | .outputDesiredGet => m.block.outputPhase != .hwDuty
    | .ktimeGetReal => m.block.outputPhase != .armPeriodic ||
        m.block.outputAppliedGen != m.desired.gen
    | _ => true) fun op m checked => by
      cases op with
      | mark point => cases point <;> first | contradiction | trivial
      | outputDesiredGet => exact fun _ _ refresh => absurd refresh.phase (by simpa using checked)
      | ktimeGetReal =>
          intro early
          simp [early.phase, early.gen] at checked
      | _ => trivial

theorem running_output_has_wake_up_duty_start :
    (wakefulTracer.after 1000 loadedBlock dutyStart).timerArmed = true := by
  have reaches := wakefulTracer.after_reaches 1000 loadedBlock dutyStart (by decide +kernel)
  have waits := running_output_has_wake_up _ _ _ _ _ reaches (by decide +kernel)
    (by decide +kernel) (by decide +kernel)
  rcases waits with ⟨⟨⟩⟩ | armed | firing | queued | owed
  · exact armed
  · exact absurd firing (by decide +kernel)
  · exact absurd queued (by decide +kernel)
  · exact absurd owed (by decide +kernel)

/-- A frequency refresh that reaches an asymmetric output between the expiry of
its timer and the run uses up the wake-up: the service of its edges has died. -/
theorem refresh_kills_duty_service :
    ∃ last, (outputWorkerOf (guardedSem Unfailing Surroundings)).Reaches
        ⟨loadedBlock, none⟩ ⟨last, none⟩ ∧
      last.desired.run = .running ∧ last.block.outputAppliedGen = last.desired.gen ∧
      last.block.outputPhase = .hwDuty ∧
      last.timerArmed = false ∧ last.timerFiring = false ∧ last.workQueued = false ∧
      last.owed = 0 := by
  refine ⟨_, unfailingTracer.after_reaches 1000 loadedBlock
    (dutyStart ++ [.act .timer, .act (.publish .freq), .run]) (by decide +kernel), ?_⟩
  decide +kernel

end Tgpio

import Tgpio.RequestTimes

/-!
# A refine tick of a realtime output

A tick bumps the frequency generation of a running output and queues its work.
For a configuration that could not be armed yet, that run is the next attempt:
it succeeds once the rate reaches the first edge.
-/

namespace Tgpio

open Interference Interference.Prog

set_option autoImplicit false

/-- A refine tick for a block, and the run of the work that it queues. -/
def refineTickOutput : Driver Unit := do
  updateOutputAfterPhcFreq
  outputWork

section sampling

variable {env : Machine → Machine → Prop} {fact : Machine → Prop}

theorem triple_sample_known {α : Type} {read : Params → Clocks → α} (good : α → Prop)
    (stable : Stable (driverSem env) fact) (reads : ∀ m, fact m → good (read m.params m.clocks)) :
    Triple (driverSem env) fact (sample read) fun value m => good value ∧ fact m := by
  refine Triple.call stable (fun value s t step holds => ⟨holds.1, stable s t step holds.2⟩) ?_
  intro s reply t holds step
  cases step
  exact ⟨reads s holds, holds⟩

theorem triple_known {α β : Type} {program : Driver α} {rest : α → Driver β} {good : α → Prop}
    {pre : Machine → Prop} {post : β → Machine → Prop}
    (first : Triple (driverSem env) pre program fun value m => good value ∧ fact m)
    (after : ∀ value, good value → Triple (driverSem env) fact (rest value) post) :
    Triple (driverSem env) pre (program >>= rest) post :=
  first.bind fun value s holds => after value holds.1 s holds.2

theorem triple_kept {α : Type} {program : Driver α} {allowed : Op → Prop}
    (stable : Stable (driverSem env) fact) (uses : Uses allowed program)
    (keeps : ∀ op s reply t, allowed op → Machine.perform op s = some (reply, t) → fact s → fact t) :
    Triple (driverSem env) fact program fun _ => fact :=
  fun _ holds => wp_uses uses keeps stable holds

end sampling

theorem work_frame {op : Op} {s t : Machine} {reply : op.Resp} (work : op.ofWork)
    (step : Machine.perform op s = some (reply, t)) :
    t.clocks = s.clocks ∧ t.params = s.params ∧ t.desired = s.desired := by
  rw [of_work_frame work step]
  exact ⟨rfl, rfl, rfl⟩

def OutputDesired.leadNs (asked : OutputDesired) : Nat :=
  armLeadNs asked.mode (outputMinIntervalNs asked.highTimeNs asked.lowTimeNs)

/-- The clocks of a tick that runs after the rate has been published: the rate
reaches everything ahead of now, and the run is over within its own lead. -/
structure Measured (asked : OutputDesired) (begun offset : Int) (params : Params)
    (clocks : Clocks) : Prop where
  realtime : params.clockMode = .realtime
  published : clocks.realtimeRateArtCycles ≠ 0 ∧ clocks.realtimeRateRealNs ≠ 0
  projects : ∀ ns, clocks.real < ns → ns ≤ s64Max →
    isOk (clockNsToArt params clocks ns) = true
  calibrated : clocks.outputPhaseOffsetNs = offset
  era : 0 ≤ begun ∧ begun ≤ clocks.real
  prompt : clocks.real < begun + asked.leadNs + offset
  room : max asked.firstEdgeNs (clocks.real + 3 * (asked.leadNs : Int) + asked.periodNs) +
    max offset 0 ≤ s64Max

/-- The configuration is still the one that was asked for; a frequency refresh or
a flip makes no difference. -/
def Asks (asked desired : OutputDesired) : Prop :=
  desired = { asked with freqGen := desired.freqGen, flipGen := desired.flipGen }

/-- A fact about what a block has been brought to: generation and times. -/
abbrev BlockFact := BitVec 32 → Nat → Nat → Prop

def MmioBlock.has (fact : BlockFact) (block : MmioBlock) : Prop :=
  fact block.outputAppliedGen block.outputHighTimeNs block.outputLowTimeNs

def Brought (asked : OutputDesired) : BlockFact := fun gen high low =>
  gen = asked.gen ∧ high = asked.highTimeNs ∧ low = asked.lowTimeNs

def Recorded (asked : OutputDesired) : BlockFact := fun gen high low =>
  gen = asked.gen → high = asked.highTimeNs ∧ low = asked.lowTimeNs

structure Ticking (asked : OutputDesired) (begun offset : Int) (fact : BlockFact) (m : Machine) :
    Prop where
  measured : Measured asked begun offset m.params m.clocks
  asks : Asks asked m.desired
  block : m.block.has fact

/-- Surroundings of a tick: the work is the only writer of its block, nothing
else is requested, and the clocks stay usable. -/
structure Attending (asked : OutputDesired) (begun offset : Int)
    (env : Machine → Machine → Prop) : Prop where
  block : ∀ s t, env s t → t.block = s.block
  desired : ∀ s t, env s t → t.desired = s.desired
  measured : ∀ s t, env s t → Measured asked begun offset s.params s.clocks →
    Measured asked begun offset t.params t.clocks

section ticking

variable {asked : OutputDesired} {begun offset : Int} {env : Machine → Machine → Prop}
  {fact : BlockFact}

theorem stable_ticking (attending : Attending asked begun offset env) (fact : BlockFact) :
    Stable (driverSem env) (Ticking asked begun offset fact) := by
  rintro s t step ⟨measured, asks, block⟩
  refine ⟨attending.measured s t step measured, ?_, ?_⟩
  · rw [attending.desired s t step]
    exact asks
  · rw [attending.block s t step]
    exact block

theorem Ticking.imp {weaker : BlockFact} {m : Machine} (ticking : Ticking asked begun offset fact m)
    (implies : m.block.has fact → m.block.has weaker) : Ticking asked begun offset weaker m :=
  ⟨ticking.measured, ticking.asks, implies ticking.block⟩

/-- Accesses of the work that keep a fact about the block. -/
def Maintains (fact : BlockFact) (op : Op) : Prop :=
  op.ofWork ∧ ∀ update, op = .store update → ∀ block : MmioBlock, block.has fact →
    (update block).has fact

theorem maintains_plain {op : Op} (work : op.ofWork) (plain : ∀ update, op ≠ .store update) :
    Maintains fact op :=
  ⟨work, fun update same => absurd same (plain update)⟩

theorem maintains_store {update : MmioBlock → MmioBlock}
    (keeps : ∀ block : MmioBlock, block.has fact → (update block).has fact) :
    Maintains fact (.store update) := by
  refine ⟨trivial, fun other same => ?_⟩
  cases same
  exact keeps

theorem maintains_servicing : Servicing (Maintains fact) where
  readl _ := maintains_plain trivial (by simp)
  load := maintains_plain trivial (by simp)
  sample _ _ := maintains_plain trivial (by simp)
  real := maintains_plain trivial (by simp)
  desired := maintains_plain trivial (by simp)
  sleep _ := maintains_plain trivial (by simp)
  looked := maintains_plain trivial (by simp)
  duty _ := maintains_store fun _ holds => holds
  periodic _ := maintains_store fun _ holds => holds
  data _ _ _ := maintains_plain trivial (by simp)
  disable _ _ := maintains_plain trivial (by simp)
  halt := maintains_store fun _ holds => holds
  writel _ _ := maintains_plain trivial (by simp)
  pace _ := maintains_store fun _ holds => holds
  checkpoint _ := maintains_store fun _ holds => holds
  edge _ := maintains_store fun _ holds => holds
  start _ := maintains_plain trivial (by simp)
  waking _ := maintains_store fun _ holds => holds
  slot := maintains_plain trivial (by simp)
  advance := maintains_store fun _ holds => holds
  cancel := maintains_plain trivial (by simp)
  giveUp := maintains_plain trivial (by simp)

theorem triple_maintains {α : Type} {program : Driver α}
    (attending : Attending asked begun offset env) (uses : Uses (Maintains fact) program) :
    Triple (driverSem env) (Ticking asked begun offset fact) program
      fun _ => Ticking asked begun offset fact := by
  refine triple_kept (stable_ticking attending fact) uses ?_
  rintro op s reply t ⟨work, stores⟩ step ⟨measured, asks, block⟩
  obtain ⟨clocks, params, desired⟩ := work_frame work step
  refine ⟨?_, desired ▸ asks, ?_⟩
  · rw [clocks, params]
    exact measured
  cases op with
  | store update =>
      cases step
      exact stores update rfl _ block
  | readl reg =>
      cases step
      cases reg <;> exact block
  | writel reg value =>
      cases step
      cases reg <;> exact block
  | mark point =>
      cases step
      cases point <;> exact block
  | hrtimerCancel =>
      simp only [Machine.perform] at step
      split at step
      · contradiction
      · cases step
        exact block
  | load | outputDesiredGet | sample | ktimeGetReal | hrtimerStart | msleep =>
      cases step
      exact block
  | _ => exact work.elim

theorem triple_record {weaker : BlockFact} {update : MmioBlock → MmioBlock}
    (attending : Attending asked begun offset env)
    (keeps : ∀ block : MmioBlock, block.has fact → (update block).has weaker) :
    Triple (driverSem env) (Ticking asked begun offset fact) (storeBlock update)
      fun _ => Ticking asked begun offset weaker := by
  refine Triple.call (stable_ticking attending fact) (fun _ => stable_ticking attending weaker) ?_
  rintro s reply t ⟨measured, asks, block⟩ step
  cases step
  exact ⟨measured, asks, keeps _ block⟩

theorem triple_load_fact (attending : Attending asked begun offset env) :
    Triple (driverSem env) (Ticking asked begun offset fact) loadBlock fun block m =>
      block.has fact ∧ Ticking asked begun offset
        (fun gen high low => fact gen high low ∧ gen = block.outputAppliedGen) m := by
  have stable (block : MmioBlock) := stable_ticking attending
    fun gen high low => fact gen high low ∧ gen = block.outputAppliedGen
  refine Triple.call (stable_ticking attending fact)
    (fun block s t step holds => ⟨holds.1, stable block s t step holds.2⟩) ?_
  intro s reply t holds step
  cases step
  exact ⟨holds.block, holds.imp fun known => ⟨known, rfl⟩⟩

theorem measured_now {params : Params} {clocks : Clocks}
    (measured : Measured asked begun offset params clocks) :
    clockNowNs params clocks = .ok clocks.real := by
  unfold clockNowNs
  rw [if_neg (by simp [Params.clockUsesModel, measured.realtime])]

/-- An edge aimed at from now on has a compare value throughout the run. -/
theorem measured_compare {params : Params} {clocks : Clocks} {edge : Int}
    (measured : Measured asked begun offset params clocks)
    (ahead : begun + asked.leadNs ≤ edge) (inside : edge + max offset 0 ≤ s64Max) :
    isOk (clockNsToCompareArt params clocks edge) = true := by
  have began := measured.era
  have prompt := measured.prompt
  unfold clockNsToCompareArt
  unfold s64Max at inside
  rw [measured.calibrated, add_s64_ok (by omega) (by omega)]
  have reached := measured.projects (edge + offset) (by omega) (by unfold s64Max; omega)
  obtain ⟨art, converted⟩ := is_ok_true reached
  dsimp only
  rw [converted]
  rfl

/-- The first edge that an arm cycle begun at `begun` aims at: the requested one, or
the next on its grid that leaves the lead. -/
def FirstFrom (asked : OutputDesired) (begun edge : Int) : Prop :=
  ∃ now, begun ≤ now ∧
    edge = outputAlignFirstEdge asked.firstEdgeNs (now + 3 * asked.leadNs) asked.periodNs

/-- The timing an arm cycle gets: its prime edge can be aimed at. -/
structure Aimed (asked : OutputDesired) (begun offset : Int) (timing : OutputTiming) : Prop where
  ahead : begun + asked.leadNs ≤ timing.primeEdgeNs
  inside : timing.primeEdgeNs + max offset 0 ≤ s64Max
  first : FirstFrom asked begun timing.firstEdgeNs
  prime : timing.primeEdgeNs = timing.firstEdgeNs - 2 * asked.leadNs

theorem prepare_timing_aimed (attending : Attending asked begun offset env) :
    Triple (driverSem env) (Ticking asked begun offset fact)
      (prepareOutputTiming (outputMinIntervalNs asked.highTimeNs asked.lowTimeNs) asked.periodNs
        asked.mode asked.firstEdgeNs)
      fun timing m => (∃ aimed, timing = .ok aimed ∧ Aimed asked begun offset aimed) ∧
        Ticking asked begun offset fact m := by
  have stable := stable_ticking attending fact
  refine triple_known (triple_sample_known (fun now => ∃ real, now = .ok real ∧ begun ≤ real ∧
    0 ≤ real ∧ max asked.firstEdgeNs (real + 3 * (asked.leadNs : Int) + asked.periodNs) +
      max offset 0 ≤ s64Max) stable fun m ticking => ?_) ?_
  · have began := ticking.measured.era
    exact ⟨_, measured_now ticking.measured, began.2, by omega, ticking.measured.room⟩
  rintro _ ⟨real, rfl, after, started, room⟩
  have small : asked.firstEdgeNs ≤ s64Max := by omega
  obtain ⟨first, plan, early, late⟩ := output_timing_plan_ok asked.mode
    (outputMinIntervalNs asked.highTimeNs asked.lowTimeNs) asked.periodNs started
    (by unfold OutputDesired.leadNs at room; omega) small
  obtain ⟨now, isNow, -, -, isFirst, -⟩ := output_timing_plan_eq plan
  obtain rfl := Except.ok.inj isNow
  rw [plan]
  refine triple_known (triple_sample_known (fun delay => isOk delay = true) stable
    fun m ticking => ?_) fun delay converted => ?_
  · unfold clockDeltaToRealNs
    rw [if_neg (by simp [Params.clockUsesModel, ticking.measured.realtime])]
    split <;> rfl
  obtain ⟨delay, rfl⟩ := is_ok_true converted
  refine Triple.bind (triple_maintains attending
    ((uses_perform _).mpr maintains_servicing.real)) fun nowReal => ?_
  refine Triple.pure stable fun m ticking => ⟨⟨_, rfl, ?_⟩, ticking⟩
  unfold OutputDesired.leadNs at room
  constructor
  · unfold OutputDesired.leadNs
    dsimp only
    omega
  · dsimp only
    omega
  · exact ⟨real, after, isFirst⟩
  · unfold OutputDesired.leadNs
    dsimp only
    ring

theorem program_output_edge_aimed (attending : Attending asked begun offset env)
    {timing : OutputTiming} (aimed : Aimed asked begun offset timing) (edgeBits : BitVec 32) :
    Triple (driverSem env) (Ticking asked begun offset fact)
      (programOutputEdge timing.primeEdgeNs edgeBits)
      fun status m => status = .ok () ∧ Ticking asked begun offset fact m := by
  have stable := stable_ticking attending fact
  have arming : Arming (Maintains fact) := maintains_servicing.toArming
  refine triple_known (triple_sample_known (fun art => isOk art = true) stable
    fun m ticking => measured_compare ticking.measured aimed.ahead aimed.inside) fun art converted => ?_
  obtain ⟨art, rfl⟩ := is_ok_true converted
  refine Triple.bind (triple_maintains attending ((uses_perform _).mpr (arming.readl _)))
    fun ctrl => ?_
  dsimp only
  have data : Uses (Maintains fact) (writeCompv art) :=
    write_compv_uses art fun reg value _ => arming.writel reg value
  have control (value : BitVec 32) : Uses (Maintains fact) (writeCtl value) :=
    (uses_perform _).mpr (arming.writel _ _)
  have done : Triple (driverSem env) (Ticking asked begun offset fact)
      (Pure.pure (.ok ()) : Driver (Except Errno Unit))
      fun status m => status = .ok () ∧ Ticking asked begun offset fact m :=
    Triple.pure stable fun m ticking => ⟨rfl, ticking⟩
  split
  · exact Triple.bind (triple_maintains attending data) fun _ =>
      Triple.bind (triple_maintains attending (control _)) fun _ => done
  · exact Triple.bind (triple_maintains attending (control _)) fun _ =>
      Triple.bind (triple_maintains attending data) fun _ => done

theorem arm_output_aimed (attending : Attending asked begun offset env) (firstEdgeNs : Int)
    {timing : OutputTiming} (aimed : Aimed asked begun offset timing) :
    Triple (driverSem env) (Ticking asked begun offset fact)
      (armOutput firstEdgeNs timing.primeEdgeNs asked.highTimeNs asked.lowTimeNs asked.mode)
      fun status m => status = .ok () ∧ Ticking asked begun offset
        (fun _ high low => high = asked.highTimeNs ∧ low = asked.lowTimeNs) m := by
  have primes : Triple (driverSem env) (Ticking asked begun offset fact)
      (storeBlock (primed firstEdgeNs asked.highTimeNs asked.lowTimeNs asked.mode))
      fun _ => Ticking asked begun offset
        (fun _ high low => high = asked.highTimeNs ∧ low = asked.lowTimeNs) :=
    triple_record attending fun _ _ => ⟨rfl, rfl⟩
  have timed := stable_ticking attending
    fun _ high low => high = asked.highTimeNs ∧ low = asked.lowTimeNs
  have arming : ∀ {fact : BlockFact}, Arming (Maintains fact) := maintains_servicing.toArming
  refine Triple.bind (triple_maintains attending (stop_for_rearm_uses arming.toHalting)) fun _ => ?_
  split
  · exact primes.bind fun _ => Triple.pure timed fun m ticking => ⟨rfl, ticking⟩
  refine Triple.bind (triple_maintains attending ((uses_perform _).mpr (arming.sample _ _)))
    fun edgeBits => ?_
  refine triple_known (program_output_edge_aimed attending aimed edgeBits) fun status accepted => ?_
  subst accepted
  refine Triple.bind primes fun _ => ?_
  refine Triple.bind (triple_maintains attending ((uses_perform _).mpr (arming.readl _)))
    fun ctrl => ?_
  refine Triple.bind (triple_maintains attending ((uses_perform _).mpr (arming.writel _ _)))
    fun _ => ?_
  exact Triple.pure timed fun m ticking => ⟨rfl, ticking⟩

theorem reconcile_arm_brings (attending : Attending asked begun offset env)
    {desired : OutputDesired} (asks : Asks asked desired) :
    Triple (driverSem env) (Ticking asked begun offset fact) (reconcileArm desired)
      fun _ => Ticking asked begun offset (Brought asked) := by
  rw [asks]
  refine triple_known (prepare_timing_aimed attending) ?_
  rintro _ ⟨timing, rfl, aimed⟩
  refine triple_known (arm_output_aimed attending timing.firstEdgeNs aimed) fun status accepted => ?_
  subst accepted
  refine Triple.via (fun _ => Ticking asked begun offset (Brought asked))
    (triple_record attending fun block times => ⟨rfl, times⟩) fun _ => ?_
  exact triple_maintains attending (output_wake_at_uses maintains_servicing.toArming _)

theorem Brought.recorded {gen : BitVec 32} {high low : Nat} (brought : Brought asked gen high low) :
    Recorded asked gen high low := fun _ => brought.2

theorem triple_desired_asks (attending : Attending asked begun offset env) :
    Triple (driverSem env) (Ticking asked begun offset fact) outputDesiredGet
      fun desired m => Asks asked desired ∧ Ticking asked begun offset fact m := by
  refine Triple.call (stable_ticking attending fact)
    (fun desired s t step holds => ⟨holds.1, stable_ticking attending fact s t step holds.2⟩) ?_
  intro s reply t ticking step
  cases step
  exact ⟨ticking.asks, ticking⟩

theorem invert_recorded (attending : Attending asked begun offset env) :
    Triple (driverSem env) (Ticking asked begun offset (Recorded asked)) hwPeriodicInvert
      fun _ => Ticking asked begun offset (Recorded asked) := by
  have servicing : Servicing (Maintains (Recorded asked)) := maintains_servicing
  refine Triple.bind (triple_maintains attending
    ((uses_perform _).mpr (maintains_store fun _ holds => holds))) fun _ => ?_
  refine Triple.bind (triple_maintains attending
    ((uses_perform _).mpr (maintains_plain trivial (by simp)))) fun _ => ?_
  refine Triple.bind (triple_maintains attending ((uses_perform _).mpr servicing.load))
    fun block => ?_
  split
  · refine triple_known (triple_desired_asks attending) fun desired asks => ?_
    split
    · refine (reconcile_arm_brings attending asks).post fun _ m ticking => ?_
      exact ticking.imp fun brought => Brought.recorded brought
    · exact triple_maintains attending (uses_pure _)
  split
  · exact triple_maintains attending (uses_pure _)
  · exact triple_maintains attending (shift_half_period_uses servicing.toRewriting)

theorem apply_flip_recorded (attending : Attending asked begun offset env)
    (desired : OutputDesired) :
    Triple (driverSem env) (Ticking asked begun offset (Recorded asked)) (applyFlip desired)
      fun _ => Ticking asked begun offset (Recorded asked) := by
  have recorded : Uses (Maintains (Recorded asked)) (storeBlock (appliedFlip desired)) :=
    (uses_perform _).mpr (maintains_store fun _ holds => holds)
  refine Triple.bind (triple_maintains attending
    ((uses_perform _).mpr maintains_servicing.load)) fun block => ?_
  split
  · exact Triple.bind (invert_recorded attending) fun _ => triple_maintains attending recorded
  · exact triple_maintains attending recorded

theorem service_edge_brought (attending : Attending asked begun offset env) :
    Triple (driverSem env) (Ticking asked begun offset (Brought asked)) serviceEdge
      fun _ => Ticking asked begun offset (Brought asked) := by
  have servicing : Servicing (Maintains (Brought asked)) := maintains_servicing
  refine triple_known ((triple_load_fact attending).post fun block m holds =>
    (⟨holds.1, holds.2.imp And.left⟩ : _ ∧ Ticking asked begun offset (Brought asked) m)) ?_
  rintro block ⟨-, high, low⟩
  split
  · refine triple_maintains attending (Uses.seq (arm_hardware_periodic_uses servicing.toArming _ _ _
      fun firstArt piv => maintains_store fun other brought => ⟨brought.1, high, low⟩)
      fun status => ?_)
    split
    · exact uses_pure _
    · refine Uses.seq ((uses_perform _).mpr servicing.giveUp) fun _ => ?_
      exact disable_output_hw_uses servicing.toHalting
  · exact triple_maintains attending (hw_duty_service_uses servicing)
  · exact triple_maintains attending (uses_pure _)
  · exact triple_maintains attending (software_edge_uses servicing)
  · exact triple_maintains attending (software_edge_uses servicing)

theorem service_output_brought (attending : Attending asked begun offset env)
    {desired : OutputDesired} (asks : Asks asked desired) :
    Triple (driverSem env) (Ticking asked begun offset (Brought asked)) (serviceOutput desired)
      fun _ => Ticking asked begun offset (Brought asked) := by
  have servicing : Servicing (Maintains (Brought asked)) := maintains_servicing
  have edge := service_edge_brought attending
  have gen : desired.gen = asked.gen := by rw [asks]
  have high : desired.highTimeNs = asked.highTimeNs := by rw [asks]
  have low : desired.lowTimeNs = asked.lowTimeNs := by rw [asks]
  refine Triple.bind (triple_maintains attending ((uses_perform _).mpr servicing.load))
    fun block => ?_
  split
  · refine Triple.bind (triple_maintains attending
      ((uses_perform _).mpr (maintains_store fun _ holds => holds))) fun _ => ?_
    split
    · refine triple_maintains attending (hw_periodic_apply_freq_uses servicing
        (fun firstEdge => maintains_store fun _ brought => ⟨brought.1, high, low⟩)
        (maintains_store fun _ brought => ⟨gen, brought.2⟩))
    · exact triple_maintains attending (uses_pure _)
    · refine Triple.bind (triple_maintains attending ((uses_perform _).mpr servicing.real))
        fun nowReal => ?_
      split
      · exact triple_maintains attending (uses_pure _)
      · exact edge
    · exact edge
    · exact edge
  · exact edge

theorem output_work_brings (attending : Attending asked begun offset env)
    (running : asked.run = .running) :
    Triple (driverSem env) (Ticking asked begun offset (Recorded asked)) outputWork
      fun _ => Ticking asked begun offset (Brought asked) := by
  refine triple_known (triple_desired_asks attending) fun desired asks => ?_
  have same : desired.run = asked.run := by rw [asks]
  have gen : desired.gen = asked.gen := by rw [asks]
  rw [if_neg (by simp [same, running])]
  refine Triple.bind (apply_flip_recorded attending desired) fun _ => ?_
  refine Triple.bind (triple_load_fact attending) fun block => ?_
  rintro s ⟨-, ticking⟩
  by_cases pending : desired.gen = block.outputAppliedGen
  · rw [if_neg (not_not.mpr pending)]
    refine service_output_brought attending asks s (ticking.imp ?_)
    rintro ⟨recorded, loaded⟩
    have current : s.block.outputAppliedGen = asked.gen := loaded.trans (pending.symm.trans gen)
    exact ⟨current, recorded current⟩
  · rw [if_pos pending]
    exact reconcile_arm_brings attending asks s ticking

/-- A tick brings the block to a running configuration, whether it was still
pending or not. -/
theorem refine_tick_brings (attending : Attending asked begun offset env)
    (running : asked.run = .running) :
    Triple (driverSem env) (Ticking asked begun offset (Recorded asked)) refineTickOutput
      fun _ => Ticking asked begun offset (Brought asked) := by
  refine Triple.via (fun _ => Ticking asked begun offset (Recorded asked)) ?_
    fun _ => output_work_brings attending running
  have stable := stable_ticking attending (Recorded asked)
  refine Triple.via (fun _ => Ticking asked begun offset (Recorded asked)) ?_ fun changed => ?_
  · refine Triple.call stable (fun _ => stable) fun s reply t ticking step => ?_
    cases step
    have applies : Publish.freq.applies s.desired = true := by
      have same : s.desired.run = asked.run := by rw [ticking.asks]
      simp [Publish.applies, same, running]
    unfold Machine.publish
    rw [if_pos applies]
    refine ⟨ticking.measured, ?_, ticking.block⟩
    rw [ticking.asks]
    rfl
  split
  · refine Triple.call stable (fun _ => stable) fun s reply t ticking step => ?_
    cases step
    exact ⟨ticking.measured, ticking.asks, ticking.block⟩
  · exact Triple.pure stable fun m ticking => ticking

end ticking

theorem rescale_nearest_unit {count : Nat} (small : count ≤ s64Max) :
    rescaleNearest count 1 1 = .ok count := by
  have sub : rescaleSub (u64 (0 * 1)) 1 true = 0 := rfl
  have same : u64 count = count := u64_of_lt (by unfold s64Max at small; omega)
  unfold rescaleNearest rescaleCommon
  rw [if_neg (by decide)]
  dsimp only
  rw [Nat.div_one, Nat.div_one, Nat.mod_one, sub, Nat.mul_one, same, if_neg (by omega),
    if_neg (by omega), Nat.add_zero, same]

def unitRateClocks : Clocks :=
  { steadyClocks 0 zero_in_range with realtimeRateArtCycles := 1, realtimeRateRealNs := 1 }

/-- At that rate everything ahead of a tick's beginning can be aimed at. -/
theorem unit_rate_measured {params : Params} {asked : OutputDesired}
    (realtime : params.clockMode = .realtime)
    (plain : params.experimentalInstantaneousRealtimeProjection = false) (leads : 0 < asked.leadNs)
    (room : max asked.firstEdgeNs (3 * (asked.leadNs : Int) + asked.periodNs) ≤ s64Max) :
    Measured asked 0 0 params unitRateClocks where
  realtime := realtime
  published := by decide
  projects ns ahead small := by
    have future : 0 < ns := ahead
    have distance : (toU64 (ns - 0) : Int) = ns - 0 :=
      to_u64_of_range (by omega) (by unfold s64Max at small; omega)
    have model : params.clockUsesModel = false := by simp [Params.clockUsesModel, realtime]
    unfold clockNsToArt
    have anchored : realtimeAnchor unitRateClocks = .ok (0, 0) := rfl
    rw [if_neg (by simp [model]), if_neg (by simp [plain]), anchored]
    dsimp only
    rw [if_pos (le_of_lt future)]
    generalize toU64 (ns - 0) = count at distance
    have positive : count ≠ 0 := by omega
    have inside : count ≤ s64Max := by omega
    have counted : realtimeDeltaToArtCycles params unitRateClocks count = .ok count := by
      unfold realtimeDeltaToArtCycles
      rw [if_neg (by omega), if_pos ⟨by decide, by decide, by simp [plain]⟩]
      exact rescale_nearest_unit inside
    rw [counted]
    dsimp only
    rw [if_pos (le_of_lt future), if_neg (by unfold u64Max; unfold s64Max at inside; omega)]
    rfl
  calibrated := rfl
  era := by decide
  prompt := by
    have started : unitRateClocks.real = 0 := rfl
    omega
  room := by
    have started : unitRateClocks.real = 0 := rfl
    rw [started]
    omega

end Tgpio

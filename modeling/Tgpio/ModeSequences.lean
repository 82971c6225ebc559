import Tgpio.LevelParity
import Tgpio.OutputSystem

/-!
# The level mirror across modes

Software edges move the flop too, and nothing tells the mirror. `ModeMove` is
the world of start and stop requests in any order of modes, with compares fired
between the driver's runs only. The mirror is off by the parity of the compares
that have changed the level since the driver was loaded, at every slot
selection of every run.
-/

namespace Tgpio

open Interference Interference.Prog

set_option autoImplicit false

/-- The mirror a slot selection went by was the level. -/
def Slot.right (slot : Slot) : Prop := slot.mirror = slot.flop

/-- Start and stop requests, the timer, time, edges of the free-running engine
at any moment, and single-shot compares between runs. -/
inductive ModeMove : Machine → Machine → Prop where
  | clocks {m : Machine} (clocks : Clocks) : ModeMove m { m with clocks }
  | expire {m : Machine} : m.timerArmed = true → m.timerFiring = false → ModeMove m m.expire
  | outputTimer {m : Machine} : m.timerFiring = true → ModeMove m m.outputTimer
  | start {m : Machine} (mode : OutputMode) (periodNs highTimeNs lowTimeNs : Nat)
      (firstEdgeNs : Int) : (mode = .hardware → highTimeNs = lowTimeNs) →
      ModeMove m
        (m.beginPublish (.configure .running mode periodNs highTimeNs lowTimeNs firstEdgeNs))
  | stop {m : Machine} : ModeMove m (m.beginPublish .disable)
  | endPublish {m : Machine} : 0 < m.owed → ModeMove m m.endPublish
  | edge {m : Machine} : m.freeRunning = true →
      m.regs.compv.toNat + m.regs.piv.toNat < 2 ^ 64 → ModeMove m m.periodicEdge
  | fire {m : Machine} : m.workRunning = false → m.singleShot = true → ModeMove m m.fire

abbrev modeSem : Semantics Op Op.Resp Machine := driverSem ModeMove

abbrev modeWorker : Worker Op Op.Resp Machine := outputWorker ModeMove

/-- No request asks for a polarity flip, a rate refresh, or an asymmetric
waveform of the hardware engine. -/
structure PlainRequest (desired : OutputDesired) : Prop where
  flipGen : desired.flipGen = 0
  freqGen : desired.freqGen = 0
  halves : desired.mode = .hardware → desired.highTimeNs = desired.lowTimeNs

structure PlainBlock (block : MmioBlock) : Prop where
  flipGen : block.outputAppliedFlipGen = 0
  freqGen : block.outputAppliedFreqGen = 0
  phase : block.outputPhase ≠ .hwDuty
  halves : block.outputPhase = .armPeriodic → block.outputHighTimeNs = block.outputLowTimeNs

/-- What holds throughout, within runs and between them. -/
structure Plain (m : Machine) : Prop where
  desired : PlainRequest m.desired
  block : PlainBlock m.block

section plain

theorem plain_request_publish {desired : OutputDesired} (plain : PlainRequest desired)
    {request : Publish}
    (allowed : request = .disable ∨ ∃ mode periodNs highTimeNs lowTimeNs firstEdgeNs,
      (mode = .hardware → highTimeNs = lowTimeNs) ∧
        request = .configure .running mode periodNs highTimeNs lowTimeNs firstEdgeNs) :
    PlainRequest (request.update desired) := by
  rcases allowed with rfl | ⟨mode, periodNs, highTimeNs, lowTimeNs, firstEdgeNs, halves, rfl⟩
  · exact ⟨plain.flipGen, plain.freqGen, nofun⟩
  · exact ⟨plain.flipGen, plain.freqGen, halves⟩

theorem stable_plain : Stable modeSem Plain := by
  intro s t step plain
  cases step with
  | clocks clocks => exact ⟨plain.desired, plain.block⟩
  | expire _ _ => exact ⟨plain.desired, plain.block⟩
  | outputTimer _ => exact ⟨plain.desired, plain.block⟩
  | start mode periodNs highTimeNs lowTimeNs firstEdgeNs halves =>
      exact ⟨plain_request_publish plain.desired (.inr ⟨_, _, _, _, _, halves, rfl⟩), plain.block⟩
  | stop => exact ⟨plain_request_publish plain.desired (.inl rfl), plain.block⟩
  | endPublish _ => exact ⟨plain.desired, plain.block⟩
  | edge _ _ => exact ⟨plain.desired, plain.block⟩
  | fire _ _ => exact ⟨plain.desired, plain.block⟩

/-- Accesses that keep the block plain. -/
def KeepsPlain (op : Op) : Prop :=
  ∀ s reply t, Machine.perform op s = some (reply, t) → Plain s → Plain t

theorem keeps_plain_store {update : MmioBlock → MmioBlock}
    (keeps : ∀ block, PlainBlock block → PlainBlock (update block)) :
    KeepsPlain (.store update) := by
  intro s reply t step plain
  cases step
  exact ⟨plain.desired, keeps _ plain.block⟩

theorem keeps_plain_writel (reg : Reg) (value : BitVec 32) : KeepsPlain (.writel reg value) := by
  intro s reply t step plain
  cases step
  have block := (s.write_reg_parts reg value).1
  refine ⟨?_, by rw [block]; exact plain.block⟩
  have desired : (s.writeReg reg value).desired = s.desired := by cases reg <;> rfl
  rw [desired]
  exact plain.desired

theorem keeps_plain_mark (point : Mark) : KeepsPlain (.mark point) := by
  intro s reply t step plain
  cases step
  cases point <;> exact ⟨plain.desired, plain.block⟩

theorem keeps_plain_halting : Halting KeepsPlain where
  readl reg := by
    intro s reply t step plain
    cases step
    cases reg <;> exact ⟨plain.desired, plain.block⟩
  load := by
    intro s reply t step plain
    cases step
    exact plain
  sample α read := by
    intro s reply t step plain
    cases step
    exact plain
  real := by
    intro s reply t step plain
    cases step
    exact plain
  desired := by
    intro s reply t step plain
    cases step
    exact plain
  sleep msecs := by
    intro s reply t step plain
    cases step
    exact plain
  looked := keeps_plain_mark .looked
  duty compv := keeps_plain_store fun block plain =>
    ⟨plain.flipGen, plain.freqGen, plain.phase, plain.halves⟩
  periodic compv := keeps_plain_store fun block plain =>
    ⟨plain.flipGen, plain.freqGen, plain.phase, plain.halves⟩
  data reg value _ := keeps_plain_writel reg value
  disable value _ := keeps_plain_writel .ctl value
  halt := keeps_plain_store fun block plain =>
    ⟨plain.flipGen, plain.freqGen, nofun, nofun⟩

theorem keeps_plain_servicing : Servicing KeepsPlain where
  toHalting := keeps_plain_halting
  writel := keeps_plain_writel
  start expires := by
    intro s reply t step plain
    cases step
    exact ⟨plain.desired, plain.block⟩
  cancel := by
    intro s reply t step plain
    simp only [Machine.perform] at step
    split at step
    · contradiction
    · cases step
      exact ⟨plain.desired, plain.block⟩
  giveUp := keeps_plain_mark .giveUp
  waking time := keeps_plain_store fun block plain =>
    ⟨plain.flipGen, plain.freqGen, plain.phase, plain.halves⟩
  slot := keeps_plain_mark .slot
  advance := keeps_plain_store fun block plain => ⟨plain.flipGen, plain.freqGen, nofun, nofun⟩
  pace piv := keeps_plain_store fun block plain =>
    ⟨plain.flipGen, plain.freqGen, plain.phase, plain.halves⟩
  checkpoint compv := keeps_plain_store fun block plain =>
    ⟨plain.flipGen, plain.freqGen, plain.phase, plain.halves⟩
  edge time := keeps_plain_store fun block plain =>
    ⟨plain.flipGen, plain.freqGen, plain.phase, plain.halves⟩

variable {desired : OutputDesired}

theorem keeps_plain_primed (plain : PlainRequest desired) (firstEdgeNs : Int) :
    KeepsPlain (.store (primed firstEdgeNs desired.highTimeNs desired.lowTimeNs desired.mode)) := by
  refine keeps_plain_store fun block before => ⟨before.flipGen, before.freqGen, ?_, ?_⟩
  · simp only [primed]
    split <;> simp
  · simp only [primed]
    split
    · rename_i hardware
      exact fun _ => plain.halves hardware
    · nofun

theorem keeps_plain_applied (plain : PlainRequest desired) :
    KeepsPlain (.store (applied desired)) :=
  keeps_plain_store fun _ before => ⟨before.flipGen, plain.freqGen, before.phase, before.halves⟩

theorem keeps_plain_armed (firstEdgeNs : Int) (halfNs firstArt initialPiv : Nat) :
    KeepsPlain (.store (armed firstEdgeNs halfNs halfNs firstArt initialPiv)) :=
  keeps_plain_store fun _ before => ⟨before.flipGen, before.freqGen, by simp [armed],
    fun _ => rfl⟩

theorem keeps_plain_flip (plain : PlainRequest desired) :
    KeepsPlain (.store (appliedFlip desired)) :=
  keeps_plain_store fun _ before => ⟨plain.flipGen, before.freqGen, before.phase, before.halves⟩

end plain

section counting

/-- Every slot selection so far went by a right mirror, unless the single-shot
compares had changed the level an odd number of times. -/
def Counting (marks : Marks) : Prop :=
  ∀ slot ∈ marks.slots, slot.right ↔ slot.levelChanges.bodd = false

/-- The mirror is off by the parity of the single-shot compares that have
changed the level, now and at every slot selection so far. -/
def Balanced (m : Machine) : Prop :=
  Counting m.marks ∧
    (Exact m.marks.levelChanges.bodd m.marks m ∨ Rested m.marks.levelChanges.bodd m.marks m)

theorem Balanced.ofExact {drift : Bool} {marks : Marks} {m : Machine} (counting : Counting marks)
    (same : drift = marks.levelChanges.bodd) (exact_ : Exact drift marks m) : Balanced m := by
  have marksSame := exact_.marks
  subst same marksSame
  exact ⟨counting, .inl exact_⟩

theorem Balanced.ofRested {drift : Bool} {marks : Marks} {m : Machine} (counting : Counting marks)
    (same : drift = marks.levelChanges.bodd) (rested : Rested drift marks m) : Balanced m := by
  have marksSame := rested.marks
  subst same marksSame
  exact ⟨counting, .inr rested⟩

theorem Balanced.level_at {m : Machine} (balanced : Balanced m) :
    LevelAt m.marks.levelChanges.bodd m.marks m := by
  rcases balanced.2 with exact_ | rested
  · exact exact_.level_at
  · exact rested.level_at

theorem watched_balanced : Watched Balanced := by
  rintro n s t ran - ⟨counting, exact_ | rested⟩
  · exact .ofExact counting rfl (exact_.ran ran)
  · exact .ofRested counting rfl (rested.ran ran)

theorem Counting.chosen {marks : Marks} (counting : Counting marks) (mirror : Bool) :
    Counting (marks.chosen mirror marks.levelChanges.bodd) := by
  intro slot member
  rcases List.mem_append.mp member with old | new
  · exact counting slot old
  · obtain rfl := List.mem_singleton.mp new
    simp only [Slot.right]
    cases mirror <;> cases marks.levelChanges.bodd <;> simp

theorem Exact.neutral {drift : Bool} {marks : Marks} {m : Machine} {update : MmioBlock → MmioBlock}
    (neutral : LevelNeutral update) (exact_ : Exact drift marks m) :
    Exact drift marks { m with block := update m.block } := by
  obtain ⟨phase, piv, ckpt, high⟩ := neutral m.block
  refine ⟨⟨?_, ?_, ?_, ?_, ?_⟩, ?_, exact_.marks⟩
  · rw [phase, exact_.tracked.phase]
  · rw [piv]
    exact exact_.tracked.positive
  · rw [piv, exact_.tracked.piv]
  · rw [ckpt]
    exact exact_.tracked.ahead
  · rw [high, ckpt, piv]
    exact exact_.tracked.level
  · rw [ckpt, piv]
    exact exact_.divides

theorem triple_balanced_store (update : MmioBlock → MmioBlock) (neutral : LevelNeutral update) :
    Triple edgeSem Balanced (storeBlock update) fun _ => Balanced := by
  refine Triple.call watched_balanced.stable (fun _ => watched_balanced.stable) ?_
  rintro s reply t ⟨counting, exact_ | rested⟩ step
  · cases step
    exact .ofExact counting rfl (exact_.neutral neutral)
  · cases step
    obtain ⟨-, piv, -, high⟩ := neutral s.block
    exact .ofRested counting rfl
      ⟨rested.stopped, piv.trans rested.idle, by rw [high]; exact rested.level, rfl⟩

/-- A sequence that ends at rest keeps the balance. -/
theorem triple_balanced_rest {α : Type} {program : Driver α}
    (rests : ∀ drift marks,
      Triple edgeSem (LevelAt drift marks) program fun _ => Rested drift marks) :
    Triple edgeSem Balanced program fun _ => Balanced := by
  intro s balanced
  refine wp_mono ?_ (rests _ _ s balanced.level_at)
  exact fun _ t rested => .ofRested balanced.1 rfl rested

variable {drift : Bool} {marks : Marks}

theorem triple_drain_rounds (rounds : Nat) :
    Triple edgeSem (LevelAt drift marks) (drainRounds rounds) fun _ => LevelAt drift marks := by
  induction rounds with
  | zero => exact Triple.pure stable_level fun _ level => level
  | succ rounds ih =>
      refine Triple.bind (watched_level.looking ((uses_perform _).mpr looks_reading.load))
        fun block => ?_
      by_cases high : block.outputHwFlopHigh = true
      · rw [if_pos high]
        refine Triple.bind (watched_level.looking
          ((uses_perform _).mpr (looks_reading.sleep _))) fun _ => ?_
        exact Triple.bind triple_fold_level fun _ => ih
      · rw [if_neg high]
        exact Triple.pure stable_level fun _ level => level

theorem triple_stop_output :
    Triple edgeSem (LevelAt drift marks) stopOutput fun _ => Rested drift marks := by
  refine Triple.bind triple_hrtimer_cancel fun _ => ?_
  refine Triple.via (fun _ => LevelAt drift marks) ?_ fun _ =>
    triple_disable_output_hw.post fun _ m off => off.1
  refine Triple.bind (watched_level.looking ((uses_perform _).mpr looks_reading.load))
    fun block => ?_
  split
  · exact Triple.pure stable_level fun _ level => level
  · exact Triple.bind triple_fold_level fun _ => triple_drain_rounds 30

/-- An arm from the prepared phase: free-running, or given up. -/
theorem triple_balanced_arm (firstEdgeNs : Int) (halfNs : Nat) :
    Triple edgeSem Balanced
      (do
        let status ← armHardwarePeriodic firstEdgeNs halfNs halfNs
        match status with
        | .ok () => return
        | .error _ => do
          mark .giveUp
          disableOutputHw)
      fun _ => Balanced := by
  have gives (marks : Marks) (counting : Counting marks) :
      Triple edgeSem (LevelAt marks.levelChanges.bodd marks)
        (do
          mark .giveUp
          disableOutputHw) fun _ => Balanced := by
    refine Triple.bind triple_give_up fun _ => ?_
    exact triple_disable_output_hw.post fun _ m off => .ofRested counting rfl off.1
  intro s balanced
  refine Triple.bind (triple_arm_hardware_periodic firstEdgeNs halfNs) (fun status => ?_) s
    balanced.level_at
  cases status with
  | ok done =>
      rintro t ⟨mirror, exact_⟩
      refine Triple.pure watched_balanced.stable (fun _ balanced => balanced) t ?_
      exact .ofExact (balanced.1.chosen mirror) rfl exact_
  | error status =>
      rintro t (level | ⟨mirror, level⟩)
      · exact gives _ balanced.1 t level
      · exact gives _ (balanced.1.chosen mirror) t level

/-- A software edge is programmed on a block at rest and leaves it at rest. -/
theorem triple_software_edge :
    Triple edgeSem (Rested drift marks) softwareEdge fun _ => Rested drift marks := by
  have watched : Watched (Rested drift marks) := fun _ _ _ ran _ rested => rested.ran ran
  have abandoned : Triple edgeSem (Rested drift marks) abandonOutput fun _ => Rested drift marks :=
    triple_abandon_output.conseq (fun m rested => rested.level_at) fun _ m rested => rested
  refine Triple.bind (watched.looking ((uses_perform _).mpr looks_reading.load)) fun block => ?_
  refine Triple.bind (triple_sample _ watched.stable) fun edgeBits => ?_
  rintro s ⟨rested, clocks, params, bits⟩
  have mode : hasEn edgeBits = false ∧ hasPm edgeBits = false := by
    rw [bits]
    split
    · exact ⟨rfl, rfl⟩
    · exact output_edge_bits_mode _ _
  refine Triple.bind (watched.looking ((uses_perform _).mpr (looks_reading.sample _ _)))
    (fun interval => ?_) s rested
  intro s rested
  have at_ : At s.block s.regs s.flop marks s := ⟨rfl, rfl, rfl, rested.marks⟩
  refine Triple.bind (triple_program_output_edge _ _ mode rested.stopped) (fun status => ?_) s at_
  rintro t ⟨regs, -, en, pm, at_⟩
  have stopped : regs.running = false := by
    rw [Regs.running, en, pm]
    exact rested.stopped
  have rested : Rested drift marks t := rested_of_at at_ stopped rested.idle rested.level
  revert t
  cases status with
  | error status => exact fun t _ rested => abandoned t rested
  | ok done =>
      cases interval with
      | error status => exact fun t _ rested => abandoned t rested
      | ok interval =>
          intro t _ rested
          change wp edgeSem (if interval = 0 then _ else _) _ _
          by_cases zero : interval = 0
          · rw [if_pos zero]
            exact abandoned t rested
          · rw [if_neg zero]
            refine Triple.bind (triple_rest_store advanced fun block => ⟨rfl, rfl⟩)
              (fun _ => ?_) t rested
            exact triple_output_wake_at _

end counting

section runs

/-- A run of the work and everything it goes by. -/
structure InRun (m : Machine) : Prop where
  balanced : Balanced m
  plain : Plain m
  running : m.workRunning = true

/-- Apart from the compares, the surroundings move nothing but edges. -/
theorem ModeMove.edge_or_fire {s t : Machine} (move : ModeMove s t) :
    (EdgeEnv s t ∧ t.workRunning = s.workRunning) ∨
      (s.workRunning = false ∧ s.singleShot = true ∧ t = s.fire) := by
  have quiet (request : Publish) : EdgeEnv s (s.beginPublish request) ∧
      (s.beginPublish request).workRunning = s.workRunning := by
    simp only [Machine.beginPublish, Machine.publish]
    split <;> exact ⟨.elsewhere rfl rfl rfl rfl, rfl⟩
  cases move with
  | clocks clocks => exact .inl ⟨.elsewhere rfl rfl rfl rfl, rfl⟩
  | expire _ _ => exact .inl ⟨.elsewhere rfl rfl rfl rfl, rfl⟩
  | outputTimer _ => exact .inl ⟨.elsewhere rfl rfl rfl rfl, rfl⟩
  | start mode periodNs highTimeNs lowTimeNs firstEdgeNs _ => exact .inl (quiet _)
  | stop => exact .inl (quiet _)
  | endPublish _ => exact .inl ⟨.elsewhere rfl rfl rfl rfl, rfl⟩
  | edge runs fits => exact .inl ⟨.edge runs fits, rfl⟩
  | fire idle waits => exact .inr ⟨idle, waits, rfl⟩

theorem ModeMove.in_run {s t : Machine} (move : ModeMove s t) (running : s.workRunning = true) :
    EdgeEnv s t ∧ t.workRunning = true := by
  rcases move.edge_or_fire with ⟨edge, same⟩ | ⟨idle, -, -⟩
  · exact ⟨edge, same.trans running⟩
  · simp [idle] at running

/-- What a sequence does among edges it does within a run among requests. -/
theorem mode_run {α : Type} {pre : Machine → Prop} {program : Driver α}
    {post : α → Machine → Prop} (level : Triple edgeSem pre program post)
    (uses : Uses KeepsPlain program) :
    Triple modeSem (fun m => pre m ∧ Plain m ∧ m.workRunning = true) program
      fun value m => post value m ∧ Plain m ∧ m.workRunning = true := by
  rintro s ⟨holds, plain, running⟩
  have kept : wp modeSem program (fun _ t => Plain t) s :=
    wp_uses uses (fun op s reply t keeps step => keeps s reply t step) stable_plain plain
  have moved : wp modeSem program (fun value t => post value t ∧ t.workRunning = true) s := by
    refine wp_view id (uses_true program) ?_ ?_ running (level s holds)
    · exact fun op s reply t _ running step => ⟨step, (perform_running step).trans running⟩
    · exact fun s t running move => ModeMove.in_run move running
  refine wp_mono ?_ (wp_and moved kept)
  exact fun value t holds => ⟨holds.1.1, holds.2, holds.1.2⟩

theorem mode_balanced {α : Type} {program : Driver α}
    (level : Triple edgeSem Balanced program fun _ => Balanced)
    (uses : Uses KeepsPlain program) : Triple modeSem InRun program fun _ => InRun :=
  (mode_run level uses).conseq (fun _ run => ⟨run.balanced, run.plain, run.running⟩)
    fun _ _ holds => ⟨holds.1, holds.2.1, holds.2.2⟩

theorem stable_in_run : Stable modeSem InRun := by
  intro s t step run
  have moved := ModeMove.in_run step run.running
  exact ⟨watched_balanced.stable s t moved.1 run.balanced, stable_plain s t step run.plain,
    moved.2⟩

/-- The block a run loads is plain, and stays what it is until the run changes it. -/
theorem mode_load :
    Triple modeSem InRun loadBlock fun block m =>
      PlainBlock block ∧ (Balanced m ∧ m.block = block) ∧ Plain m ∧ m.workRunning = true := by
  have loaded := mode_run watched_balanced.load ((uses_perform _).mpr keeps_plain_halting.load)
  refine loaded.conseq (fun _ run => ⟨run.balanced, run.plain, run.running⟩) ?_
  rintro block m ⟨⟨balanced, same⟩, plain, running⟩
  exact ⟨same ▸ plain.block, ⟨balanced, same⟩, plain, running⟩

theorem in_run_of_loaded {block : MmioBlock} {m : Machine}
    (loaded : (Balanced m ∧ m.block = block) ∧ Plain m ∧ m.workRunning = true) : InRun m :=
  ⟨loaded.1.1, loaded.2.1, loaded.2.2⟩

variable {desired : OutputDesired}

theorem mode_apply_flip (plain : PlainRequest desired) :
    Triple modeSem InRun (applyFlip desired) fun _ => InRun := by
  refine Triple.bind mode_load fun block => ?_
  rintro s ⟨plainBlock, loaded⟩
  have unflipped : (desired.flipGen - block.outputAppliedFlipGen).getLsbD 0 = false := by
    rw [plain.flipGen, plainBlock.flipGen]
    rfl
  rw [unflipped, if_neg (by decide)]
  exact mode_balanced (triple_balanced_store (appliedFlip desired)
    fun block => ⟨rfl, rfl, rfl, rfl⟩) ((uses_perform _).mpr (keeps_plain_flip plain)) s
    (in_run_of_loaded loaded)

theorem mode_service_edge : Triple modeSem InRun serviceEdge fun _ => InRun := by
  refine Triple.bind mode_load fun block => ?_
  rintro s ⟨plainBlock, loaded⟩
  have software (phase : block.outputPhase ≠ .hardwarePeriodic) :
      wp modeSem softwareEdge (fun _ => InRun) s := by
    have edge : Triple edgeSem (fun m => Balanced m ∧ m.block = block) softwareEdge
        fun _ => Balanced := by
      rintro m ⟨⟨counting, exact_ | rested⟩, same⟩
      · exact absurd (same ▸ exact_.tracked.phase) phase
      · exact wp_mono (fun _ t rested => .ofRested counting rfl rested) (triple_software_edge m rested)
    refine wp_mono ?_ (mode_run edge
      (software_edge_uses keeps_plain_servicing) s loaded)
    exact fun _ t holds => ⟨holds.1, holds.2.1, holds.2.2⟩
  cases phase : block.outputPhase with
  | armPeriodic =>
      have halves := plainBlock.halves phase
      refine mode_balanced (halves ▸ triple_balanced_arm block.outputNextEdge
        block.outputHighTimeNs) ?_ s (in_run_of_loaded loaded)
      refine Uses.seq (arm_hardware_periodic_uses keeps_plain_servicing.toArming _ _ _
        fun firstArt piv => halves ▸ keeps_plain_armed _ _ _ _)
        fun status => ?_
      split
      · exact uses_pure _
      · refine Uses.seq ((uses_perform _).mpr keeps_plain_servicing.giveUp) fun _ => ?_
        exact disable_output_hw_uses keeps_plain_halting
  | hwDuty => exact absurd phase plainBlock.phase
  | hardwarePeriodic =>
      exact Triple.pure stable_in_run (fun _ run => run) s (in_run_of_loaded loaded)
  | firstRising => exact software (by simp [phase])
  | toggle => exact software (by simp [phase])

theorem mode_service_output (plain : PlainRequest desired) :
    Triple modeSem InRun (serviceOutput desired) fun _ => InRun := by
  refine Triple.bind mode_load fun block => ?_
  rintro s ⟨plainBlock, loaded⟩
  have steady : desired.freqGen = block.outputAppliedFreqGen := by
    rw [plain.freqGen, plainBlock.freqGen]
  rw [if_neg (not_not.mpr steady)]
  exact mode_service_edge s (in_run_of_loaded loaded)

theorem mode_reconcile_arm (plain : PlainRequest desired) :
    Triple modeSem InRun (reconcileArm desired) fun _ => InRun :=
  mode_balanced (triple_balanced_rest fun _ _ => triple_reconcile_arm desired)
    (reconcile_arm_uses keeps_plain_servicing (keeps_plain_primed plain)
      (keeps_plain_applied plain))

/-- A run keeps the mirror off by what it was off by. -/
theorem mode_output_work : Triple modeSem InRun outputWork fun _ => InRun := by
  refine Triple.via (fun desired m => PlainRequest desired ∧ InRun m) ?_ fun desired => ?_
  · refine Triple.call stable_in_run (fun desired s t step holds =>
      ⟨holds.1, stable_in_run s t step holds.2⟩) ?_
    intro s reply t run step
    cases step
    exact ⟨run.plain.desired, run⟩
  rintro s ⟨plain, run⟩
  change wp modeSem (if desired.run = .stopped then _ else _) _ _
  by_cases stop : desired.run = .stopped
  · rw [if_pos stop]
    exact mode_balanced (triple_balanced_rest fun _ _ => triple_stop_output)
      (stop_output_uses keeps_plain_halting keeps_plain_servicing.cancel) s run
  rw [if_neg stop]
  refine Triple.bind (mode_apply_flip plain) (fun _ => ?_) s run
  refine Triple.bind mode_load fun block => ?_
  rintro t ⟨-, loaded⟩
  split
  · exact mode_reconcile_arm plain t (in_run_of_loaded loaded)
  · exact mode_service_output plain t (in_run_of_loaded loaded)

/-- A compare that changes the level puts the mirror off by one more. -/
theorem Balanced.fire {m : Machine} (balanced : Balanced m) (waits : m.singleShot = true) :
    Balanced m.fire := by
  have unpaced : m.regs.running = false := by
    simp only [Machine.singleShot, Bool.and_eq_true, Bool.not_eq_true'] at waits
    simp [Regs.running, waits.1.2]
  have changed : m.fire.marks.levelChanges.bodd =
      (m.marks.levelChanges.bodd ^^ (m.flop ^^ m.fire.flop)) := by
    change (m.marks.levelChanges + (m.flop ^^ m.fire.flop).toNat).bodd = _
    rw [Nat.bodd_add]
    cases m.flop <;> cases m.fire.flop <;> rfl
  have level (rest : Bool) (before : m.flop = (m.block.outputHwFlopHigh ^^
      m.marks.levelChanges.bodd ^^ rest)) : m.fire.flop = (m.block.outputHwFlopHigh ^^
      m.fire.marks.levelChanges.bodd ^^ rest) := by
    rw [changed, before]
    cases m.block.outputHwFlopHigh <;> cases m.marks.levelChanges.bodd <;> cases rest <;>
      cases m.fire.flop <;> rfl
  have counting : Counting m.fire.marks := balanced.1
  obtain ⟨-, exact_ | rested⟩ := balanced
  · have tracked : Tracked m.fire.marks.levelChanges.bodd m.fire.block m.fire.regs m.fire.flop :=
      { exact_.tracked with level := level _ exact_.tracked.level }
    exact .ofExact counting rfl ⟨tracked, exact_.divides, rfl⟩
  · have after := level false (by simpa using rested.level)
    rw [Bool.xor_false] at after
    have resting : Rested m.fire.marks.levelChanges.bodd m.fire.marks m.fire :=
      ⟨unpaced, rested.idle, after, rfl⟩
    exact .ofRested counting rfl resting

end runs

/-- Between two runs. -/
structure ModeIdle (m : Machine) : Prop where
  balanced : Balanced m
  plain : Plain m

theorem ModeIdle.move {s t : Machine} (move : ModeMove s t) (idle : ModeIdle s) : ModeIdle t := by
  refine ⟨?_, stable_plain s t move idle.plain⟩
  rcases move.edge_or_fire with ⟨edge, -⟩ | ⟨-, waits, rfl⟩
  · exact watched_balanced.stable s t edge idle.balanced
  · exact idle.balanced.fire waits

/-- A run begins with the mirror off by what it was, and ends so. -/
theorem ModeIdle.run {s t : Machine} (start : modeWorker.start s t) (idle : ModeIdle s) :
    wp modeWorker.toSemantics modeWorker.program (modeWorker.Owes ModeIdle) t := by
  obtain ⟨-, -, rfl⟩ := start
  have balanced : Balanced s.beginRun := by
    obtain ⟨counting, exact_ | rested⟩ := idle.balanced
    · exact .ofExact counting rfl ⟨exact_.tracked, exact_.divides, rfl⟩
    · exact .ofRested counting rfl ⟨rested.stopped, rested.idle, rested.level, rfl⟩
  refine wp_mono ?_ (mode_output_work s.beginRun ⟨balanced, ⟨idle.plain.desired, idle.plain.block⟩,
    rfl⟩)
  rintro _ u run _ rfl
  refine ⟨?_, ⟨run.plain.desired, run.plain.block⟩⟩
  obtain ⟨counting, exact_ | rested⟩ := run.balanced
  · exact .ofExact counting rfl ⟨exact_.tracked, exact_.divides, rfl⟩
  · exact .ofRested counting rfl ⟨rested.stopped, rested.idle, rested.level, rfl⟩

/-- A block that nothing has used yet, with the mirror right. -/
structure Unused (m : Machine) : Prop where
  plain : Plain m
  stopped : m.regs.running = false
  idle : m.block.outputHwPiv = 0
  correct : m.block.outputHwFlopHigh = m.flop
  unchanged : m.history.levelChanges = 0
  unchosen : m.history.slots = []

theorem Unused.idle_ {m : Machine} (unused : Unused m) : ModeIdle m := by
  have rested : Rested false m.marks m :=
    ⟨unused.stopped, unused.idle, by rw [unused.correct, Bool.xor_false], rfl⟩
  refine ⟨.ofRested ?_ ?_ rested, unused.plain⟩
  · intro slot member
    have none : slot ∈ m.history.slots := member
    simp [unused.unchosen] at none
  · change false = m.history.levelChanges.bodd
    rw [unused.unchanged, Nat.bodd_zero]

/-- In every sequence of start and stop requests, a slot selection goes by the
level exactly when the single-shot compares up to it have changed the level an
even number of times. -/
theorem slot_mirror_right_iff (first last : Machine) (unused : Unused first)
    (reaches : modeWorker.Reaches ⟨first, none⟩ ⟨last, none⟩) :
    ∀ slot ∈ last.history.slots,
      slot.mirror = slot.flop ↔ slot.levelChanges % 2 = 0 := by
  have idle : modeWorker.Holds ModeIdle ⟨last, none⟩ :=
    Worker.holds_reaches (fun _ _ => ModeIdle.move) (fun _ _ => ModeIdle.run) reaches unused.idle_
  change ModeIdle last at idle
  intro slot member
  have counted := idle.balanced.1 slot member
  rw [Nat.mod_two_of_bodd]
  exact counted.trans (by cases slot.levelChanges.bodd <;> simp)

section traces

/-- The events that belong to sequences of start and stop requests. -/
def Event.inModes : Event → Bool
  | .publish .disable => true
  | .publish (.configure .running mode _ highTimeNs lowTimeNs _) =>
      mode = .software || highTimeNs == lowTimeNs
  | .publish _ => false
  | _ => true

theorem act_modes {event : Event} (inModes : event.inModes = true) {m m' : Machine}
    (acted : m.act event = some m') : modeSem.Rely m m' := by
  cases event with
  | clocks clocks =>
      cases acted
      exact .single (.clocks clocks)
  | timer =>
      obtain ⟨ready, acted⟩ := Option.ite_none_right_eq_some.mp acted
      cases acted
      exact .tail (.single (.expire ready.1 ready.2)) (.outputTimer rfl)
  | publish request =>
      obtain ⟨-, acted⟩ := Option.ite_none_right_eq_some.mp acted
      cases acted
      refine .tail (.single ?_) (.endPublish (Nat.succ_pos _))
      cases request with
      | configure run mode periodNs highTimeNs lowTimeNs firstEdgeNs =>
          cases run with
          | running =>
              refine .start mode periodNs highTimeNs lowTimeNs firstEdgeNs fun hardware => ?_
              simpa [Event.inModes, hardware] using inModes
          | stopped => contradiction
      | disable => exact .stop
      | resync | freq | flip => contradiction
  | edge =>
      obtain ⟨runs, acted⟩ := Option.ite_none_right_eq_some.mp acted
      cases acted
      exact .single (.edge runs.1 runs.2)
  | fire =>
      obtain ⟨waits, acted⟩ := Option.ite_none_right_eq_some.mp acted
      cases acted
      exact .single (.fire waits.1 waits.2)

def modeTracer : modeWorker.Tracer Event where
  handler := Machine.perform
  start := Machine.startRun
  finish := Machine.endRun
  act event m := if event.inModes then m.act event else none
  handlerSound _ _ _ _ step := step
  startSound := start_run_sound
  finishSound := end_run_sound
  actSound event m m' acted := by
    obtain ⟨inModes, acted⟩ := Option.ite_none_right_eq_some.mp acted
    exact act_modes inModes acted

theorem loaded_block_unused : Unused loadedBlock :=
  ⟨⟨⟨rfl, rfl, nofun⟩, ⟨rfl, rfl, nofun, fun _ => rfl⟩⟩, rfl, rfl, rfl, rfl, rfl⟩

theorem slot_mirror_right_iff_hardware_start :
    ∃ slot ∈ (modeTracer.after 1000 loadedBlock hardwareStart).history.slots,
      slot.mirror = slot.flop := by
  have reaches := modeTracer.after_reaches 1000 loadedBlock hardwareStart (by decide +kernel)
  have right := slot_mirror_right_iff _ _ loaded_block_unused reaches ⟨false, false, 0⟩
    (by decide +kernel)
  exact ⟨_, by decide +kernel, right.mpr (by decide)⟩

/-- A software output stopped after one rise, then a hardware start. -/
def softwareThenHardware : List (Worker.Traced Event) :=
  [.act (.publish (.configure .running .software 1000000000 500000000 500000000 2000000000)), .run,
    .act .fire, .act .timer, .run, .act .fire, .act (.publish .disable), .run] ++ hardwareStart

/-- The rise of the software output is the only compare that has changed the
level, and the mirror does not know of it. -/
theorem software_rise_inverts_mirror :
    ∃ first last, Unused first ∧ first.params.softwareRearmToggle = true ∧
      modeWorker.Reaches ⟨first, none⟩ ⟨last, none⟩ ∧
      ∃ slot ∈ last.history.slots, slot.mirror ≠ slot.flop ∧ slot.levelChanges = 1 := by
  refine ⟨loadedBlock, modeTracer.after 1000 loadedBlock softwareThenHardware,
    loaded_block_unused, rfl, ?_, ⟨false, true, 1⟩, ?_, by decide, rfl⟩
  · exact modeTracer.after_reaches _ _ _ (by decide +kernel)
  · decide +kernel

end traces

end Tgpio

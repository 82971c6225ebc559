import Tgpio.WakeUps

/-!
# Hardware outputs and the software path

`disableOutputHw` leaves a block in the phase that also means software
toggling, and at the generation of its snapshot `outputWork` goes by the phase
alone. A hardware output stays out of the software path as long as no run gives
up a block that has been brought to its generation.
-/

namespace Tgpio

open Interference Interference.Prog

set_option autoImplicit false

/-- RUNNING in hardware mode. -/
def ForHardware (desired : OutputDesired) : Prop :=
  desired.run = .running ∧ desired.mode = .hardware

instance decidableForHardware (desired : OutputDesired) : Decidable (ForHardware desired) :=
  inferInstanceAs (Decidable (_ ∧ _))

/-- The phases that keep `serviceEdge` out of the software path. -/
def OutputPhase.ofHardware : OutputPhase → Bool
  | .armPeriodic | .hardwarePeriodic | .hwDuty => true
  | .firstRising | .toggle => false

/-- An access that belongs to the software path: a block at the generation of
the snapshot is found in a phase of it, or the record of its edge is made. -/
def entersSoftware (desired : OutputDesired) (block : MmioBlock) : Op → Bool
  | .load => block.outputAppliedGen == desired.gen && !block.outputPhase.ofHardware
  | .store update => (update block).outputPhase == .toggle &&
      (update block).outputNextEdgeType != block.outputNextEdgeType
  | _ => false

/-- The machine, the snapshot its last run has taken, and whether a run on a
hardware snapshot has ever been in the software path. -/
structure Tended where
  machine : Machine
  snapshot : Option OutputDesired
  strayed : Bool

namespace Tended

variable (t : Tended)

/-- The first snapshot of a run is the one it works on. -/
def taken : Op → Option OutputDesired
  | .outputDesiredGet => some (t.snapshot.getD t.machine.desired)
  | _ => t.snapshot

def strays (op : Op) : Bool :=
  t.snapshot.any fun desired =>
    decide (ForHardware desired) && entersSoftware desired t.machine.block op

def perform (op : Op) : Option (op.Resp × Tended) :=
  (t.machine.perform op).map fun answer =>
    (answer.1, ⟨answer.2, t.taken op, t.strayed || t.strays op⟩)

end Tended

/-- The block is at the generation of a hardware configuration: of the snapshot,
or of the latest one. -/
def Held (t : Tended) : Prop :=
  ∃ desired, (t.snapshot = some desired ∨ desired = t.machine.desired) ∧
    ForHardware desired ∧ t.machine.block.outputAppliedGen = desired.gen

/-- Runs that give up no held block. -/
def Steadfast : Op → Tended → Prop
  | .mark .giveUp, t => ¬Held t
  | _, _ => True

/-- The work item, with the snapshots of its runs. -/
def tendedWorker (guard : Op → Tended → Prop) : Worker Op Op.Resp Tended where
  step op t reply t' := guard op t ∧ t.perform op = some (reply, t')
  env t t' := Surroundings t.machine t'.machine ∧ t' = { t with machine := t'.machine }
  program := outputWork
  start t t' := t.machine.workQueued = true ∧ t.machine.workRunning = false ∧
    t' = ⟨t.machine.beginRun, none, t.strayed⟩
  finish t t' := t' = { t with machine := t.machine.endRun }

abbrev steadfastWorker : Worker Op Op.Resp Tended := tendedWorker Steadfast

/-- A snapshot of a run, with the mode that its generation names. -/
structure SnapshotOf (desired : OutputDesired) (m : Machine) : Prop extends Base desired m where
  mode : desired.gen = m.desired.gen → desired.mode = m.desired.mode

/-- At its own generation, a hardware output is in a phase of the hardware path. -/
def OnPath (desired : OutputDesired) (block : MmioBlock) : Prop :=
  ForHardware desired → block.outputAppliedGen = desired.gen →
    block.outputPhase.ofHardware = true

/-- A run on `desired` that may be arming `config`, and has not strayed. -/
structure Tending (desired config : OutputDesired) (t : Tended) : Prop where
  snapshot : t.snapshot = some desired
  kept : t.strayed = false
  known : SnapshotOf desired t.machine
  arming : SnapshotOf config t.machine
  agree : config.gen = desired.gen → config.mode = desired.mode
  behind : t.machine.block.outputAppliedGen.toNat ≤ t.machine.desired.gen.toNat

/-- The block is not held: neither configuration goes by its phase. -/
def Unheld (desired : OutputDesired) (m : Machine) : Prop :=
  (ForHardware desired → m.block.outputAppliedGen ≠ desired.gen) ∧
    (ForHardware m.desired → m.block.outputAppliedGen ≠ m.desired.gen)

/-- The run, and any later run, would find the hardware path. -/
structure Guided (desired config : OutputDesired) (t : Tended) : Prop
    extends Tending desired config t where
  path : OnPath desired t.machine.block
  latest : OnPath t.machine.desired t.machine.block

section known

variable {desired config : OutputDesired} {m s t : Machine}

/-- A publish opens a new generation or leaves the mode alone. -/
theorem publish_mode (requests : Requests) (request : Publish) :
    (requests.publish request).desired.gen ≠ requests.desired.gen ∨
      (requests.publish request).desired.mode = requests.desired.mode := by
  have next (gen : BitVec 32) : gen + 1 ≠ gen := by simp
  cases request with
  | configure | disable | resync => exact .inl (next _)
  | freq | flip => exact .inr rfl

theorem SnapshotOf.move (step : Surroundings s t) (known : SnapshotOf desired s) : SnapshotOf desired t := by
  have base : Base desired t := stable_base s t step known.toBase
  refine ⟨base, fun same => ?_⟩
  obtain ⟨-, -, -, -, requests | ⟨request, room, requests⟩⟩ := surroundings_step step
  · have kept : t.desired = s.desired := congrArg Requests.desired requests
    rw [kept] at same ⊢
    exact known.mode same
  · have published : t.desired = (s.requests.publish request).desired :=
      congrArg Requests.desired requests
    rw [published] at same ⊢
    have order : desired.gen.toNat ≤ s.desired.gen.toNat := known.snapshot.order
    have counts := known.snapshot.counts
    rcases publish_gen request counts room with ⟨gen, -⟩ | later
    · rcases publish_mode s.requests request with changed | mode
      · exact absurd gen changed
      · rw [mode]
        exact known.mode (same.trans gen)
    · have now := congrArg BitVec.toNat same
      change desired.gen.toNat ≤ s.requests.desired.gen.toNat at order
      omega

theorem SnapshotOf.step {op : Op} {reply : op.Resp} (work : op.ofWork)
    (step : Machine.perform op s = some (reply, t)) (known : SnapshotOf desired s) : SnapshotOf desired t := by
  refine ⟨known.toBase.step work step, ?_⟩
  rw [of_work_frame work step]
  exact known.mode

theorem behind_move (counts : Counts s.requests) (step : Surroundings s t)
    (behind : s.block.outputAppliedGen.toNat ≤ s.desired.gen.toNat) :
    t.block.outputAppliedGen.toNat ≤ t.desired.gen.toNat := by
  obtain ⟨-, block, -, -, requests | ⟨request, room, requests⟩⟩ := surroundings_step step
  · have kept : t.desired = s.desired := congrArg Requests.desired requests
    rw [block, kept]
    exact behind
  · have published : t.desired = (s.requests.publish request).desired :=
      congrArg Requests.desired requests
    rw [block, published]
    rcases publish_gen request counts room with ⟨gen, -⟩ | later
    · rw [gen]
      exact behind
    · rw [later]
      exact behind.trans (Nat.le_succ _)

/-- After a step of the surroundings the block is at the latest configuration,
and that for hardware, only if it was before. -/
theorem held_move (counts : Counts s.requests) (step : Surroundings s t)
    (behind : s.block.outputAppliedGen.toNat ≤ s.desired.gen.toNat)
    (hardware : ForHardware t.desired) (current : t.block.outputAppliedGen = t.desired.gen) :
    ForHardware s.desired ∧ s.block.outputAppliedGen = s.desired.gen := by
  obtain ⟨-, block, -, -, requests | ⟨request, room, requests⟩⟩ := surroundings_step step
  · have kept : t.desired = s.desired := congrArg Requests.desired requests
    rw [kept] at hardware
    rw [block, kept] at current
    exact ⟨hardware, current⟩
  · have published : t.desired = (s.requests.publish request).desired :=
      congrArg Requests.desired requests
    rw [published] at hardware
    rw [block, published] at current
    rcases publish_gen request counts room with ⟨gen, run, -⟩ | later
    · rcases publish_mode s.requests request with changed | mode
      · exact absurd gen changed
      · exact ⟨⟨run.symm.trans hardware.1, mode.symm.trans hardware.2⟩, current.trans gen⟩
    · have now := congrArg BitVec.toNat current
      have before : _ ≤ s.requests.desired.gen.toNat := behind
      omega

/-- What the latest generation names in hardware mode, its snapshots do. -/
theorem SnapshotOf.for_hardware (known : SnapshotOf desired m) (same : desired.gen = m.desired.gen)
    (hardware : ForHardware m.desired) : ForHardware desired :=
  ⟨(known.snapshot.same same).1.trans hardware.1, (known.mode same).trans hardware.2⟩

end known

section stability

variable {desired config : OutputDesired} {s t : Tended}

/-- What the surroundings can do: publish, and leave the rest. -/
theorem tended_env (step : steadfastWorker.env s t) :
    t.snapshot = s.snapshot ∧ t.strayed = s.strayed ∧ t.machine.block = s.machine.block ∧
      Surroundings s.machine t.machine := by
  obtain ⟨step, tended⟩ := step
  refine ⟨?_, ?_, (surroundings_step step).2.1, step⟩
  all_goals rw [tended]

theorem tending_stable : Stable steadfastWorker.toSemantics (Tending desired config) := by
  intro s t step tending
  obtain ⟨snapshot, strayed, -, step⟩ := tended_env step
  exact ⟨snapshot.trans tending.snapshot, strayed.trans tending.kept, tending.known.move step,
    tending.arming.move step, tending.agree,
    behind_move tending.known.snapshot.counts step tending.behind⟩

theorem guided_stable : Stable steadfastWorker.toSemantics (Guided desired config) := by
  intro s t step guided
  have block := (tended_env step).2.2.1
  refine ⟨tending_stable s t step guided.toTending, ?_, fun hardware current => ?_⟩
  · rw [block]
    exact guided.path
  · obtain ⟨hardware, current⟩ :=
      held_move guided.known.snapshot.counts step.1 guided.behind hardware current
    rw [block]
    exact guided.latest hardware current

theorem unheld_stable : Stable steadfastWorker.toSemantics
    fun t => Tending desired config t ∧ Unheld desired t.machine := by
  rintro s t step ⟨tending, unheld⟩
  refine ⟨tending_stable s t step tending, ?_, fun hardware current => ?_⟩
  · rw [(tended_env step).2.2.1]
    exact unheld.1
  · obtain ⟨hardware, current⟩ :=
      held_move tending.known.snapshot.counts step.1 tending.behind hardware current
    exact unheld.2 hardware current

/-- The surroundings leave the block alone. -/
theorem tended_with_block {holds : Tended → Prop}
    (stable : Stable steadfastWorker.toSemantics holds) (record : MmioBlock → Prop) :
    Stable steadfastWorker.toSemantics fun t => holds t ∧ record t.machine.block := by
  intro s t step before
  rw [(tended_env step).2.2.1]
  exact ⟨stable s t step before.1, before.2⟩

end stability

section accesses

variable {desired config : OutputDesired} {keeps : MmioBlock → MmioBlock → Prop}

/-- Accesses of a run whose records keep a relation. -/
def Stores (keeps : MmioBlock → MmioBlock → Prop) : Op → Prop
  | .store update => ∀ block, keeps block (update block)
  | op => op.ofWork

theorem stores_step {op : Op} {s t : Machine} {reply : op.Resp} (refl : ∀ block, keeps block block)
    (stores : Stores keeps op) (step : Machine.perform op s = some (reply, t)) :
    op.ofWork ∧ keeps s.block t.block := by
  cases op with
  | store update =>
      cases step
      exact ⟨trivial, stores s.block⟩
  | readl reg =>
      cases step
      cases reg <;> exact ⟨trivial, refl _⟩
  | writel reg value =>
      cases step
      cases reg <;> exact ⟨trivial, refl _⟩
  | mark point =>
      cases step
      cases point <;> exact ⟨trivial, refl _⟩
  | hrtimerCancel =>
      simp only [Machine.perform] at step
      split at step
      · contradiction
      · cases step
        exact ⟨trivial, refl _⟩
  | load | outputDesiredGet | sample | ktimeGetReal | hrtimerStart | msleep =>
      cases step
      exact ⟨trivial, refl _⟩
  | _ => contradiction

/-- The generation stays, a hardware phase stays one, and no software edge is recorded. -/
structure KeepsPath (block next : MmioBlock) : Prop where
  gen : next.outputAppliedGen = block.outputAppliedGen
  phase : block.outputPhase.ofHardware = true → next.outputPhase.ofHardware = true
  edge : next.outputPhase = .toggle → next.outputNextEdgeType = block.outputNextEdgeType

/-- The generation stays, and no software edge is recorded. -/
structure KeepsGen (block next : MmioBlock) : Prop where
  gen : next.outputAppliedGen = block.outputAppliedGen
  edge : next.outputPhase = .toggle → next.outputNextEdgeType = block.outputNextEdgeType

/-- The block does not get ahead of the snapshot. -/
def Within (desired : OutputDesired) (block next : MmioBlock) : Prop :=
  block.outputAppliedGen.toNat ≤ desired.gen.toNat → next.outputAppliedGen.toNat ≤ desired.gen.toNat

theorem path_rewriting : Rewriting (Stores KeepsPath) where
  readl _ := trivial
  load := trivial
  sample _ _ := trivial
  real := trivial
  desired := trivial
  sleep _ := trivial
  looked := trivial
  duty _ _ := ⟨rfl, id, fun _ => rfl⟩
  periodic _ _ := ⟨rfl, id, fun _ => rfl⟩
  writel _ _ := trivial
  pace _ _ := ⟨rfl, id, fun _ => rfl⟩
  checkpoint _ _ := ⟨rfl, id, fun _ => rfl⟩
  edge _ _ := ⟨rfl, id, fun _ => rfl⟩

theorem path_waking (time : Int) : Stores KeepsPath (.store (wakingAt time)) :=
  fun _ => ⟨rfl, id, fun _ => rfl⟩

theorem path_armed (firstEdgeNs : Int) (highTimeNs lowTimeNs firstArt initialPiv : Nat) :
    Stores KeepsPath (.store (armed firstEdgeNs highTimeNs lowTimeNs firstArt initialPiv)) := by
  intro block
  refine ⟨rfl, fun _ => ?_, fun toggles => ?_⟩
  · simp only [armed]
    split <;> rfl
  · simp only [armed] at toggles
    split at toggles <;> contradiction

theorem gen_halting : Halting (Stores KeepsGen) where
  readl _ := trivial
  load := trivial
  sample _ _ := trivial
  real := trivial
  desired := trivial
  sleep _ := trivial
  looked := trivial
  duty _ _ := ⟨rfl, fun _ => rfl⟩
  periodic _ _ := ⟨rfl, fun _ => rfl⟩
  data _ _ _ := trivial
  disable _ _ := trivial
  halt _ := ⟨rfl, fun _ => rfl⟩

theorem within_servicing : Servicing (Stores (Within desired)) where
  readl _ := trivial
  load := trivial
  sample _ _ := trivial
  real := trivial
  desired := trivial
  sleep _ := trivial
  looked := trivial
  duty _ _ := id
  periodic _ _ := id
  data _ _ _ := trivial
  disable _ _ := trivial
  halt _ := id
  writel _ _ := trivial
  pace _ _ := id
  checkpoint _ _ := id
  edge _ _ := id
  start _ := trivial
  waking _ _ := id
  slot := trivial
  advance _ := id
  cancel := trivial
  giveUp := trivial

end accesses

section steps

variable {desired config : OutputDesired} {op : Op} {s t : Tended} {reply : op.Resp}

theorem tended_step (step : steadfastWorker.step op s reply t) :
    Steadfast op s ∧ Machine.perform op s.machine = some (reply, t.machine) ∧
      t.snapshot = s.taken op ∧ t.strayed = (s.strayed || s.strays op) := by
  obtain ⟨guard, step⟩ := step
  obtain ⟨answer, performed, answered⟩ := Option.map_eq_some_iff.mp step
  cases answered
  exact ⟨guard, performed, rfl, rfl⟩

theorem Tending.taken (tending : Tending desired config s) : s.taken op = some desired := by
  cases op with
  | outputDesiredGet => simp [Tended.taken, tending.snapshot]
  | _ => exact tending.snapshot

theorem Tending.step (tending : Tending desired config s) (work : op.ofWork)
    (step : steadfastWorker.step op s reply t)
    (calm : ForHardware desired → entersSoftware desired s.machine.block op = false)
    (behind : t.machine.block.outputAppliedGen.toNat ≤ s.machine.desired.gen.toNat) :
    Tending desired config t := by
  obtain ⟨-, performed, snapshot, strayed⟩ := tended_step step
  have calmed : s.strays op = false := by
    simp only [Tended.strays, tending.snapshot, Option.any_some, Bool.and_eq_false_imp,
      decide_eq_true_eq]
    exact calm
  refine ⟨snapshot.trans tending.taken, ?_, tending.known.step work performed,
    tending.arming.step work performed, tending.agree, ?_⟩
  · rw [strayed, tending.kept, calmed]
    rfl
  · rw [of_work_frame work performed]
    exact behind

theorem latest_step (work : op.ofWork) (step : steadfastWorker.step op s reply t) :
    t.machine.desired = s.machine.desired := by
  rw [of_work_frame work (tended_step step).2.1]

theorem Guided.step (guided : Guided desired config s) (stores : Stores KeepsPath op)
    (step : steadfastWorker.step op s reply t) :
    Guided desired config t ∧
      t.machine.block.outputAppliedGen = s.machine.block.outputAppliedGen := by
  obtain ⟨work, kept⟩ := stores_step (fun _ => ⟨rfl, id, fun _ => rfl⟩) stores (tended_step step).2.1
  have calm : ForHardware desired → entersSoftware desired s.machine.block op = false := by
    intro hardware
    cases op with
    | load =>
        simp only [entersSoftware, Bool.and_eq_false_imp, beq_iff_eq, Bool.not_eq_false']
        exact guided.path hardware
    | store update =>
        simp only [entersSoftware, Bool.and_eq_false_imp, beq_iff_eq, bne_eq_false_iff_eq]
        exact (stores s.machine.block).edge
    | _ => rfl
  have behind := kept.gen ▸ guided.behind
  refine ⟨⟨guided.toTending.step work step calm behind, ?_, ?_⟩, kept.gen⟩
  · exact fun hardware current => kept.phase (guided.path hardware (kept.gen.symm.trans current))
  · rw [latest_step work step]
    exact fun hardware current => kept.phase (guided.latest hardware (kept.gen.symm.trans current))

end steps

/-- Triples of a steadfast run, none of whose states has strayed. -/
abbrev Stays {α : Type} (pre : Tended → Prop) (program : Driver α)
    (post : α → Tended → Prop) : Prop :=
  Upholds steadfastWorker.toSemantics (fun t => t.strayed = false) pre program post

section frames

variable {desired config : OutputDesired} {α : Type} {program : Driver α}

/-- Guided, and at a generation of interest. -/
def GuidedAt (desired config : OutputDesired) (gen : BitVec 32 → Prop) (t : Tended) : Prop :=
  Guided desired config t ∧ gen t.machine.block.outputAppliedGen

theorem guided_at_stable (gen : BitVec 32 → Prop) :
    Stable steadfastWorker.toSemantics (GuidedAt desired config gen) :=
  tended_with_block guided_stable fun block => gen block.outputAppliedGen

theorem stays_guided_at (gen : BitVec 32 → Prop) (uses : Uses (Stores KeepsPath) program) :
    Stays (GuidedAt desired config gen) program fun _ => GuidedAt desired config gen := by
  refine Upholds.uses uses ?_ (guided_at_stable gen) fun t holds => holds.1.kept
  rintro op s reply t stores step ⟨guided, holds⟩
  obtain ⟨after, same⟩ := guided.step stores step
  exact ⟨after, same ▸ holds⟩

theorem stays_unheld (uses : Uses (Stores KeepsGen) program) :
    Stays (fun t => Tending desired config t ∧ Unheld desired t.machine) program
      fun _ t => Tending desired config t ∧ Unheld desired t.machine := by
  refine Upholds.uses uses ?_ unheld_stable fun t holds => holds.1.kept
  rintro op s reply t stores step ⟨tending, unheld⟩
  obtain ⟨work, kept⟩ := stores_step (fun _ => ⟨rfl, fun _ => rfl⟩) stores (tended_step step).2.1
  have calm : ForHardware desired → entersSoftware desired s.machine.block op = false := by
    intro hardware
    cases op with
    | load =>
        simp only [entersSoftware, Bool.and_eq_false_imp, beq_iff_eq]
        exact fun current => absurd current (unheld.1 hardware)
    | store update =>
        simp only [entersSoftware, Bool.and_eq_false_imp, beq_iff_eq, bne_eq_false_iff_eq]
        exact (stores s.machine.block).edge
    | _ => rfl
  refine ⟨tending.step work step calm (kept.gen ▸ tending.behind), ?_⟩
  rw [Unheld, latest_step work step, kept.gen]
  exact unheld

/-- A run on a snapshot that is not for hardware cannot stray. -/
theorem stays_within (other : ¬ForHardware desired) (uses : Uses (Stores (Within desired)) program) :
    Stays (fun t => Tending desired config t ∧
        t.machine.block.outputAppliedGen.toNat ≤ desired.gen.toNat) program
      fun _ t => Tending desired config t ∧
        t.machine.block.outputAppliedGen.toNat ≤ desired.gen.toNat := by
  refine Upholds.uses uses ?_ (tended_with_block tending_stable
    fun block => block.outputAppliedGen.toNat ≤ desired.gen.toNat) fun t holds => holds.1.kept
  rintro op s reply t stores step ⟨tending, within⟩
  obtain ⟨work, kept⟩ := stores_step (fun _ => id) stores (tended_step step).2.1
  have order : desired.gen.toNat ≤ s.machine.desired.gen.toNat := tending.known.snapshot.order
  have after := kept within
  exact ⟨tending.step work step (fun hardware => absurd hardware other) (after.trans order), after⟩

/-- A block that is not ahead of such a snapshot is guided. -/
theorem Tending.guided {t : Tended} (tending : Tending desired config t)
    (other : ¬ForHardware desired)
    (within : t.machine.block.outputAppliedGen.toNat ≤ desired.gen.toNat) :
    Guided desired config t := by
  refine ⟨tending, fun hardware => absurd hardware other, fun hardware current => ?_⟩
  have order : desired.gen.toNat ≤ t.machine.desired.gen.toNat := tending.known.snapshot.order
  rw [current] at within
  have same : desired.gen = t.machine.desired.gen := BitVec.eq_of_toNat_eq (by omega)
  exact absurd (tending.known.for_hardware same hardware) other

theorem Tending.unheld_guided {t : Tended} (tending : Tending desired config t)
    (unheld : Unheld desired t.machine) : Guided desired config t :=
  ⟨tending, fun hardware current => absurd current (unheld.1 hardware),
    fun hardware current => absurd current (unheld.2 hardware)⟩

/-- A fact of the bare machine holds of these runs too. -/
theorem stays_and {pre : Tended → Prop} {post : α → Tended → Prop}
    {after : α → Machine → Prop} (stays : Stays pre program post)
    (triple : Triple workSem (fun _ => True) program after) :
    Stays pre program fun value t => post value t ∧ after value t.machine := by
  intro s holds
  obtain ⟨secure, ends⟩ := stays s holds
  refine ⟨secure, wp_and ends ?_⟩
  refine wp_mono (fun _ _ holds => holds.1) (wp_view Tended.machine (uses_true program) ?_ ?_ trivial
    (triple s.machine trivial) : wp steadfastWorker.toSemantics program
      (fun value t => after value t.machine ∧ True) s)
  · exact fun _ _ _ _ _ _ step => ⟨(tended_step step).2.1, trivial⟩
  · exact fun _ _ _ step => ⟨step.1, trivial⟩

end frames

section arming

variable {desired config : OutputDesired} {α : Type} {program : Driver α}

theorem stays_guided (uses : Uses (Stores KeepsPath) program) :
    Stays (Guided desired config) program fun _ => Guided desired config :=
  (stays_guided_at (fun _ => True) uses).conseq (fun _ guided => ⟨guided, trivial⟩)
    fun _ _ holds => holds.1

/-- Accesses that neither read the block nor write it. -/
def Detached : Op → Prop
  | .load => False
  | .store _ => False
  | op => op.ofWork

theorem stays_detached (record : MmioBlock → Prop) (uses : Uses Detached program) :
    Stays (fun t => Tending desired config t ∧ record t.machine.block) program
      fun _ t => Tending desired config t ∧ record t.machine.block := by
  refine Upholds.uses uses ?_ (tended_with_block tending_stable record) fun t holds => holds.1.kept
  rintro op s reply t detached step ⟨tending, holds⟩
  have stores : Stores Eq op := by
    cases op with
    | load | store => exact detached.elim
    | _ => exact detached
  have calm (_ : ForHardware desired) : entersSoftware desired s.machine.block op = false := by
    cases op with
    | load | store => exact detached.elim
    | _ => rfl
  obtain ⟨work, same⟩ := stores_step Eq.refl stores (tended_step step).2.1
  rw [← same]
  exact ⟨tending.step work step calm (same ▸ tending.behind), holds⟩

/-- A record that is no software edge. -/
theorem Tending.store {update : MmioBlock → MmioBlock} {s t : Tended}
    {reply : (Op.store update).Resp} (tending : Tending desired config s)
    (step : steadfastWorker.step (.store update) s reply t)
    (edge : (update s.machine.block).outputPhase = .toggle →
      (update s.machine.block).outputNextEdgeType = s.machine.block.outputNextEdgeType)
    (behind : (update s.machine.block).outputAppliedGen.toNat ≤ s.machine.desired.gen.toNat) :
    Tending desired config t ∧ t.machine.block = update s.machine.block ∧
      t.machine.desired = s.machine.desired := by
  obtain ⟨-, performed, -⟩ := tended_step step
  have work : (Op.store update).ofWork := trivial
  have machine := (Prod.mk.inj (Option.some.inj performed)).2
  have block : t.machine.block = update s.machine.block := by
    rw [← machine]
  refine ⟨tending.step work step (fun _ => ?_) (block ▸ behind), block, latest_step work step⟩
  simp only [entersSoftware, Bool.and_eq_false_imp, beq_iff_eq, bne_eq_false_iff_eq]
  exact edge

theorem stays_disable :
    Stays (Guided desired config) disableOutputHw fun _ => Tending desired config := by
  have rewriting := path_rewriting
  have data (reg : Reg) (value : BitVec 32) (_ : reg ≠ .ctl) :
      Stores KeepsPath (.writel reg value) := trivial
  refine Upholds.bind (stays_guided ((uses_perform _).mpr trivial)) fun ctrl => ?_
  refine Upholds.bind (stays_guided ((uses_perform _).mpr trivial)) fun _ => ?_
  refine Upholds.bind (stays_guided (hw_flop_fold_uses rewriting.toFolding)) fun _ => ?_
  refine Upholds.bind (stays_guided (write_compv_uses 0 data)) fun _ => ?_
  refine Upholds.bind (stays_guided (write_piv_uses 0 data)) fun _ => ?_
  refine Upholds.bind (stays_guided ((uses_perform _).mpr trivial)) fun _ => ?_
  refine Upholds.call guided_stable (fun _ => tending_stable) (fun _ holds => holds.kept)
    (fun _ _ holds => holds.kept) ?_
  intro s reply t guided step
  exact (guided.toTending.store step (fun _ => rfl) guided.behind).1

/-- A block primed for `config`, whose generation is still an old one. -/
def PrimedFor (desired config : OutputDesired) (t : Tended) : Prop :=
  Tending desired config t ∧
    (config.mode = .hardware → t.machine.block.outputPhase.ofHardware = true)

theorem primed_for_stable : Stable steadfastWorker.toSemantics (PrimedFor desired config) :=
  tended_with_block tending_stable
    fun block => config.mode = .hardware → block.outputPhase.ofHardware = true

theorem stays_prime (firstEdgeNs : Int) (highTimeNs lowTimeNs : Nat) :
    Stays (Guided desired config)
      (storeBlock (primed firstEdgeNs highTimeNs lowTimeNs config.mode))
      fun _ => PrimedFor desired config := by
  refine Upholds.call guided_stable (fun _ => primed_for_stable) (fun _ holds => holds.kept)
    (fun _ _ holds => holds.1.kept) ?_
  intro s reply t guided step
  have untoggled (block : MmioBlock) :
      (primed firstEdgeNs highTimeNs lowTimeNs config.mode block).outputPhase ≠ .toggle := by
    simp only [primed]
    split <;> simp
  obtain ⟨tending, block, -⟩ := guided.toTending.store step
    (fun toggles => absurd toggles (untoggled _)) guided.behind
  refine ⟨tending, fun hardware => ?_⟩
  rw [block, primed, if_pos hardware]
  rfl

theorem stays_arm (firstEdgeNs primeEdgeNs : Int) (highTimeNs lowTimeNs : Nat) :
    Stays (Guided desired config)
      (armOutput firstEdgeNs primeEdgeNs highTimeNs lowTimeNs config.mode)
      fun status t => match status with
        | .ok () => PrimedFor desired config t
        | .error _ => Tending desired config t := by
  have rewriting := path_rewriting
  refine Upholds.bind (stays_guided (rearm_stop_uses rewriting.toFolding (fun _ _ _ => trivial)
    fun _ _ => trivial)) fun _ => ?_
  split
  · refine Upholds.bind (stays_prime _ _ _) fun _ => ?_
    exact Upholds.pure primed_for_stable (fun _ holds => holds.1.kept) fun _ holds => holds
  refine Upholds.bind (stays_guided ((uses_perform _).mpr trivial)) fun edgeBits => ?_
  refine Upholds.bind (stays_guided (edge_program_uses rewriting.toReading rewriting.writel _ _))
    fun status => ?_
  cases status with
  | error status =>
      refine Upholds.bind stays_disable fun _ => ?_
      exact Upholds.pure tending_stable (fun _ holds => holds.kept) fun _ holds => holds
  | ok done =>
      have detached {α : Type} {program : Driver α} (uses : Uses Detached program) :
          Stays (PrimedFor desired config) program fun _ => PrimedFor desired config :=
        stays_detached (fun block => config.mode = .hardware → block.outputPhase.ofHardware = true) uses
      refine Upholds.bind (stays_prime _ _ _) fun _ => ?_
      refine Upholds.bind (detached ((uses_perform _).mpr trivial)) fun ctrl => ?_
      refine Upholds.bind (detached ((uses_perform _).mpr trivial)) fun _ => ?_
      exact Upholds.pure primed_for_stable (fun _ holds => holds.1.kept) fun _ holds => holds

/-- EN clear, and no timer armed. -/
def Disarmed (m : Machine) : Prop := hasEn m.regs.ctl = false ∧ m.timerArmed = false

/-- A steadfast run gives up a block that is not held, and cancels its timer. -/
theorem stays_abandon : Stays (Tending desired config) abandonOutput
    fun _ t => Guided desired config t ∧ Disarmed t.machine := by
  have gives : Stays (Tending desired config) abandonOutput
      fun _ t => Tending desired config t ∧ Unheld desired t.machine := by
    refine Upholds.via (fun _ t => Tending desired config t ∧ Unheld desired t.machine)
      ?_ fun _ => ?_
    · refine Upholds.call tending_stable (fun _ => unheld_stable) (fun _ holds => holds.kept)
        (fun _ _ holds => holds.1.kept) ?_
      intro s reply t tending step
      obtain ⟨unheld, performed, -⟩ := tended_step step
      have work : (Op.mark .giveUp).ofWork := trivial
      have same : s.machine = t.machine := (Prod.mk.inj (Option.some.inj performed)).2
      refine ⟨tending.step work step (fun _ => rfl) (same ▸ tending.behind), ?_⟩
      rw [← same]
      exact ⟨fun hardware current => unheld ⟨desired, .inl tending.snapshot, hardware, current⟩,
        fun hardware current => unheld ⟨s.machine.desired, .inr rfl, hardware, current⟩⟩
    · refine stays_unheld (Uses.seq ((uses_perform _).mpr trivial) fun _ => ?_)
      exact disable_output_hw_uses gen_halting
  refine (stays_and gives triple_abandon_unarmed).conseq (fun _ holds => holds) ?_
  rintro _ t ⟨⟨tending, unheld⟩, off, unarmed⟩
  exact ⟨tending.unheld_guided unheld, off.1, unarmed⟩

/-- At the configuration that was armed, or given up. -/
def BroughtTo (desired config : OutputDesired) (t : Tended) : Prop :=
  Guided desired config t ∧
    (t.machine.block.outputAppliedGen = config.gen ∨ Disarmed t.machine)

theorem stays_apply : Stays (PrimedFor desired config) (storeBlock (applied config))
    fun _ => GuidedAt desired config (· = config.gen) := by
  refine Upholds.call primed_for_stable (fun _ => guided_at_stable _) (fun _ holds => holds.1.kept)
    (fun _ _ holds => holds.1.kept) ?_
  rintro s reply t ⟨tending, hardware⟩ step
  obtain ⟨after, block, latest⟩ := tending.store step (fun _ => rfl) tending.arming.snapshot.order
  refine ⟨⟨after, fun forHardware current => ?_, fun forHardware current => ?_⟩, ?_⟩
  · rw [block] at current ⊢
    exact hardware ((tending.agree current).trans forHardware.2)
  · rw [latest] at forHardware current
    rw [block] at current ⊢
    exact hardware (tending.arming.for_hardware current forHardware).2
  · rw [block]
    rfl

theorem stays_reconcile :
    Stays (Guided desired config) (reconcileArm config) fun _ => BroughtTo desired config := by
  have abandons : Stays (Tending desired config) abandonOutput fun _ => BroughtTo desired config :=
    stays_abandon.conseq (fun _ holds => holds) fun _ _ holds => ⟨holds.1, .inr holds.2⟩
  refine Upholds.bind (stays_guided (prepare_output_timing_uses path_rewriting.toReading _ _ _ _))
    fun timing => ?_
  cases timing with
  | error status => exact abandons.conseq (fun _ holds => holds.toTending) fun _ _ holds => holds
  | ok timing =>
      refine Upholds.bind (stays_arm _ _ _ _) fun status => ?_
      cases status with
      | error status => exact abandons
      | ok done =>
          refine Upholds.bind stays_apply fun _ => ?_
          refine (stays_guided_at (· = config.gen)
            (wake_uses (fun _ => trivial) path_waking _)).conseq (fun _ holds => holds) ?_
          exact fun _ _ holds => ⟨holds.1, .inl holds.2⟩

end arming

section serving

variable {desired : OutputDesired}

/-- Guided, at the generation of the snapshot. -/
abbrev AtSnapshot (desired : OutputDesired) : Tended → Prop :=
  GuidedAt desired desired (· = desired.gen)

variable {α : Type} {program : Driver α}

theorem stays_current (uses : Uses (Stores KeepsPath) program) :
    Stays (AtSnapshot desired) program
      fun _ => AtSnapshot desired :=
  stays_guided_at (· = desired.gen) uses

variable (hardware : ForHardware desired)

include hardware

/-- A held block is not given up. -/
theorem stays_never {rest : Unit → Driver α} {post : α → Tended → Prop} :
    Stays (AtSnapshot desired) (mark .giveUp >>= rest) post := by
  refine Upholds.via (fun _ _ => False) ?_ fun _ _ never => never.elim
  refine Upholds.call (guided_at_stable _) (fun _ _ _ _ never => never) (fun _ holds => holds.1.kept)
    (fun _ _ never => never.elim) ?_
  rintro s reply t ⟨guided, current⟩ step
  exact (tended_step step).1 ⟨desired, .inl guided.snapshot, hardware, current⟩

/-- The phase found there is one of the hardware path. -/
theorem stays_load : Stays (AtSnapshot desired) loadBlock
    fun block t => block.outputPhase.ofHardware = true ∧
      AtSnapshot desired t := by
  refine Upholds.call (guided_at_stable _) (fun block s t step holds =>
    ⟨holds.1, guided_at_stable _ s t step holds.2⟩) (fun _ holds => holds.1.kept)
    (fun _ _ holds => holds.2.1.kept) ?_
  rintro s reply t ⟨guided, current⟩ step
  have stores : Stores KeepsPath .load := trivial
  obtain ⟨after, same⟩ := guided.step stores step
  have block : s.machine.block = reply :=
    (Prod.mk.inj (Option.some.inj (tended_step step).2.1)).1
  exact ⟨block ▸ guided.path hardware current, after, same.trans current⟩

theorem stays_duty : Stays (AtSnapshot desired) hwDutyService
    fun _ => AtSnapshot desired := by
  have rewriting := path_rewriting
  have wakes (time : Int) : Uses (Stores KeepsPath) (outputWakeAt time) :=
    wake_uses (fun _ => trivial) path_waking time
  refine Upholds.bind (stays_current (hw_flop_fold_uses rewriting.toFolding)) fun _ => ?_
  refine Upholds.bind (stays_current ((uses_perform _).mpr trivial)) fun block => ?_
  refine Upholds.bind (stays_current ((uses_perform _).mpr trivial)) fun piv => ?_
  refine Upholds.bind (stays_current (refresh_piv_uses rewriting _)) fun _ => ?_
  refine Upholds.bind (stays_current (read_compv_uses rewriting.toReading)) fun compv => ?_
  split
  · exact stays_never hardware
  refine Upholds.bind (stays_current ((uses_perform _).mpr trivial)) fun pending => ?_
  refine Upholds.bind (stays_current ((uses_perform _).mpr trivial)) fun now => ?_
  split
  · refine Upholds.bind (stays_current ((uses_perform _).mpr trivial)) fun delayReal => ?_
    refine Upholds.bind (stays_current ((uses_perform _).mpr trivial)) fun nowReal => ?_
    split <;> exact stays_current (wakes _)
  · refine Upholds.bind (stays_current ((uses_perform _).mpr trivial)) fun nowReal => ?_
    exact stays_current (wakes _)

theorem stays_edge : Stays (AtSnapshot desired) serviceEdge
    fun _ => AtSnapshot desired := by
  refine Upholds.bind (stays_load hardware) fun block => Upholds.given fun phase => ?_
  split
  · refine Upholds.bind (stays_current (periodic_arm_uses path_rewriting (fun _ => trivial)
      path_waking trivial _ _ _ fun _ _ => path_armed _ _ _ _ _)) fun status => ?_
    cases status with
    | ok done => exact stays_current (uses_pure _)
    | error status => exact stays_never hardware
  · exact stays_duty hardware
  · exact stays_current (uses_pure _)
  · rename_i software
    rw [software] at phase
    contradiction
  · rename_i software
    rw [software] at phase
    contradiction

omit hardware in
theorem stays_apply_freq : Stays (AtSnapshot desired)
    (hwPeriodicApplyFreq desired) fun _ => BroughtTo desired desired := by
  have rewriting := path_rewriting
  have ends {program : Driver Unit} (uses : Uses (Stores KeepsPath) program) :
      Stays (AtSnapshot desired) program fun _ => BroughtTo desired desired :=
    (stays_current uses).conseq (fun _ holds => holds) fun _ _ holds => ⟨holds.1, .inl holds.2⟩
  refine Upholds.bind (stays_current ((uses_perform _).mpr trivial)) fun block => ?_
  refine Upholds.bind (stays_current ((uses_perform _).mpr trivial)) fun piv => ?_
  refine Upholds.bind (stays_current (hw_flop_fold_uses rewriting.toFolding)) fun _ => ?_
  refine Upholds.bind (stays_current (refresh_piv_uses rewriting _)) fun _ => ?_
  refine Upholds.bind (stays_current (hw_periodic_phase_get_uses rewriting.toReading _ _))
    fun phase => ?_
  split
  · exact ends (uses_pure _)
  unfold nudgePhase
  split
  · exact stays_reconcile.conseq (fun _ holds => holds.1) fun _ _ holds => holds
  refine Upholds.bind (stays_current ((uses_perform _).mpr trivial)) fun tolerance => ?_
  split
  · exact ends (uses_pure _)
  split
  · exact ends (uses_pure _)
  refine Upholds.bind (stays_current ((uses_perform _).mpr trivial)) fun nudgedArt => ?_
  split
  · exact ends (uses_pure _)
  refine Upholds.bind (stays_current (hw_periodic_write_compv_paused_uses rewriting _)) fun _ => ?_
  exact ends ((uses_perform _).mpr (rewriting.edge _))

/-- Serving a hardware output at its generation. -/
theorem stays_service : Stays (AtSnapshot desired) (serviceOutput desired)
    fun _ => BroughtTo desired desired := by
  have serves : Stays (AtSnapshot desired) serviceEdge
      fun _ => BroughtTo desired desired :=
    (stays_edge hardware).conseq (fun _ holds => holds) fun _ _ holds => ⟨holds.1, .inl holds.2⟩
  have ends : Stays (AtSnapshot desired) (pure () : Driver Unit)
      fun _ => BroughtTo desired desired :=
    (stays_current (uses_pure _)).conseq (fun _ holds => holds)
      fun _ _ holds => ⟨holds.1, .inl holds.2⟩
  have freq : Stores KeepsPath (.store (appliedFreq desired)) :=
    fun _ => ⟨rfl, id, fun _ => rfl⟩
  refine Upholds.bind (stays_current ((uses_perform _).mpr trivial)) fun block => ?_
  split
  · refine Upholds.bind (stays_current ((uses_perform _).mpr freq)) fun _ => ?_
    split
    · exact stays_apply_freq
    · exact ends
    · refine Upholds.bind (stays_current ((uses_perform _).mpr trivial)) fun nowReal => ?_
      split
      · exact ends
      · exact serves
    · exact serves
    · exact serves
  · exact serves

end serving

section flipping

variable {desired config : OutputDesired}

theorem Guided.settle {t : Tended} (guided : Guided desired config t) :
    Guided desired desired t :=
  ⟨⟨guided.snapshot, guided.kept, guided.known, guided.known, fun _ => rfl, guided.behind⟩,
    guided.path, guided.latest⟩

/-- The second snapshot of a run is armed while the run works on the first. -/
theorem stays_second : Stays (Guided desired desired) outputDesiredGet
    fun second => Guided desired second := by
  refine Upholds.call guided_stable (fun _ => guided_stable) (fun _ holds => holds.kept)
    (fun _ _ holds => holds.kept) ?_
  intro s second t guided step
  have stores : Stores KeepsPath .outputDesiredGet := trivial
  have after := (guided.step stores step).1
  have answer := Prod.mk.inj (Option.some.inj (tended_step step).2.1)
  have latest : t.machine.desired = second := by
    rw [← answer.2, ← answer.1]
  have base : Base second t.machine := by
    refine ⟨after.known.queueable, ?_⟩
    rw [← latest]
    exact after.known.snapshot.counts.snapshot
  refine ⟨⟨after.snapshot, after.kept, after.known, ⟨base, fun _ => ?_⟩, fun same => ?_,
    after.behind⟩, after.path, after.latest⟩
  · rw [latest]
  · rw [← latest] at same ⊢
    exact (after.known.mode same.symm).symm

theorem stays_invert : Stays (Guided desired desired) hwPeriodicInvert
    fun _ => Guided desired desired := by
  have invert : Stores KeepsPath (.store inverted) := fun _ => ⟨rfl, id, fun _ => rfl⟩
  refine Upholds.bind (stays_guided ((uses_perform _).mpr invert)) fun _ => ?_
  refine Upholds.bind (stays_guided ((uses_perform _).mpr trivial)) fun _ => ?_
  refine Upholds.bind (stays_guided ((uses_perform _).mpr trivial)) fun block => ?_
  split
  · refine Upholds.bind stays_second fun second => ?_
    split
    · exact stays_reconcile.conseq (fun _ holds => holds) fun _ _ holds => holds.1.settle
    · exact (stays_guided (uses_pure _)).conseq (fun _ holds => holds) fun _ _ holds => holds.settle
  split
  · exact stays_guided (uses_pure _)
  · exact stays_guided (shift_half_period_uses path_rewriting)

theorem stays_flip : Stays (Guided desired desired) (applyFlip desired)
    fun _ => Guided desired desired := by
  have flip : Stores KeepsPath (.store (appliedFlip desired)) := fun _ => ⟨rfl, id, fun _ => rfl⟩
  refine Upholds.bind (stays_guided ((uses_perform _).mpr trivial)) fun block => ?_
  split
  · refine Upholds.bind stays_invert fun _ => ?_
    exact stays_guided ((uses_perform _).mpr flip)
  · exact stays_guided ((uses_perform _).mpr flip)

end flipping

section runs

variable {desired : OutputDesired}

/-- What holds whether a run is in progress or not, before its snapshot. -/
structure Grounded (t : Tended) : Prop where
  counts : Counts t.machine.requests
  queueable : t.machine.workCancelling = false
  kept : t.strayed = false
  behind : t.machine.block.outputAppliedGen.toNat ≤ t.machine.desired.gen.toNat
  latest : OnPath t.machine.desired t.machine.block

/-- Between two runs: the last one has brought a hardware output to its
configuration, or has disabled it with no timer armed. -/
structure Rests (t : Tended) : Prop extends Grounded t where
  served : t.machine.served = true → t.snapshot = some t.machine.desired
  brought : ∀ desired, t.snapshot = some desired → ForHardware desired →
    (t.machine.block.outputAppliedGen = desired.gen ∧
      t.machine.block.outputPhase.ofHardware = true) ∨ Disarmed t.machine

theorem Grounded.move {s t : Tended} (step : steadfastWorker.env s t) (grounded : Grounded s) :
    Grounded t := by
  obtain ⟨-, strayed, block, step⟩ := tended_env step
  refine ⟨?_, (surroundings_cancelling step).trans grounded.queueable, strayed.trans grounded.kept,
    behind_move grounded.counts step grounded.behind, fun hardware current => ?_⟩
  · obtain ⟨-, -, -, -, requests | ⟨request, room, requests⟩⟩ := surroundings_step step
    · rw [requests]
      exact grounded.counts
    · rw [requests]
      exact grounded.counts.publish room
  · obtain ⟨hardware, current⟩ := held_move grounded.counts step grounded.behind hardware current
    rw [block]
    exact grounded.latest hardware current

theorem Rests.move {s t : Tended} (step : steadfastWorker.env s t) (rests : Rests s) :
    Rests t := by
  refine ⟨rests.toGrounded.move step, fun served => ?_, fun desired taken hardware => ?_⟩
  all_goals obtain ⟨snapshot, -, block, step⟩ := tended_env step
  all_goals obtain ⟨-, -, ctl, unarmed, requests | ⟨request, room, requests⟩⟩ := surroundings_step step
  · have latest : t.machine.desired = s.machine.desired := congrArg Requests.desired requests
    have same : t.machine.served = s.machine.served := congrArg Requests.served requests
    rw [snapshot, latest]
    exact rests.served (same ▸ served)
  · have fresh : t.machine.served = false := congrArg Requests.served requests
    rw [fresh] at served
    contradiction
  all_goals
    rw [snapshot] at taken
    rw [block, Disarmed, ctl]
    exact (rests.brought desired taken hardware).imp id fun off => ⟨off.1, unarmed off.2⟩

/-- The snapshot of a run is on the path, and no older than the block. -/
theorem stays_snapshot : Stays (fun t => Grounded t ∧ t.snapshot = none) outputDesiredGet
    fun desired => GuidedAt desired desired fun gen => gen.toNat ≤ desired.gen.toNat := by
  have stable : Stable steadfastWorker.toSemantics fun t => Grounded t ∧ t.snapshot = none :=
    fun s t step holds => ⟨holds.1.move step, (tended_env step).1.trans holds.2⟩
  refine Upholds.call stable (fun _ => guided_at_stable _) (fun _ holds => holds.1.kept)
    (fun _ _ holds => holds.1.kept) ?_
  rintro s desired t ⟨grounded, fresh⟩ step
  obtain ⟨-, performed, snapshot, strayed⟩ := tended_step step
  have answer := Prod.mk.inj (Option.some.inj performed)
  have latest : t.machine.desired = desired := by
    rw [← answer.2, ← answer.1]
  have taken : t.snapshot = some desired := by
    rw [snapshot, Tended.taken, fresh, ← answer.1]
    rfl
  have kept : t.strayed = false := by
    rw [strayed, grounded.kept, Tended.strays, fresh]
    rfl
  have base : SnapshotOf desired t.machine := by
    rw [← latest, ← answer.2]
    exact ⟨⟨grounded.queueable, grounded.counts.snapshot⟩, fun _ => rfl⟩
  have behind : t.machine.block.outputAppliedGen.toNat ≤ t.machine.desired.gen.toNat := by
    rw [← answer.2]
    exact grounded.behind
  have path : OnPath t.machine.desired t.machine.block := by
    rw [← answer.2]
    exact grounded.latest
  refine ⟨⟨⟨taken, kept, base, base, fun _ => rfl, behind⟩, ?_, path⟩, ?_⟩
  all_goals rw [← latest]
  · exact path
  · exact behind

/-- A run that began between two publishes ends guided, and a hardware output
brought to its snapshot or disarmed. -/
theorem stays_work : Stays (fun t => Grounded t ∧ t.snapshot = none) outputWork
    fun _ t => ∃ desired, Guided desired desired t ∧ (ForHardware desired →
      t.machine.block.outputAppliedGen = desired.gen ∨ Disarmed t.machine) := by
  refine Upholds.bind stays_snapshot fun desired => ?_
  have brought {program : Driver Unit} {pre : Tended → Prop}
      (stays : Stays pre program fun _ => BroughtTo desired desired) :
      Stays pre program fun _ t => ∃ desired, Guided desired desired t ∧ (ForHardware desired →
        t.machine.block.outputAppliedGen = desired.gen ∨ Disarmed t.machine) :=
    stays.conseq (fun _ holds => holds) fun _ _ holds => ⟨desired, holds.1, fun _ => holds.2⟩
  have other {program : Driver Unit} {pre : Tended → Prop} (software : ¬ForHardware desired)
      (stays : Stays pre program fun _ t => Tending desired desired t ∧
        t.machine.block.outputAppliedGen.toNat ≤ desired.gen.toNat) :
      Stays pre program fun _ t => ∃ desired, Guided desired desired t ∧ (ForHardware desired →
        t.machine.block.outputAppliedGen = desired.gen ∨ Disarmed t.machine) :=
    stays.conseq (fun _ holds => holds) fun _ _ holds =>
      ⟨desired, holds.1.guided software holds.2, fun hardware => absurd hardware software⟩
  have servicing : Servicing (Stores (Within desired)) := within_servicing
  split
  · rename_i stopped
    have software : ¬ForHardware desired := by
      simp [ForHardware, stopped]
    refine (other software (stays_within software
      (stop_output_uses servicing.toHalting servicing.cancel))).conseq ?_ fun _ _ holds => holds
    exact fun _ holds => ⟨holds.1.toTending, holds.2⟩
  refine Upholds.bind (stays_flip.conseq (fun _ holds => holds.1) fun _ _ holds => holds) fun _ => ?_
  refine Upholds.via (fun block t => Guided desired desired t ∧
    t.machine.block.outputAppliedGen = block.outputAppliedGen) ?_ fun block => ?_
  · refine Upholds.call guided_stable (fun block => tended_with_block guided_stable
      fun now => now.outputAppliedGen = block.outputAppliedGen) (fun _ holds => holds.kept)
      (fun _ _ holds => holds.1.kept) ?_
    intro s block t guided step
    have stores : Stores KeepsPath .load := trivial
    obtain ⟨after, same⟩ := guided.step stores step
    have loaded : s.machine.block = block :=
      (Prod.mk.inj (Option.some.inj (tended_step step).2.1)).1
    exact ⟨after, loaded ▸ same⟩
  split
  · exact (brought stays_reconcile).conseq (fun _ holds => holds.1) fun _ _ holds => holds
  rename_i unchanged
  rw [not_not] at unchanged
  by_cases hardware : ForHardware desired
  · refine (brought (stays_service hardware)).conseq ?_ fun _ _ holds => holds
    exact fun _ holds => ⟨holds.1, holds.2.trans unchanged.symm⟩
  · refine (other hardware (stays_within hardware (output_service_uses servicing
      (fun _ _ _ _ _ _ => id) (fun _ _ => id) (fun _ _ => le_refl _) fun _ => id))).conseq ?_
      fun _ _ holds => holds
    intro t holds
    exact ⟨holds.1.toTending, le_of_eq (congrArg BitVec.toNat (holds.2.trans unchanged.symm))⟩

theorem Rests.run {s t : Tended} (start : steadfastWorker.start s t) (rests : Rests s) :
    Grounded t ∧ t.snapshot = none := by
  obtain ⟨-, -, rfl⟩ := start
  have counts := rests.counts
  exact ⟨⟨⟨counts.total, counts.bound, counts.flips⟩, rests.queueable, rests.kept, rests.behind,
    rests.latest⟩, rfl⟩

theorem work_rests : Stays (fun t => Grounded t ∧ t.snapshot = none) steadfastWorker.program
    (steadfastWorker.Owes Rests) := by
  refine stays_work.conseq (fun _ holds => holds) ?_
  rintro _ s ⟨desired, guided, brought⟩ t rfl
  have known := guided.known
  have counts := known.snapshot.counts
  refine ⟨⟨⟨counts.total, counts.bound, counts.flips⟩, known.queueable, guided.kept, guided.behind,
    guided.latest⟩, fun served => ?_, fun other taken hardware => ?_⟩
  · have latest : desired = s.machine.desired := known.snapshot.latest served
    exact guided.snapshot.trans (congrArg some latest)
  · obtain rfl : desired = other := Option.some.inj (guided.snapshot.symm.trans taken)
    exact (brought hardware).imp (fun current => ⟨current, guided.path hardware current⟩) id

end runs

/-- A hardware output never falls into the software path in runs that give up
no held block: no run on a RUNNING hardware snapshot enters it, and between two
runs the last snapshot, if it was one, is armed in a hardware phase or has left
the block disabled with no timer armed. -/
theorem hardware_never_strays (params : Params) (clocks : Clocks) (regs : Regs) (flop : Bool)
    (last : Worker.Config Op Op.Resp Tended)
    (reaches : steadfastWorker.Reaches
      ⟨⟨.zeroed params clocks regs flop, none, false⟩, none⟩ last) :
    last.state.strayed = false ∧ (last.run = none →
      (last.state.machine.served = true → last.state.snapshot = some last.state.machine.desired) ∧
      ∀ desired, last.state.snapshot = some desired → ForHardware desired →
        (last.state.machine.block.outputAppliedGen = desired.gen ∧
          last.state.machine.block.outputPhase.ofHardware = true) ∨
        (hasEn last.state.machine.regs.ctl = false ∧ last.state.machine.timerArmed = false)) := by
  have counts := (zeroed_reconciled params clocks regs flop).counts
  have initial : Rests ⟨.zeroed params clocks regs flop, none, false⟩ :=
    ⟨⟨counts, rfl, rfl, le_refl _, fun hardware => (by cases hardware.1)⟩,
      fun served => (by cases served), fun _ taken => (by cases taken)⟩
  constructor
  · exact Worker.always_reaches (fun _ _ => Rests.move) (fun _ rests => rests.kept)
      (fun _ _ => Rests.run) work_rests reaches initial
  · intro idle
    have holds : steadfastWorker.Holds Rests last :=
      Worker.holds_reaches (fun _ _ => Rests.move)
        (fun s t start rests => (work_rests t (rests.run start)).2) reaches initial
    obtain ⟨state, run⟩ := last
    cases idle
    have rests : Rests state := holds
    exact ⟨rests.served, rests.brought⟩

/-- Runs whose accesses pass a check, on given states. -/
def tendedTracer {guard : Op → Tended → Prop} (check : Op → Tended → Bool)
    (sound : ∀ op t, check op t = true → guard op t) : (tendedWorker guard).Tracer Event where
  handler op t := if check op t = true then t.perform op else none
  start t := t.machine.startRun.map fun begun => ⟨begun, none, t.strayed⟩
  finish t := { t with machine := t.machine.endRun }
  act event t := (t.machine.act event).map fun machine => { t with machine }
  handlerSound _ _ _ _ step :=
    have ⟨checked, performed⟩ := Option.ite_none_right_eq_some.mp step
    ⟨sound _ _ checked, performed⟩
  startSound s t started := by
    obtain ⟨begun, starts, same⟩ := Option.map_eq_some_iff.mp started
    obtain ⟨queued, idle, begins⟩ := start_run_sound _ _ starts
    refine ⟨queued, idle, ?_⟩
    rw [← same, begins]
  finishSound _ := rfl
  actSound event s t acted := by
    obtain ⟨machine, moved, same⟩ := Option.map_eq_some_iff.mp acted
    have rely := act_surroundings moved
    rw [← same]
    refine rely.lift (fun machine => ({ s with machine } : Tended)) ?_
    intro m m' step
    exact ⟨step, rfl⟩

/-- Runs that give up nothing. -/
def steadfastTracer : steadfastWorker.Tracer Event :=
  tendedTracer (fun op _ => match op with
    | .mark .giveUp => false
    | _ => true) fun op t checked => by
      cases op with
      | mark point => cases point <;> first | contradiction | trivial
      | _ => trivial

theorem hardware_never_strays_start :
    (steadfastTracer.after 1000 ⟨loadedBlock, none, false⟩ hardwareStart).strayed = false ∧
      (steadfastTracer.after 1000 ⟨loadedBlock, none, false⟩
        hardwareStart).machine.block.outputPhase.ofHardware = true := by
  have reaches := steadfastTracer.after_reaches 1000 ⟨loadedBlock, none, false⟩ hardwareStart
    (by decide +kernel)
  obtain ⟨kept, idle⟩ := hardware_never_strays _ _ _ _ _ reaches
  obtain ⟨served, brought⟩ := idle rfl
  have taken := served (by decide +kernel)
  refine ⟨kept, ?_⟩
  rcases brought _ taken (by decide +kernel) with ⟨-, phase⟩ | ⟨disabled, -⟩
  · exact phase
  · exact absurd disabled (by decide +kernel)

/-- Realtime mode at a rate of one cycle a nanosecond. -/
def realtimeAt (now : Int) (art : Nat) (artInRange : art < 2 ^ 64) : Clocks :=
  { steadyClocks art artInRange with
    real := now, realtimeRateArtCycles := 1, realtimeRateRealNs := 1 }

theorem primed_in_range : 1980000000 < 2 ^ 64 := by decide
theorem refreshed_in_range : 2100000000 < 2 ^ 64 := by decide

/-- Without the condition a hardware output strays. `CLOCK_REALTIME` is an hour
ahead when the prepared output is armed, so the arm fails and the block is
disabled; once it has been set back, a frequency refresh programs a software
edge for the disabled block and starts its cadence. -/
theorem given_up_block_strays :
    ∃ last, (tendedWorker fun _ _ => True).Reaches
        ⟨⟨.zeroed { defaultParams with clockMode := .realtime }
          (realtimeAt 1000000000 1000000000 billion_in_range) ⟨0, 0, 0⟩ false, none, false⟩, none⟩
        ⟨last, none⟩ ∧
      ForHardware last.machine.desired ∧ last.strayed = true ∧
      last.machine.block.outputPhase = .toggle ∧ last.machine.block.outputNextEdgeType = .fall ∧
      hasEn last.machine.regs.ctl = false ∧ last.machine.timerArmed = true := by
  refine ⟨_, (tendedTracer (fun _ _ => true) fun _ _ _ => trivial).after_reaches 1000 _
    (hardwareStart.take 3 ++
      [.act (.clocks (realtimeAt 3601980000000 1980000000 primed_in_range)), .run,
        .act (.clocks (realtimeAt 2100000000 2100000000 refreshed_in_range)),
        .act (.publish .freq), .run]) (by decide +kernel), ?_⟩
  decide +kernel

end Tgpio

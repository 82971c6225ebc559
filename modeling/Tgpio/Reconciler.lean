import Tgpio.OutputFrames
import Tgpio.OutputSystem
import Mathlib.Data.Nat.Bits

/-!
# Applying the latest configuration

Publishers overwrite `output_desired` at any moment of a run. What a run may
rely on is a snapshot and the generation counters: a generation names one
configuration, and the block is never ahead of the publishers. A run that no
publish has overtaken leaves the block at what they ask for.
-/

namespace Tgpio

open Interference Interference.Prog

set_option autoImplicit false

abbrev workSem : Semantics Op Op.Resp Machine := driverSem Surroundings

/-- The work item among its publishers. -/
abbrev reconciler : Worker Op Op.Resp Machine := outputWorker Surroundings

/-- The configuration a block has been brought to. -/
structure Applied where
  gen : BitVec 32
  highTimeNs : Nat
  lowTimeNs : Nat

/-- What publishers write, what they have counted, and the flips applied. -/
structure Requests where
  desired : OutputDesired
  served : Bool
  publishes : Nat
  flips : Nat
  appliedFlipGen : BitVec 32
  inversions : Nat

def Machine.applied (m : Machine) : Applied :=
  ⟨m.block.outputAppliedGen, m.block.outputHighTimeNs, m.block.outputLowTimeNs⟩

def Machine.requests (m : Machine) : Requests :=
  ⟨m.desired, m.served, m.publishes, m.flips, m.block.outputAppliedFlipGen, m.history.inversions⟩

def Requests.publish (requests : Requests) (request : Publish) : Requests :=
  { requests with
    desired := request.update requests.desired
    served := false
    publishes := requests.publishes + 1
    flips := requests.flips + (if request = .flip then 1 else 0) }

/-- The generation counters have counted every publish and have not wrapped. -/
structure Counts (requests : Requests) : Prop where
  total : requests.desired.gen.toNat + requests.desired.freqGen.toNat +
    requests.desired.flipGen.toNat = requests.publishes
  bound : requests.publishes < 2 ^ 32
  flips : requests.desired.flipGen.toNat = requests.flips

/-- An earlier or the present value of `output_desired`: the present one if
nothing has been published since the run began. -/
structure Snapshot (desired : OutputDesired) (requests : Requests) : Prop where
  counts : Counts requests
  order : desired.gen.toNat ≤ requests.desired.gen.toNat
  same : desired.gen = requests.desired.gen → desired.run = requests.desired.run ∧
    desired.highTimeNs = requests.desired.highTimeNs ∧
    desired.lowTimeNs = requests.desired.lowTimeNs
  latest : requests.served = true → desired = requests.desired

/-- The block is not ahead of the publishers, and a generation names one
configuration. -/
structure Sound (applied : Applied) (requests : Requests) : Prop where
  order : applied.gen.toNat ≤ requests.desired.gen.toNat
  times : applied.gen = requests.desired.gen →
    applied.highTimeNs = requests.desired.highTimeNs ∧
    applied.lowTimeNs = requests.desired.lowTimeNs

section counting

variable {requests : Requests} {request : Publish}

/-- A publish opens a new generation or leaves the configuration alone. -/
theorem publish_gen (request : Publish) (counts : Counts requests) (room : requests.publishes + 1 < 2 ^ 32) :
    ((requests.publish request).desired.gen = requests.desired.gen ∧
      (requests.publish request).desired.run = requests.desired.run ∧
      (requests.publish request).desired.highTimeNs = requests.desired.highTimeNs ∧
      (requests.publish request).desired.lowTimeNs = requests.desired.lowTimeNs) ∨
    (requests.publish request).desired.gen.toNat = requests.desired.gen.toNat + 1 := by
  have total := counts.total
  have next : (requests.desired.gen + 1).toNat = requests.desired.gen.toNat + 1 := by
    rw [BitVec.toNat_add]
    exact Nat.mod_eq_of_lt (by simp; omega)
  cases request with
  | configure => exact .inr next
  | disable => exact .inr next
  | resync => exact .inr next
  | freq => exact .inl ⟨rfl, rfl, rfl, rfl⟩
  | flip => exact .inl ⟨rfl, rfl, rfl, rfl⟩

theorem Counts.publish (counts : Counts requests) (room : requests.publishes + 1 < 2 ^ 32) :
    Counts (requests.publish request) := by
  have total := counts.total
  have flips := counts.flips
  have next (gen : BitVec 32) (small : gen.toNat ≤ requests.publishes) :
      (gen + 1).toNat = gen.toNat + 1 := by
    rw [BitVec.toNat_add]
    exact Nat.mod_eq_of_lt (by simp; omega)
  refine ⟨?_, room, ?_⟩
  · cases request with
    | configure | disable | resync =>
        change (requests.desired.gen + 1).toNat + _ + _ = _
        rw [next _ (by omega)]
        simp only [Requests.publish, Publish.update]
        omega
    | freq =>
        change _ + (requests.desired.freqGen + 1).toNat + _ = _
        rw [next _ (by omega)]
        simp only [Requests.publish, Publish.update]
        omega
    | flip =>
        change _ + _ + (requests.desired.flipGen + 1).toNat = _
        rw [next _ (by omega)]
        simp only [Requests.publish, Publish.update]
        omega
  · cases request with
    | flip =>
        change (requests.desired.flipGen + 1).toNat = requests.flips + 1
        rw [next _ (by omega), flips]
    | _ => exact flips

theorem Snapshot.publish {desired : OutputDesired} (snapshot : Snapshot desired requests)
    (room : requests.publishes + 1 < 2 ^ 32) : Snapshot desired (requests.publish request) := by
  refine ⟨snapshot.counts.publish room, ?_, ?_, nofun⟩
  · rcases publish_gen request snapshot.counts room with ⟨gen, -⟩ | gen
    · rw [gen]
      exact snapshot.order
    · rw [gen]
      exact snapshot.order.trans (Nat.le_succ _)
  · intro equal
    rcases publish_gen request snapshot.counts room with ⟨gen, run, high, low⟩ | gen
    · rw [run, high, low]
      exact snapshot.same (equal.trans gen)
    · have order := snapshot.order
      rw [← equal] at gen
      omega

theorem Sound.publish {applied : Applied} (counts : Counts requests)
    (sound : Sound applied requests) (room : requests.publishes + 1 < 2 ^ 32) :
    Sound applied (requests.publish request) := by
  refine ⟨?_, ?_⟩
  · rcases publish_gen request counts room with ⟨gen, -⟩ | gen
    · rw [gen]
      exact sound.order
    · rw [gen]
      exact sound.order.trans (Nat.le_succ _)
  · intro equal
    rcases publish_gen request counts room with ⟨gen, -, high, low⟩ | gen
    · rw [high, low]
      exact sound.times (equal.trans gen)
    · have order := sound.order
      rw [← equal] at gen
      omega

end counting

section frames

/-- A relation of the two that publishes cannot break. -/
def Lasting (holds : Applied → Requests → Prop) : Prop :=
  ∀ applied requests request, requests.publishes + 1 < 2 ^ 32 → holds applied requests →
    holds applied (requests.publish request)

/-- The surroundings publish; apart from that they leave the block, its control
register and a timer that is not armed. -/
theorem surroundings_step {s t : Machine} (step : Surroundings s t) :
    t.applied = s.applied ∧ t.block = s.block ∧ t.regs.ctl = s.regs.ctl ∧
      (s.timerArmed = false → t.timerArmed = false) ∧
      (t.requests = s.requests ∨
        ∃ request, s.publishes + 1 < 2 ^ 32 ∧ t.requests = s.requests.publish request) := by
  cases step with
  | clocks clocks => exact ⟨rfl, rfl, rfl, id, .inl rfl⟩
  | expire _ _ => exact ⟨rfl, rfl, rfl, fun _ => rfl, .inl rfl⟩
  | outputTimer _ => exact ⟨rfl, rfl, rfl, id, .inl rfl⟩
  | beginPublish request applies room =>
      have published : s.publish request = { s with
          desired := request.update s.desired, served := false, publishes := s.publishes + 1
          flips := s.flips + (if request = .flip then 1 else 0) } := if_pos applies
      rw [Machine.beginPublish, published]
      exact ⟨rfl, rfl, rfl, id, .inr ⟨request, room, rfl⟩⟩
  | endPublish _ => exact ⟨rfl, rfl, rfl, id, .inl rfl⟩
  | edge _ => exact ⟨rfl, rfl, rfl, id, .inl rfl⟩
  | fire _ => exact ⟨rfl, rfl, rfl, id, .inl rfl⟩

theorem Lasting.stable {holds : Applied → Requests → Prop} (lasting : Lasting holds) :
    Stable workSem fun m => holds m.applied m.requests := by
  intro s t step before
  obtain ⟨applied, -, -, -, requests | ⟨request, room, requests⟩⟩ := surroundings_step step
  · rw [applied, requests]
    exact before
  · rw [applied, requests]
    exact lasting _ _ _ room before

/-- Accesses that do not concern the configuration. -/
def Keeps (op : Op) : Prop :=
  ∀ s reply t, Machine.perform op s = some (reply, t) →
    t.applied = s.applied ∧ t.requests = s.requests

theorem keeps_store {update : MmioBlock → MmioBlock}
    (keeps : ∀ block, (update block).outputAppliedGen = block.outputAppliedGen ∧
      (update block).outputHighTimeNs = block.outputHighTimeNs ∧
      (update block).outputLowTimeNs = block.outputLowTimeNs ∧
      (update block).outputAppliedFlipGen = block.outputAppliedFlipGen) :
    Keeps (.store update) := by
  intro s reply t step
  cases step
  obtain ⟨gen, high, low, flip⟩ := keeps s.block
  simp [Machine.applied, Machine.requests, gen, high, low, flip]

theorem keeps_writel (reg : Reg) (value : BitVec 32) : Keeps (.writel reg value) := by
  intro s reply t step
  cases step
  cases reg <;> simp only [Machine.writeReg]
  case ctl =>
    refine ⟨rfl, ?_⟩
    simp only [Machine.requests, Machine.writeCtlHistory]
    split <;> rfl
  case compv31_0 =>
    refine ⟨rfl, ?_⟩
    simp only [Machine.requests]
    split <;> rfl
  case piv31_0 =>
    refine ⟨rfl, ?_⟩
    simp only [Machine.requests]
    split <;> rfl
  all_goals exact ⟨rfl, rfl⟩

theorem keeps_servicing : Servicing Keeps where
  readl reg := by
    intro s reply t step
    cases step
    cases reg <;> exact ⟨rfl, rfl⟩
  load := by
    intro s reply t step
    cases step
    exact ⟨rfl, rfl⟩
  sample α read := by
    intro s reply t step
    cases step
    exact ⟨rfl, rfl⟩
  real := by
    intro s reply t step
    cases step
    exact ⟨rfl, rfl⟩
  desired := by
    intro s reply t step
    cases step
    exact ⟨rfl, rfl⟩
  sleep msecs := by
    intro s reply t step
    cases step
    exact ⟨rfl, rfl⟩
  looked := by
    intro s reply t step
    cases step
    exact ⟨rfl, rfl⟩
  duty compv := keeps_store fun _ => ⟨rfl, rfl, rfl, rfl⟩
  periodic compv := keeps_store fun _ => ⟨rfl, rfl, rfl, rfl⟩
  data reg value _ := keeps_writel reg value
  disable value _ := keeps_writel .ctl value
  halt := keeps_store fun _ => ⟨rfl, rfl, rfl, rfl⟩
  writel := keeps_writel
  start expires := by
    intro s reply t step
    cases step
    exact ⟨rfl, rfl⟩
  cancel := by
    intro s reply t step
    simp only [Machine.perform] at step
    split at step
    · contradiction
    · cases step
      exact ⟨rfl, rfl⟩
  giveUp := by
    intro s reply t step
    cases step
    exact ⟨rfl, rfl⟩
  waking time := keeps_store fun _ => ⟨rfl, rfl, rfl, rfl⟩
  slot := by
    intro s reply t step
    cases step
    exact ⟨rfl, rfl⟩
  advance := keeps_store fun _ => ⟨rfl, rfl, rfl, rfl⟩
  pace piv := keeps_store fun _ => ⟨rfl, rfl, rfl, rfl⟩
  checkpoint compv := keeps_store fun _ => ⟨rfl, rfl, rfl, rfl⟩
  edge time := keeps_store fun _ => ⟨rfl, rfl, rfl, rfl⟩

theorem triple_keeps {α : Type} {holds : Applied → Requests → Prop} {program : Driver α}
    (lasting : Lasting holds) (uses : Uses Keeps program) :
    Triple workSem (fun m => holds m.applied m.requests) program
      fun _ m => holds m.applied m.requests := by
  intro s before
  refine wp_uses uses ?_ lasting.stable before
  intro op s reply t keeps step before
  obtain ⟨applied, requests⟩ := keeps s reply t step
  rw [applied, requests]
  exact before

end frames

section stopping

/-- The engine is off and nothing will be counted. -/
def Off (m : Machine) : Prop := hasEn m.regs.ctl = false ∧ m.block.outputHwPiv = 0

/-- Wherever a stop begins, it ends with the engine off. -/
theorem triple_disable_off {env : Machine → Machine → Prop}
    (still : ∀ s t, env s t → t.block = s.block ∧ t.regs.ctl = s.regs.ctl) :
    Triple (driverSem env) (fun _ => True) disableOutputHw fun _ => Off := by
  have always {α : Type} (program : Driver α) :
      Triple (driverSem env) (fun _ => True) program fun _ _ => True :=
    fun s _ => wp_uses (uses_true program) (fun _ _ _ _ _ _ _ => trivial) (fun _ _ _ _ => trivial)
      trivial
  have unset : Stable (driverSem env) fun m => hasEn m.regs.ctl = false := by
    intro s t step off
    rw [(still s t step).2]
    exact off
  refine Triple.bind (always _) fun ctrl => ?_
  refine Triple.bind (always _) fun _ => ?_
  refine Triple.bind (always _) fun _ => ?_
  refine Triple.bind (always _) fun _ => ?_
  refine Triple.bind (always _) fun _ => ?_
  refine Triple.via (fun _ m => hasEn m.regs.ctl = false) ?_ fun _ => ?_
  · refine Triple.call (fun _ _ _ _ => trivial) (fun _ => unset) ?_
    intro s reply t _ step
    cases step
    change hasEn (ctlWithout ctrl (ctlEn ||| ctlPm)) = false
    simp
  · refine Triple.call unset (fun _ => ?_) ?_
    · intro s t step off
      rw [Off, (still s t step).1, (still s t step).2]
      exact off
    · intro s reply t off step
      cases step
      exact ⟨off, rfl⟩

end stopping

section arming

variable {desired : OutputDesired} {extra : Requests → Prop}

/-- A sound block, a snapshot, and what else is known of the requests. -/
def Following (desired : OutputDesired) (extra : Requests → Prop) (applied : Applied)
    (requests : Requests) : Prop :=
  Sound applied requests ∧ Snapshot desired requests ∧ extra requests

/-- The times are those of the snapshot, the generation is still an old one. -/
def Prepared (desired : OutputDesired) (extra : Requests → Prop) (applied : Applied)
    (requests : Requests) : Prop :=
  applied.gen.toNat ≤ requests.desired.gen.toNat ∧
    applied.highTimeNs = desired.highTimeNs ∧ applied.lowTimeNs = desired.lowTimeNs ∧
    Snapshot desired requests ∧ extra requests

def LastingRequests (extra : Requests → Prop) : Prop :=
  ∀ requests request, requests.publishes + 1 < 2 ^ 32 → extra requests →
    extra (requests.publish request)

theorem LastingRequests.and {other : Requests → Prop} (first : LastingRequests extra)
    (second : LastingRequests other) :
    LastingRequests fun requests => extra requests ∧ other requests :=
  fun requests request room holds =>
    ⟨first requests request room holds.1, second requests request room holds.2⟩

theorem lasting_snapshot (desired : OutputDesired) : LastingRequests (Snapshot desired) :=
  fun _ _ room snapshot => snapshot.publish room

theorem lasting_following (desired : OutputDesired) (lasting : LastingRequests extra) :
    Lasting (Following desired extra) :=
  fun _ requests request room holds =>
    ⟨holds.1.publish holds.2.1.counts room, holds.2.1.publish room,
      lasting requests request room holds.2.2⟩

theorem lasting_prepared (desired : OutputDesired) (lasting : LastingRequests extra) :
    Lasting (Prepared desired extra) := by
  rintro applied requests request room ⟨order, high, low, snapshot, holds⟩
  refine ⟨?_, high, low, snapshot.publish room, lasting requests request room holds⟩
  rcases publish_gen request snapshot.counts room with ⟨gen, -⟩ | gen
  · rw [gen]
    exact order
  · rw [gen]
    exact order.trans (Nat.le_succ _)

theorem triple_prime (lasting : LastingRequests extra) (firstEdgeNs : Int) :
    Triple workSem (fun m => Following desired extra m.applied m.requests)
      (storeBlock (primed firstEdgeNs desired.highTimeNs desired.lowTimeNs desired.mode))
      fun _ m => Prepared desired extra m.applied m.requests := by
  refine Triple.call (lasting_following desired lasting).stable
    (fun _ => (lasting_prepared desired lasting).stable) ?_
  rintro s reply t ⟨sound, snapshot, holds⟩ step
  cases step
  exact ⟨sound.order, rfl, rfl, snapshot, holds⟩

theorem triple_apply (lasting : LastingRequests extra) :
    Triple workSem (fun m => Prepared desired extra m.applied m.requests)
      (storeBlock (applied desired))
      fun _ m => Following desired extra m.applied m.requests ∧ m.applied.gen = desired.gen := by
  have stable : Lasting fun applied requests =>
      Following desired extra applied requests ∧ applied.gen = desired.gen :=
    fun applied requests request room holds =>
      ⟨lasting_following desired lasting applied requests request room holds.1, holds.2⟩
  refine Triple.call (lasting_prepared desired lasting).stable (fun _ => stable.stable) ?_
  rintro s reply t ⟨order, high, low, snapshot, holds⟩ step
  cases step
  refine ⟨⟨⟨snapshot.order, fun equal => ?_⟩, snapshot, holds⟩, rfl⟩
  obtain ⟨-, sameHigh, sameLow⟩ := snapshot.same equal
  exact ⟨high.trans sameHigh, low.trans sameLow⟩

theorem triple_arm_prepares (lasting : LastingRequests extra) (firstEdgeNs primeEdgeNs : Int) :
    Triple workSem (fun m => Following desired extra m.applied m.requests)
      (armOutput firstEdgeNs primeEdgeNs desired.highTimeNs desired.lowTimeNs desired.mode)
      fun status m => match status with
        | .ok () => Prepared desired extra m.applied m.requests
        | .error _ => Following desired extra m.applied m.requests := by
  have following := lasting_following desired lasting
  have prepared := lasting_prepared desired lasting
  have arming := keeps_servicing.toArming
  refine Triple.bind (triple_keeps following (stop_for_rearm_uses arming.toHalting))
    fun _ => ?_
  split
  · refine Triple.bind (triple_prime lasting firstEdgeNs) fun _ => ?_
    exact Triple.pure prepared.stable fun _ holds => holds
  refine Triple.bind (triple_keeps following ((uses_perform _).mpr (arming.sample _ _)))
    fun edgeBits => ?_
  refine Triple.bind (triple_keeps following (program_output_edge_uses arming _ _))
    fun status => ?_
  cases status with
  | error status =>
      refine Triple.bind (triple_keeps following (disable_output_hw_uses arming.toHalting))
        fun _ => ?_
      exact Triple.pure following.stable fun _ holds => holds
  | ok done =>
      refine Triple.bind (triple_prime lasting firstEdgeNs) fun _ => ?_
      refine Triple.bind (triple_keeps prepared ((uses_perform _).mpr (arming.readl _)))
        fun ctrl => ?_
      refine Triple.bind (triple_keeps prepared ((uses_perform _).mpr (arming.writel _ _)))
        fun _ => ?_
      exact Triple.pure prepared.stable fun _ holds => holds

theorem surroundings_still (s t : Machine) (step : Surroundings s t) :
    t.block = s.block ∧ t.regs.ctl = s.regs.ctl :=
  ⟨(surroundings_step step).2.1, (surroundings_step step).2.2.1⟩

theorem triple_abandon_off {holds : Applied → Requests → Prop} (lasting : Lasting holds) :
    Triple workSem (fun m => holds m.applied m.requests) abandonOutput
      fun _ m => holds m.applied m.requests ∧ Off m := by
  intro s before
  have off : Triple workSem (fun _ => True) abandonOutput fun _ => Off := by
    refine Triple.via (fun _ _ => True) (fun _ _ _ _ _ _ _ _ _ => trivial) fun _ => ?_
    refine Triple.via (fun _ _ => True) (fun _ _ _ _ _ _ _ _ _ => trivial) fun _ => ?_
    exact triple_disable_off surroundings_still
  exact wp_and (triple_keeps lasting (abandon_output_uses keeps_servicing) s before) (off s trivial)

/-- An arm cycle brings the block to the snapshot, or switches it off. -/
theorem triple_reconcile_follows (lasting : LastingRequests extra) :
    Triple workSem (fun m => Following desired extra m.applied m.requests) (reconcileArm desired)
      fun _ m => Following desired extra m.applied m.requests ∧
        (hasEn m.regs.ctl = false ∨ m.applied.gen = desired.gen) := by
  have following := lasting_following desired lasting
  have abandoned := (triple_abandon_off following).post fun _ m holds =>
    (⟨holds.1, .inl holds.2.1⟩ : _ ∧ (hasEn m.regs.ctl = false ∨ m.applied.gen = desired.gen))
  refine Triple.bind (triple_keeps following
    (prepare_output_timing_uses keeps_servicing.toReading _ _ _ _)) fun timing => ?_
  cases timing with
  | error status => exact abandoned
  | ok timing =>
      refine Triple.bind (triple_arm_prepares lasting _ _) fun status => ?_
      cases status with
      | error status => exact abandoned
      | ok done =>
          refine Triple.bind (triple_apply lasting) fun _ => ?_
          have armed : Lasting fun applied requests =>
              Following desired extra applied requests ∧ applied.gen = desired.gen :=
            fun applied requests request room holds =>
              ⟨following applied requests request room holds.1, holds.2⟩
          exact (triple_keeps armed (output_wake_at_uses keeps_servicing.toArming _)).post
            fun _ m holds => ⟨holds.1, .inr holds.2⟩

end arming

section serving

variable {desired : OutputDesired} {extra : Requests → Prop}

/-- The block is at the generation of the snapshot. -/
def Current (desired : OutputDesired) (extra : Requests → Prop) (applied : Applied)
    (requests : Requests) : Prop :=
  Following desired extra applied requests ∧ applied.gen = desired.gen

theorem lasting_current (lasting : LastingRequests extra) : Lasting (Current desired extra) :=
  fun applied requests request room holds =>
    ⟨lasting_following desired lasting applied requests request room holds.1, holds.2⟩

def KeepsCurrent (desired : OutputDesired) (extra : Requests → Prop) (op : Op) : Prop :=
  ∀ s reply t, Machine.perform op s = some (reply, t) →
    Current desired extra s.applied s.requests → Current desired extra t.applied t.requests

theorem keeps_current_servicing : Servicing (KeepsCurrent desired extra) := by
  refine keeps_servicing.mono fun op keeps s reply t step holds => ?_
  obtain ⟨applied, requests⟩ := keeps s reply t step
  rw [applied, requests]
  exact holds

theorem keeps_current_primed (firstEdgeNs : Int) : KeepsCurrent desired extra
    (.store (primed firstEdgeNs desired.highTimeNs desired.lowTimeNs desired.mode)) := by
  rintro s reply t step ⟨⟨sound, snapshot, holds⟩, gen⟩
  cases step
  refine ⟨⟨⟨sound.order, fun equal => ?_⟩, snapshot, holds⟩, gen⟩
  exact (snapshot.same (gen.symm.trans equal)).2

theorem keeps_current_applied : KeepsCurrent desired extra (.store (applied desired)) := by
  rintro s reply t step ⟨⟨sound, snapshot, holds⟩, gen⟩
  cases step
  exact ⟨⟨⟨snapshot.order, fun equal => sound.times (gen.trans equal)⟩, snapshot, holds⟩, rfl⟩

/-- Intervals that are those of the publishers as long as the snapshot is. -/
def Fits (desired : OutputDesired) (highTimeNs lowTimeNs : Nat) (requests : Requests) : Prop :=
  Snapshot desired requests ∧ (desired.gen = requests.desired.gen →
    highTimeNs = requests.desired.highTimeNs ∧ lowTimeNs = requests.desired.lowTimeNs)

theorem lasting_fits (desired : OutputDesired) (highTimeNs lowTimeNs : Nat) :
    LastingRequests (Fits desired highTimeNs lowTimeNs) := by
  rintro requests request room ⟨snapshot, times⟩
  refine ⟨snapshot.publish room, fun equal => ?_⟩
  rcases publish_gen request snapshot.counts room with ⟨gen, -, high, low⟩ | gen
  · rw [high, low]
    exact times (equal.trans gen)
  · have order := snapshot.order
    rw [← equal] at gen
    omega

theorem keeps_current_armed (firstEdgeNs : Int) (highTimeNs lowTimeNs firstArt initialPiv : Nat) :
    KeepsCurrent desired (fun requests => extra requests ∧ Fits desired highTimeNs lowTimeNs requests)
      (.store (armed firstEdgeNs highTimeNs lowTimeNs firstArt initialPiv)) := by
  rintro s reply t step ⟨⟨sound, snapshot, holds, fits⟩, gen⟩
  cases step
  exact ⟨⟨⟨sound.order, fun equal => fits.2 (gen.symm.trans equal)⟩, snapshot, holds, fits⟩, gen⟩

theorem triple_current {α : Type} {program : Driver α} (lasting : LastingRequests extra)
    (uses : Uses (KeepsCurrent desired extra) program) :
    Triple workSem (fun m => Current desired extra m.applied m.requests) program
      fun _ m => Current desired extra m.applied m.requests :=
  fun _ before => wp_uses uses (fun _ s reply t keeps step holds => keeps s reply t step holds)
    (lasting_current lasting).stable before

theorem triple_load_current (lasting : LastingRequests extra) :
    Triple workSem (fun m => Current desired extra m.applied m.requests) loadBlock
      fun block m => Current desired
        (fun requests => extra requests ∧
          Fits desired block.outputHighTimeNs block.outputLowTimeNs requests)
        m.applied m.requests := by
  refine Triple.call (lasting_current lasting).stable
    (fun block => (lasting_current (lasting.and (lasting_fits _ _ _))).stable) ?_
  rintro s reply t ⟨⟨sound, snapshot, holds⟩, gen⟩ step
  cases step
  refine ⟨⟨sound, snapshot, holds, snapshot, fun equal => ?_⟩, gen⟩
  exact sound.times (gen.trans equal)

theorem triple_service_edge_current (lasting : LastingRequests extra) :
    Triple workSem (fun m => Current desired extra m.applied m.requests) serviceEdge
      fun _ m => Current desired extra m.applied m.requests := by
  refine Triple.bind (triple_load_current lasting) fun block => ?_
  have fitting := lasting.and
    (lasting_fits desired block.outputHighTimeNs block.outputLowTimeNs)
  have servicing : Servicing (KeepsCurrent desired fun requests => extra requests ∧
      Fits desired block.outputHighTimeNs block.outputLowTimeNs requests) :=
    keeps_current_servicing
  refine Triple.post (triple_current fitting ?_) fun _ m holds =>
    ⟨⟨holds.1.1, holds.1.2.1, holds.1.2.2.1⟩, holds.2⟩
  split
  · refine Uses.seq (arm_hardware_periodic_uses servicing.toArming _ _ _
      fun firstArt piv => keeps_current_armed _ _ _ _ _) fun status => ?_
    split
    · exact uses_pure _
    · refine Uses.seq ((uses_perform _).mpr servicing.giveUp) fun _ => ?_
      exact disable_output_hw_uses servicing.toHalting
  · exact hw_duty_service_uses servicing
  · exact uses_pure _
  · exact software_edge_uses servicing
  · exact software_edge_uses servicing

/-- Serving an unchanged configuration keeps the block at it. -/
theorem triple_service_current (lasting : LastingRequests extra) :
    Triple workSem (fun m => Current desired extra m.applied m.requests) (serviceOutput desired)
      fun _ m => Current desired extra m.applied m.requests := by
  have servicing : Servicing (KeepsCurrent desired extra) := keeps_current_servicing
  refine Triple.bind (triple_current lasting ((uses_perform _).mpr servicing.load)) fun block => ?_
  split
  · refine Triple.bind (triple_current lasting ((uses_perform _).mpr ?_)) fun _ => ?_
    · rintro s reply t step ⟨⟨sound, snapshot, holds⟩, gen⟩
      cases step
      exact ⟨⟨sound, snapshot, holds⟩, gen⟩
    split
    · exact triple_current lasting
        (hw_periodic_apply_freq_uses servicing keeps_current_primed keeps_current_applied)
    · exact triple_current lasting (uses_pure _)
    · refine Triple.bind (triple_current lasting ((uses_perform _).mpr servicing.real))
        fun nowReal => ?_
      split
      · exact triple_current lasting (uses_pure _)
      · exact triple_service_edge_current lasting
    · exact triple_service_edge_current lasting
    · exact triple_service_edge_current lasting
  · exact triple_service_edge_current lasting

end serving

section flipping

variable {desired : OutputDesired} {gen : BitVec 32} {odd : Bool}

/-- The flips applied, and the parity of the inversions made for them. -/
def Flips (gen : BitVec 32) (odd : Bool) (requests : Requests) : Prop :=
  requests.appliedFlipGen = gen ∧ requests.inversions.bodd = odd

theorem lasting_flips (gen : BitVec 32) (odd : Bool) : LastingRequests (Flips gen odd) :=
  fun _ _ _ holds => holds

theorem Counts.snapshot {requests : Requests} (counts : Counts requests) :
    Snapshot requests.desired requests :=
  ⟨counts, le_refl _, fun _ => ⟨rfl, rfl, rfl⟩, fun _ => rfl⟩

/-- Applying a flip concerns nothing but the flips. -/
theorem Following.reflip {extra other : Requests → Prop} {applied : Applied} {requests : Requests}
    (following : Following desired extra applied requests) (gen : BitVec 32) (inversions : Nat)
    (holds : other { requests with appliedFlipGen := gen, inversions }) :
    Following desired other applied { requests with appliedFlipGen := gen, inversions } := by
  obtain ⟨sound, snapshot, -⟩ := following
  have counts := snapshot.counts
  exact ⟨⟨sound.order, sound.times⟩, ⟨⟨counts.total, counts.bound, counts.flips⟩, snapshot.order,
    snapshot.same, snapshot.latest⟩, holds⟩

/-- The second snapshot of a run, taken while inverting a duty output. -/
theorem triple_second_snapshot :
    Triple workSem (fun m => Following desired (Flips gen odd) m.applied m.requests)
      outputDesiredGet fun second m => Following second
        (fun requests => Snapshot desired requests ∧ Flips gen odd requests)
        m.applied m.requests := by
  have both := (lasting_snapshot desired).and (lasting_flips gen odd)
  refine Triple.call (lasting_following _ (lasting_flips _ _)).stable
    (fun second => (lasting_following _ both).stable) ?_
  rintro s reply t ⟨sound, snapshot, flips⟩ step
  cases step
  exact ⟨sound, snapshot.counts.snapshot, snapshot, flips⟩

theorem triple_invert_flips :
    Triple workSem (fun m => Following desired (Flips gen odd) m.applied m.requests)
      hwPeriodicInvert
      fun _ m => Following desired (Flips gen !odd) m.applied m.requests := by
  have before := lasting_following desired (lasting_flips gen odd)
  have after := lasting_following desired (lasting_flips gen (!odd))
  refine Triple.bind (triple_keeps before ((uses_perform _).mpr
    (keeps_store fun _ => ⟨rfl, rfl, rfl, rfl⟩))) fun _ => ?_
  refine Triple.via (fun _ m => Following desired (Flips gen !odd) m.applied m.requests)
    ?_ fun _ => ?_
  · refine Triple.call before.stable (fun _ => after.stable) ?_
    intro s reply t holds step
    cases step
    refine holds.reflip s.block.outputAppliedFlipGen (s.history.inversions + 1) ⟨holds.2.2.1, ?_⟩
    rw [Nat.bodd_succ, ← holds.2.2.2]
    rfl
  refine Triple.bind (triple_keeps after ((uses_perform _).mpr keeps_servicing.load)) fun block => ?_
  split
  · refine Triple.bind triple_second_snapshot fun second => ?_
    have both := (lasting_snapshot desired).and
      (lasting_flips gen (!odd))
    have forget (m : Machine) (holds : Following second
        (fun requests => Snapshot desired requests ∧ Flips gen (!odd) requests)
        m.applied m.requests) : Following desired (Flips gen !odd) m.applied m.requests :=
      ⟨holds.1, holds.2.2.1, holds.2.2.2⟩
    split
    · exact (triple_reconcile_follows both).post fun _ m holds => forget m holds.1
    · exact Triple.pure (lasting_following _ both).stable forget
  split
  · exact Triple.pure after.stable fun _ holds => holds
  · exact triple_keeps after (shift_half_period_uses keeps_servicing.toRewriting)

theorem lsb_sub (first second : BitVec 32) :
    (first - second).getLsbD 0 = (first.getLsbD 0 ^^ second.getLsbD 0) := by
  have parity (value : BitVec 32) : value.getLsbD 0 = decide (value.toNat % 2 = 1) := by
    rw [BitVec.getLsbD, Nat.testBit_zero]
  have firstBound := first.isLt
  have secondBound := second.isLt
  simp only [parity, BitVec.toNat_sub]
  by_cases oddFirst : first.toNat % 2 = 1 <;> by_cases oddSecond : second.toNat % 2 = 1 <;>
    simp [oddFirst, oddSecond] <;> omega

/-- A flip pending for the snapshot is applied by one inversion, however many
requests it stands for. -/
theorem triple_apply_flip :
    Triple workSem (fun m => Following desired (Flips gen (gen.getLsbD 0)) m.applied m.requests)
      (applyFlip desired)
      fun _ m => Following desired (Flips desired.flipGen (desired.flipGen.getLsbD 0))
        m.applied m.requests := by
  have following (odd : Bool) :=
    lasting_following desired (lasting_flips gen odd)
  have store (odd : Bool) :
      Triple workSem (fun m => Following desired (Flips gen odd) m.applied m.requests)
        (storeBlock (appliedFlip desired))
        fun _ m => Following desired (Flips desired.flipGen odd) m.applied m.requests := by
    refine Triple.call (following odd).stable
      (fun _ => (lasting_following _ (lasting_flips _ _)).stable) ?_
    intro s reply t holds step
    cases step
    exact holds.reflip desired.flipGen s.history.inversions ⟨rfl, holds.2.2.2⟩
  refine Triple.via (fun block m => block.outputAppliedFlipGen = gen ∧
    Following desired (Flips gen (gen.getLsbD 0)) m.applied m.requests) ?_ fun block => ?_
  · refine Triple.call (following _).stable (fun block s t step holds =>
      ⟨holds.1, (following _).stable s t step holds.2⟩) ?_
    intro s reply t holds step
    cases step
    exact ⟨holds.2.2.1, holds⟩
  rintro s ⟨rfl, holds⟩
  have parity := lsb_sub desired.flipGen block.outputAppliedFlipGen
  by_cases odd : (desired.flipGen - block.outputAppliedFlipGen).getLsbD 0 = true
  · rw [if_pos odd]
    refine Triple.bind triple_invert_flips (fun _ => ?_) s holds
    have flipped : desired.flipGen.getLsbD 0 = !block.outputAppliedFlipGen.getLsbD 0 := by
      rw [odd] at parity
      revert parity
      cases desired.flipGen.getLsbD 0 <;> cases block.outputAppliedFlipGen.getLsbD 0 <;> simp
    rw [flipped]
    exact store _
  · rw [if_neg odd]
    have same : desired.flipGen.getLsbD 0 = block.outputAppliedFlipGen.getLsbD 0 := by
      rw [Bool.not_eq_true] at odd
      rw [odd] at parity
      revert parity
      cases desired.flipGen.getLsbD 0 <;> cases block.outputAppliedFlipGen.getLsbD 0 <;> simp
    rw [same]
    exact store _ s holds

end flipping

section runs

/-- Between two runs: what the block has been brought to, and, once a run has
started after the last publish, that it is what the publishers ask for. -/
structure Reconciled (m : Machine) : Prop where
  counts : Counts m.requests
  sound : Sound m.applied m.requests
  parity : m.history.inversions.bodd = m.block.outputAppliedFlipGen.getLsbD 0
  stopped : m.served = true → m.desired.run = .stopped → Off m ∧ m.timerArmed = false
  running : m.served = true → m.desired.run = .running →
    (hasEn m.regs.ctl = false ∨ m.block.outputAppliedGen = m.desired.gen) ∧
    m.block.outputAppliedFlipGen = m.desired.flipGen

theorem Reconciled.move {s t : Machine} (step : Surroundings s t) (reconciled : Reconciled s) :
    Reconciled t := by
  obtain ⟨applied, block, ctl, timer, requests | ⟨request, room, requests⟩⟩ :=
    surroundings_step step
  · have desired : t.desired = s.desired := congrArg Requests.desired requests
    have served : t.served = s.served := congrArg Requests.served requests
    have inversions : t.history.inversions = s.history.inversions :=
      congrArg Requests.inversions requests
    constructor
    · rw [requests]
      exact reconciled.counts
    · rw [applied, requests]
      exact reconciled.sound
    · rw [inversions, block]
      exact reconciled.parity
    · rw [served, desired, Off, ctl, block]
      intro served stopped
      have off := reconciled.stopped served stopped
      exact ⟨off.1, timer off.2⟩
    · rw [served, desired, ctl, block]
      exact reconciled.running
  · have unserved : t.served = false := congrArg Requests.served requests
    have inversions : t.history.inversions = s.history.inversions :=
      congrArg Requests.inversions requests
    constructor
    · rw [requests]
      exact reconciled.counts.publish room
    · rw [applied, requests]
      exact reconciled.sound.publish reconciled.counts room
    · rw [inversions, block]
      exact reconciled.parity
    · simp [unserved]
    · simp [unserved]

variable {desired : OutputDesired}

/-- Accesses that cannot arm the timer. -/
def Unarming (op : Op) : Prop :=
  ∀ s reply t, Machine.perform op s = some (reply, t) → s.timerArmed = false → t.timerArmed = false

theorem unarming_halting : Halting Unarming where
  readl reg := by
    intro s reply t step unarmed
    cases step
    cases reg <;> exact unarmed
  load := by
    intro s reply t step unarmed
    cases step
    exact unarmed
  sample α read := by
    intro s reply t step unarmed
    cases step
    exact unarmed
  real := by
    intro s reply t step unarmed
    cases step
    exact unarmed
  desired := by
    intro s reply t step unarmed
    cases step
    exact unarmed
  sleep msecs := by
    intro s reply t step unarmed
    cases step
    exact unarmed
  looked := by
    intro s reply t step unarmed
    cases step
    exact unarmed
  duty compv := by
    intro s reply t step unarmed
    cases step
    exact unarmed
  periodic compv := by
    intro s reply t step unarmed
    cases step
    exact unarmed
  data reg value _ := by
    intro s reply t step unarmed
    cases step
    cases reg <;> exact unarmed
  disable value _ := by
    intro s reply t step unarmed
    cases step
    exact unarmed
  halt := by
    intro s reply t step unarmed
    cases step
    exact unarmed

theorem unarmed_stable : Stable workSem fun m => m.timerArmed = false :=
  fun _ _ step => (surroundings_step step).2.2.2.1

theorem triple_unarmed {α : Type} {program : Driver α} (uses : Uses Unarming program) :
    Triple workSem (fun m => m.timerArmed = false) program fun _ m => m.timerArmed = false :=
  fun _ before =>
    wp_uses uses (fun _ s reply t keeps step => keeps s reply t step) unarmed_stable before

theorem triple_cancel_unarmed :
    Triple workSem (fun _ => True) hrtimerCancel fun _ m => m.timerArmed = false := by
  refine Triple.call (fun _ _ _ _ => trivial) (fun _ => unarmed_stable) ?_
  intro s reply t _ step
  simp only [driverSem, Machine.perform] at step
  split at step
  · contradiction
  · cases step
    rfl

theorem triple_disable_unarmed :
    Triple workSem (fun m => m.timerArmed = false) disableOutputHw
      fun _ m => Off m ∧ m.timerArmed = false :=
  fun s before => wp_and (triple_disable_off surroundings_still s trivial)
    (triple_unarmed (disable_output_hw_uses unarming_halting) s before)

/-- A stop ends with the engine off and the timer idle. -/
theorem triple_stop_off :
    Triple workSem (fun _ => True) stopOutput fun _ m => Off m ∧ m.timerArmed = false := by
  refine Triple.bind triple_cancel_unarmed fun _ => ?_
  refine Triple.bind (triple_unarmed (hw_periodic_drain_low_uses unarming_halting.toFolding))
    fun _ => ?_
  exact triple_disable_unarmed

/-- So does a run that gives up through `abandonOutput`. -/
theorem triple_abandon_unarmed :
    Triple workSem (fun _ => True) abandonOutput fun _ m => Off m ∧ m.timerArmed = false := by
  refine Triple.via (fun _ _ => True) (fun _ _ _ _ _ _ _ _ _ => trivial) fun _ => ?_
  refine Triple.bind triple_cancel_unarmed fun _ => ?_
  exact triple_disable_unarmed

/-- A run leaves the block reconciled with its snapshot. -/
theorem triple_work_reconciles {gen : BitVec 32} :
    Triple workSem (fun m => Sound m.applied m.requests ∧ Counts m.requests ∧
        Flips gen (gen.getLsbD 0) m.requests) outputWork
      fun _ m => Reconciled m := by
  have stable : Lasting fun applied requests => Sound applied requests ∧ Counts requests ∧
      Flips gen (gen.getLsbD 0) requests :=
    fun applied requests request room holds => ⟨holds.1.publish holds.2.1 room,
      holds.2.1.publish room, holds.2.2⟩
  refine Triple.via (fun desired m =>
    Following desired (Flips gen (gen.getLsbD 0)) m.applied m.requests) ?_ fun desired => ?_
  · refine Triple.call stable.stable (fun desired => (lasting_following _ (lasting_flips _ _)).stable) ?_
    rintro s reply t ⟨sound, counts, flips⟩ step
    cases step
    exact ⟨sound, counts.snapshot, flips⟩
  have following := lasting_following desired
    (lasting_flips gen (gen.getLsbD 0))
  by_cases stop : desired.run = .stopped
  · rw [if_pos stop]
    intro s before
    refine wp_mono ?_ (wp_and (triple_stop_off s trivial) (triple_keeps following
      (stop_output_uses keeps_servicing.toHalting keeps_servicing.cancel) s before))
    rintro _ m ⟨off, sound, snapshot, flips⟩
    refine ⟨snapshot.counts, sound, ?_, fun _ _ => off, ?_⟩
    · change m.requests.inversions.bodd = m.requests.appliedFlipGen.getLsbD 0
      rw [flips.1, flips.2]
    · intro served running
      have latest : desired = m.desired := snapshot.latest served
      rw [← latest, stop] at running
      contradiction
  rw [if_neg stop]
  have ends (m : Machine) (holds : Following desired (Flips desired.flipGen
      (desired.flipGen.getLsbD 0)) m.applied m.requests)
      (armed : hasEn m.regs.ctl = false ∨ m.applied.gen = desired.gen) : Reconciled m := by
    obtain ⟨sound, snapshot, flips⟩ := holds
    refine ⟨snapshot.counts, sound, ?_, ?_, ?_⟩
    · change m.requests.inversions.bodd = m.requests.appliedFlipGen.getLsbD 0
      rw [flips.1, flips.2]
    · intro served stopped
      have latest : desired = m.desired := snapshot.latest served
      exact absurd (latest ▸ stopped) stop
    · intro served _
      have latest : desired = m.desired := snapshot.latest served
      rw [← latest]
      exact ⟨armed, flips.1⟩
  refine Triple.bind triple_apply_flip fun _ => ?_
  have flipped := lasting_following desired
    (lasting_flips desired.flipGen (desired.flipGen.getLsbD 0))
  refine Triple.via (fun block m => Following desired (Flips desired.flipGen
    (desired.flipGen.getLsbD 0)) m.applied m.requests ∧
    m.applied.gen = block.outputAppliedGen) ?_ fun block => ?_
  · have loaded (block : MmioBlock) : Lasting fun applied requests =>
        Following desired (Flips desired.flipGen (desired.flipGen.getLsbD 0)) applied requests ∧
          applied.gen = block.outputAppliedGen :=
      fun applied requests request room holds =>
        ⟨flipped applied requests request room holds.1, holds.2⟩
    refine Triple.call flipped.stable (fun block => (loaded block).stable) ?_
    intro s reply t holds step
    cases step
    exact ⟨holds, rfl⟩
  rintro s ⟨holds, loaded⟩
  by_cases changed : desired.gen = block.outputAppliedGen
  · rw [if_neg (not_not.mpr changed)]
    refine wp_mono ?_ (triple_service_current (lasting_flips _ _) s ⟨holds, loaded.trans changed.symm⟩)
    exact fun _ m current => ends m current.1 (.inr current.2)
  · rw [if_pos changed]
    refine wp_mono ?_ (triple_reconcile_follows (lasting_flips _ _) s holds)
    exact fun _ m armed => ends m armed.1 armed.2

theorem Reconciled.run {s t : Machine} (start : reconciler.start s t) (reconciled : Reconciled s) :
    wp reconciler.toSemantics reconciler.program (reconciler.Owes Reconciled) t := by
  obtain ⟨-, -, rfl⟩ := start
  have counts := reconciled.counts
  have sound := reconciled.sound
  refine wp_mono ?_ (triple_work_reconciles s.beginRun ⟨⟨sound.order, sound.times⟩,
    ⟨counts.total, counts.bound, counts.flips⟩, rfl, reconciled.parity⟩)
  rintro _ u after _ rfl
  exact ⟨after.counts, after.sound, after.parity, after.stopped, after.running⟩

end runs

theorem zeroed_reconciled (params : Params) (clocks : Clocks) (regs : Regs) (flop : Bool) :
    Reconciled (.zeroed params clocks regs flop) :=
  ⟨⟨rfl, Nat.two_pow_pos 32, rfl⟩, ⟨le_refl _, fun _ => ⟨rfl, rfl⟩⟩, rfl, nofun, nofun⟩

/-- The reconciler applies the latest published configuration: whenever no run
is in progress and one has started since the last publish, the block is what
the publishers ask for. -/
theorem reconciler_applies_latest (params : Params) (clocks : Clocks) (regs : Regs) (flop : Bool)
    (last : Machine)
    (reaches : reconciler.Reaches ⟨.zeroed params clocks regs flop, none⟩ ⟨last, none⟩)
    (served : last.served = true) :
    (last.desired.run = .stopped → hasEn last.regs.ctl = false ∧
      last.block.outputHwPiv = 0 ∧ last.timerArmed = false) ∧
    (last.desired.run = .running →
      (hasEn last.regs.ctl = false ∨
        (last.block.outputAppliedGen = last.desired.gen ∧
          last.block.outputHighTimeNs = last.desired.highTimeNs ∧
          last.block.outputLowTimeNs = last.desired.lowTimeNs)) ∧
      last.history.inversions % 2 = last.flips % 2) := by
  have reconciled : reconciler.Holds Reconciled ⟨last, none⟩ :=
    Worker.holds_reaches (fun _ _ => Reconciled.move) (fun _ _ => Reconciled.run) reaches
      (zeroed_reconciled params clocks regs flop)
  change Reconciled last at reconciled
  constructor
  · intro stopped
    obtain ⟨⟨disabled, idle⟩, unarmed⟩ := reconciled.stopped served stopped
    exact ⟨disabled, idle, unarmed⟩
  · intro running
    obtain ⟨armed, flipped⟩ := reconciled.running served running
    refine ⟨armed.imp id fun gen => ⟨gen, reconciled.sound.times gen⟩, ?_⟩
    have parity := reconciled.parity
    have counted : last.desired.flipGen.toNat = last.flips := reconciled.counts.flips
    rw [flipped, BitVec.getLsbD, counted, Nat.testBit_zero] at parity
    rw [Nat.mod_two_of_bodd, parity]
    rcases Nat.mod_two_eq_zero_or_one last.flips with even | odd
    · simp [even]
    · simp [odd]


theorem reconciler_applies_latest_hardware_start :
    (outputTracer.after 1000 loadedBlock hardwareStart).block.outputHighTimeNs = 500000000 := by
  have reaches := outputTracer.after_reaches 1000 loadedBlock hardwareStart (by decide +kernel)
  have latest := reconciler_applies_latest _ _ _ _ _ reaches (by decide +kernel)
  rcases (latest.2 (by decide +kernel)).1 with disabled | ⟨-, high, -⟩
  · exact absurd disabled (by decide +kernel)
  · rw [high]
    decide +kernel

end Tgpio

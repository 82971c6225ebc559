import Tgpio.OutputFrames
import Mathlib.Data.Nat.Bits
import Mathlib.Tactic.Linarith

/-!
# Edges while the driver looks

What a read of COMPV can answer while the free-running engine generates edges
at any moment, and what the register sequences do once the engine is stopped.
`Ran n s t` is the relation between two states with `n` edges in between.
-/

namespace Tgpio

open Interference Interference.Prog

set_option autoImplicit false

/-- The surroundings of the level: edges of the free-running engine, which do
not carry COMPV past 64 bits, and anything that leaves the block alone. -/
inductive EdgeEnv : Machine → Machine → Prop where
  | elsewhere {m m' : Machine} : m'.block = m.block → m'.regs = m.regs → m'.flop = m.flop →
      m'.history = m.history → EdgeEnv m m'
  | edge {m : Machine} : m.freeRunning = true →
      m.regs.compv.toNat + m.regs.piv.toNat < 2 ^ 64 → EdgeEnv m m.periodicEdge

abbrev edgeSem : Semantics Op Op.Resp Machine := driverSem EdgeEnv

/-- One edge, where the engine runs and COMPV has room. -/
def Machine.edgeMove (m : Machine) : Machine :=
  if m.freeRunning = true ∧ m.regs.compv.toNat + m.regs.piv.toNat < 2 ^ 64 then m.periodicEdge
  else m

theorem edge_move_rely (m : Machine) : edgeSem.Rely m m.edgeMove := by
  unfold Machine.edgeMove
  split
  · rename_i runs
    exact .single (.edge runs.1 runs.2)
  · exact .refl

theorem edge_moves_rely {moves : List (Machine → Machine)}
    (simple : ∀ move ∈ moves, move = id ∨ move = Machine.edgeMove) :
    ∀ move ∈ moves, ∀ s, edgeSem.Rely s (move s) := by
  intro move member s
  rcases simple move member with rfl | rfl
  · exact .refl
  · exact edge_move_rely s

/-- `n` edges lie between the two states, and nothing else that concerns the
level; the driver may have looked at COMPV. -/
structure Ran (n : Nat) (s t : Machine) : Prop where
  block : t.block = s.block
  ctl : t.regs.ctl = s.regs.ctl
  piv : t.regs.piv = s.regs.piv
  compv : t.regs.compv.toNat = s.regs.compv.toNat + n * s.regs.piv.toNat
  flop : t.flop = (s.flop ^^ n.bodd)
  history : t.history =
    { s.history with edges := s.history.edges + n, seen := t.history.seen,
                     foldEdges := t.history.foldEdges }
  stopped : s.freeRunning = false → n = 0

namespace Ran

theorem refl (s : Machine) : Ran 0 s s where
  block := rfl
  ctl := rfl
  piv := rfl
  compv := by simp
  flop := by simp
  history := rfl
  stopped := fun _ => rfl

theorem free_running {n : Nat} {s t : Machine} (ran : Ran n s t) :
    t.freeRunning = s.freeRunning := by
  simp only [Machine.freeRunning, Regs.running, ran.ctl]

theorem compv_mono {n : Nat} {s t : Machine} (ran : Ran n s t) :
    s.regs.compv.toNat ≤ t.regs.compv.toNat := by
  rw [ran.compv]
  exact Nat.le_add_right _ _

theorem trans {first second : Nat} {s t u : Machine} (before : Ran first s t)
    (after : Ran second t u) : Ran (first + second) s u where
  block := after.block.trans before.block
  ctl := after.ctl.trans before.ctl
  piv := after.piv.trans before.piv
  compv := by
    rw [after.compv, before.compv, before.piv]
    ring
  flop := by rw [after.flop, before.flop, Nat.bodd_add, Bool.xor_assoc]
  history := by
    rw [after.history, before.history]
    simp only [Nat.add_assoc]
  stopped := by
    intro stopped
    have none := before.stopped stopped
    have later := after.stopped (before.free_running.trans stopped)
    omega

theorem edge {m : Machine} (running : m.freeRunning = true)
    (fits : m.regs.compv.toNat + m.regs.piv.toNat < 2 ^ 64) : Ran 1 m m.periodicEdge where
  block := rfl
  ctl := rfl
  piv := rfl
  compv := by
    simp only [Machine.periodicEdge, BitVec.toNat_add]
    rw [Nat.mod_eq_of_lt fits, Nat.one_mul]
  flop := by simp [Machine.periodicEdge]
  history := rfl
  stopped := by simp [running]

theorem read (m : Machine) (reg : Reg) : Ran 0 m (m.readReg reg) := by
  cases reg <;> constructor <;> simp [Machine.readReg]

theorem looked (m : Machine) : Ran 0 m (m.mark .looked) := by
  constructor <;> simp [Machine.mark]

end Ran

/-- What the driver saw last, and where its last fold looked. -/
def Machine.memory (m : Machine) : Seen × Nat := (m.history.seen, m.history.foldEdges)

/-- The surroundings generate some edges and do not look. -/
theorem edge_rely_ran {s t : Machine} (rely : edgeSem.Rely s t) :
    ∃ n, Ran n s t ∧ t.memory = s.memory := by
  induction rely with
  | refl => exact ⟨0, .refl s, rfl⟩
  | @tail u w _ step ih =>
      obtain ⟨n, ran, seen⟩ := ih
      have step : EdgeEnv u w := step
      cases step with
      | elsewhere block regs flop history =>
          have still : Ran 0 u w :=
            { block, ctl := by rw [regs], piv := by rw [regs], compv := by simp [regs]
              flop := by simp [flop], history := by rw [history]; rfl, stopped := fun _ => rfl }
          exact ⟨n, ran.trans still, by rw [Machine.memory, history]; exact seen⟩
      | edge running fits =>
          exact ⟨n + 1, ran.trans (.edge running fits), seen⟩

section reading

/-- The instant a compare read refers to: `before` edges after `s`, and `after`
edges before `t`. -/
structure ReadAt (before after : Nat) (s t : Machine) (compv : Nat) (u : Machine) : Prop where
  reached : Ran before s u
  passed : Ran after u t
  value : compv = u.regs.compv.toNat
  seen : t.history.seen = u.look

theorem ReadAt.ran {before after compv : Nat} {s t u : Machine}
    (at_ : ReadAt before after s t compv u) : Ran (before + after) s t :=
  at_.reached.trans at_.passed

/-- A compare read answers the value COMPV had at its last low-word read: the
high word read before it is still the high word after it. -/
theorem read_compv_spec (s : Machine) :
    wp edgeSem readCompv (fun compv t => ∃ before after u, ReadAt before after s t compv u) s := by
  intro s₁ rely₁ hi s₂ read₁
  obtain ⟨n₁, ran₁, -⟩ := edge_rely_ran rely₁
  cases read₁
  -- The high word last read was COMPV's at some earlier moment of the run.
  refine wp_iterate (fun prevHi t => ∃ n, Ran n s t ∧
    prevHi.toNat ≤ (upperWord t.regs.compv).toNat) ⟨n₁ + 0, ran₁.trans (.read _ _), le_refl _⟩ ?_
  rintro prevHi t ⟨n, ran, bound⟩
  intro t₁ rely₁ lo t₂ read₂ t₃ rely₂ hi t₄ read₃
  obtain ⟨k₁, before, -⟩ := edge_rely_ran rely₁
  obtain ⟨k₂, after, seen⟩ := edge_rely_ran rely₂
  cases read₂
  cases read₃
  have reached : Ran (n + k₁) s t₁ := ran.trans before
  have looked : Ran (0 + k₂) t₁ t₃ := Ran.trans (.read t₁ .compv31_0) after
  have lowered : prevHi.toNat ≤ (upperWord t₁.regs.compv).toNat :=
    bound.trans (upper_word_mono before.compv_mono)
  have raised : (upperWord t₁.regs.compv).toNat ≤ (upperWord t₃.regs.compv).toNat :=
    upper_word_mono looked.compv_mono
  change wp edgeSem (if upperWord t₃.regs.compv ≠ prevHi then _ else _) _ _
  by_cases same : upperWord t₃.regs.compv = prevHi
  · rw [if_neg (not_not.mpr same)]
    intro t₅ rely₃ t₆ rely₄
    obtain ⟨k₃, rest, restSeen⟩ := edge_rely_ran (rely₃.trans rely₄)
    refine ⟨n + k₁, 0 + k₂ + (0 + k₃), t₁, reached, looked.trans (.trans (.read _ _) rest), ?_, ?_⟩
    · have equal : upperWord t₃.regs.compv = upperWord t₁.regs.compv := by
        apply BitVec.eq_of_toNat_eq
        rw [← same] at lowered
        omega
      change (joinWords (upperWord t₃.regs.compv) (lowerWord t₁.regs.compv)).toNat = _
      rw [equal, join_words]
    · exact (congrArg Prod.fst restSeen).trans (congrArg Prod.fst seen)
  · rw [if_pos same]
    intro t₅ rely₃
    obtain ⟨k₃, rest, -⟩ := edge_rely_ran rely₃
    exact ⟨_, (reached.trans looked).trans (.trans (.read _ _) rest),
      upper_word_mono rest.compv_mono⟩

end reading

section folding

/-- The block after a fold that reads `compv`. -/
def folded (compv : Nat) (block : MmioBlock) : MmioBlock :=
  if block.outputHwPiv = 0 then block
  else if block.outputPhase = .hwDuty then
    if compv ≠ block.outputHwCkptCompv then foldDuty compv block else block
  else if block.outputPhase = .hardwarePeriodic then
    if compv < block.outputHwCkptCompv then block else foldPeriodic compv block
  else block

/-- The block is in a phase whose edges are folded. -/
def folds (block : MmioBlock) : Prop :=
  block.outputHwPiv ≠ 0 ∧
    (block.outputPhase = .hwDuty ∨ block.outputPhase = .hardwarePeriodic)

theorem folded_of_not_folds {compv : Nat} {block : MmioBlock} (rest : ¬folds block) :
    folded compv block = block := by
  unfold folded
  unfold folds at rest
  split
  · rfl
  · rename_i positive
    rw [if_neg fun duty => rest ⟨positive, .inl duty⟩,
      if_neg fun periodic => rest ⟨positive, .inr periodic⟩]

theorem folded_keeps (compv : Nat) (block : MmioBlock) :
    (folded compv block).outputHwPiv = block.outputHwPiv ∧
      (folded compv block).outputHighTimeNs = block.outputHighTimeNs ∧
      (folded compv block).outputLowTimeNs = block.outputLowTimeNs := by
  unfold folded
  split
  · exact ⟨rfl, rfl, rfl⟩
  split
  · split <;> exact ⟨rfl, rfl, rfl⟩
  split
  · split <;> exact ⟨rfl, rfl, rfl⟩
  · exact ⟨rfl, rfl, rfl⟩

/-- The instant `u` a fold has looked at, between `s` and `t`. -/
structure LookedAt (before after : Nat) (s t : Machine) (compv : Nat) (u : Machine) : Prop where
  reached : Ran before s u
  passed : Ran after u t
  value : compv = u.regs.compv.toNat
  memory : t.memory = (u.look, u.history.edges)

theorem ReadAt.looked {before after compv : Nat} {s t t₁ u : Machine}
    (read : ReadAt before after s t compv u) (rely : edgeSem.Rely t t₁) :
    ∃ after, LookedAt before after s (t₁.mark .looked) compv u := by
  obtain ⟨n, ran, kept⟩ := edge_rely_ran rely
  have seen : t₁.history.seen = u.look := (congrArg Prod.fst kept).trans read.seen
  refine ⟨after + n + 0, read.reached, (read.passed.trans ran).trans (.looked t₁), read.value, ?_⟩
  change (t₁.history.seen, t₁.history.seen.edges) = _
  rw [seen]
  rfl

/-- The instant `u` a fold refers to, between `s` and `t`. -/
structure FoldAt (before after : Nat) (s t u : Machine) : Prop where
  reached : Ran before s u
  passed : Ran after { u with block := folded u.regs.compv.toNat u.block } t
  memory : folds s.block → t.memory = (u.look, u.history.edges)

theorem fold_at_of_look {before after compv : Nat} {s t u w : Machine}
    (look : LookedAt before after s t compv u) (later : edgeSem.Rely t w)
    (same : folded compv s.block = s.block) :
    ∃ before after u, FoldAt before after s w u := by
  obtain ⟨n, rest, kept⟩ := edge_rely_ran later
  refine ⟨before, after + n, u, look.reached, ?_, fun _ => kept.trans look.memory⟩
  have unchanged : folded u.regs.compv.toNat u.block = u.block := by
    rw [look.reached.block, ← look.value, same]
  rw [unchanged]
  exact look.passed.trans rest

theorem fold_at_of_store {before after compv : Nat} {s t u t' w : Machine}
    (look : LookedAt before after s t compv u) (first : edgeSem.Rely t t')
    (later : edgeSem.Rely { t' with block := folded compv t'.block } w) :
    ∃ before after u, FoldAt before after s w u := by
  obtain ⟨k, rest, kept⟩ := edge_rely_ran first
  obtain ⟨n, last, lastKept⟩ := edge_rely_ran later
  refine ⟨before, after + k + n, u, look.reached, ?_,
    fun _ => lastKept.trans (kept.trans look.memory)⟩
  have passed := look.passed.trans rest
  have moved : Ran (after + k) { u with block := folded u.regs.compv.toNat u.block }
      { t' with block := folded compv t'.block } :=
    { passed with
      block := by
        change folded compv t'.block = folded u.regs.compv.toNat u.block
        rw [passed.block, look.value] }
  exact moved.trans last

/-- A fold acts on the block as it is, with the COMPV of one instant. -/
theorem hw_flop_fold_spec (s : Machine) :
    wp edgeSem hwFlopFold (fun _ t => ∃ before after u, FoldAt before after s t u) s := by
  intro s₁ rely₁ block s₂ loaded
  obtain ⟨n₁, ran₁, -⟩ := edge_rely_ran rely₁
  cases loaded
  have idle (rest : ¬folds s.block) (w : Machine) (later : edgeSem.Rely s₁ w) :
      ∃ before after u, FoldAt before after s w u := by
    obtain ⟨n, ran, -⟩ := edge_rely_ran later
    refine ⟨n₁, n, s₁, ran₁, ?_, fun folds => absurd folds rest⟩
    rw [ran₁.block, folded_of_not_folds rest, ← ran₁.block]
    exact ran
  have looking (rest : Nat → Driver Unit)
      (continues : ∀ before after compv u t, LookedAt before after s t compv u →
        wp edgeSem (rest compv) (fun _ t => ∃ before after u, FoldAt before after s t u) t) :
      wp edgeSem (do let compv ← readCompv; mark .looked; rest compv)
        (fun _ t => ∃ before after u, FoldAt before after s t u) s₁ := by
    rw [bind_def, wp_bind]
    refine wp_mono ?_ (read_compv_spec s₁)
    rintro compv t ⟨before, after, u, read⟩ t₁ rely _ t₂ marked
    cases marked
    obtain ⟨after, look⟩ := read.looked rely
    exact continues (n₁ + before) after compv u _
      { look with reached := ran₁.trans look.reached }
  have same {before after compv : Nat} {t t' u : Machine} (look : LookedAt before after s t compv u)
      (rely : edgeSem.Rely t t') : t'.block = s₁.block := by
    obtain ⟨_, ran, -⟩ := edge_rely_ran rely
    exact (ran.block.trans look.passed.block).trans (look.reached.block.trans ran₁.block.symm)
  change wp edgeSem (if s₁.block.outputHwPiv = 0 then _ else _) _ _
  by_cases zero : s₁.block.outputHwPiv = 0
  · rw [if_pos zero]
    exact idle fun folds => folds.1 (ran₁.block ▸ zero)
  rw [if_neg zero]
  by_cases duty : s₁.block.outputPhase = .hwDuty
  · rw [if_pos duty]
    refine looking _ fun before after compv u t look => ?_
    by_cases moved : compv = s₁.block.outputHwCkptCompv
    · rw [if_neg (not_not.mpr moved)]
      intro w later
      refine fold_at_of_look look later ?_
      rw [← ran₁.block, folded, if_neg zero, if_pos duty, if_neg (not_not.mpr moved)]
    · rw [if_pos moved]
      intro t₁ first _ t₂ stored w later
      cases stored
      refine fold_at_of_store look first ?_
      rw [same look first, folded, if_neg zero, if_pos duty, if_pos moved, ← same look first]
      exact later
  rw [if_neg duty]
  by_cases periodic : s₁.block.outputPhase = .hardwarePeriodic
  · rw [if_pos periodic]
    refine looking _ fun before after compv u t look => ?_
    by_cases behind : compv < s₁.block.outputHwCkptCompv
    · rw [if_pos behind]
      intro w later
      refine fold_at_of_look look later ?_
      rw [← ran₁.block, folded, if_neg zero, if_neg duty, if_pos periodic, if_pos behind]
    · rw [if_neg behind]
      intro t₁ first _ t₂ stored w later
      cases stored
      refine fold_at_of_store look first ?_
      rw [same look first, folded, if_neg zero, if_neg duty, if_pos periodic, if_neg behind,
        ← same look first]
      exact later
  · rw [if_neg periodic]
    refine idle ?_
    rintro ⟨-, duty' | periodic'⟩
    · exact duty (ran₁.block ▸ duty')
    · exact periodic (ran₁.block ▸ periodic')

end folding

section watching

variable {α : Type} {pre : Machine → Prop}

/-- Assertions that only edges and looks can be told from. -/
def Watched (pre : Machine → Prop) : Prop :=
  ∀ n s t, Ran n s t → t.history.foldEdges = s.history.foldEdges → pre s → pre t

/-- Accesses that look and change nothing. -/
def Looks (op : Op) : Prop :=
  ∀ s reply t, Machine.perform op s = some (reply, t) →
    Ran 0 s t ∧ t.history.foldEdges = s.history.foldEdges

theorem looks_reading : Reading Looks where
  readl reg := by
    intro s reply t step
    cases step
    refine ⟨.read s reg, ?_⟩
    cases reg <;> rfl
  load := by
    intro s reply t step
    cases step
    exact ⟨.refl s, rfl⟩
  sample α read := by
    intro s reply t step
    cases step
    exact ⟨.refl s, rfl⟩
  real := by
    intro s reply t step
    cases step
    exact ⟨.refl s, rfl⟩
  desired := by
    intro s reply t step
    cases step
    exact ⟨.refl s, rfl⟩
  sleep msecs := by
    intro s reply t step
    cases step
    exact ⟨.refl s, rfl⟩

theorem Watched.stable (watched : Watched pre) : Stable edgeSem pre := by
  intro s t step holds
  obtain ⟨n, ran, memory⟩ := edge_rely_ran (.single step)
  exact watched n s t ran (congrArg Prod.snd memory) holds

theorem Watched.looking (watched : Watched pre) {program : Driver α}
    (uses : Uses Looks program) : Triple edgeSem pre program fun _ => pre := by
  intro s holds
  refine wp_uses uses ?_ watched.stable holds
  intro op s reply t looks step holds
  exact watched 0 s t (looks s reply t step).1 (looks s reply t step).2 holds

theorem Watched.load (watched : Watched pre) :
    Triple edgeSem pre loadBlock fun block m => pre m ∧ m.block = block := by
  refine Triple.call watched.stable (fun block => ?_) ?_
  · intro s t step holds
    obtain ⟨n, ran, memory⟩ := edge_rely_ran (.single step)
    exact ⟨watched n s t ran (congrArg Prod.snd memory) holds.1, ran.block.trans holds.2⟩
  · intro s reply t holds step
    cases step
    exact ⟨holds, rfl⟩

end watching

section stopped

/-- The part of the history that a stopped engine leaves alone. -/
structure Marks where
  hotWrites : List HotWrite
  levelChanges : Nat
  slots : List Slot

def Machine.marks (m : Machine) : Marks :=
  ⟨m.history.hotWrites, m.history.levelChanges, m.history.slots⟩

theorem Ran.marks {n : Nat} {s t : Machine} (ran : Ran n s t) : t.marks = s.marks := by
  simp only [Machine.marks]
  rw [ran.history]

/-- The block, its registers, its level and the marks are known. -/
structure At (block : MmioBlock) (regs : Regs) (flop : Bool) (marks : Marks) (m : Machine) :
    Prop where
  block : m.block = block
  regs : m.regs = regs
  flop : m.flop = flop
  marks : m.marks = marks

variable {block : MmioBlock} {regs : Regs} {flop : Bool} {marks : Marks}

theorem Ran.still {n : Nat} {s t : Machine} (ran : Ran n s t) (stopped : s.freeRunning = false) :
    t.regs = s.regs ∧ t.flop = s.flop := by
  have none := ran.stopped stopped
  subst none
  have compv : t.regs.compv = s.regs.compv := by
    apply BitVec.eq_of_toNat_eq
    simpa using ran.compv
  have flop : t.flop = s.flop := by simpa using ran.flop
  exact ⟨Regs.ext ran.ctl compv ran.piv, flop⟩

theorem At.ran {n : Nat} {s t : Machine} (at_ : At block regs flop marks s)
    (stopped : regs.running = false) (ran : Ran n s t) : At block regs flop marks t := by
  have still := ran.still (by rw [Machine.freeRunning, at_.regs, stopped])
  exact ⟨ran.block.trans at_.block, still.1.trans at_.regs, still.2.trans at_.flop,
    ran.marks.trans at_.marks⟩

/-- While the engine is stopped nothing moves. -/
theorem stable_at (stopped : regs.running = false) : Stable edgeSem (At block regs flop marks) := by
  intro s t step at_
  obtain ⟨_, ran, -⟩ := edge_rely_ran (.single step)
  exact at_.ran stopped ran

theorem Machine.write_reg_parts (m : Machine) (reg : Reg) (value : BitVec 32) :
    (m.writeReg reg value).block = m.block ∧
      (m.writeReg reg value).regs = m.regs.write reg value ∧
      (m.writeReg reg value).flop = m.flop := by
  cases reg <;> exact ⟨rfl, rfl, rfl⟩

/-- Writes to a stopped engine that leave it stopped are not marked. -/
theorem Machine.write_reg_marks (m : Machine) (reg : Reg) (value : BitVec 32)
    (stopped : m.freeRunning = false) (stays : (m.regs.write reg value).running = false) :
    (m.writeReg reg value).marks = m.marks := by
  cases reg with
  | ctl =>
      simp [Machine.writeReg, Machine.marks, Machine.writeCtlHistory, stopped]
  | compv31_0 =>
      simp only [Machine.writeReg, Machine.marks]
      split <;> rfl
  | compv63_32 => rfl
  | piv31_0 => simp [Machine.writeReg, Machine.marks, stopped]
  | piv63_32 => rfl

theorem triple_writel (reg : Reg) (value : BitVec 32) (stopped : regs.running = false)
    (stays : (regs.write reg value).running = false) :
    Triple edgeSem (At block regs flop marks) (writel reg value)
      fun _ => At block (regs.write reg value) flop marks := by
  refine Triple.call (stable_at stopped) (fun _ => stable_at stays) ?_
  intro s reply t at_ step
  cases step
  have parts := s.write_reg_parts reg value
  have unmarked := s.write_reg_marks reg value (by rw [Machine.freeRunning, at_.regs, stopped])
    (by rw [at_.regs, stays])
  exact ⟨parts.1.trans at_.block, by rw [parts.2.1, at_.regs], parts.2.2.trans at_.flop,
    unmarked.trans at_.marks⟩

theorem triple_read_ctl (stopped : regs.running = false) :
    Triple edgeSem (At block regs flop marks) readCtl
      fun ctrl m => ctrl = regs.ctl ∧ At block regs flop marks m := by
  refine Triple.call (stable_at stopped) (fun _ => ?_) ?_
  · intro s t step holds
    exact ⟨holds.1, stable_at stopped s t step holds.2⟩
  · intro s reply t at_ step
    cases step
    exact ⟨by rw [← at_.regs]; rfl, at_⟩

theorem triple_load (stopped : regs.running = false) :
    Triple edgeSem (At block regs flop marks) loadBlock
      fun loaded m => loaded = block ∧ At block regs flop marks m := by
  refine Triple.call (stable_at stopped) (fun _ => ?_) ?_
  · intro s t step holds
    exact ⟨holds.1, stable_at stopped s t step holds.2⟩
  · intro s reply t at_ step
    cases step
    exact ⟨at_.block, at_⟩

theorem triple_store (update : MmioBlock → MmioBlock) (stopped : regs.running = false) :
    Triple edgeSem (At block regs flop marks) (storeBlock update) fun _ => At (update block) regs flop marks := by
  refine Triple.call (stable_at stopped) (fun _ => stable_at stopped) ?_
  intro s reply t at_ step
  cases step
  exact ⟨congrArg update at_.block, at_.regs, at_.flop, at_.marks⟩

theorem triple_write_compv (value : Nat) (stopped : regs.running = false) :
    Triple edgeSem (At block regs flop marks) (writeCompv value)
      fun _ => At block { regs with compv := BitVec.ofNat 64 value } flop marks := by
  refine Triple.bind (triple_writel .compv63_32 (upper32Bits value) stopped stopped) fun _ => ?_
  rw [← write_compv_words]
  exact triple_writel .compv31_0 (lower32Bits value) stopped stopped

theorem triple_write_piv (value : Nat) (stopped : regs.running = false) :
    Triple edgeSem (At block regs flop marks) (writePiv value)
      fun _ => At block { regs with piv := BitVec.ofNat 64 value } flop marks := by
  refine Triple.bind (triple_writel .piv63_32 (upper32Bits value) stopped stopped) fun _ => ?_
  rw [← write_piv_words]
  exact triple_writel .piv31_0 (lower32Bits value) stopped stopped

theorem triple_fold (stopped : regs.running = false) :
    Triple edgeSem (At block regs flop marks) hwFlopFold
      fun _ => At (folded regs.compv.toNat block) regs flop marks := by
  intro s at_
  refine wp_mono ?_ (hw_flop_fold_spec s)
  rintro _ t ⟨before, after, u, fold⟩
  have instant : At block regs flop marks u := at_.ran stopped fold.reached
  have stored : At (folded regs.compv.toNat block) regs flop marks
      { u with block := folded u.regs.compv.toNat u.block } :=
    ⟨by rw [instant.regs, instant.block], instant.regs, instant.flop, instant.marks⟩
  exact stored.ran stopped fold.passed

/-- The registers of a stopped block: the mode bits asked for are gone, compare
and interval are zero. -/
def clearedRegs (ctl : BitVec 32) : Regs := ⟨ctl, 0, 0⟩

@[simp] theorem cleared_running (ctl : BitVec 32) (disabled : hasEn ctl = false) :
    (clearedRegs ctl).running = false := by
  simp [clearedRegs, Regs.running, disabled]

theorem running_of_disabled {regs : Regs} (disabled : hasEn regs.ctl = false) :
    regs.running = false := by
  simp [Regs.running, disabled]

theorem running_of_unpaced {regs : Regs} (unpaced : hasPm regs.ctl = false) :
    regs.running = false := by
  simp [Regs.running, unpaced]

/-- Everything `disableOutputHw` does once the engine is off. -/
theorem triple_disable_tail (ctrl : BitVec 32) (off : hasEn regs.ctl = false) :
    Triple edgeSem (At block regs flop marks)
      (do
        hwFlopFold
        writeCompv 0
        writePiv 0
        writeCtl (ctlWithout ctrl (ctlEn ||| ctlPm))
        storeBlock halted)
      fun _ => At (halted (folded regs.compv.toNat block))
        (clearedRegs (ctlWithout ctrl (ctlEn ||| ctlPm))) flop marks := by
  have stopped : regs.running = false := running_of_disabled off
  refine Triple.bind (triple_fold stopped) fun _ => ?_
  refine Triple.bind (triple_write_compv 0 stopped) fun _ => ?_
  refine Triple.bind (triple_write_piv 0 stopped) fun _ => ?_
  refine Triple.bind (triple_writel .ctl _ stopped ?_) fun _ => ?_
  · exact running_of_disabled (by simp [Regs.write])
  · exact triple_store _ (cleared_running _ (by simp))

end stopped

end Tgpio

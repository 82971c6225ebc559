import Tgpio.LevelParity

/-!
# Rewrites under a running engine

A frequency refresh and a polarity request rewrite PIV and COMPV while the
engine generates edges. An edge between the fold and such a rewrite is counted
with the wrong interval, or not at all. `HotWrite.drift` is the parity that one
rewrite loses; the last rewrite of a request decides.
-/

namespace Tgpio

open Interference Interference.Prog

set_option autoImplicit false

def HotWrite.harmless : HotWrite → Prop
  | .piv edges old new => edges % 2 = edges * old / new % 2
  | .pause edges => edges % 2 = 0

/-- The parity a rewrite loses: edges counted as intervals of the new length,
or forgotten. -/
def HotWrite.drift : HotWrite → Bool
  | .piv edges old new => edges.bodd ^^ (edges * old / new).bodd
  | .pause edges => edges.bodd

theorem HotWrite.harmless_iff (write : HotWrite) : write.harmless ↔ write.drift = false := by
  cases write with
  | piv edges old new =>
      simp only [harmless, drift, Nat.mod_two_of_bodd]
      cases edges.bodd <;> cases (edges * old / new).bodd <;> decide
  | pause edges =>
      simp only [harmless, drift, Nat.mod_two_of_bodd]
      cases edges.bodd <;> decide

def rewriteDrift (rewrites : List HotWrite) : Bool :=
  (rewrites.getLast?).elim false HotWrite.drift

theorem rewrite_drift_false_iff (rewrites : List HotWrite) :
    rewriteDrift rewrites = false ↔ ∀ write ∈ rewrites.getLast?, write.harmless := by
  unfold rewriteDrift
  cases rewrites.getLast? with
  | none => simp
  | some write => simp [write.harmless_iff]

/-- A running engine since the last fold's look: the mirror is the level then,
the checkpoint the compare then. -/
structure SinceFold (drift : Bool) (marks : Marks) (m : Machine) : Prop where
  phase : m.block.outputPhase = .hardwarePeriodic
  running : m.freeRunning = true
  positive : m.block.outputHwPiv ≠ 0
  piv : m.regs.piv.toNat = m.block.outputHwPiv
  order : m.history.foldEdges ≤ m.history.edges
  distance : m.regs.compv.toNat = m.block.outputHwCkptCompv +
    (m.history.edges - m.history.foldEdges) * m.block.outputHwPiv
  level : m.flop = (m.block.outputHwFlopHigh ^^ drift ^^
    (m.history.edges - m.history.foldEdges).bodd)
  marks : m.marks = marks

/-- The same after the interval went from `old` to what the register holds,
`edges` edges after the look. -/
structure Repaced (drift : Bool) (marks : Marks) (edges old : Nat) (m : Machine) : Prop where
  phase : m.block.outputPhase = .hardwarePeriodic
  running : m.freeRunning = true
  positive : m.regs.piv.toNat ≠ 0
  order : m.history.foldEdges + edges ≤ m.history.edges
  distance : m.regs.compv.toNat = m.block.outputHwCkptCompv + edges * old +
    (m.history.edges - (m.history.foldEdges + edges)) * m.regs.piv.toNat
  level : m.flop = (m.block.outputHwFlopHigh ^^ drift ^^
    (m.history.edges - m.history.foldEdges).bodd)
  marks : m.marks = marks

/-- Running, tracked up to `drift`, and off the mirror by `since` apart from
the edges since the last fold's look. -/
structure Drifting (drift since : Bool) (marks : Marks) (m : Machine) : Prop where
  tracked : Tracked drift m.block m.regs m.flop
  running : m.freeRunning = true
  order : m.history.foldEdges ≤ m.history.edges
  level : m.flop = (m.block.outputHwFlopHigh ^^ since ^^
    (m.history.edges - m.history.foldEdges).bodd)
  marks : m.marks = marks

section since

variable {drift since : Bool} {marks : Marks} {edges old : Nat}

theorem Ran.history_edges {n : Nat} {s t : Machine} (ran : Ran n s t) :
    t.history.edges = s.history.edges + n := by
  rw [ran.history]

/-- More edges since the look move the flop by their parity. -/
theorem since_level {n : Nat} {s t : Machine} (mirror : Bool) (ran : Ran n s t)
    (kept : t.history.foldEdges = s.history.foldEdges)
    (order : s.history.foldEdges ≤ s.history.edges)
    (level : s.flop = (mirror ^^ (s.history.edges - s.history.foldEdges).bodd)) :
    t.flop = (mirror ^^ (t.history.edges - t.history.foldEdges).bodd) := by
  have grown : t.history.edges - t.history.foldEdges =
      s.history.edges - s.history.foldEdges + n := by
    rw [kept, ran.history_edges]
    omega
  rw [grown, Nat.bodd_add, ran.flop, level, Bool.xor_assoc]

theorem watched_since_fold : Watched (SinceFold drift marks) := by
  intro n s t ran kept since
  have order := since.order
  have grown : t.history.edges - t.history.foldEdges =
      s.history.edges - s.history.foldEdges + n := by
    rw [kept, ran.history_edges]
    omega
  constructor
  · rw [ran.block, since.phase]
  · rw [ran.free_running, since.running]
  · rw [ran.block]
    exact since.positive
  · rw [ran.block, ran.piv, since.piv]
  · rw [kept, ran.history_edges]
    omega
  · rw [grown, ran.compv, since.distance, since.piv, ran.block]
    ring
  · have level := since_level (s.block.outputHwFlopHigh ^^ drift) ran kept order
      since.level
    rw [level, ran.block]
  · exact ran.marks.trans since.marks

theorem watched_repaced : Watched (Repaced drift marks edges old) := by
  intro n s t ran kept since
  have order := since.order
  have grown : t.history.edges - (t.history.foldEdges + edges) =
      s.history.edges - (s.history.foldEdges + edges) + n := by
    rw [kept, ran.history_edges]
    omega
  constructor
  · rw [ran.block, since.phase]
  · rw [ran.free_running, since.running]
  · rw [ran.piv]
    exact since.positive
  · rw [kept, ran.history_edges]
    omega
  · rw [grown, ran.compv, since.distance, ran.piv, ran.block]
    ring
  · have level := since_level (s.block.outputHwFlopHigh ^^ drift) ran kept
      (by omega) since.level
    rw [level, ran.block]
  · exact ran.marks.trans since.marks

theorem watched_drifting : Watched (Drifting drift since marks) := by
  intro n s t ran kept drifting
  constructor
  · exact drifting.tracked.ran ran
  · rw [ran.free_running, drifting.running]
  · rw [kept, ran.history_edges]
    exact drifting.order.trans (Nat.le_add_right _ _)
  · have level := since_level (s.block.outputHwFlopHigh ^^ since) ran kept
      drifting.order drifting.level
    rw [level, ran.block]
  · exact ran.marks.trans drifting.marks

theorem SinceFold.drifting {m : Machine} (sinceFold : SinceFold drift marks m) :
    Drifting drift drift marks m := by
  have positive : 0 < m.block.outputHwPiv := Nat.pos_of_ne_zero sinceFold.positive
  refine ⟨⟨sinceFold.phase, sinceFold.positive, sinceFold.piv, ?_, ?_⟩, sinceFold.running,
    sinceFold.order, sinceFold.level, sinceFold.marks⟩
  · rw [sinceFold.distance]
    exact Nat.le_add_right _ _
  · rw [sinceFold.distance, Nat.add_sub_cancel_left, Nat.mul_div_cancel _ positive]
    exact sinceFold.level

/-- Recording the new interval turns the edges counted with the old one into
whole intervals of the new one. -/
theorem Repaced.drifting {m : Machine} (repaced : Repaced drift marks edges old m) :
    Drifting (drift ^^ (HotWrite.piv edges old m.regs.piv.toNat).drift) drift marks
      { m with block := paced m.regs.piv.toNat m.block } := by
  have positive : 0 < m.regs.piv.toNat := Nat.pos_of_ne_zero repaced.positive
  have order := repaced.order
  refine ⟨⟨repaced.phase, repaced.positive, rfl, ?_, ?_⟩, repaced.running,
    (Nat.le_add_right _ _).trans order, repaced.level, repaced.marks⟩
  · change m.block.outputHwCkptCompv ≤ m.regs.compv.toNat
    rw [repaced.distance]
    omega
  · change m.flop = (m.block.outputHwFlopHigh ^^ _ ^^
      ((m.regs.compv.toNat - m.block.outputHwCkptCompv) / m.regs.piv.toNat).bodd)
    have apart : m.regs.compv.toNat - m.block.outputHwCkptCompv = edges * old +
        (m.history.edges - (m.history.foldEdges + edges)) * m.regs.piv.toNat := by
      rw [repaced.distance]
      omega
    have split : m.history.edges - m.history.foldEdges =
        edges + (m.history.edges - (m.history.foldEdges + edges)) := by
      omega
    rw [apart, Nat.add_mul_div_right _ _ positive, Nat.bodd_add, repaced.level, split,
      Nat.bodd_add, HotWrite.drift]
    generalize (edges * old / m.regs.piv.toNat).bodd = counted
    generalize (m.history.edges - (m.history.foldEdges + edges)).bodd = later
    cases m.block.outputHwFlopHigh <;> cases drift <;> cases edges.bodd <;> cases counted <;>
      cases later <;> rfl

theorem Drifting.level_at {m : Machine} (drifting : Drifting drift since marks m) :
    LevelAt drift marks m :=
  ⟨.tracked drifting.tracked, drifting.marks⟩

theorem triple_fold_since {m : Machine} (tracked : Tracked drift m.block m.regs m.flop)
    (running : m.freeRunning = true) (same : m.marks = marks) :
    wp edgeSem hwFlopFold (fun _ t => SinceFold drift marks t) m := by
  refine wp_mono ?_ (hw_flop_fold_spec m)
  rintro _ t ⟨before, after, u, fold⟩
  have instant := tracked.ran fold.reached
  have counts : folds m.block := ⟨tracked.positive, .inr tracked.phase⟩
  have memory := congrArg Prod.snd (fold.memory counts)
  have foldEdges : t.history.foldEdges = u.history.edges := memory
  have later := fold.passed.history_edges
  have apart : t.history.edges - t.history.foldEdges = after := by
    rw [foldEdges, later]
    exact Nat.add_sub_cancel_left _ _
  have whole := instant.fold
  obtain ⟨shape, -⟩ := folded_flop_high instant.phase instant.positive instant.ahead
  have moved := fold.passed.block
  constructor
  · rw [moved]
    exact whole.1.phase
  · rw [fold.passed.free_running]
    exact fold.reached.free_running.trans running
  · rw [moved]
    exact whole.1.positive
  · rw [moved, fold.passed.piv]
    exact whole.1.piv
  · rw [foldEdges, later]
    exact Nat.le_add_right _ _
  · have pivSame : (folded u.regs.compv.toNat u.block).outputHwPiv = u.regs.piv.toNat := by
      rw [shape]
      exact instant.piv.symm
    have ckpt : (folded u.regs.compv.toNat u.block).outputHwCkptCompv = u.regs.compv.toNat := by
      rw [shape]
      rfl
    rw [apart, moved, fold.passed.compv]
    change u.regs.compv.toNat + after * u.regs.piv.toNat = _
    rw [pivSame, ckpt]
  · rw [apart, moved, fold.passed.flop]
    change (u.flop ^^ after.bodd) = _
    rw [whole.2, Bool.xor_assoc]
  · exact (fold.passed.marks.trans fold.reached.marks).trans same

end since

def Marks.rewritten (marks : Marks) (write : HotWrite) : Marks :=
  { marks with hotWrites := marks.hotWrites ++ [write] }

/-- The level while a request has made some hot rewrites on top of `writes`. -/
def HotState (since : Bool) (writes : List HotWrite) (m : Machine) : Prop :=
  ∃ rewrites marks, marks.hotWrites = writes ++ rewrites ∧
    LevelAt (since ^^ rewriteDrift rewrites) marks m

def HotDrifting (since : Bool) (writes : List HotWrite) (m : Machine) : Prop :=
  ∃ rewrites marks, marks.hotWrites = writes ++ rewrites ∧
    Drifting (since ^^ rewriteDrift rewrites) since marks m

section rewrites

variable {since : Bool} {marks : Marks} {writes : List HotWrite}

theorem watched_hot_state : Watched (HotState since writes) := by
  rintro n s t ran kept ⟨rewrites, marks, same, level⟩
  exact ⟨rewrites, marks, same, level.ran ran⟩

theorem watched_hot_drifting : Watched (HotDrifting since writes) := by
  rintro n s t ran kept ⟨rewrites, marks, same, drifting⟩
  exact ⟨rewrites, marks, same, watched_drifting n s t ran kept drifting⟩

theorem HotDrifting.hot_state {m : Machine} (hot : HotDrifting since writes m) :
    HotState since writes m := by
  obtain ⟨rewrites, marks, same, drifting⟩ := hot
  exact ⟨rewrites, marks, same, drifting.level_at⟩

theorem SinceFold.hot_drifting {m : Machine} (sinceFold : SinceFold since marks m) :
    HotDrifting since marks.hotWrites m := by
  refine ⟨[], marks, by simp, ?_⟩
  rw [show (since ^^ rewriteDrift []) = since by simp [rewriteDrift]]
  exact sinceFold.drifting

/-- Just before the low word of PIV is written: the high word is the one the
new value has. -/
def SameUpper (piv : Nat) (m : Machine) : Prop :=
  upper32Bits piv = upper32Bits m.block.outputHwPiv

/-- The low word of PIV has been written, the driver has not recorded it yet. -/
def Rewritten (since : Bool) (writes : List HotWrite) (piv : Nat) (m : Machine) : Prop :=
  ∃ edges old marks, marks.hotWrites = writes ++ [.piv edges old piv] ∧
    m.regs.piv.toNat = piv ∧ Repaced since marks edges old m

theorem watched_rewritten {piv : Nat} : Watched (Rewritten since writes piv) := by
  rintro n s t ran kept ⟨edges, old, marks, same, register, repaced⟩
  exact ⟨edges, old, marks, same, by rw [ran.piv, register],
    watched_repaced n s t ran kept repaced⟩

theorem SinceFold.piv_register {m : Machine} (sinceFold : SinceFold since marks m) :
    BitVec.ofNat 64 m.block.outputHwPiv = m.regs.piv := by
  apply BitVec.eq_of_toNat_eq
  rw [← sinceFold.piv, BitVec.toNat_ofNat, Nat.mod_eq_of_lt m.regs.piv.isLt]

/-- Writing an unchanged high word changes nothing; writing the low word sets
the new interval in one step. -/
theorem triple_write_piv_hot {piv : Nat} (positive : piv ≠ 0) (bound : piv < 2 ^ 64) :
    Triple edgeSem (fun m => SinceFold since marks m ∧ SameUpper piv m) (writePiv piv)
      fun _ => Rewritten since marks.hotWrites piv := by
  have watched : Watched fun m => SinceFold since marks m ∧ SameUpper piv m := by
    rintro n s t ran kept ⟨sinceFold, upper⟩
    exact ⟨watched_since_fold n s t ran kept sinceFold, by rw [SameUpper, ran.block]; exact upper⟩
  refine Triple.via (fun _ m => SinceFold since marks m ∧ SameUpper piv m) ?_ fun _ => ?_
  · refine Triple.call watched.stable (fun _ => watched.stable) ?_
    rintro s reply t ⟨sinceFold, upper⟩ step
    cases step
    have same : s.regs.write .piv63_32 (upper32Bits piv) = s.regs := by
      rw [upper, upper32Bits, sinceFold.piv_register]
      simp only [Regs.write, join_words]
    have unchanged : s.writeReg .piv63_32 (upper32Bits piv) = s := by
      simp only [Machine.writeReg, same]
    rw [unchanged]
    exact ⟨sinceFold, upper⟩
  · refine Triple.call watched.stable (fun _ => watched_rewritten.stable) ?_
    rintro s reply t ⟨sinceFold, upper⟩ step
    cases step
    have written : s.regs.write .piv31_0 (lower32Bits piv) =
        { s.regs with piv := BitVec.ofNat 64 piv } := by
      have high : upperWord s.regs.piv = upper32Bits piv := by
        rw [upper, upper32Bits, sinceFold.piv_register]
      simp only [Regs.write, high, upper32Bits, lower32Bits, join_words]
    have value : (BitVec.ofNat 64 piv).toNat = piv := by
      rw [BitVec.toNat_ofNat, Nat.mod_eq_of_lt bound]
    have order := sinceFold.order
    refine ⟨s.history.edges - s.history.foldEdges, s.regs.piv.toNat,
      marks.rewritten (.piv (s.history.edges - s.history.foldEdges) s.regs.piv.toNat piv), rfl,
      by simp only [Machine.writeReg, written, value], ?_⟩
    constructor
    · exact sinceFold.phase
    · exact sinceFold.running
    · simp only [Machine.writeReg, written, value]
      exact positive
    · simp only [Machine.writeReg, sinceFold.running, if_true]
      omega
    · simp only [Machine.writeReg, written, sinceFold.running, if_true, value]
      rw [sinceFold.distance, sinceFold.piv,
        show s.history.edges - (s.history.foldEdges +
          (s.history.edges - s.history.foldEdges)) = 0 by omega]
      omega
    · simp only [Machine.writeReg, sinceFold.running, if_true]
      exact sinceFold.level
    · have same := sinceFold.marks
      rw [← same]
      simp only [Machine.writeReg, Machine.marks, Marks.rewritten, sinceFold.running, if_true,
        written, value]

theorem triple_refresh_piv {piv : U64Result} (bound : ∀ value, piv = .ok value → value < 2 ^ 64) :
    Triple edgeSem (SinceFold since marks) (refreshPiv piv)
      fun _ => HotDrifting since marks.hotWrites := by
  refine Triple.bind watched_since_fold.load fun block => ?_
  rintro s ⟨sinceFold, same⟩
  have unchanged : Triple edgeSem (SinceFold since marks) (pure () : Driver Unit)
      fun _ => HotDrifting since marks.hotWrites :=
    Triple.pure watched_since_fold.stable fun m sinceFold => sinceFold.hot_drifting
  cases piv with
  | error status => exact unchanged s sinceFold
  | ok piv =>
      by_cases rewrite : piv ≠ 0 ∧ piv ≠ block.outputHwPiv ∧
          upper32Bits piv = upper32Bits block.outputHwPiv
      · change wp edgeSem (if _ then _ else _) _ _
        rw [if_pos rewrite]
        refine Triple.bind (triple_write_piv_hot rewrite.1 (bound piv rfl)) (fun _ => ?_) s
          ⟨sinceFold, by rw [SameUpper, same]; exact rewrite.2.2⟩
        refine Triple.call watched_rewritten.stable (fun _ => watched_hot_drifting.stable) ?_
        rintro s reply t ⟨edges, old, marks', same, register, repaced⟩ step
        cases step
        refine ⟨[.piv edges old piv], marks', same, ?_⟩
        have drifting := repaced.drifting
        rw [register] at drifting
        exact drifting
      · change wp edgeSem (if _ then _ else _) _ _
        rw [if_neg rewrite]
        exact unchanged s sinceFold

theorem rewrite_drift_append (rewrites : List HotWrite) (write : HotWrite) :
    rewriteDrift (rewrites ++ [write]) = write.drift := by
  simp [rewriteDrift]

/-- Paused: the compare can be written, and the level has drifted by the edges
between the last fold's look and the pause. -/
structure Paused (drift : Bool) (block : MmioBlock) (regs : Regs) (flop : Bool) : Prop where
  stopped : regs.running = false
  phase : block.outputPhase = .hardwarePeriodic
  positive : block.outputHwPiv ≠ 0
  piv : regs.piv.toNat = block.outputHwPiv
  level : flop = (block.outputHwFlopHigh ^^ drift)

/-- Resumed at `compv`, not yet recorded. -/
def Resumed (drift : Bool) (marks : Marks) (compv : Nat) (m : Machine) : Prop :=
  Tracked drift (checkpointed compv m.block) m.regs m.flop ∧ m.marks = marks

theorem watched_resumed {drift : Bool} {compv : Nat} : Watched (Resumed drift marks compv) := by
  rintro n s t ran kept ⟨tracked, same⟩
  have moved : Ran n { s with block := checkpointed compv s.block }
      { t with block := checkpointed compv t.block } :=
    { ran with block := by rw [ran.block] }
  have moving : Tracked drift (checkpointed compv t.block) t.regs t.flop :=
    Tracked.ran tracked moved
  exact ⟨moving, ran.marks.trans same⟩

theorem triple_pause :
    Triple edgeSem (HotDrifting since writes) readCtl fun ctrl m =>
      HotDrifting since writes m ∧ m.regs.ctl = ctrl := by
  refine Triple.call watched_hot_drifting.stable (fun ctrl => ?_) ?_
  · intro s t step holds
    obtain ⟨n, ran, memory⟩ := edge_rely_ran (.single step)
    exact ⟨watched_hot_drifting n s t ran (congrArg Prod.snd memory) holds.1,
      ran.ctl.trans holds.2⟩
  · intro s reply t hot step
    cases step
    exact ⟨hot, rfl⟩

theorem triple_clear_pm (ctrl : BitVec 32) :
    Triple edgeSem (fun m => HotDrifting since writes m ∧ m.regs.ctl = ctrl)
      (writeCtl (ctlWithout ctrl ctlPm)) fun _ m =>
        ∃ rewrites edges marks block regs flop,
          marks.hotWrites = writes ++ (rewrites ++ [.pause edges]) ∧
          (hasEn ctrl && hasPm ctrl) = true ∧
          Paused (since ^^ edges.bodd) block regs flop ∧ At block regs flop marks m := by
  refine Triple.call ?_ (fun _ => ?_) ?_
  · intro s t step holds
    obtain ⟨n, ran, memory⟩ := edge_rely_ran (.single step)
    exact ⟨watched_hot_drifting n s t ran (congrArg Prod.snd memory) holds.1,
      ran.ctl.trans holds.2⟩
  · rintro s t step ⟨rewrites, edges, marks, block, regs, flop, same, wasRunning, paused, at_⟩
    exact ⟨rewrites, edges, marks, block, regs, flop, same, wasRunning, paused,
      stable_at paused.stopped s t step at_⟩
  · rintro s reply t ⟨⟨rewrites, marks, same, drifting⟩, read⟩ step
    cases step
    have runs : (hasEn ctrl && hasPm ctrl) = true := by
      rw [← read]
      exact drifting.running
    have enabled : hasEn ctrl = true := (Bool.and_eq_true_iff.mp runs).1
    refine ⟨rewrites, s.history.edges - s.history.foldEdges,
      marks.rewritten (.pause (s.history.edges - s.history.foldEdges)), s.block,
      { s.regs with ctl := ctlWithout ctrl ctlPm }, s.flop, ?_, runs, ?_, rfl, rfl, rfl, ?_⟩
    · simp only [Marks.rewritten, same, List.append_assoc]
    · refine ⟨running_of_unpaced (by simp), drifting.tracked.phase, drifting.tracked.positive,
        drifting.tracked.piv, ?_⟩
      rw [← Bool.xor_assoc]
      exact drifting.level
    · rw [← drifting.marks]
      have running := drifting.running
      simp [Machine.writeReg, Machine.marks, Machine.writeCtlHistory, Marks.rewritten, enabled,
        running]

/-- A paused rewrite resets the count: what the compare had counted since the
last fold's look is forgotten. -/
theorem triple_write_compv_paused {compv : Nat} (bound : compv < 2 ^ 64) :
    Triple edgeSem (HotDrifting since writes) (hwPeriodicWriteCompvPaused compv)
      fun _ => HotState since writes := by
  refine Triple.bind triple_pause fun ctrl => ?_
  refine Triple.bind (triple_clear_pm ctrl) fun _ => ?_
  rintro s ⟨rewrites, edges, marks, block, regs, flop, same, runs, paused, at_⟩
  have value : (BitVec.ofNat 64 compv).toNat = compv := by
    rw [BitVec.toNat_ofNat, Nat.mod_eq_of_lt bound]
  have stopped : Regs.running { regs with compv := BitVec.ofNat 64 compv } = false :=
    paused.stopped
  refine Triple.bind (triple_write_compv compv paused.stopped) (fun _ => ?_) s at_
  refine Triple.via (fun _ => Resumed (since ^^ edges.bodd) marks compv) ?_ fun _ => ?_
  · refine Triple.call (stable_at stopped) (fun _ => watched_resumed.stable) ?_
    intro s reply t at_ step
    cases step
    have parts := s.write_reg_parts .ctl ctrl
    constructor
    · rw [parts.1, parts.2.1, parts.2.2, at_.block, at_.regs, at_.flop]
      refine ⟨paused.phase, paused.positive, paused.piv, value.ge, ?_⟩
      change flop = (block.outputHwFlopHigh ^^ (since ^^ edges.bodd) ^^
        (((BitVec.ofNat 64 compv).toNat - compv) / block.outputHwPiv).bodd)
      rw [value, paused.level]
      simp
    · rw [← at_.marks]
      have paced : (hasEn ctrl && !hasPm ctrl) = false := by
        cases en : hasEn ctrl <;> simp_all
      simp [Machine.writeReg, Machine.marks, Machine.writeCtlHistory, paced]
  · refine Triple.call watched_resumed.stable (fun _ => watched_hot_state.stable) ?_
    rintro s reply t ⟨tracked, same'⟩ step
    cases step
    refine ⟨rewrites ++ [HotWrite.pause edges], marks, same, ?_, same'⟩
    rw [rewrite_drift_append]
    exact .tracked tracked

theorem HotState.neutral_store {update : MmioBlock → MmioBlock} (neutral : LevelNeutral update) :
    Triple edgeSem (HotState since writes) (storeBlock update) fun _ => HotState since writes := by
  refine Triple.call watched_hot_state.stable (fun _ => watched_hot_state.stable) ?_
  rintro s reply t ⟨rewrites, marks, same, level⟩ step
  cases step
  exact ⟨rewrites, marks, same, level.1.neutral neutral, level.2⟩

theorem triple_nudge_phase (desired : OutputDesired) (phase : HwPhase) :
    Triple edgeSem (HotDrifting since writes) (nudgePhase desired phase)
      fun _ => HotState since writes := by
  have leave : Triple edgeSem (HotDrifting since writes) (pure () : Driver Unit)
      fun _ => HotState since writes :=
    Triple.pure watched_hot_drifting.stable fun m hot => hot.hot_state
  unfold nudgePhase
  split
  · rintro s ⟨rewrites, marks, same, drifting⟩
    refine wp_mono ?_ (triple_reconcile_arm desired s drifting.level_at)
    exact fun _ t rested => ⟨rewrites, marks, same, rested.level_at⟩
  refine Triple.bind (triple_sample _ watched_hot_drifting.stable) fun tolerance => ?_
  suffices drifting : Triple edgeSem (HotDrifting since writes) _ fun _ => HotState since writes from
    drifting.conseq (fun m holds => holds.1) fun _ _ hot => hot
  split
  · exact leave
  split
  · exact leave
  refine Triple.bind (triple_sample _ watched_hot_drifting.stable) fun nudgedArt => ?_
  rintro s ⟨hot, clocks, params, converted⟩
  cases nudgedArt with
  | error status => exact leave s hot
  | ok nudgedArt =>
      refine Triple.bind (triple_write_compv_paused (clock_ns_to_compare_art_lt converted.symm))
        (fun _ => ?_) s hot
      exact HotState.neutral_store fun block => ⟨rfl, rfl, rfl, rfl⟩

theorem triple_correct_phase (desired : OutputDesired) :
    Triple edgeSem (HotDrifting since writes) (correctPhase desired)
      fun _ => HotState since writes := by
  refine Triple.bind (watched_hot_drifting.looking
    (hw_periodic_phase_get_uses looks_reading _ _)) fun phase => ?_
  cases phase with
  | error status =>
      exact Triple.pure watched_hot_drifting.stable fun m hot => hot.hot_state
  | ok phase => exact triple_nudge_phase desired phase

structure Running (drift : Bool) (marks : Marks) (m : Machine) : Prop where
  tracked : Tracked drift m.block m.regs m.flop
  running : m.freeRunning = true
  marks : m.marks = marks

theorem watched_running {drift : Bool} : Watched (Running drift marks) :=
  fun _ _ _ ran _ running => ⟨running.tracked.ran ran, ran.free_running.trans running.running,
    ran.marks.trans running.marks⟩

theorem triple_fold_running {drift : Bool} :
    Triple edgeSem (Running drift marks) hwFlopFold fun _ => SinceFold drift marks :=
  fun _ running => triple_fold_since running.tracked running.running running.marks

theorem triple_apply_freq (desired : OutputDesired) :
    Triple edgeSem (Running since marks) (hwPeriodicApplyFreq desired)
      fun _ => HotState since marks.hotWrites := by
  refine Triple.bind watched_running.load fun block => ?_
  suffices running : Triple edgeSem (Running since marks) _ fun _ => HotState since marks.hotWrites from
    running.conseq (fun m holds => holds.1) fun _ _ hot => hot
  refine Triple.bind (triple_sample _ watched_running.stable) fun piv => ?_
  rintro s ⟨running, clocks, params, converted⟩
  have bound (value : Nat) (ok : piv = .ok value) : value < 2 ^ 64 :=
    clock_delta_to_art_cycles_lt (converted.symm.trans ok)
  refine Triple.bind triple_fold_running (fun _ => ?_) s running
  refine Triple.bind (triple_refresh_piv bound) fun _ => ?_
  exact triple_correct_phase desired

theorem triple_shift_half_period :
    Triple edgeSem (Running since marks) shiftHalfPeriod
      fun _ => HotState since marks.hotWrites := by
  refine Triple.bind (watched_running.looking (await_safe_edge_uses looks_reading 50)) fun _ => ?_
  refine Triple.bind triple_fold_running fun _ => ?_
  refine Triple.bind (watched_since_fold.looking (read_compv_uses looks_reading)) fun compv => ?_
  refine Triple.bind watched_since_fold.load fun block => ?_
  rintro s ⟨sinceFold, same⟩
  split
  · exact Triple.pure watched_since_fold.stable
      (fun m sinceFold => sinceFold.hot_drifting.hot_state) s sinceFold
  · rename_i fits
    have pivBound : block.outputHwPiv < 2 ^ 64 := by
      rw [← same, ← sinceFold.piv]
      exact s.regs.piv.isLt
    have bound : compv + block.outputHwPiv < 2 ^ 64 := by
      unfold u64Max at fits
      omega
    exact triple_write_compv_paused bound s sinceFold.hot_drifting

/-- Inverting the belief adds one to the drift; the shift is a rewrite like the
others. -/
theorem triple_invert {drift : Bool} :
    Triple edgeSem (Running drift marks) hwPeriodicInvert
      fun _ => HotState (!drift) marks.hotWrites := by
  refine Triple.via (fun _ => Running (!drift) marks) ?_ fun _ => ?_
  · refine Triple.call watched_running.stable (fun _ => watched_running.stable) ?_
    intro s reply t running step
    cases step
    refine ⟨{ running.tracked with level := ?_ }, running.running, running.marks⟩
    have level := running.tracked.level
    simp only [inverted, level, Bool.not_xor, Bool.xor_not, Bool.not_not]
  refine Triple.via (fun _ => Running (!drift) marks) ?_ fun _ => ?_
  · refine Triple.call watched_running.stable (fun _ => watched_running.stable) ?_
    intro s reply t running step
    cases step
    exact ⟨running.tracked, running.running, running.marks⟩
  refine Triple.bind watched_running.load fun block => ?_
  rintro s ⟨running, same⟩
  have phase : block.outputPhase = .hardwarePeriodic := by
    rw [← same]
    exact running.tracked.phase
  have positive : block.outputHwPiv ≠ 0 := by
    rw [← same]
    exact running.tracked.positive
  rw [if_neg (by simp [phase]), if_neg (by simp [phase, positive])]
  exact triple_shift_half_period s running

end rewrites

/-- The level a fold has seen; a stopped level does not move. -/
def Machine.foldedLevel (m : Machine) : Bool :=
  if m.freeRunning then m.history.seen.flop else m.flop

/-- The next fold settles the mirror up to the drift of the last rewrite. -/
theorem fold_settles {drift : Bool} {marks : Marks} :
    Triple edgeSem (LevelAt drift marks) hwFlopFold
      fun _ m => m.foldedLevel = (m.block.outputHwFlopHigh ^^ drift) := by
  intro s level
  refine wp_mono ?_ (hw_flop_fold_spec s)
  rintro _ t ⟨before, after, u, fold⟩
  have instant := (level.ran fold.reached).1.fold
  have mirror : t.block.outputHwFlopHigh =
      (folded u.regs.compv.toNat u.block).outputHwFlopHigh := by
    rw [fold.passed.block]
  have same : t.freeRunning = u.freeRunning := fold.passed.free_running
  by_cases running : t.freeRunning = true
  · have counts : folds s.block := by
      have tracked := level.1
      cases tracked with
      | tracked tracked => exact ⟨tracked.positive, .inr tracked.phase⟩
      | settled settled =>
          have stopped : s.freeRunning = false := settled.stopped
          rw [same, fold.reached.free_running, stopped] at running
          contradiction
    have seen : t.history.seen = u.look := congrArg Prod.fst (fold.memory counts)
    rw [Machine.foldedLevel, if_pos running, seen, mirror]
    exact instant.2
  · have stopped : u.freeRunning = false := by
      rw [← same]
      simpa using running
    have still := fold.passed.still stopped
    rw [Machine.foldedLevel, if_neg running, mirror, still.2]
    exact instant.2

/-- The requests served by rewrites of a running symmetric waveform. -/
inductive HotRequest where
  | freq (desired : OutputDesired)
  | invert

def HotRequest.program : HotRequest → Driver Unit
  | .freq desired => hwPeriodicApplyFreq desired
  | .invert => hwPeriodicInvert

/-- An invert request asks for the opposite belief. -/
def HotRequest.negates : HotRequest → Bool
  | .freq _ => false
  | .invert => true

theorem hot_request_spec (request : HotRequest) {marks : Marks} :
    Triple edgeSem (Running false marks) request.program
      fun _ => HotState request.negates marks.hotWrites := by
  cases request with
  | freq desired => exact triple_apply_freq desired
  | invert => exact triple_invert

/-- A frequency refresh or a polarity request leaves the mirror right, once the
next fold has run, exactly when its last hot rewrite loses no parity: an even
number of edges between the fold's look and a pause, or a number of edges that
keeps its parity when their old intervals are divided by the new one. -/
theorem hot_rewrites_keep_parity_iff (request : HotRequest) (first rewritten last : Machine)
    (correct : Tracked false first.block first.regs first.flop)
    (running : first.freeRunning = true)
    (rewrite : Executes edgeSem request.program first () rewritten)
    (fold : Executes edgeSem hwFlopFold rewritten () last) :
    ∃ rewrites, rewritten.history.hotWrites = first.history.hotWrites ++ rewrites ∧
      (last.block.outputHwFlopHigh = (last.foldedLevel ^^ request.negates) ↔
        ∀ write ∈ rewrites.getLast?, write.harmless) := by
  obtain ⟨rewrites, marks, same, level⟩ :=
    wp_executes (hot_request_spec request first ⟨correct, running, rfl⟩) rewrite
  refine ⟨rewrites, ?_, ?_⟩
  · rw [← level.2] at same
    exact same
  · have settled := wp_executes (fold_settles rewritten level) fold
    rw [← rewrite_drift_false_iff, settled]
    cases last.block.outputHwFlopHigh <;> cases request.negates <;>
      cases rewriteDrift rewrites <;> decide

section oneRewrite

def slowedBlock : Machine :=
  { armedBlock with
    clocks :=
      { steadyClocks 1000000000 billion_in_range with
        phc := phcParamsMake 0 0 1200000000 0
        anchorInRange := by decide } }

def refreshRequest : OutputDesired :=
  ⟨0, 1, 1, .running, .hardware, 1000000000, 500000000, 500000000, 1100000000⟩

def rewrittenBlock (request : HotRequest) (moves : List (Machine → Machine)) : Machine :=
  finalState Machine.perform 200 moves request.program slowedBlock

def refoldedBlock (request : HotRequest) (moves : List (Machine → Machine)) : Machine :=
  finalState Machine.perform 200 [] hwFlopFold (rewrittenBlock request moves)

def edgeBeforePiv : List (Machine → Machine) := List.replicate 9 id ++ [.edgeMove]

/-- An edge before the fold's look, and one after the write of PIV. -/
def edgesAroundPiv : List (Machine → Machine) := .edgeMove :: List.replicate 12 id ++ [.edgeMove]

/-- An edge before the fold's look, and two between it and the pause. -/
def edgesBeforePause : List (Machine → Machine) :=
  .edgeMove :: List.replicate 16 id ++ [.edgeMove, .edgeMove]

theorem slowed_block_tracked :
    Tracked false slowedBlock.block slowedBlock.regs slowedBlock.flop := by
  constructor <;> decide +kernel

theorem rewritten_block_executes (request : HotRequest) (moves : List (Machine → Machine))
    (simple : ∀ move ∈ moves, move = id ∨ move = Machine.edgeMove)
    (ends : ((exec Machine.perform 200 moves request.program slowedBlock).map Prod.fst) = some ())
    (folds : ((exec Machine.perform 200 [] hwFlopFold (rewrittenBlock request moves)).map Prod.fst) =
      some ()) :
    Executes edgeSem request.program slowedBlock () (rewrittenBlock request moves) ∧
      Executes edgeSem hwFlopFold (rewrittenBlock request moves) () (refoldedBlock request moves) :=
  ⟨exec_final (fun _ _ _ _ step => step) 200 moves (edge_moves_rely simple) _ _ _ ends,
    exec_final (fun _ _ _ _ step => step) 200 [] (by simp) _ _ _ folds⟩

theorem hot_rewrites_keep_parity_iff_edges :
    (refoldedBlock (.freq refreshRequest) edgesAroundPiv).block.outputHwFlopHigh =
        (refoldedBlock (.freq refreshRequest) edgesAroundPiv).foldedLevel ∧
      (refoldedBlock .invert edgesBeforePause).block.outputHwFlopHigh =
        !(refoldedBlock .invert edgesBeforePause).foldedLevel := by
  have settled (request : HotRequest) (moves : List (Machine → Machine)) (write : HotWrite)
      (run : Executes edgeSem request.program slowedBlock () (rewrittenBlock request moves) ∧
        Executes edgeSem hwFlopFold (rewrittenBlock request moves) () (refoldedBlock request moves))
      (known : (rewrittenBlock request moves).history.hotWrites = [write])
      (harmless : write.harmless) :
      (refoldedBlock request moves).block.outputHwFlopHigh =
        ((refoldedBlock request moves).foldedLevel ^^ request.negates) := by
    obtain ⟨rewrites, same, settles⟩ := hot_rewrites_keep_parity_iff request slowedBlock _ _
      slowed_block_tracked (by decide +kernel) run.1 run.2
    have none : slowedBlock.history.hotWrites = [] := by decide +kernel
    have only : rewrites = [write] := by
      rw [known, none] at same
      exact same.symm
    subst only
    exact settles.mpr (by simpa using harmless)
  constructor
  · have same := settled (.freq refreshRequest) edgesAroundPiv (.piv 0 500000000 600000000)
      (rewritten_block_executes _ _ (by simp [edgesAroundPiv]) (by decide +kernel)
        (by decide +kernel)) (by decide +kernel) (by simp [HotWrite.harmless])
    simpa [HotRequest.negates] using same
  · have same := settled .invert edgesBeforePause (.pause 2)
      (rewritten_block_executes _ _ (by simp [edgesBeforePause]) (by decide +kernel)
        (by decide +kernel)) (by decide +kernel) (by simp [HotWrite.harmless])
    simpa [HotRequest.negates] using same

/-- An edge between the fold's look and a longer PIV is lost. -/
theorem freq_rewrite_loses_edge :
    ∃ first rewritten last, Tracked false first.block first.regs first.flop ∧
      first.freeRunning = true ∧
      Executes edgeSem (hwPeriodicApplyFreq refreshRequest) first () rewritten ∧
      Executes edgeSem hwFlopFold rewritten () last ∧
      last.block.outputHwFlopHigh ≠ last.foldedLevel := by
  obtain ⟨rewrite, fold⟩ := rewritten_block_executes (.freq refreshRequest) edgeBeforePiv
    (by simp [edgeBeforePiv]) (by decide +kernel) (by decide +kernel)
  exact ⟨slowedBlock, rewrittenBlock (.freq refreshRequest) edgeBeforePiv,
    refoldedBlock (.freq refreshRequest) edgeBeforePiv, slowed_block_tracked, by decide +kernel,
    rewrite, fold, by decide +kernel⟩

end oneRewrite

end Tgpio

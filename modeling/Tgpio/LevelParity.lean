import Tgpio.LevelTracking

/-!
# The parity of the level mirror

The level flop cannot be read, so the driver counts: the mirror is the level at
the checkpoint, and COMPV has advanced by PIV for every edge since. `Level`
says how the mirror, the checkpoint and the registers determine the flop, up to
a drift that the operations here keep.
-/

namespace Tgpio

open Interference Interference.Prog

set_option autoImplicit false

/-- The engine counts: the whole intervals since the checkpoint have the parity
that the flop and the mirror differ by. -/
structure Tracked (drift : Bool) (block : MmioBlock) (regs : Regs) (flop : Bool) : Prop where
  phase : block.outputPhase = .hardwarePeriodic
  positive : block.outputHwPiv ≠ 0
  piv : regs.piv.toNat = block.outputHwPiv
  ahead : block.outputHwCkptCompv ≤ regs.compv.toNat
  level : flop = (block.outputHwFlopHigh ^^ drift ^^
    ((regs.compv.toNat - block.outputHwCkptCompv) / block.outputHwPiv).bodd)

/-- The engine is stopped, and a fold finds nothing to count. -/
structure Settled (drift : Bool) (block : MmioBlock) (regs : Regs) (flop : Bool) : Prop where
  stopped : regs.running = false
  counted : ¬folds block ∨
    (block.outputPhase = .hardwarePeriodic ∧ regs.compv.toNat ≤ block.outputHwCkptCompv)
  level : flop = (block.outputHwFlopHigh ^^ drift)

inductive Level (drift : Bool) (block : MmioBlock) (regs : Regs) (flop : Bool) : Prop where
  | tracked : Tracked drift block regs flop → Level drift block regs flop
  | settled : Settled drift block regs flop → Level drift block regs flop

def LevelAt (drift : Bool) (marks : Marks) (m : Machine) : Prop :=
  Level drift m.block m.regs m.flop ∧ m.marks = marks

section parity

variable {drift : Bool} {marks : Marks}

theorem Tracked.ran {n : Nat} {s t : Machine} (tracked : Tracked drift s.block s.regs s.flop)
    (ran : Ran n s t) : Tracked drift t.block t.regs t.flop := by
  have positive : 0 < s.block.outputHwPiv := Nat.pos_of_ne_zero tracked.positive
  have ahead := tracked.ahead
  have grown : t.regs.compv.toNat - s.block.outputHwCkptCompv =
      s.regs.compv.toNat - s.block.outputHwCkptCompv + s.block.outputHwPiv * n := by
    rw [ran.compv, tracked.piv, Nat.mul_comm n]
    omega
  constructor
  · rw [ran.block, tracked.phase]
  · rw [ran.block]
    exact tracked.positive
  · rw [ran.block, ran.piv, tracked.piv]
  · rw [ran.block]
    exact ahead.trans ran.compv_mono
  · rw [ran.block, grown, Nat.add_mul_div_left _ _ positive, Nat.bodd_add, ran.flop,
      tracked.level, Bool.xor_assoc, Bool.xor_assoc]

theorem LevelAt.ran {n : Nat} {s t : Machine} (level : LevelAt drift marks s) (ran : Ran n s t) :
    LevelAt drift marks t := by
  refine ⟨?_, ran.marks.trans level.2⟩
  cases level.1 with
  | tracked tracked => exact .tracked (tracked.ran ran)
  | settled settled =>
      have still := ran.still settled.stopped
      refine .settled ?_
      rw [ran.block, still.1, still.2]
      exact settled

/-- Tracked, with whole intervals only since the checkpoint. -/
structure Exact (drift : Bool) (marks : Marks) (m : Machine) : Prop where
  tracked : Tracked drift m.block m.regs m.flop
  divides : m.block.outputHwPiv ∣ m.regs.compv.toNat - m.block.outputHwCkptCompv
  marks : m.marks = marks

theorem Exact.ran {n : Nat} {s t : Machine} (exact_ : Exact drift marks s) (ran : Ran n s t) :
    Exact drift marks t := by
  refine ⟨exact_.tracked.ran ran, ?_, ran.marks.trans exact_.marks⟩
  have ahead := exact_.tracked.ahead
  have grown : t.regs.compv.toNat - s.block.outputHwCkptCompv =
      s.regs.compv.toNat - s.block.outputHwCkptCompv + s.block.outputHwPiv * n := by
    rw [ran.compv, exact_.tracked.piv, Nat.mul_comm n]
    omega
  rw [ran.block, grown]
  exact Nat.dvd_add exact_.divides (Nat.dvd_mul_right _ _)

theorem stable_exact : Stable edgeSem (Exact drift marks) := by
  intro s t step exact_
  obtain ⟨_, ran, -⟩ := edge_rely_ran (.single step)
  exact exact_.ran ran

theorem stable_level : Stable edgeSem (LevelAt drift marks) := by
  intro s t step level
  obtain ⟨_, ran, -⟩ := edge_rely_ran (.single step)
  exact level.ran ran

theorem folded_flop_high {compv : Nat} {block : MmioBlock}
    (phase : block.outputPhase = .hardwarePeriodic) (positive : block.outputHwPiv ≠ 0)
    (ahead : block.outputHwCkptCompv ≤ compv) :
    folded compv block = foldPeriodic compv block ∧
      (folded compv block).outputHwFlopHigh = (block.outputHwFlopHigh ^^
        ((compv - block.outputHwCkptCompv) / block.outputHwPiv).bodd) := by
  have shape : folded compv block = foldPeriodic compv block := by
    rw [folded, if_neg positive, if_neg (by simp [phase]), if_pos phase, if_neg (by omega)]
  refine ⟨shape, ?_⟩
  rw [shape]
  simp only [foldPeriodic, Nat.mod_two_of_bodd]
  cases ((compv - block.outputHwCkptCompv) / block.outputHwPiv).bodd <;> simp

/-- A fold moves the checkpoint and accounts for every edge up to it. -/
theorem Tracked.fold {block : MmioBlock} {regs : Regs} {flop : Bool}
    (tracked : Tracked drift block regs flop) :
    Tracked drift (folded regs.compv.toNat block) regs flop ∧
      flop = ((folded regs.compv.toNat block).outputHwFlopHigh ^^ drift) := by
  obtain ⟨shape, high⟩ := folded_flop_high tracked.phase tracked.positive tracked.ahead
  have level : flop = ((folded regs.compv.toNat block).outputHwFlopHigh ^^ drift) := by
    rw [high, tracked.level, Bool.xor_assoc, Bool.xor_assoc, Bool.xor_comm drift]
  refine ⟨?_, level⟩
  constructor
  · rw [shape]
    exact tracked.phase
  · rw [shape]
    exact tracked.positive
  · rw [shape]
    exact tracked.piv
  · rw [shape]
    exact le_refl _
  · rw [level, high, shape]
    simp [foldPeriodic]

theorem Settled.fold {block : MmioBlock} {regs : Regs} {flop : Bool}
    (settled : Settled drift block regs flop) :
    Settled drift (folded regs.compv.toNat block) regs flop := by
  rcases settled.counted with rest | ⟨phase, behind⟩
  · rw [folded_of_not_folds rest]
    exact settled
  by_cases zero : block.outputHwPiv = 0
  · rw [folded_of_not_folds fun folds => folds.1 zero]
    exact settled
  by_cases equal : regs.compv.toNat = block.outputHwCkptCompv
  · obtain ⟨shape, high⟩ := folded_flop_high phase zero equal.ge
    refine ⟨settled.stopped, .inr ?_, ?_⟩
    · rw [shape]
      exact ⟨phase, le_refl _⟩
    · rw [high, equal, settled.level]
      simp
  · have unchanged : folded regs.compv.toNat block = block := by
      rw [folded, if_neg zero, if_neg (by simp [phase]), if_pos phase, if_pos (by omega)]
    rw [unchanged]
    exact settled

/-- While the engine is stopped a fold settles the mirror. -/
theorem Level.fold {block : MmioBlock} {regs : Regs} {flop : Bool}
    (level : Level drift block regs flop) :
    Level drift (folded regs.compv.toNat block) regs flop ∧
      flop = ((folded regs.compv.toNat block).outputHwFlopHigh ^^ drift) := by
  cases level with
  | tracked tracked => exact ⟨.tracked tracked.fold.1, tracked.fold.2⟩
  | settled settled => exact ⟨.settled settled.fold, settled.fold.level⟩

theorem triple_fold_level :
    Triple edgeSem (LevelAt drift marks) hwFlopFold fun _ => LevelAt drift marks := by
  intro s level
  refine wp_mono ?_ (hw_flop_fold_spec s)
  rintro _ t ⟨before, after, u, fold⟩
  have instant := level.ran fold.reached
  have counted : LevelAt drift marks { u with block := folded u.regs.compv.toNat u.block } :=
    ⟨instant.1.fold.1, instant.2⟩
  exact counted.ran fold.passed

end parity

/-- Not free-running and nothing to fold: the mirror is the flop, up to drift. -/
structure Rested (drift : Bool) (marks : Marks) (m : Machine) : Prop where
  stopped : m.regs.running = false
  idle : m.block.outputHwPiv = 0
  level : m.flop = (m.block.outputHwFlopHigh ^^ drift)
  marks : m.marks = marks

section operations

variable {drift : Bool} {marks : Marks}

theorem Rested.level_at {m : Machine} (rested : Rested drift marks m) : LevelAt drift marks m :=
  ⟨.settled ⟨rested.stopped, .inl fun folds => folds.1 rested.idle, rested.level⟩, rested.marks⟩

theorem rested_of_at {block : MmioBlock} {regs : Regs} {flop : Bool} {m : Machine}
    (at_ : At block regs flop marks m) (stopped : regs.running = false) (idle : block.outputHwPiv = 0)
    (level : flop = (block.outputHwFlopHigh ^^ drift)) : Rested drift marks m :=
  ⟨by rw [at_.regs, stopped], by rw [at_.block, idle], by rw [at_.flop, at_.block, level],
    at_.marks⟩

theorem Rested.ran {n : Nat} {s t : Machine} (rested : Rested drift marks s) (ran : Ran n s t) :
    Rested drift marks t := by
  have still := ran.still rested.stopped
  refine ⟨?_, ?_, ?_, ran.marks.trans rested.marks⟩
  · rw [still.1, rested.stopped]
  · rw [ran.block, rested.idle]
  · rw [still.2, ran.block, rested.level]

theorem stable_rested : Stable edgeSem (Rested drift marks) := by
  intro s t step rested
  obtain ⟨_, ran, -⟩ := edge_rely_ran (.single step)
  exact rested.ran ran

theorem Level.stopped {block : MmioBlock} {regs : Regs} {flop : Bool} {ctl : BitVec 32}
    (level : Level drift block regs flop) (off : hasEn ctl = false) :
    Level drift block { regs with ctl } flop := by
  cases level with
  | tracked tracked => exact .tracked { tracked with }
  | settled settled => exact .settled { settled with stopped := running_of_disabled off }

/-- Every stop begins the same way: read the control, clear EN. From there on
nothing moves. -/
theorem triple_stop_engine {α : Type} {rest : BitVec 32 → Driver α} {post : α → Machine → Prop}
    (continues : ∀ ctrl block regs flop, regs.ctl = ctlWithout ctrl ctlEn →
      Level drift block regs flop → Triple edgeSem (At block regs flop marks) (rest ctrl) post) :
    Triple edgeSem (LevelAt drift marks)
      (do
        let ctrl ← readCtl
        writeCtl (ctlWithout ctrl ctlEn)
        rest ctrl)
      post := by
  refine Triple.via (fun _ => LevelAt drift marks) ?_ fun ctrl => ?_
  · refine Triple.call stable_level (fun _ => stable_level) ?_
    intro s reply t level step
    cases step
    exact level
  · have off : hasEn (ctlWithout ctrl ctlEn) = false := by simp
    refine Triple.via (fun _ m => ∃ block regs flop, regs.ctl = ctlWithout ctrl ctlEn ∧
      Level drift block regs flop ∧ At block regs flop marks m) ?_ fun _ => ?_
    · refine Triple.call stable_level (fun _ => ?_) ?_
      · rintro s t step ⟨block, regs, flop, ctl, level, at_⟩
        exact ⟨block, regs, flop, ctl, level,
          stable_at (running_of_disabled (by rw [ctl, off])) s t step at_⟩
      · intro s reply t level step
        cases step
        refine ⟨s.block, { s.regs with ctl := ctlWithout ctrl ctlEn }, s.flop, rfl,
          Level.stopped level.1 off, rfl, rfl, rfl, ?_⟩
        rw [← level.2]
        simp [Machine.writeReg, Machine.marks, Machine.writeCtlHistory]
    · rintro s ⟨block, regs, flop, ctl, level, at_⟩
      exact continues ctrl block regs flop ctl level s at_

/-- Stopping settles the mirror: an edge before the stop is folded, none can
come after it. -/
theorem triple_disable_output_hw :
    Triple edgeSem (LevelAt drift marks) disableOutputHw
      fun _ m => Rested drift marks m ∧ hasEn m.regs.ctl = false := by
  refine triple_stop_engine fun ctrl block regs flop ctl level => ?_
  have off : hasEn regs.ctl = false := by simp [ctl]
  refine Triple.post (triple_disable_tail ctrl off) ?_
  intro _ m at_
  refine ⟨rested_of_at at_ (cleared_running _ (by simp)) rfl level.fold.2, ?_⟩
  rw [at_.regs]
  simp [clearedRegs]

theorem triple_stop_for_rearm :
    Triple edgeSem (LevelAt drift marks) stopForRearm fun ctrl m => ∃ block flop,
      hasEn ctrl = false ∧ hasPm ctrl = false ∧ flop = (block.outputHwFlopHigh ^^ drift) ∧
        Level drift block (clearedRegs ctrl) flop ∧ At block (clearedRegs ctrl) flop marks m := by
  refine triple_stop_engine fun ctrl block regs flop ctl level => ?_
  have off : hasEn regs.ctl = false := by simp [ctl]
  have stopped : regs.running = false := running_of_disabled off
  have cleared : hasEn (ctlWithout (ctlWithout ctrl ctlEn) (ctlDir ||| ctlEp ||| ctlPm)) = false :=
    by simp
  refine Triple.bind (triple_fold stopped) fun _ => ?_
  refine Triple.bind (triple_write_compv 0 stopped) fun _ => ?_
  refine Triple.bind (triple_write_piv 0 stopped) fun _ => ?_
  refine Triple.bind (triple_writel .ctl _ stopped (running_of_disabled cleared)) fun _ => ?_
  refine Triple.pure (stable_at (running_of_disabled cleared)) ?_
  intro m at_
  refine ⟨_, _, cleared, by simp, level.fold.2, .settled ?_, at_⟩
  refine ⟨running_of_disabled cleared, ?_, level.fold.2⟩
  cases level.fold.1 with
  | tracked tracked => exact .inr ⟨tracked.phase, Nat.zero_le _⟩
  | settled settled =>
      rcases settled.counted with rest | ⟨phase, -⟩
      · exact .inl rest
      · exact .inr ⟨phase, Nat.zero_le _⟩

section parts

variable {block : MmioBlock} {regs : Regs} {flop : Bool}

theorem triple_sample {α : Type} {pre : Machine → Prop} (read : Params → Clocks → α)
    (stable : Stable edgeSem pre) :
    Triple edgeSem pre (sample read) fun value m => pre m ∧ ∃ clocks params,
      value = read params clocks := by
  refine Triple.call stable (fun value => ?_) ?_
  · intro s t step holds
    exact ⟨stable s t step holds.1, holds.2⟩
  · intro s reply t holds step
    cases step
    exact ⟨holds, s.clocks, s.params, rfl⟩

/-- An edge program on a block that is not free-running keeps it so. -/
theorem triple_program_output_edge (edgeTime : Int) (edgeBits : BitVec 32)
    (mode : hasEn edgeBits = false ∧ hasPm edgeBits = false) (stopped : regs.running = false) :
    Triple edgeSem (At block regs flop marks) (programOutputEdge edgeTime edgeBits) fun status m =>
      ∃ regs', (isOk status = false → regs' = regs) ∧ hasEn regs'.ctl = hasEn regs.ctl ∧
        hasPm regs'.ctl = hasPm regs.ctl ∧ At block regs' flop marks m := by
  refine Triple.bind (triple_sample _ (stable_at stopped)) fun art => ?_
  rintro s ⟨at_, -⟩
  revert s
  cases art with
  | error status =>
      exact Triple.pure (stable_at stopped) fun m at_ => ⟨regs, fun _ => rfl, rfl, rfl, at_⟩
  | ok art =>
      have programmed : ∀ ctrl, ctrl = regs.ctl →
          hasEn (ctlWith (ctlWithout ctrl ctlEp) edgeBits) = hasEn regs.ctl ∧
            hasPm (ctlWith (ctlWithout ctrl ctlEp) edgeBits) = hasPm regs.ctl := by
        rintro ctrl rfl
        simp [mode]
      refine Triple.bind (triple_read_ctl stopped) fun ctrl => ?_
      rintro s ⟨read, at_⟩
      revert s
      have modes := programmed ctrl read
      have rests (compv : BitVec 64) :
          Regs.running ⟨ctlWith (ctlWithout ctrl ctlEp) edgeBits, compv, regs.piv⟩ = false := by
        simpa only [Regs.running, modes.1, modes.2] using stopped
      by_cases toggle : edgeBits = ctlEpToggle
      · change Triple edgeSem _ (if edgeBits = ctlEpToggle then _ else _) _
        rw [if_pos toggle]
        refine Triple.bind (triple_write_compv art stopped) fun _ => ?_
        refine Triple.bind (triple_writel .ctl _ stopped (rests _)) fun _ => ?_
        refine Triple.pure (stable_at (rests _)) ?_
        intro m at_
        exact ⟨⟨_, _, _⟩, fun failed => (by cases failed), modes.1, modes.2, at_⟩
      · change Triple edgeSem _ (if edgeBits = ctlEpToggle then _ else _) _
        rw [if_neg toggle]
        refine Triple.bind (triple_writel .ctl _ stopped (rests _)) fun _ => ?_
        refine Triple.bind (triple_write_compv art (rests _)) fun _ => ?_
        refine Triple.pure (stable_at (rests _)) ?_
        intro m at_
        exact ⟨⟨_, _, _⟩, fun failed => (by cases failed), modes.1, modes.2, at_⟩

end parts

theorem triple_arm_output (firstEdgeNs primeEdgeNs : Int) (highTimeNs lowTimeNs : Nat)
    (mode : OutputMode) :
    Triple edgeSem (LevelAt drift marks)
      (armOutput firstEdgeNs primeEdgeNs highTimeNs lowTimeNs mode)
      fun _ m => Rested drift marks m := by
  refine Triple.bind triple_stop_for_rearm fun ctrl => ?_
  rintro s ⟨block, flop, off, unpaced, same, level, at_⟩
  have stopped : (clearedRegs ctrl).running = false := cleared_running ctrl off
  by_cases hardware : mode = .hardware
  · rw [if_pos hardware]
    refine Triple.bind (triple_store _ stopped) (fun _ => ?_) s at_
    exact Triple.pure (stable_at stopped) fun m at_ => rested_of_at at_ stopped rfl same
  · rw [if_neg hardware]
    refine Triple.bind (triple_sample _ (stable_at stopped)) (fun edgeBits => ?_) s at_
    rintro s ⟨at_, clocks, params, fall⟩
    have bits := output_edge_bits_mode params.outputPolarity .fall
    rw [← fall] at bits
    refine Triple.bind (triple_program_output_edge _ _ bits stopped) (fun status => ?_) s at_
    rintro s ⟨regs, unchanged, modeEn, modePm, at_⟩
    have programmed : hasEn regs.ctl = false := modeEn.trans off
    have resting : regs.running = false := running_of_disabled programmed
    have unpaced' : hasPm regs.ctl = false := modePm.trans unpaced
    cases status with
    | error status =>
        have settled : LevelAt drift marks s := by
          rw [LevelAt, at_.block, at_.regs, at_.flop, unchanged rfl]
          exact ⟨level, at_.marks⟩
        refine Triple.bind triple_disable_output_hw (fun _ => ?_) s settled
        exact Triple.conseq (Triple.pure stable_rested fun m rested => rested)
          (fun m rested => rested.1) fun _ m rested => rested
    | ok done =>
        refine Triple.bind (triple_store _ resting) (fun _ => ?_) s at_
        refine Triple.bind (triple_read_ctl resting) fun ctrl => ?_
        rintro s ⟨rfl, at_⟩
        have enabled : Regs.running { regs with ctl := ctlWith regs.ctl ctlEn } = false :=
          running_of_unpaced (by simp [unpaced'])
        refine Triple.bind (triple_writel .ctl _ resting enabled) (fun _ => ?_) s at_
        exact Triple.pure (stable_at enabled) fun m at_ => rested_of_at at_ enabled rfl same

theorem pick_intervals {firstArt highArt lowArt : U64Result} {first high low : Nat}
    (picked : armIntervals firstArt highArt lowArt = .ok (first, high, low)) :
    firstArt = .ok first ∧ highArt = .ok high ∧ lowArt = .ok low ∧
      high ≠ 0 ∧ low ≠ 0 ∧ high ≤ u64Max / 4 ∧ low ≤ u64Max / 4 := by
  unfold armIntervals at picked
  split at picked
  · split at picked
    · contradiction
    · cases picked
      refine ⟨rfl, rfl, rfl, ?_⟩
      omega
  · contradiction

theorem late_arm_guard_le {nowArt margin : U64Result} {first period picked : Nat}
    (guarded : lateArmGuard nowArt margin first period = .ok picked) (bound : first ≤ u64Max) :
    picked ≤ u64Max := by
  unfold lateArmGuard at guarded
  split at guarded
  · split at guarded
    · dsimp only at guarded
      split at guarded
      · split at guarded
        · contradiction
        · rename_i fits
          cases guarded
          have product := Nat.mul_le_mul_right period (not_lt.mp fits)
          have whole := Nat.div_mul_le_self (u64Max - first) period
          omega
      · cases guarded
        exact bound
    · cases guarded
      exact bound
  · cases guarded
    exact bound

theorem select_slot_le {high : Bool} {first highArt lowArt : Nat} (bound : first ≤ u64Max) :
    selectSlot high first highArt lowArt ≤ u64Max := by
  unfold selectSlot u64
  split
  · split
    · omega
    · have small := Nat.mod_lt (first + highArt) (show 0 < 2 ^ 64 by decide)
      unfold u64Max
      omega
  · exact bound

/-- A slot selection on a level that differs from the mirror by the drift. -/
def Marks.chosen (marks : Marks) (mirror drift : Bool) : Marks :=
  { marks with slots := marks.slots ++ [⟨mirror, mirror ^^ drift, marks.levelChanges⟩] }

/-- The engine starts with the checkpoint at its first edge. -/
theorem triple_start_hardware_periodic {block : MmioBlock} {flop : Bool} {ctrl : BitVec 32}
    (firstEdgeNs : Int) (halfNs : Nat) {firstArt piv : Nat} (off : hasEn ctrl = false)
    (same : flop = (block.outputHwFlopHigh ^^ drift)) (firstBound : firstArt ≤ u64Max)
    (positive : piv ≠ 0) (pivBound : piv ≤ u64Max) :
    Triple edgeSem (At block (clearedRegs ctrl) flop marks)
      (startHardwarePeriodic ctrl firstEdgeNs halfNs halfNs firstArt piv)
      fun _ => Exact drift marks := by
  have wide (value : Nat) (bound : value ≤ u64Max) : (BitVec.ofNat 64 value).toNat = value := by
    rw [BitVec.toNat_ofNat, Nat.mod_eq_of_lt]
    unfold u64Max at bound
    omega
  have stopped : (clearedRegs ctrl).running = false := cleared_running ctrl off
  have off' : hasEn (ctlWith ctrl (ctlEpToggle ||| ctlPm)) = false := by simp [off]
  have rests (compv piv : BitVec 64) :
      Regs.running ⟨ctlWith ctrl (ctlEpToggle ||| ctlPm), compv, piv⟩ = false :=
    running_of_disabled off'
  have tracked (ctl : BitVec 32) : Tracked drift
      (armed firstEdgeNs halfNs halfNs firstArt piv block)
      ⟨ctl, BitVec.ofNat 64 firstArt, BitVec.ofNat 64 piv⟩ flop := by
    constructor
    · simp [armed]
    · exact positive
    · exact wide piv pivBound
    · exact (wide firstArt firstBound).ge
    · change flop = (block.outputHwFlopHigh ^^ drift ^^
        (((BitVec.ofNat 64 firstArt).toNat - firstArt) / piv).bodd)
      rw [wide firstArt firstBound, same]
      simp
  refine Triple.bind (triple_writel .ctl _ stopped (rests _ _)) fun _ => ?_
  refine Triple.bind (triple_write_piv piv (rests _ _)) fun _ => ?_
  refine Triple.bind (triple_write_compv firstArt (rests _ _)) fun _ => ?_
  refine Triple.bind (triple_store _ (rests _ _)) fun _ => ?_
  refine Triple.via (fun _ => Exact drift marks) ?_ fun _ => ?_
  · refine Triple.call (stable_at (rests _ _)) (fun _ => stable_exact) ?_
    intro s reply t at_ step
    cases step
    have parts := s.write_reg_parts .ctl (ctlWith (ctlWith ctrl (ctlEpToggle ||| ctlPm)) ctlEn)
    refine ⟨?_, ?_, ?_⟩
    · rw [parts.1, parts.2.1, parts.2.2, at_.block, at_.regs, at_.flop]
      exact tracked _
    · rw [parts.1, parts.2.1, at_.block, at_.regs]
      change piv ∣ (BitVec.ofNat 64 firstArt).toNat - firstArt
      simp [wide firstArt firstBound]
    · rw [← at_.marks]
      simp [Machine.writeReg, Machine.marks, Machine.writeCtlHistory]
  · rw [if_neg (by simp)]
    exact Triple.pure stable_exact fun m exact_ => exact_

/-- How an arm ends: free-running from the slot it chose, or stopped, before or
after the choice. -/
def Armed (drift : Bool) (marks : Marks) (status : Except Errno Unit) (m : Machine) : Prop :=
  match status with
  | .ok () => ∃ mirror, Exact drift (marks.chosen mirror drift) m
  | .error _ =>
      LevelAt drift marks m ∨ ∃ mirror, LevelAt drift (marks.chosen mirror drift) m

theorem triple_arm_hardware_periodic (firstEdgeNs : Int) (halfNs : Nat) :
    Triple edgeSem (LevelAt drift marks) (armHardwarePeriodic firstEdgeNs halfNs halfNs)
      (Armed drift marks) := by
  refine Triple.bind (triple_sample _ stable_level) fun firstArt => ?_
  rintro s ⟨level, clocks, params, first⟩
  revert s
  refine fun s level => Triple.bind (triple_sample _ stable_level) (fun highArt => ?_) s level
  rintro s ⟨level, -⟩
  refine Triple.bind (triple_sample _ stable_level) (fun lowArt => ?_) s level
  rintro s ⟨level, -⟩
  cases picked : armIntervals firstArt highArt lowArt with
  | error status => exact Triple.pure stable_level (fun m level => .inl level) s level
  | ok intervals =>
      obtain ⟨firstArt, highArt, lowArt⟩ := intervals
      obtain ⟨rfl, -, -, highPositive, lowPositive, highBound, lowBound⟩ := pick_intervals picked
      have firstBound : firstArt ≤ u64Max := by
        have range := clock_ns_to_compare_art_lt first.symm
        unfold u64Max
        omega
      refine Triple.bind triple_stop_for_rearm (fun ctrl => ?_) s level
      rintro s ⟨block, flop, off, unpaced, same, level, at_⟩
      have stopped : (clearedRegs ctrl).running = false := cleared_running ctrl off
      have marked : Triple edgeSem (At block (clearedRegs ctrl) flop marks) (mark .slot)
          fun _ => At block (clearedRegs ctrl) flop
            (marks.chosen block.outputHwFlopHigh drift) := by
        refine Triple.call (stable_at stopped) (fun _ => stable_at stopped) ?_
        intro s reply t at_ step
        cases step
        refine ⟨at_.block, at_.regs, at_.flop, ?_⟩
        rw [Marks.chosen, ← at_.marks, ← same, ← at_.flop, ← at_.block]
        rfl
      refine Triple.bind marked (fun _ => ?_) s at_
      refine Triple.bind (triple_load stopped) fun loaded => ?_
      rintro s ⟨rfl, at_⟩
      refine Triple.bind (triple_sample _ (stable_at stopped)) (fun nowArt => ?_) s at_
      rintro s ⟨at_, -⟩
      refine Triple.bind (triple_sample _ (stable_at stopped)) (fun margin => ?_) s at_
      rintro s ⟨at_, -⟩
      cases guarded : lateArmGuard nowArt margin
          (selectSlot loaded.outputHwFlopHigh firstArt highArt lowArt) (highArt + lowArt) with
      | error status =>
          refine Triple.pure (stable_at stopped) (fun m at_ => ?_) s at_
          refine .inr ⟨_, ?_, at_.marks⟩
          rw [at_.block, at_.regs, at_.flop]
          exact level
      | ok slot =>
          have slotBound : slot ≤ u64Max := late_arm_guard_le guarded (select_slot_le firstBound)
          have pivPositive : (if loaded.outputHwFlopHigh then lowArt else highArt) ≠ 0 := by
            split <;> assumption
          have pivBound : (if loaded.outputHwFlopHigh then lowArt else highArt) ≤ u64Max := by
            split <;> omega
          refine Triple.bind (triple_start_hardware_periodic firstEdgeNs halfNs off same slotBound
            pivPositive pivBound) (fun _ => ?_) s at_
          exact Triple.pure stable_exact fun m exact_ => ⟨_, exact_⟩

/-- Updates of the block that do not concern the level. -/
def LevelNeutral (update : MmioBlock → MmioBlock) : Prop :=
  ∀ block, (update block).outputPhase = block.outputPhase ∧
    (update block).outputHwPiv = block.outputHwPiv ∧
    (update block).outputHwCkptCompv = block.outputHwCkptCompv ∧
    (update block).outputHwFlopHigh = block.outputHwFlopHigh

theorem Level.neutral {block : MmioBlock} {regs : Regs} {flop : Bool}
    {update : MmioBlock → MmioBlock} (neutral : LevelNeutral update)
    (level : Level drift block regs flop) : Level drift (update block) regs flop := by
  obtain ⟨phase, piv, ckpt, high⟩ := neutral block
  cases level with
  | tracked tracked =>
      refine .tracked ⟨?_, ?_, ?_, ?_, ?_⟩
      · rw [phase, tracked.phase]
      · rw [piv]
        exact tracked.positive
      · rw [piv, tracked.piv]
      · rw [ckpt]
        exact tracked.ahead
      · rw [high, ckpt, piv, tracked.level]
  | settled settled =>
      refine .settled ⟨settled.stopped, ?_, ?_⟩
      · rw [folds, phase, piv, ckpt]
        exact settled.counted
      · rw [high, settled.level]

theorem watched_level : Watched (LevelAt drift marks) :=
  fun _ _ _ ran _ level => level.ran ran

/-- Updates that keep the interval and the mirror leave a rested block rested. -/
def RestNeutral (update : MmioBlock → MmioBlock) : Prop :=
  ∀ block, (update block).outputHwPiv = block.outputHwPiv ∧
    (update block).outputHwFlopHigh = block.outputHwFlopHigh

theorem triple_rest_store (update : MmioBlock → MmioBlock) (neutral : RestNeutral update) :
    Triple edgeSem (Rested drift marks) (storeBlock update) fun _ => Rested drift marks := by
  refine Triple.call stable_rested (fun _ => stable_rested) ?_
  intro s reply t rested step
  cases step
  obtain ⟨piv, high⟩ := neutral s.block
  exact ⟨rested.stopped, piv.trans rested.idle, by rw [high, rested.level], rested.marks⟩

theorem triple_output_wake_at (time : Int) :
    Triple edgeSem (Rested drift marks) (outputWakeAt time) fun _ => Rested drift marks := by
  refine Triple.bind (triple_rest_store _ fun block => ⟨rfl, rfl⟩) fun _ => ?_
  refine Triple.call stable_rested (fun _ => stable_rested) ?_
  intro s reply t rested step
  cases step
  exact ⟨rested.stopped, rested.idle, rested.level, rested.marks⟩

theorem triple_hrtimer_cancel :
    Triple edgeSem (LevelAt drift marks) hrtimerCancel fun _ => LevelAt drift marks := by
  refine Triple.call stable_level (fun _ => stable_level) ?_
  intro s reply t level step
  simp only [driverSem, Machine.perform] at step
  split at step
  · contradiction
  · cases step
    exact level

theorem triple_give_up :
    Triple edgeSem (LevelAt drift marks) (mark .giveUp) fun _ => LevelAt drift marks := by
  refine Triple.call stable_level (fun _ => stable_level) ?_
  intro s reply t level step
  cases step
  exact level

theorem triple_abandon_output :
    Triple edgeSem (LevelAt drift marks) abandonOutput fun _ => Rested drift marks := by
  refine Triple.bind triple_give_up fun _ => ?_
  refine Triple.bind triple_hrtimer_cancel fun _ => ?_
  exact triple_disable_output_hw.post fun _ m off => off.1

/-- An arm cycle ends at rest, whether it succeeds or not. -/
theorem triple_reconcile_arm (desired : OutputDesired) :
    Triple edgeSem (LevelAt drift marks) (reconcileArm desired) fun _ => Rested drift marks := by
  refine Triple.bind (watched_level.looking
    (prepare_output_timing_uses looks_reading _ _ _ _)) fun timing => ?_
  cases timing with
  | error status => exact triple_abandon_output
  | ok timing =>
      refine Triple.bind (triple_arm_output _ _ _ _ _) fun status => ?_
      cases status with
      | error status =>
          exact triple_abandon_output.conseq (fun m rested => rested.level_at) fun _ m rest => rest
      | ok done =>
          refine Triple.bind (triple_rest_store _ fun block => ⟨rfl, rfl⟩) fun _ => ?_
          exact triple_output_wake_at _

end operations

/-- The mirror accounts for every edge so far. -/
def Counted (drift : Bool) (m : Machine) : Prop :=
  ∃ marks, Exact drift marks m ∨ Rested drift marks m

/-- The engine is at rest, whatever the marks. -/
def AtRest (drift : Bool) (m : Machine) : Prop := ∃ marks, Rested drift marks m

/-- The operations on one block that concern the level in hardware mode. -/
inductive LevelOp where
  | armOutput (firstEdgeNs primeEdgeNs : Int) (highTimeNs lowTimeNs : Nat)
  | armHardwarePeriodic (firstEdgeNs : Int) (halfNs : Nat)
  | fold
  | disable

def LevelOp.program : LevelOp → Driver (Except Errno Unit)
  | .armOutput firstEdgeNs primeEdgeNs highTimeNs lowTimeNs =>
      Tgpio.armOutput firstEdgeNs primeEdgeNs highTimeNs lowTimeNs .hardware
  | .armHardwarePeriodic firstEdgeNs halfNs => Tgpio.armHardwarePeriodic firstEdgeNs halfNs halfNs
  | .fold => do
      hwFlopFold
      return .ok ()
  | .disable => do
      disableOutputHw
      return .ok ()

/-- The operations after which the engine is stopped. -/
def LevelOp.stops : LevelOp → Prop
  | .armOutput .. => True
  | .disable => True
  | _ => False

/-- Successful operations one after the other, latest first, with edges at any
moment during and between them. -/
inductive LevelRun (first : Machine) : List LevelOp → Machine → Prop where
  | start {m : Machine} : edgeSem.Rely first m → LevelRun first [] m
  | operate {op : LevelOp} {done : List LevelOp} {m m' : Machine} {status : Except Errno Unit} :
      LevelRun first done m → Executes edgeSem op.program m status m' → isOk status = true →
      LevelRun first (op :: done) m'

section runs

variable {drift : Bool} {marks : Marks}

theorem Exact.level_at {m : Machine} (exact_ : Exact drift marks m) : LevelAt drift marks m :=
  ⟨.tracked exact_.tracked, exact_.marks⟩

theorem Counted.level_at {m : Machine} (counted : Counted drift m) :
    ∃ marks, LevelAt drift marks m := by
  obtain ⟨marks, exact_ | rested⟩ := counted
  · exact ⟨marks, exact_.level_at⟩
  · exact ⟨marks, rested.level_at⟩

theorem stable_counted : Stable edgeSem (Counted drift) := by
  rintro s t step ⟨marks, exact_ | rested⟩
  · exact ⟨marks, .inl (stable_exact s t step exact_)⟩
  · exact ⟨marks, .inr (stable_rested s t step rested)⟩

theorem Exact.fold {s : Machine} (exact_ : Exact drift marks s) :
    Exact drift marks { s with block := folded s.regs.compv.toNat s.block } := by
  obtain ⟨shape, -⟩ := folded_flop_high exact_.tracked.phase exact_.tracked.positive
    exact_.tracked.ahead
  refine ⟨exact_.tracked.fold.1, ?_, exact_.marks⟩
  rw [shape]
  simp [foldPeriodic]

theorem triple_fold_counted : Triple edgeSem (Counted drift) hwFlopFold fun _ => Counted drift := by
  intro s counted
  refine wp_mono ?_ (hw_flop_fold_spec s)
  rintro _ t ⟨before, after, u, fold⟩
  obtain ⟨marks, exact_ | rested⟩ := counted
  · exact ⟨marks, .inl ((exact_.ran fold.reached).fold.ran fold.passed)⟩
  · have instant := rested.ran fold.reached
    have passed := fold.passed
    rw [folded_of_not_folds fun folds => folds.1 instant.idle] at passed
    exact ⟨marks, .inr (instant.ran passed)⟩

/-- One operation keeps the count, and a stop leaves the engine at rest. -/
theorem triple_level_op (op : LevelOp) :
    Triple edgeSem (Counted drift) op.program fun status m => isOk status = true →
      Counted drift m ∧ (op.stops → AtRest drift m) := by
  intro s counted
  obtain ⟨marks, level⟩ := counted.level_at
  cases op with
  | armOutput firstEdgeNs primeEdgeNs highTimeNs lowTimeNs =>
      refine wp_mono ?_
        (triple_arm_output firstEdgeNs primeEdgeNs highTimeNs lowTimeNs .hardware s level)
      exact fun _ m rested _ => ⟨⟨marks, .inr rested⟩, fun _ => ⟨marks, rested⟩⟩
  | armHardwarePeriodic firstEdgeNs halfNs =>
      refine wp_mono ?_ (triple_arm_hardware_periodic firstEdgeNs halfNs s level)
      intro status m armed ok
      cases status with
      | error status => contradiction
      | ok done =>
          obtain ⟨mirror, exact_⟩ := armed
          exact ⟨⟨_, .inl exact_⟩, nofun⟩
  | fold =>
      refine Triple.bind triple_fold_counted (fun _ => ?_) s counted
      exact Triple.pure stable_counted fun m counted _ => ⟨counted, nofun⟩
  | disable =>
      refine Triple.bind (triple_disable_output_hw.post fun _ m off => off.1) (fun _ => ?_) s level
      exact Triple.pure stable_rested fun m rested _ =>
        ⟨⟨marks, .inr rested⟩, fun _ => ⟨marks, rested⟩⟩

theorem level_run_counted {first last : Machine} {ops : List LevelOp}
    (correct : Counted drift first) (run : LevelRun first ops last) :
    Counted drift last ∧ ∀ op ∈ ops.head?, op.stops → AtRest drift last := by
  induction run with
  | start rely => exact ⟨stable_counted.rely rely correct, nofun⟩
  | @operate op done m m' status _ ran ok ih =>
      have kept := wp_executes (triple_level_op op m ih.1) ran ok
      refine ⟨kept.1, fun last isLast => ?_⟩
      have same : op = last := by simpa using isLast
      exact same ▸ kept.2

end runs

/-- Arm, fold and stop keep the parity, wherever the edges fall: between two
operations the flop is the mirror flipped by the edges since the checkpoint,
and after a stop it is the mirror. -/
theorem level_runs_keep_parity (first last : Machine) (ops : List LevelOp)
    (correct : Counted false first) (run : LevelRun first ops last) :
    (last.block.outputPhase = .hardwarePeriodic → last.block.outputHwPiv ≠ 0 →
      last.regs.piv.toNat = last.block.outputHwPiv ∧
      last.block.outputHwCkptCompv ≤ last.regs.compv.toNat ∧
      last.block.outputHwPiv ∣ last.regs.compv.toNat - last.block.outputHwCkptCompv ∧
      last.flop = (last.block.outputHwFlopHigh ^^
        ((last.regs.compv.toNat - last.block.outputHwCkptCompv) /
          last.block.outputHwPiv).bodd)) ∧
    ∀ op ∈ ops.head?, op.stops → last.flop = last.block.outputHwFlopHigh := by
  have counted := level_run_counted correct run
  constructor
  · intro phase positive
    obtain ⟨marks, exact_ | rested⟩ := counted.1
    · refine ⟨exact_.tracked.piv, exact_.tracked.ahead, exact_.divides, ?_⟩
      simpa using exact_.tracked.level
    · exact absurd rested.idle positive
  · intro op isLast stops
    obtain ⟨marks, rested⟩ := counted.2 op isLast stops
    simpa using rested.level

section oneRun

def armedBlock : Machine :=
  finalState Machine.perform 200 []
    (LevelOp.armHardwarePeriodic 1100000000 500000000).program loadedBlock

/-- Edges on both sides of the low-word read of a fold. -/
def foldedBlock : Machine :=
  finalState Machine.perform 200 [id, .edgeMove, id, .edgeMove] LevelOp.fold.program armedBlock

theorem level_runs_keep_parity_folded :
    foldedBlock.block.outputHwFlopHigh = true ∧ foldedBlock.flop = false ∧
      ∃ ops, LevelRun loadedBlock ops foldedBlock ∧
        foldedBlock.flop = (foldedBlock.block.outputHwFlopHigh ^^
          ((foldedBlock.regs.compv.toNat - foldedBlock.block.outputHwCkptCompv) /
            foldedBlock.block.outputHwPiv).bodd) := by
  have armed : LevelRun loadedBlock [.armHardwarePeriodic 1100000000 500000000] armedBlock := by
    exact .operate (.start .refl) (exec_final (fun _ _ _ _ step => step) 200 [] (by simp) _ _
      (.ok ()) (by rfl)) rfl
  have folded : LevelRun loadedBlock [.fold, .armHardwarePeriodic 1100000000 500000000]
      foldedBlock := by
    exact .operate armed (exec_final (fun _ _ _ _ step => step) 200 _ (edge_moves_rely (by simp)) _ _
      (.ok ()) (by rfl)) rfl
  have parity := level_runs_keep_parity loadedBlock foldedBlock _ ⟨_, .inr ⟨rfl, rfl, rfl, rfl⟩⟩ folded
  exact ⟨by decide +kernel, by decide +kernel, _, folded,
    (parity.1 (by decide +kernel) (by decide +kernel)).2.2.2⟩

end oneRun

end Tgpio

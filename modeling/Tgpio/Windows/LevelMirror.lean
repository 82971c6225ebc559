import Tgpio.Interference.TornRead
import Tgpio.Windows.ModeRuns
import Mathlib.Data.Nat.Bits
import Mathlib.Tactic.Ring

/-!
# The level mirror of a Windows block

The level flop cannot be read; the driver counts it from COMPV. Here one block
is watched through its requests while edges come at any moment, with the line
as it was at the last read of the low word of COMPV kept beside the machine.
-/

namespace Tgpio.Windows

open Interference Interference.Prog

set_option autoImplicit false

/-- The machine, and the line the last look at COMPV found. -/
structure Observed where
  machine : WinMachine
  look : Line

namespace Observed

variable (o : Observed) (index : BlockIndex)

def block : WinBlock := o.machine.device.block index
def line : Line := o.machine.line index

/-- The read of the low word is the look. -/
def lookAt (op : WinOp) : Line :=
  match op with
  | .readl other (.block .compv31_0) => if other = index then o.line index else o.look
  | _ => o.look

def perform (op : WinOp) : Option (op.Resp × Observed) :=
  (o.machine.perform op).map fun done => (done.1, ⟨done.2, o.lookAt index op⟩)

def edge : Observed := { o with machine := o.machine.edge index }

/-- One edge, where the engine runs and COMPV has room. -/
def edgeMove : Observed :=
  if (o.line index).running = true ∧
      (o.line index).regs.compv.toNat + (o.line index).regs.piv.toNat < 2 ^ 64 then o.edge index
  else o

end Observed

/-- What comes between two accesses to a block: an edge that does not carry
COMPV past 64 bits, and anything that concerns neither its waveform nor the
driver's record of it. -/
inductive LineEnv (index : BlockIndex) : Observed → Observed → Prop where
  | elsewhere {o o' : Observed} : o'.block index = o.block index →
      (o'.line index).regs = (o.line index).regs → (o'.line index).flop = (o.line index).flop →
      o'.look = o.look → LineEnv index o o'
  | edge {o : Observed} : (o.line index).running = true →
      (o.line index).regs.compv.toNat + (o.line index).regs.piv.toNat < 2 ^ 64 →
      LineEnv index o (o.edge index)

def lineSem (index : BlockIndex) : Semantics WinOp WinOp.Resp Observed where
  step op o reply o' := o.perform index op = some (reply, o')
  env := LineEnv index

/-- `n` edges of the block lie between the two states, and nothing else that
concerns its level. -/
structure Ran (index : BlockIndex) (n : Nat) (s t : Observed) : Prop where
  block : t.block index = s.block index
  ctl : (t.line index).regs.ctl = (s.line index).regs.ctl
  piv : (t.line index).regs.piv = (s.line index).regs.piv
  compv : (t.line index).regs.compv.toNat =
    (s.line index).regs.compv.toNat + n * (s.line index).regs.piv.toNat
  flop : (t.line index).flop = ((s.line index).flop ^^ n.bodd)
  stopped : (s.line index).running = false → n = 0

section edges

variable {index : BlockIndex}

theorem Ran.still {s t : Observed} (block : t.block index = s.block index)
    (regs : (t.line index).regs = (s.line index).regs)
    (flop : (t.line index).flop = (s.line index).flop) : Ran index 0 s t := by
  constructor <;> simp [block, regs, flop]

theorem Ran.running {n : Nat} {s t : Observed} (ran : Ran index n s t) :
    (t.line index).running = (s.line index).running := by
  simp only [Line.running, Regs.running, ran.ctl]

theorem Ran.trans {first second : Nat} {s t u : Observed} (before : Ran index first s t)
    (after : Ran index second t u) : Ran index (first + second) s u where
  block := after.block.trans before.block
  ctl := after.ctl.trans before.ctl
  piv := after.piv.trans before.piv
  compv := by
    rw [after.compv, before.compv, before.piv]
    ring
  flop := by rw [after.flop, before.flop, Nat.bodd_add, Bool.xor_assoc]
  stopped := by
    intro stopped
    have none := before.stopped stopped
    have later := after.stopped (before.running.trans stopped)
    omega

theorem Ran.edge {o : Observed} (running : (o.line index).running = true)
    (fits : (o.line index).regs.compv.toNat + (o.line index).regs.piv.toNat < 2 ^ 64) :
    Ran index 1 o (o.edge index) where
  block := rfl
  ctl := by simp [Observed.edge, Observed.line, WinMachine.edge, WinMachine.updateLine]
  piv := by simp [Observed.edge, Observed.line, WinMachine.edge, WinMachine.updateLine]
  compv := by
    unfold Observed.line at fits
    simp only [Observed.edge, Observed.line, WinMachine.edge, WinMachine.updateLine,
      Function.update_self, BitVec.toNat_add]
    rw [Nat.mod_eq_of_lt fits, Nat.one_mul]
  flop := by simp [Observed.edge, Observed.line, WinMachine.edge, WinMachine.updateLine]
  stopped := by simp [running]

/-- While the engine is stopped nothing moves. -/
theorem Ran.unmoved {n : Nat} {s t : Observed} (ran : Ran index n s t)
    (stopped : (s.line index).running = false) :
    (t.line index).regs = (s.line index).regs ∧ (t.line index).flop = (s.line index).flop := by
  have none := ran.stopped stopped
  subst none
  have compv : (t.line index).regs.compv = (s.line index).regs.compv := by
    apply BitVec.eq_of_toNat_eq
    simpa using ran.compv
  exact ⟨Regs.ext ran.ctl compv ran.piv, by simpa using ran.flop⟩

/-- Some number of edges. -/
def Later (index : BlockIndex) (s t : Observed) : Prop := ∃ n, Ran index n s t

/-- The last look was at `u`. -/
def Since (index : BlockIndex) (u t : Observed) : Prop :=
  Later index u t ∧ t.look = u.line index

theorem Later.trans {s t u : Observed} (before : Later index s t) (after : Later index t u) :
    Later index s u := by
  obtain ⟨first, before⟩ := before
  obtain ⟨second, after⟩ := after
  exact ⟨_, before.trans after⟩

theorem Later.block {s t : Observed} (later : Later index s t) :
    t.block index = s.block index := by
  obtain ⟨_, ran⟩ := later
  exact ran.block

theorem line_env_later {s t : Observed} (step : LineEnv index s t) :
    Later index s t ∧ t.look = s.look := by
  cases step with
  | elsewhere block regs flop look => exact ⟨⟨0, .still block regs flop⟩, look⟩
  | edge running fits => exact ⟨⟨1, .edge running fits⟩, rfl⟩

theorem looking_line : Looking (lineSem index) (Later index) (Since index) where
  refl _ := ⟨0, .still rfl rfl rfl⟩
  trans := .trans
  env step := (line_env_later step).1
  passed since := since.1
  kept := by
    intro u s t step since
    obtain ⟨later, look⟩ := line_env_later step
    exact ⟨since.1.trans later, look.trans since.2⟩

theorem rely_later {s t : Observed} (rely : (lineSem index).Rely s t) : Later index s t :=
  looking_line.rely rely

theorem rely_look {s t : Observed} (rely : (lineSem index).Rely s t) : t.look = s.look := by
  induction rely with
  | refl => rfl
  | tail _ step ih => exact (line_env_later step).2.trans ih

theorem readl_still {reg : WinReg} {s t : Observed} {reply : BitVec 32}
    (step : s.perform index (.readl index reg) = some (reply, t)) :
    reply = (s.line index).read reg ∧ Ran index 0 s t ∧
      t.look = s.lookAt index (.readl index reg) := by
  obtain ⟨done, performed, same⟩ := Option.map_eq_some_iff.mp step
  obtain ⟨-, answered⟩ := Option.ite_none_right_eq_some.mp performed
  cases answered
  cases same
  refine ⟨rfl, .still rfl ?_ ?_, rfl⟩ <;> cases reg <;>
    simp [Observed.line, WinMachine.updateLine, Line.readEffect]

theorem reads_high_word : ReadsHigh (lineSem index) (Later index) (Since index)
    (readl index (.block .compv63_32)) fun o => upperWord (o.line index).regs.compv := by
  apply reads_high_perform looking_line
  intro s reply t step
  obtain ⟨answer, still, look⟩ := readl_still step
  exact ⟨answer, ⟨0, still⟩, fun w since => ⟨since.1.trans ⟨0, still⟩, look.trans since.2⟩⟩

theorem reads_low_word : ReadsLow (lineSem index) (Later index) (Since index)
    (readl index (.block .compv31_0)) fun o => lowerWord (o.line index).regs.compv := by
  apply reads_low_perform looking_line
  intro s reply t step
  obtain ⟨answer, still, look⟩ := readl_still step
  exact ⟨answer, ⟨0, still⟩, by simpa [Observed.lookAt] using look⟩

theorem later_upper_mono (s t : Observed) (later : Later index s t) :
    (upperWord (s.line index).regs.compv).toNat ≤ (upperWord (t.line index).regs.compv).toNat := by
  obtain ⟨n, ran⟩ := later
  apply upper_word_mono
  rw [ran.compv]
  exact Nat.le_add_right _ _

/-- A compare read answers COMPV as its last look found it. -/
theorem read_compv_spec (s : Observed) :
    wp (lineSem index) (readCompv index) (fun compv t => ∃ u, Later index s u ∧
      compv = (u.line index).regs.compv.toNat ∧ Since index u t) s := by
  have reads := torn_read_spec (@looking_line index) (fun high low => (joinWords high low).toNat)
    BitVec.toNat (fun _ _ => BitVec.eq_of_toNat_eq) later_upper_mono reads_high_word reads_low_word s
  refine wp_mono ?_ reads
  rintro compv t ⟨u, reached, rfl, since⟩
  exact ⟨u, reached, by rw [join_words], since⟩

end edges

/-- The block drives its line: enabled as an output, in periodic mode. -/
def drives (regs : Regs) : Bool := regs.running && !hasDir regs.ctl

/-- The mirror, the checkpoint and COMPV tell the level. While the checkpoint is
live the intervals since then do; otherwise nothing moves, and a fold finds
nothing to count. -/
inductive Mirrors (block : WinBlock) (regs : Regs) (flop : Bool) : Prop where
  | counting : block.hwPiv ≠ 0 → regs.piv.toNat = block.hwPiv →
      block.ckptCompv ≤ regs.compv.toNat →
      flop = (block.flopHigh ^^ ((regs.compv.toNat - block.ckptCompv) / block.hwPiv).bodd) →
      Mirrors block regs flop
  | resting : drives regs = false → (block.hwPiv = 0 ∨ regs.compv.toNat ≤ block.ckptCompv) →
      flop = block.flopHigh → Mirrors block regs flop

def Correct (index : BlockIndex) (o : Observed) : Prop :=
  Mirrors (o.block index) (o.line index).regs (o.line index).flop

/-- The driver's record after a fold that reads `compv`. -/
def settled (compv : Nat) (block : WinBlock) : WinBlock :=
  if block.hwPiv = 0 then block
  else if compv < block.ckptCompv then block
  else folded compv block

theorem folded_flop_high (compv : Nat) (block : WinBlock) :
    (folded compv block).flopHigh =
      (block.flopHigh ^^ ((compv - block.ckptCompv) / block.hwPiv).bodd) := by
  simp only [folded, Nat.mod_two_of_bodd]
  cases ((compv - block.ckptCompv) / block.hwPiv).bodd <;> simp

/-- A fold at COMPV as it is accounts for every edge so far. -/
theorem Mirrors.settle {block : WinBlock} {regs : Regs} {flop : Bool}
    (mirrors : Mirrors block regs flop) :
    Mirrors (settled regs.compv.toNat block) regs flop ∧
      (settled regs.compv.toNat block).flopHigh = flop := by
  cases mirrors with
  | counting positive piv ahead level =>
      have shape : settled regs.compv.toNat block = folded regs.compv.toNat block := by
        rw [settled, if_neg positive, if_neg (by omega)]
      have high : (folded regs.compv.toNat block).flopHigh = flop := by
        rw [folded_flop_high, level]
      rw [shape]
      refine ⟨.counting positive piv (le_refl _) ?_, high⟩
      rw [high]
      simp [folded]
  | resting stopped nothing level =>
      by_cases idle : block.hwPiv = 0
      · rw [settled, if_pos idle]
        exact ⟨.resting stopped nothing level, level.symm⟩
      by_cases behind : regs.compv.toNat < block.ckptCompv
      · rw [settled, if_neg idle, if_pos behind]
        exact ⟨.resting stopped nothing level, level.symm⟩
      · have same : regs.compv.toNat = block.ckptCompv := by omega
        have high : (folded regs.compv.toNat block).flopHigh = flop := by
          rw [folded_flop_high, level, same]
          simp
        rw [settled, if_neg idle, if_neg behind]
        exact ⟨.resting stopped (.inr (le_refl _)) high.symm, high⟩

section tracking

variable {index : BlockIndex}

theorem Correct.later {s t : Observed} (correct : Correct index s) (later : Later index s t) :
    Correct index t := by
  obtain ⟨n, ran⟩ := later
  cases correct with
  | counting positive piv ahead level =>
      have grown : (t.line index).regs.compv.toNat - (s.block index).ckptCompv =
          (s.line index).regs.compv.toNat - (s.block index).ckptCompv +
            (s.block index).hwPiv * n := by
        rw [ran.compv, piv, Nat.mul_comm n]
        omega
      apply Mirrors.counting
      · rw [ran.block]
        exact positive
      · rw [ran.block, ran.piv, piv]
      · rw [ran.block, ran.compv]
        omega
      · rw [ran.block, grown, Nat.add_mul_div_left _ _ (Nat.pos_of_ne_zero positive), Nat.bodd_add,
          ran.flop, level, Bool.xor_assoc]
  | resting stopped nothing level =>
      have still := ran.unmoved stopped
      apply Mirrors.resting
      · rw [still.1, stopped]
      · rw [ran.block, still.1]
        exact nothing
      · rw [ran.block, still.2, level]

theorem stable_correct : Stable (lineSem index) (Correct index) :=
  fun _ _ step correct => correct.later (line_env_later step).1

def Observed.recorded (o : Observed) (index : BlockIndex) (block : WinBlock) : Observed :=
  { o with machine := o.machine.updateBlock index fun _ => block }

@[simp] theorem recorded_block (o : Observed) (block : WinBlock) :
    (o.recorded index block).block index = block := by
  simp [Observed.recorded, Observed.block, WinMachine.updateBlock]

@[simp] theorem recorded_line (o : Observed) (block : WinBlock) :
    (o.recorded index block).line index = o.line index := rfl

/-- Edges come the same way whatever the driver has on record. -/
theorem Later.recorded {s t : Observed} (later : Later index s t) (block : WinBlock) :
    Later index (s.recorded index block) (t.recorded index block) := by
  obtain ⟨n, ran⟩ := later
  exact ⟨n, { ran with block := by simp }⟩

theorem store_recorded {update : WinBlock → WinBlock} {s t : Observed} {reply : Unit}
    (step : s.perform index (.store index update) = some (reply, t)) :
    t = s.recorded index (update (s.block index)) := by
  cases step
  rfl

theorem device_still {s t : Observed} {dev : WinDevice}
    (step : s.perform index .device = some (dev, t)) : dev = s.machine.device ∧ t = s := by
  cases step
  exact ⟨rfl, rfl⟩

/-- The instant `u` a fold refers to, between `s` and `t`. -/
structure FoldAt (index : BlockIndex) (s t u : Observed) : Prop where
  reached : Later index s u
  passed : Later index
    (u.recorded index (settled (u.line index).regs.compv.toNat (u.block index))) t
  look : (s.block index).hwPiv ≠ 0 → t.look = u.line index

theorem recorded_same {o : Observed} {block : WinBlock} (same : block = o.block index) :
    Later index (o.recorded index block) o := by
  refine ⟨0, .still ?_ rfl rfl⟩
  simp [same]

/-- A fold acts on the record as it is, with the COMPV of one instant. -/
theorem hw_flop_fold_spec (s : Observed) :
    wp (lineSem index) (hwFlopFold index) (fun _ t => ∃ u, FoldAt index s t u) s := by
  intro s₁ rely₁ dev s₂ asked
  obtain ⟨rfl, rfl⟩ := device_still asked
  have before := rely_later rely₁
  change wp (lineSem index) (if (s₂.block index).hwPiv = 0 then _ else _) _ _
  by_cases idle : (s₂.block index).hwPiv = 0
  · rw [if_pos idle]
    intro t rely
    refine ⟨s₂, before, ?_, fun live => absurd (before.block ▸ idle) live⟩
    rw [settled, if_pos idle]
    exact (recorded_same rfl).trans (rely_later rely)
  rw [if_neg idle, bind_def, wp_bind]
  refine wp_mono ?_ (read_compv_spec s₂)
  rintro compv t ⟨u, reached, rfl, passed, look⟩
  have block : u.block index = s₂.block index := reached.block
  change wp (lineSem index)
    (if (u.line index).regs.compv.toNat < (s₂.block index).ckptCompv then _ else _) _ _
  by_cases behind : (u.line index).regs.compv.toNat < (s₂.block index).ckptCompv
  · rw [if_pos behind]
    intro t₁ rely
    refine ⟨u, before.trans reached, ?_, fun _ => (rely_look rely).trans look⟩
    rw [settled, block, if_neg idle, if_pos behind, ← block]
    exact (recorded_same rfl).trans (passed.trans (rely_later rely))
  · rw [if_neg behind]
    intro t₁ rely reply t₂ stored t₃ rely₂
    have same := store_recorded stored
    have passing := passed.trans (rely_later rely)
    have shape : settled (u.line index).regs.compv.toNat (u.block index) =
        folded (u.line index).regs.compv.toNat (t₁.block index) := by
      rw [settled, passing.block, block, if_neg idle, if_neg behind]
    refine ⟨u, before.trans reached, ?_, fun _ => ?_⟩
    · rw [shape]
      exact (passing.recorded _).trans (same ▸ rely_later rely₂)
    · rw [rely_look rely₂, same]
      exact (rely_look rely).trans look

/-- What a fold leaves: the level at its look, and the level itself where
nothing moves. -/
structure Folds (index : BlockIndex) (s t : Observed) : Prop where
  correct : Correct index t
  sees : (s.block index).hwPiv ≠ 0 → (t.block index).flopHigh = t.look.flop
  still : drives (s.line index).regs = false → (t.block index).flopHigh = (t.line index).flop

theorem hw_flop_fold_folds {s : Observed} (correct : Correct index s) :
    wp (lineSem index) (hwFlopFold index) (fun _ t => Folds index s t) s := by
  refine wp_mono ?_ (hw_flop_fold_spec s)
  rintro _ t ⟨u, reached, passed, look⟩
  have instant : Correct index u := correct.later reached
  obtain ⟨mirrors, level⟩ := instant.settle
  have block := passed.block
  rw [recorded_block] at block
  have counted : Correct index
      (u.recorded index (settled (u.line index).regs.compv.toNat (u.block index))) := by
    rw [Correct, recorded_block]
    exact mirrors
  refine ⟨counted.later passed, fun live => ?_, fun stopped => ?_⟩
  · rw [block, level, look live]
  · obtain ⟨n, before⟩ := reached
    obtain ⟨k, after⟩ := passed
    have unmoved := before.unmoved stopped
    have stays : drives (u.line index).regs = false := by rw [unmoved.1, stopped]
    rw [block, level]
    exact (after.unmoved stays).2.symm

end tracking

/-! ## Sequences on a stopped engine -/

/-- The driver's record, the registers and the level are known. -/
structure At (index : BlockIndex) (block : WinBlock) (regs : Regs) (flop : Bool) (o : Observed) :
    Prop where
  block : o.block index = block
  regs : (o.line index).regs = regs
  flop : (o.line index).flop = flop

section stopped

variable {index : BlockIndex} {block : WinBlock} {regs : Regs} {flop : Bool}

theorem drives_of_disabled (disabled : hasEn regs.ctl = false) : drives regs = false := by
  simp [drives, Regs.running, disabled]

theorem At.later {s t : Observed} (at_ : At index block regs flop s)
    (stopped : drives regs = false) (later : Later index s t) : At index block regs flop t := by
  obtain ⟨n, ran⟩ := later
  have still := ran.unmoved (show drives (s.line index).regs = false by rw [at_.regs, stopped])
  exact ⟨ran.block.trans at_.block, still.1.trans at_.regs, still.2.trans at_.flop⟩

theorem stable_at (stopped : drives regs = false) :
    Stable (lineSem index) (At index block regs flop) :=
  fun _ _ step at_ => at_.later stopped (line_env_later step).1

theorem writel_at {reg : Reg} {value : BitVec 32} {s t : Observed} {reply : Unit}
    (at_ : At index block regs flop s)
    (step : s.perform index (.writel index reg value) = some (reply, t)) :
    At index block (regs.write reg value) flop t := by
  obtain ⟨done, performed, same⟩ := Option.map_eq_some_iff.mp step
  obtain ⟨-, answered⟩ := Option.ite_none_right_eq_some.mp performed
  cases answered
  cases same
  constructor
  · exact at_.block
  · rw [← at_.regs]
    simp [Observed.line, WinMachine.updateLine, Line.write]
  · rw [← at_.flop]
    simp [Observed.line, WinMachine.updateLine, Line.write]

theorem triple_writel (reg : Reg) (value : BitVec 32) (stopped : drives regs = false)
    (stays : drives (regs.write reg value) = false) :
    Triple (lineSem index) (At index block regs flop) (writel index reg value)
      fun _ => At index block (regs.write reg value) flop :=
  Triple.call (stable_at stopped) (fun _ => stable_at stays) fun _ _ _ at_ step =>
    writel_at at_ step

theorem triple_write_compv (value : Nat) (stopped : drives regs = false) :
    Triple (lineSem index) (At index block regs flop) (writeCompv index value)
      fun _ => At index block { regs with compv := BitVec.ofNat 64 value } flop := by
  refine Triple.bind (triple_writel .compv63_32 (upper32Bits value) stopped stopped) fun _ => ?_
  rw [← write_compv_words]
  exact triple_writel .compv31_0 (lower32Bits value) stopped stopped

theorem triple_write_piv (value : Nat) (stopped : drives regs = false) :
    Triple (lineSem index) (At index block regs flop) (writePiv index value)
      fun _ => At index block { regs with piv := BitVec.ofNat 64 value } flop := by
  refine Triple.bind (triple_writel .piv63_32 (upper32Bits value) stopped stopped) fun _ => ?_
  rw [← write_piv_words]
  exact triple_writel .piv31_0 (lower32Bits value) stopped stopped

theorem triple_store (update : WinBlock → WinBlock) (stopped : drives regs = false) :
    Triple (lineSem index) (At index block regs flop) (storeBlock index update)
      fun _ => At index (update block) regs flop := by
  refine Triple.call (stable_at stopped) (fun _ => stable_at stopped) ?_
  intro s reply t at_ step
  obtain rfl := store_recorded step
  exact ⟨by rw [recorded_block, at_.block], at_.regs, at_.flop⟩

theorem triple_get_device_at (stopped : drives regs = false) :
    Triple (lineSem index) (At index block regs flop) getDevice
      fun dev o => dev.block index = block ∧ At index block regs flop o := by
  refine Triple.call (stable_at stopped)
    (fun _ s t step holds => ⟨holds.1, stable_at stopped s t step holds.2⟩) ?_
  intro s reply t at_ step
  obtain ⟨rfl, rfl⟩ := device_still step
  exact ⟨at_.block, at_⟩

theorem triple_art_now (dev : WinDevice) (stopped : drives regs = false) :
    Triple (lineSem index) (At index block regs flop) (artNow dev)
      fun _ => At index block regs flop := by
  refine Triple.via (fun _ => At index block regs flop) ?_ fun tsc =>
    Triple.pure (stable_at stopped) fun o at_ => at_
  refine Triple.call (stable_at stopped) (fun _ => stable_at stopped) ?_
  intro s reply t at_ step
  cases step
  exact at_

end stopped

/-! ## Stopping -/

/-- The opening of every stop and start: read the control, clear EN. -/
def stopEngine (index : BlockIndex) : WinProg (BitVec 32) := do
  let ctrl ← readCtl index
  writeCtl index (ctlWithout ctrl ctlEn)
  return ctrl

/-- A fold inside a request, with the engine stopped from before it on. -/
structure StopsAt (index : BlockIndex) (u v : Observed) : Prop where
  folds : Folds index u v
  disabled : hasEn (v.line index).regs.ctl = false
  level : (v.block index).flopHigh = (v.line index).flop

/-- The engine is off and the mirror is the level. -/
structure Off (index : BlockIndex) (o : Observed) : Prop where
  disabled : hasEn (o.line index).regs.ctl = false
  level : (o.block index).flopHigh = (o.line index).flop

section stopping

variable {index : BlockIndex}

/-- A control value under which the engine does not drive the line keeps the
mirror correct. -/
theorem correct_write_ctl {value : BitVec 32} {s t : Observed} {reply : Unit}
    (correct : Correct index s) (still : hasEn value = false ∨ hasDir value = true)
    (step : s.perform index (.writel index .ctl value) = some (reply, t)) :
    Correct index t ∧ (t.line index).regs.ctl = value := by
  have at_ := writel_at ⟨rfl, rfl, rfl⟩ step
  refine ⟨?_, congrArg Regs.ctl at_.regs⟩
  rw [Correct, at_.block, at_.regs, at_.flop]
  cases correct with
  | counting positive piv ahead level => exact .counting positive piv ahead level
  | resting stopped nothing level =>
      refine .resting ?_ nothing level
      rcases still with disabled | inward
      · exact drives_of_disabled disabled
      · simp [drives, Regs.write, inward]

theorem triple_write_ctl_correct (value : BitVec 32)
    (still : hasEn value = false ∨ hasDir value = true) :
    Triple (lineSem index) (Correct index) (writeCtl index value)
      fun _ o => Correct index o ∧ (o.line index).regs.ctl = value := by
  refine Triple.call stable_correct (fun _ s t step holds => ?_) ?_
  · obtain ⟨n, ran⟩ := (line_env_later step).1
    exact ⟨stable_correct s t step holds.1, ran.ctl.trans holds.2⟩
  · intro s reply t correct step
    exact correct_write_ctl correct still step

theorem triple_read_ctl_correct :
    Triple (lineSem index) (Correct index) (readCtl index) fun _ => Correct index := by
  refine Triple.call stable_correct (fun _ => stable_correct) ?_
  intro s reply t correct step
  exact correct.later ⟨0, (readl_still step).2.1⟩

theorem triple_stop_engine :
    Triple (lineSem index) (Correct index) (stopEngine index)
      fun ctrl o => Correct index o ∧ (o.line index).regs.ctl = ctlWithout ctrl ctlEn := by
  refine triple_read_ctl_correct.bind fun ctrl => ?_
  refine (triple_write_ctl_correct _ (.inl (by simp))).bind fun _ => ?_
  refine Triple.pure (fun s t step holds => ?_) fun o holds => holds
  obtain ⟨n, ran⟩ := (line_env_later step).1
  exact ⟨stable_correct s t step holds.1, ran.ctl.trans holds.2⟩

/-- A request that begins by stopping the engine folds what it has generated;
from there on nothing moves. -/
theorem stop_contains {α : Type} {program : WinProg α} {rest : BitVec 32 → WinProg α}
    (shape : program =
      (stopEngine index).bind fun ctrl => (hwFlopFold index).bind fun _ => rest ctrl)
    {s t : Observed} {value : α} (correct : Correct index s)
    (run : Executes (lineSem index) program s value t) :
    ∃ ctrl u v, Contains (lineSem index) (hwFlopFold index) u () v program s value t ∧
      StopsAt index u v ∧ Executes (lineSem index) (rest ctrl) v value t := by
  rw [shape] at run
  obtain ⟨ctrl, u, opening, run⟩ := run.split
  obtain ⟨_, v, fold, closing⟩ := run.split
  obtain ⟨correctAt, ctl⟩ := triple_stop_engine.ends correct opening
  have folds := wp_executes (hw_flop_fold_folds correctAt) fold
  have off : hasEn (u.line index).regs.ctl = false := by simp [ctl]
  obtain ⟨w, reached, passed, -⟩ := wp_executes (hw_flop_fold_spec u) fold
  have same : (v.line index).regs.ctl = (u.line index).regs.ctl := by
    obtain ⟨_, before⟩ := reached
    obtain ⟨_, after⟩ := passed
    exact after.ctl.trans before.ctl
  refine ⟨ctrl, u, v, ?_, ⟨folds, by rw [same, off], folds.still (drives_of_disabled off)⟩, closing⟩
  rw [shape]
  exact .later opening (.here fold closing)

/-- The block as a stop leaves it. -/
theorem hw_stop_output_off {s t : Observed} (correct : Correct index s)
    (run : Executes (lineSem index) (hwStopOutput index) s () t) :
    Correct index t ∧ Off index t ∧ ∃ u v, StopsAt index u v ∧
      Contains (lineSem index) (hwFlopFold index) u () v (hwStopOutput index) s () t := by
  obtain ⟨ctrl, u, v, contains, stops, closing⟩ := @stop_contains index _ _ (fun ctrl => do
    writeCompv index 0
    writePiv index 0
    writeCtl index (ctlWithout ctrl (ctlEn ||| ctlPm))
    storeBlock index stopped) rfl _ _ _ correct run
  have still := drives_of_disabled stops.disabled
  have cleared (compv piv : BitVec 64) :
      drives ⟨ctlWithout ctrl (ctlEn ||| ctlPm), compv, piv⟩ = false :=
    drives_of_disabled (by simp)
  have tail : Triple (lineSem index)
      (At index (v.block index) (v.line index).regs (v.line index).flop)
      (do
        writeCompv index 0
        writePiv index 0
        writeCtl index (ctlWithout ctrl (ctlEn ||| ctlPm))
        storeBlock index stopped)
      fun _ => At index (stopped (v.block index)) ⟨ctlWithout ctrl (ctlEn ||| ctlPm), 0, 0⟩
        (v.line index).flop := by
    refine Triple.bind (triple_write_compv 0 still) fun _ => ?_
    refine Triple.bind (triple_write_piv 0 still) fun _ => ?_
    refine Triple.bind (triple_writel .ctl _ still (cleared _ _)) fun _ => ?_
    exact triple_store stopped (cleared _ _)
  have left := tail.ends ⟨rfl, rfl, rfl⟩ closing
  have level : (v.line index).flop = (stopped (v.block index)).flopHigh := stops.level.symm
  refine ⟨?_, ⟨?_, ?_⟩, u, v, stops, contains⟩
  · rw [Correct, left.block, left.regs, left.flop]
    exact .resting (cleared _ _) (.inl rfl) level
  · rw [left.regs]
    simp
  · rw [left.block, left.flop, level]

end stopping

end Tgpio.Windows

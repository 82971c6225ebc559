import Tgpio.Windows.LevelMirror

/-!
# Inverting an output while it runs

`tgpio_hw_invert_output` folds, reads COMPV, and moves the pending edge by half a
period with the engine paused. Edges go on coming until the pause. Beside the
machine a count of them is kept, and what it was at the looks and the pause.
-/

namespace Tgpio.Windows

open Interference Interference.Prog

set_option autoImplicit false

/-- How many edges had come at the look of the last fold, at the last look, and
at the pause. -/
structure Placement where
  fold : Nat
  look : Nat
  pause : Option Nat
  deriving DecidableEq, Repr

namespace Placement

variable (placed : Placement)

/-- A fold stores what its look found. Once the engine has been paused, a store
is not a fold of the call. -/
def stored : Placement := if placed.pause = none then { placed with fold := placed.look } else placed

def note (index : BlockIndex) (op : WinOp) (edges : Nat) : Placement :=
  match op with
  | .readl other (.block .compv31_0) =>
      if other = index then { placed with look := edges } else placed
  | .writel other .ctl value =>
      if other = index ∧ hasPm value = false then { placed with pause := some edges } else placed
  | .store other _ => if other = index then placed.stored else placed
  | _ => placed

/-- The edges between the look of the fold and the next. -/
def early : Nat := placed.look - placed.fold

/-- The edges between the last look and the pause. -/
def late : Nat :=
  match placed.pause with
  | some edges => edges - placed.look
  | none => 0

end Placement

structure Timed where
  machine : WinMachine
  edges : Nat
  placed : Placement

namespace Timed

variable (c : Timed) (index : BlockIndex)

def block : WinBlock := c.machine.device.block index
def line : Line := c.machine.line index

def perform (op : WinOp) : Option (op.Resp × Timed) :=
  (c.machine.perform op).map fun done => (done.1, ⟨done.2, c.edges, c.placed.note index op c.edges⟩)

def edge : Timed := { c with machine := c.machine.edge index, edges := c.edges + 1 }

/-- One edge, where the engine runs and COMPV has room. -/
def edgeMove : Timed :=
  if (c.line index).running = true ∧
      (c.line index).regs.compv.toNat + (c.line index).regs.piv.toNat < 2 ^ 64 then c.edge index
  else c

end Timed

/-- What comes between two accesses: an edge, and what is no concern of the block. -/
inductive TimedEnv (index : BlockIndex) : Timed → Timed → Prop where
  | elsewhere {c c' : Timed} : c'.block index = c.block index →
      (c'.line index).regs = (c.line index).regs → (c'.line index).flop = (c.line index).flop →
      c'.edges = c.edges → c'.placed = c.placed → TimedEnv index c c'
  | edge {c : Timed} : (c.line index).running = true →
      (c.line index).regs.compv.toNat + (c.line index).regs.piv.toNat < 2 ^ 64 →
      TimedEnv index c (c.edge index)

def timedSem (index : BlockIndex) : Semantics WinOp WinOp.Resp Timed where
  step op c reply c' := c.perform index op = some (reply, c')
  env := TimedEnv index

/-- A waveform: where COMPV and the level are after so many edges. -/
structure Rhythm where
  block : WinBlock
  ctl : BitVec 32
  origin : Int
  level : Bool
  half : Nat

namespace Rhythm

variable (rhythm : Rhythm)

def compv (edges : Nat) : Int := rhythm.origin + edges * rhythm.half

def flop (edges : Nat) : Bool := rhythm.level ^^ edges.bodd

/-- The same waveform, with another record of it. -/
def recorded (update : WinBlock → WinBlock) : Rhythm :=
  { rhythm with block := update rhythm.block }

structure On (index : BlockIndex) (c : Timed) : Prop where
  block : c.block index = rhythm.block
  ctl : (c.line index).regs.ctl = rhythm.ctl
  piv : (c.line index).regs.piv.toNat = rhythm.half
  compv : ((c.line index).regs.compv.toNat : Int) = rhythm.compv c.edges
  flop : (c.line index).flop = rhythm.flop c.edges

end Rhythm

section moves

variable {index : BlockIndex} {rhythm : Rhythm}

theorem timed_step {op : WinOp} {c c' : Timed} {reply : op.Resp}
    (step : c.perform index op = some (reply, c')) :
    c.machine.perform op = some (reply, c'.machine) ∧ c'.edges = c.edges ∧
      c'.placed = c.placed.note index op c.edges := by
  obtain ⟨done, performed, same⟩ := Option.map_eq_some_iff.mp step
  cases same
  exact ⟨performed, rfl, rfl⟩

theorem edge_line (c : Timed) : (c.edge index).line index =
    { c.line index with
      flop := !(c.line index).flop
      regs := { (c.line index).regs with
        compv := (c.line index).regs.compv + (c.line index).regs.piv } } := by
  simp [Timed.edge, Timed.line, WinMachine.edge, WinMachine.updateLine]

theorem on_env {c c' : Timed} (on : rhythm.On index c) (step : TimedEnv index c c') :
    rhythm.On index c' := by
  cases step with
  | elsewhere block regs flop edges placed =>
      refine ⟨block.trans on.block, ?_, ?_, ?_, ?_⟩
      · rw [regs, on.ctl]
      · rw [regs, on.piv]
      · rw [regs, edges, on.compv]
      · rw [flop, edges, on.flop]
  | edge running fits =>
      refine ⟨on.block, ?_, ?_, ?_, ?_⟩
      · rw [edge_line, ← on.ctl]
      · rw [edge_line, ← on.piv]
      · rw [edge_line, BitVec.toNat_add, Nat.mod_eq_of_lt fits, Nat.cast_add, on.compv, on.piv]
        unfold Rhythm.compv Timed.edge
        push_cast
        ring
      · rw [edge_line, on.flop]
        simp [Rhythm.flop, Timed.edge]

/-- Edges so far, and all that the driver has noted of them. -/
structure InStep (index : BlockIndex) (rhythm : Rhythm) (placed : Placement) (least : Nat)
    (c : Timed) : Prop where
  on : rhythm.On index c
  placed : c.placed = placed
  least : least ≤ c.edges

variable {placed : Placement} {least : Nat}

theorem env_edges {c c' : Timed} (step : TimedEnv index c c') :
    c.edges ≤ c'.edges ∧ c'.placed = c.placed := by
  cases step with
  | elsewhere block regs flop edges placed => exact ⟨edges.ge, placed⟩
  | edge running fits => exact ⟨Nat.le_succ _, rfl⟩

theorem stable_in_step : Stable (timedSem index) (InStep index rhythm placed least) := by
  intro c c' step holds
  obtain ⟨more, same⟩ := env_edges step
  exact ⟨on_env holds.on step, same.trans holds.placed, holds.least.trans more⟩

/-- Where a read is looked at from: every waveform goes on. -/
structure Onward (index : BlockIndex) (c c' : Timed) : Prop where
  edges : c.edges ≤ c'.edges
  rises : (c.line index).regs.compv.toNat ≤ (c'.line index).regs.compv.toNat
  on : ∀ {rhythm : Rhythm}, rhythm.On index c → rhythm.On index c'
  fold : c'.placed.fold = c.placed.fold
  pause : c'.placed.pause = c.placed.pause

theorem Onward.trans {c d e : Timed} (before : Onward index c d) (after : Onward index d e) :
    Onward index c e where
  edges := before.edges.trans after.edges
  rises := before.rises.trans after.rises
  on holds := after.on (before.on holds)
  fold := after.fold.trans before.fold
  pause := after.pause.trans before.pause

theorem env_onward {c c' : Timed} (step : TimedEnv index c c') : Onward index c c' := by
  obtain ⟨more, same⟩ := env_edges step
  refine ⟨more, ?_, fun holds => on_env holds step, by rw [same], by rw [same]⟩
  cases step with
  | elsewhere block regs flop edges placed => rw [regs]
  | edge running fits =>
      rw [edge_line, BitVec.toNat_add, Nat.mod_eq_of_lt fits]
      exact Nat.le_add_right _ _

/-- The last look was at `u`. -/
def LookedAt (index : BlockIndex) (u c : Timed) : Prop :=
  Onward index u c ∧ c.placed.look = u.edges

theorem timed_readl {reg : WinReg} {c c' : Timed} {reply : BitVec 32}
    (step : c.perform index (.readl index reg) = some (reply, c')) :
    reply = (c.line index).read reg ∧ c'.block index = c.block index ∧
      (c'.line index).regs = (c.line index).regs ∧ (c'.line index).flop = (c.line index).flop := by
  obtain ⟨performed, -, -⟩ := timed_step step
  obtain ⟨machine, edges, placed⟩ := c'
  obtain ⟨-, answered⟩ := Option.ite_none_right_eq_some.mp performed
  cases answered
  refine ⟨rfl, rfl, ?_, ?_⟩ <;> cases reg <;>
    simp [Timed.line, Line.readEffect]

/-- A read leaves the waveform; what it notes is the look. -/
theorem readl_onward {reg : WinReg} {c c' : Timed} {reply : BitVec 32}
    (step : c.perform index (.readl index reg) = some (reply, c')) : Onward index c c' := by
  obtain ⟨-, edges, placed⟩ := timed_step step
  obtain ⟨-, block, regs, flop⟩ := timed_readl step
  have kept : c'.placed.fold = c.placed.fold ∧ c'.placed.pause = c.placed.pause := by
    rw [placed]
    unfold Placement.note
    split
    · split <;> exact ⟨rfl, rfl⟩
    · contradiction
    · contradiction
    · exact ⟨rfl, rfl⟩
  refine ⟨edges.ge, by rw [regs], ?_, kept.1, kept.2⟩
  intro rhythm on
  refine ⟨block.trans on.block, ?_, ?_, ?_, ?_⟩
  · rw [regs, on.ctl]
  · rw [regs, on.piv]
  · rw [regs, edges, on.compv]
  · rw [flop, edges, on.flop]

theorem looking_timed : Looking (timedSem index) (Onward index) (LookedAt index) where
  refl c := ⟨le_rfl, le_rfl, fun on => on, rfl, rfl⟩
  trans := .trans
  env := env_onward
  passed since := since.1
  kept := by
    intro u c c' step since
    exact ⟨since.1.trans (env_onward step), (congrArg Placement.look (env_edges step).2).trans since.2⟩

theorem timed_reads_high : ReadsHigh (timedSem index) (Onward index) (LookedAt index)
    (readl index (.block .compv63_32)) fun c => upperWord (c.line index).regs.compv := by
  apply reads_high_perform looking_timed
  intro c reply c' step
  have onward := readl_onward step
  refine ⟨(timed_readl step).1, onward, fun u since => ⟨since.1.trans onward, ?_⟩⟩
  rw [(timed_step step).2.2]
  exact since.2

theorem timed_reads_low : ReadsLow (timedSem index) (Onward index) (LookedAt index)
    (readl index (.block .compv31_0)) fun c => lowerWord (c.line index).regs.compv := by
  apply reads_low_perform looking_timed
  intro c reply c' step
  refine ⟨(timed_readl step).1, readl_onward step, ?_⟩
  rw [(timed_step step).2.2]
  simp [Placement.note]

/-- A read of COMPV in step: the waveform after so many edges. -/
theorem triple_read_compv_timed :
    Triple (timedSem index) (InStep index rhythm placed least) (readCompv index)
      fun compv c => ∃ edges, (least ≤ edges ∧ (compv : Int) = rhythm.compv edges) ∧
        InStep index rhythm { placed with look := edges } edges c := by
  intro c holds
  have reads := torn_read_spec (@looking_timed index) (fun high low => (joinWords high low).toNat)
    BitVec.toNat (fun _ _ => BitVec.eq_of_toNat_eq) (fun _ _ later => upper_word_mono later.rises)
    timed_reads_high timed_reads_low c
  refine wp_mono ?_ reads
  rintro compv t ⟨u, reached, rfl, passed, look⟩
  refine ⟨u.edges, ⟨holds.least.trans reached.edges, ?_⟩, ?_, ?_, passed.edges⟩
  · rw [join_words]
    exact (reached.on holds.on).compv
  · exact passed.on (reached.on holds.on)
  · have fold := passed.fold.trans reached.fold
    have pause := passed.pause.trans reached.pause
    rw [holds.placed] at fold pause
    rw [← fold, ← pause, ← look]

theorem triple_get_device_timed :
    Triple (timedSem index) (InStep index rhythm placed least) getDevice
      fun dev c => dev.block index = rhythm.block ∧ InStep index rhythm placed least c := by
  refine Triple.call stable_in_step
    (fun _ s t step holds => ⟨holds.1, stable_in_step s t step holds.2⟩) ?_
  intro c dev c' holds step
  cases step
  exact ⟨holds.on.block, holds⟩

theorem triple_store_timed (update : WinBlock → WinBlock) :
    Triple (timedSem index) (InStep index rhythm placed least) (storeBlock index update)
      fun _ => InStep index (rhythm.recorded update) placed.stored least := by
  refine Triple.call stable_in_step (fun _ => stable_in_step) ?_
  intro c reply c' holds step
  have noted := (timed_step step).2.2
  cases step
  refine ⟨⟨?_, holds.on.ctl, holds.on.piv, holds.on.compv, holds.on.flop⟩, ?_, holds.least⟩
  · simp [Timed.block, WinMachine.updateBlock, Rhythm.recorded, ← holds.on.block]
  · rw [noted, ← holds.placed]
    exact if_pos rfl

theorem compv_mono {first second : Nat} (order : first ≤ second) :
    rhythm.compv first ≤ rhythm.compv second := by
  have more : (first : Int) * rhythm.half ≤ second * rhythm.half := by
    exact_mod_cast Nat.mul_le_mul_right rhythm.half order
  unfold Rhythm.compv
  omega

/-- A fold in step: the record of the waveform at its look. -/
theorem triple_hw_flop_fold_timed (live : rhythm.block.hwPiv ≠ 0)
    (ahead : rhythm.block.ckptCompv ≤ rhythm.compv least) :
    Triple (timedSem index) (InStep index rhythm placed least) (hwFlopFold index)
      fun _ c => ∃ edges, least ≤ edges ∧
        InStep index (rhythm.recorded (folded (rhythm.compv edges).toNat))
          ({ placed with look := edges } : Placement).stored edges c := by
  refine triple_get_device_timed.bind fun dev => Triple.given fun known => ?_
  rw [known, if_neg live]
  refine triple_read_compv_timed.bind fun compv => Triple.named fun edges => ?_
  refine Triple.given fun ⟨later, value⟩ => ?_
  have beyond := ahead.trans (compv_mono later)
  have read : compv = (rhythm.compv edges).toNat := by rw [← value, Int.toNat_natCast]
  rw [if_neg (by omega), read]
  exact (triple_store_timed _).post fun _ _ holds => ⟨edges, later, holds⟩

end moves

section pausing

variable {index : BlockIndex} {rhythm : Rhythm} {placed : Placement} {least : Nat}

/-- The engine is paused: the registers, the level and the count of edges stand. -/
structure Paused (index : BlockIndex) (block : WinBlock) (regs : Regs) (flop : Bool) (edges : Nat)
    (placed : Placement) (c : Timed) : Prop where
  block : c.block index = block
  regs : (c.line index).regs = regs
  flop : (c.line index).flop = flop
  edges : c.edges = edges
  placed : c.placed = placed

variable {block : WinBlock} {regs : Regs} {flop : Bool} {edges : Nat}

theorem stable_paused (stopped : drives regs = false) :
    Stable (timedSem index) (Paused index block regs flop edges placed) := by
  intro c c' step holds
  cases step with
  | elsewhere sameBlock sameRegs sameFlop sameEdges samePlaced =>
      exact ⟨sameBlock.trans holds.block, sameRegs.trans holds.regs, sameFlop.trans holds.flop,
        sameEdges.trans holds.edges, samePlaced.trans holds.placed⟩
  | edge running fits =>
      have drives : drives (c.line index).regs = true := running
      rw [holds.regs, stopped] at drives
      contradiction

theorem timed_writel {reg : Reg} {value : BitVec 32} {c c' : Timed} {reply : Unit}
    (step : c.perform index (.writel index reg value) = some (reply, c')) :
    c'.block index = c.block index ∧ (c'.line index).regs = (c.line index).regs.write reg value ∧
      (c'.line index).flop = (c.line index).flop := by
  obtain ⟨performed, -, -⟩ := timed_step step
  obtain ⟨machine, edges, placed⟩ := c'
  obtain ⟨-, answered⟩ := Option.ite_none_right_eq_some.mp performed
  cases answered
  refine ⟨rfl, ?_, ?_⟩ <;> simp [Timed.line, Line.write]

theorem triple_read_ctl_timed :
    Triple (timedSem index) (InStep index rhythm placed least) (readCtl index)
      fun ctrl c => ctrl = rhythm.ctl ∧ InStep index rhythm placed least c := by
  refine Triple.call stable_in_step
    (fun _ s t step holds => ⟨holds.1, stable_in_step s t step holds.2⟩) ?_
  intro c ctrl c' holds step
  obtain ⟨answer, -, -, -⟩ := timed_readl step
  have onward := readl_onward step
  refine ⟨answer.trans holds.on.ctl, onward.on holds.on, ?_, holds.least.trans onward.edges⟩
  rw [(timed_step step).2.2]
  exact holds.placed

/-- The engine stops where it is. -/
theorem triple_pause :
    Triple (timedSem index) (InStep index rhythm placed least)
      (writeCtl index (ctlWithout rhythm.ctl ctlPm))
      fun _ c => ∃ edges regs, (least ≤ edges ∧ regs.ctl = ctlWithout rhythm.ctl ctlPm ∧
          regs.piv.toNat = rhythm.half) ∧
        Paused index rhythm.block regs (rhythm.flop edges) edges
          { placed with pause := some edges } c := by
  refine Triple.call stable_in_step (fun _ c c' step ⟨edges, regs, facts, holds⟩ => ?_) ?_
  · have stopped : drives regs = false := by simp [drives, Regs.running, facts.2.1]
    exact ⟨edges, regs, facts, stable_paused stopped _ _ step holds⟩
  · intro c reply c' holds step
    obtain ⟨-, edges, noted⟩ := timed_step step
    obtain ⟨block, regs, flop⟩ := timed_writel step
    refine ⟨c.edges, _, ⟨holds.least, ?_, ?_⟩, block.trans holds.on.block, regs,
      flop.trans holds.on.flop, edges, ?_⟩
    · simp [Regs.write]
    · exact holds.on.piv
    · rw [noted, ← holds.placed]
      simp [Placement.note]

theorem triple_writel_paused (reg : Reg) (value : BitVec 32) (compv : reg ≠ .ctl)
    (stopped : drives regs = false) (stays : drives (regs.write reg value) = false) :
    Triple (timedSem index) (Paused index block regs flop edges placed) (writel index reg value)
      fun _ => Paused index block (regs.write reg value) flop edges placed := by
  refine Triple.call (stable_paused stopped) (fun _ => stable_paused stays) ?_
  intro c reply c' holds step
  obtain ⟨-, same, noted⟩ := timed_step step
  obtain ⟨sameBlock, written, sameFlop⟩ := timed_writel step
  refine ⟨sameBlock.trans holds.block, by rw [written, holds.regs], sameFlop.trans holds.flop,
    same.trans holds.edges, ?_⟩
  rw [noted, ← holds.placed]
  cases reg <;> first | contradiction | rfl

theorem triple_write_compv_timed (value : Nat) (stopped : drives regs = false) :
    Triple (timedSem index) (Paused index block regs flop edges placed) (writeCompv index value)
      fun _ => Paused index block { regs with compv := BitVec.ofNat 64 value } flop edges placed := by
  refine (triple_writel_paused .compv63_32 (upper32Bits value) (by decide) stopped stopped).bind fun _ => ?_
  rw [← write_compv_words]
  exact triple_writel_paused .compv31_0 (lower32Bits value) (by decide) stopped stopped

/-- The engine goes on from where COMPV is now. -/
theorem triple_resume {ctrl : BitVec 32} (stopped : drives regs = false)
    (periodic : hasPm ctrl = true) :
    Triple (timedSem index) (Paused index block regs flop edges placed) (writeCtl index ctrl)
      fun _ => InStep index
        ⟨block, ctrl, regs.compv.toNat - edges * regs.piv.toNat, flop ^^ edges.bodd,
          regs.piv.toNat⟩ placed edges := by
  refine Triple.call (stable_paused stopped) (fun _ => stable_in_step) ?_
  intro c reply c' holds step
  obtain ⟨-, same, noted⟩ := timed_step step
  obtain ⟨sameBlock, written, sameFlop⟩ := timed_writel step
  rw [holds.regs] at written
  refine ⟨⟨sameBlock.trans holds.block, ?_, ?_, ?_, ?_⟩, ?_, (same.trans holds.edges).ge⟩
  · rw [written]
    rfl
  · rw [written]
    rfl
  · rw [written, same, holds.edges]
    simp [Regs.write, Rhythm.compv]
  · rw [sameFlop, holds.flop, same, holds.edges]
    simp [Rhythm.flop]
  · rw [noted, ← holds.placed]
    simp [Placement.note, periodic]

/-- The waveform after a rewrite of COMPV with so many edges before the pause. -/
def Rhythm.rewritten (rhythm : Rhythm) (compv edges : Nat) : Rhythm :=
  { rhythm with
    block := checkpointed compv rhythm.block
    origin := compv - edges * rhythm.half }

theorem triple_hw_write_compv_paused {compv : Nat} (periodic : hasPm rhythm.ctl = true)
    (fits : compv < 2 ^ 64) :
    Triple (timedSem index) (InStep index rhythm placed least) (hwWriteCompvPaused index compv)
      fun _ c => ∃ edges, least ≤ edges ∧
        InStep index (rhythm.rewritten compv edges) { placed with pause := some edges } edges c := by
  refine triple_read_ctl_timed.bind_known (triple_pause.bind fun _ => ?_)
  refine Triple.named fun edges => Triple.named fun regs => Triple.given fun ⟨later, ctl, piv⟩ => ?_
  have stopped (compv : BitVec 64) : drives { regs with compv } = false := by
    simp [drives, Regs.running, ctl]
  refine (triple_write_compv_timed compv (stopped _)).bind fun _ => ?_
  refine (triple_resume (stopped _) periodic).bind fun _ => ?_
  refine (triple_store_timed _).post fun _ c holds => ⟨edges, later, ?_⟩
  have level : (rhythm.flop edges ^^ edges.bodd) = rhythm.level := by
    simp [Rhythm.flop]
  dsimp only at holds
  rw [level, piv, BitVec.toNat_ofNat, Nat.mod_eq_of_lt fits] at holds
  exact holds

end pausing

section inverting

variable {index : BlockIndex} {rhythm : Rhythm} {least : Nat}

/-- The record of an inverted output after the fold. -/
def Rhythm.inverted (rhythm : Rhythm) (fold : Nat) : Rhythm :=
  (rhythm.recorded flipped).recorded (folded (rhythm.compv fold).toNat)

/-- How a call ends: with no room for the move, or with the pending edge moved by
half a period from where the last look found it. -/
inductive Ends (index : BlockIndex) (rhythm : Rhythm) (fold look : Nat) (c : Timed) : Prop where
  | cramped : u64Max < rhythm.compv look + rhythm.block.hwPiv →
      InStep index (rhythm.inverted fold) ⟨fold, look, none⟩ look c → Ends index rhythm fold look c
  | moved (pause : Nat) : rhythm.compv look + rhythm.block.hwPiv ≤ u64Max → look ≤ pause →
      InStep index
        ((rhythm.inverted fold).rewritten ((rhythm.compv look).toNat + rhythm.block.hwPiv) pause)
        ⟨fold, look, some pause⟩ pause c →
      Ends index rhythm fold look c

theorem triple_hw_invert_output (live : rhythm.block.hwPiv ≠ 0) (bound : rhythm.block.hwPiv ≤ u64Max)
    (periodic : hasPm rhythm.ctl = true) (ahead : rhythm.block.ckptCompv ≤ rhythm.compv least) :
    Triple (timedSem index) (InStep index rhythm ⟨0, 0, none⟩ least) (hwInvertOutput index)
      fun _ c => ∃ fold look, (least ≤ fold ∧ fold ≤ look) ∧ Ends index rhythm fold look c := by
  refine (triple_store_timed flipped).bind fun _ => ?_
  refine triple_get_device_timed.bind fun dev => Triple.given fun known => ?_
  have alive : (rhythm.recorded flipped).block.hwPiv ≠ 0 := live
  rw [known, if_neg alive]
  have folds := @triple_hw_flop_fold_timed index (rhythm.recorded flipped) ⟨0, 0, none⟩ least
    alive ahead
  refine folds.bind fun _ => ?_
  refine Triple.named fun fold => Triple.given fun first => ?_
  refine triple_read_compv_timed.bind fun compv => Triple.named fun look => ?_
  refine Triple.given fun ⟨second, value⟩ => ?_
  have read : (compv : Int) = rhythm.compv look := value
  have same : (rhythm.compv look).toNat = compv := by rw [← read, Int.toNat_natCast]
  change Triple _ _ (if compv > u64Max - rhythm.block.hwPiv then _ else _) _
  by_cases cramped : compv > u64Max - rhythm.block.hwPiv
  · rw [if_pos cramped]
    refine Triple.pure stable_in_step fun c holds => ⟨fold, look, ⟨first, second⟩, ?_⟩
    refine .cramped (by omega) holds
  · rw [if_neg cramped]
    have fits : compv + rhythm.block.hwPiv < 2 ^ 64 := by
      unfold u64Max at bound cramped
      omega
    have rewrites := @triple_hw_write_compv_paused index (rhythm.inverted fold) ⟨fold, look, none⟩
      look _ periodic fits
    refine Triple.post rewrites fun _ c ⟨pause, later, holds⟩ => ?_
    refine ⟨fold, look, ⟨first, second⟩, .moved pause (by omega) later ?_⟩
    rw [same]
    exact holds

/-- The mirror, with the edges since its checkpoint counted. -/
def WinBlock.told (block : WinBlock) (compv : Nat) : Bool :=
  block.flopHigh ^^ ((compv - block.ckptCompv) / block.hwPiv).bodd

/-- The mirror tells the level. -/
def Agrees (index : BlockIndex) (c : Timed) : Prop :=
  (c.block index).told (c.line index).regs.compv.toNat = (c.line index).flop

instance (index : BlockIndex) (c : Timed) : Decidable (Agrees index c) :=
  inferInstanceAs (Decidable (_ = _))

/-- Whether the mirror of a waveform is wrong after so many edges. -/
def Rhythm.astray (rhythm : Rhythm) (edges : Nat) : Bool :=
  rhythm.block.told (rhythm.compv edges).toNat ^^ rhythm.flop edges

theorem agrees_iff {c : Timed} (on : rhythm.On index c) :
    Agrees index c ↔ rhythm.astray c.edges = false := by
  have compv : (rhythm.compv c.edges).toNat = (c.line index).regs.compv.toNat := by
    rw [← on.compv, Int.toNat_natCast]
  unfold Agrees Rhythm.astray
  rw [on.block, on.flop, compv]
  simp

/-- Edges take the mirror and the level along. -/
theorem astray_later {first second : Nat} (live : rhythm.block.hwPiv ≠ 0)
    (half : rhythm.half = rhythm.block.hwPiv) (ahead : rhythm.block.ckptCompv ≤ rhythm.compv first)
    (order : first ≤ second) : rhythm.astray second = rhythm.astray first := by
  obtain ⟨more, rfl⟩ := Nat.exists_eq_add_of_le order
  have grown : rhythm.compv (first + more) = rhythm.compv first + (rhythm.block.hwPiv * more : Nat) := by
    unfold Rhythm.compv
    rw [half]
    push_cast
    ring
  have distance : (rhythm.compv (first + more)).toNat - rhythm.block.ckptCompv =
      (rhythm.compv first).toNat - rhythm.block.ckptCompv + rhythm.block.hwPiv * more := by
    rw [grown]
    omega
  unfold Rhythm.astray WinBlock.told Rhythm.flop
  rw [distance, Nat.add_mul_div_left _ _ (Nat.pos_of_ne_zero live), Nat.bodd_add, Nat.bodd_add]
  cases more.bodd <;> simp

theorem astray_at_checkpoint {edges : Nat}
    (here : (rhythm.compv edges).toNat ≤ rhythm.block.ckptCompv) :
    rhythm.astray edges = (rhythm.block.flopHigh ^^ rhythm.flop edges) := by
  unfold Rhythm.astray WinBlock.told
  rw [Nat.sub_eq_zero_of_le here, Nat.zero_div]
  simp

theorem astray_flipped (edges : Nat) :
    (rhythm.recorded flipped).astray edges = !rhythm.astray edges := by
  change ((!rhythm.block.flopHigh) ^^ _ ^^ rhythm.flop edges) = _
  unfold Rhythm.astray WinBlock.told
  simp [Rhythm.recorded, flipped, Rhythm.compv]

theorem astray_folded (edges : Nat) :
    (rhythm.recorded (folded (rhythm.compv edges).toNat)).astray edges = rhythm.astray edges := by
  rw [astray_at_checkpoint le_rfl]
  change ((folded _ _).flopHigh ^^ rhythm.flop edges) = _
  rw [folded_flop_high]
  rfl

/-- The edges between a checkpoint and a pause are lost to the mirror. -/
theorem astray_rewritten {compv fold pause : Nat} (order : fold ≤ pause)
    (here : (rhythm.compv fold).toNat ≤ rhythm.block.ckptCompv) :
    (rhythm.rewritten compv pause).astray pause = (rhythm.astray fold ^^ (pause - fold).bodd) := by
  have paused : ((rhythm.rewritten compv pause).compv pause).toNat = compv := by
    change (((compv : Int) - pause * rhythm.half) + pause * rhythm.half).toNat = compv
    rw [Int.sub_add_cancel, Int.toNat_natCast]
  obtain ⟨lost, rfl⟩ := Nat.exists_eq_add_of_le order
  rw [astray_at_checkpoint here, astray_at_checkpoint (by rw [paused]; exact le_rfl)]
  change (rhythm.block.flopHigh ^^ rhythm.flop (fold + lost)) = _
  unfold Rhythm.flop
  rw [Nat.bodd_add, Nat.add_sub_cancel_left]
  cases lost.bodd <;> simp

/-- What the next fold finds. -/
theorem fold_tells {placed : Placement} {c c' : Timed} (holds : InStep index rhythm placed least c)
    (live : rhythm.block.hwPiv ≠ 0) (half : rhythm.half = rhythm.block.hwPiv)
    (ahead : rhythm.block.ckptCompv ≤ rhythm.compv least)
    (run : Executes (timedSem index) (hwFlopFold index) c () c') :
    (Agrees index c' ↔ rhythm.astray least = false) ∧
      ((c'.line index).regs.compv.toNat : Int) = rhythm.compv c'.edges := by
  obtain ⟨look, later, on, -, onward⟩ := (triple_hw_flop_fold_timed live ahead).ends holds run
  have settles := @astray_later (rhythm.recorded (folded (rhythm.compv look).toNat)) look c'.edges
    live half
  have reached : (rhythm.block.ckptCompv : Int) ≤ rhythm.compv look := ahead.trans (compv_mono later)
  refine ⟨?_, on.compv⟩
  rw [agrees_iff on, settles ?_ onward, astray_folded, astray_later live half ahead later]
  change (((rhythm.compv look).toNat : Nat) : Int) ≤ rhythm.compv look
  omega

/-- The output generates a symmetric waveform that the driver has on record. -/
structure Generates (index : BlockIndex) (c : Timed) : Prop where
  running : drives (c.line index).regs = true
  live : (c.block index).hwPiv ≠ 0
  piv : (c.line index).regs.piv.toNat = (c.block index).hwPiv
  symmetric : (c.block index).highCycles = (c.block index).hwPiv ∧
    (c.block index).lowCycles = (c.block index).hwPiv
  ahead : (c.block index).ckptCompv ≤ (c.line index).regs.compv.toNat

/-- The pending edge is half a period later than it would be after as many edges. -/
def Shifted (index : BlockIndex) (c c' : Timed) : Prop :=
  (c'.line index).regs.compv.toNat =
    (c.line index).regs.compv.toNat + (c'.edges + 1) * (c.block index).hwPiv

instance (index : BlockIndex) (c c' : Timed) : Decidable (Shifted index c c') :=
  inferInstanceAs (Decidable (_ = _))

/-- The waveform of an output at the beginning of a call. -/
def Timed.waveform (c : Timed) (index : BlockIndex) : Rhythm :=
  ⟨c.block index, (c.line index).regs.ctl, (c.line index).regs.compv.toNat, (c.line index).flop,
    (c.line index).regs.piv.toNat⟩

theorem waveform_on {c : Timed} (counted : c.edges = 0) : (c.waveform index).On index c := by
  refine ⟨rfl, rfl, rfl, ?_, ?_⟩
  · simp [Timed.waveform, Rhythm.compv, counted]
  · simp [Timed.waveform, Rhythm.flop, counted]

theorem waveform_compv {c : Timed} (generates : Generates index c) (edges : Nat) :
    (c.waveform index).compv edges =
      (((c.line index).regs.compv.toNat + edges * (c.block index).hwPiv : Nat) : Int) := by
  unfold Timed.waveform Rhythm.compv
  rw [generates.piv]
  push_cast
  rfl

theorem Generates.periodic {c : Timed} (generates : Generates index c) :
    hasPm (c.waveform index).ctl = true := by
  have running := generates.running
  simp only [drives, Regs.running, Bool.and_eq_true] at running
  exact running.1.2

theorem Generates.bound {c : Timed} (generates : Generates index c) :
    (c.waveform index).block.hwPiv ≤ u64Max := by
  have small := (c.line index).regs.piv.isLt
  change (c.block index).hwPiv ≤ u64Max
  rw [← generates.piv]
  unfold u64Max
  exact Nat.le_sub_one_of_lt small

theorem Generates.checkpoint {c : Timed} (generates : Generates index c) :
    ((c.waveform index).block.ckptCompv : Int) ≤ (c.waveform index).compv 0 := by
  have known : (c.waveform index).block.ckptCompv ≤ (c.line index).regs.compv.toNat :=
    generates.ahead
  rw [waveform_compv generates, Nat.zero_mul]
  omega

theorem inverted_checkpoint {c : Timed} (generates : Generates index c) (fold : Nat) :
    (((c.waveform index).inverted fold).block.ckptCompv : Int) ≤
      ((c.waveform index).inverted fold).compv fold := by
  change (((c.waveform index).compv fold).toNat : Int) ≤ (c.waveform index).compv fold
  rw [waveform_compv generates]
  omega

/-- The inverted mirror is astray where the mirror was not. -/
theorem astray_inverted {fold : Nat} (live : rhythm.block.hwPiv ≠ 0)
    (half : rhythm.half = rhythm.block.hwPiv) (ahead : rhythm.block.ckptCompv ≤ rhythm.compv 0) :
    (rhythm.inverted fold).astray fold = !rhythm.astray 0 := by
  have folds := @astray_folded (rhythm.recorded flipped) fold
  rw [astray_flipped, astray_later live half ahead (Nat.zero_le fold)] at folds
  exact folds

/-- The edges that come between the last look and the pause are taken back. -/
theorem shifted_iff {c c' : Timed} {look lost : Nat} (live : (c.block index).hwPiv ≠ 0)
    (compv : ((c'.line index).regs.compv.toNat : Int) =
      (((c.line index).regs.compv.toNat + look * (c.block index).hwPiv +
          (c.block index).hwPiv : Nat) : Int) -
        ((look + lost : Nat) : Int) * (c.block index).hwPiv +
        c'.edges * (c.block index).hwPiv) :
    Shifted index c c' ↔ lost = 0 := by
  unfold Shifted
  generalize (c.block index).hwPiv = piv at live compv ⊢
  have positive := Nat.pos_of_ne_zero live
  rw [Nat.add_mul, Nat.one_mul]
  push_cast at compv
  rw [Int.add_mul] at compv
  constructor
  · intro shifted
    by_contra some_
    have product : (0 : Int) < lost * piv := by
      exact_mod_cast Nat.mul_pos (Nat.pos_of_ne_zero some_) positive
    omega
  · rintro rfl
    rw [Nat.cast_zero, Int.zero_mul] at compv
    omega

/-- A pending edge that has not been moved is not where the call was to put it. -/
theorem unmoved_not_shifted {c c' : Timed} (generates : Generates index c)
    (compv : ((c'.line index).regs.compv.toNat : Int) = (c.waveform index).compv c'.edges) :
    ¬Shifted index c c' := by
  intro shifted
  have positive := Nat.pos_of_ne_zero generates.live
  rw [waveform_compv generates] at compv
  rw [Shifted, Nat.add_mul, Nat.one_mul] at shifted
  omega

/-- The inversion turns what the mirror tells over, and each edge it misses turns it back. -/
theorem turned_over_iff {before after : Prop} {astray : Bool} {missed : Nat}
    (told : before ↔ astray = false) (tells : after ↔ ((!astray) ^^ missed.bodd) = false) :
    (after ↔ ¬before) ↔ missed % 2 = 0 := by
  rw [told, tells, Nat.mod_two_of_bodd]
  cases astray <;> cases missed.bodd <;> simp

/-- An inversion does its work exactly where an even number of edges falls between
its two looks, none between the second look and the pause, and COMPV has room. -/
theorem invert_output_exact (index : BlockIndex) (c c' c'' : Timed) (generates : Generates index c)
    (counted : c.edges = 0) (fresh : c.placed = ⟨0, 0, none⟩)
    (run : Executes (timedSem index) (hwInvertOutput index) c () c')
    (fold : Executes (timedSem index) (hwFlopFold index) c' () c'') :
    ((Agrees index c'' ↔ ¬Agrees index c) ∧ Shifted index c c'') ↔
      c'.placed.early % 2 = 0 ∧ c'.placed.late = 0 ∧
        (c.line index).regs.compv.toNat + (c'.placed.look + 1) * (c.block index).hwPiv ≤
          u64Max := by
  have live : (c.waveform index).block.hwPiv ≠ 0 := generates.live
  have half : (c.waveform index).half = (c.waveform index).block.hwPiv := generates.piv
  have agreed : Agrees index c ↔ (c.waveform index).astray 0 = false :=
    counted ▸ agrees_iff (waveform_on counted)
  obtain ⟨first, look, ⟨-, order⟩, ends⟩ :=
    (triple_hw_invert_output live generates.bound generates.periodic generates.checkpoint).ends
      ⟨waveform_on counted, fresh, Nat.zero_le _⟩ run
  cases ends with
  | cramped full holds =>
      have full : u64Max < (c.waveform index).compv look + (c.block index).hwPiv := full
      have reached := (inverted_checkpoint generates first).trans (compv_mono order)
      obtain ⟨-, compv⟩ := fold_tells holds live half reached fold
      constructor
      · rintro ⟨-, shifted⟩
        exact absurd shifted (unmoved_not_shifted generates compv)
      · rintro ⟨-, -, room⟩
        rw [waveform_compv generates] at full
        rw [holds.placed, Nat.add_mul, Nat.one_mul] at room
        dsimp only at room
        omega
  | moved pause room later holds =>
      have room : (c.waveform index).compv look + (c.block index).hwPiv ≤ u64Max := room
      obtain ⟨agrees, compv⟩ := fold_tells holds live half (by
        change ((((c.waveform index).compv look).toNat + (c.block index).hwPiv : Nat) : Int) ≤
          ((((c.waveform index).compv look).toNat + (c.block index).hwPiv : Nat) : Int) -
            pause * (c.waveform index).half + pause * (c.waveform index).half
        omega) fold
      rw [astray_rewritten (order.trans later) (Nat.le_refl _),
        astray_inverted live half generates.checkpoint] at agrees
      have compv : ((c''.line index).regs.compv.toNat : Int) =
          ((((c.waveform index).compv look).toNat + (c.block index).hwPiv : Nat) : Int) -
            pause * (c.line index).regs.piv.toNat + c''.edges * (c.line index).regs.piv.toNat := compv
      rw [waveform_compv generates, Int.toNat_natCast, generates.piv] at compv
      rw [waveform_compv generates] at room
      obtain ⟨between, rfl⟩ := Nat.exists_eq_add_of_le order
      obtain ⟨lost, rfl⟩ := Nat.exists_eq_add_of_le later
      rw [Nat.add_assoc, Nat.add_sub_cancel_left] at agrees
      have early : c'.placed.early = between := by
        rw [holds.placed]
        exact Nat.add_sub_cancel_left _ _
      have late : c'.placed.late = lost := by
        rw [holds.placed]
        exact Nat.add_sub_cancel_left _ _
      rw [turned_over_iff agreed agrees, shifted_iff generates.live compv, early, late, holds.placed]
      dsimp only
      rw [Nat.add_mul, Nat.one_mul]
      omega

end inverting

section oneCall

/-- A symmetric output that has just started. -/
def justStarted : Timed where
  machine := (freshMachine.updateBlock firstBlock (started 1000 1000 1000 5000)).updateLine firstBlock
    fun line => { line with regs := ⟨ctlWith (ctlEpToggle ||| ctlPm) ctlEn, 5000, 1000⟩ }
  edges := 0
  placed := ⟨0, 0, none⟩

theorem just_started_generates : Generates firstBlock justStarted where
  running := by decide
  live := by decide
  piv := by decide
  symmetric := by decide
  ahead := by decide

def nextEdge (c : Timed) : Timed := c.edgeMove firstBlock

theorem next_edge_rely (c : Timed) : (timedSem firstBlock).Rely c (nextEdge c) := by
  unfold nextEdge Timed.edgeMove
  split
  next runs => exact .single (.edge runs.1 runs.2)
  next => exact .refl

/-- The block after a call, with an edge before some of its accesses. -/
def timedRun (moves : List (Timed → Timed)) (program : WinProg Unit) (c : Timed) : Timed :=
  finalState (fun op c => c.perform firstBlock op) 100 moves program c

theorem timed_run_executes {moves : List (Timed → Timed)}
    (simple : ∀ move ∈ moves, move = id ∨ move = nextEdge) {program : WinProg Unit} {c : Timed}
    (ends : (exec (fun op c => Timed.perform c firstBlock op) 100 moves program c).map Prod.fst =
      some ()) :
    Executes (timedSem firstBlock) program c () (timedRun moves program c) := by
  refine exec_final (fun _ _ _ _ step => step) 100 moves (fun move member s => ?_) _ c () ends
  rcases simple move member with rfl | rfl
  · exact .refl
  · exact next_edge_rely s

/-- One edge before the first look, two between the looks, one after the restart. -/
def harmlessMoves : List (Timed → Timed) :=
  nextEdge :: List.replicate 5 id ++ [nextEdge, nextEdge] ++ List.replicate 7 id ++ [nextEdge]

def harmlessInvert : Timed := timedRun harmlessMoves (hwInvertOutput firstBlock) justStarted

theorem invert_output_exact_harmless :
    harmlessInvert.edges = 4 ∧
      (Agrees firstBlock (timedRun [nextEdge] (hwFlopFold firstBlock) harmlessInvert) ↔
        ¬Agrees firstBlock justStarted) ∧
      Shifted firstBlock justStarted
        (timedRun [nextEdge] (hwFlopFold firstBlock) harmlessInvert) :=
  ⟨by decide +kernel,
    (invert_output_exact firstBlock justStarted harmlessInvert _ just_started_generates rfl rfl
      (timed_run_executes (by simp [harmlessMoves]) (by decide +kernel))
      (timed_run_executes (by simp) (by decide +kernel))).mpr (by decide +kernel)⟩

/-- One edge, after the second look. -/
def lateMoves : List (Timed → Timed) := [id, id, id, id, id, id, id, id, id, id, id, nextEdge]

def lateInvert : Timed := timedRun lateMoves (hwInvertOutput firstBlock) justStarted

/-- The mirror agrees before the call and after, and the pending edge has stayed. -/
theorem late_edge_undoes_invert :
    Generates firstBlock justStarted ∧
      Executes (timedSem firstBlock) (hwInvertOutput firstBlock) justStarted () lateInvert ∧
      Executes (timedSem firstBlock) (hwFlopFold firstBlock) lateInvert ()
        (timedRun [] (hwFlopFold firstBlock) lateInvert) ∧
      lateInvert.placed.late = 1 ∧ Agrees firstBlock justStarted ∧
      Agrees firstBlock (timedRun [] (hwFlopFold firstBlock) lateInvert) ∧
      ¬Shifted firstBlock justStarted (timedRun [] (hwFlopFold firstBlock) lateInvert) := by
  refine ⟨just_started_generates, timed_run_executes (by simp [lateMoves]) (by decide +kernel),
    timed_run_executes (by simp) (by decide +kernel), ?_, ?_, ?_, ?_⟩
  all_goals decide +kernel

end oneCall

end Tgpio.Windows

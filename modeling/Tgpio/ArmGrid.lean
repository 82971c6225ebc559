import Tgpio.LevelParity

/-!
# Where an arm puts its edges

An arm picks a compare slot for the level it believes in, pushes it past the
counter by whole periods, and starts with the interval that belongs to the
first edge. With a correct mirror every later edge then falls on the requested
grid, rises on the request and falls one high time after it.
-/

namespace Tgpio

open Interference Interference.Prog

set_option autoImplicit false

/-! ## The waveform -/

section waveform

variable {flop : Bool} {first high low : Nat}

def rises (flop : Bool) (k : Nat) : Bool := !(flop ^^ k.bodd)

/-- The edges of an engine whose intervals alternate: the high time after a
rise, the low time after a fall. -/
def edgeAtTime (flop : Bool) (first high low : Nat) : Nat → Nat
  | 0 => first
  | k + 1 => edgeAtTime flop first high low k + (if rises flop k then high else low)

theorem rises_succ (k : Nat) : rises flop (k + 1) = !rises flop k := by
  simp only [rises, Nat.bodd_succ]
  cases flop <;> cases k.bodd <;> rfl

/-- Where an edge of one kind may be: a rise on the request, a fall one high
time later, up to whole periods. -/
def gridPoint (rise : Bool) (requested high : Nat) : Nat :=
  if rise then requested else requested + high

theorem edge_on_grid {requested : Nat}
    (start : first % (high + low) = gridPoint (rises flop 0) requested high % (high + low))
    (k : Nat) : edgeAtTime flop first high low k % (high + low) =
      gridPoint (rises flop k) requested high % (high + low) := by
  induction k with
  | zero => exact start
  | succ k ih =>
      rw [edgeAtTime, Nat.add_mod, ih, rises_succ]
      cases rise : rises flop k with
      | true =>
          rw [if_pos rfl, ← Nat.add_mod]
          rfl
      | false =>
          rw [if_neg (by simp), ← Nat.add_mod]
          change (requested + high + low) % (high + low) = requested % (high + low)
          rw [Nat.add_assoc, Nat.add_mod_right]

end waveform

/-! ## The slot -/

section slot

variable {flopHigh : Bool} {firstArt highArt lowArt : Nat}

/-- The slot for a level is on the grid of the edge that comes first. -/
theorem select_slot_on_grid (highBound : highArt ≤ u64Max / 4) (lowBound : lowArt ≤ u64Max / 4) :
    selectSlot flopHigh firstArt highArt lowArt % (highArt + lowArt) =
      gridPoint (!flopHigh) firstArt highArt % (highArt + lowArt) := by
  cases flopHigh with
  | false => rfl
  | true =>
      change (if firstArt > lowArt then firstArt - lowArt else u64 (firstArt + highArt)) %
        (highArt + lowArt) = (firstArt + highArt) % (highArt + lowArt)
      by_cases room : firstArt > lowArt
      · rw [if_pos room]
        have whole : firstArt + highArt = firstArt - lowArt + (highArt + lowArt) := by omega
        rw [whole, Nat.add_mod_right]
      · have small : firstArt + highArt < 2 ^ 64 := by
          unfold u64Max at highBound lowBound
          omega
        rw [if_neg room, u64, Nat.mod_eq_of_lt small]

/-- The guard pushes by whole periods, and past the deadline when it has one. -/
theorem late_arm_guard_pushes {nowArt margin : U64Result} {slot period picked : Nat}
    (positive : 0 < period) (guarded : lateArmGuard nowArt margin slot period = .ok picked) :
    picked % period = slot % period ∧
      ∀ now ahead, nowArt = .ok now → margin = .ok ahead → now + ahead < 2 ^ 64 →
        now + ahead ≤ picked ∧ (picked ≠ slot → now + ahead < picked) := by
  unfold lateArmGuard at guarded
  split at guarded
  next now ahead =>
    split at guarded
    next fits =>
      dsimp only at guarded
      split at guarded
      next late =>
        split at guarded
        · contradiction
        · cases guarded
          refine ⟨by simp, ?_⟩
          rintro now' ahead' ⟨⟩ ⟨⟩ -
          have past := Nat.lt_div_mul_add (a := now + ahead - slot) positive
          have pushed : now + ahead < slot + ((now + ahead - slot) / period + 1) * period := by
            rw [Nat.add_one_mul]
            omega
          exact ⟨pushed.le, fun _ => pushed⟩
      next early =>
        cases guarded
        refine ⟨rfl, ?_⟩
        rintro now' ahead' ⟨⟩ ⟨⟩ -
        exact ⟨by omega, fun moved => absurd rfl moved⟩
    next wraps =>
      cases guarded
      refine ⟨rfl, ?_⟩
      rintro now' ahead' ⟨⟩ ⟨⟩ small
      unfold u64Max at wraps
      omega
  next unread =>
    cases guarded
    exact ⟨rfl, fun now ahead isNow isMargin => (unread now ahead isNow isMargin).elim⟩

theorem late_arm_guard_fails {nowArt margin : U64Result} {slot period : Nat} {status : Errno}
    (positive : 0 < period) (guarded : lateArmGuard nowArt margin slot period = .error status) :
    ∃ now ahead, nowArt = .ok now ∧ margin = .ok ahead ∧ slot < now + ahead ∧
      ∀ k, now + ahead < slot + k * period → u64Max < slot + k * period := by
  unfold lateArmGuard at guarded
  split at guarded
  next now ahead =>
    split at guarded
    next fits =>
      dsimp only at guarded
      split at guarded
      next late =>
        split at guarded
        next crowded =>
          refine ⟨now, ahead, rfl, rfl, late, fun k past => ?_⟩
          by_contra inside
          have least : (now + ahead - slot) / period + 1 ≤ k := by
            rw [Nat.succ_le_iff, Nat.div_lt_iff_lt_mul positive]
            omega
          have most : k ≤ (u64Max - slot) / period := by
            rw [Nat.le_div_iff_mul_le positive]
            omega
          omega
        next => contradiction
      next => contradiction
    next => contradiction
  next => contradiction

end slot

/-! ## The run -/

/-- A waveform that has been started, with the edges it has generated since. -/
structure Launched (first piv : Nat) (flop : Bool) (slots : List Slot) (m : Machine) : Prop where
  running : m.freeRunning = true
  firstArt : m.block.outputHwFirstArt = first
  livePiv : m.block.outputHwPiv = piv
  rate : m.regs.piv.toNat = piv
  edges : ∃ n, m.regs.compv.toNat = first + n * piv ∧ m.flop = (flop ^^ n.bodd)
  slots : m.history.slots = slots

section launch

variable {marks : Marks} {block : MmioBlock} {flop : Bool} {first piv : Nat}

theorem Launched.ran {slots : List Slot} {n : Nat} {s t : Machine}
    (launched : Launched first piv flop slots s) (ran : Ran n s t) :
    Launched first piv flop slots t where
  running := by
    have running := launched.running
    unfold Machine.freeRunning Regs.running at running ⊢
    rw [ran.ctl, running]
  firstArt := by rw [ran.block, launched.firstArt]
  livePiv := by rw [ran.block, launched.livePiv]
  rate := by rw [ran.piv, launched.rate]
  edges := by
    obtain ⟨k, compv, level⟩ := launched.edges
    refine ⟨k + n, ?_, ?_⟩
    · rw [ran.compv, compv, launched.rate]
      ring
    · rw [ran.flop, level, Nat.bodd_add, Bool.xor_assoc]
  slots := (congrArg Marks.slots ran.marks).trans launched.slots

theorem stable_launched {slots : List Slot} :
    Stable edgeSem (Launched first piv flop slots) := by
  intro s t step launched
  obtain ⟨_, ran, -⟩ := edge_rely_ran (.single step)
  exact launched.ran ran

theorem stable_marks : Stable edgeSem fun m => m.marks = marks := by
  intro s t step same
  obtain ⟨_, ran, -⟩ := edge_rely_ran (.single step)
  exact ran.marks.trans same

theorem triple_rearm_stops :
    Triple edgeSem (fun m => m.marks = marks) stopForRearm fun ctrl m =>
      hasEn ctrl = false ∧ hasPm ctrl = false ∧
        ∃ block flop, At block (clearedRegs ctrl) flop marks m := by
  refine Triple.via (fun _ m => m.marks = marks) ?_ fun ctrl => ?_
  · refine Triple.call stable_marks (fun _ => stable_marks) ?_
    intro s reply t same step
    cases step
    exact same
  have off : hasEn (ctlWithout ctrl ctlEn) = false := by simp
  have cleared : hasEn (ctlWithout (ctlWithout ctrl ctlEn) (ctlDir ||| ctlEp ||| ctlPm)) = false :=
    by simp
  refine Triple.via (fun _ m => ∃ block regs flop, regs.ctl = ctlWithout ctrl ctlEn ∧
    At block regs flop marks m) ?_ fun _ => ?_
  · refine Triple.call stable_marks (fun _ => ?_) ?_
    · rintro s t step ⟨block, regs, flop, ctl, at_⟩
      exact ⟨block, regs, flop, ctl,
        stable_at (running_of_disabled (by rw [ctl, off])) s t step at_⟩
    · intro s reply t same step
      cases step
      refine ⟨s.block, { s.regs with ctl := ctlWithout ctrl ctlEn }, s.flop, rfl, rfl, rfl, rfl, ?_⟩
      rw [← same]
      simp [Machine.writeReg, Machine.marks, Machine.writeCtlHistory]
  · rintro s ⟨block, regs, flop, ctl, at_⟩
    have stopped : regs.running = false := running_of_disabled (by rw [ctl, off])
    refine Triple.bind (triple_fold stopped) (fun _ => ?_) s at_
    refine Triple.bind (triple_write_compv 0 stopped) fun _ => ?_
    refine Triple.bind (triple_write_piv 0 stopped) fun _ => ?_
    refine Triple.bind (triple_writel .ctl _ stopped (running_of_disabled cleared)) fun _ => ?_
    exact Triple.pure (stable_at (running_of_disabled cleared)) fun m at_ =>
      ⟨cleared, by simp, _, _, at_⟩

/-- With both halves to come, the engine starts at its first edge. -/
theorem triple_launch {ctrl : BitVec 32} (firstEdgeNs : Int) (highTimeNs lowTimeNs : Nat)
    (off : hasEn ctrl = false) (firstBound : first ≤ u64Max) (pivBound : piv ≤ u64Max) :
    Triple edgeSem (At block (clearedRegs ctrl) flop marks)
      (startHardwarePeriodic ctrl firstEdgeNs highTimeNs lowTimeNs first piv)
      fun _ => Launched first piv flop marks.slots := by
  have wide (value : Nat) (bound : value ≤ u64Max) : (BitVec.ofNat 64 value).toNat = value := by
    rw [BitVec.toNat_ofNat, Nat.mod_eq_of_lt]
    unfold u64Max at bound
    omega
  have stopped : (clearedRegs ctrl).running = false := cleared_running ctrl off
  have rests (compv piv : BitVec 64) :
      Regs.running ⟨ctlWith ctrl (ctlEpToggle ||| ctlPm), compv, piv⟩ = false :=
    running_of_disabled (by simp [off])
  refine Triple.bind (triple_writel .ctl _ stopped (rests _ _)) fun _ => ?_
  refine Triple.bind (triple_write_piv piv (rests _ _)) fun _ => ?_
  refine Triple.bind (triple_write_compv first (rests _ _)) fun _ => ?_
  refine Triple.bind (triple_store _ (rests _ _)) fun _ => ?_
  refine Triple.via (fun _ => Launched first piv flop marks.slots) ?_ fun _ => ?_
  · refine Triple.call (stable_at (rests _ _)) (fun _ => stable_launched) ?_
    intro s reply t at_ step
    cases step
    have parts := s.write_reg_parts .ctl (ctlWith (ctlWith ctrl (ctlEpToggle ||| ctlPm)) ctlEn)
    constructor
    · rw [Machine.freeRunning, parts.2.1]
      simp [Regs.running, Regs.write]
    · rw [parts.1, at_.block]
      rfl
    · rw [parts.1, at_.block]
      rfl
    · rw [parts.2.1, at_.regs]
      exact wide piv pivBound
    · refine ⟨0, ?_, ?_⟩
      · rw [parts.2.1, at_.regs]
        simpa [Regs.write] using wide first firstBound
      · rw [parts.2.2, at_.flop]
        simp
    · rw [← at_.marks]
      simp [Machine.writeReg, Machine.marks, Machine.writeCtlHistory]
  · split
    · refine Triple.via (fun _ => Launched first piv flop marks.slots) ?_ fun nowReal => ?_
      · refine Triple.call stable_launched (fun _ => stable_launched) ?_
        intro s reply t launched step
        cases step
        exact launched
      · refine Triple.via (fun _ => Launched first piv flop marks.slots) ?_ fun _ => ?_
        · refine Triple.call stable_launched (fun _ => stable_launched) ?_
          intro s reply t launched step
          cases step
          exact ⟨launched.running, launched.firstArt, launched.livePiv, launched.rate,
            launched.edges, launched.slots⟩
        · refine Triple.call stable_launched (fun _ => stable_launched) ?_
          intro s reply t launched step
          cases step
          exact ⟨launched.running, launched.firstArt, launched.livePiv, launched.rate,
            launched.edges, launched.slots⟩
    · exact Triple.pure stable_launched fun m launched => launched

end launch

def armAimed (firstEdgeNs : Int) (highTimeNs lowTimeNs : Nat) (ctrl : BitVec 32) (flopHigh : Bool)
    (firstArt highArt lowArt : Nat) (nowArt margin : U64Result) : Driver (Except Errno Unit) :=
  match lateArmGuard nowArt margin (selectSlot flopHigh firstArt highArt lowArt)
      (highArt + lowArt) with
  | .error status => return .error status
  | .ok firstArt => do
    startHardwarePeriodic ctrl firstEdgeNs highTimeNs lowTimeNs firstArt
      (if flopHigh then lowArt else highArt)
    return .ok ()

def readNow : Params → Clocks → U64Result := fun _ clocks => getCurrentArt clocks

def readMargin : Params → Clocks → U64Result := fun params clocks =>
  clockDeltaToArtCycles params clocks (2 * nsecPerMsec : Nat)

def armTimed (firstEdgeNs : Int) (highTimeNs lowTimeNs firstArt highArt lowArt : Nat) :
    Driver (Except Errno Unit) :=
  stopForRearm.bind fun ctrl => (mark .slot).bind fun _ => loadBlock.bind fun block =>
    (sample readNow).bind fun nowArt => (sample readMargin).bind fun margin =>
      armAimed firstEdgeNs highTimeNs lowTimeNs ctrl block.outputHwFlopHigh firstArt highArt lowArt
        nowArt margin

def armConverted (firstEdgeNs : Int) (highTimeNs lowTimeNs : Nat)
    (firstArt highArt lowArt : U64Result) : Driver (Except Errno Unit) :=
  match armIntervals firstArt highArt lowArt with
  | .error status => return .error status
  | .ok (firstArt, highArt, lowArt) =>
    armTimed firstEdgeNs highTimeNs lowTimeNs firstArt highArt lowArt

def readFirst (firstEdgeNs : Int) : Params → Clocks → U64Result := fun params clocks =>
  clockNsToCompareArt params clocks firstEdgeNs

def readHalf (halfNs : Nat) : Params → Clocks → U64Result := fun params clocks =>
  clockDeltaToArtCycles params clocks (toS64 halfNs)

theorem arm_shape (firstEdgeNs : Int) (highTimeNs lowTimeNs : Nat) :
    armHardwarePeriodic firstEdgeNs highTimeNs lowTimeNs =
      (sample (readFirst firstEdgeNs)).bind fun firstArt =>
        (sample (readHalf highTimeNs)).bind fun highArt =>
          (sample (readHalf lowTimeNs)).bind fun lowArt =>
            armConverted firstEdgeNs highTimeNs lowTimeNs firstArt highArt lowArt := rfl

/-- In this run the read of the clocks answered so. -/
def Answered {α β : Type} (program : Driver α) (s : Machine) (value : α) (t : Machine)
    (read : Params → Clocks → β) (answer : β) : Prop :=
  ∃ u v, Contains edgeSem (sample read) u answer v program s value t

/-- What an arm for this request leaves, on a line at this level: the engine running,
the first edge on the grid of its kind, with the interval that follows it in the
registers, and from there every edge of the alternating halves. -/
structure OnGrid (requested highArt lowArt : Nat) (flop : Bool) (t : Machine) : Prop where
  running : hasEn t.regs.ctl = true ∧ hasPm t.regs.ctl = true
  first : t.block.outputHwFirstArt % (highArt + lowArt) =
    gridPoint (!flop) requested highArt % (highArt + lowArt)
  piv : t.block.outputHwPiv = if flop then lowArt else highArt
  rate : t.regs.piv.toNat = t.block.outputHwPiv
  started : ∃ n, t.regs.compv.toNat = t.block.outputHwFirstArt + n * t.block.outputHwPiv ∧
    t.flop = (flop ^^ n.bodd)
  edges : ∀ k, edgeAtTime flop t.block.outputHwFirstArt highArt lowArt k % (highArt + lowArt) =
    gridPoint (rises flop k) requested highArt % (highArt + lowArt)

/-- Past the deadline where it was pushed, and never before it. -/
def PastDeadline (slot : Nat) (nowArt margin : U64Result) (picked : Nat) : Prop :=
  ∀ now ahead, nowArt = .ok now → margin = .ok ahead → now + ahead < 2 ^ 64 →
    now + ahead ≤ picked ∧ (picked ≠ slot → now + ahead < picked)

def Crowded (slot period now ahead : Nat) : Prop :=
  slot < now + ahead ∧ ∀ k, now + ahead < slot + k * period → u64Max < slot + k * period

theorem Answered.here {α β : Type} {rest : β → Driver α} {s u t : Machine} {value : α}
    {read : Params → Clocks → β} {answer : β} (ran : Executes edgeSem (sample read) s answer u)
    (after : Executes edgeSem (rest answer) u value t) :
    Answered ((sample read).bind rest) s value t read answer :=
  ⟨s, u, .here ran after⟩

theorem Answered.later {α β γ : Type} {first : Driver γ} {rest : γ → Driver α} {s m t : Machine}
    {known : γ} {value : α} {read : Params → Clocks → β} {answer : β}
    (ran : Executes edgeSem first s known m)
    (answered : Answered (rest known) m value t read answer) :
    Answered (first.bind rest) s value t read answer := by
  obtain ⟨u, v, contains⟩ := answered
  exact ⟨u, v, .later ran contains⟩

def Succeeds (program : Driver (Except Errno Unit)) (s : Machine) (status : Except Errno Unit)
    (t : Machine) (requested highArt lowArt : Nat) : Prop :=
  ∃ nowArt margin slot, Answered program s status t readNow nowArt ∧
    Answered program s status t readMargin margin ∧
    t.history.slots = s.history.slots ++ [slot] ∧
    (LevelAt false s.marks s → slot.mirror = slot.flop) ∧
    PastDeadline (selectSlot slot.mirror requested highArt lowArt) nowArt margin
      t.block.outputHwFirstArt ∧
    (slot.mirror = slot.flop → OnGrid requested highArt lowArt slot.flop t)

def Overflows (program : Driver (Except Errno Unit)) (s : Machine) (status : Except Errno Unit)
    (t : Machine) (requested highArt lowArt : Nat) : Prop :=
  ∃ now ahead mirror, Answered program s status t readNow (.ok now) ∧
    Answered program s status t readMargin (.ok ahead) ∧
    Crowded (selectSlot mirror requested highArt lowArt) (highArt + lowArt) now ahead

def Unusable (highArt lowArt : Nat) : Prop :=
  highArt = 0 ∨ lowArt = 0 ∨ highArt > u64Max / 4 ∨ lowArt > u64Max / 4

section run

variable {s t : Machine} {firstEdgeNs : Int} {highTimeNs lowTimeNs : Nat}
  {status : Except Errno Unit} {firstArt highArt lowArt : U64Result} {first high low : Nat}

theorem arm_timed_runs (usable : ¬Unusable high low) (firstBound : first ≤ u64Max)
    (run : Executes edgeSem (armTimed firstEdgeNs highTimeNs lowTimeNs first high low) s status t) :
    let program := armTimed firstEdgeNs highTimeNs lowTimeNs first high low
    (status = .ok () ∧ Succeeds program s status t first high low) ∨
      (isOk status = false ∧ Overflows program s status t first high low) := by
  unfold Unusable at usable
  have period : 0 < high + low := by omega
  obtain ⟨ctrl, s₁, stopping, run⟩ := Executes.split run
  obtain ⟨_, s₂, marking, run⟩ := run.split
  obtain ⟨block, s₃, loading, run⟩ := run.split
  obtain ⟨nowArt, s₄, readingNow, run⟩ := run.split
  obtain ⟨margin, s₅, readingMargin, run⟩ := run.split
  obtain ⟨off, -, record, flop, at₁⟩ := triple_rearm_stops.ends rfl stopping
  have stopped : (clearedRegs ctrl).running = false := cleared_running ctrl off
  have correct (level : LevelAt false s.marks s) : record.outputHwFlopHigh = flop := by
    obtain ⟨record', flop', -, -, same, -, at_⟩ := triple_stop_for_rearm.ends level stopping
    rw [← at₁.block, ← at₁.flop, at_.block, at_.flop, same]
    simp
  let slot : Slot := ⟨record.outputHwFlopHigh, flop, s.marks.levelChanges⟩
  have marked : Triple edgeSem (At record (clearedRegs ctrl) flop s.marks) (mark .slot)
      fun _ => At record (clearedRegs ctrl) flop
        { s.marks with slots := s.marks.slots ++ [slot] } := by
    refine Triple.call (stable_at stopped) (fun _ => stable_at stopped) ?_
    intro a reply b at_ step
    cases step
    refine ⟨at_.block, at_.regs, at_.flop, ?_⟩
    rw [← at_.marks]
    have changes : a.history.levelChanges = s.marks.levelChanges :=
      congrArg Marks.levelChanges at_.marks
    simp [Machine.marks, Machine.mark, slot, at_.block, at_.flop, changes]
  have at₂ := marked.ends at₁ marking
  obtain ⟨rfl, at₃⟩ := (triple_load stopped).ends at₂ loading
  have at₄ := ((triple_sample readNow (stable_at stopped)).ends at₃ readingNow).1
  have at₅ := ((triple_sample readMargin (stable_at stopped)).ends at₄ readingMargin).1
  have answeredNow : Answered (armTimed firstEdgeNs highTimeNs lowTimeNs first high low) s status t
      readNow nowArt := by
    apply Answered.later stopping
    apply Answered.later marking
    apply Answered.later loading
    exact .here readingNow (.sequence readingMargin run)
  have answeredMargin : Answered (armTimed firstEdgeNs highTimeNs lowTimeNs first high low) s status
      t readMargin margin := by
    apply Answered.later stopping
    apply Answered.later marking
    apply Answered.later loading
    apply Answered.later readingNow
    exact .here readingMargin run
  have slotBound : selectSlot block.outputHwFlopHigh first high low ≤ u64Max :=
    select_slot_le firstBound
  unfold armAimed at run
  cases guarded : lateArmGuard nowArt margin
      (selectSlot block.outputHwFlopHigh first high low) (high + low) with
  | error failure =>
      obtain ⟨now, ahead, rfl, rfl, crowded⟩ := late_arm_guard_fails period guarded
      rw [guarded] at run
      cases run
      exact .inr ⟨rfl, now, ahead, block.outputHwFlopHigh, answeredNow, answeredMargin, crowded⟩
  | ok pickedSlot =>
      obtain ⟨whole, past⟩ := late_arm_guard_pushes period guarded
      rw [guarded] at run
      obtain ⟨_, s₆, starting, run⟩ := Executes.split run
      have pivBound : (if block.outputHwFlopHigh then low else high) ≤ u64Max := by
        split <;> omega
      have launched := (triple_launch firstEdgeNs highTimeNs lowTimeNs off
        (late_arm_guard_le guarded slotBound) pivBound).ends at₅ starting
      cases run with
      | ret rely =>
          have final := stable_launched.rely rely launched
          refine .inl ⟨rfl, nowArt, margin, slot, answeredNow, answeredMargin, final.slots, correct,
            ?_, fun same => ?_⟩
          · rw [final.firstArt]
            exact past
          · have believed : block.outputHwFlopHigh = flop := same
            have grid : t.block.outputHwFirstArt % (high + low) =
                gridPoint (!flop) first high % (high + low) := by
              rw [final.firstArt, whole, ← believed]
              exact select_slot_on_grid (by omega) (by omega)
            refine ⟨Bool.and_eq_true_iff.mp final.running, grid, ?_, ?_, ?_, fun k => ?_⟩
            · rw [final.livePiv, believed]
            · rw [final.rate, final.livePiv]
            · rw [final.firstArt, final.livePiv]
              exact final.edges
            · apply edge_on_grid
              rw [grid]
              simp [rises, slot]

end run

section oneRun

def highBlock : Machine :=
  { loadedBlock with flop := true, block := { loadedBlock.block with outputHwFlopHigh := true } }

def armedFrom (m : Machine) (highTimeNs lowTimeNs : Nat) : Machine :=
  finalState Machine.perform 200 [] (armHardwarePeriodic 1100000000 highTimeNs lowTimeNs) m

theorem armed_from_executes {m : Machine} {highTimeNs lowTimeNs : Nat} {status : Except Errno Unit}
    (ends : (exec Machine.perform 200 [] (armHardwarePeriodic 1100000000 highTimeNs lowTimeNs)
      m).map Prod.fst = some status) :
    Executes edgeSem (armHardwarePeriodic 1100000000 highTimeNs lowTimeNs) m status
      (armedFrom m highTimeNs lowTimeNs) :=
  exec_final (fun _ _ _ _ step => step) 200 [] (by simp) _ m status ends

def lastMomentBlock : Machine :=
  .zeroed defaultParams (steadyClocks (2 ^ 64 - 1) (by decide)) ⟨0, 0, 0⟩ false

end oneRun

end Tgpio

import Tgpio.LevelParity

/-!
# The level after a drained stop

A stop waits until the mirror is low and then clears EN. The waveform runs on
until that write, and a stop does not apply the flips that are still pending,
so the level that is left depends on both.
-/

namespace Tgpio

open Interference Interference.Prog

set_option autoImplicit false

/-- The flip requests a block has not applied yet are odd in number. -/
def pendingFlip (desired : OutputDesired) (block : MmioBlock) : Bool :=
  (desired.flipGen - block.outputAppliedFlipGen).getLsbD 0

def drainPart : Driver Unit := do
  hrtimerCancel
  hwPeriodicDrainLow

/-- A STOPPED run of `outputWork`: its snapshot of the desired configuration, its
drain, which ends in `t`, and its disable. -/
inductive StoppedRun (desired : OutputDesired) (m t u : Machine) : Prop where
  | mk {s : Machine} : Executes edgeSem outputDesiredGet m desired s → desired.run = .stopped →
      Executes edgeSem drainPart s () t → Executes edgeSem disableOutputHw t () u →
      StoppedRun desired m t u

/-- The edges between the drain's last look at COMPV and the end of the stop. -/
def edgesUnseen (t u : Machine) : Nat := u.history.edges - t.history.foldEdges

section level

variable {drift : Bool} {m s t u : Machine} {desired : OutputDesired}

theorem perform_level {op : Op} {reply : op.Resp}
    (step : Machine.perform op s = some (reply, t)) :
    t.flop = s.flop ∧ t.history.edges = s.history.edges := by
  cases op with
  | readl reg =>
      cases step
      cases reg <;> exact ⟨rfl, rfl⟩
  | writel reg value =>
      cases step
      cases reg <;> refine ⟨rfl, ?_⟩
      all_goals simp only [Machine.writeReg, Machine.writeCtlHistory]
      all_goals split <;> rfl
  | publish request =>
      cases step
      simp only [Machine.publish]
      split <;> exact ⟨rfl, rfl⟩
  | mark point =>
      cases step
      cases point <;> exact ⟨rfl, rfl⟩
  | hrtimerCancel | cancelOneshotStopSync | cancelWorkEnd =>
      simp only [Machine.perform] at step
      split at step
      all_goals
        cases step
        try exact ⟨rfl, rfl⟩
  | _ =>
      cases step
      exact ⟨rfl, rfl⟩

/-- Since `start` the flop has turned over with each edge. -/
structure TurnsOver (start s : Machine) : Prop where
  flop : (s.flop ^^ s.history.edges.bodd) = (start.flop ^^ start.history.edges.bodd)
  edges : start.history.edges ≤ s.history.edges

theorem TurnsOver.ran {n : Nat} (turns : TurnsOver m s) (ran : Ran n s t) : TurnsOver m t := by
  have edges : t.history.edges = s.history.edges + n := by rw [ran.history]
  constructor
  · rw [← turns.flop, ran.flop, edges, Nat.bodd_add]
    cases s.flop <;> cases n.bodd <;> cases s.history.edges.bodd <;> rfl
  · have grown := turns.edges
    omega

theorem executes_turn_over {α : Type} {program : Driver α} {value : α}
    (run : Executes edgeSem program s value t) : TurnsOver s t := by
  have stable : Stable edgeSem (TurnsOver s) := by
    intro before after step turns
    obtain ⟨_, ran, -⟩ := edge_rely_ran (.single step)
    exact turns.ran ran
  have accessed (op : Op) (before : Machine) (reply : op.Resp) (after : Machine) (_ : True)
      (step : Machine.perform op before = some (reply, after)) (turns : TurnsOver s before) :
      TurnsOver s after := by
    obtain ⟨flop, edges⟩ := perform_level step
    exact ⟨by rw [flop, edges, turns.flop], by rw [edges]; exact turns.edges⟩
  have kept : wp edgeSem program (fun _ => TurnsOver s) s :=
    wp_uses (uses_true program) accessed stable ⟨rfl, le_rfl⟩
  have after := wp_executes kept run
  exact after

/-- The mirror is the level at the last look, up to drift. -/
structure LookedUp (drift : Bool) (s : Machine) : Prop where
  tracked : Tracked drift s.block s.regs s.flop
  level : s.flop = (s.block.outputHwFlopHigh ^^ drift ^^
    (s.history.edges - s.history.foldEdges).bodd)
  order : s.history.foldEdges ≤ s.history.edges

theorem watched_tracked : Watched fun s => Tracked drift s.block s.regs s.flop :=
  fun _ _ _ ran _ tracked => tracked.ran ran

theorem watched_looked_up : Watched (LookedUp drift) := by
  intro n s t ran same looked
  have edges : t.history.edges = s.history.edges + n := by rw [ran.history]
  have order := looked.order
  refine ⟨looked.tracked.ran ran, ?_, by omega⟩
  have grown : t.history.edges - t.history.foldEdges =
      s.history.edges - s.history.foldEdges + n := by omega
  rw [ran.flop, ran.block, grown, Nat.bodd_add, looked.level]
  simp only [Bool.xor_assoc]

theorem triple_fold_looked_up :
    Triple edgeSem (fun s => Tracked drift s.block s.regs s.flop) hwFlopFold
      fun _ => LookedUp drift := by
  intro s tracked
  refine wp_mono ?_ (hw_flop_fold_spec s)
  rintro _ t ⟨before, after, instant, fold⟩
  have there := tracked.ran fold.reached
  have memory := congrArg Prod.snd
    (fold.memory ⟨tracked.positive, .inr tracked.phase⟩)
  have passed := fold.passed
  have edges : t.history.edges = instant.history.edges + after := by rw [passed.history]
  change t.history.foldEdges = instant.history.edges at memory
  refine ⟨there.fold.1.ran passed, ?_, by omega⟩
  have unseen : t.history.edges - t.history.foldEdges = after := by omega
  have level : instant.flop =
      ((folded instant.regs.compv.toNat instant.block).outputHwFlopHigh ^^ drift) := there.fold.2
  rw [unseen, passed.flop, passed.block, ← level]

theorem triple_rounds_look_up (rounds : Nat) :
    Triple edgeSem (LookedUp drift) (drainRounds rounds) fun _ => LookedUp drift := by
  induction rounds with
  | zero => exact Triple.pure watched_looked_up.stable fun _ looked => looked
  | succ rounds ih =>
      refine Triple.bind watched_looked_up.load fun block => ?_
      refine Triple.conseq ?_ (fun _ loaded => loaded.1) fun _ _ looked => looked
      split
      · refine Triple.bind
          (watched_looked_up.looking ((uses_perform _).mpr (looks_reading.sleep 100))) fun _ => ?_
        refine Triple.bind ?_ fun _ => ih
        exact triple_fold_looked_up.conseq (fun _ looked => looked.tracked) fun _ _ looked => looked
      · exact Triple.pure watched_looked_up.stable fun _ looked => looked

theorem triple_low_looks_up :
    Triple edgeSem (fun s => Tracked drift s.block s.regs s.flop) hwPeriodicDrainLow
      fun _ => LookedUp drift := by
  refine Triple.bind watched_tracked.load fun block => ?_
  intro s loaded
  obtain ⟨tracked, same⟩ := loaded
  have phase : block.outputPhase = .hardwarePeriodic := by rw [← same, tracked.phase]
  have positive : block.outputHwPiv ≠ 0 := by
    rw [← same]
    exact tracked.positive
  rw [if_neg (by simp [phase, positive])]
  exact Triple.bind triple_fold_looked_up (fun _ => triple_rounds_look_up 30) s tracked

theorem triple_part_looks_up :
    Triple edgeSem (fun s => Tracked drift s.block s.regs s.flop) drainPart
      fun _ => LookedUp drift := by
  refine Triple.bind ?_ fun _ => triple_low_looks_up
  refine Triple.call watched_tracked.stable (fun _ => watched_tracked.stable) ?_
  intro s reply t tracked step
  change (if s.timerFiring = true then none else some ((), { s with timerArmed := false })) = _
    at step
  split at step
  · contradiction
  · cases step
    exact tracked

theorem stop_output_parts : stopOutput = drainPart.bind fun _ => disableOutputHw :=
  (bind_assoc hrtimerCancel (fun _ => hwPeriodicDrainLow) fun _ => disableOutputHw).symm

theorem StoppedRun.executes (run : StoppedRun desired m t u) :
    Executes edgeSem outputWork m () u := by
  obtain ⟨asked, stopped, drained, off⟩ := run
  refine asked.sequence ?_
  rw [if_pos stopped, stop_output_parts]
  exact drained.sequence off

theorem stopped_run_of_executes (run : Executes edgeSem outputWork m () u) :
    ∃ desired s, Executes edgeSem outputDesiredGet m desired s ∧
      (desired.run = .stopped → ∃ t, StoppedRun desired m t u) := by
  obtain ⟨desired, s, asked, rest⟩ := Executes.split run
  refine ⟨desired, s, asked, fun stopped => ?_⟩
  rw [if_pos stopped, stop_output_parts] at rest
  obtain ⟨_, t, drained, off⟩ := rest.split
  exact ⟨t, asked, stopped, drained, off⟩

end level

/-- A stop that has drained the mirror low switches the engine off, and leaves the
line low exactly when the edges since the drain's last look have the parity of the
pending flips. -/
theorem drained_stop_low_iff {m t u : Machine} {desired : OutputDesired}
    (tracked : Tracked (pendingFlip desired m.block) m.block m.regs m.flop)
    (run : StoppedRun desired m t u) (low : t.block.outputHwFlopHigh = false) :
    hasEn u.regs.ctl = false ∧
      (u.flop = false ↔ (edgesUnseen t u % 2 = 1 ↔ pendingFlip desired m.block = true)) := by
  obtain ⟨asked, stopped, drained, off⟩ := run
  have begins := (watched_tracked.looking ((uses_perform _).mpr looks_reading.desired)).ends
    tracked asked
  have looked := triple_part_looks_up.ends begins drained
  have disabled := triple_disable_output_hw.ends ⟨.tracked looked.tracked, rfl⟩ off
  refine ⟨disabled.2, ?_⟩
  have turns := executes_turn_over off
  have order := looked.order
  have grown := turns.edges
  have before : t.history.edges =
      t.history.foldEdges + (t.history.edges - t.history.foldEdges) := by omega
  have after : u.history.edges = t.history.foldEdges + edgesUnseen t u := by
    unfold edgesUnseen
    omega
  have level : u.flop = (pendingFlip desired m.block ^^ (edgesUnseen t u).bodd) := by
    have flop := turns.flop
    rw [after, before, looked.level, low, Nat.bodd_add, Nat.bodd_add] at flop
    revert flop
    generalize (t.history.edges - t.history.foldEdges).bodd = seen
    cases u.flop <;> cases pendingFlip desired m.block <;> cases t.history.foldEdges.bodd <;>
      cases (edgesUnseen t u).bodd <;> cases seen <;> decide
  rw [level, Nat.mod_two_of_bodd]
  cases pendingFlip desired m.block <;> cases (edgesUnseen t u).bodd <;> simp

section oneRun

/-- A periodic output with a half period of 1 ms, asked to stop. -/
def stoppingPeriodic : Machine :=
  finalState Machine.perform 200 [] (armHardwarePeriodic 1100000000 1000000 1000000) loadedBlock

def drainedPeriodic : Machine := finalState Machine.perform 200 [] drainPart stoppingPeriodic

/-- The block switched off; `moves` is what the waveform does meanwhile. -/
def stoppedPeriodic (moves : List (Machine → Machine)) : Machine :=
  finalState Machine.perform 200 moves disableOutputHw drainedPeriodic

theorem stopping_tracked :
    Tracked (pendingFlip stoppingPeriodic.desired stoppingPeriodic.block) stoppingPeriodic.block
      stoppingPeriodic.regs stoppingPeriodic.flop := by
  constructor <;> decide +kernel

theorem stopped_run_placed (m : Machine) (drain off : List (Machine → Machine))
    (simple : ∀ move ∈ drain ++ off, move = id ∨ move = Machine.edgeMove)
    (stopped : m.desired.run = .stopped)
    (drains : (exec Machine.perform 200 drain drainPart m).map Prod.fst = some ())
    (ends : (exec Machine.perform 200 off disableOutputHw
      (finalState Machine.perform 200 drain drainPart m)).map Prod.fst = some ()) :
    StoppedRun m.desired m (finalState Machine.perform 200 drain drainPart m)
      (finalState Machine.perform 200 off disableOutputHw
        (finalState Machine.perform 200 drain drainPart m)) := by
  have first := edge_moves_rely fun move member => simple move (List.mem_append_left off member)
  have second := edge_moves_rely fun move member => simple move (List.mem_append_right drain member)
  exact .mk (.call .refl rfl (.ret .refl)) stopped
    (exec_final (fun _ _ _ _ step => step) 200 drain first _ _ _ drains)
    (exec_final (fun _ _ _ _ step => step) 200 off second _ _ _ ends)

/-- The same output with its line the other way round, and the flip that says so
published. -/
def flippedPeriodic : Machine :=
  { stoppingPeriodic with
    flop := true, desired := { stoppingPeriodic.desired with flipGen := 1 } }

/-- An edge makes the drain wait, and another one ends the wait. -/
def drainedFlipped : Machine :=
  finalState Machine.perform 200 (.edgeMove :: List.replicate 9 id ++ [.edgeMove]) drainPart
    flippedPeriodic

/-- One more comes before EN is cleared. -/
def stoppedFlipped : Machine :=
  finalState Machine.perform 200 [id, .edgeMove] disableOutputHw drainedFlipped

theorem drained_stop_low_flipped :
    hasEn stoppedFlipped.regs.ctl = false ∧ stoppedFlipped.flop = false := by
  have tracked : Tracked (pendingFlip flippedPeriodic.desired flippedPeriodic.block)
      flippedPeriodic.block flippedPeriodic.regs flippedPeriodic.flop := by
    constructor <;> decide +kernel
  have run : StoppedRun flippedPeriodic.desired flippedPeriodic drainedFlipped stoppedFlipped := by
    unfold stoppedFlipped drainedFlipped
    exact stopped_run_placed flippedPeriodic _ _ (by simp) (by decide +kernel) (by decide +kernel)
      (by decide +kernel)
  have same : edgesUnseen drainedFlipped stoppedFlipped % 2 = 1 ↔
      pendingFlip flippedPeriodic.desired flippedPeriodic.block = true := by decide +kernel
  have low : drainedFlipped.block.outputHwFlopHigh = false := by decide +kernel
  generalize stoppedFlipped = last at *
  generalize drainedFlipped = drained at *
  obtain ⟨off, level⟩ := drained_stop_low_iff tracked run low
  exact ⟨off, level.mpr same⟩

/-- An edge after the drain's last look and before EN is cleared leaves the line
high. -/
theorem edge_after_drain_leaves_high :
    Tracked (pendingFlip stoppingPeriodic.desired stoppingPeriodic.block) stoppingPeriodic.block
      stoppingPeriodic.regs stoppingPeriodic.flop ∧
    pendingFlip stoppingPeriodic.desired stoppingPeriodic.block = false ∧
    StoppedRun stoppingPeriodic.desired stoppingPeriodic drainedPeriodic
      (stoppedPeriodic [.edgeMove]) ∧
    drainedPeriodic.block.outputHwFlopHigh = false ∧
    (stoppedPeriodic [.edgeMove]).flop = true :=
  ⟨stopping_tracked, by decide +kernel, stopped_run_placed stoppingPeriodic [] [.edgeMove] (by simp)
    (by decide +kernel) (by decide +kernel) (by decide +kernel), by decide +kernel,
    by decide +kernel⟩

end oneRun

end Tgpio

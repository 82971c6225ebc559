import Tgpio.OutputAlone

/-!
# Stopping a duty output

A stop waits for a high line to fall, a tenth of a second at a time, and then
folds. The duty service does not run meanwhile, so the interval register keeps
what it holds, and a wait can see more than one edge where the fold counts one.
-/

namespace Tgpio

open Interference Interference.Prog

set_option autoImplicit false

def Machine.timed (counter : Int → BitVec 64) : Handler Op Op.Resp Machine :=
  Machine.waiting fun msecs m => some (m.elapse counter (msecs * nsecPerMsec))

section stopping

variable (counter : Int → BitVec 64) (m : Machine)

def waitArt (k : Nat) : Nat :=
  (counter (m.clocks.real + (k * (100 * nsecPerMsec) : Nat))).toNat

/-- From the wait `first` on: the wait in which the line falls sees an odd
number of edges. -/
def FallsOnceFrom (first : Nat) : Prop :=
  ∀ k, first ≤ k → k < 30 → waitArt counter m k < m.edgeArt →
    m.edgeArt ≤ waitArt counter m (k + 1) → m.edgesBy (waitArt counter m (k + 1)) % 2 = 1

/-- The line is low, or the wait in which it falls sees an odd number of edges. -/
def FallsOnce : Prop := m.flop = true → FallsOnceFrom counter m 0

/-- A running duty output that has been asked to stop, its mirror right but for
an edge that has not been folded yet. -/
structure DutyStopping : Prop where
  stopped : m.desired.run = .stopped
  timer : m.timerFiring = false
  phase : m.block.outputPhase = .hwDuty
  running : m.freeRunning = true
  interval : m.block.outputHwPiv ≠ 0
  positive : 0 < m.regs.piv.toNat
  level : m.block.outputHwFlopHigh = m.flop ↔ m.block.outputHwCkptCompv = m.regs.compv.toNat
  pending : waitArt counter m 0 < m.edgeArt
  steady : ∀ earlier later, earlier ≤ later → (counter earlier).toNat ≤ (counter later).toNat
  room : waitArt counter m 30 + m.regs.piv.toNat < 2 ^ 64

end stopping

section draining

variable {counter : Int → BitVec 64} {m : Machine}

theorem wait_art_mono (steady : ∀ earlier later, earlier ≤ later →
    (counter earlier).toNat ≤ (counter later).toNat) {first second : Nat} (order : first ≤ second) :
    waitArt counter m first ≤ waitArt counter m second := by
  apply steady
  have scaled := Nat.mul_le_mul_right (100 * nsecPerMsec) order
  omega

def settled (m : Machine) : MmioBlock :=
  { m.block with outputHwFlopHigh := m.flop, outputHwCkptCompv := m.regs.compv.toNat }

theorem folded_duty (phase : m.block.outputPhase = .hwDuty) (interval : m.block.outputHwPiv ≠ 0)
    (level : m.block.outputHwFlopHigh = m.flop ↔
      m.block.outputHwCkptCompv = m.regs.compv.toNat) :
    folded m.regs.compv.toNat m.block = settled m := by
  rw [folded, if_neg interval, if_pos phase]
  by_cases same : m.block.outputHwCkptCompv = m.regs.compv.toNat
  · rw [if_neg fun other => other same.symm, settled, ← same, ← level.mpr same]
  · have behind : m.block.outputHwFlopHigh ≠ m.flop := fun equal => same (level.mp equal)
    have right : (!m.block.outputHwFlopHigh) = m.flop := by
      simpa [Bool.eq_not] using behind
    rw [if_pos (Ne.symm same), foldDuty, right, settled]

theorem edges_by_regs {s : Machine} (regs : s.regs = m.regs) (art : Nat) :
    s.edgesBy art = m.edgesBy art := by
  unfold Machine.edgesBy Machine.edgeArt Machine.freeRunning
  rw [regs]

theorem edges_fit (stopping : DutyStopping counter m) {k : Nat} (within : k ≤ 30) :
    m.regs.compv.toNat + m.edgesBy (waitArt counter m k) * m.regs.piv.toNat < 2 ^ 64 := by
  have last := wait_art_mono (m := m) stopping.steady within
  have room := stopping.room
  cases count : m.edgesBy (waitArt counter m k) with
  | zero =>
      have compv := m.regs.compv.isLt
      omega
  | succ before =>
      have due := (edges_by_iff stopping.running stopping.positive (waitArt counter m k) before).mp
        (by omega)
      rw [Nat.succ_mul]
      unfold Machine.edgeArt at due
      omega

/-- After `k` waits of a drain in which the line has not fallen. -/
structure StillHigh (counter : Int → BitVec 64) (m : Machine) (k : Nat) (s : Machine) : Prop where
  block : s.block = settled m
  regs : s.regs = m.regs
  flop : s.flop = m.flop
  real : s.clocks.real = m.clocks.real + (k * (100 * nsecPerMsec) : Nat)
  waiting : waitArt counter m k < m.edgeArt

structure Waited (m : Machine) (n k : Nat) (s : Machine) : Prop where
  block : s.block = settled m
  compv : s.regs.compv.toNat = m.regs.compv.toNat + n * m.regs.piv.toNat
  same : n = 0 → s.regs = m.regs
  flop : s.flop = (m.flop ^^ n.bodd)
  real : s.clocks.real = m.clocks.real + (k * (100 * nsecPerMsec) : Nat)

/-- A drain has ended with nothing left to fold, and the mirror is right if
`right` holds. -/
structure Drained (right : Prop) (s : Machine) : Prop where
  phase : s.block.outputPhase = .hwDuty
  checkpoint : s.block.outputHwCkptCompv = s.regs.compv.toNat
  level : s.block.outputHwFlopHigh = s.flop ↔ right

theorem achieves_wait (stopping : DutyStopping counter m) {k : Nat} (within : k < 30) :
    Achieves (Machine.timed counter) (StillHigh counter m k) (msleep 100)
      fun _ => Waited m (m.edgesBy (waitArt counter m (k + 1))) (k + 1) := by
  apply Achieves.call
  intro s still
  refine ⟨(), s.elapse counter (100 * nsecPerMsec), rfl, ?_⟩
  have later : s.clocks.real + (100 * nsecPerMsec : Nat) =
      m.clocks.real + ((k + 1) * (100 * nsecPerMsec) : Nat) := by
    rw [still.real]
    push_cast
    ring
  have count : s.edgesBy (counter (s.clocks.real + (100 * nsecPerMsec : Nat))).toNat =
      m.edgesBy (waitArt counter m (k + 1)) := by
    rw [later, edges_by_regs still.regs, waitArt]
  have running : s.freeRunning = true := by
    rw [Machine.freeRunning, still.regs]
    exact stopping.running
  have ran := ran_run_on (m := s) (m.edgesBy (waitArt counter m (k + 1))) running
    (by rw [still.regs]; exact edges_fit stopping within)
  refine ⟨?_, ?_, ?_, ?_, ?_⟩
  · change (s.runOn _).block = _
    rw [count, ran.block, still.block]
  · change (s.runOn _).regs.compv.toNat = _
    rw [count, ran.compv, still.regs]
  · intro none
    change (s.runOn _).regs = _
    rw [count, none]
    exact still.regs
  · change (s.runOn _).flop = _
    rw [count, ran.flop, still.flop]
  · exact later

theorem folded_settled (phase : m.block.outputPhase = .hwDuty) (interval : m.block.outputHwPiv ≠ 0)
    (compv : Nat) : folded compv (settled m) =
      if compv = m.regs.compv.toNat then settled m else foldDuty compv (settled m) := by
  rw [folded, if_neg (by exact interval), if_pos (by exact phase)]
  split <;> split <;> first | rfl | contradiction

theorem falls_in (stopping : DutyStopping counter m) {k : Nat} (within : k < 30)
    (waiting : waitArt counter m k < m.edgeArt) (passed : m.edgeArt ≤ waitArt counter m (k + 1)) :
    FallsOnceFrom counter m k ↔ m.edgesBy (waitArt counter m (k + 1)) % 2 = 1 := by
  constructor
  · intro falls
    exact falls k le_rfl within waiting passed
  · intro odd other first _ before _
    rcases Nat.eq_or_lt_of_le first with same | later
    · rwa [← same]
    · have reached := wait_art_mono (m := m) stopping.steady later
      change waitArt counter m (k + 1) ≤ _ at reached
      omega

theorem falls_after {k : Nat} (waits : waitArt counter m (k + 1) < m.edgeArt) :
    FallsOnceFrom counter m (k + 1) ↔ FallsOnceFrom counter m k := by
  constructor
  · intro falls other first within before passed
    rcases Nat.eq_or_lt_of_le first with same | later
    · rw [← same] at passed
      omega
    · exact falls other later within before passed
  · intro falls other first within before passed
    exact falls other (by omega) within before passed

theorem folded_fallen (stopping : DutyStopping counter m) (high : m.flop = true) {n k : Nat}
    (some : 0 < n) {s t : Machine} (waited : Waited m n k s)
    (standing : Standing (folded s.regs.compv.toNat s.block) s.regs s.flop s.params s.clocks t) :
    t.block.outputHwFlopHigh = false ∧ Drained (n % 2 = 1) t := by
  have moves := Nat.mul_pos some stopping.positive
  have moved : s.regs.compv.toNat ≠ m.regs.compv.toNat := by
    rw [waited.compv]
    omega
  have block : t.block = foldDuty s.regs.compv.toNat (settled m) := by
    rw [standing.block, waited.block, folded_settled stopping.phase stopping.interval,
      if_neg moved]
  have low : t.block.outputHwFlopHigh = false := by
    rw [block, foldDuty, settled, high]
    rfl
  refine ⟨low, ?_, ?_, ?_⟩
  · rw [block]
    exact stopping.phase
  · rw [block, standing.regs]
    rfl
  · rw [low, standing.flop, waited.flop, high, Nat.mod_two_of_bodd]
    cases n.bodd <;> simp

theorem folded_still (stopping : DutyStopping counter m) {k : Nat} {s t : Machine}
    (waits : waitArt counter m k < m.edgeArt) (waited : Waited m 0 k s)
    (standing : Standing (folded s.regs.compv.toNat s.block) s.regs s.flop s.params s.clocks t) :
    StillHigh counter m k t := by
  refine ⟨?_, ?_, ?_, ?_, waits⟩
  · rw [standing.block, waited.block, folded_settled stopping.phase stopping.interval,
      waited.same rfl, if_pos rfl]
  · rw [standing.regs, waited.same rfl]
  · rw [standing.flop, waited.flop, Nat.bodd_zero, Bool.xor_false]
  · rw [standing.clocks, waited.real]

/-- The waits of a drain: each finds the line as it was, or folds once. -/
theorem achieves_drain (stopping : DutyStopping counter m) (high : m.flop = true)
    (rounds k : Nat) (left : k + rounds = 30) :
    Achieves (Machine.timed counter) (StillHigh counter m k) (drainRounds rounds)
      fun _ => Drained (FallsOnceFrom counter m k) := by
  induction rounds generalizing k with
  | zero =>
      refine Achieves.pure fun s still => ⟨?_, ?_, ?_⟩
      · rw [still.block]
        exact stopping.phase
      · rw [still.block, still.regs]
        rfl
      · rw [still.block, still.flop]
        refine iff_of_true rfl ?_
        intro other first within
        omega
  | succ rounds ih =>
      have loads : Achieves (Machine.timed counter) (StillHigh counter m k) loadBlock
          fun answer s => answer = settled m ∧ StillHigh counter m k s :=
        Achieves.call fun s still => ⟨s.block, s, rfl, still.block, still⟩
      refine Achieves.bind_known loads ?_
      rw [if_pos (by exact high)]
      intro s still
      refine Achieves.bind (achieves_wait stopping (by omega)) (fun _ => ?_) s still
      refine Achieves.bind (achieves_folding _) fun _ => ?_
      by_cases passed : m.edgeArt ≤ waitArt counter m (k + 1)
      · have counted : 0 < m.edgesBy (waitArt counter m (k + 1)) :=
          (edges_by_iff stopping.running stopping.positive _ 0).mpr (by omega)
        intro t folded
        obtain ⟨before, waited, standing⟩ := folded
        refine achieves_low_rounds _ rounds t ?_
        rw [falls_in stopping (by omega) still.waiting passed]
        exact folded_fallen stopping high counted waited standing
      · have none : m.edgesBy (waitArt counter m (k + 1)) = 0 := by
          rw [Machine.edgesBy, if_neg fun due => passed due.2]
        intro t folded
        obtain ⟨before, waited, standing⟩ := folded
        rw [none] at waited
        rw [← falls_after (by omega)]
        exact ih (k + 1) (by omega) t (folded_still stopping (by omega) waited standing)

theorem achieves_drain_low (stopping : DutyStopping counter m) :
    Achieves (Machine.timed counter)
      (Standing m.block m.regs m.flop m.params m.clocks) hwPeriodicDrainLow
      fun _ => Drained (FallsOnce counter m) := by
  refine Achieves.bind_known achieves_load ?_
  rw [if_neg (by simp [stopping.phase, stopping.interval])]
  refine Achieves.bind achieves_fold fun _ => ?_
  rw [folded_duty stopping.phase stopping.interval stopping.level]
  cases level : m.flop with
  | false =>
      intro s standing
      refine achieves_low_rounds _ 30 s ?_
      refine ⟨by rw [standing.block]; exact level, ?_, ?_, ?_⟩
      · rw [standing.block]
        exact stopping.phase
      · rw [standing.block, standing.regs]
        rfl
      · rw [standing.block, standing.flop, ← level]
        refine iff_of_true rfl ?_
        intro high
        simp [level] at high
  | true =>
      intro s standing
      have same : FallsOnce counter m ↔ FallsOnceFrom counter m 0 := by simp [FallsOnce, level]
      rw [same]
      refine achieves_drain stopping level 30 0 rfl s ⟨standing.block, standing.regs, ?_, ?_, ?_⟩
      · rw [standing.flop, level]
      · rw [standing.clocks]
        simp
      · exact stopping.pending

theorem achieves_switch_off {sleep : Nat → Machine → Option Machine} (right : Prop) :
    Achieves (Machine.waiting sleep) (Drained right) disableOutputHw
      fun _ s => s.block.outputHwFlopHigh = s.flop ↔ right := by
  intro s drained
  obtain ⟨_, t, ran, standing⟩ := @achieves_disable sleep _ _ _ _ _ s ⟨rfl, rfl, rfl, rfl, rfl⟩
  refine ⟨(), t, ran, ?_⟩
  have same : folded s.regs.compv.toNat s.block = s.block := by
    unfold folded
    split
    · rfl
    · rw [if_pos drained.phase, if_neg fun moved => moved drained.checkpoint.symm]
  change t.block.outputHwFlopHigh = t.flop ↔ right
  rw [standing.block, standing.flop, same]
  exact drained.level

/-- After a stop the mirror is right if and only if the wait in which the line
fell saw an odd number of edges. -/
theorem duty_stop_mirror_iff (counter : Int → BitVec 64) (m : Machine)
    (stopping : DutyStopping counter m) :
    (∃ m', Executes (alone (Machine.timed counter)) outputWork m () m') ∧
      ∀ m', Executes (alone (Machine.timed counter)) outputWork m () m' →
        (m'.block.outputHwFlopHigh = m'.flop ↔ FallsOnce counter m) := by
  have cancels : Achieves (Machine.timed counter) (fun s => s = m) hrtimerCancel
      fun _ => Standing m.block m.regs m.flop m.params m.clocks := by
    refine Achieves.call fun s same => ⟨(), { s with timerArmed := false }, ?_, ?_⟩
    · rw [same]
      change (if m.timerFiring = true then none else _) = _
      rw [stopping.timer]
      rfl
    · rw [same]
      exact ⟨rfl, rfl, rfl, rfl, rfl⟩
  have asked : Achieves (Machine.timed counter) (fun s => s = m) outputDesiredGet
      fun answer s => answer = m.desired ∧ s = m := by
    refine Achieves.call fun s same => ⟨s.desired, s, rfl, ?_, same⟩
    rw [same]
  have stops : Achieves (Machine.timed counter) (fun s => s = m) outputWork
      fun _ s => s.block.outputHwFlopHigh = s.flop ↔ FallsOnce counter m := by
    refine Achieves.bind_known asked ?_
    rw [if_pos stopping.stopped]
    refine Achieves.bind cancels fun _ => ?_
    refine Achieves.bind (achieves_drain_low stopping) fun _ => ?_
    exact achieves_switch_off _
  constructor
  · obtain ⟨value, m', ran, -⟩ := stops m rfl
    exact ⟨m', ran⟩
  · intro m' ran
    exact stops.every rfl ran

section oneStop

def nsCounter (real : Int) : BitVec 64 := BitVec.ofNat 64 (min real.toNat (2 ^ 62))

theorem ns_counter_steady (earlier later : Int) (order : earlier ≤ later) :
    (nsCounter earlier).toNat ≤ (nsCounter later).toNat := by
  have values (real : Int) : (nsCounter real).toNat = min real.toNat (2 ^ 62) :=
    Nat.mod_eq_of_lt (by omega)
  rw [values, values]
  omega

/-- A duty output, high for 60 ms and low for 50 ms, asked to stop when its line
is to fall in `ns` nanoseconds. -/
def stoppingDuty (ns : Nat) : Machine :=
  { loadedBlock with
    regs := ⟨ctlEn ||| ctlPm ||| ctlEpToggle, BitVec.ofNat 64 (1000000000 + ns - artHwDelayCycles),
      50000000⟩
    flop := true
    clocks := { steadyClocks 1000000000 billion_in_range with
      real := 1000000000
      anchorInRange := by decide }
    block := { loadedBlock.block with
      outputPhase := .hwDuty
      outputHwPiv := 50000000
      outputHwCkptCompv := 1000000000 + ns - artHwDelayCycles
      outputHwFlopHigh := true
      outputHighTimeNs := 60000000
      outputLowTimeNs := 50000000 } }

theorem duty_stop_mirror_late :
    ∃ m', Executes (alone (Machine.timed nsCounter)) outputWork (stoppingDuty 55000000) () m' ∧
      m'.block.outputHwFlopHigh = m'.flop := by
  have stopping : DutyStopping nsCounter (stoppingDuty 55000000) := by
    refine ⟨rfl, rfl, rfl, by decide, by decide, by decide, ?_, by decide, ns_counter_steady, ?_⟩
    all_goals decide +kernel
  obtain ⟨⟨m', ran⟩, right⟩ := duty_stop_mirror_iff nsCounter (stoppingDuty 55000000) stopping
  refine ⟨m', ran, (right m' ran).mpr ?_⟩
  unfold FallsOnce FallsOnceFrom
  decide +kernel

/-- The line is to fall in 10 ms and to rise 50 ms later: the first wait sees
both edges and folds one. -/
theorem duty_stop_counts_one_of_two :
    DutyStopping nsCounter (stoppingDuty 10000000) ∧
    Executes (alone (Machine.timed nsCounter)) outputWork (stoppingDuty 10000000) ()
      (finalState (Machine.timed nsCounter) 400 [] outputWork (stoppingDuty 10000000)) ∧
    (finalState (Machine.timed nsCounter) 400 [] outputWork
      (stoppingDuty 10000000)).block.outputHwFlopHigh = false ∧
    (finalState (Machine.timed nsCounter) 400 [] outputWork (stoppingDuty 10000000)).flop = true := by
  refine ⟨?_, ?_, by decide +kernel, by decide +kernel⟩
  · refine ⟨rfl, rfl, rfl, by decide, by decide, by decide, ?_, by decide, ns_counter_steady, ?_⟩
    all_goals decide +kernel
  · exact exec_final (fun _ _ _ _ step => step) 400 [] (by simp) _ _ _ (by decide +kernel)

end oneStop

end draining

end Tgpio

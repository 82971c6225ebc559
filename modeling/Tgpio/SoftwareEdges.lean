import Tgpio.OutputFrames
import Tgpio.OutputSystem

/-!
# Edges of the software path

A software output keeps one compare in the block. A run of the work programs
the next edge whatever has queued it: the timer, which runs once for every edge,
or a frequency refresh, which can come at any moment. Time is the ART counter
here: it passes a compare or it does not.
-/

namespace Tgpio

open Interference Interference.Prog

set_option autoImplicit false

/-- An edge as a run has programmed it, with the clocks its conversion went by. -/
structure Programmed where
  time : Int
  kind : LogicalEdge
  clocks : Clocks
  compare : Nat

/-- A block, and a record of the edges programmed on it, of the runs of the work
and of the times they have started the timer. -/
structure Bench where
  machine : Machine
  sampled : Clocks
  programmed : List Programmed
  runs : Nat
  timerStarts : Nat

namespace Bench

variable (b : Bench)

/-- The bench after an access that has left the machine at `m`. A compare is
programmed when its low word is written. -/
def note : Op → Machine → Bench
  | .sample _ _, m => { b with machine := m, sampled := b.machine.clocks }
  | .writel .compv31_0 _, m =>
      { b with machine := m, programmed := b.programmed ++ [⟨b.machine.block.outputNextEdge,
        b.machine.block.outputNextEdgeType, b.sampled, m.regs.compv.toNat⟩] }
  | .hrtimerStart _, m => { b with machine := m, timerStarts := b.timerStarts + 1 }
  | _, m => { b with machine := m }

def perform (op : Op) (b : Bench) : Option (op.Resp × Bench) :=
  (Machine.perform op b.machine).map fun (reply, m) => (reply, b.note op m)

def withMachine (m : Machine) : Bench := { b with machine := m }

/-- A queued run begins. -/
def beginRun : Bench := { b with machine := b.machine.beginRun, runs := b.runs + 1 }

end Bench

/-- ART passes the compare that the block waits for on its way to `clocks`. -/
def Machine.passes (m : Machine) (clocks : Clocks) : Prop :=
  m.singleShot = true ∧ m.clocks.art < m.regs.compv.toNat ∧ m.regs.compv.toNat ≤ clocks.art

instance (m : Machine) (clocks : Clocks) : Decidable (m.passes clocks) :=
  inferInstanceAs (Decidable (_ ∧ _ ∧ _))

/-- A run of the work is queued, or the timer is to queue one. -/
def Machine.AwaitsRun (m : Machine) : Prop :=
  m.timerArmed = true ∨ m.timerFiring = true ∨ m.workQueued = true

instance (m : Machine) : Decidable m.AwaitsRun := inferInstanceAs (Decidable (_ ∨ _ ∨ _))

/-- Around the work of a software output whose configuration stands: ART counts
on, past a compare or up to it, while the mapping changes freely; the timer
expires; the clock's frequency is published. -/
inductive AroundEdges : Bench → Bench → Prop where
  | pass {b : Bench} (clocks : Clocks) : b.machine.clocks.art ≤ clocks.art →
      ¬b.machine.passes clocks → AroundEdges b (b.withMachine { b.machine with clocks })
  | fire {b : Bench} (clocks : Clocks) : b.machine.passes clocks →
      AroundEdges b (b.withMachine { b.machine with clocks }.fire)
  | expire {b : Bench} : b.machine.timerArmed = true → b.machine.timerFiring = false →
      AroundEdges b (b.withMachine b.machine.expire)
  | outputTimer {b : Bench} : b.machine.timerFiring = true →
      AroundEdges b (b.withMachine b.machine.outputTimer)
  | beginFreq {b : Bench} : AroundEdges b (b.withMachine (b.machine.beginPublish .freq))
  | endFreq {b : Bench} : 0 < b.machine.owed →
      AroundEdges b (b.withMachine b.machine.endPublish)

/-- A compare of an enabled block is written before ART gets to it. -/
def InTime : Op → Bench → Prop
  | .writel .compv31_0 value, b => hasEn b.machine.regs.ctl = true →
      b.machine.clocks.art < (b.machine.regs.write .compv31_0 value).compv.toNat
  | _, _ => True

/-- The driver's accesses, on a bench, in time. -/
def benchSem : Semantics Op Op.Resp Bench where
  step op b reply b' := InTime op b ∧ Bench.perform op b = some (reply, b')
  env := AroundEdges

/-- The runs of the work: each begins after ART has reached the compare in the
block, unless it is exempt from that. -/
def edgeWorker (exempt : Bench → Prop) : Worker Op Op.Resp Bench where
  toSemantics := benchSem
  program := outputWork
  start b b' := b.machine.workQueued = true ∧ b.machine.workRunning = false ∧
    (exempt b ∨ b.machine.regs.compv.toNat ≤ b.machine.clocks.art) ∧
    b' = b.beginRun
  finish b b' := b' = b.withMachine b.machine.endRun

/-- The run that begins here has a frequency to apply. -/
def Refreshes (b : Bench) : Prop :=
  b.machine.desired.freqGen ≠ b.machine.block.outputAppliedFreqGen

instance (b : Bench) : Decidable (Refreshes b) := inferInstanceAs (Decidable (_ ≠ _))

section property

/-- Alternating edges: rising ones a period apart, each high for `highTimeNs`. -/
structure EdgeGrid where
  first : Int
  periodNs : Nat
  highTimeNs : Nat

namespace EdgeGrid

variable (grid : EdgeGrid)

/-- The time of the `k`-th edge, as a `ktime_t`. -/
def time (k : Nat) : Int :=
  toS64 (grid.first + (k / 2 * grid.periodNs + k % 2 * grid.highTimeNs : Nat))

theorem time_rising (k : Nat) : grid.time (2 * k) = toS64 (grid.first + (k * grid.periodNs : Nat)) := by
  simp [time]

end EdgeGrid

def edgeKind (k : Nat) : LogicalEdge := if k % 2 = 0 then .rise else .fall

/-- The fields that say which edge comes next. -/
structure Cadence where
  phase : OutputPhase
  gen : BitVec 32
  highTimeNs : Nat
  lowTimeNs : Nat
  nextEdge : Int
  nextEdgeType : LogicalEdge

def MmioBlock.cadence (block : MmioBlock) : Cadence :=
  ⟨block.outputPhase, block.outputAppliedGen, block.outputHighTimeNs, block.outputLowTimeNs,
    block.outputNextEdge, block.outputNextEdgeType⟩

/-- What the edges of a software output depend on. -/
structure Sight where
  ctl : BitVec 32
  compv : BitVec 64
  comparePending : Bool
  fires : List Nat
  art : Nat
  params : Params
  cancelling : Bool
  run : OutputRun
  gen : BitVec 32
  cadence : Cadence
  programmed : List Programmed
  runs : Nat
  timerStarts : Nat

def Bench.sight (b : Bench) : Sight :=
  ⟨b.machine.regs.ctl, b.machine.regs.compv, b.machine.comparePending, b.machine.history.fires,
    b.machine.clocks.art, b.machine.params, b.machine.workCancelling, b.machine.desired.run,
    b.machine.desired.gen, b.machine.block.cadence, b.programmed, b.runs, b.timerStarts⟩

/-- So many edges have been programmed, by so many runs that have started the
timer so many times. -/
structure RunTally where
  edges : Nat
  runs : Nat
  timerStarts : Nat

def Sight.tally (s : Sight) : RunTally := ⟨s.programmed.length, s.runs, s.timerStarts⟩

/-- The compare that is in the block and can still fire. -/
def Sight.awaited (s : Sight) : List Nat :=
  if hasEn s.ctl && !hasPm s.ctl && s.comparePending then [s.compv.toNat] else []

/-- No edge has been lost, among those programmed after the compares `before`. -/
structure EdgesKept (grid : EdgeGrid) (params : Params) (before : List Nat) (s : Sight) : Prop where
  /-- Every compare has fired, once and in order, but the one still awaited. -/
  fired : s.fires ++ s.awaited = before ++ s.programmed.map (·.compare)
  ahead : ∀ compare ∈ s.awaited, s.art < compare
  order : (s.programmed.map (·.compare)).Pairwise (· < ·)
  /-- The edges are those of the grid, each at the compare of its time. -/
  onGrid : ∀ k (bound : k < s.programmed.length),
    s.programmed[k].time = grid.time k ∧ s.programmed[k].kind = edgeKind k ∧
      clockNsToCompareArt params s.programmed[k].clocks s.programmed[k].time =
        .ok s.programmed[k].compare

/-- What the runs have done so far, none being in progress: each has programmed
one edge and has started the timer once, for the next. -/
structure RunsKept (b : Bench) : Prop where
  edges : b.programmed.length = b.runs
  starts : b.timerStarts = b.runs
  awaits : b.machine.AwaitsRun

/-- A software output that has just been armed: the block waits for the compare
that primes it low, and the first rising edge comes next. -/
structure ArmedSoftware (b : Bench) : Prop where
  running : b.machine.desired.run = .running
  applied : b.machine.desired.gen = b.machine.block.outputAppliedGen
  high : b.machine.block.outputHighTimeNs = b.machine.desired.highTimeNs
  low : b.machine.block.outputLowTimeNs = b.machine.desired.lowTimeNs
  period : b.machine.desired.highTimeNs + b.machine.desired.lowTimeNs = b.machine.desired.periodNs
  phase : b.machine.block.outputPhase = .firstRising
  rising : b.machine.block.outputNextEdgeType = .rise
  enabled : hasEn b.machine.regs.ctl = true
  single : hasPm b.machine.regs.ctl = false
  waits : b.machine.comparePending = true
  ahead : b.machine.clocks.art < b.machine.regs.compv.toNat
  first : toS64 b.machine.block.outputNextEdge = b.machine.block.outputNextEdge
  attended : b.machine.workCancelling = false
  awaits : b.machine.AwaitsRun
  fresh : b.programmed = []
  none : b.runs = 0 ∧ b.timerStarts = 0

/-- The grid an armed output is on. -/
def Bench.grid (b : Bench) : EdgeGrid :=
  ⟨b.machine.block.outputNextEdge, b.machine.desired.periodNs, b.machine.desired.highTimeNs⟩

end property

section sights

/-- The surroundings leave everything alone but ART and the compare: ART counts
on, or passes the compare, which fires. -/
inductive Sight.Moves (s : Sight) : Sight → Prop where
  | same : s.Moves s
  | pass (art : Nat) : s.art ≤ art → (∀ compare ∈ s.awaited, s.art < compare → art < compare) →
      s.Moves { s with art }
  | fire (art : Nat) : s.awaited = [s.compv.toNat] → s.compv.toNat ≤ art → s.art ≤ art →
      s.Moves { s with art, comparePending := false, fires := s.fires ++ [s.compv.toNat] }

theorem Sight.Moves.ctl {s t : Sight} (move : s.Moves t) : t.ctl = s.ctl := by
  cases move <;> rfl

theorem Sight.Moves.compv {s t : Sight} (move : s.Moves t) : t.compv = s.compv := by
  cases move <;> rfl

theorem Sight.Moves.run {s t : Sight} (move : s.Moves t) : t.run = s.run := by
  cases move <;> rfl

theorem Sight.Moves.gen {s t : Sight} (move : s.Moves t) : t.gen = s.gen := by
  cases move <;> rfl

theorem Sight.Moves.params {s t : Sight} (move : s.Moves t) : t.params = s.params := by
  cases move <;> rfl

theorem Sight.Moves.cadence {s t : Sight} (move : s.Moves t) : t.cadence = s.cadence := by
  cases move <;> rfl

theorem Sight.Moves.programmed {s t : Sight} (move : s.Moves t) :
    t.programmed = s.programmed := by
  cases move <;> rfl

theorem Sight.Moves.tally {s t : Sight} (move : s.Moves t) : t.tally = s.tally := by
  cases move <;> rfl

theorem around_moves {b b' : Bench} (step : AroundEdges b b') : b.sight.Moves b'.sight := by
  cases step with
  | pass clocks later misses =>
      refine .pass clocks.art later ?_
      intro compare awaited ahead
      unfold Sight.awaited at awaited
      split at awaited
      · rename_i waits
        obtain rfl := List.mem_singleton.mp awaited
        exact Nat.lt_of_not_le fun reached => misses ⟨waits, ahead, reached⟩
      · contradiction
  | fire clocks passes =>
      obtain ⟨waits, before, after⟩ := passes
      exact .fire clocks.art (if_pos waits) after (Nat.le_trans (Nat.le_of_lt before) after)
  | beginFreq =>
      have same : (b.withMachine (b.machine.beginPublish .freq)).sight = b.sight := by
        simp only [Machine.beginPublish, Machine.publish]
        split <;> rfl
      rw [same]
      exact .same
  | expire | outputTimer | endFreq => exact .same

end sights

section track

variable {grid : EdgeGrid} {params : Params} {before : List Nat} {k : Nat} {tally : RunTally} {s t : Sight}
  {fact : Sight → Prop}

/-- What stays as it is throughout: the configuration has been applied, and the
software path serves it. -/
structure Course (grid : EdgeGrid) (params : Params) (s : Sight) : Prop where
  running : s.run = .running
  applied : s.gen = s.cadence.gen
  phase : s.cadence.phase = .firstRising ∨ s.cadence.phase = .toggle
  high : s.cadence.highTimeNs = grid.highTimeNs
  period : s.cadence.highTimeNs + s.cadence.lowTimeNs = grid.periodNs
  params : s.params = params
  attended : s.cancelling = false

/-- No edge has been lost, and the `k`-th comes next. -/
structure EdgeTrack (grid : EdgeGrid) (params : Params) (before : List Nat) (k : Nat) (s : Sight) :
    Prop extends EdgesKept grid params before s where
  single : hasPm s.ctl = false
  nextEdge : s.cadence.nextEdge = grid.time k
  nextEdgeType : s.cadence.nextEdgeType = edgeKind k
  reached : ∀ edge ∈ s.programmed, edge.compare ≤ s.art ∨ edge.compare ∈ s.awaited

/-- A moment of the course: unless the block has been disabled, it is on track,
the tally is this one, and some fact about the compare holds. -/
structure Stage (grid : EdgeGrid) (params : Params) (before : List Nat) (k : Nat)
    (tally : RunTally) (fact : Sight → Prop) (s : Sight) : Prop where
  course : Course grid params s
  track : hasEn s.ctl = true →
    EdgeTrack grid params before k s ∧ s.tally = tally ∧ fact s

/-- The compare has fired. -/
def Sight.Fired (s : Sight) : Prop := s.comparePending = false

/-- The compare is awaited, or ART has passed it. -/
def Sight.Settled (s : Sight) : Prop := s.comparePending = false → s.compv.toNat ≤ s.art

theorem Sight.Fired.moves (move : s.Moves t) (fired : s.Fired) : t.Fired := by
  cases move with
  | same => exact fired
  | pass => exact fired
  | fire => rfl

theorem Sight.Settled.moves (move : s.Moves t) (settled : s.Settled) : t.Settled := by
  cases move with
  | same => exact settled
  | pass art later => exact fun fired => (settled fired).trans later
  | fire art _ passed _ => exact fun _ => passed

theorem EdgesKept.moves (move : s.Moves t) (kept : EdgesKept grid params before s) :
    EdgesKept grid params before t := by
  cases move with
  | same => exact kept
  | pass art later misses =>
      exact ⟨kept.fired, fun compare awaited => misses compare awaited (kept.ahead compare awaited),
        kept.order, kept.onGrid⟩
  | fire art awaited passed later =>
      refine ⟨?_, by simp [Sight.awaited], kept.order, kept.onGrid⟩
      have fired := kept.fired
      rw [awaited] at fired
      simpa [Sight.awaited] using fired

theorem EdgeTrack.moves (move : s.Moves t) (track : EdgeTrack grid params before k s) :
    EdgeTrack grid params before k t := by
  have kept := track.toEdgesKept.moves move
  cases move with
  | same => exact track
  | pass art later =>
      refine ⟨kept, track.single, track.nextEdge, track.nextEdgeType, ?_⟩
      intro edge member
      exact (track.reached edge member).imp_left fun reached => reached.trans later
  | fire art awaited passed later =>
      refine ⟨kept, track.single, track.nextEdge, track.nextEdgeType, ?_⟩
      intro edge member
      left
      rcases track.reached edge member with reached | waits
      · exact reached.trans later
      · rw [awaited, List.mem_singleton] at waits
        exact waits.trans_le passed

theorem Course.moves (move : s.Moves t) (course : Course grid params s) : Course grid params t := by
  cases move with
  | same => exact course
  | pass | fire =>
      exact ⟨course.running, course.applied, course.phase, course.high, course.period,
        course.params, course.attended⟩

theorem Stage.moves (facts : ∀ s t : Sight, s.Moves t → fact s → fact t) (move : s.Moves t)
    (stage : Stage grid params before k tally fact s) : Stage grid params before k tally fact t := by
  refine ⟨stage.course.moves move, fun enabled => ?_⟩
  obtain ⟨track, same, holds⟩ := stage.track (move.ctl ▸ enabled)
  exact ⟨track.moves move, move.tally.trans same, facts s t move holds⟩

end track

section looking

/-- Facts that the surroundings cannot change. -/
def Lasts (fact : Bench → Prop) : Prop :=
  ∀ b b' : Bench, b.sight.Moves b'.sight → b'.sampled = b.sampled → fact b → fact b'

theorem Lasts.stable {fact : Bench → Prop} (lasts : Lasts fact) : Stable benchSem fact := by
  intro b b' step holds
  have sampled : b'.sampled = b.sampled := by cases step <;> rfl
  exact lasts b b' (around_moves step) sampled holds

theorem Lasts.and {fact other : Bench → Prop} (lasts : Lasts fact) (others : Lasts other) :
    Lasts fun b => fact b ∧ other b :=
  fun b b' move sampled holds =>
    ⟨lasts b b' move sampled holds.1, others b b' move sampled holds.2⟩

theorem lasts_cadence (cadence : Cadence) : Lasts fun b => b.sight.cadence = cadence :=
  fun _ _ move _ same => move.cadence.trans same

theorem lasts_ctl (ctrl : BitVec 32) : Lasts fun b => b.sight.ctl = ctrl :=
  fun _ _ move _ same => move.ctl.trans same

/-- Accesses that no edge depends on. -/
def Quiet : Op → Prop
  | .writel _ _ | .publish _ | .sample _ _ | .hrtimerStart _ | .cancelWorkBegin
  | .cancelWorkEnd => False
  | .store update => ∀ block, (update block).cadence = block.cadence
  | _ => True

theorem quiet_sight {op : Op} {b b' : Bench} {reply : op.Resp} (quiet : Quiet op)
    (step : Bench.perform op b = some (reply, b')) :
    b'.sight = b.sight ∧ b'.sampled = b.sampled := by
  obtain ⟨⟨_, m⟩, performed, equal⟩ := Option.map_eq_some_iff.mp step
  cases equal
  cases op with
  | writel | publish | sample | hrtimerStart | cancelWorkBegin | cancelWorkEnd => exact quiet.elim
  | readl reg =>
      cases performed
      cases reg <;> exact ⟨rfl, rfl⟩
  | mark point =>
      cases performed
      cases point <;> exact ⟨rfl, rfl⟩
  | store update =>
      cases performed
      simp only [Bench.note, Bench.sight, quiet b.machine.block, and_self]
  | hrtimerCancel | cancelOneshotStopSync =>
      simp only [Machine.perform] at performed
      split at performed
      all_goals
        cases performed
        try exact ⟨rfl, rfl⟩
  | _ =>
      cases performed
      exact ⟨rfl, rfl⟩

theorem Lasts.quiet {fact : Bench → Prop} (lasts : Lasts fact) {op : Op} {b b' : Bench}
    {reply : op.Resp} (quiet : Quiet op) (step : Bench.perform op b = some (reply, b'))
    (holds : fact b) : fact b' := by
  obtain ⟨sight, sampled⟩ := quiet_sight quiet step
  exact lasts b b' (sight ▸ .same) sampled holds

/-- No edge has been lost, unless the block has been disabled. -/
def Upheld (grid : EdgeGrid) (params : Params) (before : List Nat) (b : Bench) : Prop :=
  hasEn b.sight.ctl = true → EdgesKept grid params before b.sight

variable {grid : EdgeGrid} {params : Params} {before : List Nat} {α : Type}
  {fact : Bench → Prop}

theorem upholds_quiet {program : Driver α} (uses : Uses Quiet program) (lasts : Lasts fact)
    (safe : ∀ b, fact b → Upheld grid params before b) :
    Upholds benchSem (Upheld grid params before) fact program fun _ => fact :=
  Upholds.uses uses (fun _ _ _ _ quiet step holds => lasts.quiet quiet step.2 holds) lasts.stable
    safe

/-- A look, with what has been seen. -/
theorem upholds_look (op : Op) (quiet : Quiet op) {seen : op.Resp → Bench → Prop}
    (lasts : Lasts fact) (safe : ∀ b, fact b → Upheld grid params before b)
    (lasting : ∀ reply, Lasts (seen reply))
    (looks : ∀ b reply b', Bench.perform op b = some (reply, b') → seen reply b) :
    Upholds benchSem (Upheld grid params before) fact (Prog.perform op)
      fun reply b => fact b ∧ seen reply b := by
  apply Upholds.call lasts.stable (fun reply => (lasts.and (lasting reply)).stable) safe
    (fun reply b holds => safe b holds.1)
  intro b reply b' holds step
  exact ⟨lasts.quiet quiet step.2 holds, (lasting reply).quiet quiet step.2 (looks b reply b' step.2)⟩

theorem upholds_load (lasts : Lasts fact) (safe : ∀ b, fact b → Upheld grid params before b) :
    Upholds benchSem (Upheld grid params before) fact loadBlock
      fun block b => fact b ∧ b.sight.cadence = block.cadence := by
  apply upholds_look .load trivial lasts safe (fun block => lasts_cadence block.cadence)
  intro b block b' step
  cases step
  rfl

theorem upholds_desired (lasts : Lasts fact) (safe : ∀ b, fact b → Upheld grid params before b) :
    Upholds benchSem (Upheld grid params before) fact outputDesiredGet
      fun desired b => fact b ∧ b.sight.run = desired.run ∧ b.sight.gen = desired.gen := by
  apply upholds_look .outputDesiredGet trivial lasts safe
  · intro desired b b' move _ same
    rw [move.run, move.gen]
    exact same
  · intro b desired b' step
    cases step
    exact ⟨rfl, rfl⟩

theorem upholds_read_ctl (lasts : Lasts fact) (safe : ∀ b, fact b → Upheld grid params before b) :
    Upholds benchSem (Upheld grid params before) fact readCtl
      fun ctrl b => fact b ∧ b.sight.ctl = ctrl := by
  apply upholds_look (.readl .ctl) trivial lasts safe lasts_ctl
  intro b ctrl b' step
  cases step
  rfl

end looking

section writing

variable {grid : EdgeGrid} {params : Params} {before : List Nat} {k : Nat} {tally : RunTally} {s : Sight}
  {fact : Sight → Prop}

theorem Sight.Fired.awaited (fired : s.Fired) : s.awaited = [] := by
  simp [Sight.awaited, show s.comparePending = false from fired]

/-- A control write that keeps EN and PM. -/
theorem Stage.writeCtl {value : BitVec 32} (en : hasEn value = hasEn s.ctl)
    (pm : hasPm value = hasPm s.ctl) (kept : fact s → fact { s with ctl := value })
    (stage : Stage grid params before k tally fact s) :
    Stage grid params before k tally fact { s with ctl := value } := by
  have awaited : Sight.awaited { s with ctl := value } = s.awaited := by
    simp [Sight.awaited, en, pm]
  obtain ⟨course, tracked⟩ := stage
  refine ⟨⟨course.running, course.applied, course.phase, course.high, course.period,
    course.params, course.attended⟩, fun enabled => ?_⟩
  obtain ⟨track, same, holds⟩ := tracked (en ▸ enabled)
  refine ⟨⟨⟨?_, ?_, track.order, track.onGrid⟩, pm ▸ track.single, track.nextEdge,
    track.nextEdgeType, ?_⟩, same, kept holds⟩
  · rw [awaited]
    exact track.fired
  · rw [awaited]
    exact track.ahead
  · rw [awaited]
    exact track.reached

/-- A compare that has fired can be overwritten. -/
theorem Stage.writeHigh (value : BitVec 64) (stage : Stage grid params before k tally Sight.Fired s) :
    Stage grid params before k tally Sight.Fired { s with compv := value } := by
  obtain ⟨course, tracked⟩ := stage
  refine ⟨⟨course.running, course.applied, course.phase, course.high, course.period,
    course.params, course.attended⟩, fun enabled => ?_⟩
  obtain ⟨track, same, fired⟩ := tracked enabled
  have awaited : Sight.awaited { s with compv := value } = s.awaited := by
    simp [Sight.awaited, show s.comparePending = false from fired]
  refine ⟨⟨⟨?_, ?_, track.order, track.onGrid⟩, track.single, track.nextEdge,
    track.nextEdgeType, ?_⟩, same, fired⟩
  · rw [awaited]
    exact track.fired
  · rw [awaited]
    exact track.ahead
  · rw [awaited]
    exact track.reached

/-- The write that sets the next compare. -/
theorem Stage.writeLow {value : BitVec 64} {edge : Programmed}
    (inTime : hasEn s.ctl = true → s.art < value.toNat)
    (time : edge.time = s.cadence.nextEdge) (kind : edge.kind = s.cadence.nextEdgeType)
    (compare : edge.compare = value.toNat)
    (converted : clockNsToCompareArt s.params edge.clocks edge.time = .ok edge.compare)
    (stage : Stage grid params before k ⟨k, k + 1, k⟩ Sight.Fired s) :
    Stage grid params before k ⟨k + 1, k + 1, k⟩ Sight.Settled
      { s with compv := value, comparePending := true, programmed := s.programmed ++ [edge] } := by
  obtain ⟨course, tracked⟩ := stage
  refine ⟨⟨course.running, course.applied, course.phase, course.high, course.period,
    course.params, course.attended⟩, fun enabled => ?_⟩
  obtain ⟨track, same, fired⟩ := tracked enabled
  have length : s.programmed.length = k := congrArg RunTally.edges same
  have early := inTime enabled
  have none := fired.awaited
  have past : ∀ old ∈ s.programmed, old.compare ≤ s.art := by
    intro old member
    simpa [none] using track.reached old member
  have awaited : Sight.awaited { s with
      compv := value, comparePending := true, programmed := s.programmed ++ [edge] } =
        [value.toNat] := by
    have enabled : hasEn s.ctl = true := enabled
    simp [Sight.awaited, enabled, track.single]
  refine ⟨⟨⟨?_, ?_, ?_, ?_⟩, track.single, track.nextEdge, track.nextEdgeType, ?_⟩, ?_, nofun⟩
  · have before := track.fired
    rw [none, List.append_nil] at before
    rw [awaited, List.map_append, List.map_singleton, compare, before, List.append_assoc]
  · rw [awaited]
    exact fun other same => List.mem_singleton.mp same ▸ early
  · rw [List.map_append, List.pairwise_append]
    refine ⟨track.order, List.pairwise_singleton _ _, ?_⟩
    intro first among second last
    obtain ⟨old, member, rfl⟩ := List.mem_map.mp among
    rw [List.map_singleton, List.mem_singleton] at last
    rw [last, compare]
    exact (past old member).trans_lt early
  · intro place bound
    by_cases earlier : place < s.programmed.length
    · simpa only [List.getElem_append_left earlier] using track.onGrid place earlier
    · have last : place = k := by
        simp only [List.length_append, List.length_singleton] at bound
        omega
      subst last
      have found : (s.programmed ++ [edge])[place] = edge := by
        simp [List.getElem_append_right, length]
      simp only [found]
      exact ⟨time.trans track.nextEdge, kind.trans track.nextEdgeType, course.params ▸ converted⟩
  · intro other member
    rw [awaited]
    rcases List.mem_append.mp member with old | new
    · exact Or.inl (past other old)
    · rw [List.mem_singleton.mp new, compare]
      exact Or.inr (List.mem_singleton_self _)
  · unfold Sight.tally at same ⊢
    simp_all

end writing

section programming

variable {grid : EdgeGrid} {params : Params} {before : List Nat} {k : Nat} {tally : RunTally}
  {fact : Sight → Prop}

theorem Stage.upheld {b : Bench} (stage : Stage grid params before k tally fact b.sight) :
    Upheld grid params before b :=
  fun enabled => (stage.track enabled).1.toEdgesKept

theorem lasts_stage (facts : ∀ s t : Sight, s.Moves t → fact s → fact t) :
    Lasts fun b => Stage grid params before k tally fact b.sight :=
  fun _ _ move _ stage => stage.moves facts move

/-- The compare to program is the one of the next edge, by the last conversion. -/
def Converted (art : Nat) (b : Bench) : Prop :=
  clockNsToCompareArt b.sight.params b.sampled b.sight.cadence.nextEdge = .ok art

theorem lasts_converted (art : Nat) : Lasts (Converted art) := by
  intro b b' move sampled converted
  rw [Converted, move.params, move.cadence, sampled]
  exact converted

/-- The `k`-th edge is due, its compare is known, and so is the control value. -/
def Due (grid : EdgeGrid) (params : Params) (before : List Nat) (k art : Nat) (ctrl : BitVec 32)
    (b : Bench) : Prop :=
  (Stage grid params before k ⟨k, k + 1, k⟩ Sight.Fired b.sight ∧ Converted art b) ∧
    b.sight.ctl = ctrl

theorem lasts_due (art : Nat) (ctrl : BitVec 32) : Lasts (Due grid params before k art ctrl) :=
  ((lasts_stage fun _ _ => Sight.Fired.moves).and (lasts_converted art)).and (lasts_ctl ctrl)

theorem Due.upheld {art : Nat} {ctrl : BitVec 32} {b : Bench}
    (due : Due grid params before k art ctrl b) : Upheld grid params before b :=
  due.1.1.upheld

theorem write_low_sight (b : Bench) (value : BitVec 32) :
    (b.note (.writel .compv31_0 value) (b.machine.writeReg .compv31_0 value)).sight =
      { b.sight with
        compv := joinWords (upperWord b.machine.regs.compv) value
        comparePending := true
        programmed := b.programmed ++ [⟨b.machine.block.outputNextEdge,
          b.machine.block.outputNextEdgeType, b.sampled,
          (joinWords (upperWord b.machine.regs.compv) value).toNat⟩] } := by
  simp only [Bench.note, Bench.sight, Machine.writeReg]
  split <;> rfl

theorem upholds_write_compv {art : Nat} (wide : art < 2 ^ 64) (ctrl : BitVec 32) :
    Upholds benchSem (Upheld grid params before) (Due grid params before k art ctrl)
      (writeCompv art) fun _ b =>
        Stage grid params before k ⟨k + 1, k + 1, k⟩ Sight.Settled b.sight ∧ b.sight.ctl = ctrl := by
  have settled : Lasts fun b =>
      Stage grid params before k ⟨k + 1, k + 1, k⟩ Sight.Settled b.sight ∧ b.sight.ctl = ctrl :=
    (lasts_stage fun _ _ => Sight.Settled.moves).and (lasts_ctl ctrl)
  have half : Lasts fun b => Due grid params before k art ctrl b ∧
      upperWord b.sight.compv = upper32Bits art :=
    (lasts_due art ctrl).and fun _ _ move _ same => move.compv ▸ same
  apply Upholds.via fun _ b => Due grid params before k art ctrl b ∧
    upperWord b.sight.compv = upper32Bits art
  · apply Upholds.call (lasts_due art ctrl).stable (fun _ => half.stable) (fun _ => Due.upheld)
      (fun _ _ holds => holds.1.upheld)
    rintro b reply b' ⟨⟨stage, converted⟩, same⟩ ⟨-, step⟩
    cases step
    exact ⟨⟨⟨stage.writeHigh _, converted⟩, same⟩, upper_join _ _⟩
  · intro _
    apply Upholds.call half.stable (fun _ => settled.stable) (fun _ holds => holds.1.upheld)
      (fun _ _ holds => holds.1.upheld)
    rintro b reply b' ⟨⟨⟨stage, converted⟩, same⟩, high⟩ ⟨inTime, step⟩
    cases step
    rw [write_low_sight]
    refine ⟨stage.writeLow inTime rfl rfl rfl ?_, same⟩
    have whole : joinWords (upperWord b.machine.regs.compv) (lower32Bits art) =
        BitVec.ofNat 64 art := by
      rw [show upperWord b.machine.regs.compv = upper32Bits art from high]
      exact join_words _
    have value : (BitVec.ofNat 64 art).toNat = art := by
      rw [BitVec.toNat_ofNat]
      exact Nat.mod_eq_of_lt wide
    rw [whole, value]
    exact converted

theorem upholds_write_ctl {value ctrl : BitVec 32} (rest : Bench → Prop)
    (en : hasEn value = hasEn ctrl) (pm : hasPm value = hasPm ctrl)
    (facts : ∀ s t : Sight, s.Moves t → fact s → fact t)
    (kept : ∀ s : Sight, fact s → fact { s with ctl := value }) (lasts : Lasts rest)
    (other : ∀ b b' : Bench, b'.sight = { b.sight with ctl := value } → b'.sampled = b.sampled →
      rest b → rest b') :
    Upholds benchSem (Upheld grid params before)
      (fun b => (Stage grid params before k tally fact b.sight ∧ rest b) ∧ b.sight.ctl = ctrl)
      (writeCtl value) fun _ b =>
        (Stage grid params before k tally fact b.sight ∧ rest b) ∧ b.sight.ctl = value := by
  have stable : Lasts fun b => Stage grid params before k tally fact b.sight ∧ rest b :=
    (lasts_stage facts).and lasts
  apply Upholds.call (stable.and (lasts_ctl ctrl)).stable
    (fun _ => (stable.and (lasts_ctl value)).stable) (fun _ holds => holds.1.1.upheld)
    (fun _ _ holds => holds.1.1.upheld)
  rintro b reply b' ⟨⟨stage, holds⟩, same⟩ ⟨-, step⟩
  have sight : b'.sight = { b.sight with ctl := value } ∧ b'.sampled = b.sampled := by
    cases step
    refine ⟨?_, rfl⟩
    simp only [Bench.note, Bench.sight, Machine.writeReg, Machine.writeCtlHistory]
    split <;> rfl
  refine ⟨⟨?_, other b b' sight.1 sight.2 holds⟩, congrArg Sight.ctl sight.1⟩
  rw [sight.1]
  exact stage.writeCtl (same ▸ en) (same ▸ pm) (kept _)

/-- A conversion, by the clocks of its moment. -/
theorem upholds_sample {α : Type} (read : Params → Clocks → α)
    (facts : ∀ s t : Sight, s.Moves t → fact s → fact t)
    (safe : ∀ b : Bench, fact b.sight → Upheld grid params before b) :
    Upholds benchSem (Upheld grid params before) (fun b => fact b.sight) (sample read)
      fun value b => fact b.sight ∧ value = read b.sight.params b.sampled := by
  have before : Lasts fun b => fact b.sight := fun _ _ move _ holds => facts _ _ move holds
  have after (value : α) : Lasts fun b => value = read b.sight.params b.sampled := by
    intro b b' move sampled same
    rw [move.params, sampled]
    exact same
  apply Upholds.call
  · exact before.stable
  · exact fun value => (before.and (after value)).stable
  · exact safe
  · exact fun _ b holds => safe b holds.1
  · intro b value b' holds step
    cases step.2
    exact ⟨holds, rfl⟩

/-- The edge bits of the source program neither enable nor disable. -/
def PlainBits (bits : BitVec 32) : Prop := hasEn bits = false ∧ hasPm bits = false

theorem upholds_program_edge (time : Int) {edgeBits : BitVec 32} (plain : PlainBits edgeBits) :
    Upholds benchSem (Upheld grid params before)
      (fun b => Stage grid params before k ⟨k, k + 1, k⟩ Sight.Fired b.sight ∧
        b.sight.cadence.nextEdge = time)
      (programOutputEdge time edgeBits) fun status b =>
        match status with
        | .ok () => Stage grid params before k ⟨k + 1, k + 1, k⟩ Sight.Settled b.sight
        | .error _ => Stage grid params before k ⟨k, k + 1, k⟩ Sight.Fired b.sight := by
  have facts (s t : Sight) (move : s.Moves t)
      (holds : Stage grid params before k ⟨k, k + 1, k⟩ Sight.Fired s ∧ s.cadence.nextEdge = time) :
      Stage grid params before k ⟨k, k + 1, k⟩ Sight.Fired t ∧ t.cadence.nextEdge = time :=
    ⟨holds.1.moves (fun _ _ => Sight.Fired.moves) move, move.cadence ▸ holds.2⟩
  have en (ctrl : BitVec 32) : hasEn (ctlWith (ctlWithout ctrl ctlEp) edgeBits) = hasEn ctrl := by
    simp [plain.1]
  have pm (ctrl : BitVec 32) : hasPm (ctlWith (ctlWithout ctrl ctlEp) edgeBits) = hasPm ctrl := by
    simp [plain.2]
  apply (upholds_sample _ facts fun _ holds => holds.1.upheld).bind
  intro art
  cases art with
  | error status =>
      have lasts : Lasts fun b => Stage grid params before k ⟨k, k + 1, k⟩ Sight.Fired b.sight :=
        lasts_stage fun _ _ => Sight.Fired.moves
      intro b holds
      exact Upholds.pure lasts.stable (fun _ => Stage.upheld) (fun _ holds => holds) b holds.1.1
  | ok art =>
      have lasts : Lasts fun b => Stage grid params before k ⟨k, k + 1, k⟩ Sight.Fired b.sight ∧
          Converted art b :=
        (lasts_stage fun _ _ => Sight.Fired.moves).and (lasts_converted art)
      have settled : Lasts fun b => Stage grid params before k ⟨k + 1, k + 1, k⟩ Sight.Settled b.sight :=
        lasts_stage fun _ _ => Sight.Settled.moves
      rintro b ⟨⟨stage, due⟩, converted⟩
      have wide : art < 2 ^ 64 := clock_ns_to_compare_art_lt converted.symm
      have ready : Converted art b := by
        rw [Converted, due]
        exact converted.symm
      refine (?_ : Upholds benchSem (Upheld grid params before) (fun b =>
        Stage grid params before k ⟨k, k + 1, k⟩ Sight.Fired b.sight ∧ Converted art b) _ _) b
          ⟨stage, ready⟩
      apply (upholds_read_ctl lasts fun _ holds => holds.1.upheld).bind
      intro ctrl
      dsimp only
      split
      · apply (upholds_write_compv wide ctrl).bind
        intro _
        have kept (s : Sight) (holds : s.Settled) :
            Sight.Settled { s with ctl := ctlWith (ctlWithout ctrl ctlEp) edgeBits } := holds
        apply Upholds.bind
        · apply Upholds.conseq (upholds_write_ctl (fun _ => True) (en ctrl) (pm ctrl)
            (fun _ _ => Sight.Settled.moves) kept (fun _ _ _ _ _ => trivial)
            (fun _ _ _ _ _ => trivial))
          · exact fun _ holds => ⟨⟨holds.1, trivial⟩, holds.2⟩
          · exact fun _ _ holds => holds.1.1
        · intro _
          exact Upholds.pure settled.stable (fun _ => Stage.upheld) fun _ holds => holds
      · apply (upholds_write_ctl (Converted art) (en ctrl) (pm ctrl)
          (fun _ _ => Sight.Fired.moves) (fun _ holds => holds) (lasts_converted art) ?_).bind
        · intro _
          apply (upholds_write_compv wide _).bind
          intro _ b holds
          exact Upholds.pure settled.stable (fun _ => Stage.upheld) (fun _ holds => holds) b holds.1
        · intro b b' sight sampled converted
          rw [Converted, sight, sampled]
          exact converted

end programming

section runs

variable {grid : EdgeGrid} {params : Params} {before : List Nat} {k : Nat} {tally : RunTally}
  {fact : Sight → Prop}

def Cadence.advanced (cadence : Cadence) : Cadence :=
  { cadence with
    nextEdge := toS64 (cadence.nextEdge +
      (if cadence.nextEdgeType = .rise then cadence.highTimeNs else cadence.lowTimeNs : Nat))
    nextEdgeType := outputOppositeEdge cadence.nextEdgeType
    phase := .toggle }

theorem edge_kind_succ (k : Nat) : edgeKind (k + 1) = outputOppositeEdge (edgeKind k) := by
  unfold edgeKind
  rcases Nat.mod_two_eq_zero_or_one k with even | odd
  · simp [even, Nat.add_mod, outputOppositeEdge]
  · simp [odd, Nat.add_mod, outputOppositeEdge]

/-- The edges are one high and one low time apart, in turn. -/
theorem EdgeGrid.time_succ (grid : EdgeGrid) {low : Nat} (k : Nat)
    (period : grid.highTimeNs + low = grid.periodNs) :
    grid.time (k + 1) =
      toS64 (grid.time k + (if edgeKind k = .rise then grid.highTimeNs else low : Nat)) := by
  have next : (k + 1) / 2 * grid.periodNs + (k + 1) % 2 * grid.highTimeNs =
      k / 2 * grid.periodNs + k % 2 * grid.highTimeNs +
        (if edgeKind k = .rise then grid.highTimeNs else low) := by
    unfold edgeKind
    rcases Nat.mod_two_eq_zero_or_one k with even | odd
    · rw [show (k + 1) / 2 = k / 2 by omega, show (k + 1) % 2 = 1 by omega, even]
      simp
    · rw [show (k + 1) / 2 = k / 2 + 1 by omega, show (k + 1) % 2 = 0 by omega, odd, ← period]
      simp
      ring
  unfold time toS64
  rw [Int.bmod_add_bmod, next, Nat.cast_add, add_assoc]

theorem Stage.advance {s : Sight} (stage : Stage grid params before k ⟨k + 1, k + 1, k⟩ Sight.Settled s) :
    Stage grid params before (k + 1) ⟨k + 1, k + 1, k⟩ Sight.Settled
      { s with cadence := s.cadence.advanced } := by
  obtain ⟨course, tracked⟩ := stage
  refine ⟨⟨course.running, course.applied, Or.inr rfl, course.high, course.period,
    course.params, course.attended⟩, fun enabled => ?_⟩
  obtain ⟨track, same, settled⟩ := tracked enabled
  refine ⟨⟨⟨track.fired, track.ahead, track.order, track.onGrid⟩, track.single, ?_, ?_,
    track.reached⟩, same, settled⟩
  · rw [grid.time_succ k (course.high ▸ course.period)]
    simp only [Cadence.advanced, track.nextEdge, track.nextEdgeType, course.high]
  · rw [edge_kind_succ]
    simp only [Cadence.advanced, track.nextEdgeType]

theorem upholds_advance :
    Upholds benchSem (Upheld grid params before)
      (fun b => Stage grid params before k ⟨k + 1, k + 1, k⟩ Sight.Settled b.sight) (storeBlock advanced)
      fun _ b => Stage grid params before (k + 1) ⟨k + 1, k + 1, k⟩ Sight.Settled b.sight := by
  have settled (k : Nat) (tally : RunTally) : Lasts fun b =>
      Stage grid params before k tally Sight.Settled b.sight :=
    lasts_stage fun _ _ => Sight.Settled.moves
  apply Upholds.call (settled _ _).stable (fun _ => (settled _ _).stable)
    (fun _ => Stage.upheld) (fun _ _ => Stage.upheld)
  intro b reply b' stage step
  cases step.2
  exact stage.advance

/-- Between runs: the compare in the block is the one before the next edge, and
unless the block has been disabled another run is on its way. -/
def Between (grid : EdgeGrid) (params : Params) (before : List Nat) (b : Bench) : Prop :=
  ∃ k, Stage grid params before k ⟨k, k, k⟩ Sight.Settled b.sight ∧
    (hasEn b.sight.ctl = true → b.machine.AwaitsRun)

theorem awaits_run_around {b b' : Bench} (step : AroundEdges b b')
    (attended : b.sight.cancelling = false) (awaits : b.machine.AwaitsRun) :
    b'.machine.AwaitsRun := by
  have uncancelled : b.machine.workCancelling = false := attended
  cases step with
  | pass | fire => exact awaits
  | expire => exact .inr (.inl rfl)
  | outputTimer =>
      refine .inr (.inr ?_)
      change (b.machine.workQueued || !b.machine.workCancelling) = true
      simp [uncancelled]
  | beginFreq =>
      simp only [Machine.AwaitsRun, Bench.withMachine, Machine.beginPublish, Machine.publish]
      split <;> exact awaits
  | endFreq =>
      refine .inr (.inr ?_)
      change (b.machine.workQueued || !b.machine.workCancelling) = true
      simp [uncancelled]

theorem between_around {b b' : Bench} (step : AroundEdges b b')
    (between : Between grid params before b) : Between grid params before b' := by
  obtain ⟨k, stage, awaits⟩ := between
  have move := around_moves step
  refine ⟨k, stage.moves (fun _ _ => Sight.Settled.moves) move, fun enabled => ?_⟩
  exact awaits_run_around step stage.course.attended (awaits (move.ctl ▸ enabled))

theorem Between.upheld {b : Bench} (between : Between grid params before b) :
    Upheld grid params before b := by
  obtain ⟨k, stage, -⟩ := between
  exact stage.upheld

/-- The block has been disabled. -/
def SwitchedOff (grid : EdgeGrid) (params : Params) (b : Bench) : Prop :=
  Course grid params b.sight ∧ hasEn b.sight.ctl = false

theorem lasts_off : Lasts (SwitchedOff grid params) :=
  fun _ _ move _ off => ⟨off.1.moves move, move.ctl ▸ off.2⟩

theorem SwitchedOff.between {b : Bench} (off : SwitchedOff grid params b) : Between grid params before b :=
  ⟨0, ⟨off.1, fun enabled => absurd enabled (by simp [off.2])⟩,
    fun enabled => absurd enabled (by simp [off.2])⟩

theorem SwitchedOff.upheld {b : Bench} (off : SwitchedOff grid params b) : Upheld grid params before b :=
  fun enabled => absurd enabled (by simp [off.2])

/-- Accesses that leave a disabled block disabled. -/
def StaysOff : Op → Prop
  | .writel .ctl value => hasEn value = false
  | .writel _ _ | .sample _ _ => True
  | .store update => update = halted ∨ ∀ block, (update block).cadence = block.cadence
  | op => Quiet op

theorem stays_off_halting : Halting StaysOff where
  readl _ := trivial
  load := trivial
  sample _ _ := trivial
  real := trivial
  desired := trivial
  sleep _ := trivial
  looked := trivial
  duty _ := Or.inr fun _ => rfl
  periodic _ := Or.inr fun _ => rfl
  data reg _ notCtl := by cases reg <;> first | contradiction | trivial
  disable _ off := off
  halt := Or.inl rfl

theorem SwitchedOff.step {op : Op} {b b' : Bench} {reply : op.Resp} (stays : StaysOff op)
    (step : Bench.perform op b = some (reply, b')) (off : SwitchedOff grid params b) :
    SwitchedOff grid params b' := by
  obtain ⟨course, disabled⟩ := off
  have still (cadence : b'.sight.cadence = b.sight.cadence) (ctl : hasEn b'.sight.ctl = false)
      (rest : b'.sight.run = b.sight.run ∧ b'.sight.gen = b.sight.gen ∧
        b'.sight.params = b.sight.params ∧ b'.sight.cancelling = b.sight.cancelling) :
      SwitchedOff grid params b' := by
    refine ⟨⟨rest.1 ▸ course.running, ?_, cadence ▸ course.phase, cadence ▸ course.high,
      cadence ▸ course.period, rest.2.2.1 ▸ course.params, rest.2.2.2 ▸ course.attended⟩, ctl⟩
    rw [rest.2.1, cadence]
    exact course.applied
  cases op with
  | writel reg value =>
      cases step
      cases reg with
      | ctl => exact still rfl stays ⟨rfl, rfl, rfl, rfl⟩
      | _ => exact still rfl disabled ⟨rfl, rfl, rfl, rfl⟩
  | store update =>
      cases step
      rcases stays with rfl | same
      · exact ⟨⟨course.running, course.applied, Or.inr rfl, course.high, course.period,
          course.params, course.attended⟩, disabled⟩
      · exact still (same _) disabled ⟨rfl, rfl, rfl, rfl⟩
  | sample =>
      cases step
      exact still rfl disabled ⟨rfl, rfl, rfl, rfl⟩
  | publish => exact stays.elim
  | _ =>
      obtain ⟨sight, -⟩ := quiet_sight (by exact stays) step
      exact still (sight ▸ rfl) (sight ▸ disabled)
        ⟨sight ▸ rfl, sight ▸ rfl, sight ▸ rfl, sight ▸ rfl⟩

/-- Giving up disables the block, whatever moment it comes at. -/
theorem upholds_abandon (facts : ∀ s t : Sight, s.Moves t → fact s → fact t) :
    Upholds benchSem (Upheld grid params before)
      (fun b => Stage grid params before k tally fact b.sight) abandonOutput
      fun _ => Between grid params before := by
  have lasts : Lasts fun b => Stage grid params before k tally fact b.sight := lasts_stage facts
  have quiet (op : Op) (allowed : Quiet op) :
      Upholds benchSem (Upheld grid params before)
        (fun b => Stage grid params before k tally fact b.sight) (Prog.perform op)
        fun _ b => Stage grid params before k tally fact b.sight :=
    upholds_quiet ((uses_perform _).mpr allowed) lasts fun _ => Stage.upheld
  apply (quiet (.mark .giveUp) trivial).bind
  intro _
  apply (quiet .hrtimerCancel trivial).bind
  intro _
  apply (upholds_read_ctl lasts fun _ => Stage.upheld).bind
  intro ctrl
  apply Upholds.via fun _ => SwitchedOff grid params
  · apply Upholds.call (lasts.and (lasts_ctl ctrl)).stable (fun _ => lasts_off.stable)
      (fun _ holds => holds.1.upheld) (fun _ _ => SwitchedOff.upheld)
    rintro b reply b' ⟨stage, -⟩ step
    cases step.2
    refine ⟨⟨stage.course.running, stage.course.applied, stage.course.phase, stage.course.high,
      stage.course.period, stage.course.params, stage.course.attended⟩, ?_⟩
    change hasEn (ctlWithout ctrl ctlEn) = false
    simp
  · intro _
    have uses := ((disable_output_hw_uses stays_off_halting).2 ctrl).2 ()
    exact (Upholds.uses uses (fun _ _ _ _ stays step off => off.step stays step.2)
      lasts_off.stable fun _ => SwitchedOff.upheld).conseq (fun _ off => off) fun _ _ => SwitchedOff.between

theorem plain_edge_bits (params : Params) (kind : LogicalEdge) :
    PlainBits (if params.softwareRearmToggle then ctlEpToggle
      else outputEdgeBits params.outputPolarity kind) := by
  split
  · exact ⟨rfl, rfl⟩
  · exact output_edge_bits_mode _ _

/-- The timer's start ends the run. -/
theorem upholds_wake_at (time : Int) :
    Upholds benchSem (Upheld grid params before)
      (fun b => Stage grid params before (k + 1) ⟨k + 1, k + 1, k⟩ Sight.Settled b.sight)
      (outputWakeAt time) fun _ => Between grid params before := by
  have lasts : Lasts fun b =>
      Stage grid params before (k + 1) ⟨k + 1, k + 1, k⟩ Sight.Settled b.sight :=
    lasts_stage fun _ _ => Sight.Settled.moves
  have store : Uses Quiet (storeBlock (wakingAt time)) := (uses_perform _).mpr fun _ => rfl
  apply (upholds_quiet store lasts fun _ => Stage.upheld).bind
  intro _
  apply Upholds.call lasts.stable (fun _ _ _ => between_around) (fun _ => Stage.upheld)
    (fun _ _ => Between.upheld)
  rintro b reply b' ⟨course, tracked⟩ ⟨-, step⟩
  cases step
  refine ⟨k + 1, ⟨⟨course.running, course.applied, course.phase, course.high, course.period,
    course.params, course.attended⟩, fun enabled => ?_⟩, fun _ => .inl rfl⟩
  obtain ⟨track, same, settled⟩ := tracked enabled
  refine ⟨⟨⟨track.fired, track.ahead, track.order, track.onGrid⟩, track.single, track.nextEdge,
    track.nextEdgeType, track.reached⟩, ?_, settled⟩
  simp only [Sight.tally, Bench.sight, Bench.note, RunTally.mk.injEq] at same ⊢
  exact ⟨same.1, same.2.1, congrArg (· + 1) same.2.2⟩

/-- One run of the software path programs one edge, the next, or gives up. -/
theorem upholds_software_edge :
    Upholds benchSem (Upheld grid params before)
      (fun b => Stage grid params before k ⟨k, k + 1, k⟩ Sight.Fired b.sight) softwareEdge
      fun _ => Between grid params before := by
  have fired (s t : Sight) (move : s.Moves t) : s.Fired → t.Fired := Sight.Fired.moves move
  have settled (s t : Sight) (move : s.Moves t) : s.Settled → t.Settled := Sight.Settled.moves move
  apply (upholds_load (lasts_stage fired) fun _ => Stage.upheld).bind
  intro block
  have facts (s t : Sight) (move : s.Moves t)
      (holds : Stage grid params before k ⟨k, k + 1, k⟩ Sight.Fired s ∧ s.cadence = block.cadence) :
      Stage grid params before k ⟨k, k + 1, k⟩ Sight.Fired t ∧ t.cadence = block.cadence :=
    ⟨holds.1.moves fired move, move.cadence.trans holds.2⟩
  apply (upholds_sample _ facts fun _ holds => holds.1.upheld).bind
  intro edgeBits b holds
  have plain : PlainBits edgeBits := by
    rw [holds.2]
    exact plain_edge_bits _ _
  refine (?_ : Upholds benchSem (Upheld grid params before) (fun b =>
    Stage grid params before k ⟨k, k + 1, k⟩ Sight.Fired b.sight ∧ b.sight.cadence = block.cadence) _ _)
      b holds.1
  apply (upholds_sample _ facts fun _ holds => holds.1.upheld).bind
  intro interval
  apply ((upholds_program_edge block.outputNextEdge plain).conseq (fun b holds =>
    ⟨holds.1.1, congrArg Cadence.nextEdge holds.1.2⟩) fun _ _ after => after).bind
  intro status
  cases status with
  | error status => exact upholds_abandon fired
  | ok done =>
      cases interval with
      | error status => exact upholds_abandon settled
      | ok interval =>
          dsimp only
          split
          · exact upholds_abandon settled
          · apply upholds_advance.bind
            intro _
            exact upholds_wake_at _

theorem Stage.phase {b : Bench} {block : MmioBlock}
    (stage : Stage grid params before k tally fact b.sight)
    (same : b.sight.cadence = block.cadence) :
    block.outputPhase = .firstRising ∨ block.outputPhase = .toggle := by
  have phase := stage.course.phase
  rw [same] at phase
  exact phase

theorem upholds_service_edge :
    Upholds benchSem (Upheld grid params before)
      (fun b => Stage grid params before k ⟨k, k + 1, k⟩ Sight.Fired b.sight) serviceEdge
      fun _ => Between grid params before := by
  apply (upholds_load (lasts_stage fun _ _ => Sight.Fired.moves) fun _ => Stage.upheld).bind
  intro block
  split
  case h_4 | h_5 =>
      exact upholds_software_edge.conseq (fun _ holds => holds.1) fun _ _ after => after
  all_goals
    rename_i other
    exact fun b holds => absurd (holds.1.phase holds.2) (by simp [other])

theorem upholds_service_output (desired : OutputDesired) :
    Upholds benchSem (Upheld grid params before)
      (fun b => Stage grid params before k ⟨k, k + 1, k⟩ Sight.Fired b.sight) (serviceOutput desired)
      fun _ => Between grid params before := by
  have lasts : Lasts fun b => Stage grid params before k ⟨k, k + 1, k⟩ Sight.Fired b.sight :=
    lasts_stage fun _ _ => Sight.Fired.moves
  apply (upholds_load lasts fun _ => Stage.upheld).bind
  intro block
  have service : Upholds benchSem (Upheld grid params before)
      (fun b => Stage grid params before k ⟨k, k + 1, k⟩ Sight.Fired b.sight ∧
        b.sight.cadence = block.cadence)
      serviceEdge fun _ => Between grid params before :=
    upholds_service_edge.conseq (fun _ holds => holds.1) fun _ _ after => after
  split
  · have store : Uses Quiet (storeBlock (appliedFreq desired)) := (uses_perform _).mpr fun _ => rfl
    apply (upholds_quiet store (lasts.and (lasts_cadence block.cadence))
      fun _ holds => holds.1.upheld).bind
    intro _
    split
    case h_4 | h_5 => exact service
    all_goals
      rename_i other
      exact fun b holds => absurd (holds.1.phase holds.2) (by simp [other])
  · exact service

/-- A change of sense is nothing to the software path. -/
theorem upholds_invert {held : Bench → Prop} (lasts : Lasts held)
    (stage : ∀ b, held b → Stage grid params before k tally fact b.sight) :
    Upholds benchSem (Upheld grid params before) held hwPeriodicInvert fun _ => held := by
  have safe (b : Bench) (holds : held b) : Upheld grid params before b := (stage b holds).upheld
  have quiet (op : Op) (allowed : Quiet op) :
      Upholds benchSem (Upheld grid params before) held (Prog.perform op) fun _ => held :=
    upholds_quiet ((uses_perform _).mpr allowed) lasts safe
  apply (quiet (.store inverted) fun _ => rfl).bind
  intro _
  apply (quiet (.mark .inverted) trivial).bind
  intro _
  apply (upholds_load lasts safe).bind
  intro block
  split
  · rename_i duty
    exact fun b holds => absurd ((stage b holds.1).phase holds.2) (by simp [duty])
  · split
    · exact Upholds.pure (lasts.and (lasts_cadence _)).stable (fun b holds => safe b holds.1)
        fun _ holds => holds.1
    · rename_i periodic
      have hardware : block.outputPhase = .hardwarePeriodic :=
        not_not.mp fun other => periodic (Or.inl other)
      exact fun b holds => absurd ((stage b holds.1).phase holds.2) (by simp [hardware])

theorem upholds_apply_flip {held : Bench → Prop} (lasts : Lasts held)
    (stage : ∀ b, held b → Stage grid params before k tally fact b.sight)
    (desired : OutputDesired) :
    Upholds benchSem (Upheld grid params before) held (applyFlip desired) fun _ => held := by
  have safe (b : Bench) (holds : held b) : Upheld grid params before b := (stage b holds).upheld
  have store : Upholds benchSem (Upheld grid params before) held
      (storeBlock (appliedFlip desired)) fun _ => held :=
    upholds_quiet ((uses_perform _).mpr fun _ => rfl) lasts safe
  apply (upholds_load lasts safe).bind
  intro block
  apply Upholds.conseq ?_ (fun _ holds => holds.1) fun _ _ after => after
  dsimp only
  split
  · exact (upholds_invert lasts stage).bind fun _ => store
  · exact store

/-- One run, from its snapshot to its end. -/
theorem upholds_output_work :
    Upholds benchSem (Upheld grid params before)
      (fun b => Stage grid params before k ⟨k, k + 1, k⟩ Sight.Fired b.sight) outputWork
      fun _ => Between grid params before := by
  have lasts : Lasts fun b => Stage grid params before k ⟨k, k + 1, k⟩ Sight.Fired b.sight :=
    lasts_stage fun _ _ => Sight.Fired.moves
  apply (upholds_desired lasts fun _ => Stage.upheld).bind
  intro desired
  have seen : Lasts fun b => Stage grid params before k ⟨k, k + 1, k⟩ Sight.Fired b.sight ∧
      b.sight.run = desired.run ∧ b.sight.gen = desired.gen := by
    apply lasts.and
    intro b b' move _ same
    rw [move.run, move.gen]
    exact same
  split
  · rename_i stopped
    intro b holds
    have running := holds.1.course.running
    rw [holds.2.1, stopped] at running
    contradiction
  · apply (upholds_apply_flip seen (fun _ holds => holds.1) desired).bind
    intro _
    apply (upholds_load seen fun _ holds => holds.1.upheld).bind
    intro block
    split
    · rename_i other
      intro b holds
      have applied := holds.1.1.course.applied
      rw [holds.1.2.2, holds.2] at applied
      exact absurd applied other
    · exact (upholds_service_output desired).conseq (fun _ holds => holds.1.1) fun _ _ after => after

end runs

section cadence

variable {first : Bench}

/-- The compares that come before the edges of an armed output: those that have
fired, and the one that primes it. -/
def Bench.earlier (first : Bench) : List Nat :=
  first.machine.history.fires ++ [first.machine.regs.compv.toNat]

theorem ArmedSoftware.between (armed : ArmedSoftware first) :
    Between first.grid first.machine.params first.earlier first := by
  have awaited : first.sight.awaited = [first.machine.regs.compv.toNat] := by
    simp [Sight.awaited, Bench.sight, armed.enabled, armed.single, armed.waits]
  have none : first.sight.programmed = [] := armed.fresh
  have period : first.machine.block.outputHighTimeNs + first.machine.block.outputLowTimeNs =
      first.machine.desired.periodNs := by
    rw [armed.high, armed.low]
    exact armed.period
  have start : first.machine.block.outputNextEdge = first.grid.time 0 := by
    simpa [EdgeGrid.time, Bench.grid] using armed.first.symm
  refine ⟨0, ⟨⟨armed.running, armed.applied, Or.inl armed.phase, armed.high, period, rfl,
    armed.attended⟩, fun _ => ?_⟩, fun _ => armed.awaits⟩
  refine ⟨⟨⟨?_, ?_, ?_, ?_⟩, armed.single, start, armed.rising, ?_⟩, ?_, ?_⟩
  · rw [awaited, none, List.map_nil, List.append_nil]
    rfl
  · rw [awaited]
    exact fun compare same => List.mem_singleton.mp same ▸ armed.ahead
  · simp [none]
  · simp [none]
  · simp [none]
  · simp only [Sight.tally, none, List.length_nil, RunTally.mk.injEq, true_and]
    exact armed.none
  · exact fun fired => absurd (fired.symm.trans armed.waits) (by simp)

/-- A run that begins after ART has reached the compare finds it fired. -/
theorem Between.begin {grid : EdgeGrid} {params : Params} {before : List Nat} {b : Bench}
    (between : Between grid params before b)
    (reached : b.machine.regs.compv.toNat ≤ b.machine.clocks.art) :
    ∃ k, Stage grid params before k ⟨k, k + 1, k⟩ Sight.Fired b.beginRun.sight := by
  obtain ⟨k, ⟨course, tracked⟩, -⟩ := between
  refine ⟨k, ⟨course.running, course.applied, course.phase, course.high, course.period,
    course.params, course.attended⟩, fun enabled => ?_⟩
  obtain ⟨track, same, -⟩ := tracked enabled
  refine ⟨⟨⟨track.fired, track.ahead, track.order, track.onGrid⟩, track.single, track.nextEdge,
    track.nextEdgeType, track.reached⟩, ?_, Bool.eq_false_of_not_eq_true fun pending => ?_⟩
  · simp only [Sight.tally, RunTally.mk.injEq] at same ⊢
    exact ⟨same.1, congrArg (· + 1) same.2.1, same.2.2⟩
  · have waits : b.sight.compv.toNat ∈ b.sight.awaited := by
      simp [Sight.awaited, show hasEn b.sight.ctl = true from enabled, track.single,
        show b.sight.comparePending = true from pending]
    exact absurd (track.ahead _ waits) (Nat.not_lt.mpr reached)

section runs

variable {last : Worker.Config Op Op.Resp Bench}

theorem run_begins {grid : EdgeGrid} {params : Params} {before : List Nat} {s t : Bench}
    (start : (edgeWorker fun _ => False).start s t) (between : Between grid params before s) :
    ∃ k, Stage grid params before k ⟨k, k + 1, k⟩ Sight.Fired t.sight := by
  obtain ⟨-, -, exempt | reached, rfl⟩ := start
  · exact exempt.elim
  · exact between.begin reached

theorem run_upholds {grid : EdgeGrid} {params : Params} {before : List Nat} :
    Upholds benchSem (Upheld grid params before)
      (fun b => ∃ k, Stage grid params before k ⟨k, k + 1, k⟩ Sight.Fired b.sight)
      outputWork ((edgeWorker fun _ => False).Owes (Between grid params before)) := by
  rintro b ⟨k, stage⟩
  refine upholds_output_work.conseq (fun _ holds => holds) ?_ b stage
  rintro _ b ⟨k, stage, awaits⟩ t rfl
  exact ⟨k, ⟨⟨stage.course.running, stage.course.applied, stage.course.phase, stage.course.high,
    stage.course.period, stage.course.params, stage.course.attended⟩, stage.track⟩, awaits⟩

theorem edges_kept (armed : ArmedSoftware first)
    (reaches : (edgeWorker fun _ => False).Reaches ⟨first, none⟩ last) :
    Upheld first.grid first.machine.params first.earlier last.state :=
  Worker.always_reaches (fun _ _ => between_around) (fun _ => Between.upheld)
    (fun _ _ => run_begins) run_upholds reaches armed.between

theorem runs_kept (armed : ArmedSoftware first)
    (reaches : (edgeWorker fun _ => False).Reaches ⟨first, none⟩ last) (idle : last.run = none)
    (enabled : hasEn last.state.machine.regs.ctl = true) : RunsKept last.state := by
  have between : Between first.grid first.machine.params first.earlier last.state := by
    have holds := Worker.holds_reaches (fun _ _ => between_around)
      (fun s t start between => (run_upholds t (run_begins start between)).2) reaches
      armed.between
    obtain ⟨state, run⟩ := last
    cases idle
    exact holds
  obtain ⟨k, stage, awaits⟩ := between
  have same := (stage.track enabled).2.1
  simp only [Sight.tally, Bench.sight, RunTally.mk.injEq] at same
  exact ⟨same.1.trans same.2.1.symm, same.2.2.trans same.2.1.symm, awaits enabled⟩

end runs

end cadence

section oneRun

/-- What a trace records: ART counts on, the timer expires and its callback
runs, a frequency is published and the work scheduled. -/
inductive EdgeEvent where
  | time (clocks : Clocks)
  | timer
  | freq

def Bench.act (b : Bench) : EdgeEvent → Option Bench
  | .time clocks =>
      if b.machine.clocks.art ≤ clocks.art then
        if b.machine.passes clocks then some (b.withMachine { b.machine with clocks }.fire)
        else some (b.withMachine { b.machine with clocks })
      else none
  | .timer =>
      if b.machine.timerArmed = true ∧ b.machine.timerFiring = false then
        some (b.withMachine b.machine.expire.outputTimer)
      else none
  | .freq => some (b.withMachine (b.machine.beginPublish .freq).endPublish)

theorem edge_act_sound {event : EdgeEvent} {b b' : Bench} (acted : b.act event = some b') :
    benchSem.Rely b b' := by
  cases event with
  | time clocks =>
      obtain ⟨later, acted⟩ := Option.ite_none_right_eq_some.mp acted
      split at acted
      · rename_i passes
        cases acted
        exact .single (.fire clocks passes)
      · rename_i misses
        cases acted
        exact .single (.pass clocks later misses)
  | timer =>
      obtain ⟨ready, acted⟩ := Option.ite_none_right_eq_some.mp acted
      cases acted
      exact .tail (.single (.expire ready.1 ready.2)) (.outputTimer rfl)
  | freq =>
      cases acted
      exact .tail (.single .beginFreq) (.endFreq (Nat.succ_pos _))

def checkInTime : Op → Bench → Bool
  | .writel .compv31_0 value, b => !hasEn b.machine.regs.ctl ||
      decide (b.machine.clocks.art < (b.machine.regs.write .compv31_0 value).compv.toNat)
  | _, _ => true

theorem check_in_time_sound {op : Op} {b : Bench} (checked : checkInTime op b = true) :
    InTime op b := by
  unfold checkInTime at checked
  split at checked
  · intro enabled
    simpa [enabled] using checked
  · rename_i other
    unfold InTime
    split
    · exact (other _ rfl).elim
    · trivial

/-- Runs of the work on given benches. -/
def edgeTracer (exempt : Bench → Prop) [DecidablePred exempt] :
    (edgeWorker exempt).Tracer EdgeEvent where
  handler op b := if checkInTime op b = true then Bench.perform op b else none
  start b :=
    if b.machine.workQueued = true ∧ b.machine.workRunning = false ∧
        (exempt b ∨ b.machine.regs.compv.toNat ≤ b.machine.clocks.art) then
      some b.beginRun
    else none
  finish b := b.withMachine b.machine.endRun
  act event b := b.act event
  handlerSound _ _ _ _ step :=
    have ⟨checked, performed⟩ := Option.ite_none_right_eq_some.mp step
    ⟨check_in_time_sound checked, performed⟩
  startSound _ _ started :=
    have ⟨ready, started⟩ := Option.ite_none_right_eq_some.mp started
    ⟨ready.1, ready.2.1, ready.2.2, (Option.some.inj started).symm⟩
  finishSound _ := rfl
  actSound _ _ _ := edge_act_sound

/-- A second's period, armed by a run of the work: its first edge is at 2 s. -/
def armedSoftware : Bench :=
  ⟨outputTracer.after 1000 loadedBlock
    [.act (.publish (.configure .running .software 1000000000 500000000 500000000 2000000000)),
      .run], loadedBlock.clocks, [], 0, 0⟩

theorem armed_software_armed : ArmedSoftware armedSoftware := by
  constructor <;> decide +kernel

/-- The first edge by the timer, the second by a refresh. -/
def refreshedStart : List (Worker.Traced EdgeEvent) :=
  [.act (.time (steadyClocks 1985000000 (by decide))), .act .timer, .run,
    .act (.time (steadyClocks 2000000000 (by decide))), .act .freq, .run]

end oneRun

end Tgpio

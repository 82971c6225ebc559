import Tgpio.ArmGrid
import Tgpio.OutputAlone
import Tgpio.OutputRequests
import Tgpio.Interference.Worker

/-!
# The intervals of a duty output

An asymmetric waveform has two interval counts and one register for them. A
visit of the duty service between two edges folds the last edge into the level
mirror and writes the count that belongs to the next one, so that the engine
adds it at the right moment. An interval is noted where it starts, at an edge.
-/

namespace Tgpio

open Interference Interference.Prog

set_option autoImplicit false

/-! ## The waveform under the service -/

/-- What the engine adds to COMPV at an edge, and which edge that is. -/
structure Interval where
  rise : Bool
  cycles : Nat
  deriving DecidableEq, Repr

/-- A block under the duty service, and what has come of it. -/
structure DutyWatch where
  machine : Machine
  /-- A whole visit has passed since the last edge. -/
  visited : Bool
  /-- No edge has come since the last visit began. -/
  undisturbed : Bool
  intervals : List Interval

namespace DutyWatch

variable (w : DutyWatch)

def withMachine (m : Machine) : DutyWatch := { w with machine := m }

def perform (op : Op) : Option (op.Resp × DutyWatch) :=
  (Machine.perform op w.machine).map fun (reply, m) => (reply, w.withMachine m)

def edge : DutyWatch where
  machine := w.machine.periodicEdge
  visited := false
  undisturbed := false
  intervals := w.intervals ++ [⟨!w.machine.flop, w.machine.regs.piv.toNat⟩]

def beginVisit : DutyWatch := { w with undisturbed := true }

def endVisit : DutyWatch := { w with visited := w.visited || w.undisturbed }

end DutyWatch

/-- Around the visits: anything that leaves the block and the parameters of the
clock alone, and edges, each after a whole visit. -/
inductive AroundDuty : DutyWatch → DutyWatch → Prop where
  | elsewhere {w : DutyWatch} {m : Machine} : m.block = w.machine.block →
      m.regs = w.machine.regs → m.flop = w.machine.flop → m.params = w.machine.params →
      m.clocks.phc = w.machine.clocks.phc → AroundDuty w (w.withMachine m)
  | edge {w : DutyWatch} : w.machine.freeRunning = true → w.visited = true → AroundDuty w w.edge

/-- The duty service, visit after visit. -/
def dutyWorker : Worker Op Op.Resp DutyWatch where
  step op w reply w' := w.perform op = some (reply, w')
  env := AroundDuty
  program := hwDutyService
  start w w' := w.machine.block.outputPhase = .hwDuty ∧ w' = w.beginVisit
  finish w w' := w' = w.endVisit

abbrev dutySem : Semantics Op Op.Resp DutyWatch := dutyWorker.toSemantics

/-- The two halves of a waveform, as requested and in cycles. -/
structure Halves where
  highNs : Nat
  lowNs : Nat
  highArt : Nat
  lowArt : Nat
  deriving DecidableEq, Repr

namespace Halves

variable (halves : Halves)

def after (rise : Bool) : Nat := if rise then halves.highArt else halves.lowArt

/-- The counts have one high word, so that a hot write can change one into the
other. -/
def Close : Prop := upper32Bits halves.highArt = upper32Bits halves.lowArt

instance : Decidable halves.Close := inferInstanceAs (Decidable (_ = _))

/-- The interval that does start there, when the first was `start`. -/
def paced (start : Nat) (rise : Bool) : Nat := if halves.Close then halves.after rise else start

def wave (start : Nat) (flop : Bool) (n : Nat) : List Interval :=
  (List.range n).map fun k => ⟨rises flop k, halves.paced start (rises flop k)⟩

theorem wave_succ (start : Nat) (flop : Bool) (n : Nat) :
    halves.wave start flop (n + 1) =
      halves.wave start flop n ++ [⟨rises flop n, halves.paced start (rises flop n)⟩] := by
  simp [wave, List.range_succ]

structure Counted (params : Params) (clocks : Clocks) : Prop where
  model : params.clockUsesModel = true
  high : clockDeltaToArtCycles params clocks (toS64 halves.highNs) = .ok halves.highArt
  low : clockDeltaToArtCycles params clocks (toS64 halves.lowNs) = .ok halves.lowArt

end Halves

/-- A duty output as an arm with a correct mirror leaves it: running, the
compare ahead, and the interval of the first edge in the register. -/
structure ArmedDuty (halves : Halves) (w : DutyWatch) : Prop where
  counted : halves.Counted w.machine.params w.machine.clocks
  phase : w.machine.block.outputPhase = .hwDuty
  highNs : w.machine.block.outputHighTimeNs = halves.highNs
  lowNs : w.machine.block.outputLowTimeNs = halves.lowNs
  piv : w.machine.regs.piv.toNat = w.machine.block.outputHwPiv
  first : w.machine.block.outputHwPiv = halves.after !w.machine.flop
  mirror : w.machine.block.outputHwFlopHigh = w.machine.flop
  checkpoint : w.machine.block.outputHwCkptCompv = w.machine.regs.compv.toNat
  fresh : w.intervals = []

/-- Every interval so far is the one that belongs to its edge. -/
def Alternates (halves : Halves) (w : DutyWatch) : Prop :=
  ∀ interval ∈ w.intervals, interval.cycles = halves.after interval.rise

/-! ## What a visit keeps -/

section serving

variable {halves : Halves} {start : Nat} {flop : Bool} {w : DutyWatch}

theorem Halves.Counted.same {params params' : Params} {clocks clocks' : Clocks}
    (counted : halves.Counted params clocks) (isParams : params' = params)
    (isPhc : clocks'.phc = clocks.phc) : halves.Counted params' clocks' := by
  subst isParams
  have same (delta : Int) : clockDeltaToArtCycles params' clocks' delta =
      clockDeltaToArtCycles params' clocks delta := by
    unfold clockDeltaToArtCycles
    rw [if_pos counted.model, if_pos counted.model, isPhc]
  exact ⟨counted.model, (same _).trans counted.high, (same _).trans counted.low⟩

theorem Halves.Counted.positive {params : Params} {clocks : Clocks}
    (counted : halves.Counted params clocks) (rise : Bool) : halves.after rise ≠ 0 := by
  cases rise with
  | true => exact clock_delta_to_art_cycles_positive counted.high
  | false => exact clock_delta_to_art_cycles_positive counted.low

theorem Halves.Counted.wide {params : Params} {clocks : Clocks}
    (counted : halves.Counted params clocks) (rise : Bool) : halves.after rise < 2 ^ 64 := by
  cases rise with
  | true => exact clock_delta_to_art_cycles_lt counted.high
  | false => exact clock_delta_to_art_cycles_lt counted.low

/-- So many edges have come, and each started the interval it was to start. -/
def Waved (halves : Halves) (start : Nat) (flop : Bool) (w : DutyWatch) : Prop :=
  ∃ n, w.intervals = halves.wave start flop n ∧ w.machine.flop = (flop ^^ n.bodd)

/-- The output runs. The mirror is right where no edge has come since the
checkpoint, and after a whole visit the register holds the interval of the next
edge. -/
structure Serving (halves : Halves) (start : Nat) (flop : Bool) (w : DutyWatch) : Prop where
  waved : Waved halves start flop w
  counted : halves.Counted w.machine.params w.machine.clocks
  phase : w.machine.block.outputPhase = .hwDuty
  highNs : w.machine.block.outputHighTimeNs = halves.highNs
  lowNs : w.machine.block.outputLowTimeNs = halves.lowNs
  piv : w.machine.regs.piv.toNat = w.machine.block.outputHwPiv
  known : ∃ rise, w.machine.block.outputHwPiv = halves.after rise
  stuck : ¬halves.Close → w.machine.block.outputHwPiv = start
  level : w.machine.block.outputHwFlopHigh = w.machine.flop ↔
    w.machine.block.outputHwCkptCompv = w.machine.regs.compv.toNat
  ready : w.visited = true → w.machine.block.outputHwFlopHigh = w.machine.flop ∧
    w.machine.block.outputHwPiv = halves.paced start !w.machine.flop

structure Ceased (halves : Halves) (start : Nat) (flop : Bool) (w : DutyWatch) : Prop where
  waved : Waved halves start flop w
  disabled : hasEn w.machine.regs.ctl = false

def Over (halves : Halves) (start : Nat) (flop : Bool) (w : DutyWatch) : Prop :=
  Ceased halves start flop w ∧ w.machine.block.outputPhase ≠ .hwDuty

/-- What the surroundings may change without the service noticing. -/
structure Unseen (w w' : DutyWatch) : Prop where
  block : w'.machine.block = w.machine.block
  regs : w'.machine.regs = w.machine.regs
  flop : w'.machine.flop = w.machine.flop
  params : w'.machine.params = w.machine.params
  phc : w'.machine.clocks.phc = w.machine.clocks.phc
  watch : w' = w.withMachine w'.machine

theorem Unseen.move {w w' : DutyWatch} (unseen : Unseen w w') : AroundDuty w w' := by
  rw [unseen.watch]
  exact .elsewhere unseen.block unseen.regs unseen.flop unseen.params unseen.phc

theorem Serving.unseen {w w' : DutyWatch} (serving : Serving halves start flop w)
    (unseen : Unseen w w') : Serving halves start flop w' := by
  have intervals : w'.intervals = w.intervals := by rw [unseen.watch]; rfl
  have visited : w'.visited = w.visited := by rw [unseen.watch]; rfl
  constructor
  · obtain ⟨n, wave, level⟩ := serving.waved
    exact ⟨n, intervals.trans wave, unseen.flop.trans level⟩
  · exact serving.counted.same unseen.params unseen.phc
  · rw [unseen.block, serving.phase]
  · rw [unseen.block, serving.highNs]
  · rw [unseen.block, serving.lowNs]
  · rw [unseen.regs, unseen.block, serving.piv]
  · rw [unseen.block]
    exact serving.known
  · rw [unseen.block]
    exact serving.stuck
  · rw [unseen.block, unseen.flop, unseen.regs]
    exact serving.level
  · rw [visited, unseen.block, unseen.flop]
    exact serving.ready

theorem Serving.positive (serving : Serving halves start flop w) :
    0 < w.machine.regs.piv.toNat := by
  obtain ⟨rise, known⟩ := serving.known
  rw [serving.piv, known]
  exact Nat.pos_of_ne_zero (serving.counted.positive rise)

theorem compv_moves {compv piv : BitVec 64} (positive : 0 < piv.toNat) :
    (compv + piv).toNat ≠ compv.toNat := by
  have first := compv.isLt
  have second := piv.isLt
  rw [BitVec.toNat_add]
  omega

/-- An edge after a whole visit starts the right interval. -/
theorem Serving.edge (serving : Serving halves start flop w) (visited : w.visited = true) :
    Serving halves start flop w.edge := by
  obtain ⟨mirror, paced⟩ := serving.ready visited
  have checkpoint := serving.level.mp mirror
  constructor
  · obtain ⟨n, wave, level⟩ := serving.waved
    refine ⟨n + 1, ?_, ?_⟩
    · rw [Halves.wave_succ, ← wave]
      have rise : rises flop n = !w.machine.flop := by rw [level]; rfl
      rw [rise, ← paced, ← serving.piv]
      rfl
    · change (!w.machine.flop) = _
      rw [level, Nat.bodd_succ]
      cases flop <;> cases n.bodd <;> rfl
  · exact serving.counted
  · exact serving.phase
  · exact serving.highNs
  · exact serving.lowNs
  · exact serving.piv
  · exact serving.known
  · exact serving.stuck
  · change w.machine.block.outputHwFlopHigh = (!w.machine.flop) ↔
      w.machine.block.outputHwCkptCompv = (w.machine.regs.compv + w.machine.regs.piv).toNat
    constructor
    · intro same
      exact absurd (mirror.symm.trans same).symm (Bool.not_ne_self _)
    · intro same
      rw [checkpoint] at same
      exact absurd same.symm (compv_moves serving.positive)
  · exact nofun

theorem stable_serving : Stable dutySem (Serving halves start flop) := by
  intro w w' step serving
  cases step with
  | elsewhere block regs flop params phc =>
      exact serving.unseen ⟨block, regs, flop, params, phc, rfl⟩
  | edge _ visited => exact serving.edge visited

/-- Accesses that leave what the service goes by as it is. -/
def Unnoticed (op : Op) : Prop :=
  ∀ (w : DutyWatch) reply w', w.perform op = some (reply, w') → Unseen w w'

theorem Unnoticed.intro {op : Op} (parts : ∀ m reply m', Machine.perform op m = some (reply, m') →
    m'.block = m.block ∧ m'.regs = m.regs ∧ m'.flop = m.flop ∧ m'.params = m.params ∧
      m'.clocks = m.clocks) : Unnoticed op := by
  intro w reply w' step
  obtain ⟨⟨_, m⟩, performed, equal⟩ := Option.map_eq_some_iff.mp step
  cases equal
  obtain ⟨block, regs, flop, params, clocks⟩ := parts _ _ _ performed
  exact ⟨block, regs, flop, params, congrArg Clocks.phc clocks, rfl⟩

theorem unnoticed_mark (point : Mark) : Unnoticed (.mark point) := by
  apply Unnoticed.intro
  intro m reply m' step
  cases step
  cases point <;> exact ⟨rfl, rfl, rfl, rfl, rfl⟩

theorem unnoticed_start (expires : Int) : Unnoticed (.hrtimerStart expires) := by
  apply Unnoticed.intro
  intro m reply m' step
  cases step
  exact ⟨rfl, rfl, rfl, rfl, rfl⟩

theorem unnoticed_reading : Reading Unnoticed := by
  constructor
  case readl =>
    intro reg
    apply Unnoticed.intro
    intro m reply m' step
    cases step
    cases reg <;> exact ⟨rfl, rfl, rfl, rfl, rfl⟩
  all_goals
    intros
    apply Unnoticed.intro
    intro m reply m' step
    cases step
    exact ⟨rfl, rfl, rfl, rfl, rfl⟩

variable {fact : DutyWatch → Prop} {α : Type}

/-- What the surroundings cannot change, a look cannot. -/
theorem upholds_unnoticed {program : Driver α} (uses : Uses Unnoticed program)
    (stable : Stable dutySem fact) (safe : ∀ w, fact w → Waved halves start flop w) :
    Upholds dutySem (Waved halves start flop) fact program fun _ => fact :=
  Upholds.uses uses
    (fun _ w reply w' unnoticed step holds => stable w w' (unnoticed w reply w' step).move holds)
    stable safe

theorem upholds_seen {op : Op} {seen : op.Resp → DutyWatch → Prop} (unnoticed : Unnoticed op)
    (stable : Stable dutySem fact)
    (lasting : ∀ reply, Stable dutySem fun w => fact w ∧ seen reply w)
    (shows : ∀ w reply w', fact w → w.perform op = some (reply, w') → seen reply w')
    (safe : ∀ w, fact w → Waved halves start flop w) :
    Upholds dutySem (Waved halves start flop) fact (Prog.perform op)
      fun reply w => fact w ∧ seen reply w := by
  apply Upholds.call stable lasting safe (fun _ w holds => safe w holds.1)
  intro w reply w' holds step
  exact ⟨stable w w' (unnoticed w reply w' step).move holds, shows w reply w' holds step⟩

end serving

/-! ## A look at COMPV -/

section looking

variable {halves : Halves} {start : Nat} {flop : Bool}

/-- A fact about a served output that neither the rest of the machine nor an
edge after a whole visit changes. -/
structure Abiding (halves : Halves) (start : Nat) (flop : Bool) (seen : DutyWatch → Prop) :
    Prop where
  unseen : ∀ w w', Unseen w w' → seen w → seen w'
  edge : ∀ w, Serving halves start flop w → w.visited = true → seen w → seen w.edge

theorem Abiding.stable {seen : DutyWatch → Prop} (abiding : Abiding halves start flop seen) :
    Stable dutySem fun w => Serving halves start flop w ∧ seen w := by
  rintro w w' step ⟨serving, holds⟩
  cases step with
  | elsewhere block regs level params phc =>
      have unseen : Unseen w (w.withMachine _) := ⟨block, regs, level, params, phc, rfl⟩
      exact ⟨serving.unseen unseen, abiding.unseen _ _ unseen holds⟩
  | edge _ visited => exact ⟨serving.edge visited, abiding.edge w serving visited holds⟩

theorem Abiding.and {first second : DutyWatch → Prop} (left : Abiding halves start flop first)
    (right : Abiding halves start flop second) :
    Abiding halves start flop fun w => first w ∧ second w where
  unseen w w' same holds := ⟨left.unseen w w' same holds.1, right.unseen w w' same holds.2⟩
  edge w serving visited holds :=
    ⟨left.edge w serving visited holds.1, right.edge w serving visited holds.2⟩

/-- A value of COMPV seen in this visit: it stands, or an edge has come since
and the value is still the checkpoint. -/
def Passing (w : DutyWatch) (value : BitVec 64) : Prop :=
  value = w.machine.regs.compv ∨
    (value.toNat = w.machine.block.outputHwCkptCompv ∧ w.undisturbed = false)

theorem Serving.quiet {w : DutyWatch} (serving : Serving halves start flop w)
    (visited : w.visited = true) :
    w.machine.block.outputHwCkptCompv = w.machine.regs.compv.toNat :=
  serving.level.mp (serving.ready visited).1

theorem Unseen.undisturbed {w w' : DutyWatch} (unseen : Unseen w w') :
    w'.undisturbed = w.undisturbed := by
  rw [unseen.watch]
  rfl

theorem Unseen.passing {w w' : DutyWatch} (unseen : Unseen w w') (value : BitVec 64) :
    Passing w' value ↔ Passing w value := by
  unfold Passing
  rw [unseen.regs, unseen.block, unseen.undisturbed]

theorem Passing.unfolded {w : DutyWatch} {value : BitVec 64} (passing : Passing w value)
    (serving : Serving halves start flop w) (visited : w.visited = true) :
    value = w.machine.regs.compv := by
  rcases passing with now | ⟨checkpoint, -⟩
  · exact now
  · exact BitVec.eq_of_toNat_eq (checkpoint.trans (serving.quiet visited))

theorem Passing.edge {w : DutyWatch} {value : BitVec 64} (passing : Passing w value)
    (serving : Serving halves start flop w) (visited : w.visited = true) :
    Passing w.edge value := by
  right
  refine ⟨?_, rfl⟩
  rw [passing.unfolded serving visited]
  exact (serving.quiet visited).symm

/-- The high word was COMPV's when it was read. -/
def SawHigh (high : BitVec 32) (w : DutyWatch) : Prop :=
  ∃ value, Passing w value ∧ high = upperWord value

/-- The low word was COMPV's when it was read, and the high word is of that
moment where an edge has come since. -/
def SawLow (high low : BitVec 32) (w : DutyWatch) : Prop :=
  ∃ value, low = lowerWord value ∧
    (value = w.machine.regs.compv ∧ SawHigh high w ∨
      value.toNat = w.machine.block.outputHwCkptCompv ∧ w.undisturbed = false ∧
        high = upperWord value)

/-- The two words are of one moment where the high word has not changed. -/
def SawBoth (previous low high : BitVec 32) (w : DutyWatch) : Prop :=
  SawHigh high w ∧ (high = previous → ∃ value, Passing w value ∧ joinWords high low = value)

theorem Unseen.keeps {w w' : DutyWatch} {known : BitVec 64 → Prop} (unseen : Unseen w w') :
    (∃ value, Passing w value ∧ known value) → ∃ value, Passing w' value ∧ known value := by
  rintro ⟨value, passing, holds⟩
  exact ⟨value, (unseen.passing value).mpr passing, holds⟩

theorem abides_passing {known : BitVec 64 → Prop} :
    Abiding halves start flop fun w => ∃ value, Passing w value ∧ known value where
  unseen _ _ unseen := unseen.keeps
  edge w serving visited := by
    rintro ⟨value, passing, holds⟩
    exact ⟨value, passing.edge serving visited, holds⟩

theorem abides_high (high : BitVec 32) : Abiding halves start flop (SawHigh high) :=
  abides_passing

theorem abides_low (high low : BitVec 32) : Abiding halves start flop (SawLow high low) where
  unseen w w' unseen := by
    rintro ⟨value, isLow, seen⟩
    refine ⟨value, isLow, ?_⟩
    rw [unseen.regs, unseen.block, unseen.undisturbed]
    exact seen.imp_left fun now => ⟨now.1, unseen.keeps now.2⟩
  edge w serving visited := by
    rintro ⟨value, isLow, ⟨now, other, passing, isHigh⟩ | ⟨checkpoint, disturbed, isHigh⟩⟩
    · refine ⟨value, isLow, .inr ⟨?_, rfl, ?_⟩⟩
      · rw [now]
        exact (serving.quiet visited).symm
      · rw [isHigh, passing.unfolded serving visited, now]
    · exact ⟨value, isLow, .inr ⟨checkpoint, rfl, isHigh⟩⟩

theorem abides_both (previous low high : BitVec 32) :
    Abiding halves start flop (SawBoth previous low high) where
  unseen _ _ unseen holds := ⟨unseen.keeps holds.1, fun same => unseen.keeps (holds.2 same)⟩
  edge w serving visited holds :=
    ⟨(abides_high high).edge w serving visited holds.1,
      fun same => abides_passing.edge w serving visited (holds.2 same)⟩

/-- A compare read answers one value of COMPV, though an edge may come between
the reads of its words. -/
theorem triple_read_compv :
    Triple dutySem (Serving halves start flop) readCompv fun compv w =>
      Serving halves start flop w ∧ ∃ value, Passing w value ∧ compv = value.toNat := by
  have look {reg : Reg} {before : DutyWatch → Prop} (abiding : Abiding halves start flop before)
      {seen : BitVec 32 → DutyWatch → Prop} (lasts : ∀ word, Abiding halves start flop (seen word))
      (shows : ∀ w, before w → seen (w.machine.regs.read reg) w) :
      Triple dutySem (fun w => Serving halves start flop w ∧ before w) (readl reg)
        fun word w => Serving halves start flop w ∧ seen word w := by
    refine Triple.call abiding.stable ?_ ?_
    · exact fun word => (lasts word).stable
    rintro w word w' ⟨serving, holds⟩ step
    have unseen := unnoticed_reading.readl reg w word w' step
    cases step
    exact ⟨serving.unseen unseen, (lasts _).unseen _ _ unseen (shows w holds)⟩
  have nothing : Abiding halves start flop fun _ => True := ⟨fun _ _ _ _ => trivial, fun _ _ _ _ => trivial⟩
  refine Triple.bind ((look nothing abides_high ?_).conseq (fun w serving => ⟨serving, trivial⟩)
    fun _ _ after => after) fun high => ?_
  · exact fun w _ => ⟨_, .inl rfl, rfl⟩
  refine Triple.iterate (fun previous w => Serving halves start flop w ∧ SawHigh previous w)
    (fun _ holds => holds) (fun _ => abides_passing.stable) fun previous => ?_
  refine Triple.bind (look (abides_high previous) (abides_low previous) ?_) fun low => ?_
  · exact fun w seen => ⟨_, rfl, .inl ⟨rfl, seen⟩⟩
  refine Triple.bind (look (abides_low previous low) (abides_both previous low) ?_) fun high => ?_
  · rintro w ⟨value, isLow, seen⟩
    refine ⟨⟨_, .inl rfl, rfl⟩, fun same => ⟨value, ?_, ?_⟩⟩
    · exact seen.imp (fun now => now.1) fun past => ⟨past.1, past.2.1⟩
    · rcases seen with ⟨now, -⟩ | ⟨-, -, isHigh⟩
      · rw [isLow, now]
        exact join_words _
      · rw [same, isHigh, isLow, join_words]
  split
  · refine Triple.pure (abides_both previous low high).stable ?_
    exact fun w holds => ⟨holds.1, holds.2.1⟩
  · rename_i same
    refine Triple.pure (abides_both previous low high).stable ?_
    rintro w ⟨serving, -, both⟩
    obtain ⟨value, passing, joined⟩ := both (not_not.mp same)
    exact ⟨serving, value, passing, congrArg BitVec.toNat joined⟩

end looking

/-! ## A visit -/

section visiting

variable {halves : Halves} {start : Nat} {flop : Bool} {seen : DutyWatch → Prop} {α : Type}

theorem abides_block (block : MmioBlock) :
    Abiding halves start flop fun w => w.machine.block = block where
  unseen _ _ unseen same := unseen.block.trans same
  edge _ _ _ same := same

/-- Unless an edge has come in the visit, the mirror is right. -/
def Caught (w : DutyWatch) : Prop :=
  w.undisturbed = true → w.machine.block.outputHwFlopHigh = w.machine.flop

/-- Unless an edge has come in the visit, the next one is provided for. -/
def Provided (halves : Halves) (start : Nat) (w : DutyWatch) : Prop :=
  w.undisturbed = true → w.machine.block.outputHwFlopHigh = w.machine.flop ∧
    w.machine.block.outputHwPiv = halves.paced start !w.machine.flop

theorem Unseen.caught {w w' : DutyWatch} (unseen : Unseen w w') (caught : Caught w) :
    Caught w' := by
  unfold Caught
  rw [unseen.undisturbed, unseen.block, unseen.flop]
  exact caught

theorem Unseen.provided {w w' : DutyWatch} (unseen : Unseen w w')
    (provided : Provided halves start w) : Provided halves start w' := by
  unfold Provided
  rw [unseen.undisturbed, unseen.block, unseen.flop]
  exact provided

theorem abides_caught : Abiding halves start flop Caught :=
  ⟨fun _ _ unseen => unseen.caught, fun _ _ _ _ => nofun⟩

theorem abides_provided : Abiding halves start flop (Provided halves start) :=
  ⟨fun _ _ unseen => unseen.provided, fun _ _ _ _ => nofun⟩

theorem upholds_look_on {program : Driver α} (uses : Uses Unnoticed program)
    (abiding : Abiding halves start flop seen) :
    Upholds dutySem (Waved halves start flop) (fun w => Serving halves start flop w ∧ seen w)
      program fun _ w => Serving halves start flop w ∧ seen w :=
  upholds_unnoticed uses abiding.stable fun _ holds => holds.1.waved

theorem upholds_load_block (abiding : Abiding halves start flop seen) :
    Upholds dutySem (Waved halves start flop) (fun w => Serving halves start flop w ∧ seen w)
      loadBlock fun block w => (Serving halves start flop w ∧ seen w) ∧ w.machine.block = block := by
  apply upholds_seen unnoticed_reading.load abiding.stable
  · intro block w w' step holds
    have stable := (abiding.and (abides_block block)).stable w w' step
    exact ⟨⟨(stable ⟨holds.1.1, holds.1.2, holds.2⟩).1, (stable ⟨holds.1.1, holds.1.2, holds.2⟩).2.1⟩,
      (stable ⟨holds.1.1, holds.1.2, holds.2⟩).2.2⟩
  · intro w block w' holds step
    cases step
    rfl
  · exact fun _ holds => holds.1.waved

theorem upholds_read_compv (abiding : Abiding halves start flop seen) :
    Upholds dutySem (Waved halves start flop) (fun w => Serving halves start flop w ∧ seen w)
      readCompv fun compv w => Serving halves start flop w ∧
        (∃ value, Passing w value ∧ compv = value.toNat) ∧ seen w := by
  intro w holds
  obtain ⟨secure, kept⟩ := upholds_look_on (read_compv_uses unnoticed_reading) abiding w holds
  refine ⟨secure, wp_mono ?_ (wp_and (triple_read_compv w holds.1) kept)⟩
  rintro compv w' ⟨⟨serving, read⟩, -, same⟩
  exact ⟨serving, read, same⟩

theorem Serving.fold {w : DutyWatch} {compv : Nat} (serving : Serving halves start flop w)
    (now : compv = w.machine.regs.compv.toNat) (moved : compv ≠ w.machine.block.outputHwCkptCompv) :
    let folded := w.withMachine { w.machine with block := foldDuty compv w.machine.block }
    Serving halves start flop folded ∧ Caught folded := by
  have behind : w.machine.block.outputHwFlopHigh ≠ w.machine.flop := by
    intro same
    exact moved (now.trans (serving.level.mp same).symm)
  have right : (!w.machine.block.outputHwFlopHigh) = w.machine.flop := by
    simpa [Bool.eq_not] using behind
  have unvisited (visited : w.visited = true) : False :=
    moved (now.trans (serving.quiet visited).symm)
  refine ⟨{ serving with level := ?_, ready := ?_ }, fun _ => right⟩
  · exact iff_of_true right now
  · exact fun visited => (unvisited visited).elim

theorem upholds_fold :
    Upholds dutySem (Waved halves start flop) (Serving halves start flop) hwFlopFold
      fun _ w => Serving halves start flop w ∧ Caught w := by
  have nothing : Abiding halves start flop fun _ => True :=
    ⟨fun _ _ _ _ => trivial, fun _ _ _ _ => trivial⟩
  apply Upholds.via fun block w => Serving halves start flop w ∧ w.machine.block = block
  · exact (upholds_load_block nothing).conseq (fun w serving => ⟨serving, trivial⟩)
      fun block w holds => ⟨holds.1.1, holds.2⟩
  rintro block w ⟨serving, same⟩
  have phase : block.outputPhase = .hwDuty := same ▸ serving.phase
  have positive : block.outputHwPiv ≠ 0 := by
    have rate := serving.positive
    rw [serving.piv, same] at rate
    exact Nat.ne_of_gt rate
  rw [if_neg positive, if_pos phase]
  refine (?_ : Upholds dutySem (Waved halves start flop) (fun w => Serving halves start flop w ∧
    w.machine.block = block) _ _) w ⟨serving, same⟩
  apply (upholds_read_compv (abides_block block)).bind
  intro compv
  have read : Abiding halves start flop fun w =>
      (∃ value, Passing w value ∧ compv = value.toNat) ∧ w.machine.block = block :=
    abides_passing.and (abides_block block)
  apply (upholds_look_on ((uses_perform _).mpr (unnoticed_mark .looked)) read).bind
  intro _
  split
  · rename_i moved
    apply Upholds.call read.stable (fun _ => abides_caught.stable) (fun _ holds => holds.1.waved)
      (fun _ _ holds => holds.1.waved)
    rintro w reply w' ⟨serving, ⟨value, passing, isCompv⟩, same⟩ step
    cases step
    rcases passing with now | ⟨checkpoint, -⟩
    · exact serving.fold (now ▸ isCompv) (same ▸ moved)
    · exact absurd (isCompv.trans checkpoint) (same ▸ moved)
  · rename_i still
    apply Upholds.pure read.stable (fun _ holds => holds.1.waved)
    rintro w ⟨serving, ⟨value, passing, isCompv⟩, same⟩
    refine ⟨serving, fun undisturbed => ?_⟩
    rcases passing with now | ⟨-, disturbed⟩
    · apply serving.level.mpr
      rw [same, ← now, ← isCompv]
      exact (not_not.mp still).symm
    · rw [undisturbed] at disturbed
      contradiction

theorem Halves.close_iff {rise other : Bool} (differ : other ≠ rise) :
    halves.Close ↔ upper32Bits (halves.after rise) = upper32Bits (halves.after other) := by
  cases rise <;> cases other
  · contradiction
  · exact eq_comm
  · exact Iff.rfl
  · contradiction

/-- Where the counts are close, the register is one write away from either. -/
theorem Serving.rewritable {w : DutyWatch} (serving : Serving halves start flop w)
    (close : halves.Close) (rise : Bool) :
    upper32Bits (halves.after rise) = upper32Bits w.machine.block.outputHwPiv := by
  obtain ⟨other, known⟩ := serving.known
  rw [known]
  by_cases same : other = rise
  · rw [same]
  · exact (Halves.close_iff same).mp close

/-- A refresh has something to write only before the visit that is to come. -/
theorem Serving.unvisited {w : DutyWatch} (serving : Serving halves start flop w) (close : halves.Close)
    (stale : halves.after (!w.machine.block.outputHwFlopHigh) ≠ w.machine.block.outputHwPiv) :
    w.visited = false := by
  apply Bool.eq_false_iff.mpr
  intro visited
  obtain ⟨mirror, paced⟩ := serving.ready visited
  rw [Halves.paced, if_pos close, ← mirror] at paced
  exact stale paced.symm

/-- A refresh with nothing to write, or nothing it may write. -/
theorem Serving.provided {w : DutyWatch} (serving : Serving halves start flop w) (caught : Caught w)
    (fresh : halves.Close →
      halves.after (!w.machine.block.outputHwFlopHigh) = w.machine.block.outputHwPiv) :
    Provided halves start w := by
  intro undisturbed
  have mirror := caught undisturbed
  refine ⟨mirror, ?_⟩
  unfold Halves.paced
  by_cases close : halves.Close
  · rw [if_pos close, ← mirror, fresh close]
  · rw [if_neg close]
    exact serving.stuck close

def DutyWatch.store (update : MmioBlock → MmioBlock) (w : DutyWatch) : DutyWatch :=
  w.withMachine { w.machine with block := update w.machine.block }

/-- In the middle of a refresh no edge can come: what it is about to store
holds until then. -/
structure Storing (halves : Halves) (start : Nat) (flop : Bool) (update : MmioBlock → MmioBlock)
    (w : DutyWatch) : Prop where
  unvisited : w.visited = false
  serving : Serving halves start flop (w.store update)
  provided : Provided halves start (w.store update)

theorem stable_storing (update : MmioBlock → MmioBlock) :
    Stable dutySem (Storing halves start flop update) := by
  intro w w' step storing
  cases step with
  | @elsewhere m block regs level params phc =>
      have unseen : Unseen (w.store update) ((w.withMachine m).store update) :=
        ⟨congrArg update block, regs, level, params, phc, rfl⟩
      exact ⟨storing.unvisited, storing.serving.unseen unseen,
        unseen.provided storing.provided⟩
  | edge _ visited =>
      rw [storing.unvisited] at visited
      contradiction

/-- A stale register, one write away from the interval of the next edge. -/
structure Stale (halves : Halves) (rise : Bool) (w : DutyWatch) : Prop where
  unvisited : w.visited = false
  caught : Caught w
  next : rise = !w.machine.block.outputHwFlopHigh
  close : halves.Close
  upper : upper32Bits (halves.after rise) = upperWord w.machine.regs.piv

theorem Unseen.stale {w w' : DutyWatch} {rise : Bool} (unseen : Unseen w w')
    (stale : Stale halves rise w) : Stale halves rise w' where
  unvisited := by
    rw [unseen.watch]
    exact stale.unvisited
  caught := unseen.caught stale.caught
  next := by
    rw [unseen.block]
    exact stale.next
  close := stale.close
  upper := by
    rw [unseen.regs]
    exact stale.upper

theorem abides_stale (rise : Bool) : Abiding halves start flop (Stale halves rise) where
  unseen _ _ unseen := unseen.stale
  edge w _ visited stale := by
    rw [stale.unvisited] at visited
    contradiction

/-- The two writes of a refresh: the first changes nothing, the second puts the
interval of the next edge in the register. -/
theorem upholds_write_piv (rise : Bool) :
    Upholds dutySem (Waved halves start flop)
      (fun w => Serving halves start flop w ∧ Stale halves rise w) (writePiv (halves.after rise))
      fun _ => Storing halves start flop (paced (halves.after rise)) := by
  have stable := (@abides_stale halves start flop rise).stable
  apply Upholds.via fun _ w => Serving halves start flop w ∧ Stale halves rise w
  · apply Upholds.call stable (fun _ => stable) (fun _ holds => holds.1.waved)
      (fun _ _ holds => holds.1.waved)
    rintro w reply w' ⟨serving, stale⟩ step
    cases step
    have same : w.machine.regs.write .piv63_32 (upper32Bits (halves.after rise)) = w.machine.regs := by
      rw [stale.upper]
      simp only [Regs.write, join_words]
    have unseen : Unseen w (w.withMachine
        (w.machine.writeReg .piv63_32 (upper32Bits (halves.after rise)))) :=
      ⟨rfl, same, rfl, rfl, rfl, rfl⟩
    exact ⟨serving.unseen unseen, unseen.stale stale⟩
  · intro _
    apply Upholds.call stable (fun _ => stable_storing _) (fun _ holds => holds.1.waved)
      (fun _ _ storing => storing.serving.waved)
    rintro w reply w' ⟨serving, stale⟩ step
    cases step
    have wide := serving.counted.wide rise
    have written : (w.machine.regs.write .piv31_0 (lower32Bits (halves.after rise))).piv.toNat =
        halves.after rise := by
      simp only [Regs.write, lower32Bits, ← stale.upper, upper32Bits, join_words, BitVec.toNat_ofNat]
      exact Nat.mod_eq_of_lt wide
    refine ⟨stale.unvisited, ?_, fun undisturbed => ⟨stale.caught undisturbed, ?_⟩⟩
    · refine { serving with piv := written, known := ⟨rise, rfl⟩, stuck := ?_, ready := ?_ }
      · exact fun far => absurd stale.close far
      · intro visited
        have unvisited := stale.unvisited
        rw [show w.visited = true from visited] at unvisited
        contradiction
    · have mirror := stale.caught undisturbed
      unfold Halves.paced
      rw [if_pos stale.close]
      change halves.after rise = _
      rw [stale.next, mirror]
      rfl

/-- A refresh for the level in the mirror provides for the next edge. -/
theorem upholds_refresh (rise : Bool) :
    Upholds dutySem (Waved halves start flop)
      (fun w => Serving halves start flop w ∧ Caught w ∧ rise = !w.machine.block.outputHwFlopHigh)
      (refreshPiv (.ok (halves.after rise)))
      fun _ w => Serving halves start flop w ∧ Provided halves start w := by
  have abiding : Abiding halves start flop fun w =>
      Caught w ∧ rise = !w.machine.block.outputHwFlopHigh := by
    refine abides_caught.and ⟨fun w w' unseen same => ?_, fun _ _ _ same => same⟩
    rw [unseen.block]
    exact same
  apply (upholds_load_block abiding).bind
  rintro block w ⟨⟨serving, caught, next⟩, same⟩
  dsimp only
  have ready := abiding.and (abides_block block)
  split
  · rename_i write
    obtain ⟨-, stale, upper⟩ := write
    obtain ⟨other, known⟩ := serving.known
    rw [← same] at stale upper
    have differ : other ≠ rise := by
      rintro rfl
      exact stale known.symm
    have close : halves.Close := (Halves.close_iff differ).mpr (known ▸ upper)
    have unvisited := serving.unvisited close (next ▸ stale)
    have begins : Stale halves rise w := by
      refine ⟨unvisited, caught, next, close, ?_⟩
      rw [upper, ← serving.piv]
      simp [upper32Bits]
    refine (?_ : Upholds dutySem (Waved halves start flop)
      (fun w => Serving halves start flop w ∧ Stale halves rise w) _ _) w ⟨serving, begins⟩
    apply (upholds_write_piv rise).bind
    intro _
    apply Upholds.call (stable_storing _) (fun _ => abides_provided.stable)
      (fun _ storing => storing.serving.waved) (fun _ _ holds => holds.1.waved)
    intro w reply w' storing step
    cases step
    exact ⟨storing.serving, storing.provided⟩
  · rename_i idle
    refine (?_ : Upholds dutySem (Waved halves start flop) (fun w => Serving halves start flop w ∧
      (Caught w ∧ rise = !w.machine.block.outputHwFlopHigh) ∧ w.machine.block = block) _ _) w
      ⟨serving, ⟨caught, next⟩, same⟩
    apply Upholds.pure ready.stable (fun _ holds => holds.1.waved)
    rintro w ⟨serving, ⟨caught, next⟩, same⟩
    refine ⟨serving, serving.provided caught fun close => ?_⟩
    have upper := serving.rewritable close rise
    rw [← next]
    by_contra stale
    exact idle ⟨serving.counted.positive rise, same ▸ stale, same ▸ upper⟩

/-- Accesses that leave a stopped engine stopped. -/
def StaysCeased : Op → Prop
  | .writel .ctl value => hasEn value = false
  | op => op.ofWork

theorem stays_ceased_halting : Halting StaysCeased where
  readl _ := trivial
  load := trivial
  sample _ _ := trivial
  real := trivial
  desired := trivial
  sleep _ := trivial
  looked := trivial
  duty _ := trivial
  periodic _ := trivial
  data reg _ notCtl := by cases reg <;> first | contradiction | trivial
  disable _ off := off
  halt := trivial

theorem disabled_step {op : Op} {m m' : Machine} {reply : op.Resp} (stays : StaysCeased op)
    (step : Machine.perform op m = some (reply, m')) (off : hasEn m.regs.ctl = false) :
    hasEn m'.regs.ctl = false := by
  cases op with
  | writel reg value =>
      cases step
      cases reg with
      | ctl => exact stays
      | _ => exact off
  | readl reg =>
      cases step
      cases reg <;> exact off
  | mark point =>
      cases step
      cases point <;> exact off
  | hrtimerCancel =>
      simp only [Machine.perform] at step
      split at step
      · contradiction
      · cases step
        exact off
  | load | store | outputDesiredGet | sample | ktimeGetReal | hrtimerStart | msleep =>
      cases step
      exact off
  | _ => exact stays.elim

theorem Ceased.step {op : Op} {w w' : DutyWatch} {reply : op.Resp} (stays : StaysCeased op)
    (step : w.perform op = some (reply, w')) (ceased : Ceased halves start flop w) :
    Ceased halves start flop w' := by
  obtain ⟨⟨_, m⟩, performed, equal⟩ := Option.map_eq_some_iff.mp step
  cases equal
  have work : op.ofWork := by
    cases op with
    | writel reg value => trivial
    | _ => exact stays
  have level : m.flop = w.machine.flop := by rw [of_work_frame work performed]
  obtain ⟨n, wave, same⟩ := ceased.waved
  exact ⟨⟨n, wave, level.trans same⟩, disabled_step stays performed ceased.disabled⟩

theorem Ceased.move {w w' : DutyWatch} (ceased : Ceased halves start flop w)
    (step : AroundDuty w w') : Ceased halves start flop w' ∧
      w'.machine.block = w.machine.block := by
  cases step with
  | elsewhere block regs level params phc =>
      obtain ⟨n, wave, same⟩ := ceased.waved
      exact ⟨⟨⟨n, wave, level.trans same⟩, (congrArg (fun r => hasEn r.ctl) regs).trans
        ceased.disabled⟩, block⟩
  | edge running _ =>
      have stopped : w.machine.freeRunning = false := running_of_disabled ceased.disabled
      rw [stopped] at running
      contradiction

theorem stable_ceased : Stable dutySem (Ceased halves start flop) :=
  fun _ _ step ceased => (ceased.move step).1

theorem stable_over : Stable dutySem (Over halves start flop) := by
  intro w w' step finished
  obtain ⟨ceased, block⟩ := finished.1.move step
  exact ⟨ceased, by rw [block]; exact finished.2⟩

/-- Past the range of COMPV the engine is stopped, at whatever moment. -/
theorem upholds_disable :
    Upholds dutySem (Waved halves start flop)
      (fun w => Serving halves start flop w ∧ Provided halves start w) disableOutputHw
      fun _ => Over halves start flop := by
  apply (upholds_look_on ((uses_perform _).mpr (unnoticed_reading.readl .ctl)) abides_provided).bind
  intro (ctrl : BitVec 32)
  have through {program : Driver Unit} (uses : Uses StaysCeased program) :
      Upholds dutySem (Waved halves start flop) (Ceased halves start flop) program
        fun _ => Ceased halves start flop :=
    Upholds.uses uses (fun _ _ _ _ stays step ceased => ceased.step stays step) stable_ceased
      fun _ ceased => ceased.waved
  apply Upholds.via fun _ => Ceased halves start flop
  · apply Upholds.call abides_provided.stable (fun _ => stable_ceased)
      (fun _ holds => holds.1.waved) (fun _ _ ceased => ceased.waved)
    rintro w reply w' ⟨serving, -⟩ step
    cases step
    refine ⟨serving.waved, ?_⟩
    change hasEn (ctlWithout ctrl ctlEn) = false
    simp
  intro _
  apply (through (hw_flop_fold_uses stays_ceased_halting.toFolding)).bind
  intro _
  apply (through (write_compv_uses 0 stays_ceased_halting.data)).bind
  intro _
  apply (through (write_piv_uses 0 stays_ceased_halting.data)).bind
  intro _
  apply (through ((uses_perform _).mpr (stays_ceased_halting.disable _ (by simp)))).bind
  intro _
  apply Upholds.call stable_ceased (fun _ => stable_over) (fun _ ceased => ceased.waved)
    (fun _ _ finished => finished.1.waved)
  intro w reply w' ceased step
  have stays : StaysCeased (.store halted) := trivial
  have stopped := ceased.step stays step
  cases step
  exact ⟨stopped, nofun⟩

def Idle (halves : Halves) (start : Nat) (flop : Bool) (w : DutyWatch) : Prop :=
  Serving halves start flop w ∨ Over halves start flop w

theorem Idle.waved {w : DutyWatch} (idle : Idle halves start flop w) : Waved halves start flop w :=
  idle.elim (fun serving => serving.waved) fun finished => finished.1.waved

/-- A visit that no edge has disturbed has provided for the next. -/
theorem Serving.endVisit {w : DutyWatch} (serving : Serving halves start flop w)
    (provided : Provided halves start w) : Serving halves start flop w.endVisit := by
  refine { serving with ready := fun visited => ?_ }
  rcases Bool.or_eq_true_iff.mp visited with visited | undisturbed
  · exact serving.ready visited
  · exact provided undisturbed

/-- The end of a visit: the next wake-up, or the end of the waveform. -/
theorem upholds_wake_at_visit (time : Int) :
    Upholds dutySem (Waved halves start flop)
      (fun w => Serving halves start flop w ∧ Provided halves start w) (outputWakeAt time)
      fun _ w => Serving halves start flop w ∧ Provided halves start w := by
  apply Upholds.via fun _ w => Serving halves start flop w ∧ Provided halves start w
  · apply Upholds.call abides_provided.stable (fun _ => abides_provided.stable)
      (fun _ holds => holds.1.waved) (fun _ _ holds => holds.1.waved)
    rintro w reply w' ⟨serving, provided⟩ step
    cases step
    exact ⟨{ serving with }, provided⟩
  · intro _
    exact upholds_look_on ((uses_perform _).mpr (unnoticed_start time)) abides_provided

/-- A visit keeps the waveform and provides for its next edge. -/
theorem upholds_visit :
    Upholds dutySem (Waved halves start flop) (Serving halves start flop) hwDutyService
      (dutyWorker.Owes (Idle halves start flop)) := by
  have served (w : DutyWatch) (holds : Serving halves start flop w ∧ Provided halves start w) :
      dutyWorker.Owes (Idle halves start flop) () w := by
    rintro w' rfl
    exact .inl (holds.1.endVisit holds.2)
  have wake (time : Int) : Upholds dutySem (Waved halves start flop)
      (fun w => Serving halves start flop w ∧ Provided halves start w) (outputWakeAt time)
      (dutyWorker.Owes (Idle halves start flop)) :=
    (upholds_wake_at_visit time).conseq (fun _ holds => holds) fun _ => served
  apply upholds_fold.bind
  intro _
  apply (upholds_load_block abides_caught).bind
  intro block
  have ready : Abiding halves start flop fun w => Caught w ∧ w.machine.block = block :=
    abides_caught.and (abides_block block)
  -- The count asked for is that of the interval after the next edge.
  apply Upholds.via fun piv w => (Serving halves start flop w ∧ Caught w ∧
    w.machine.block = block) ∧ piv = .ok (halves.after !block.outputHwFlopHigh)
  · apply (upholds_seen (unnoticed_reading.sample _ _) ready.stable ?_ ?_
      fun _ holds => holds.1.waved).conseq (fun w holds => ⟨holds.1.1, holds.1.2, holds.2⟩)
      fun _ _ after => after
    · exact fun piv w w' step holds => ⟨ready.stable w w' step holds.1, holds.2⟩
    · rintro w piv w' ⟨serving, -, same⟩ step
      cases step
      have highNs := serving.highNs
      have lowNs := serving.lowNs
      rw [same] at highNs lowNs
      cases block.outputHwFlopHigh with
      | false =>
          change clockDeltaToArtCycles _ _ (toS64 block.outputHighTimeNs) = .ok halves.highArt
          rw [highNs]
          exact serving.counted.high
      | true =>
          change clockDeltaToArtCycles _ _ (toS64 block.outputLowTimeNs) = .ok halves.lowArt
          rw [lowNs]
          exact serving.counted.low
  intro piv
  apply Upholds.via fun _ w => Serving halves start flop w ∧ Provided halves start w
  · rintro w ⟨⟨serving, caught, same⟩, rfl⟩
    exact upholds_refresh (!block.outputHwFlopHigh) w ⟨serving, caught, by rw [same]⟩
  intro _
  apply (upholds_look_on (read_compv_uses unnoticed_reading) abides_provided).bind
  intro compv
  split
  · apply (upholds_look_on ((uses_perform _).mpr (unnoticed_mark .giveUp)) abides_provided).bind
    intro _
    apply upholds_disable.conseq (fun _ holds => holds)
    rintro _ w ⟨ceased, phase⟩ w' rfl
    exact .inr ⟨⟨ceased.waved, ceased.disabled⟩, phase⟩
  apply (upholds_look_on ((uses_perform _).mpr (unnoticed_reading.sample _ _)) abides_provided).bind
  intro (pending : S64Result)
  apply (upholds_look_on ((uses_perform _).mpr (unnoticed_reading.sample _ _)) abides_provided).bind
  intro (now : S64Result)
  split
  · apply (upholds_look_on ((uses_perform _).mpr (unnoticed_reading.sample _ _)) abides_provided).bind
    intro delayReal
    apply (upholds_look_on ((uses_perform _).mpr unnoticed_reading.real) abides_provided).bind
    intro nowReal
    split
    · exact wake _
    · exact wake _
  · apply (upholds_look_on ((uses_perform _).mpr unnoticed_reading.real) abides_provided).bind
    intro nowReal
    exact wake _

end visiting

/-! ## The arm -/

section arming

variable {halves : Halves} {block : MmioBlock} {regs : Regs} {flop : Bool} {params : Params}
  {clocks : Clocks}

/-- The start of a waveform with two different halves, by a mirror that is
right, ends in an armed duty output. -/
theorem start_arms_duty {firstEdgeNs : Int} {ctrl : BitVec 32} {firstArt : Nat}
    (counted : halves.Counted params clocks) (differ : halves.highNs ≠ halves.lowNs)
    (mirror : block.outputHwFlopHigh = flop) (bound : firstArt < 2 ^ 64) :
    Achieves Machine.perform (Standing block regs flop params clocks)
      (startHardwarePeriodic ctrl firstEdgeNs halves.highNs halves.lowNs firstArt
        (halves.after !flop))
      fun _ m => ArmedDuty halves ⟨m, true, false, []⟩ ∧ m.regs.compv.toNat = firstArt ∧
        m.flop = flop ∧ m.params = params ∧ m.clocks = clocks := by
  rw [← waiting_still]
  refine Achieves.bind (achieves_writel .ctl _) fun _ => ?_
  refine Achieves.bind (Achieves.bind (achieves_writel .piv63_32 _) fun _ =>
    achieves_writel .piv31_0 _) fun _ => ?_
  rw [write_piv_words]
  refine Achieves.bind (Achieves.bind (achieves_writel .compv63_32 _) fun _ =>
    achieves_writel .compv31_0 _) fun _ => ?_
  rw [write_compv_words]
  refine Achieves.bind (achieves_store _) fun _ => ?_
  refine Achieves.bind (achieves_writel .ctl _) fun _ => ?_
  rw [if_pos differ]
  have wide (value : Nat) (bound : value < 2 ^ 64) : (BitVec.ofNat 64 value).toNat = value := by
    rw [BitVec.toNat_ofNat, Nat.mod_eq_of_lt bound]
  intro m standing
  refine ⟨(), _, .call .refl rfl (.call .refl rfl (.call .refl rfl (.ret .refl))), ?_⟩
  have compv := (congrArg (fun r => r.compv.toNat) standing.regs).trans (wide _ bound)
  refine ⟨?_, compv, standing.flop, standing.params, standing.clocks⟩
  constructor
  · exact counted.same standing.params (congrArg Clocks.phc standing.clocks)
  · exact (congrArg MmioBlock.outputPhase standing.block).trans (if_pos differ)
  · exact congrArg MmioBlock.outputHighTimeNs standing.block
  · exact congrArg MmioBlock.outputLowTimeNs standing.block
  · have piv := congrArg MmioBlock.outputHwPiv standing.block
    exact (congrArg (fun r => r.piv.toNat) standing.regs).trans
      ((wide _ (counted.wide _)).trans piv.symm)
  · exact (congrArg MmioBlock.outputHwPiv standing.block).trans (by rw [← standing.flop]; rfl)
  · exact (congrArg MmioBlock.outputHwFlopHigh standing.block).trans (mirror.trans standing.flop.symm)
  · have checkpoint := congrArg MmioBlock.outputHwCkptCompv standing.block
    exact checkpoint.trans compv.symm
  · rfl

end arming

/-! ## Every run -/

section runs

variable {halves : Halves} {first : DutyWatch}

theorem ArmedDuty.serving (armed : ArmedDuty halves first) :
    Serving halves first.machine.block.outputHwPiv first.machine.flop first where
  waved := ⟨0, armed.fresh, by simp⟩
  counted := armed.counted
  phase := armed.phase
  highNs := armed.highNs
  lowNs := armed.lowNs
  piv := armed.piv
  known := ⟨_, armed.first⟩
  stuck := fun _ => rfl
  level := iff_of_true armed.mirror armed.checkpoint
  ready := fun _ => ⟨armed.mirror, by
    unfold Halves.paced
    split
    · exact armed.first
    · rfl⟩

/-- Of the intervals from a level only the first is right, unless the counts are
close. -/
theorem wave_right_iff (flop : Bool) (n : Nat) :
    (∀ interval ∈ halves.wave (halves.after !flop) flop n,
      interval.cycles = halves.after interval.rise) ↔ halves.Close ∨ n ≤ 1 := by
  have first : rises flop 0 = !flop := by simp [rises]
  constructor
  · intro right
    by_cases close : halves.Close
    · exact .inl close
    right
    by_contra many
    have second : rises flop 1 = flop := by simp [rises]
    have wrong := right ⟨flop, halves.after !flop⟩ (by
      rw [Halves.wave, List.mem_map]
      refine ⟨1, List.mem_range.mpr (by omega), ?_⟩
      rw [second, Halves.paced, if_neg close])
    have equal : halves.highArt = halves.lowArt := by
      cases flop with
      | false => exact wrong
      | true => exact wrong.symm
    exact close (congrArg upper32Bits equal)
  · rintro allowed interval member
    obtain ⟨k, bound, rfl⟩ := List.mem_map.mp member
    change halves.paced (halves.after !flop) (rises flop k) = halves.after (rises flop k)
    unfold Halves.paced
    split
    · rfl
    · rename_i far
      have only := allowed.resolve_left far
      have zero : k = 0 := by
        have range := List.mem_range.mp bound
        omega
      rw [zero, first]

/-- Every run of the service has had a wave of intervals. -/
theorem ArmedDuty.waved {last : Worker.Config Op Op.Resp DutyWatch} (armed : ArmedDuty halves first)
    (reaches : dutyWorker.Reaches ⟨first, none⟩ last) :
    Waved halves first.machine.block.outputHwPiv first.machine.flop last.state := by
  have begins (w w' : DutyWatch) (starts : dutyWorker.start w w')
      (idle : Idle halves first.machine.block.outputHwPiv first.machine.flop w) :
      Serving halves first.machine.block.outputHwPiv first.machine.flop w' := by
    obtain ⟨phase, rfl⟩ := starts
    rcases idle with serving | finished
    · exact { serving with }
    · exact absurd phase finished.2
  have byEnv (w w' : DutyWatch) (step : AroundDuty w w')
      (idle : Idle halves first.machine.block.outputHwPiv first.machine.flop w) :
      Idle halves first.machine.block.outputHwPiv first.machine.flop w' :=
    idle.imp (stable_serving w w' step) (stable_over w w' step)
  exact Worker.always_reaches byEnv (fun _ => Idle.waved) begins upholds_visit reaches
    (.inl armed.serving)

/-- With the service between any two edges a duty waveform alternates exactly
when its two counts have one high word; otherwise the interval of the first
edge stays for good. -/
theorem duty_intervals_alternate_iff {last : Worker.Config Op Op.Resp DutyWatch}
    (armed : ArmedDuty halves first) (reaches : dutyWorker.Reaches ⟨first, none⟩ last) :
    Alternates halves last.state ↔ halves.Close ∨ last.state.intervals.length ≤ 1 := by
  obtain ⟨n, wave, -⟩ := armed.waved reaches
  have length : last.state.intervals.length = n := by
    rw [wave]
    simp [Halves.wave]
  rw [Alternates, length, wave, armed.first]
  exact wave_right_iff first.machine.flop n

end runs

section oneRun

/-- Events of a trace around the visits. -/
def DutyWatch.actEdge (w : DutyWatch) : Option DutyWatch :=
  if w.machine.freeRunning = true ∧ w.visited = true then some w.edge else none

def dutyTracer : dutyWorker.Tracer Unit where
  handler op w := w.perform op
  start w := if w.machine.block.outputPhase = .hwDuty then some w.beginVisit else none
  finish := DutyWatch.endVisit
  act _ := DutyWatch.actEdge
  handlerSound _ _ _ _ step := step
  startSound _ _ started :=
    have ⟨phase, begun⟩ := Option.ite_none_right_eq_some.mp started
    ⟨phase, (Option.some.inj begun).symm⟩
  finishSound _ := rfl
  actSound _ w w' acted := by
    obtain ⟨⟨running, visited⟩, moved⟩ := Option.ite_none_right_eq_some.mp acted
    cases moved
    exact .single (.edge running visited)

def slowClocks : Clocks :=
  { steadyClocks 76800000 two_seconds_in_range with
    phc := phcParamsMake 0 0 38400000 0
    anchorInRange := crystal_anchor_in_range }

def armedDuty (highTimeNs lowTimeNs : Nat) : DutyWatch where
  machine := finalState Machine.perform 200 [] (armHardwarePeriodic 3000000000 highTimeNs lowTimeNs)
    (.zeroed defaultParams slowClocks ⟨0, 0, 0⟩ false)
  visited := true
  undisturbed := false
  intervals := []

def shortLow : Halves := ⟨50000000, 100000000, 1920000, 3840000⟩

def longLow : Halves := ⟨50000000, 200000000000, 1920000, 7680000000⟩

def threeEdges : List (Worker.Traced Unit) := [.act (), .run, .act (), .run, .act ()]

def dutyRun (halves : Halves) : DutyWatch :=
  dutyTracer.after 100 (armedDuty halves.highNs halves.lowNs) threeEdges

theorem duty_run_reaches (halves : Halves) (ends : (dutyTracer.followAll 100
    (armedDuty halves.highNs halves.lowNs) threeEdges).isSome = true) :
    dutyWorker.Reaches ⟨armedDuty halves.highNs halves.lowNs, none⟩ ⟨dutyRun halves, none⟩ :=
  dutyTracer.after_reaches 100 _ _ ends

theorem duty_intervals_alternate_short :
    (dutyRun shortLow).intervals.length = 3 ∧ Alternates shortLow (dutyRun shortLow) := by
  refine ⟨by decide +kernel, ?_⟩
  have armed : ArmedDuty shortLow (armedDuty 50000000 100000000) := by
    refine ⟨⟨?_, ?_, ?_⟩, ?_, ?_, ?_, ?_, ?_, ?_, ?_, ?_⟩
    all_goals decide +kernel
  have reaches := duty_run_reaches shortLow (by decide +kernel)
  generalize dutyRun shortLow = last at *
  exact (duty_intervals_alternate_iff armed reaches).mpr (.inl (by decide))

/-- A low time of more than 2^32 cycles: the register keeps the high count, and
the first fall starts an interval of 50 ms where 200 s were asked for. -/
theorem long_low_never_paced :
    (outputTimesGet 200050000000 50000000 true =
        .ok ⟨200050000000, 50000000, 200000000000⟩ ∧
      outputModeOf defaultParams ⟨200050000000, 50000000, 200000000000⟩ = .hardware) ∧
    ArmedDuty longLow (armedDuty 50000000 200000000000) ∧
    dutyWorker.Reaches ⟨armedDuty 50000000 200000000000, none⟩ ⟨dutyRun longLow, none⟩ ∧
    (dutyRun longLow).intervals = [⟨true, 1920000⟩, ⟨false, 1920000⟩, ⟨true, 1920000⟩] ∧
    ¬∀ interval ∈ (dutyRun longLow).intervals,
      interval.cycles = longLow.after interval.rise := by
  refine ⟨⟨by decide, by decide⟩, ?_, duty_run_reaches longLow (by decide +kernel), by decide +kernel,
    by decide +kernel⟩
  refine ⟨⟨?_, ?_, ?_⟩, ?_, ?_, ?_, ?_, ?_, ?_, ?_, ?_⟩
  all_goals decide +kernel

end oneRun

end Tgpio

import Mathlib.Data.Fin.Rev
import Mathlib.Logic.Function.Basic
import Tgpio.OutputRequests

/-!
# Automatic polarity

Captures on one block are held against the grid of the other, an output. Three
of them on the half-period slot in a row, and the output is flipped. The count
is kept with the device; whether a capture is judged at all depends on the
output, which stops, starts and is re-armed meanwhile.
-/

namespace Tgpio

set_option autoImplicit false

structure Autopol where
  streak : Nat
  cooldown : Nat
  deriving DecidableEq, Repr

/-- What the check reads of a block, and how many generations it has had. -/
structure PolarityBlock where
  mode : TgpioMode
  outputPhase : OutputPhase
  desired : OutputDesired
  generations : Nat
  deriving DecidableEq, Repr

inductive Verdict where
  /-- The check is off, or the capture has no time. -/
  | unchecked
  /-- The output is not running a waveform that could be judged. -/
  | idle
  | cooling
  | onGrid
  | ambiguous
  | halfSlot
  deriving DecidableEq, Repr

/-- The slot of a capture on the output's grid. -/
def autoPolarityVerdict (desired : OutputDesired) (capturePhcNs : Int) : Verdict :=
  let period := desired.periodNs
  let r := toU64 (capturePhcNs - desired.firstEdgeNs) % period
  let distGrid := min r (period - r)
  let distHalf := if r > period / 2 then r - period / 2 else period / 2 - r
  if distGrid < period / 8 then .onGrid
  else if distHalf ≥ period / 8 then .ambiguous
  else .halfSlot

/-- The output is not one of which the check can tell anything at the capture. -/
def PolarityBlock.Unjudged (out : PolarityBlock) (capturePhcNs : Int) : Prop :=
  (out.mode ≠ .output ∨ out.outputPhase ≠ .hardwarePeriodic) ∨
    (out.desired.run ≠ .running ∨ out.desired.periodNs = 0 ∨
      out.desired.highTimeNs ≠ out.desired.lowTimeNs ∨ out.desired.firstEdgeNs < 0 ∨
      capturePhcNs < out.desired.firstEdgeNs)

instance (out : PolarityBlock) (capturePhcNs : Int) : Decidable (out.Unjudged capturePhcNs) :=
  inferInstanceAs (Decidable (_ ∨ _))

/-- `tgpio_auto_polarity_check`: the counts after a capture, and whether the
output is to be flipped. -/
def autoPolarityCheck (autoPolarity : Bool) (params : Params) (out : PolarityBlock)
    (capturePhcNs : Int) (dev : Autopol) : Autopol × Bool :=
  if ¬autoPolarity ∨ ¬params.clockUsesModel then (dev, false)
  else if out.Unjudged capturePhcNs then (dev, false)
  else if dev.cooldown ≠ 0 then ({ dev with cooldown := dev.cooldown - 1 }, false)
  else match autoPolarityVerdict out.desired capturePhcNs with
    | .halfSlot =>
        if dev.streak + 1 < 3 then ({ dev with streak := dev.streak + 1 }, false)
        else (⟨0, 3⟩, true)
    | _ => ({ dev with streak := 0 }, false)

/-- The time at which `tgpio_input_stats_update` has a capture checked: in a mode
with a clock model, the one it converts to, if that is not negative. -/
def checkedTime (params : Params) (phc : S64Result) : Option Int :=
  if params.clockUsesModel then
    match phc with
    | .ok time => if time ≥ 0 then some time else none
    | .error _ => none
  else none

def inputPolarityUpdate (autoPolarity : Bool) (params : Params) (out : PolarityBlock)
    (phc : S64Result) (dev : Autopol) : Autopol × Bool :=
  match checkedTime params phc with
  | some capturePhcNs => autoPolarityCheck autoPolarity params out capturePhcNs dev
  | none => (dev, false)

def judge (autoPolarity : Bool) (params : Params) (out : PolarityBlock) (phc : S64Result)
    (dev : Autopol) : Verdict :=
  match checkedTime params phc with
  | none => .unchecked
  | some capturePhcNs =>
      if ¬autoPolarity then .unchecked
      else if out.Unjudged capturePhcNs then .idle
      else if dev.cooldown ≠ 0 then .cooling
      else autoPolarityVerdict out.desired capturePhcNs

/-- A capture that the poll work has seen, and the output it would be held
against. -/
structure Sample where
  out : Fin 2
  generation : Nat
  verdict : Verdict
  flipped : Bool
  deriving DecidableEq, Repr

structure PolarityState where
  block : Fin 2 → PolarityBlock
  autopol : Autopol
  /-- The captures so far, the last one first. -/
  samples : List Sample

inductive PolarityEvent where
  | capture (input : Fin 2) (autoPolarity : Bool) (params : Params) (phc : S64Result)
  | publish (index : Fin 2) (request : Publish)
  | mode (index : Fin 2) (mode : TgpioMode)
  | phase (index : Fin 2) (outputPhase : OutputPhase)

/-- The request begins a new generation: a stop, a start or a re-arm. -/
def Publish.renews : Publish → Bool
  | .configure .. | .disable | .resync => true
  | .freq | .flip => false

def PolarityBlock.publish (block : PolarityBlock) (request : Publish) : PolarityBlock :=
  if request.applies block.desired then
    { block with
      desired := request.update block.desired
      generations := if request.renews then block.generations + 1 else block.generations }
  else block

namespace PolarityState

variable (s : PolarityState)

def updateBlock (index : Fin 2) (update : PolarityBlock → PolarityBlock) : PolarityState :=
  { s with block := Function.update s.block index (update (s.block index)) }

def captured (input : Fin 2) (autoPolarity : Bool) (params : Params) (phc : S64Result) :
    PolarityState :=
  let out := s.block input.rev
  let checked := inputPolarityUpdate autoPolarity params out phc s.autopol
  let flips (block : PolarityBlock) := if checked.2 then block.publish .flip else block
  { s.updateBlock input.rev flips with
    autopol := checked.1
    samples := ⟨input.rev, out.generations, judge autoPolarity params out phc s.autopol,
      checked.2⟩ :: s.samples }

def after : PolarityEvent → PolarityState
  | .capture input autoPolarity params phc => s.captured input autoPolarity params phc
  | .publish index request => s.updateBlock index fun block => block.publish request
  | .mode index mode => s.updateBlock index fun block => { block with mode }
  | .phase index outputPhase => s.updateBlock index fun block => { block with outputPhase }

/-- The device as it is loaded: nothing counted yet. -/
def Fresh : Prop := s.autopol = ⟨0, 0⟩ ∧ s.samples = []

end PolarityState

/-- The last `count` captures are half-slot ones against one generation of an
output. -/
def HalfSlots (out : Fin 2) (generation : Nat) : Nat → List Sample → Prop
  | 0, _ => True
  | count + 1, sample :: earlier =>
      sample.verdict = .halfSlot ∧ sample.out = out ∧ sample.generation = generation ∧
        HalfSlots out generation count earlier
  | _ + 1, [] => False

/-- Every flip is the third half-slot capture in a row against the generation it
flips. -/
def FlipsOnEvidence (samples : List Sample) : Prop :=
  ∀ later flip earlier, samples = later ++ flip :: earlier → flip.flipped = true →
    HalfSlots flip.out flip.generation 3 (flip :: earlier)

def judged (samples : List Sample) : List Sample :=
  samples.filter fun sample => sample.verdict ≠ .idle ∧ sample.verdict ≠ .unchecked

/-- Between a flip and a later half-slot capture lie three captures on a running
output at the least. -/
def CoolsDown (samples : List Sample) : Prop :=
  ∀ later next between flip earlier,
    samples = later ++ next :: (between ++ flip :: earlier) → flip.flipped = true →
      next.verdict = .halfSlot → 3 ≤ (judged between).length

def PolarityState.StreakOn (s : PolarityState) (out : Fin 2) : Prop :=
  s.autopol.streak ≠ 0 ∧ s.samples.head?.map Sample.out = some out

instance (s : PolarityState) (out : Fin 2) : Decidable (s.StreakOn out) :=
  inferInstanceAs (Decidable (_ ∧ _))

/-- While a streak is under way, its output gets no new generation, no capture
comes with the check off, without a time, or finds the output not running, and
none goes on with the streak on the other output. -/
def PolarityState.Undisturbed (s : PolarityState) : PolarityEvent → Prop
  | .capture input autoPolarity params phc => s.autopol.streak ≠ 0 →
      autoPolarity = true ∧
        (∃ time, checkedTime params phc = some time ∧ ¬(s.block input.rev).Unjudged time) ∧
          (judge autoPolarity params (s.block input.rev) phc s.autopol = .halfSlot →
            s.StreakOn input.rev)
  | .publish index request => request.renews = true → ¬s.StreakOn index
  | .mode .. | .phase .. => True

def Polls (allowed : PolarityState → PolarityEvent → Prop) (s t : PolarityState) : Prop :=
  ∃ event, allowed s event ∧ t = s.after event

section samples

variable {out : Fin 2} {generation : Nat} {sample : Sample} {samples : List Sample}

theorem evidence_cons (evidence : FlipsOnEvidence samples)
    (flips : sample.flipped = true →
      HalfSlots sample.out sample.generation 3 (sample :: samples)) :
    FlipsOnEvidence (sample :: samples) := by
  intro later flip earlier split flipped
  cases later with
  | nil =>
      cases split
      exact flips flipped
  | cons last later =>
      cases split
      exact evidence later flip earlier rfl flipped

/-- Captures on a running output since every flip, with those the count of the
cooldown still asks for. -/
def Cooling (cooldown : Nat) (samples : List Sample) : Prop :=
  ∀ between flip earlier, samples = between ++ flip :: earlier → flip.flipped = true →
    3 ≤ (judged between).length + cooldown

theorem cools_cons (cools : CoolsDown samples)
    (rested : sample.verdict = .halfSlot → Cooling 0 samples) : CoolsDown (sample :: samples) := by
  intro later next between flip earlier split flipped half
  cases later with
  | nil =>
      cases split
      exact rested half between flip earlier rfl flipped
  | cons last later =>
      cases split
      exact cools later next between flip earlier rfl flipped half

theorem cooling_cons {cooldown remaining : Nat} (cooling : Cooling cooldown samples)
    (counts : cooldown ≤ remaining + (judged [sample]).length)
    (flips : sample.flipped = true → 3 ≤ remaining) : Cooling remaining (sample :: samples) := by
  intro between flip earlier split flipped
  cases between with
  | nil =>
      cases split
      exact Nat.le_add_left_of_le (flips flipped)
  | cons last between =>
      cases split
      have enough := cooling between flip earlier rfl flipped
      have more : (judged (sample :: between)).length =
          (judged [sample]).length + (judged between).length := by
        rw [← List.length_append]
        exact congrArg List.length (List.filter_append [sample] between)
      rw [more]
      omega

end samples

section checking

variable {autoPolarity : Bool} {params : Params} {out : PolarityBlock} {phc : S64Result}
  {dev : Autopol}

theorem verdict_judges (desired : OutputDesired) (capturePhcNs : Int) :
    autoPolarityVerdict desired capturePhcNs ≠ .unchecked ∧
      autoPolarityVerdict desired capturePhcNs ≠ .idle ∧
        autoPolarityVerdict desired capturePhcNs ≠ .cooling := by
  unfold autoPolarityVerdict
  extract_lets period r distGrid distHalf
  split
  · simp
  split <;> simp

theorem checked_time_model {time : Int} (timed : checkedTime params phc = some time) :
    params.clockUsesModel = true := by
  by_contra other
  unfold checkedTime at timed
  rw [if_neg other] at timed
  contradiction

theorem update_judges :
    inputPolarityUpdate autoPolarity params out phc dev =
      match judge autoPolarity params out phc dev with
      | .unchecked | .idle => (dev, false)
      | .cooling => ({ dev with cooldown := dev.cooldown - 1 }, false)
      | .halfSlot =>
          if dev.streak + 1 < 3 then ({ dev with streak := dev.streak + 1 }, false)
          else (⟨0, 3⟩, true)
      | _ => ({ dev with streak := 0 }, false) := by
  unfold inputPolarityUpdate judge
  rcases timed : checkedTime params phc with _ | capturePhcNs
  · rfl
  have model := checked_time_model timed
  dsimp only
  unfold autoPolarityCheck
  simp only [model, not_true, or_false]
  split
  · rfl
  split
  · rfl
  split
  · rfl
  obtain ⟨on, running, warm⟩ := verdict_judges out.desired capturePhcNs
  cases verdict : autoPolarityVerdict out.desired capturePhcNs with
  | unchecked => contradiction
  | idle => contradiction
  | cooling => contradiction
  | onGrid | ambiguous | halfSlot => rfl

theorem judge_tells {verdict : Verdict}
    (judged : judge autoPolarity params out phc dev = verdict) :
    match verdict with
    | .unchecked => autoPolarity = true → checkedTime params phc = none
    | .idle => ∀ time, checkedTime params phc = some time → out.Unjudged time
    | .cooling => dev.cooldown ≠ 0
    | _ => dev.cooldown = 0 := by
  unfold judge at judged
  split at judged
  next untimed =>
    subst judged
    exact fun _ => untimed
  rename_i capturePhcNs timed
  split at judged
  next off =>
    subst judged
    exact fun on => absurd on off
  split at judged
  next unjudged =>
    subst judged
    rintro time same
    obtain rfl := Option.some.inj (timed.symm.trans same)
    exact unjudged
  split at judged
  next counting =>
    subst judged
    exact counting
  next rested =>
    have rested : dev.cooldown = 0 := not_not.mp rested
    obtain ⟨on, running, warm⟩ := verdict_judges out.desired capturePhcNs
    rw [judged] at on running warm
    cases verdict with
    | unchecked | idle | cooling => contradiction
    | onGrid | ambiguous | halfSlot => exact rested

end checking

section pace

/-- What the counts of the device say, whatever the outputs do. -/
structure Paced (dev : Autopol) (samples : List Sample) : Prop where
  few : dev.streak ≤ 2
  rests : dev.streak ≠ 0 → dev.cooldown = 0
  cooling : Cooling dev.cooldown samples
  cools : CoolsDown samples

theorem paced_capture {dev : Autopol} {samples : List Sample} (paced : Paced dev samples)
    (index : Fin 2) (out : PolarityBlock) (autoPolarity : Bool) (params : Params)
    (phc : S64Result) :
    Paced (inputPolarityUpdate autoPolarity params out phc dev).1
      (⟨index, out.generations, judge autoPolarity params out phc dev,
        (inputPolarityUpdate autoPolarity params out phc dev).2⟩ :: samples) := by
  obtain ⟨few, rests, cooling, cools⟩ := paced
  rw [update_judges]
  cases verdict : judge autoPolarity params out phc dev with
  | unchecked | idle =>
      exact ⟨few, rests, cooling_cons cooling (Nat.le_add_right _ _) nofun, cools_cons cools nofun⟩
  | cooling =>
      have counting := judge_tells verdict
      refine ⟨few, fun streak => absurd (rests streak) counting, ?_, cools_cons cools nofun⟩
      refine cooling_cons cooling ?_ nofun
      simp only [judged, List.filter, decide_true, ne_eq, reduceCtorEq, not_false_eq_true,
        and_self, List.length_cons, List.length_nil]
      omega
  | onGrid | ambiguous =>
      have rested := judge_tells verdict
      exact ⟨Nat.zero_le _, fun _ => rested,
        cooling_cons cooling (Nat.le_add_right _ _) nofun, cools_cons cools nofun⟩
  | halfSlot =>
      have rested : dev.cooldown = 0 := judge_tells verdict
      have cools := fun flipped => @cools_cons ⟨index, out.generations, .halfSlot, flipped⟩ _ cools
        fun _ => rested ▸ cooling
      dsimp only
      split
      · exact ⟨by simp only; omega, fun _ => rested,
          cooling_cons cooling (Nat.le_add_right _ _) nofun, cools _⟩
      · refine ⟨Nat.zero_le _, fun none => absurd rfl none, ?_, cools _⟩
        exact cooling_cons cooling (by omega) fun _ => le_rfl

theorem paced_after {s : PolarityState} (paced : Paced s.autopol s.samples)
    (event : PolarityEvent) : Paced (s.after event).autopol (s.after event).samples := by
  cases event with
  | capture input autoPolarity params phc => exact paced_capture paced _ _ _ _ _
  | publish index request => exact paced
  | mode index mode => exact paced
  | phase index outputPhase => exact paced

end pace

section evidence

variable {s : PolarityState}

theorem update_generations (index out : Fin 2) {update : PolarityBlock → PolarityBlock}
    (keeps : out = index → (update (s.block index)).generations = (s.block index).generations) :
    ((s.updateBlock index update).block out).generations = (s.block out).generations := by
  by_cases same : out = index
  · subst same
    simp [PolarityState.updateBlock, keeps]
  · simp [PolarityState.updateBlock, same]

theorem publish_generations {block : PolarityBlock} {request : Publish}
    (same : request.renews = false) : (block.publish request).generations = block.generations := by
  unfold PolarityBlock.publish
  split
  · rw [same]
    rfl
  · rfl

theorem captured_generations (input out : Fin 2) (autoPolarity : Bool) (params : Params)
    (phc : S64Result) :
    ((s.captured input autoPolarity params phc).block out).generations =
      (s.block out).generations := by
  apply update_generations
  intro _
  split
  · exact publish_generations rfl
  · rfl

/-- The streak is one of half-slot captures against the generation its output has
now, and every flip was due. -/
structure Evident (s : PolarityState) : Prop where
  streak : s.autopol.streak = 0 ∨ ∃ out, s.StreakOn out ∧
    HalfSlots out (s.block out).generations s.autopol.streak s.samples
  evidence : FlipsOnEvidence s.samples

theorem streak_on_same {first second : Fin 2} (on : s.StreakOn first) (also : s.StreakOn second) :
    first = second :=
  Option.some.inj (on.2.symm.trans also.2)

theorem half_slots_grow {out : Fin 2} (evident : Evident s)
    (goesOn : s.autopol.streak ≠ 0 → s.StreakOn out) :
    HalfSlots out (s.block out).generations s.autopol.streak s.samples := by
  rcases evident.streak with none | ⟨old, on, halves⟩
  · rw [none]
    trivial
  · obtain rfl := streak_on_same on (goesOn on.1)
    exact halves

theorem evident_capture (paced : Paced s.autopol s.samples) (evident : Evident s) {input : Fin 2}
    {autoPolarity : Bool} {params : Params} {phc : S64Result}
    (undisturbed : s.Undisturbed (.capture input autoPolarity params phc)) :
    Evident (s.captured input autoPolarity params phc) := by
  have generations := captured_generations (s := s) input input.rev autoPolarity params phc
  have autopol : (s.captured input autoPolarity params phc).autopol =
      (inputPolarityUpdate autoPolarity params (s.block input.rev) phc s.autopol).1 := rfl
  have samples : (s.captured input autoPolarity params phc).samples =
      ⟨input.rev, (s.block input.rev).generations,
        judge autoPolarity params (s.block input.rev) phc s.autopol,
        (inputPolarityUpdate autoPolarity params (s.block input.rev) phc s.autopol).2⟩ ::
          s.samples := rfl
  rw [update_judges] at autopol samples
  cases verdict : judge autoPolarity params (s.block input.rev) phc s.autopol with
  | unchecked | idle | cooling =>
      have told := judge_tells verdict
      rw [verdict] at autopol samples
      have none : s.autopol.streak = 0 := by
        by_contra counting
        obtain ⟨on, ⟨time, timed, judged⟩, -⟩ := undisturbed counting
        first
          | exact absurd (timed.symm.trans (told on)) (by simp)
          | exact judged (told time timed)
          | exact told (paced.rests counting)
      refine ⟨.inl (autopol ▸ none), ?_⟩
      rw [samples]
      exact evidence_cons evident.evidence nofun
  | onGrid | ambiguous =>
      rw [verdict] at autopol samples
      refine ⟨.inl (autopol ▸ rfl), ?_⟩
      rw [samples]
      exact evidence_cons evident.evidence nofun
  | halfSlot =>
      rw [verdict] at autopol samples
      have halves := half_slots_grow evident fun counting => (undisturbed counting).2.2 verdict
      dsimp only at autopol samples
      by_cases more : s.autopol.streak + 1 < 3
      · rw [if_pos more] at autopol samples
        refine ⟨.inr ⟨input.rev, ⟨?_, ?_⟩, ?_⟩, ?_⟩
        · rw [autopol]
          exact Nat.succ_ne_zero _
        · rw [samples]
          rfl
        · rw [generations, autopol, samples]
          exact ⟨rfl, rfl, rfl, halves⟩
        · rw [samples]
          exact evidence_cons evident.evidence nofun
      · rw [if_neg more] at autopol samples
        have third : s.autopol.streak = 2 := by
          have few := paced.few
          omega
        rw [third] at halves
        refine ⟨.inl (autopol ▸ rfl), ?_⟩
        rw [samples]
        exact evidence_cons evident.evidence fun _ => ⟨rfl, rfl, rfl, halves⟩

theorem evident_update (evident : Evident s) {index : Fin 2} {update : PolarityBlock → PolarityBlock}
    (keeps : s.StreakOn index → (update (s.block index)).generations = (s.block index).generations) :
    Evident (s.updateBlock index update) := by
  refine ⟨evident.streak.imp id ?_, evident.evidence⟩
  rintro ⟨out, on, halves⟩
  refine ⟨out, on, ?_⟩
  rw [update_generations index out fun same => keeps (same ▸ on)]
  exact halves

theorem evident_after (paced : Paced s.autopol s.samples) (evident : Evident s)
    {event : PolarityEvent} (undisturbed : s.Undisturbed event) : Evident (s.after event) := by
  cases event with
  | capture input autoPolarity params phc => exact evident_capture paced evident undisturbed
  | publish index request =>
      apply evident_update evident
      intro on
      by_cases renews : request.renews = true
      · exact absurd on (undisturbed renews)
      · exact publish_generations (Bool.not_eq_true _ ▸ renews)
  | mode index mode =>
      change Evident (s.updateBlock index fun block => { block with mode })
      exact evident_update evident fun _ => rfl
  | phase index outputPhase =>
      change Evident (s.updateBlock index fun block => { block with outputPhase })
      exact evident_update evident fun _ => rfl

/-- While nothing disturbs a streak, every flip is the third half-slot capture in
a row against the generation it flips. The cooldown holds whatever happens. -/
theorem auto_polarity_on_evidence (first : PolarityState) (fresh : first.Fresh) :
    (∀ last, Relation.ReflTransGen (Polls PolarityState.Undisturbed) first last →
      FlipsOnEvidence last.samples ∧ CoolsDown last.samples) ∧
    ∀ last, Relation.ReflTransGen (Polls fun _ _ => True) first last → CoolsDown last.samples := by
  obtain ⟨none, unseen⟩ := fresh
  have nothing {later earlier : List Sample} {sample : Sample} :
      ([] : List Sample) ≠ later ++ sample :: earlier := by simp
  have paced : Paced first.autopol first.samples := by
    rw [none, unseen]
    exact ⟨Nat.zero_le _, fun _ => rfl, fun _ _ _ split => absurd split nothing,
      fun _ _ _ _ _ split => absurd split nothing⟩
  have evident : Evident first := by
    refine ⟨.inl (by rw [none]), ?_⟩
    rw [unseen]
    exact fun _ _ _ split => absurd split nothing
  have pace (allowed : PolarityState → PolarityEvent → Prop) {last : PolarityState}
      (run : Relation.ReflTransGen (Polls allowed) first last) : Paced last.autopol last.samples := by
    induction run with
    | refl => exact paced
    | tail _ step ih =>
        obtain ⟨event, -, rfl⟩ := step
        exact paced_after ih event
  refine ⟨fun last run => ⟨?_, (pace _ run).cools⟩, fun last run => (pace _ run).cools⟩
  have both : Evident last := by
    induction run with
    | refl => exact evident
    | tail earlier step ih =>
        obtain ⟨event, undisturbed, rfl⟩ := step
        exact evident_after (pace _ earlier) ih undisturbed
  exact both.evidence

end evidence

section runs

def startAt (firstEdgeNs : Int) : Publish :=
  .configure .running .hardware 1000000000 500000000 500000000 firstEdgeNs

/-- Block 0 is an input, and block 1 an output whose first edge was at zero. -/
def loopback : PolarityState where
  block := fun index =>
    let desired := (startAt 0).update ⟨0, 0, 0, .stopped, .software, 0, 0, 0, 0⟩
    ⟨if index = 0 then .input else .output, .hardwarePeriodic, desired, 0⟩
  autopol := ⟨0, 0⟩
  samples := []

def loopedCapture (capturePhcNs : Int) : PolarityEvent :=
  .capture 0 true defaultParams (.ok capturePhcNs)

def threeHalves : PolarityState :=
  ((loopback.after (loopedCapture 2500000000)).after (loopedCapture 3500000000)).after
    (loopedCapture 4500000000)

theorem auto_polarity_on_evidence_three :
    (FlipsOnEvidence threeHalves.samples ∧ CoolsDown threeHalves.samples) ∧
      threeHalves.samples.head?.map Sample.flipped = some true := by
  refine ⟨(auto_polarity_on_evidence loopback ⟨rfl, rfl⟩).1 threeHalves ?_, by decide +kernel⟩
  have first : loopback.Undisturbed (loopedCapture 2500000000) :=
    fun counting => absurd rfl counting
  have second : (loopback.after (loopedCapture 2500000000)).Undisturbed (loopedCapture 3500000000) :=
    fun _ => ⟨rfl, ⟨_, rfl, by decide +kernel⟩, fun _ => by decide +kernel⟩
  have third : ((loopback.after (loopedCapture 2500000000)).after
      (loopedCapture 3500000000)).Undisturbed (loopedCapture 4500000000) :=
    fun _ => ⟨rfl, ⟨_, rfl, by decide +kernel⟩, fun _ => by decide +kernel⟩
  exact .tail (.tail (.single ⟨_, first, rfl⟩) ⟨_, second, rfl⟩) ⟨_, third, rfl⟩

/-- Two half-slot captures, a stop, a capture, a start on another grid, and one
half-slot capture more. -/
def restartedEvents : List PolarityEvent :=
  [loopedCapture 2500000000, loopedCapture 3500000000, .publish 1 .disable, loopedCapture 4500000000,
    .publish 1 (startAt 250000000), loopedCapture 10750000000]

def restarted : PolarityState :=
  restartedEvents.foldl (fun s event => s.after event) loopback

theorem restarted_run : Relation.ReflTransGen (Polls fun _ _ => True) loopback restarted := by
  unfold restarted
  generalize loopback = first
  induction restartedEvents generalizing first with
  | nil => exact .refl
  | cons event events ih => exact .head ⟨event, trivial, rfl⟩ (ih _)

/-- The streak of one generation goes on in the next, over a capture that found
the output stopped. -/
theorem flip_on_stale_streak :
    loopback.Fresh ∧ Relation.ReflTransGen (Polls fun _ _ => True) loopback restarted ∧
      ¬FlipsOnEvidence restarted.samples := by
  refine ⟨⟨rfl, rfl⟩, restarted_run, fun evidence => ?_⟩
  obtain ⟨-, -, -, idle, -⟩ := evidence [] ⟨1, 2, .halfSlot, true⟩ _
    (by decide +kernel : restarted.samples = [⟨1, 2, .halfSlot, true⟩, ⟨1, 1, .idle, false⟩,
      ⟨1, 0, .halfSlot, false⟩, ⟨1, 0, .halfSlot, false⟩]) rfl
  contradiction

end runs

end Tgpio

import Tgpio.SoftwareLead

/-!
# The wake-ups of the software path

An arm of the software path and the runs at its wake-ups follow the plan of
`SoftwareLead` while its times fit in 64 bits. Whether a wake-up keeps its lead
is then a matter of the plan alone.
-/

namespace Tgpio

open Interference Interference.Prog Scaling

set_option autoImplicit false

/-! ## A run of the work -/

/-- What the wake-ups of a software output go by. -/
structure Agenda where
  cadence : Cadence
  wakeAt : Int
  desired : OutputDesired
  params : Params
  clocks : Clocks

def Machine.agenda (m : Machine) : Agenda :=
  ⟨m.block.cadence, m.block.outputWakeAt, m.desired, m.params, m.clocks⟩

/-- Accesses that leave the agenda as it is. -/
def Incidental : Op → Prop
  | .store update => ∀ block, (update block).cadence = block.cadence ∧
      (update block).outputWakeAt = block.outputWakeAt
  | op => op.ofWork

theorem incidental_keeps {op : Op} {s t : Machine} {reply : op.Resp} (incidental : Incidental op)
    (step : Machine.perform op s = some (reply, t)) : t.agenda = s.agenda := by
  cases op with
  | store update =>
      cases step
      obtain ⟨cadence, wakeAt⟩ := incidental s.block
      simp only [Machine.agenda, cadence, wakeAt]
  | readl reg =>
      cases step
      cases reg <;> rfl
  | writel reg value =>
      cases step
      cases reg <;> rfl
  | mark point =>
      cases step
      cases point <;> rfl
  | hrtimerCancel =>
      simp only [Machine.perform] at step
      split at step
      · contradiction
      · cases step
        rfl
  | load | outputDesiredGet | sample | ktimeGetReal | hrtimerStart | msleep =>
      cases step
      rfl
  | _ => exact incidental.elim

theorem incidental_folding : Folding Incidental where
  readl _ := trivial
  load := trivial
  sample _ _ := trivial
  real := trivial
  desired := trivial
  sleep _ := trivial
  looked := trivial
  duty _ _ := ⟨rfl, rfl⟩
  periodic _ _ := ⟨rfl, rfl⟩

/-- A run that nothing happens in. -/
abbrev undisturbed : Semantics Op Op.Resp Machine := alone Machine.perform

section run

variable {agenda : Agenda} {α : Type} {pre : Machine → Prop}

theorem agenda_incidental {program : Driver α} (uses : Uses Incidental program) :
    Triple undisturbed (fun m => m.agenda = agenda) program fun _ m => m.agenda = agenda :=
  .alone_uses
    (fun _ _ _ _ incidental step same => (incidental_keeps incidental step).trans same) uses

theorem agenda_op (op : Op) (incidental : Incidental op) :
    Triple undisturbed (fun m => m.agenda = agenda) (perform op) fun _ m => m.agenda = agenda :=
  agenda_incidental ((uses_perform op).mpr incidental)

theorem agenda_look (op : Op) (incidental : Incidental op) {seen : op.Resp → Prop}
    (looks : ∀ m reply m', m.agenda = agenda → Machine.perform op m = some (reply, m') →
      seen reply) :
    Triple undisturbed (fun m => m.agenda = agenda) (perform op)
      fun reply m => seen reply ∧ m.agenda = agenda :=
  .alone_call fun m reply m' same step =>
    ⟨looks m reply m' same step, (incidental_keeps incidental step).trans same⟩

theorem agenda_load : Triple undisturbed (fun m => m.agenda = agenda) loadBlock
    fun block m => (block.cadence = agenda.cadence ∧ block.outputWakeAt = agenda.wakeAt) ∧
      m.agenda = agenda := by
  apply agenda_look .load trivial
  intro m block m' same step
  cases step
  exact ⟨congrArg Agenda.cadence same, congrArg Agenda.wakeAt same⟩

theorem agenda_sample (read : Params → Clocks → α) :
    Triple undisturbed (fun m => m.agenda = agenda) (sample read)
      fun reply m => reply = read agenda.params agenda.clocks ∧ m.agenda = agenda := by
  apply agenda_look (.sample α read) trivial
  intro m reply m' same step
  cases step
  rw [← same]
  rfl

theorem agenda_real : Triple undisturbed (fun m => m.agenda = agenda) ktimeGetReal
    fun reply m => reply = agenda.clocks.real ∧ m.agenda = agenda := by
  apply agenda_look .ktimeGetReal trivial
  intro m reply m' same step
  cases step
  rw [← same]
  rfl

theorem agenda_desired : Triple undisturbed (fun m => m.agenda = agenda) outputDesiredGet
    fun reply m => reply = agenda.desired ∧ m.agenda = agenda := by
  apply agenda_look .outputDesiredGet trivial
  intro m reply m' same step
  cases step
  rw [← same]
  rfl

/-- Whoever gives up has no timer. -/
theorem abandon_untimed :
    Triple undisturbed (fun _ => True) abandonOutput fun _ m => m.timerArmed = false := by
  apply Triple.via fun _ _ => True
  · exact .alone_call fun _ _ _ _ _ => trivial
  intro _
  apply Triple.via fun _ m => m.timerArmed = false
  · apply Triple.alone_call
    intro m reply m' _ step
    simp only [Machine.perform] at step
    split at step
    · contradiction
    · cases step
      rfl
  · intro _
    exact .alone_uses untimed_performs (disable_output_hw_uses untimed_halting)

theorem gives_up {post : Unit → Machine → Prop}
    (untimed : ∀ m, m.timerArmed = false → post () m) :
    Triple undisturbed pre abandonOutput post :=
  abandon_untimed.conseq (fun _ _ => trivial) fun _ m off => untimed m off

theorem agenda_wake_at (time : Int) :
    Triple undisturbed (fun m => m.agenda = agenda) (outputWakeAt time)
      fun _ m => m.timerArmed = true ∧ m.agenda = { agenda with wakeAt := time } := by
  apply Triple.via fun _ m => m.agenda = { agenda with wakeAt := time }
  · apply Triple.alone_call
    intro m reply m' same step
    cases step
    rw [← same]
    rfl
  · intro _
    apply Triple.alone_call
    intro m reply m' same step
    cases step
    exact ⟨rfl, same⟩

def Cadence.intervalNs (cadence : Cadence) : Nat :=
  if cadence.nextEdgeType = .rise then cadence.highTimeNs else cadence.lowTimeNs

theorem interval_after_edge (block : MmioBlock) :
    outputIntervalAfterEdge block block.outputNextEdgeType = block.cadence.intervalNs := rfl

/-- The agenda after an edge whose interval takes so long. -/
def Agenda.served (agenda : Agenda) (real : Nat) : Agenda :=
  { agenda with cadence := agenda.cadence.advanced, wakeAt := toS64 (agenda.wakeAt + real) }

/-- The pending edge has a compare value, and the interval after it some length. -/
def Agenda.Converts (agenda : Agenda) : Prop :=
  isOk (clockNsToCompareArt agenda.params agenda.clocks agenda.cadence.nextEdge) = true ∧
    ∃ real, clockDeltaToRealNs agenda.params agenda.clocks (toS64 agenda.cadence.intervalNs) =
      .ok real ∧ real ≠ 0

/-- A run keeps its timer exactly if the times convert, and has then programmed the
next edge. -/
structure Serves (agenda : Agenda) (m : Machine) : Prop where
  waits : m.timerArmed = true ↔ agenda.Converts
  served : m.timerArmed = true → ∃ real, clockDeltaToRealNs agenda.params agenda.clocks
    (toS64 agenda.cadence.intervalNs) = .ok real ∧ m.agenda = agenda.served real

theorem Serves.untimed (fails : ¬agenda.Converts) (m : Machine) (off : m.timerArmed = false) :
    Serves agenda m := by
  refine ⟨⟨fun on => ?_, fun converts => absurd converts fails⟩, fun on => ?_⟩
  · simp [off] at on
  · simp [off] at on

theorem agenda_edge_program (edgeTime : Int) (edgeBits : BitVec 32) :
    Triple undisturbed (fun m => m.agenda = agenda) (programOutputEdge edgeTime edgeBits)
      fun status m => (status = .ok () ↔
        isOk (clockNsToCompareArt agenda.params agenda.clocks edgeTime) = true) ∧
        m.agenda = agenda := by
  apply (agenda_sample _).bind_known
  cases clockNsToCompareArt agenda.params agenda.clocks edgeTime with
  | error status => exact .alone_pure fun _ same => ⟨by simp [isOk], same⟩
  | ok art =>
      apply (agenda_op (.readl .ctl) trivial).bind
      intro ctrl
      have data : Uses Incidental (writeCompv art) := write_compv_uses art fun _ _ _ => trivial
      have ends : Triple undisturbed (fun m => m.agenda = agenda)
          (Pure.pure (.ok ()) : Driver (Except Errno Unit)) fun status m =>
            (status = .ok () ↔ isOk (.ok art : U64Result) = true) ∧ m.agenda = agenda :=
        .alone_pure fun _ same => ⟨by simp [isOk], same⟩
      dsimp only
      split
      · exact (agenda_incidental data).bind fun _ =>
          (agenda_op (.writel .ctl _) trivial).bind fun _ => ends
      · exact (agenda_op (.writel .ctl _) trivial).bind fun _ =>
          (agenda_incidental data).bind fun _ => ends

theorem agenda_software_edge :
    Triple undisturbed (fun m => m.agenda = agenda) softwareEdge fun _ => Serves agenda := by
  apply agenda_load.bind
  intro block
  apply Triple.given
  rintro ⟨cadence, wakeAt⟩
  apply (agenda_sample _).bind
  intro edgeBits
  apply Triple.given
  intro _
  apply (agenda_sample _).bind_known
  have edge : block.outputNextEdge = agenda.cadence.nextEdge := by rw [← cadence]; rfl
  rw [interval_after_edge, cadence, wakeAt, edge]
  apply (agenda_edge_program _ _).bind
  intro status
  apply Triple.given
  intro programmed
  cases status with
  | error status =>
      exact gives_up (Serves.untimed fun converts => nomatch programmed.mpr converts.1)
  | ok _ =>
      have compares := programmed.mp rfl
      cases converted : clockDeltaToRealNs agenda.params agenda.clocks
          (toS64 agenda.cadence.intervalNs) with
      | error status =>
          refine gives_up (Serves.untimed ?_)
          rintro ⟨-, real, same, -⟩
          rw [converted] at same
          contradiction
      | ok real =>
          dsimp only
          split
          next nothing =>
            refine gives_up (Serves.untimed ?_)
            rintro ⟨-, other, same, positive⟩
            rw [converted] at same
            cases same
            exact positive nothing
          next positive =>
            apply Triple.via fun _ m =>
              m.agenda = { agenda with cadence := agenda.cadence.advanced }
            · apply Triple.alone_call
              intro m reply m' same step
              cases step
              rw [← same]
              rfl
            · intro _
              apply (agenda_wake_at _).post
              rintro _ m ⟨waits, same⟩
              exact ⟨⟨fun _ => ⟨compares, real, converted, positive⟩, fun _ => waits⟩,
                fun _ => ⟨real, converted, same⟩⟩

/-- The phases of the software path. -/
def Cadence.software (cadence : Cadence) : Prop :=
  cadence.phase = .firstRising ∨ cadence.phase = .toggle

theorem agenda_service_edge (software : agenda.cadence.software) :
    Triple undisturbed (fun m => m.agenda = agenda) serviceEdge fun _ => Serves agenda := by
  apply agenda_load.bind
  intro block
  apply Triple.given
  rintro ⟨cadence, -⟩
  have phase : block.outputPhase = .firstRising ∨ block.outputPhase = .toggle := by
    rw [← cadence] at software
    exact software
  rcases phase with first | later
  · rw [first]
    exact agenda_software_edge
  · rw [later]
    exact agenda_software_edge

theorem agenda_service_output (software : agenda.cadence.software) (desired : OutputDesired) :
    Triple undisturbed (fun m => m.agenda = agenda) (serviceOutput desired)
      fun _ => Serves agenda := by
  apply agenda_load.bind
  intro block
  apply Triple.given
  rintro ⟨cadence, -⟩
  have phase : block.outputPhase = .firstRising ∨ block.outputPhase = .toggle := by
    rw [← cadence] at software
    exact software
  split
  · apply (agenda_op (.store (appliedFreq desired)) fun _ => ⟨rfl, rfl⟩).bind
    intro _
    rcases phase with first | later
    · rw [first]
      exact agenda_service_edge software
    · rw [later]
      exact agenda_service_edge software
  · exact agenda_service_edge software

/-- A change of sense leaves the agenda as it is, unless it is for a duty cycle. -/
theorem agenda_apply_flip {desired : OutputDesired} {flipGen : BitVec 32}
    (calm : agenda.cadence.phase ≠ .hwDuty ∨ (desired.flipGen - flipGen).getLsbD 0 = false) :
    Triple undisturbed
      (fun m => m.agenda = agenda ∧ m.block.outputAppliedFlipGen = flipGen) (applyFlip desired)
      fun _ m => m.agenda = agenda := by
  have store : Triple undisturbed (fun m => m.agenda = agenda) (storeBlock (appliedFlip desired))
      fun _ m => m.agenda = agenda :=
    agenda_op (.store (appliedFlip desired)) fun _ => ⟨rfl, rfl⟩
  apply Triple.via fun block m => block.outputAppliedFlipGen = flipGen ∧ m.agenda = agenda
  · apply Triple.alone_call
    intro m block m' holds step
    cases step
    exact ⟨holds.2, holds.1⟩
  intro block
  apply Triple.given
  intro same
  rw [same]
  split
  · rename_i flipped
    have notDuty : agenda.cadence.phase ≠ .hwDuty := calm.resolve_right (by simp [flipped])
    apply Triple.bind ?_ fun _ => store
    apply (agenda_op (.store inverted) fun _ => ⟨rfl, rfl⟩).bind
    intro _
    apply (agenda_op (.mark .inverted) trivial).bind
    intro _
    apply agenda_load.bind
    intro block
    apply Triple.given
    rintro ⟨cadence, -⟩
    split
    · rename_i duty
      rw [← cadence] at notDuty
      exact absurd duty notDuty
    · split
      · exact .alone_pure fun _ holds => holds
      · exact agenda_incidental (half_shift_uses incidental_folding (fun _ _ => trivial)
          fun _ _ => ⟨rfl, rfl⟩)
  · exact store

/-- The timing of an arm, by its parts. -/
def TimedFor (agenda : Agenda) (timing : OutputTiming) : Prop :=
  ∃ delay real, outputTimingPlan (clockNowNs agenda.params agenda.clocks)
      (outputMinIntervalNs agenda.desired.highTimeNs agenda.desired.lowTimeNs)
      agenda.desired.periodNs .software agenda.desired.firstEdgeNs =
        .ok (timing.firstEdgeNs, timing.primeEdgeNs, delay) ∧
    clockDeltaToRealNs agenda.params agenda.clocks delay = .ok real ∧
    timing.timerStart = wakeFor agenda.clocks.real real

theorem agenda_prepare :
    Triple undisturbed (fun m => m.agenda = agenda)
      (prepareOutputTiming
        (outputMinIntervalNs agenda.desired.highTimeNs agenda.desired.lowTimeNs)
        agenda.desired.periodNs .software agenda.desired.firstEdgeNs)
      fun answer m => (∀ timing, answer = .ok timing → TimedFor agenda timing) ∧
        m.agenda = agenda := by
  apply (agenda_sample _).bind_known
  cases planned : outputTimingPlan (clockNowNs agenda.params agenda.clocks)
      (outputMinIntervalNs agenda.desired.highTimeNs agenda.desired.lowTimeNs)
      agenda.desired.periodNs .software agenda.desired.firstEdgeNs with
  | error status => exact .alone_pure fun _ same => ⟨nofun, same⟩
  | ok plan =>
      obtain ⟨first, prime, delay⟩ := plan
      apply (agenda_sample _).bind_known
      cases slept : clockDeltaToRealNs agenda.params agenda.clocks delay with
      | error status => exact .alone_pure fun _ same => ⟨nofun, same⟩
      | ok real =>
          apply agenda_real.bind_known
          refine .alone_pure fun _ same => ⟨?_, same⟩
          rintro _ ⟨⟩
          exact ⟨delay, real, planned, slept, rfl⟩

def Agenda.primed (agenda : Agenda) (timing : OutputTiming) : Agenda :=
  { agenda with
    cadence := ⟨.firstRising, agenda.desired.gen, agenda.desired.highTimeNs,
      agenda.desired.lowTimeNs, timing.firstEdgeNs, .rise⟩
    wakeAt := timing.timerStart }

/-- If a run has kept its timer, it has armed the output for its first edge. -/
def Arms (agenda : Agenda) (m : Machine) : Prop :=
  m.timerArmed = true → ∃ timing, TimedFor agenda timing ∧ m.agenda = agenda.primed timing

theorem Arms.untimed (m : Machine) (off : m.timerArmed = false) : Arms agenda m :=
  fun on => absurd on (by simp [off])

theorem agenda_arm_output (firstEdgeNs primeEdgeNs : Int) :
    Triple undisturbed (fun m => m.agenda = agenda)
      (armOutput firstEdgeNs primeEdgeNs agenda.desired.highTimeNs agenda.desired.lowTimeNs
        .software)
      fun status m => status = .ok () → m.agenda = { agenda with
        cadence := ⟨.firstRising, agenda.cadence.gen, agenda.desired.highTimeNs,
          agenda.desired.lowTimeNs, firstEdgeNs, .rise⟩ } := by
  apply (agenda_incidental (rearm_stop_uses incidental_folding (fun _ _ _ => trivial)
    fun _ _ => trivial)).bind
  intro _
  rw [if_neg (by decide)]
  apply (agenda_sample _).bind
  intro edgeBits
  apply Triple.given
  intro _
  apply (agenda_incidental (edge_program_uses incidental_folding.toReading
    (fun _ _ => trivial) _ _)).bind
  intro status
  cases status with
  | error status =>
      apply Triple.via fun _ _ => True
      · exact fun s _ => (Triple.alone_uses (fun _ _ _ _ _ _ _ => trivial) (uses_true _)) s trivial
      · exact fun _ => .alone_pure fun _ _ failed => by contradiction
  | ok _ =>
      apply Triple.via fun _ m => m.agenda = { agenda with
        cadence := ⟨.firstRising, agenda.cadence.gen, agenda.desired.highTimeNs,
          agenda.desired.lowTimeNs, firstEdgeNs, .rise⟩ }
      · apply Triple.alone_call
        intro m reply m' same step
        cases step
        rw [← same]
        rfl
      intro _
      apply (agenda_op (.readl .ctl) trivial).bind
      intro ctrl
      apply (agenda_op (.writel .ctl _) trivial).bind
      intro _
      exact .alone_pure fun _ same _ => same

theorem agenda_reconcile_arm (software : agenda.desired.mode = .software) :
    Triple undisturbed (fun m => m.agenda = agenda) (reconcileArm agenda.desired)
      fun _ => Arms agenda := by
  have prepares := @agenda_prepare agenda
  rw [← software] at prepares
  apply prepares.bind
  intro answer
  apply Triple.given
  intro timed
  cases answer with
  | error status => exact gives_up Arms.untimed
  | ok timing =>
      rw [software]
      apply (agenda_arm_output timing.firstEdgeNs timing.primeEdgeNs).bind
      intro status
      cases status with
      | error status => exact gives_up Arms.untimed
      | ok _ =>
          apply Triple.via fun _ m =>
            m.agenda = { agenda.primed timing with wakeAt := agenda.wakeAt }
          · apply Triple.alone_call
            intro m reply m' armed step
            cases step
            change { m.agenda with
              cadence := { m.agenda.cadence with gen := agenda.desired.gen } } = _
            rw [armed rfl]
            rfl
          · intro _
            apply (agenda_wake_at _).post
            exact fun _ m same _ => ⟨timing, timed timing rfl, same.2⟩

/-- A run that finds a new configuration for the software path. -/
theorem agenda_arms {flipGen : BitVec 32} (running : agenda.desired.run = .running)
    (software : agenda.desired.mode = .software) (other : agenda.desired.gen ≠ agenda.cadence.gen)
    (calm : agenda.cadence.phase ≠ .hwDuty ∨
      (agenda.desired.flipGen - flipGen).getLsbD 0 = false) :
    Triple undisturbed (fun m => m.agenda = agenda ∧ m.block.outputAppliedFlipGen = flipGen)
      outputWork fun _ => Arms agenda := by
  apply Triple.via fun desired m => desired = agenda.desired ∧
    m.agenda = agenda ∧ m.block.outputAppliedFlipGen = flipGen
  · apply Triple.alone_call
    intro m desired m' holds step
    cases step
    exact ⟨congrArg Agenda.desired holds.1, holds⟩
  intro desired
  apply Triple.given
  rintro rfl
  rw [if_neg (by simp [running])]
  apply (agenda_apply_flip calm).bind
  intro _
  apply agenda_load.bind
  intro block
  apply Triple.given
  rintro ⟨cadence, -⟩
  have applied : block.outputAppliedGen = agenda.cadence.gen := by rw [← cadence]; rfl
  rw [if_pos (by rw [applied]; exact other)]
  exact agenda_reconcile_arm software

/-- A run that finds its configuration applied. -/
theorem agenda_serves (running : agenda.desired.run = .running)
    (applied : agenda.desired.gen = agenda.cadence.gen) (software : agenda.cadence.software) :
    Triple undisturbed (fun m => m.agenda = agenda) outputWork fun _ => Serves agenda := by
  apply agenda_desired.bind_known
  rw [if_neg (by simp [running])]
  have notDuty : agenda.cadence.phase ≠ .hwDuty := by
    rcases software with first | later
    · simp [first]
    · simp [later]
  apply Triple.via fun _ m => m.agenda = agenda
  · intro m same
    exact (agenda_apply_flip (Or.inl notDuty)) m ⟨same, rfl⟩
  intro _
  apply agenda_load.bind
  intro block
  apply Triple.given
  rintro ⟨cadence, -⟩
  have same : block.outputAppliedGen = agenda.cadence.gen := by rw [← cadence]; rfl
  rw [if_neg (by rw [same]; exact fun other => other applied)]
  exact agenda_service_output software _

end run

/-! ## Runs at their wake times -/

def Machine.clockNs (m : Machine) : Int :=
  match clockNowNs m.params m.clocks with
  | .ok now => now
  | .error _ => 0

def Machine.wakePlan (m : Machine) : WakePlan where
  nowNs := m.clockNs
  realNs := m.clocks.real
  ppb := scaledPpmToPpb m.clocks.phc.scaledPpm
  firstNs := outputAlignFirstEdge m.desired.firstEdgeNs
    (m.clockNs + 3 * armLeadNs .software
      (outputMinIntervalNs m.desired.highTimeNs m.desired.lowTimeNs)) m.desired.periodNs
  highNs := m.desired.highTimeNs
  lowNs := m.desired.lowTimeNs

/-- A run of the work has taken up a configuration for the software path, on a
model's clock. A change of sense that is pending for a duty cycle is left out: it
arms the output itself, and the same run then programs the first edge. -/
structure SoftwareArmed (before after : Machine) : Prop where
  model : before.params.clockUsesModel = true
  modest : Modest before.clocks.phc.baseArtHz (scaledPpmToPpb before.clocks.phc.scaledPpm)
  anchor : -(2 ^ 63) ≤ before.clocks.phc.anchorNs ∧ before.clocks.phc.anchorNs < 2 ^ 63
  real : -(2 ^ 63) ≤ before.clocks.real
  running : before.desired.run = .running
  software : before.desired.mode = .software
  high : 0 < before.desired.highTimeNs ∧ before.desired.highTimeNs ≤ s64Max
  low : 0 < before.desired.lowTimeNs ∧ before.desired.lowTimeNs ≤ s64Max
  request : before.desired.firstEdgeNs ≤ s64Max
  other : before.desired.gen ≠ before.block.outputAppliedGen
  calm : before.block.outputPhase ≠ .hwDuty ∨
    (before.desired.flipGen - before.block.outputAppliedFlipGen).getLsbD 0 = false
  ran : Executes undisturbed outputWork before () after

/-- The armed timer has expired on time: `CLOCK_REALTIME` is at the wake-up. The
hardware has gone on, the rate of the clock has stayed. -/
structure OnTime (m m' : Machine) : Prop where
  waits : m.timerArmed = true
  real : m'.clocks.real = m.block.outputWakeAt
  phc : m'.clocks.phc = m.clocks.phc
  params : m'.params = m.params
  desired : m'.desired = m.desired
  block : m'.block = m.block

/-- The machine before its wake-up for an edge, every run since the arm that left
`first` having come on time. -/
inductive Wakes (first : Machine) : Nat → Machine → Prop where
  | armed : Wakes first 0 first
  | wake {edge : Nat} {m due after : Machine} : Wakes first edge m → OnTime m due →
      Executes undisturbed outputWork due () after → Wakes first (edge + 1) after

/-- The times of an edge and of its wake-up are 64-bit ones. -/
def WakePlan.InRange (plan : WakePlan) (edge : Nat) : Prop :=
  plan.edgeNs edge < 2 ^ 63 ∧ plan.wakeNs edge < 2 ^ 63

instance (plan : WakePlan) (edge : Nat) : Decidable (plan.InRange edge) :=
  inferInstanceAs (Decidable (_ ∧ _))

theorem WakePlan.InRange.earlier {plan : WakePlan} {edge : Nat} (range : plan.InRange (edge + 1)) :
    plan.InRange edge := by
  have edges : plan.edgeNs (edge + 1) = plan.edgeNs edge + plan.intervalNs edge := rfl
  have wakes : plan.wakeNs (edge + 1) =
      plan.wakeNs edge + undoneNs plan.ppb (plan.intervalNs edge) := rfl
  unfold InRange at range ⊢
  omega

theorem WakePlan.first_le_edge (plan : WakePlan) (edge : Nat) :
    plan.firstNs ≤ plan.edgeNs edge := by
  induction edge with
  | zero => exact le_rfl
  | succ edge ih => exact ih.trans (Int.le_add_of_nonneg_right (Int.natCast_nonneg _))

theorem WakePlan.real_le_wake (plan : WakePlan) (edge : Nat) :
    plan.realNs ≤ plan.wakeNs edge := by
  induction edge with
  | zero => exact Int.le_add_of_nonneg_right (Int.natCast_nonneg _)
  | succ edge ih => exact ih.trans (Int.le_add_of_nonneg_right (Int.natCast_nonneg _))

section wakes

variable {before first m due after : Machine} {edge : Nat}

/-- The machine waits for the wake-up of an edge of the plan. -/
structure Ready (before : Machine) (edge : Nat) (m : Machine) : Prop where
  running : m.desired.run = .running
  applied : m.desired.gen = m.block.outputAppliedGen
  software : m.block.cadence.software
  high : m.block.outputHighTimeNs = before.wakePlan.highNs
  low : m.block.outputLowTimeNs = before.wakePlan.lowNs
  kind : m.block.outputNextEdgeType = edgeKind edge
  nextEdge : m.block.outputNextEdge = before.wakePlan.edgeNs edge
  wakeAt : m.block.outputWakeAt = before.wakePlan.wakeNs edge
  params : m.params = before.params
  phc : m.clocks.phc = before.clocks.phc

theorem Ready.onTime (ready : Ready before edge m) (onTime : OnTime m due) :
    Ready before edge due := by
  constructor
  · exact onTime.desired ▸ ready.running
  · exact onTime.desired ▸ onTime.block ▸ ready.applied
  · exact onTime.block ▸ ready.software
  · exact onTime.block ▸ ready.high
  · exact onTime.block ▸ ready.low
  · exact onTime.block ▸ ready.kind
  · exact onTime.block ▸ ready.nextEdge
  · exact onTime.block ▸ ready.wakeAt
  · exact onTime.params.trans ready.params
  · exact onTime.phc.trans ready.phc

theorem wake_for_of_range {real : Int} {delay : Nat} (lower : -(2 ^ 63) ≤ real)
    (upper : real + delay < 2 ^ 63) : wakeFor real delay = real + delay := by
  unfold wakeFor
  rw [to_s64_of_range (by omega) upper, if_neg (by omega)]

theorem model_delta_eq {params : Params} {clocks : Clocks} {ns real : Nat}
    (model : params.clockUsesModel = true)
    (modest : Modest clocks.phc.baseArtHz (scaledPpmToPpb clocks.phc.scaledPpm)) (some_ : 0 < ns)
    (within : ns ≤ s64Max) (converted : clockDeltaToRealNs params clocks ns = .ok real) :
    real = undoneNs (scaledPpmToPpb clocks.phc.scaledPpm) ns := by
  rw [clockDeltaToRealNs, if_pos model] at converted
  have exact_ := phc_delta_to_real_eq modest (Int.natCast_pos.mpr some_)
    (Int.ofNat_le.mpr within) converted
  rwa [Int.toNat_natCast] at exact_

theorem SoftwareArmed.reading {now : Int} (armed : SoftwareArmed before first)
    (read : clockNowNs before.params before.clocks = .ok now) :
    before.clockNs = now ∧ now < 2 ^ 63 := by
  refine ⟨by rw [Machine.clockNs, read], ?_⟩
  rw [clockNowNs, if_pos armed.model, clockPhcNowNs] at read
  split at read
  · contradiction
  · exact (phc_art_to_ns_range armed.anchor read).2

/-- The first edge leaves time for its wake-up. -/
theorem SoftwareArmed.planned {timing : OutputTiming} (armed : SoftwareArmed before first)
    (timed : TimedFor before.agenda timing) :
    timing.firstEdgeNs = before.wakePlan.firstNs ∧
      0 ≤ before.wakePlan.firstNs ∧ before.wakePlan.firstNs ≤ s64Max ∧
      before.wakePlan.nowNs ≤ before.wakePlan.firstNs - before.wakePlan.leadNs ∧
      (before.wakePlan.InRange 0 → timing.timerStart = before.wakePlan.wakeNs 0) := by
  obtain ⟨delay, real, planned, slept, starts⟩ := timed
  obtain ⟨now, read, started, room, firstEdge, isDelay⟩ := output_timing_plan_eq planned
  obtain ⟨shows, small⟩ := armed.reading read
  have isNow : before.wakePlan.nowNs = now := shows
  have isFirst : timing.firstEdgeNs = before.wakePlan.firstNs := by
    rw [firstEdge, ← shows]
    rfl
  have range := @output_align_first_edge_range before.desired.firstEdgeNs
    (now + 3 * before.wakePlan.leadNs) before.desired.periodNs armed.request (by omega) (room small)
  have firstIs : before.wakePlan.firstNs = outputAlignFirstEdge before.desired.firstEdgeNs
      (now + 3 * before.wakePlan.leadNs) before.desired.periodNs := by
    rw [← shows]
    rfl
  have lead := @WakePlan.lead_positive before.wakePlan
  have delayIs : delay = before.wakePlan.delayNs := by
    have sum : delay = timing.firstEdgeNs - before.wakePlan.leadNs - now := isDelay
    rw [WakePlan.delayNs, isNow, sum, isFirst, Int.toNat_of_nonneg (by omega)]
  refine ⟨isFirst, by omega, by omega, by omega, fun inRange => ?_⟩
  rw [delayIs] at slept
  have realIs := model_delta_eq armed.model armed.modest (by unfold WakePlan.delayNs; omega)
    (by unfold WakePlan.delayNs; omega) slept
  rw [starts, realIs]
  exact wake_for_of_range armed.real inRange.2

theorem SoftwareArmed.ready (armed : SoftwareArmed before first) (waits : first.timerArmed = true)
    (range : before.wakePlan.InRange 0) : Ready before 0 first := by
  obtain ⟨timing, timed, primed⟩ :=
    (@agenda_arms before.agenda before.block.outputAppliedFlipGen armed.running armed.software
      armed.other armed.calm).ends ⟨rfl, rfl⟩ armed.ran waits
  obtain ⟨firstIs, -, -, -, starts⟩ := armed.planned timed
  have cadence : first.block.cadence = (before.agenda.primed timing).cadence :=
    congrArg Agenda.cadence primed
  have desired : first.desired = before.desired := congrArg Agenda.desired primed
  constructor
  · exact (congrArg OutputDesired.run desired).trans armed.running
  · exact (congrArg OutputDesired.gen desired).trans (congrArg Cadence.gen cadence).symm
  · exact .inl (congrArg Cadence.phase cadence)
  · exact congrArg Cadence.highTimeNs cadence
  · exact congrArg Cadence.lowTimeNs cadence
  · exact congrArg Cadence.nextEdgeType cadence
  · exact (congrArg Cadence.nextEdge cadence).trans firstIs
  · exact (congrArg Agenda.wakeAt primed).trans (starts range)
  · exact congrArg Agenda.params primed
  · exact congrArg (fun agenda => agenda.clocks.phc) primed

theorem interval_bounds (armed : SoftwareArmed before first) (edge : Nat) :
    0 < before.wakePlan.intervalNs edge ∧ before.wakePlan.intervalNs edge ≤ s64Max := by
  unfold WakePlan.intervalNs
  split
  · exact armed.high
  · exact armed.low

/-- The run at a wake-up makes the machine wait for the next one. -/
theorem Ready.next (armed : SoftwareArmed before first) (started : 0 ≤ before.wakePlan.firstNs)
    (ready : Ready before edge due)
    (ran : Executes undisturbed outputWork due () after) (waits : after.timerArmed = true)
    (range : before.wakePlan.InRange (edge + 1)) : Ready before (edge + 1) after := by
  obtain ⟨real, converted, served⟩ :=
    ((@agenda_serves due.agenda ready.running ready.applied ready.software).ends rfl ran).served
      waits
  have interval : due.agenda.cadence.intervalNs = before.wakePlan.intervalNs edge := by
    change (if due.block.outputNextEdgeType = .rise then due.block.outputHighTimeNs
      else due.block.outputLowTimeNs) = _
    rw [ready.kind, ready.high, ready.low]
    rfl
  obtain ⟨some_, within⟩ := interval_bounds armed edge
  have isReal : real = undoneNs before.wakePlan.ppb (before.wakePlan.intervalNs edge) := by
    have params : due.agenda.params = before.params := ready.params
    have phc : due.agenda.clocks.phc = before.clocks.phc := ready.phc
    have model := armed.model
    have modest := armed.modest
    rw [interval, to_s64_of_range (by omega) (by unfold s64Max at within; omega)] at converted
    rw [← params] at model
    rw [← phc] at modest
    rw [model_delta_eq model modest some_ within converted, phc]
    rfl
  have cadence : after.block.cadence = due.block.cadence.advanced :=
    congrArg Agenda.cadence served
  have desired : after.desired = due.desired := congrArg Agenda.desired served
  constructor
  · exact (congrArg OutputDesired.run desired).trans ready.running
  · exact (congrArg OutputDesired.gen desired).trans
      (ready.applied.trans (congrArg Cadence.gen cadence).symm)
  · exact .inr (congrArg Cadence.phase cadence)
  · exact (congrArg Cadence.highTimeNs cadence).trans ready.high
  · exact (congrArg Cadence.lowTimeNs cadence).trans ready.low
  · rw [edge_kind_succ, ← ready.kind]
    exact congrArg Cadence.nextEdgeType cadence
  · have isNext : after.block.outputNextEdge =
        toS64 (due.block.outputNextEdge + (due.agenda.cadence.intervalNs : Nat)) :=
      congrArg Cadence.nextEdge cadence
    have edges := before.wakePlan.first_le_edge (edge + 1)
    rw [isNext, ready.nextEdge, interval]
    exact to_s64_of_range (by change _ ≤ before.wakePlan.edgeNs (edge + 1); omega) range.1
  · have isWake : after.block.outputWakeAt = toS64 (due.block.outputWakeAt + real) :=
      congrArg Agenda.wakeAt served
    have wakes := before.wakePlan.real_le_wake (edge + 1)
    have real := armed.real
    rw [isWake, ready.wakeAt, isReal]
    exact to_s64_of_range (real.trans wakes) range.2
  · exact (congrArg Agenda.params served).trans ready.params
  · exact (congrArg (fun agenda => agenda.clocks.phc) served).trans ready.phc

/-- Runs of an output that is armed leave time for the first wake-up. -/
theorem SoftwareArmed.ahead (armed : SoftwareArmed before first) (waits : first.timerArmed = true) :
    0 ≤ before.wakePlan.firstNs ∧
      before.wakePlan.nowNs ≤ before.wakePlan.firstNs - before.wakePlan.leadNs := by
  obtain ⟨timing, timed, -⟩ :=
    (@agenda_arms before.agenda before.block.outputAppliedFlipGen armed.running armed.software
      armed.other armed.calm).ends ⟨rfl, rfl⟩ armed.ran waits
  obtain ⟨-, started, -, ahead, -⟩ := armed.planned timed
  exact ⟨started, ahead⟩

theorem Wakes.firstWaits (wakes : Wakes first edge m) (waits : m.timerArmed = true) :
    first.timerArmed = true := by
  induction wakes with
  | armed => exact waits
  | wake _ onTime _ ih => exact ih onTime.waits

/-- The machine keeps to the plan for as long as its times fit. -/
theorem Wakes.ready (armed : SoftwareArmed before first) (wakes : Wakes first edge m)
    (waits : m.timerArmed = true) (range : before.wakePlan.InRange edge) : Ready before edge m := by
  induction wakes with
  | armed => exact armed.ready waits range
  | wake earlier onTime ran ih =>
      have started := (armed.ahead (earlier.firstWaits onTime.waits)).1
      exact ((ih onTime.waits range.earlier).onTime onTime).next armed started ran waits range

/-- The wake-up that comes next is later than the edge before its own, and
earlier than its own. -/
structure Leads (plan : WakePlan) (m after : Machine) : Prop where
  afterEdge : plan.realTime m.block.outputNextEdge < after.block.outputWakeAt
  beforeEdge : (after.block.outputWakeAt : ℚ) < plan.realTime after.block.outputNextEdge

theorem rate_positive (armed : SoftwareArmed before first) : 0 < before.wakePlan.rate := by
  have slow := armed.modest.slow
  unfold phcMaxAdjPpb at slow
  change 0 < ((nsecPerSec : Int) + scaledPpmToPpb before.clocks.phc.scaledPpm).toNat
  unfold nsecPerSec
  omega

/-- Every wake-up comes before its edge, and the run at a wake-up sets the next one
exactly if its times convert. That one comes after the edge before as long as
the interval between outlasts the lead and what the conversions have dropped, and
so for good just where the intervals convert exactly. -/
theorem software_lead_kept_iff (armed : SoftwareArmed before first) :
    (first.timerArmed = true → before.wakePlan.InRange 0 →
      (first.block.outputWakeAt : ℚ) < before.wakePlan.realTime first.block.outputNextEdge) ∧
    (∀ edge m due after, Wakes first edge m → OnTime m due →
      Executes undisturbed outputWork due () after → before.wakePlan.InRange edge →
        (after.timerArmed = true ↔ due.agenda.Converts)) ∧
    (∀ edge m due after, Wakes first edge m → OnTime m due →
      Executes undisturbed outputWork due () after → after.timerArmed = true →
      before.wakePlan.InRange (edge + 1) →
        (Leads before.wakePlan m after ↔ before.wakePlan.Keeps edge)) ∧
    ((∀ edge, before.wakePlan.Keeps edge) ↔
      before.wakePlan.lost before.desired.highTimeNs = 0 ∧
      before.wakePlan.lost before.desired.lowTimeNs = 0 ∧
      before.wakePlan.leadNs * nsecPerSec + before.wakePlan.lost before.wakePlan.delayNs <
        min before.desired.highTimeNs before.desired.lowTimeNs * nsecPerSec) := by
  have positive := rate_positive armed
  refine ⟨fun waits range => ?_, fun edge m due after wakes onTime ran range => ?_,
    fun edge m due after wakes onTime ran waits range => ?_, WakePlan.keeps_always_iff⟩
  · have ready := armed.ready waits range
    rw [ready.wakeAt, ready.nextEdge]
    exact WakePlan.wake_before_edge positive (armed.ahead waits).2 0
  · have ready := (wakes.ready armed onTime.waits range).onTime onTime
    exact ((@agenda_serves due.agenda ready.running ready.applied ready.software).ends rfl ran).waits
  · have ahead := (armed.ahead (wakes.firstWaits onTime.waits)).2
    have ready := wakes.ready armed onTime.waits range.earlier
    have next := (wakes.wake onTime ran).ready armed waits range
    rw [← WakePlan.wake_after_edge_iff positive ahead, ← ready.nextEdge, ← next.wakeAt]
    refine ⟨Leads.afterEdge, fun later => ⟨later, ?_⟩⟩
    rw [next.wakeAt, next.nextEdge]
    exact WakePlan.wake_before_edge positive ahead (edge + 1)

end wakes

section runs

/-- A crystal of 38.4 MHz, two seconds after its anchor, and a request for the
software path that is due half a second later. -/
def askedFor (scaledPpm : Int) (halfNs : Nat) : Machine :=
  let clocks : Clocks :=
    { steadyClocks 76800000 two_seconds_in_range with
      phc := phcParamsMake 0 0 38400000 scaledPpm
      real := 2000000000
      anchorInRange := zero_in_range }
  let params := { defaultParams with hardwarePeriodicOutput := false }
  let m := Machine.zeroed params clocks ⟨0, 0, 0⟩ false
  { m with desired :=
    (Publish.configure .running .software (2 * halfNs) halfNs halfNs 2500000000).update m.desired }

/-- The timer of a machine expires on time. -/
def Machine.atWake (m : Machine) : Machine :=
  { m with
    timerArmed := false
    clocks := { m.clocks with
      real := m.block.outputWakeAt
      art := u64 (m.block.outputWakeAt.toNat * 384 / 10000)
      artInRange := Nat.mod_lt _ (Nat.two_pow_pos 64) } }

def Machine.worked (m : Machine) : Machine := finalState Machine.perform 100 [] outputWork m

theorem worked_executes {m : Machine}
    (ends : (exec Machine.perform 100 [] outputWork m).map Prod.fst = some ()) :
    Executes undisturbed outputWork m () m.worked :=
  exec_final (fun _ _ _ _ step => step) 100 [] (by simp) outputWork m () ends

def Machine.woken (m : Machine) : Nat → Machine
  | 0 => m.worked
  | edges + 1 => (m.woken edges).atWake.worked

theorem at_wake_on_time {m : Machine} (waits : m.timerArmed = true) : OnTime m m.atWake :=
  ⟨waits, rfl, rfl, rfl, rfl, rfl⟩

theorem asked_for_armed {scaledPpm : Int} {halfNs : Nat}
    (modest : Modest 38400000 (scaledPpmToPpb scaledPpm)) (half : 0 < halfNs ∧ halfNs ≤ s64Max)
    (ends : (exec Machine.perform 100 [] outputWork (askedFor scaledPpm halfNs)).map Prod.fst =
      some ()) :
    SoftwareArmed (askedFor scaledPpm halfNs) ((askedFor scaledPpm halfNs).woken 0) where
  model := rfl
  modest := modest
  anchor := (by decide : -(2 ^ 63) ≤ (0 : Int) ∧ (0 : Int) < 2 ^ 63)
  real := (by decide : -(2 ^ 63) ≤ (2000000000 : Int))
  running := rfl
  software := rfl
  high := half
  low := half
  request := (by decide : (2500000000 : Int) ≤ s64Max)
  other := (by decide : (0 : BitVec 32) + 1 ≠ 0)
  calm := .inl (by decide : OutputPhase.armPeriodic ≠ .hwDuty)
  ran := worked_executes ends

theorem seconds_armed : SoftwareArmed (askedFor 0 500000000) ((askedFor 0 500000000).woken 0) :=
  asked_for_armed ⟨by decide, by decide, by decide, by decide⟩ (by decide) (by decide +kernel)

theorem software_lead_kept_iff_seconds :
    (∀ edge, (askedFor 0 500000000).wakePlan.Keeps edge) ∧
      Leads (askedFor 0 500000000).wakePlan ((askedFor 0 500000000).woken 0)
        ((askedFor 0 500000000).woken 1) := by
  obtain ⟨-, rearms, leads, always⟩ := software_lead_kept_iff seconds_armed
  have keeps := always.mpr (by decide +kernel)
  have onTime : OnTime ((askedFor 0 500000000).woken 0) ((askedFor 0 500000000).woken 0).atWake :=
    at_wake_on_time (by decide +kernel)
  have ran : Executes undisturbed outputWork ((askedFor 0 500000000).woken 0).atWake ()
      ((askedFor 0 500000000).woken 1) := worked_executes (by decide +kernel)
  have waits := (rearms 0 _ _ _ .armed onTime ran (by decide +kernel)).mpr
    ⟨by decide +kernel, 500000000, by decide +kernel, by decide⟩
  exact ⟨keeps, (leads 0 _ _ _ .armed onTime ran waits (by decide +kernel)).mpr (keeps 0)⟩

/-- Halves of 4 ns, on a clock that is one part in 10^9 fast. -/
def tinyHalves : Machine := askedFor 66 4

/-- The wake-up for the fourth edge comes before the third. -/
theorem tiny_halves_overtaken :
    SoftwareArmed tinyHalves (tinyHalves.woken 0) ∧
      Wakes (tinyHalves.woken 0) 2 (tinyHalves.woken 2) ∧
      OnTime (tinyHalves.woken 2) (tinyHalves.woken 2).atWake ∧
      Executes undisturbed outputWork (tinyHalves.woken 2).atWake () (tinyHalves.woken 3) ∧
      (tinyHalves.woken 3).timerArmed = true ∧ tinyHalves.wakePlan.InRange 3 ∧
      ((tinyHalves.woken 3).block.outputWakeAt : ℚ) <
        tinyHalves.wakePlan.realTime (tinyHalves.woken 2).block.outputNextEdge := by
  have armed : SoftwareArmed tinyHalves (tinyHalves.woken 0) :=
    asked_for_armed ⟨by decide, by decide, by decide, by decide⟩ (by decide) (by decide +kernel)
  have wakes (edge : Nat) (earlier : Wakes (tinyHalves.woken 0) edge (tinyHalves.woken edge))
      (waits : (tinyHalves.woken edge).timerArmed = true)
      (ends : (exec Machine.perform 100 [] outputWork (tinyHalves.woken edge).atWake).map Prod.fst =
        some ()) : Wakes (tinyHalves.woken 0) (edge + 1) (tinyHalves.woken (edge + 1)) :=
    earlier.wake (at_wake_on_time waits) (worked_executes ends)
  have second := wakes 0 .armed (by decide +kernel) (by decide +kernel)
  have third := wakes 1 second (by decide +kernel) (by decide +kernel)
  refine ⟨armed, third, at_wake_on_time (by decide +kernel), worked_executes (by decide +kernel),
    by decide +kernel, by decide +kernel, ?_⟩
  decide +kernel

end runs

end Tgpio

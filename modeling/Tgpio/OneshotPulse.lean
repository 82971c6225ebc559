import Tgpio.PulseSchedule
import Tgpio.PulseTimes
import Tgpio.Oneshots

/-!
# One pulse

An accepted one-shot on an idle output, followed through its arm, its two edges
and its stop. The stop is scheduled from the start asked for; the arm may move
that start to a later slot of the grid.
-/

namespace Tgpio

open Interference Interference.Prog Scaling

set_option autoImplicit false

section runs

variable {m : Machine} {block : MmioBlock} {regs : Regs} {flop : Bool} {params : Params}
  {clocks : Clocks}

theorem achieves_no_flip {desired : OutputDesired}
    (unflipped : (desired.flipGen - m.block.outputAppliedFlipGen).getLsbD 0 = false) :
    Achieves Machine.awake (fun s => s = m) (applyFlip desired)
      fun _ s => s = { m with block := appliedFlip desired m.block } := by
  have loads : Achieves Machine.awake (fun s => s = m) loadBlock
      fun answer s => answer = m.block ∧ s = m :=
    Achieves.call fun s same => ⟨s.block, s, rfl, congrArg Machine.block same, same⟩
  refine Achieves.bind_known loads ?_
  rw [if_neg (by rw [unflipped]; exact Bool.false_ne_true)]
  refine Achieves.call fun s same => ⟨(), _, rfl, ?_⟩
  rw [same]

/-- A run of the work that finds its output running, no flip to apply, and
`rest` to do. -/
theorem work_begins {post : Machine → Prop} {rest : Driver Unit}
    (running : m.desired.run = .running)
    (unflipped : (m.desired.flipGen - m.block.outputAppliedFlipGen).getLsbD 0 = false)
    (continues : (if m.desired.gen ≠ m.block.outputAppliedGen then reconcileArm m.desired
      else serviceOutput m.desired) = rest)
    (ends : Achieves Machine.awake
      (fun s => s = { m with block := appliedFlip m.desired m.block }) rest fun _ => post) :
    Achieves Machine.awake (fun s => s = m) outputWork fun _ => post := by
  have asked : Achieves Machine.awake (fun s => s = m) outputDesiredGet
      fun answer s => answer = m.desired ∧ s = m :=
    Achieves.call fun s same => ⟨s.desired, s, rfl, congrArg Machine.desired same, same⟩
  have loads : Achieves Machine.awake
      (fun s => s = { m with block := appliedFlip m.desired m.block }) loadBlock
      fun answer s => answer = appliedFlip m.desired m.block ∧
        s = { m with block := appliedFlip m.desired m.block } :=
    Achieves.call fun s same => ⟨s.block, s, rfl, congrArg Machine.block same, same⟩
  refine Achieves.bind_known asked ?_
  rw [if_neg (by simp [running])]
  refine Achieves.bind (achieves_no_flip unflipped) fun _ => ?_
  refine Achieves.bind_known loads ?_
  change Achieves _ _ (if m.desired.gen ≠ m.block.outputAppliedGen then _ else _) _
  rw [continues]
  exact ends

theorem untimed_keeps (op : Op) (s : Machine) (reply : op.Resp) (t : Machine) (untimed : Untimed op)
    (answered : Machine.awake op s = some (reply, t)) (off : s.timerArmed = false) :
    t.timerArmed = false :=
  untimed_performs op s reply t untimed (awake_performs answered) off

theorem arm_periodic_uses (firstEdgeNs : Int) (halfNs : Nat) :
    Uses Untimed (armHardwarePeriodic firstEdgeNs halfNs halfNs) := by
  have one (op : Op) (untimed : Untimed op) : Uses Untimed (perform op : Driver op.Resp) :=
    (uses_perform op).mpr untimed
  refine Uses.seq (one _ trivial) fun firstArt => ?_
  refine Uses.seq (one _ trivial) fun highArt => ?_
  refine Uses.seq (one _ trivial) fun lowArt => ?_
  split
  · exact uses_pure _
  refine Uses.seq (stop_for_rearm_uses untimed_halting) fun ctrl => ?_
  refine Uses.seq (one _ trivial) fun _ => ?_
  refine Uses.seq (one _ trivial) fun block => ?_
  refine Uses.seq (one _ trivial) fun nowArt => ?_
  refine Uses.seq (one _ trivial) fun margin => ?_
  split
  · exact uses_pure _
  refine Uses.seq ?_ fun _ => uses_pure _
  refine Uses.seq (one _ trivial) fun _ => ?_
  refine Uses.seq (write_piv_uses _ fun _ _ _ => trivial) fun _ => ?_
  refine Uses.seq (write_compv_uses _ fun _ _ _ => trivial) fun _ => ?_
  refine Uses.seq (one _ trivial) fun _ => ?_
  refine Uses.seq (one _ trivial) fun _ => ?_
  rw [if_neg fun differ => differ rfl]
  exact uses_pure _

theorem achieves_fire {halfNs first cycles nowArt margin : Nat}
    (running : m.desired.run = .running)
    (unflipped : (m.desired.flipGen - m.block.outputAppliedFlipGen).getLsbD 0 = false)
    (applied : m.desired.gen = m.block.outputAppliedGen)
    (fresh : m.desired.freqGen = m.block.outputAppliedFreqGen)
    (phase : m.block.outputPhase = .armPeriodic)
    (halves : m.block.outputHighTimeNs = halfNs ∧ m.block.outputLowTimeNs = halfNs)
    (idle : m.block.outputHwPiv = 0) (low : m.block.outputHwFlopHigh = false)
    (untimed : m.timerArmed = false)
    (firstArt : clockNsToCompareArt m.params m.clocks m.block.outputNextEdge = .ok first)
    (counted : clockDeltaToArtCycles m.params m.clocks (toS64 halfNs) = .ok cycles)
    (fits : cycles ≠ 0 ∧ cycles ≤ u64Max / 4) (now : getCurrentArt m.clocks = .ok nowArt)
    (late : clockDeltaToArtCycles m.params m.clocks (2 * nsecPerMsec : Nat) = .ok margin)
    (ahead : nowArt + margin ≤ first) :
    Achieves Machine.awake (fun s => s = m) outputWork fun _ s =>
      Standing (armed m.block.outputNextEdge halfNs halfNs first cycles
          (appliedFlip m.desired m.block))
        ⟨ctlWith (ctlWith (rearmCtl m.regs.ctl) (ctlEpToggle ||| ctlPm)) ctlEn,
          BitVec.ofNat 64 first, BitVec.ofNat 64 cycles⟩ m.flop m.params m.clocks s ∧
        s.timerArmed = false := by
  have served : (if m.desired.gen ≠ m.block.outputAppliedGen then reconcileArm m.desired
      else serviceOutput m.desired) = serviceOutput m.desired := if_neg fun other => other applied
  refine work_begins running unflipped served ?_
  generalize isFlipped : appliedFlip m.desired m.block = flipped
  have flippedFolded (compv : Nat) : folded compv flipped = flipped := by
    rw [← isFlipped]
    exact if_pos idle
  have loads : Achieves Machine.awake (fun s => s = { m with block := flipped }) loadBlock
      fun answer s => answer = flipped ∧ s = { m with block := flipped } :=
    Achieves.call fun s same => ⟨s.block, s, rfl, congrArg Machine.block same, same⟩
  have arms := (@achieves_arm_periodic (fun _ _ => none) flipped m.regs m.flop m.params m.clocks
    m.block.outputNextEdge halfNs first cycles nowArt margin
    (by rw [flippedFolded, ← isFlipped]; exact low) firstArt counted fits now late ahead).keeping
    untimed_keeps (arm_periodic_uses _ _)
  rw [flippedFolded] at arms
  refine Achieves.bind_known loads ?_
  rw [if_neg (by rw [← isFlipped]; exact fun other => other fresh)]
  refine Achieves.bind_known loads ?_
  have armPhase : flipped.outputPhase = .armPeriodic := by
    rw [← isFlipped]
    exact phase
  have same : flipped.outputNextEdge = m.block.outputNextEdge ∧
      flipped.outputHighTimeNs = halfNs ∧ flipped.outputLowTimeNs = halfNs := by
    rw [← isFlipped]
    exact ⟨rfl, halves⟩
  rw [armPhase, same.1, same.2.1, same.2.2]
  intro s exact_
  obtain ⟨status, t, ran, reached⟩ := arms s ⟨⟨by rw [exact_], by rw [exact_], by rw [exact_],
    by rw [exact_], by rw [exact_]⟩, by rw [exact_]; exact untimed⟩
  obtain ⟨⟨rfl, standing⟩, off⟩ := reached
  exact ⟨(), t, ran.sequence (.ret .refl), standing, off⟩

/-- The drain of a stop that takes the line to be low, or has nothing to drain. -/
theorem achieves_short_drain
    (low : folds block → (folded regs.compv.toNat block).outputHwFlopHigh = false) :
    Achieves Machine.awake (Standing block regs flop params clocks) hwPeriodicDrainLow
      fun _ s => ∃ block, Standing block regs flop params clocks s := by
  refine Achieves.bind_known achieves_load ?_
  split
  · exact Achieves.pure fun _ standing => ⟨_, standing⟩
  · rename_i folding
    have isFolding : folds block := by
      unfold folds
      refine ⟨fun zero => folding (.inr zero), ?_⟩
      by_contra other
      exact folding (.inl ⟨fun periodic => other (.inr periodic), fun duty => other (.inl duty)⟩)
    refine Achieves.bind achieves_fold fun _ => ?_
    intro s standing
    refine achieves_low_rounds (fun s => ∃ block, Standing block regs flop params clocks s) 30 s ?_
    exact ⟨by rw [standing.block]; exact low isFolding, _, standing⟩

/-- The run of the work after a stop, if it need not wait. -/
theorem achieves_short_stop (stopped : m.desired.run = .stopped) (firing : m.timerFiring = false)
    (low : folds m.block → (folded m.regs.compv.toNat m.block).outputHwFlopHigh = false) :
    Achieves Machine.awake (fun s => s = m) outputWork fun _ s => s.timerArmed = false := by
  have asked : Achieves Machine.awake (fun s => s = m) outputDesiredGet
      fun answer s => answer = m.desired ∧ s = m :=
    Achieves.call fun s same => ⟨s.desired, s, rfl, congrArg Machine.desired same, same⟩
  have cancels : Achieves Machine.awake (fun s => s = m) hrtimerCancel
      fun _ s => Standing m.block m.regs m.flop m.params m.clocks s ∧ s.timerArmed = false := by
    refine Achieves.call fun s same => ⟨(), { s with timerArmed := false }, ?_, ?_⟩
    · rw [same]
      change (if m.timerFiring = true then none else _) = _
      rw [firing]
      rfl
    · rw [same]
      exact ⟨⟨rfl, rfl, rfl, rfl, rfl⟩, rfl⟩
  refine Achieves.bind_known asked ?_
  rw [if_pos stopped]
  refine Achieves.bind cancels fun _ => ?_
  refine Achieves.bind ((achieves_short_drain low).keeping untimed_keeps
    (hw_periodic_drain_low_uses untimed_halting.toFolding)) fun _ => ?_
  intro s drained
  obtain ⟨⟨block, standing⟩, off⟩ := drained
  have ends := (@achieves_disable (fun _ _ => none) block m.regs m.flop m.params
    m.clocks).keeping untimed_keeps (disable_output_hw_uses untimed_halting)
  obtain ⟨value, t, ran, reached⟩ := ends s ⟨standing, off⟩
  exact ⟨value, t, ran, reached.2⟩

end runs

structure WorkKept (s t : Machine) : Prop where
  desired : t.desired = s.desired
  params : t.params = s.params
  clocks : t.clocks = s.clocks
  firing : t.timerFiring = s.timerFiring
  queued : t.workQueued = s.workQueued
  cancelling : t.workCancelling = s.workCancelling
  scheduled : t.oneshotScheduled = s.oneshotScheduled

theorem WorkFrame.kept {s t : Machine} (frame : WorkFrame s t) : WorkKept s t := by
  unfold WorkFrame at frame
  constructor
  · exact (congrArg Machine.desired frame :)
  · exact (congrArg Machine.params frame :)
  · exact (congrArg Machine.clocks frame :)
  · exact (congrArg Machine.timerFiring frame :)
  · exact (congrArg Machine.workQueued frame :)
  · exact (congrArg Machine.workCancelling frame :)
  · exact (congrArg Machine.oneshotScheduled frame :)

/-! ## The request -/

section request

variable {counter : Int → BitVec 64} {delayed : Nat → Nat} {s t : Scene} {mode : TgpioMode} {start now : Int} {width : Nat}

/-- A start of 0 is 200 ms from now. -/
def pulseStart (start now : Int) : Int :=
  if start = 0 then toS64 (now + (200 * nsecPerMsec : Nat)) else start

/-- The stop of a pulse over the integers: a quarter of a period after its fall,
or a tenth of a second if that is less. -/
def stopSpan (first now : Int) (width : Nat) : Int :=
  first - now + width + (min (width / 2) (100 * nsecPerMsec) : Nat)

def requested (delayed : Nat → Nat) (first now : Int) (width : Nat) (s : Scene) : Scene :=
  let published := s.machine.publish (.configure .running .hardware (2 * width) width width first)
  let delay := match clockDeltaToRealNs s.machine.params s.machine.clocks
      (oneshotStopDelta first now width) with
    | .error _ => toU64 (oneshotStopDelta first now width)
    | .ok delayReal => delayReal
  { s with
    machine := { published.scheduleWork with oneshotScheduled := true }
    stopAt := if s.machine.oneshotScheduled then s.stopAt else s.now + delayed delay }

structure Accepted (delayed : Nat → Nat) (start : Int) (width : Nat) (now : Int) (s t : Scene) : Prop where
  positive : 0 ≤ now
  wide : hwDutyMinHalfNs ≤ width
  narrow : width ≤ s64Max / 4
  ahead : toS64 (now + (50 * nsecPerMsec : Nat)) ≤ pulseStart start now
  result : t = requested delayed (pulseStart start now) now width s

theorem wp_alone_call {α : Type} {op : Op} {next : op.Resp → Driver α} {reply : op.Resp}
    {post : α → Scene → Prop} (answered : Scene.perform counter delayed op s = some (reply, t))
    (rest : wp (alone (Scene.perform counter delayed)) (next reply) post t) :
    wp (alone (Scene.perform counter delayed)) (.call op next) post s := by
  intro s₁ rely answer s₂ step
  cases alone_rely rely
  have same : some (reply, t) = some (answer, s₂) := answered.symm.trans step
  cases same
  exact rest

theorem oneshot_accepted (read : clockNowNs s.machine.params s.machine.clocks = .ok now)
    (accepted : Executes (alone (Scene.perform counter delayed)) (oneshotWrite mode (.ok (start, width))) s
      (.ok ()) t) : Accepted delayed start width now s t := by
  have refused (status : Errno) (u : Scene) : wp (alone (Scene.perform counter delayed))
      (pure (.error status) : Driver (Except Errno Unit))
      (fun answer t => answer = .ok () → Accepted delayed start width now s t) u :=
    fun _ _ answered => by cases answered
  have spec : wp (alone (Scene.perform counter delayed)) (oneshotWrite mode (.ok (start, width)))
      (fun answer t => answer = .ok () → Accepted delayed start width now s t) s := by
    unfold oneshotWrite
    dsimp only
    split
    · exact refused _ _
    split
    · exact refused _ _
    rename_i widths
    refine wp_alone_call rfl ?_
    change wp _ (if s.machine.desired.run = .running then _ else _) _ _
    split
    · exact refused _ _
    refine wp_alone_call (congrArg (fun reply => some (reply, s)) read) ?_
    change wp _ (if now < 0 then _ else if pulseStart start now <
      toS64 (now + (50 * nsecPerMsec : Nat)) then _ else _) _ _
    split
    · exact refused _ _
    split
    · exact refused _ _
    rename_i positive ahead
    have answers (u : Scene) (result : u = requested delayed (pulseStart start now) now width s) :
        wp (alone (Scene.perform counter delayed)) (pure (.ok ()) : Driver (Except Errno Unit))
          (fun answer t => answer = .ok () → Accepted delayed start width now s t) u := by
      intro v rely _
      cases alone_rely rely
      exact ⟨by omega, by omega, by omega, by omega, result⟩
    refine wp_alone_call rfl (wp_alone_call rfl ?_)
    cases isDelay : clockDeltaToRealNs s.machine.params s.machine.clocks
        (oneshotStopDelta (pulseStart start now) now width) with
    | error status =>
        refine wp_alone_call (congrArg (fun reply => some (reply, _)) isDelay)
          (wp_alone_call rfl (answers _ ?_))
        rw [requested, isDelay]
        rfl
    | ok delayReal =>
        refine wp_alone_call (congrArg (fun reply => some (reply, _)) isDelay)
          (wp_alone_call rfl (answers _ ?_))
        rw [requested, isDelay]
        rfl
  exact wp_executes spec accepted rfl

end request

/-! ## The events -/

/-- An output at rest, its line and its mirror low, nothing under way. -/
structure IdleOutput (m : Machine) : Prop where
  idle : m.block.outputHwPiv = 0
  mirror : m.block.outputHwFlopHigh = false
  level : m.flop = false
  unflipped : (m.desired.flipGen - m.block.outputAppliedFlipGen).getLsbD 0 = false
  fresh : m.desired.gen + 1 ≠ m.block.outputAppliedGen
  firing : m.timerFiring = false
  cancelling : m.workCancelling = false
  unscheduled : m.oneshotScheduled = false

def pulseDesired (first : Int) (width : Nat) (m : Machine) : OutputDesired :=
  (Publish.configure .running .hardware (2 * width) width width first).update m.desired

def primedPulse (requested first : Int) (width : Nat) (m : Machine) : MmioBlock :=
  applied (pulseDesired requested width m) (primed first width width .hardware
    (appliedFlip (pulseDesired requested width m) m.block))

section events

variable {counter : Int → BitVec 64} {delayed : Nat → Nat} {m : Machine} {requestedNs first now : Int} {width : Nat}
  {stopAt wake : Int} {edges : List PinEdge}

/-- The arm is over, the timer is set. -/
structure PrimedScene (m : Machine) (requestedNs first wake stopAt : Int) (width : Nat) (s : Scene) :
    Prop where
  desired : s.machine.desired = pulseDesired requestedNs width m
  params : s.machine.params = m.params
  clocks : s.machine.clocks = m.clocks
  flop : s.machine.flop = false
  block : s.machine.block = wakingAt wake (primedPulse requestedNs first width m)
  regs : s.machine.regs = clearedRegs (rearmCtl m.regs.ctl)
  armed : s.machine.timerArmed = true
  firing : s.machine.timerFiring = false
  unqueued : s.machine.workQueued = false
  cancelling : s.machine.workCancelling = false
  scheduled : s.machine.oneshotScheduled = true
  stopAt : s.stopAt = stopAt
  edges : s.edges = []

theorem next_primed {delay prime : Int} {delayReal : Nat} (idle : IdleOutput m)
    (read : clockNowNs m.params m.clocks = .ok now)
    (plan : outputTimingPlan (.ok now) (outputMinIntervalNs width width) (2 * width) .hardware
      requestedNs = .ok (first, prime, delay))
    (slept : clockDeltaToRealNs m.params m.clocks delay = .ok delayReal) :
    ∃ s, Scene.Next counter delayed (requested delayed requestedNs now width ⟨m, stopAt, []⟩) s ∧
      PrimedScene m requestedNs first (wakeFor m.clocks.real delayReal)
        (requested delayed requestedNs now width ⟨m, stopAt, []⟩).stopAt width s := by
  generalize isScene : requested delayed requestedNs now width ⟨m, stopAt, []⟩ = s
  have queued : s.machine.workQueued = true := by
    rw [← isScene]
    change (m.workQueued || !m.workCancelling) = true
    rw [idle.cancelling, Bool.not_false, Bool.or_true]
  generalize begun : s.machine.beginRun = started
  have desired : started.desired = pulseDesired requestedNs width m := by
    rw [← begun, ← isScene]
    rfl
  have block : started.block = m.block := by
    rw [← begun, ← isScene]
    rfl
  have params : started.params = m.params := by
    rw [← begun, ← isScene]
    rfl
  have clocks : started.clocks = m.clocks := by
    rw [← begun, ← isScene]
    rfl
  have arms : Achieves Machine.awake (fun t => t = started) outputWork fun _ t =>
      Standing (wakingAt (wakeFor m.clocks.real delayReal) (primedPulse requestedNs first width m))
        (clearedRegs (rearmCtl started.regs.ctl)) started.flop m.params m.clocks t ∧
        t.timerArmed = true := by
    have other : started.desired.gen ≠ started.block.outputAppliedGen := by
      rw [desired, block]
      exact idle.fresh
    refine work_begins (by rw [desired]; rfl) ?_ (if_pos other) ?_
    · rw [desired, block]
      exact idle.unflipped
    · rw [desired, block]
      have prepared : preparedTiming m.params m.clocks (outputMinIntervalNs width width)
          (2 * width) .hardware requestedNs =
            .ok ⟨first, prime, wakeFor m.clocks.real delayReal⟩ := by
        unfold preparedTiming
        rw [read, plan]
        dsimp only
        rw [slept]
      have reconciles := @achieves_reconcile (fun _ _ => none)
        (appliedFlip (pulseDesired requestedNs width m) m.block) started.regs started.flop m.params
        m.clocks (pulseDesired requestedNs width m) _ rfl prepared
      have unfolded (compv : Nat) :
          folded compv (appliedFlip (pulseDesired requestedNs width m) m.block) =
            appliedFlip (pulseDesired requestedNs width m) m.block := if_pos idle.idle
      rw [unfolded] at reconciles
      intro t same
      refine reconciles t ⟨?_, ?_, ?_, ?_, ?_⟩
      all_goals rw [same]
      · exact params
      · exact clocks
  obtain ⟨_, t, ran, standing, armed⟩ := arms started rfl
  have kept := (awake_work_frame ran).kept
  rw [← begun] at ran
  refine ⟨_, next_awake queued ran, ?_⟩
  have level : started.flop = false := by
    rw [← begun, ← isScene]
    exact idle.level
  have control : started.regs = m.regs := by
    rw [← begun, ← isScene]
    rfl
  constructor
  · exact kept.desired.trans desired
  · exact standing.params
  · exact standing.clocks
  · exact standing.flop.trans level
  · exact standing.block
  · rw [← control]
    exact standing.regs
  · exact armed
  · refine kept.firing.trans ?_
    rw [← begun, ← isScene]
    exact idle.firing
  · refine kept.queued.trans ?_
    rw [← begun]
    rfl
  · refine kept.cancelling.trans ?_
    rw [← begun, ← isScene]
    exact idle.cancelling
  · refine kept.scheduled.trans ?_
    rw [← begun, ← isScene]
    rfl
  · rfl
  · change s.edges = []
    rw [← isScene]
    rfl

theorem stop_event (m : Machine) :
    let started := m.beginOneshot.publishOneshot.endOneshot.beginRun
    started.desired.run = .stopped ∧ started.timerFiring = m.timerFiring ∧ started.block = m.block ∧
      started.regs = m.regs ∧ started.workQueued = false ∧ started.oneshotScheduled = false := by
  have published : m.beginOneshot.publish .disable = { m.beginOneshot with
      desired := Publish.disable.update m.desired, served := false
      publishes := m.publishes + 1, flips := m.flips + (if Publish.disable = .flip then 1 else 0) } :=
    if_pos rfl
  unfold Machine.publishOneshot
  rw [published]
  exact ⟨rfl, rfl, rfl, rfl, rfl, rfl⟩

/-- The stop of a pulse that has nothing to wait for: its event, and the run of
the work that follows. -/
theorem next_stopped {s : Scene} {ns : Nat} (unqueued : s.machine.workQueued = false)
    (scheduled : s.machine.oneshotScheduled = true)
    (first : s.machine.timerArmed = true → s.stopAt < s.machine.block.outputWakeAt)
    (firing : s.machine.timerFiring = false) (cancelling : s.machine.workCancelling = false)
    (span : (s.stopAt - s.now).toNat = ns)
    (low : folds (s.machine.elapse counter ns).block →
      (folded (s.machine.elapse counter ns).regs.compv.toNat
        (s.machine.elapse counter ns).block).outputHwFlopHigh = false) :
    ∃ t, Relation.ReflTransGen (Scene.Next counter delayed) s t ∧ t.Over ∧
      t.edges = s.edges ++ s.edgesUpTo (counter (s.now + ns)).toNat := by
  have stops := @Scene.Next.stop counter delayed s _ unqueued scheduled first rfl
  generalize isStopped : (s.elapseTo counter s.stopAt).withMachine
    (s.elapseTo counter s.stopAt).machine.beginOneshot.publishOneshot.endOneshot = stopped at stops
  have elapsed : stopped.machine =
      (s.machine.elapse counter ns).beginOneshot.publishOneshot.endOneshot := by
    rw [← isStopped, ← span]
    rfl
  have same := elapse_kept (m := s.machine) counter ns
  generalize s.machine.elapse counter ns = later at elapsed low same
  have queued : stopped.machine.workQueued = true := by
    rw [elapsed]
    change (later.workQueued || !later.workCancelling) = true
    rw [same.cancelling, cancelling, Bool.not_false, Bool.or_true]
  have parts : stopped.machine.beginRun.desired.run = .stopped ∧
      stopped.machine.beginRun.timerFiring = later.timerFiring ∧
      stopped.machine.beginRun.block = later.block ∧
      stopped.machine.beginRun.regs = later.regs ∧
      stopped.machine.beginRun.workQueued = false ∧
      stopped.machine.beginRun.oneshotScheduled = false := by
    rw [elapsed]
    exact stop_event later
  have begins := @next_awake counter delayed stopped
  generalize stopped.machine.beginRun = started at parts begins
  obtain ⟨isStopped', isFiring, isBlock, isRegs, isQueued, isScheduled⟩ := parts
  rw [← isBlock, ← isRegs] at low
  obtain ⟨_, t, ran, off⟩ := achieves_short_stop isStopped'
    (isFiring.trans (same.firing.trans firing)) low started rfl
  have kept := (awake_work_frame ran).kept
  refine ⟨stopped.withMachine t.endRun, (.tail (.single stops) (begins queued ran)), ?_, ?_⟩
  · exact ⟨kept.queued.trans isQueued, off, kept.scheduled.trans isScheduled⟩
  · rw [← span, ← isStopped]
    rfl

/-- The engine runs, and has generated no edge yet. -/
structure FiredScene (first half : Nat) (real stopAt : Int) (s : Scene) : Prop where
  running : s.machine.freeRunning = true
  compv : s.machine.regs.compv = BitVec.ofNat 64 first
  piv : s.machine.regs.piv = BitVec.ofNat 64 half
  flop : s.machine.flop = false
  mirror : s.machine.block.outputHwFlopHigh = false
  phase : s.machine.block.outputPhase = .hardwarePeriodic
  interval : s.machine.block.outputHwPiv = half
  checkpoint : s.machine.block.outputHwCkptCompv = first
  untimed : s.machine.timerArmed = false
  firing : s.machine.timerFiring = false
  unqueued : s.machine.workQueued = false
  cancelling : s.machine.workCancelling = false
  scheduled : s.machine.oneshotScheduled = true
  real : s.now = real
  stopAt : s.stopAt = stopAt
  edges : s.edges = []

theorem NominalClock.elapsed {hz : Nat} {counter : Int → BitVec 64} {ns : Nat}
    (clock : NominalClock hz m.params m.clocks) :
    NominalClock hz (m.elapse counter ns).params (m.elapse counter ns).clocks := by
  rw [(elapse_kept (m := m) counter ns).params]
  exact { clock with }

end events

end Tgpio

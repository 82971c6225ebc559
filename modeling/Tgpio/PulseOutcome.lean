import Tgpio.EdgeAlignment
import Tgpio.OneshotPulse

/-!
# What a pulse comes to

The course of events after an accepted request. The wake timer starts the
engine before the first edge, and the stop comes between the falling edge and
the next rise; a start that the arm had to move a period on is overtaken by the
stop instead, which was scheduled from the start asked for.
-/

namespace Tgpio

open Interference Interference.Prog Scaling

set_option autoImplicit false

section events

variable {counter : Int → BitVec 64} {delayed : Nat → Nat} {m : Machine}
  {requestedNs first wake stopAt : Int} {width hz ns since : Nat} {s : Scene}

theorem timer_event (m : Machine) :
    let started := m.expire.outputTimer.beginRun
    started.desired = m.desired ∧ started.block = m.block ∧ started.regs = m.regs ∧
      started.flop = m.flop ∧ started.params = m.params ∧ started.clocks = m.clocks ∧
      started.timerArmed = false ∧ started.timerFiring = false ∧ started.workQueued = false ∧
      started.workCancelling = m.workCancelling ∧ started.oneshotScheduled = m.oneshotScheduled :=
  ⟨rfl, rfl, rfl, rfl, rfl, rfl, rfl, rfl, rfl, rfl, rfl⟩

theorem PrimedScene.still (primed : PrimedScene m requestedNs first wake stopAt width s) :
    s.machine.freeRunning = false := by
  unfold Machine.freeRunning
  rw [primed.regs]
  exact cleared_running _ (by simp [rearmCtl])

theorem PrimedScene.now (primed : PrimedScene m requestedNs first wake stopAt width s) :
    s.now = m.clocks.real := congrArg Clocks.real primed.clocks

theorem PrimedScene.wakes (primed : PrimedScene m requestedNs first wake stopAt width s) :
    s.machine.block.outputWakeAt = wake := by
  rw [primed.block]
  rfl

theorem PrimedScene.silent (primed : PrimedScene m requestedNs first wake stopAt width s) (art : Nat) :
    s.edges ++ s.edgesUpTo art = [] := by
  have none : s.machine.edgesBy art = 0 := by
    rw [Machine.edgesBy, if_neg (by simp [primed.still])]
  rw [primed.edges, Scene.edgesUpTo, none]
  rfl

theorem pulse_fires {m' : Machine} {since : Nat} (primed : PrimedScene m requestedNs
      (m.clocks.phc.anchorNs + since) wake stopAt width s)
    (idle : IdleOutput m) (isMachine : m' = s.machine.elapse counter ns)
    (clock : NominalClock hz m'.params m'.clocks)
    (late : nsecPerMsec ≤ since) (fits : m.clocks.phc.anchorNs + since ≤ s64Max)
    (wide : nsecPerMsec ≤ width) (narrow : width ≤ s64Max / 4)
    (ahead : m'.clocks.art + nearest (2 * nsecPerMsec) nsecPerSec hz + artHwDelayCycles ≤
      artAfter m.clocks since) :
    ∃ t, Executes (alone Machine.awake) outputWork m'.expire.outputTimer.beginRun () t ∧
      Standing (armed (m.clocks.phc.anchorNs + since) width width
          (artAfter m.clocks since - artHwDelayCycles) (nearest width nsecPerSec hz)
          (appliedFlip (pulseDesired requestedNs width m) m'.block))
        ⟨ctlWith (ctlWith (rearmCtl m'.regs.ctl) (ctlEpToggle ||| ctlPm)) ctlEn,
          BitVec.ofNat 64 (artAfter m.clocks since - artHwDelayCycles),
          BitVec.ofNat 64 (nearest width nsecPerSec hz)⟩ false m'.params m'.clocks t ∧
        t.timerArmed = false := by
  have same := elapse_kept (m := s.machine) counter ns
  have level := (elapse_still counter ns primed.still).2.2
  have phc : m'.clocks.phc = m.clocks.phc := by
    rw [isMachine, ← primed.clocks]
    rfl
  rw [← isMachine] at same level
  obtain ⟨isDesired, isBlock, isRegs, isFlop, isParams, isClocks, untimed, -⟩ := timer_event m'
  generalize m'.expire.outputTimer.beginRun = started at *
  have desired : started.desired = pulseDesired requestedNs width m :=
    isDesired.trans (same.desired.trans primed.desired)
  have block : started.block =
      wakingAt wake (primedPulse requestedNs (m.clocks.phc.anchorNs + since) width m) :=
    isBlock.trans (same.block.trans primed.block)
  have small : width ≤ s64Max := by
    unfold s64Max at *
    omega
  have counted := clock.delta_cycles wide small
  have cycles := @nearest_le_of_slow hz width clock.crystal.2
  have many := nearest_of_long clock.crystal.1 wide
  have compared := clock.compare_art late (by rw [phc]; exact fits)
  have art : m'.clocks.phc.anchorArt + nearest since nsecPerSec hz = artAfter m.clocks since := by
    rw [artAfter, phc, ← phc, clock.rate]
  rw [art, phc] at compared
  have small' : (width : Int) < 2 ^ 63 := by
    unfold s64Max at small
    omega
  have flipped : started.block.outputAppliedFlipGen = started.desired.flipGen := by
    rw [desired, block]
    rfl
  have unflipped :
      (started.desired.flipGen - started.block.outputAppliedFlipGen).getLsbD 0 = false := by
    rw [flipped, BitVec.sub_self]
    rfl
  have fired := @achieves_fire started width (artAfter m.clocks since - artHwDelayCycles)
    (nearest width nsecPerSec hz) m'.clocks.art (nearest (2 * nsecPerMsec) nsecPerSec hz)
    (by rw [desired]; rfl) unflipped (by rw [desired, block]; rfl) (by rw [desired, block]; rfl)
    (by rw [block]; rfl) (by rw [block]; exact ⟨rfl, rfl⟩) (by rw [block]; rfl)
    (by rw [block]; exact idle.mirror) untimed
    (by rw [isParams, isClocks, block]; exact compared)
    (by rw [isParams, isClocks, to_s64_of_range (by omega) small']; exact counted)
    (by unfold u64Max s64Max at *; omega)
    (by rw [isClocks, getCurrentArt, if_pos clock.snapshot])
    (by rw [isParams, isClocks]; exact clock.delta_cycles (by decide) (by decide))
    (by omega)
  obtain ⟨_, t, ran, standing, off⟩ := fired started rfl
  rw [isRegs, isParams, isClocks, isFlop, level, primed.flop, desired, isBlock] at standing
  have edge : m'.block.outputNextEdge = m.clocks.phc.anchorNs + since := by
    rw [← isBlock, block]
    rfl
  rw [edge] at standing
  exact ⟨t, ran, standing, off⟩

/-- The wake timer of a primed pulse comes first, and the engine runs. -/
theorem next_fired (primed : PrimedScene m requestedNs (m.clocks.phc.anchorNs + since) wake stopAt
      width s)
    (idle : IdleOutput m) (clock : NominalClock hz m.params m.clocks)
    (span : (wake - m.clocks.real).toNat = ns) (inTime : wake ≤ stopAt)
    (late : nsecPerMsec ≤ since) (fits : m.clocks.phc.anchorNs + since ≤ s64Max)
    (wide : nsecPerMsec ≤ width) (narrow : width ≤ s64Max / 4)
    (ahead : (counter (m.clocks.real + ns)).toNat + nearest (2 * nsecPerMsec) nsecPerSec hz +
      artHwDelayCycles ≤ artAfter m.clocks since) :
    ∃ t, Relation.ReflTransGen (Scene.Next counter delayed) s t ∧
      FiredScene (artAfter m.clocks since - artHwDelayCycles) (nearest width nsecPerSec hz)
        (m.clocks.real + ns) stopAt t := by
  have first : s.machine.oneshotScheduled = true → s.machine.block.outputWakeAt ≤ s.stopAt := by
    rw [primed.wakes, primed.stopAt]
    exact fun _ => inTime
  have timer := @Scene.Next.timer counter delayed s _ primed.unqueued primed.armed first rfl
  rw [primed.wakes] at timer
  have same := elapse_kept (m := s.machine) counter ns
  generalize isMachine : s.machine.elapse counter ns = later at same
  have reached : s.elapseTo counter wake = ⟨later, stopAt, []⟩ := by
    rw [← isMachine, ← primed.silent (counter (s.now + ns)).toNat, ← span, ← primed.now,
      ← primed.stopAt]
    rfl
  rw [reached] at timer
  have clock' : NominalClock hz later.params later.clocks := by
    rw [← isMachine]
    apply NominalClock.elapsed
    rw [primed.params, primed.clocks]
    exact clock
  have art : later.clocks.art = (counter (m.clocks.real + ns)).toNat := by
    rw [← isMachine, ← primed.now]
    rfl
  have real : later.clocks.real = m.clocks.real + ns := by
    rw [← isMachine, ← primed.now]
    rfl
  obtain ⟨t, ran, standing, off⟩ := pulse_fires primed idle isMachine.symm clock' late fits wide
    narrow (by rw [art]; exact ahead)
  have kept := (awake_work_frame ran).kept
  have queued : later.expire.outputTimer.workQueued = true := by
    change (later.workQueued || !later.workCancelling) = true
    rw [same.cancelling, primed.cancelling, Bool.not_false, Bool.or_true]
  have mirror : later.block.outputHwFlopHigh = false := by
    rw [same.block, primed.block]
    exact idle.mirror
  refine ⟨_, .tail (.single timer) (next_awake queued ran), ?_⟩
  constructor
  · change t.regs.running = true
    rw [standing.regs]
    simp [Regs.running]
  · change t.regs.compv = _
    rw [standing.regs]
  · change t.regs.piv = _
    rw [standing.regs]
  · exact standing.flop
  · change t.block.outputHwFlopHigh = false
    rw [standing.block]
    exact mirror
  · change t.block.outputPhase = _
    rw [standing.block]
    exact if_neg fun differ => differ rfl
  · change t.block.outputHwPiv = _
    rw [standing.block]
    rfl
  · change t.block.outputHwCkptCompv = _
    rw [standing.block]
    rfl
  · exact off
  · exact kept.firing
  · exact kept.queued
  · exact kept.cancelling.trans (same.cancelling.trans primed.cancelling)
  · exact kept.scheduled.trans (same.scheduled.trans primed.scheduled)
  · exact (congrArg Clocks.real standing.clocks).trans real
  · rfl
  · rfl

/-- A stop after an even count of edges has nothing to wait for. -/
theorem next_counted {rise half n : Nat} {real : Int}
    (fired : FiredScene (rise - artHwDelayCycles) half real stopAt s)
    (span : (stopAt - real).toNat = ns) (after : artHwDelayCycles ≤ rise) (positive : 0 < half)
    (small : half < 2 ^ 64) (fits : rise + n * half < 2 ^ 64) (even : n % 2 = 0)
    (counted : ∀ k, rise + k * half ≤ (counter (real + ns)).toNat ↔ k < n) :
    ∃ t, Relation.ReflTransGen (Scene.Next counter delayed) s t ∧ t.Over ∧
      t.edges = (List.range n).map fun k => ⟨rise + k * half, (k + 1).bodd⟩ := by
  have compv : s.machine.regs.compv.toNat = rise - artHwDelayCycles := by
    rw [fired.compv, BitVec.toNat_ofNat]
    exact Nat.mod_eq_of_lt (by omega)
  have piv : s.machine.regs.piv.toNat = half := by
    rw [fired.piv, BitVec.toNat_ofNat]
    exact Nat.mod_eq_of_lt small
  have edge : s.machine.edgeArt = rise := by
    rw [Machine.edgeArt, compv]
    omega
  have isReal : s.machine.clocks.real = real := fired.real
  rw [← isReal] at counted
  have due : s.machine.edgesBy (counter (s.machine.clocks.real + ns)).toNat = n := by
    have generated (k : Nat) :=
      edges_by_iff fired.running (by omega) (counter (s.machine.clocks.real + ns)).toNat k
    rw [edge, piv] at generated
    have atLeast := ((generated n).trans (counted n)).not.mpr (lt_irrefl n)
    have atMost (k : Nat) (below : k < n) := ((generated k).trans (counted k)).mpr below
    by_contra other
    exact absurd (atMost _ (by omega)) (lt_irrefl _)
  have ran := @ran_run_on s.machine n fired.running (by rw [compv, piv]; omega)
  have regs : (s.machine.elapse counter ns).regs = (s.machine.runOn n).regs :=
    congrArg (fun n => (s.machine.runOn n).regs) due
  have same := elapse_kept (m := s.machine) counter ns
  have low : (folded (s.machine.elapse counter ns).regs.compv.toNat
      (s.machine.elapse counter ns).block).outputHwFlopHigh = false := by
    rw [regs, ran.compv, compv, piv, same.block, folded, if_neg (by rw [fired.interval]; omega),
      if_neg (by rw [fired.phase]; decide), if_pos fired.phase,
      if_neg (by rw [fired.checkpoint]; omega), foldPeriodic, fired.checkpoint, fired.interval,
      Nat.add_sub_cancel_left, Nat.mul_div_cancel _ positive]
    rw [if_neg (by omega)]
    exact fired.mirror
  obtain ⟨t, course, closed, edges⟩ := @next_stopped counter delayed s ns fired.unqueued
    fired.scheduled (by simp [fired.untimed]) fired.firing fired.cancelling
    (by rw [fired.stopAt, fired.real]; exact span) fun _ => low
  refine ⟨t, course, closed, ?_⟩
  have between : s.machine.edgesBy (counter (s.now + ns)).toNat = n := due
  rw [edges, fired.edges, Scene.edgesUpTo, between, edge, piv, fired.flop, List.nil_append]
  simp

/-- A stop that is due before the wake timer finds nothing to stop. -/
theorem next_overtaken (primed : PrimedScene m requestedNs first wake stopAt width s)
    (overtaken : stopAt < wake) :
    ∃ t, Relation.ReflTransGen (Scene.Next counter delayed) s t ∧ t.Over ∧ t.edges = [] := by
  have same := elapse_kept (m := s.machine) counter (s.stopAt - s.now).toNat
  have unfolded : ¬folds (s.machine.elapse counter (s.stopAt - s.now).toNat).block := by
    rw [same.block, primed.block]
    exact fun folding => folding.1 rfl
  have before : s.machine.timerArmed = true → s.stopAt < s.machine.block.outputWakeAt := by
    rw [primed.stopAt, primed.wakes]
    exact fun _ => overtaken
  obtain ⟨t, course, closed, edges⟩ := @next_stopped counter delayed s _ primed.unqueued
    primed.scheduled before primed.firing primed.cancelling rfl fun folding => absurd folding unfolded
  exact ⟨t, course, closed, edges.trans (primed.silent _)⟩

end events

/-! ## Where the arm puts a start -/

section plan

variable {requestedNs first now : Int} {width minInterval : Nat}

theorem plan_aligned (positive : 0 ≤ now) (ahead : now + (3 * outputSafeTimeNs : Nat) ≤ first)
    (range : first < 2 ^ 63) (aligned : outputAlignFirstEdge requestedNs
      (now + (3 * outputSafeTimeNs : Nat)) (2 * width) = first) :
    outputTimingPlan (.ok now) minInterval (2 * width) .hardware requestedNs =
      .ok (first, first - (2 * outputSafeTimeNs : Nat), first - (outputSafeTimeNs : Nat) - now) := by
  unfold outputTimingPlan
  dsimp only
  rw [if_neg (by omega), if_pos rfl, if_neg (by decide)]
  unfold outputSafeTimeNs nsecPerMsec at *
  rw [add_s64_ok (by omega) (by omega)]
  dsimp only
  rw [aligned, add_s64_ok (by omega) (by omega), add_s64_ok (by omega) (by omega)]
  dsimp only
  rw [add_s64_ok (by omega) (by omega)]
  rfl

/-- A start that is nearer than three safe times moves on by its period. -/
theorem moved_on (positive : 0 ≤ requestedNs) (wide : hwDutyMinHalfNs ≤ width)
    (near : requestedNs < now + (3 * outputSafeTimeNs : Nat))
    (ahead : now + (50 * nsecPerMsec : Nat) ≤ requestedNs)
    (range : requestedNs + (2 * width : Nat) ≤ s64Max) :
    outputAlignFirstEdge requestedNs (now + (3 * outputSafeTimeNs : Nat)) (2 * width) =
      requestedNs + (2 * width : Nat) := by
  unfold outputSafeTimeNs hwDutyMinHalfNs nsecPerMsec s64Max at *
  have distance : 0 < (now + (3 * (20 * 1000000) : Nat) - requestedNs).toNat ∧
      (now + (3 * (20 * 1000000) : Nat) - requestedNs).toNat ≤ 2 * width := by omega
  generalize isDistance : (now + (3 * (20 * 1000000) : Nat) - requestedNs).toNat = gap at distance
  have covered : CeilDiv.ceilDiv gap (2 * width) = 1 := by
    rw [Nat.ceilDiv_eq_add_pred_div]
    exact Nat.div_eq_of_lt_le (by omega) (by omega)
  rw [output_align_first_edge_eq positive (by unfold s64Max; omega) (by unfold s64Max; omega)
    (by unfold s64Max; omega) near (isDistance ▸ covered), Nat.one_mul]
  exact if_pos (by unfold s64Max; omega)

end plan

/-! ## The pulse -/

section pulse

variable {hz phase : Nat} {delayed : Nat → Nat} {m : Machine} {requestedNs : Int}
  {width span stop n : Nat} {s : Scene}

theorem primed_ends (clock : RequestClock hz phase m.params m.clocks) (idle : IdleOutput m)
    (primed : PrimedScene m requestedNs
      (m.clocks.phc.anchorNs + (sinceAnchor m.clocks + span : Nat))
      (m.clocks.real + (span - outputSafeTimeNs : Nat)) (m.clocks.real + stop) width s)
    (wide : hwDutyMinHalfNs ≤ width) (narrow : width ≤ s64Max / 4)
    (lead : 3 * outputSafeTimeNs ≤ span) (soon : stop ≤ s64Max)
    (fits : m.clocks.phc.anchorNs + (sinceAnchor m.clocks + span : Nat) ≤ s64Max) (even : n % 2 = 0)
    (few : artAfter m.clocks (sinceAnchor m.clocks + span) + n * nearest width nsecPerSec hz < 2 ^ 64)
    (counted : ∀ k, artAfter m.clocks (sinceAnchor m.clocks + span) + k * nearest width nsecPerSec hz ≤
      (artCounter hz phase (m.clocks.real + stop)).toNat ↔ k < n) :
    ∃ t, Relation.ReflTransGen (Scene.Next (artCounter hz phase) delayed) s t ∧ t.Over ∧
      t.edges = (List.range n).map fun k => ⟨artAfter m.clocks (sinceAnchor m.clocks + span) +
        k * nearest width nsecPerSec hz, (k + 1).bodd⟩ := by
  have crystal := clock.crystal
  have anchor := clock.anchorNs
  have long : nsecPerMsec ≤ width := by
    unfold hwDutyMinHalfNs nsecPerMsec at *
    omega
  have many := nearest_of_long crystal.1 long
  have slow := @nearest_le_of_slow hz width crystal.2
  have within : span ≤ s64Max := by omega
  by_cases inTime : span - outputSafeTimeNs ≤ stop
  · generalize isWake : span - outputSafeTimeNs = wake at *
    have ahead := clock.rise_ahead within (by omega : wake + outputSafeTimeNs ≤ span)
    have late : nsecPerMsec ≤ sinceAnchor m.clocks + span := by
      unfold outputSafeTimeNs nsecPerMsec at *
      omega
    have sleeps : (m.clocks.real + wake - m.clocks.real).toNat = wake := by omega
    have rest : (m.clocks.real + stop - (m.clocks.real + wake)).toNat = stop - wake := by omega
    have due : m.clocks.real + wake + (stop - wake : Nat) = m.clocks.real + stop := by omega
    rw [← due] at counted
    obtain ⟨t, wakes, fired⟩ := @next_fired (artCounter hz phase) delayed _ _ _ _ _ _ _ _ _ primed
      idle clock.toNominalClock sleeps (by omega) late fits long narrow ahead
    obtain ⟨u, stops, closed, edges⟩ := @next_counted (artCounter hz phase) delayed _ _ _ _ _ n _ fired
      rest (by omega) (by omega) (by unfold s64Max at narrow; omega) few even counted
    exact ⟨u, wakes.trans stops, closed, edges⟩
  · have ahead := clock.before_rise soon
      (by unfold outputSafeTimeNs nsecPerMsec at *; omega : stop + nsecPerMsec ≤ span)
    have none : n = 0 := by
      have first := counted 0
      omega
    obtain ⟨t, course, closed, edges⟩ := @next_overtaken (artCounter hz phase) delayed _ _ _ _ _ _ _
      primed (by omega)
    rw [none]
    exact ⟨t, course, closed, edges⟩

/-- When the stop of an accepted pulse is due: the span of the source, exactly. -/
theorem requested_stop {first now stopAt : Int} (clock : RequestClock hz phase m.params m.clocks)
    (idle : IdleOutput m) (positive : 0 < stopSpan first now width)
    (fits : stopSpan first now width ≤ s64Max) :
    oneshotStopDelta first now width = stopSpan first now width ∧
      (requested delayed first now width ⟨m, stopAt, []⟩).stopAt =
        m.clocks.real + delayed (stopSpan first now width).toNat := by
  have exact_ : oneshotStopDelta first now width = stopSpan first now width := by
    unfold s64Max at fits
    exact to_s64_of_range (by unfold stopSpan at *; omega) (by unfold stopSpan at *; omega)
  have size : ((stopSpan first now width).toNat : Int) = stopSpan first now width := by omega
  have real := clock.toNominalClock.delta_real (by omega : 0 < (stopSpan first now width).toNat)
    (by omega)
  rw [size] at real
  refine ⟨exact_, ?_⟩
  unfold requested
  rw [exact_]
  dsimp only
  rw [real]
  exact if_neg (by simp [idle.unscheduled])

theorem next_request {t : Scene} {start now stopAt : Int}
    (clock : RequestClock hz phase m.params m.clocks) (idle : IdleOutput m)
    (read : clockNowNs m.params m.clocks = .ok now)
    (accepted : Accepted delayed start width now ⟨m, stopAt, []⟩ t)
    (lead : 3 * outputSafeTimeNs ≤ span) (range : m.clocks.real + span < 2 ^ 63)
    (fits : now + span < 2 ^ 63)
    (aligned : outputAlignFirstEdge (pulseStart start now) (now + (3 * outputSafeTimeNs : Nat))
      (2 * width) = now + span) :
    ∃ s, Scene.Next (artCounter hz phase) delayed t s ∧
      PrimedScene m (pulseStart start now)
        (m.clocks.phc.anchorNs + (sinceAnchor m.clocks + span : Nat))
        (m.clocks.real + (span - outputSafeTimeNs : Nat)) t.stopAt width s := by
  have real := clock.real
  have isNow : now = m.clocks.phc.anchorNs + sinceAnchor m.clocks := by
    rw [sinceAnchor, clock.rate]
    exact clock.toNominalClock.now_eq clock.anchored read
  have first : m.clocks.phc.anchorNs + (sinceAnchor m.clocks + span : Nat) = now + span := by omega
  have plan := @plan_aligned (pulseStart start now) (now + span) now width
    (outputMinIntervalNs width width) accepted.positive (by omega) fits aligned
  have delay : now + (span : Int) - (outputSafeTimeNs : Nat) - now = (span - outputSafeTimeNs : Nat) := by
    omega
  rw [delay] at plan
  have slept := clock.toNominalClock.delta_real
    (by unfold outputSafeTimeNs nsecPerMsec at *; omega : 0 < span - outputSafeTimeNs)
    (by unfold s64Max; omega)
  have wake : wakeFor m.clocks.real (span - outputSafeTimeNs : Nat) =
      m.clocks.real + (span - outputSafeTimeNs : Nat) := by
    rw [wakeFor, to_s64_of_range (by omega) (by omega), if_neg (by omega)]
  rw [accepted.result]
  obtain ⟨s, next, primed⟩ := @next_primed (artCounter hz phase) delayed m _ _ now width stopAt _ _ _
    idle read plan slept
  rw [wake] at primed
  rw [first]
  exact ⟨s, next, primed⟩

theorem at_time_after (clock : RequestClock hz phase m.params m.clocks) (since width : Nat) :
    AtTime m.clocks.phc (artAfter m.clocks since) (m.clocks.phc.anchorNs + since) ∧
      AtTime m.clocks.phc (artAfter m.clocks since + nearest width nsecPerSec hz)
        (m.clocks.phc.anchorNs + since + width) := by
  have rise := nearest_bounds since hz (by decide : 0 < nsecPerSec)
  have half := nearest_bounds width hz (by decide : 0 < nsecPerSec)
  unfold AtTime artAfter
  rw [clock.rate]
  generalize nearest since nsecPerSec hz = riseCycles at *
  generalize nearest width nsecPerSec hz = halfCycles at *
  have lone : (((m.clocks.phc.anchorArt + riseCycles : Nat) : Int) - m.clocks.phc.anchorArt) *
      nsecPerSec - (m.clocks.phc.anchorNs + since - m.clocks.phc.anchorNs) * hz =
      (riseCycles * nsecPerSec : Nat) - (since * hz : Nat) := by
    push_cast
    ring
  have both : (((m.clocks.phc.anchorArt + riseCycles + halfCycles : Nat) : Int) -
      m.clocks.phc.anchorArt) * nsecPerSec -
        (m.clocks.phc.anchorNs + since + width - m.clocks.phc.anchorNs) * hz =
      (riseCycles * nsecPerSec : Nat) - (since * hz : Nat) +
        ((halfCycles * nsecPerSec : Nat) - (width * hz : Nat)) := by
    push_cast
    ring
  rw [lone, both]
  omega

/-- The delayed work of a stop runs within two jiffies of its due time. -/
def Punctual (delayed : Nat → Nat) (ns : Nat) : Prop :=
  ns ≤ delayed ns + jiffiesSlackNs ∧ delayed ns ≤ ns + jiffiesSlackNs

theorem punctual_exactly (ns : Nat) : Punctual id ns := ⟨Nat.le_add_right .., Nat.le_add_right ..⟩

/-- The course of events after a request, to its only end. -/
def Ends (hz phase : Nat) (delayed : Nat → Nat) (t u : Scene) : Prop :=
  Relation.ReflTransGen (Scene.Next (artCounter hz phase) delayed) t u ∧ u.Over ∧
    ∀ v, Relation.ReflTransGen (Scene.Next (artCounter hz phase) delayed) t v → v.Over → v = u

theorem request_ends {t : Scene} {start now stopAt : Int}
    (clock : RequestClock hz phase m.params m.clocks) (idle : IdleOutput m)
    (read : clockNowNs m.params m.clocks = .ok now)
    (accepted : Accepted delayed start width now ⟨m, stopAt, []⟩ t)
    (stopping : t.stopAt = m.clocks.real + stop) (soon : stop ≤ s64Max)
    (lead : 3 * outputSafeTimeNs ≤ span) (range : m.clocks.real + span < 2 ^ 63)
    (fits : now + span < 2 ^ 63) (even : n % 2 = 0)
    (aligned : outputAlignFirstEdge (pulseStart start now) (now + (3 * outputSafeTimeNs : Nat))
      (2 * width) = now + span)
    (few : artAfter m.clocks (sinceAnchor m.clocks + span) + n * nearest width nsecPerSec hz < 2 ^ 64)
    (counted : ∀ k, artAfter m.clocks (sinceAnchor m.clocks + span) + k * nearest width nsecPerSec hz ≤
      (artCounter hz phase (m.clocks.real + stop)).toNat ↔ k < n) :
    ∃ u, Ends hz phase delayed t u ∧
      u.edges = (List.range n).map fun k => ⟨artAfter m.clocks (sinceAnchor m.clocks + span) +
        k * nearest width nsecPerSec hz, (k + 1).bodd⟩ := by
  obtain ⟨s, next, primed⟩ := next_request clock idle read accepted lead range fits aligned
  have isNow : now = m.clocks.phc.anchorNs + sinceAnchor m.clocks := by
    rw [sinceAnchor, clock.rate]
    exact clock.toNominalClock.now_eq clock.anchored read
  rw [stopping] at primed
  obtain ⟨u, course, closed, edges⟩ := primed_ends clock idle primed accepted.wide accepted.narrow lead
    soon (by unfold s64Max; omega) even few counted
  have whole := Relation.ReflTransGen.head next course
  exact ⟨u, ⟨whole, closed, fun v other ended => over_unique other whole ended closed⟩, edges⟩

theorem two_edges_due {rise half art : Nat} (fallen : rise + half ≤ art)
    (before : art < rise + 2 * half) (k : Nat) : rise + k * half ≤ art ↔ k < 2 := by
  constructor
  · intro generated
    by_contra later
    have far := Nat.mul_le_mul_right half (by omega : 2 ≤ k)
    omega
  · intro early
    have edge : k = 0 ∨ k = 1 := by omega
    rcases edge with rfl | rfl <;> omega

end pulse

/-- A one-shot of 50 ms, a second after the anchor of a clock whose cycle is a
nanosecond. -/
def pulseAsked (start : Int) : Scene :=
  finalState (Scene.perform (artCounter nsecPerSec (nsecPerSec * nsecPerSec)) id) 10 []
    (oneshotWrite .output (.ok (start, hwDutyMinHalfNs))) ⟨loadedBlock, 0, []⟩

theorem loaded_request_clock : RequestClock nsecPerSec (nsecPerSec * nsecPerSec) loadedBlock.params
    loadedBlock.clocks := by
  constructor
  · exact ⟨rfl, rfl, rfl, rfl, rfl, by decide, by decide, by decide⟩
  all_goals decide

theorem loaded_clock_now : clockNowNs loadedBlock.params loadedBlock.clocks = .ok 1000000000 := by
  decide

theorem loaded_idle_output : IdleOutput loadedBlock :=
  ⟨rfl, rfl, rfl, rfl, by decide, rfl, rfl, rfl⟩

theorem pulse_asked_accepted (start : Int) (answer : (exec
      (Scene.perform (artCounter nsecPerSec (nsecPerSec * nsecPerSec)) id) 10 []
      (oneshotWrite .output (.ok (start, hwDutyMinHalfNs))) ⟨loadedBlock, 0, []⟩).map Prod.fst =
        some (.ok ())) :
    Executes (alone (Scene.perform (artCounter nsecPerSec (nsecPerSec * nsecPerSec)) id))
      (oneshotWrite .output (.ok (start, hwDutyMinHalfNs))) ⟨loadedBlock, 0, []⟩ (.ok ())
      (pulseAsked start) :=
  exec_final (fun _ _ _ _ step => step) 10 [] (by simp) _ _ _ answer

end Tgpio

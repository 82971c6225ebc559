import Tgpio.ClockSteering
import Mathlib.Algebra.Order.PUnit

/-!
# Reading a clock that is being steered

A commit of `adjfine` changes the rate from the sampled ART value on. A reading
that converts an older value, or a commit at a value older than one that has
been converted already, lets two readings use different rates for the same
stretch of ART, and the later of them can come out earlier.
-/

namespace Tgpio

open Interference Interference.Prog

set_option autoImplicit false

/-- A reading of the clock, or a change of its frequency. -/
inductive SteeringRequest where
  | now
  | adjfine (scaledPpm : Int)
  deriving DecidableEq, Repr

inductive SteeringAnswer where
  | time (now : S64Result)
  | status (status : Except Errno Unit)
  deriving DecidableEq

def steer (hardwarePeriodicOutput : Bool) : SteeringRequest → ClockCall SteeringAnswer
  | .now => do
    let now ← phcNowNs
    return .time now
  | .adjfine scaledPpm => do
    let status ← ptpAdjfine .phc hardwarePeriodicOutput scaledPpm
    return .status status

/-- No conversion and no commit uses an ART value older than the anchor in
force, and no commit one older than a value already converted. -/
def Fresh : ClockOp → Timebase → Prop
  | .clockPhcArtToNs art, s => s.phc.anchorArt ≤ art
  | .phcUpdate art _, s => s.phc.anchorArt ≤ art ∧ s.converted ≤ art
  | _, _ => True

/-- Readings and changes of the frequency in PHC mode, on an ART counter that
never goes back. -/
def steeringPool (hardwarePeriodicOutput : Bool) (guard : ClockOp → Timebase → Prop) :
    Pool ClockOp ClockOp.Resp Timebase SteeringRequest SteeringAnswer where
  toSemantics := clockSem (· ≤ ·) guard
  program := steer hardwarePeriodicOutput

abbrev SteeringCall := Call ClockOp ClockOp.Resp Timebase SteeringRequest SteeringAnswer

section reading

/-- A time read at some ART value: later values read no less. -/
def Known (s : Timebase) (time : Int) (art : Nat) : Prop :=
  art ≤ s.converted ∧ ∀ later, s.phc.anchorArt ≤ later → art ≤ later → time ≤ phcTime s.phc later

/-- The times read by the calls that had returned when this one began. -/
def EarlierBy (s : Timebase) (call : SteeringCall) (art : Nat) : Prop :=
  ∀ time, (.now, .time (.ok time)) ∈ call.earlier → ∃ before ≤ art, Known s time before

/-- How far a call has come. -/
inductive Steering (hardwarePeriodicOutput : Bool) (s : Timebase) (call : SteeringCall) : Prop where
  | reads : call.rest = (phcNowNs >>= fun now => return .time now) → EarlierBy s call s.art →
      Steering hardwarePeriodicOutput s call
  | sampled (art : Nat) : call.rest = (clockPhcArtToNsCall art >>= fun now => return .time now) →
      art ≤ s.art → EarlierBy s call art → Steering hardwarePeriodicOutput s call
  | read (time : Int) (art : Nat) : call.rest = ret (.time (.ok time)) → art ≤ s.art →
      Known s time art → (∀ before, (.now, .time (.ok before)) ∈ call.earlier → before ≤ time) →
      Steering hardwarePeriodicOutput s call
  | failed (status : Errno) : call.rest = ret (.time (.error status)) →
      Steering hardwarePeriodicOutput s call
  | adjusts (scaledPpm : Int) : call.rest =
        (commitAtArt (adjfineCommit scaledPpm) (tellFrequency hardwarePeriodicOutput) >>=
          fun status => return .status status) →
      -phcMaxAdjPpb ≤ scaledPpmToPpb scaledPpm → scaledPpmToPpb scaledPpm ≤ phcMaxAdjPpb →
      Steering hardwarePeriodicOutput s call
  | commits (art : Nat) (scaledPpm : Int) : call.rest =
        (phcUpdate art (adjfineCommit scaledPpm) >>= fun status =>
          afterCommit (tellFrequency hardwarePeriodicOutput) status >>= fun status =>
            return .status status) →
      -phcMaxAdjPpb ≤ scaledPpmToPpb scaledPpm → scaledPpmToPpb scaledPpm ≤ phcMaxAdjPpb →
      Steering hardwarePeriodicOutput s call
  | tells : call.rest = (updateOutputsAfterPhcFreq >>= fun _ => return .status (.ok ())) →
      Steering hardwarePeriodicOutput s call
  | adjusted (status : Except Errno Unit) : call.rest = ret (.status status) →
      Steering hardwarePeriodicOutput s call

variable {s t : Timebase} {time : Int} {art : Nat} {hardwarePeriodicOutput : Bool}
  {call : SteeringCall}

theorem adjfine_commit_refused {phc next : PhcParams} {scaledPpm : Int} {status : Errno}
    (refused : adjfineCommit scaledPpm art phc = (.error status, next)) : next = phc := by
  unfold adjfineCommit at refused
  split at refused
  · cases refused
    rfl
  · cases refused

theorem adjfine_commit_ok {phc next : PhcParams} {scaledPpm : Int}
    (committed : adjfineCommit scaledPpm art phc = (.ok (), next)) :
    ∃ now, phcArtToNs phc art = .ok now ∧ next = phcParamsMake art now phc.baseArtHz scaledPpm := by
  unfold adjfineCommit at committed
  split at committed
  · cases committed
  · rename_i now read
    cases committed
    exact ⟨now, read, rfl⟩

theorem phc_time_anchor (phc : PhcParams) : phcTime phc phc.anchorArt = phc.anchorNs := by
  unfold phcTime offsetTime cyclesTime
  simp [down_zero, adjusted_zero, with_sign_zero]

theorem Known.env (known : Known s time art) (same : t = { s with art := t.art }) :
    Known t time art := by
  rw [same]
  exact known

theorem Known.convert (known : Known s time art) (converted : Nat) :
    Known { s with converted := max s.converted converted } time art :=
  ⟨known.1.trans (Nat.le_max_left _ _), known.2⟩

/-- From a fresh ART value on, the new rate starts at the time of the old. -/
theorem Known.commit {at_ : Nat} {now scaledPpm : Int} (known : Known s time art)
    (old : Modest s.phc.baseArtHz (scaledPpmToPpb s.phc.scaledPpm))
    (new : Modest s.phc.baseArtHz (scaledPpmToPpb scaledPpm))
    (anchored : s.phc.anchorArt ≤ at_) (newest : s.converted ≤ at_)
    (read : phcArtToNs s.phc at_ = .ok now) :
    Known { s with phc := phcParamsMake at_ now s.phc.baseArtHz scaledPpm } time art := by
  refine ⟨known.1, fun later after_ _ => ?_⟩
  have before : time ≤ phcTime s.phc at_ := known.2 at_ anchored (known.1.trans newest)
  have start := phc_time_anchor (phcParamsMake at_ now s.phc.baseArtHz scaledPpm)
  have rises := @phc_time_mono (phcParamsMake at_ now s.phc.baseArtHz scaledPpm) at_ later new after_
  have exact_ := (phc_art_to_ns_eq old read).1
  dsimp only [phcParamsMake] at start rises ⊢
  omega

/-- The stages outlast any step that keeps what is known. -/
theorem Steering.mono (stage : Steering hardwarePeriodicOutput s call) (older : s.art ≤ t.art)
    (keeps : ∀ time art, Known s time art → Known t time art) :
    Steering hardwarePeriodicOutput t call := by
  have transfer {bound bound' : Nat} (before : EarlierBy s call bound) (wider : bound ≤ bound') :
      EarlierBy t call bound' := by
    intro time member
    obtain ⟨art, within, known⟩ := before time member
    exact ⟨art, within.trans wider, keeps time art known⟩
  cases stage with
  | reads rest before => exact .reads rest (transfer before older)
  | sampled art rest sampled before =>
      exact .sampled art rest (sampled.trans older) (transfer before le_rfl)
  | read time art rest sampled known ordered =>
      exact .read time art rest (sampled.trans older) (keeps time art known) ordered
  | failed status rest => exact .failed status rest
  | adjusts scaledPpm rest slow fast => exact .adjusts scaledPpm rest slow fast
  | commits art scaledPpm rest slow fast => exact .commits art scaledPpm rest slow fast
  | tells rest => exact .tells rest
  | adjusted status rest => exact .adjusted status rest

/-- The rates of the clock in force are modest. -/
def Rated (baseArtHz : Nat) (s : Timebase) (_ : PUnit) : Prop :=
  s.phc.baseArtHz = baseArtHz ∧ Modest baseArtHz (scaledPpmToPpb s.phc.scaledPpm)

variable {baseArtHz : Nat}

theorem Steering.step {later : ClockCall SteeringAnswer}
    (step : Step (steeringPool hardwarePeriodicOutput Fresh).toSemantics call.rest s later t)
    (rated : Rated baseArtHz s ⟨⟩) (stage : Steering hardwarePeriodicOutput s call) :
    Rated baseArtHz t ⟨⟩ ∧
      Steering hardwarePeriodicOutput t (call.stepped s t later) ∧ s.art ≤ t.art ∧
      ∀ time art, Known s time art → Known t time art := by
  cases stage with
  | reads rest before =>
      rw [rest] at step
      change Step _ (Prog.call .currentArt _) s later t at step
      cases step with
      | @call _ _ _ _ reply sampled =>
          obtain ⟨-, rfl, exact_⟩ := sampled
          refine ⟨rated, ?_, le_rfl, fun _ _ known => known⟩
          cases reply with
          | error status => exact .failed status rfl
          | ok art =>
              cases exact_ art rfl
              exact .sampled t.art rfl le_rfl before
  | sampled art rest sampled before =>
      rw [rest] at step
      change Step _ (Prog.call (.clockPhcArtToNs art) _) s later t at step
      cases step with
      | @call _ _ _ _ reply converted =>
          obtain ⟨anchored, rfl, rfl⟩ := converted
          refine ⟨rated, ?_, le_rfl, fun _ _ known => known.convert art⟩
          cases read : phcArtToNs s.phc art with
          | error status => exact .failed status rfl
          | ok now =>
              have modest : Modest s.phc.baseArtHz (scaledPpmToPpb s.phc.scaledPpm) :=
                rated.1 ▸ rated.2
              obtain ⟨rfl, -⟩ := phc_art_to_ns_eq modest read
              refine .read _ art rfl sampled ⟨Nat.le_max_right _ _, ?_⟩ ?_
              · intro later _ newer
                exact phc_time_mono modest newer
              · intro time member
                obtain ⟨bound, older, known⟩ := before time member
                exact known.2 art anchored older
  | read time art rest =>
      rw [rest] at step
      cases step
  | failed status rest =>
      rw [rest] at step
      cases step
  | adjusts scaledPpm rest slow fast =>
      rw [rest] at step
      change Step _ (Prog.call .currentArt _) s later t at step
      cases step with
      | @call _ _ _ _ reply sampled =>
          obtain ⟨-, rfl, exact_⟩ := sampled
          refine ⟨rated, ?_, le_rfl, fun _ _ known => known⟩
          cases reply with
          | error status => exact .adjusted (.error .enodev) rfl
          | ok art => exact .commits art scaledPpm rfl slow fast
  | commits art scaledPpm rest slow fast =>
      rw [rest] at step
      change Step _ (Prog.call (.phcUpdate art _) _) s later t at step
      cases step with
      | @call _ _ _ _ reply update =>
          obtain ⟨⟨anchored, newest⟩, rfl, rfl⟩ := update
          cases done : adjfineCommit scaledPpm art s.phc with
          | mk status next =>
              cases status with
              | error status =>
                  cases adjfine_commit_refused done
                  exact ⟨rated, .adjusted (.error status) rfl, le_rfl, fun _ _ known => known⟩
              | ok value =>
                  obtain ⟨now, read, rfl⟩ := adjfine_commit_ok done
                  have old : Modest s.phc.baseArtHz (scaledPpmToPpb s.phc.scaledPpm) :=
                    rated.1 ▸ rated.2
                  have new : Modest s.phc.baseArtHz (scaledPpmToPpb scaledPpm) :=
                    ⟨old.positive, old.rate, slow, fast⟩
                  refine ⟨⟨rated.1, rated.1 ▸ new⟩, ?_, le_rfl, fun _ _ known =>
                    known.commit old new anchored newest read⟩
                  cases hardwarePeriodicOutput with
                  | true => exact .tells rfl
                  | false => exact .adjusted (.ok ()) rfl
  | tells rest =>
      rw [rest] at step
      change Step _ (Prog.call .updateOutputsAfterPhcFreq _) s later t at step
      cases step with
      | @call _ _ _ _ reply told =>
          obtain ⟨-, rfl⟩ := told
          exact ⟨rated, .adjusted (.ok ()) rfl, le_rfl, fun _ _ known => known⟩
  | adjusted status rest =>
      rw [rest] at step
      cases step

/-- A call knows, of the calls before it, the times they have read. -/
theorem Steering.newCall {calls : List SteeringCall} (request : SteeringRequest)
    (stages : ∀ call ∈ calls, Steering hardwarePeriodicOutput s call) :
    Steering hardwarePeriodicOutput s
      ((steeringPool hardwarePeriodicOutput Fresh).newCall request calls) := by
  cases request with
  | now =>
      refine .reads rfl fun time member => ?_
      obtain ⟨call, listed, -, returned⟩ := mem_answered member
      cases stages call listed with
      | read time art rest sampled known ordered =>
          rw [Call.answer, rest] at returned
          cases returned
          exact ⟨art, sampled, known⟩
      | failed status rest | adjusted status rest =>
          rw [Call.answer, rest] at returned
          cases returned
      | reads rest | sampled art rest | adjusts scaledPpm rest | commits art scaledPpm rest
      | tells rest =>
          rw [Call.answer, rest] at returned
          cases returned
  | adjfine scaledPpm =>
      by_cases fast : scaledPpmToPpb scaledPpm > phcMaxAdjPpb ∨
          scaledPpmToPpb scaledPpm < -phcMaxAdjPpb
      · refine .adjusted (.error .erange) ?_
        change (ptpAdjfine .phc hardwarePeriodicOutput scaledPpm >>= _) = _
        rw [ptpAdjfine, if_pos fast]
        rfl
      · refine .adjusts scaledPpm ?_ (by omega) (by omega)
        change (ptpAdjfine .phc hardwarePeriodicOutput scaledPpm >>= _) = _
        rw [ptpAdjfine, if_neg fast]

theorem steering_accounts : (steeringPool hardwarePeriodicOutput Fresh).Accounts
    (Rated baseArtHz) fun s call _ => Steering hardwarePeriodicOutput s call where
  env s t _ step rated := by
    refine ⟨?_, fun call _ stage => ?_⟩
    · rw [step.2]
      exact rated
    · exact stage.mono step.1 fun _ _ known => known.env step.2
  begin s request calls _ _ stages := .newCall request fun call member =>
    (stages call member).elim fun _ stage => stage
  step s t call later _ _ step rated stage := by
    obtain ⟨kept, own, older, keeps⟩ := stage.step step rated
    exact ⟨⟨⟩, kept, own, fun _ _ other => other.mono older keeps⟩

end reading

/-- As long as no stale ART value is converted or committed, a reading is never
earlier than one that was over before it began. -/
theorem readings_ordered (hardwarePeriodicOutput : Bool) (first : PhcParams) (art : Nat)
    (modest : Modest first.baseArtHz (scaledPpmToPpb first.scaledPpm))
    (last : Pool.Config ClockOp ClockOp.Resp Timebase SteeringRequest SteeringAnswer)
    (reaches : (steeringPool hardwarePeriodicOutput Fresh).Reaches ⟨⟨first, art, 0⟩, []⟩ last)
    (call : SteeringCall) (member : call ∈ last.calls) (before after : Int)
    (ended : (.now, .time (.ok before)) ∈ call.earlier)
    (read : call.answer = some (.time (.ok after))) : before ≤ after := by
  obtain ⟨entries, each, -⟩ := steering_accounts.reaches reaches ⟨[], .nil, rfl, modest⟩
  obtain ⟨_, stage⟩ := Pool.exists_partner each call member
  cases stage with
  | read time art rest sampled known ordered =>
      rw [Call.answer, rest] at read
      cases read
      exact ordered before ended
  | failed status rest | adjusted status rest =>
      rw [Call.answer, rest] at read
      cases read
  | reads rest | sampled art rest | adjusts scaledPpm rest | commits art scaledPpm rest
  | tells rest =>
      rw [Call.answer, rest] at read
      cases read

/-- The same condition, for schedules on given states. -/
def isFresh : ClockOp → Timebase → Bool
  | .clockPhcArtToNs art, s => s.phc.anchorArt ≤ art
  | .phcUpdate art _, s => s.phc.anchorArt ≤ art && s.converted ≤ art
  | _, _ => true

theorem fresh_of_is_fresh (op : ClockOp) (s : Timebase) (fresh : isFresh op s = true) :
    Fresh op s := by
  cases op with
  | clockPhcArtToNs art => exact (of_decide_eq_true fresh : s.phc.anchorArt ≤ art)
  | phcUpdate art update =>
      obtain ⟨anchored, newest⟩ := Bool.and_eq_true_iff.mp fresh
      exact ⟨(of_decide_eq_true anchored : s.phc.anchorArt ≤ art), of_decide_eq_true newest⟩
  | _ => trivial

def freshTracer : (steeringPool true Fresh).Tracer Nat :=
  clockTracer (· ≤ ·) isFresh fresh_of_is_fresh (steer true)

def steeringTracer : (steeringPool true anyAccess).Tracer Nat :=
  clockTracer (· ≤ ·) (fun _ _ => true) (fun _ _ _ => trivial) (steer true)

def crystal : PhcParams := ⟨1000, 5000000000, 38400000, 0⟩

/-- A reading on either side of a change of the frequency to -10 %. -/
def steadySchedule : List (Pool.Scheduled SteeringRequest Nat) :=
  [.begin .now, .act 1960, .step 0, .step 0, .begin (.adjfine (-6553600000)), .act 2920, .step 1,
    .step 1, .step 1, .begin .now, .act 3880, .step 2, .step 2]

/-- The change samples ART before the first reading and commits after it. -/
def staleSchedule : List (Pool.Scheduled SteeringRequest Nat) :=
  [.begin (.adjfine (-6553600000)), .step 0, .act 1960, .begin .now, .step 1, .step 1, .step 0,
    .step 0, .begin .now, .step 2, .step 2]

theorem readings_ordered_steady : (5000025000 : Int) ≤ 5000072500 := by
  have reaches := freshTracer.after_reaches ⟨⟨crystal, 1000, 0⟩, []⟩ steadySchedule
    (by decide +kernel)
  have reads : ∃ call ∈ (freshTracer.after ⟨⟨crystal, 1000, 0⟩, []⟩ steadySchedule).calls,
      (.now, .time (.ok 5000025000)) ∈ call.earlier ∧
        call.answer = some (.time (.ok 5000072500)) := by
    decide +kernel
  obtain ⟨call, member, ended, read⟩ := reads
  exact readings_ordered true crystal 1000 ⟨by decide, by decide, by decide, by decide⟩ _ reaches
    call member _ _ ended read

/-- Without the condition, a change that samples ART first and commits after a
reading takes back 2500 ns of what was read. -/
theorem stale_rate_change_turns_back :
    ¬∀ (hardwarePeriodicOutput : Bool) (first : PhcParams) (art : Nat),
      Modest first.baseArtHz (scaledPpmToPpb first.scaledPpm) →
      ∀ last : Pool.Config ClockOp ClockOp.Resp Timebase SteeringRequest SteeringAnswer,
        (steeringPool hardwarePeriodicOutput anyAccess).Reaches ⟨⟨first, art, 0⟩, []⟩ last →
        ∀ call ∈ last.calls, ∀ before after : Int,
          (.now, .time (.ok before)) ∈ call.earlier →
          call.answer = some (.time (.ok after)) → before ≤ after := by
  intro ordered
  have reaches := steeringTracer.after_reaches ⟨⟨crystal, 1000, 0⟩, []⟩ staleSchedule
    (by decide +kernel)
  have reads : ∃ call ∈ (steeringTracer.after ⟨⟨crystal, 1000, 0⟩, []⟩ staleSchedule).calls,
      (.now, .time (.ok 5000025000)) ∈ call.earlier ∧
        call.answer = some (.time (.ok 5000022500)) := by
    decide +kernel
  obtain ⟨call, member, ended, read⟩ := reads
  have order := ordered true crystal 1000 ⟨by decide, by decide, by decide, by decide⟩ _ reaches
    call member _ _ ended read
  exact absurd order (by decide)

end Tgpio

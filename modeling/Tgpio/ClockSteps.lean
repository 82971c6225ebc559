import Tgpio.ClockSteering
import Mathlib.Algebra.Group.Prod
import Mathlib.Algebra.Group.Int.Defs
import Mathlib.Algebra.Group.Nat.Defs

/-!
# Steps of the clock

A commit of `adjtime` moves the anchor to the sampled ART value, which may be
older or newer than the anchor in force, and adds its delta there. Elsewhere the
new mapping differs from the shifted old one by the rounding of two distances
instead of one.
-/

namespace Tgpio

open Interference Interference.Prog

set_option autoImplicit false

section commits

variable {phc next : PhcParams} {art : Nat} {delta : Int}

theorem adjtime_commit_refused {status : Errno}
    (refused : adjtimeCommit delta art phc = (.error status, next)) : next = phc := by
  unfold adjtimeCommit at refused
  split at refused
  · cases refused
    rfl
  split at refused
  · cases refused
    rfl
  split at refused
  · cases refused
    rfl
  · cases refused

/-- A commit that succeeds puts the anchor at the sample, `delta` later than
the old mapping had it. -/
theorem adjtime_commit_ok (committed : adjtimeCommit delta art phc = (.ok (), next)) :
    ∃ now, phcArtToNs phc art = .ok now ∧
      next = phcParamsMake art (now + delta) phc.baseArtHz phc.scaledPpm := by
  unfold adjtimeCommit at committed
  split at committed
  · cases committed
  rename_i now read
  split at committed
  · cases committed
  rename_i adjusted added
  split at committed
  · cases committed
  · cases committed
    rw [(add_s64_eq added).1]
    exact ⟨now, read, rfl⟩

/-- Away from the sample the step is off by three nanoseconds at most. -/
theorem rebase_near {now : Int}
    (modest : Modest phc.baseArtHz (scaledPpmToPpb phc.scaledPpm))
    (read : phcArtToNs phc art = .ok now) (at_ : Nat) :
    (phcTime (phcParamsMake art (now + delta) phc.baseArtHz phc.scaledPpm) at_ -
      phcTime phc at_ - delta).natAbs ≤ 3 := by
  obtain ⟨exact_, -⟩ := phc_art_to_ns_eq modest read
  have near := offset_time_add ((art : Int) - phc.anchorArt) ((at_ : Int) - art) modest
  have whole : (art : Int) - phc.anchorArt + ((at_ : Int) - art) = at_ - phc.anchorArt := by omega
  rw [whole] at near
  unfold phcTime phcParamsMake at *
  dsimp only
  omega

end commits

section accounting

def adjtimePool : Pool ClockOp ClockOp.Resp Timebase Int (Except Errno Unit) where
  toSemantics := clockSem (fun _ _ => True) anyAccess
  program := ptpAdjtime .phc

/-- A step of a call that leaves the mapping at the sampled ART value `delta`
later, exactly. -/
def CommitsAt (art : Nat) (delta : Int) (s t : Timebase) : Prop :=
  ∃ now, phcArtToNs s.phc art = .ok now ∧ phcArtToNs t.phc art = .ok (now + delta)

def Untouched (trace : List (Timebase × Timebase)) : Prop :=
  ∀ step ∈ trace, step.2.phc = step.1.phc

/-- How far an `adjtime` call has come, the steps it has taken, and what it has
added to the clock. -/
inductive Adjusting (delta : Int) :
    ClockCall (Except Errno Unit) → List (Timebase × Timebase) → Int × Nat → Prop where
  | begun : Adjusting delta (ptpAdjtime .phc delta) [] 0
  | sampled (s : Timebase) : Adjusting delta
      (phcUpdate s.art (adjtimeCommit delta) >>= afterCommit resyncOutputsAfterPhcStep) [(s, s)] 0
  | refused {status : Errno} {trace : List (Timebase × Timebase)} : Untouched trace →
      Adjusting delta (ret (.error status)) trace 0
  | committed {sample s t : Timebase} : CommitsAt sample.art delta s t →
      Adjusting delta (afterCommit resyncOutputsAfterPhcStep (.ok ())) [(sample, sample), (s, t)]
        (delta, 1)
  | returned {sample s t u : Timebase} : CommitsAt sample.art delta s t →
      Adjusting delta (ret (.ok ())) [(sample, sample), (s, t), (u, u)] (delta, 1)

/-- The rates stay, and the mapping is the first one moved by the sum of the
steps, up to three nanoseconds for each. -/
structure Drifted (first : PhcParams) (s : Timebase) (total : Int × Nat) : Prop where
  rate : s.phc.baseArtHz = first.baseArtHz
  ppm : s.phc.scaledPpm = first.scaledPpm
  near : ∀ art, (phcTime s.phc art - phcTime first art - total.1).natAbs ≤ 3 * total.2

abbrev AdjtimeCall := Call ClockOp ClockOp.Resp Timebase Int (Except Errno Unit)

def AdjtimeDue (_ : Timebase) (call : AdjtimeCall) (entry : Int × Nat) : Prop :=
  Adjusting call.request call.rest call.trace entry

variable {first : PhcParams}

theorem Drifted.commit {s : Timebase} {art : Nat} {delta now : Int} {others : Int × Nat}
    (modest : Modest first.baseArtHz (scaledPpmToPpb first.scaledPpm))
    (drifted : Drifted first s (0 + others)) (read : phcArtToNs s.phc art = .ok now) :
    Drifted first { s with phc := phcParamsMake art (now + delta) s.phc.baseArtHz s.phc.scaledPpm }
      ((delta, 1) + others) := by
  refine ⟨drifted.rate, drifted.ppm, fun at_ => ?_⟩
  have before := drifted.near at_
  rw [← drifted.rate, ← drifted.ppm] at modest
  have moved := @rebase_near s.phc art delta now modest read at_
  rw [zero_add] at before
  simp only [Prod.fst_add, Prod.snd_add]
  omega

theorem adjtime_step {s t : Timebase} {call : AdjtimeCall}
    {later : ClockCall (Except Errno Unit)} {entry others : Int × Nat}
    (modest : Modest first.baseArtHz (scaledPpmToPpb first.scaledPpm))
    (step : Step adjtimePool.toSemantics call.rest s later t)
    (drifted : Drifted first s (entry + others)) (due : AdjtimeDue s call entry) :
    ∃ next, Drifted first t (next + others) ∧ AdjtimeDue t (call.stepped s t later) next := by
  obtain ⟨delta, earlier, trace, rest⟩ := call
  unfold AdjtimeDue at due ⊢
  dsimp only [Call.stepped] at *
  cases due with
  | begun =>
      change Step _ (call .currentArt _) s later t at step
      cases step with
      | @call _ _ _ _ reply sampled =>
          obtain ⟨-, rfl, read⟩ := sampled
          refine ⟨0, drifted, ?_⟩
          cases reply with
          | error status => exact .refused (by simp [Untouched])
          | ok art =>
              cases read art rfl
              exact .sampled t
  | sampled sample =>
      change Step _ (call (.phcUpdate _ _) _) s later t at step
      cases step with
      | @call _ _ _ _ reply update =>
          obtain ⟨-, rfl, rfl⟩ := update
          cases done : adjtimeCommit delta sample.art s.phc with
          | mk status next =>
              cases status with
              | error status =>
                  cases adjtime_commit_refused done
                  refine ⟨0, drifted, ?_⟩
                  exact .refused (by simp [Untouched])
              | ok value =>
                  obtain ⟨now, read, rfl⟩ := adjtime_commit_ok done
                  refine ⟨(delta, 1), drifted.commit modest read, .committed ⟨now, read, ?_⟩⟩
                  refine phc_art_to_ns_anchor _ _ _ _ ?_
                  rw [drifted.rate]
                  exact modest.positive
  | refused => cases step
  | committed commits =>
      change Step _ (call .resyncOutputsAfterPhcStep _) s later t at step
      cases step with
      | @call _ _ _ _ reply told =>
          obtain ⟨-, rfl⟩ := told
          exact ⟨_, drifted, .returned commits⟩
  | returned commits => cases step

theorem adjtime_accounts (modest : Modest first.baseArtHz (scaledPpmToPpb first.scaledPpm)) :
    adjtimePool.Accounts (Drifted first) AdjtimeDue where
  env s t total step drifted := by
    refine ⟨⟨?_, ?_, ?_⟩, fun _ _ due => due⟩
    · rw [step.2]
      exact drifted.rate
    · rw [step.2]
      exact drifted.ppm
    · rw [step.2]
      exact drifted.near
  begin _ _ _ _ _ _ := .begun
  step s t call later entry others step drifted due := by
    obtain ⟨next, kept, own⟩ := adjtime_step modest step drifted due
    exact ⟨next, kept, own, fun _ _ due => due⟩

def succeeded (calls : List AdjtimeCall) : List Int :=
  calls.filterMap fun call => match call.answer with
    | some (.ok ()) => some call.request
    | _ => none

theorem entries_sum {s : Timebase} {calls : List AdjtimeCall} {entries : List (Int × Nat)}
    (each : List.Forall₂ (AdjtimeDue s) calls entries)
    (returned : ∀ call ∈ calls, call.answer.isSome = true) :
    entries.sum = ((succeeded calls).sum, (succeeded calls).length) := by
  induction each with
  | nil => rfl
  | @cons call entry calls entries due _ ih =>
      have others := ih fun other member => returned other (List.mem_cons_of_mem _ member)
      have own := returned call List.mem_cons_self
      rw [List.sum_cons, others]
      obtain ⟨delta, earlier, trace, rest⟩ := call
      unfold AdjtimeDue at due
      dsimp only at due
      cases due with
      | begun => cases own
      | sampled => cases own
      | committed => cases own
      | refused =>
          simp [succeeded, Call.answer, Prog.answer]
      | returned =>
          simp [succeeded, Call.answer, Prog.answer, add_comm]

end accounting

/-- Concurrent steps add up: once all calls have returned, the clock is where
the steps that returned 0 put it, up to three nanoseconds for each. A refused
call has not touched it, and a successful one has moved it, at the ART value it
sampled, by exactly its delta. -/
theorem adjtime_steps_add_up (first : PhcParams) (art : Nat)
    (modest : Modest first.baseArtHz (scaledPpmToPpb first.scaledPpm))
    (last : Pool.Config ClockOp ClockOp.Resp Timebase Int (Except Errno Unit))
    (reaches : adjtimePool.Reaches ⟨⟨first, art, 0⟩, []⟩ last) :
    ((∀ call ∈ last.calls, call.answer.isSome = true) → ∀ at_ before after,
      phcArtToNs first at_ = .ok before → phcArtToNs last.state.phc at_ = .ok after →
      (after - before - (succeeded last.calls).sum).natAbs ≤ 3 * (succeeded last.calls).length) ∧
    (∀ call ∈ last.calls, ∀ status, call.answer = some (.error status) → Untouched call.trace) ∧
    (∀ call ∈ last.calls, call.answer = some (.ok ()) → ∃ sample s t u,
      call.trace = [(sample, sample), (s, t), (u, u)] ∧ CommitsAt sample.art call.request s t) := by
  have start : Drifted first ⟨first, art, 0⟩ 0 := ⟨rfl, rfl, fun _ => by simp⟩
  obtain ⟨entries, each, drifted⟩ :=
    (adjtime_accounts modest).reaches reaches ⟨[], .nil, start⟩
  refine ⟨?_, ?_, ?_⟩
  · intro returned at_ before after first_ last_
    have near := drifted.near at_
    rw [entries_sum each returned] at near
    rw [(phc_art_to_ns_eq modest first_).1]
    rw [← drifted.rate, ← drifted.ppm] at modest
    rw [(phc_art_to_ns_eq modest last_).1]
    exact near
  · intro call member status answered
    obtain ⟨entry, due⟩ := Pool.exists_partner each call member
    obtain ⟨delta, earlier, trace, rest⟩ := call
    unfold AdjtimeDue at due
    dsimp only at due
    cases due with
    | refused untouched => exact untouched
    | _ => cases answered
  · intro call member answered
    obtain ⟨entry, due⟩ := Pool.exists_partner each call member
    obtain ⟨delta, earlier, trace, rest⟩ := call
    unfold AdjtimeDue at due
    dsimp only at due
    cases due with
    | returned commits => exact ⟨_, _, _, _, rfl, commits⟩
    | _ => cases answered

def adjtimeTracer : adjtimePool.Tracer Nat :=
  clockTracer (fun _ _ => True) (fun _ _ => true) (fun _ _ _ => trivial) (ptpAdjtime .phc)

/-- A step forward by a call that samples first and commits last, around a step
back. -/
def crossedSteps : List (Pool.Scheduled Int Nat) :=
  [.begin 5000000, .begin (-3000000), .act 2000, .step 0, .act 5000, .step 1, .step 1, .step 0,
    .step 0, .step 1]

theorem adjtime_steps_add_up_crossed :
    ∃ before after, phcArtToNs ⟨1000, 5000000000, 38400000, 6553600⟩ 1000000 = .ok before ∧
      phcArtToNs ((adjtimeTracer.after
        ⟨⟨⟨1000, 5000000000, 38400000, 6553600⟩, 1000, 0⟩, []⟩ crossedSteps).state.phc) 1000000 =
        .ok after ∧ (after - before - 2000000).natAbs ≤ 6 := by
  have reaches := adjtimeTracer.after_reaches
    ⟨⟨⟨1000, 5000000000, 38400000, 6553600⟩, 1000, 0⟩, []⟩ crossedSteps (by decide +kernel)
  have sums := (adjtime_steps_add_up _ _ ⟨by decide, by decide, by decide, by decide⟩ _ reaches).1
    (by decide +kernel)
  exact ⟨5026018226, 5028018225, by decide, by decide +kernel,
    sums 1000000 5026018226 5028018225 (by decide) (by decide +kernel)⟩

end Tgpio

import Tgpio.ArtMaintenance
import Tgpio.Interference.Seqlock
import Tgpio.SteeredClock

/-!
# The parameters of the clock, word by word

Four parameters map ART to the time of the clock. The operations and the refine
work assign all of them behind `phc_seqlock`, and `tgpio_phc_params_get` copies
them, one word at a time. A copy is never of an anchor with another's rate: what
it converts is the time that is meant at one moment of the call.
-/

namespace Tgpio

open Interference Interference.Prog Scaling

set_option autoImplicit false

inductive PhcField where
  | anchorArt
  | anchorNs
  | baseArtHz
  | scaledPpm
  deriving DecidableEq, Repr

def PhcField.Word : PhcField → Type
  | .anchorArt | .baseArtHz => Nat
  | .anchorNs | .scaledPpm => Int

abbrev PhcWords := (field : PhcField) → field.Word

namespace PhcParams

def words (phc : PhcParams) : PhcWords
  | .anchorArt => phc.anchorArt
  | .anchorNs => phc.anchorNs
  | .baseArtHz => phc.baseArtHz
  | .scaledPpm => phc.scaledPpm

def ofWords (words : PhcWords) : PhcParams where
  anchorArt := words .anchorArt
  anchorNs := words .anchorNs
  baseArtHz := words .baseArtHz
  scaledPpm := words .scaledPpm

theorem of_words_words (phc : PhcParams) : ofWords phc.words = phc := rfl

end PhcParams

section steering

/-- A section under `phc_seqlock`, at the ART value sampled before it. Of the
refine work, that with the rate it has found. -/
inductive PhcSection where
  | settime (art : Nat) (ts : Timespec64)
  | adjtime (art : Nat) (delta : Int)
  | adjfine (art : Nat) (scaledPpm : Int)
      (within : -phcMaxAdjPpb ≤ scaledPpmToPpb scaledPpm ∧ scaledPpmToPpb scaledPpm ≤ phcMaxAdjPpb)
  | retune (art baseArtHz : Nat) (scaledPpm : Int)
      (modest : Modest baseArtHz (scaledPpmToPpb scaledPpm))

def committed : Except Errno Unit × PhcParams → Option PhcParams
  | (.ok (), next) => some next
  | (.error _, _) => none

theorem committed_eq {result : Except Errno Unit × PhcParams} {next : PhcParams}
    (assigned : committed result = some next) : result = (.ok (), next) := by
  obtain ⟨_ | _, value⟩ := result
  · cases assigned
  · cases assigned
    rfl

/-- The section of the refine work. -/
def retuneCommit (art baseArtHz : Nat) (scaledPpm : Int) (phc : PhcParams) : Option PhcParams :=
  if phc.baseArtHz ≠ baseArtHz ∨ phc.scaledPpm ≠ scaledPpm then
    match phcArtToNs phc art with
    | .error _ => none
    | .ok now => some (phcParamsMake art now baseArtHz scaledPpm)
  else none

/-- The parameters a section assigns, if it does. -/
def PhcSection.next (phc : PhcParams) : PhcSection → Option PhcParams
  | .settime art ts => committed (settimeCommit (timespec64ToNs ts) art phc)
  | .adjtime art delta => committed (adjtimeCommit delta art phc)
  | .adjfine art scaledPpm _ => committed (adjfineCommit scaledPpm art phc)
  | .retune art baseArtHz scaledPpm _ => retuneCommit art baseArtHz scaledPpm phc

theorem retune_commit_eq {art baseArtHz : Nat} {scaledPpm : Int} {phc next : PhcParams}
    (assigned : retuneCommit art baseArtHz scaledPpm phc = some next) :
    ∃ now, phcArtToNs phc art = .ok now ∧ next = phcParamsMake art now baseArtHz scaledPpm := by
  unfold retuneCommit at assigned
  split at assigned
  · split at assigned
    · cases assigned
    · cases assigned
      exact ⟨_, ‹_›, rfl⟩
  · cases assigned

theorem apply_rate_retunes (clock : ArtClock) (art base : Nat) (scaled : Int) :
    (applyRate clock art base scaled).1.phc =
        (retuneCommit art base scaled clock.phc).getD clock.phc ∧
      (applyRate clock art base scaled).2 = (retuneCommit art base scaled clock.phc).isSome := by
  unfold applyRate retuneCommit
  split
  · cases phcArtToNs clock.phc art with
    | error status => exact ⟨rfl, rfl⟩
    | ok now => exact ⟨rfl, rfl⟩
  · exact ⟨rfl, rfl⟩

variable (order : SeqRequest PhcSection → List PhcField) (fields : PhcSection → List PhcField)

def PhcSection.stores (part : PhcSection) (found : PhcWords) :
    List ((field : PhcField) × field.Word) × Bool :=
  match part.next (.ofWords found) with
  | some next => (assign (fields part) next.words, true)
  | none => ([], false)

/-- Any number of sections and of `tgpio_phc_params_get`. -/
def phcSeqlock (blank : PhcWords) :
    Pool (SeqOp PhcField.Word PhcSection) SeqOp.Resp (Guarded PhcField.Word PhcSection)
      (SeqRequest PhcSection) (PhcParams ⊕ Bool) :=
  seqlock order blank (PhcSection.stores fields) PhcParams.ofWords

/-- The parameters after some sections. The last one comes first. -/
def steeredPhc (first : PhcParams) : List PhcSection → PhcParams
  | [] => first
  | part :: earlier =>
      (part.next (steeredPhc first earlier)).getD (steeredPhc first earlier)

/-- A clock without rounding, and its steps and tunings since it was last set. -/
structure MeantPhc where
  clock : Line ℚ
  roundings : Nat

def PhcSection.steers (baseArtHz : Nat) (meant : MeantPhc) : PhcSection → MeantPhc
  | .settime art ts => ⟨meant.clock.setTo art (timespec64ToNs ts), 0⟩
  | .adjtime _ delta => ⟨meant.clock.step delta, meant.roundings + 1⟩
  | .adjfine art scaledPpm _ =>
      ⟨meant.clock.tune art (pace baseArtHz (scaledPpmToPpb scaledPpm)), meant.roundings + 1⟩
  | .retune art hz scaledPpm _ =>
      ⟨meant.clock.tune art (pace hz (scaledPpmToPpb scaledPpm)), meant.roundings + 1⟩

/-- The clock that is meant after some sections: those that assigned nothing
have not steered it. -/
def meantPhc (first : PhcParams) : List PhcSection → MeantPhc
  | [] => ⟨lineOf first, 0⟩
  | part :: earlier =>
      match part.next (steeredPhc first earlier) with
      | some _ => part.steers (steeredPhc first earlier).baseArtHz (meantPhc first earlier)
      | none => meantPhc first earlier

variable {fields}

theorem stores_steer (complete : ∀ part field, field ∈ fields part) (part : PhcSection)
    (phc : PhcParams) :
    storeAll (part.stores fields phc.words).1 phc.words =
        ((part.next phc).getD phc).words ∧
      (part.stores fields phc.words).2 = (part.next phc).isSome := by
  unfold PhcSection.stores
  rw [PhcParams.of_words_words]
  cases part.next phc with
  | none => exact ⟨rfl, rfl⟩
  | some next => exact ⟨store_all_assign (complete part) _ _, rfl⟩

theorem replay_steered (complete : ∀ part field, field ∈ fields part) (first : PhcParams)
    (parts : List PhcSection) :
    replay (PhcSection.stores fields) first.words parts = (steeredPhc first parts).words := by
  induction parts with
  | nil => rfl
  | cons part earlier ih =>
      rw [replay, ih]
      exact (stores_steer complete part _).1

end steering

section accuracy

/-- Parameters that tell the time of a clock that is meant, rounded. -/
structure TellsTime (meant : MeantPhc) (phc : PhcParams) : Prop where
  modest : Modest phc.baseArtHz (scaledPpmToPpb phc.scaledPpm)
  near : Line.Near (meant.roundings * roundingNs) meant.clock (lineOf phc)

variable {meant : MeantPhc} {phc next : PhcParams}

theorem TellsTime.steered (part : PhcSection) (tells : TellsTime meant phc)
    (assigned : part.next phc = some next) :
    TellsTime (part.steers phc.baseArtHz meant) next := by
  have more (count : Nat) :
      ((count + 1 : Nat) * roundingNs : ℚ) = count * roundingNs + roundingNs := by
    rw [Nat.cast_succ, add_one_mul]
  cases part with
  | settime art ts =>
      cases assigned
      refine ⟨tells.modest, ?_⟩
      have near := tells.near.setTo (art : ℚ) (timespec64ToNs ts : ℚ)
      rw [← zero_mul roundingNs, ← Nat.cast_zero] at near
      exact near
  | adjtime art delta =>
      obtain ⟨now, read, rfl⟩ := adjtime_commit_ok (committed_eq assigned)
      have near := near_stepped delta tells.modest tells.near read
      rw [← more] at near
      exact ⟨tells.modest, near⟩
  | adjfine art scaledPpm within =>
      obtain ⟨now, read, rfl⟩ := adjfine_commit_ok (committed_eq assigned)
      have near := near_tuned phc.baseArtHz scaledPpm tells.modest tells.near read
      rw [← more] at near
      exact ⟨⟨tells.modest.positive, tells.modest.rate, within.1, within.2⟩, near⟩
  | retune art hz scaledPpm modest =>
      obtain ⟨now, read, rfl⟩ := retune_commit_eq assigned
      have near := near_tuned hz scaledPpm tells.modest tells.near read
      rw [← more] at near
      exact ⟨modest, near⟩

/-- The parameters keep the time that is meant, over any sections. -/
theorem steered_tells {first : PhcParams}
    (modest : Modest first.baseArtHz (scaledPpmToPpb first.scaledPpm)) (parts : List PhcSection) :
    TellsTime (meantPhc first parts) (steeredPhc first parts) := by
  induction parts with
  | nil =>
      refine ⟨modest, ?_⟩
      have near := Line.Near.refl (lineOf first)
      rw [← zero_mul roundingNs, ← Nat.cast_zero] at near
      exact near
  | cons part earlier ih =>
      rw [meantPhc, steeredPhc]
      cases assigned : part.next (steeredPhc first earlier) with
      | none => exact ih
      | some next => exact ih.steered part assigned

theorem TellsTime.converts {art : Nat} {now : Int} (tells : TellsTime meant phc)
    (converted : phcArtToNs phc art = .ok now) :
    |(now : ℚ) - meant.clock.valueAt art| ≤ (meant.roundings + 1) * roundingNs := by
  have near := tells.near.reading (converted_near tells.modest converted)
  rw [add_one_mul]
  exact near

end accuracy

/-- However the words of sections and copies are interleaved, a copy is of the
parameters in force at one moment of the call, and what it converts is the time
that is meant at that moment, up to one rounding and one more for each step and
tuning since the clock was last set. Each section goes by the parameters it
finds and takes effect once, in one step. -/
theorem phc_params_whole (order : SeqRequest PhcSection → List PhcField)
    (fields : PhcSection → List PhcField) (copied : ∀ request field, field ∈ order request)
    (stored : ∀ part field, field ∈ fields part)
    (blank : PhcWords) (first : PhcParams)
    (modest : Modest first.baseArtHz (scaledPpmToPpb first.scaledPpm))
    (last : Pool.Config (SeqOp PhcField.Word PhcSection) SeqOp.Resp
      (Guarded PhcField.Word PhcSection) (SeqRequest PhcSection) (PhcParams ⊕ Bool))
    (reaches : (phcSeqlock order fields blank).Reaches ⟨⟨first.words, 0, false, []⟩, []⟩ last) :
    (∀ call ∈ last.calls, call.request = .read → ∀ found, call.answer = some (.inl found) →
      Brief call.trace → ∃ step ∈ call.trace, found = steeredPhc first step.1.commits ∧
        ∀ art now, phcArtToNs found art = .ok now →
          |(now : ℚ) - (meantPhc first step.1.commits).clock.valueAt art| ≤
            ((meantPhc first step.1.commits).roundings + 1) * roundingNs) ∧
    (∀ call ∈ last.calls, ∀ part result, call.request = .write part →
      call.answer = some result → ∃ step ∈ call.trace,
        step.2.commits = part :: step.1.commits ∧
          result = .inr (part.next (steeredPhc first step.1.commits)).isSome) ∧
    ((∀ call ∈ last.calls, call.answer.isSome = true) →
      PhcParams.ofWords last.state.words = steeredPhc first last.state.commits ∧
        last.state.commits.Perm (sections last.calls)) := by
  have presented (parts : List PhcSection) :
      PhcParams.ofWords (replay (PhcSection.stores fields) first.words parts) =
        steeredPhc first parts := by
    rw [replay_steered stored, PhcParams.of_words_words]
  refine ⟨?_, ?_, ?_⟩
  · intro call member asked found answered brief
    obtain ⟨step, among, seen⟩ := seqlock_reads copied rfl reaches member asked answered brief
    rw [presented] at seen
    refine ⟨step, among, seen, fun art now converted => ?_⟩
    rw [seen] at converted
    exact (steered_tells modest _).converts converted
  · intro call member part result asked answered
    obtain ⟨answer, rfl, step, among, took, told⟩ :=
      seqlock_writes copied rfl reaches member asked answered
    refine ⟨step, among, took, ?_⟩
    rw [told, replay_steered stored, (stores_steer stored part _).2]
  · intro returned
    obtain ⟨words, once⟩ := seqlock_settles copied rfl reaches returned
    rw [words]
    exact ⟨presented _, once⟩

section tracing

def phcFields : List PhcField := [.anchorArt, .anchorNs, .baseArtHz, .scaledPpm]

/-- Copies go down the parameters, sections up. -/
def phcCopies : SeqRequest PhcSection → List PhcField
  | .read => phcFields
  | .write _ => phcFields.reverse

def phcStores : PhcSection → List PhcField := fun _ => phcFields.reverse

theorem mem_phc_fields (field : PhcField) : field ∈ phcFields := by
  cases field <;> decide

theorem mem_phc_copies (request : SeqRequest PhcSection) (field : PhcField) :
    field ∈ phcCopies request := by
  cases request with
  | read => exact mem_phc_fields field
  | write => exact List.mem_reverse.mpr (mem_phc_fields field)

def tunedPhc : PhcParams := ⟨1000, 5000000000, 38400000, 6553600⟩

/-- A copy has the anchor when the clock is set, and its rate afterwards. It is
made once more. -/
def setWhileCopied : List (Pool.Scheduled (SeqRequest PhcSection) Empty) :=
  [.begin .read, .begin (.write (.settime 2000 ⟨100, 5⟩))] ++ List.replicate 5 (.step 0) ++
    List.replicate 12 (.step 1) ++ List.replicate 11 (.step 0)

def phcSeqlockTracer : (phcSeqlock phcCopies phcStores tunedPhc.words).Tracer Empty :=
  seqlockTracer phcCopies tunedPhc.words (PhcSection.stores phcStores) PhcParams.ofWords

def copiedAgain : Pool.Config (SeqOp PhcField.Word PhcSection) SeqOp.Resp
    (Guarded PhcField.Word PhcSection) (SeqRequest PhcSection) (PhcParams ⊕ Bool) :=
  phcSeqlockTracer.after ⟨⟨tunedPhc.words, 0, false, []⟩, []⟩ setWhileCopied

theorem copied_listed : 0 < copiedAgain.calls.length := by decide +kernel

end tracing

theorem phc_params_whole_copied : ∃ call ∈ copiedAgain.calls, ∃ step ∈ call.trace,
    (⟨2000, 100000000005, 38400000, 6553600⟩ : PhcParams) =
      steeredPhc tunedPhc step.1.commits ∧
    |((100025992186 : Int) : ℚ) -
      (meantPhc tunedPhc step.1.commits).clock.valueAt (1000000 : Nat)| ≤
        ((meantPhc tunedPhc step.1.commits).roundings + 1) * roundingNs := by
  have reaches := phcSeqlockTracer.after_reaches ⟨⟨tunedPhc.words, 0, false, []⟩, []⟩
    setWhileCopied (by decide +kernel)
  have whole := phc_params_whole phcCopies phcStores mem_phc_copies
    (fun _ field => List.mem_reverse.mpr (mem_phc_fields field)) tunedPhc.words tunedPhc
    ⟨by decide, by decide, by decide, by decide⟩ _ reaches
  obtain ⟨step, among, found, converts⟩ := whole.1 (copiedAgain.calls.get ⟨0, copied_listed⟩)
    (List.get_mem _ _) rfl ⟨2000, 100000000005, 38400000, 6553600⟩ (by decide +kernel)
    (by unfold Brief; decide +kernel)
  exact ⟨_, List.get_mem _ _, step, among, found, converts 1000000 100025992186 (by decide +kernel)⟩

end Tgpio

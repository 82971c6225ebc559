import Tgpio.Interference.Seqlock
import Tgpio.OutputBlock

/-!
# The published configuration, word by word

`output_desired` is written and copied one field at a time behind
`output_seqlock`, in whatever order the compiler has put the accesses of each
program. What a
publisher has written and what `tgpio_output_desired_get` answers is the same as
if each section and each copy were one access, which is how `Machine` has them.
-/

namespace Tgpio

open Interference Interference.Prog

set_option autoImplicit false

inductive DesiredField where
  | flipGen
  | gen
  | freqGen
  | run
  | mode
  | periodNs
  | highTimeNs
  | lowTimeNs
  | firstEdgeNs
  deriving DecidableEq, Repr

def DesiredField.Word : DesiredField → Type
  | .flipGen | .gen | .freqGen => BitVec 32
  | .run => OutputRun
  | .mode => OutputMode
  | .periodNs | .highTimeNs | .lowTimeNs => Nat
  | .firstEdgeNs => Int

abbrev DesiredWords := (field : DesiredField) → field.Word

namespace OutputDesired

def words (desired : OutputDesired) : DesiredWords
  | .flipGen => desired.flipGen
  | .gen => desired.gen
  | .freqGen => desired.freqGen
  | .run => desired.run
  | .mode => desired.mode
  | .periodNs => desired.periodNs
  | .highTimeNs => desired.highTimeNs
  | .lowTimeNs => desired.lowTimeNs
  | .firstEdgeNs => desired.firstEdgeNs

def ofWords (words : DesiredWords) : OutputDesired where
  flipGen := words .flipGen
  gen := words .gen
  freqGen := words .freqGen
  run := words .run
  mode := words .mode
  periodNs := words .periodNs
  highTimeNs := words .highTimeNs
  lowTimeNs := words .lowTimeNs
  firstEdgeNs := words .firstEdgeNs

theorem of_words_words (desired : OutputDesired) : ofWords desired.words = desired := rfl

end OutputDesired

section publishers

variable (order : SeqRequest Publish → List DesiredField) (fields : Publish → List DesiredField)

/-- A store made for a running output, which is told to look again. -/
def whenRunning (store : (field : DesiredField) × field.Word) :
    OutputRun → List ((field : DesiredField) × field.Word) × Bool
  | .running => ([store], true)
  | .stopped => ([], false)

/-- The stores of a publisher, in the order of its own, and whether it schedules the
work afterwards. -/
def Publish.stores (request : Publish) (found : DesiredWords) :
    List ((field : DesiredField) × field.Word) × Bool :=
  let desired := OutputDesired.ofWords found
  match request with
  | .configure .. | .disable => (assign (fields request) (request.update desired).words, true)
  | .resync => whenRunning ⟨.gen, desired.gen + 1⟩ desired.run
  | .freq => whenRunning ⟨.freqGen, desired.freqGen + 1⟩ desired.run
  | .flip => ([⟨.flipGen, desired.flipGen + 1⟩], true)

/-- Any number of publishers and of `tgpio_output_desired_get`. A local copy
starts as `blank`, which nobody chooses. -/
def outputSeqlock (blank : DesiredWords) :
    Pool (SeqOp DesiredField.Word Publish) SeqOp.Resp (Guarded DesiredField.Word Publish)
      (SeqRequest Publish) (OutputDesired ⊕ Bool) :=
  seqlock order blank (Publish.stores fields) .ofWords

/-- A request that has effect or, on a stopped output, may have none. -/
def Publish.publish (request : Publish) (desired : OutputDesired) : OutputDesired :=
  if request.applies desired then request.update desired else desired

/-- The configuration after some requests. The last one comes first. -/
def published (first : OutputDesired) : List Publish → OutputDesired
  | [] => first
  | request :: earlier => request.publish (published first earlier)

variable {fields}

theorem stores_publish (complete : ∀ request field, field ∈ fields request) (request : Publish)
    (desired : OutputDesired) :
    storeAll (request.stores fields desired.words).1 desired.words =
        (request.publish desired).words ∧
      (request.stores fields desired.words).2 = request.applies desired := by
  cases request with
  | configure | disable => exact ⟨store_all_assign (complete _) _ _, rfl⟩
  | flip =>
      refine ⟨?_, rfl⟩
      funext field
      cases field <;> rfl
  | resync | freq =>
      obtain ⟨flipGen, gen, freqGen, run, mode, periodNs, highTimeNs, lowTimeNs, firstEdgeNs⟩ := desired
      cases run with
      | stopped => exact ⟨rfl, rfl⟩
      | running =>
          refine ⟨?_, rfl⟩
          funext field
          cases field <;> rfl

/-- Sections that store field by field add up to whole requests. -/
theorem replay_published (complete : ∀ request field, field ∈ fields request)
    (first : OutputDesired) (requests : List Publish) :
    replay (Publish.stores fields) first.words requests = (published first requests).words := by
  induction requests with
  | nil => rfl
  | cons request earlier ih =>
      rw [replay, ih]
      exact (stores_publish complete request _).1

end publishers

/-- However the accesses of publishers and readers fall, a reader is answered a
configuration that was in force as a whole at one moment of its call, and each
publisher changes the one it finds, once, in one step: as long as the counter
does not come round within the reader's call. -/
theorem output_desired_whole (order : SeqRequest Publish → List DesiredField)
    (fields : Publish → List DesiredField) (copied : ∀ request field, field ∈ order request)
    (stored : ∀ request field, field ∈ fields request)
    (blank : DesiredWords) (first : OutputDesired)
    (last : Pool.Config (SeqOp DesiredField.Word Publish) SeqOp.Resp
      (Guarded DesiredField.Word Publish) (SeqRequest Publish) (OutputDesired ⊕ Bool))
    (reaches : (outputSeqlock order fields blank).Reaches ⟨⟨first.words, 0, false, []⟩, []⟩ last) :
    (∀ call ∈ last.calls, call.request = .read → ∀ found, call.answer = some (.inl found) →
      Brief call.trace → ∃ step ∈ call.trace, found = published first step.1.commits) ∧
    (∀ call ∈ last.calls, ∀ request result, call.request = .write request →
      call.answer = some result → ∃ step ∈ call.trace,
        step.2.commits = request :: step.1.commits ∧
          result = .inr (request.applies (published first step.1.commits))) ∧
    ((∀ call ∈ last.calls, call.answer.isSome = true) →
      OutputDesired.ofWords last.state.words = published first last.state.commits ∧
        last.state.commits.Perm (sections last.calls)) := by
  have presented (requests : List Publish) :
      OutputDesired.ofWords (replay (Publish.stores fields) first.words requests) =
        published first requests := by
    rw [replay_published stored, OutputDesired.of_words_words]
  refine ⟨?_, ?_, ?_⟩
  · intro call member asked found answered brief
    obtain ⟨step, among, seen⟩ := seqlock_reads copied rfl reaches member asked answered brief
    exact ⟨step, among, seen.trans (presented _)⟩
  · intro call member request result asked answered
    obtain ⟨answer, rfl, step, among, took, told⟩ :=
      seqlock_writes copied rfl reaches member asked answered
    refine ⟨step, among, took, ?_⟩
    rw [told, replay_published stored, (stores_publish stored request _).2]
  · intro returned
    obtain ⟨words, once⟩ := seqlock_settles copied rfl reaches returned
    rw [words]
    exact ⟨presented _, once⟩

section tracing

def desiredFields : List DesiredField :=
  [.flipGen, .gen, .freqGen, .run, .mode, .periodNs, .highTimeNs, .lowTimeNs, .firstEdgeNs]

/-- Readers go down the fields, publishers up. -/
def desiredCopies : SeqRequest Publish → List DesiredField
  | .read => desiredFields
  | .write _ => desiredFields.reverse

def desiredStores : Publish → List DesiredField := fun _ => desiredFields.reverse

theorem mem_desired_fields (field : DesiredField) : field ∈ desiredFields := by
  cases field <;> decide

theorem mem_desired_copies (request : SeqRequest Publish) (field : DesiredField) :
    field ∈ desiredCopies request := by
  cases request with
  | read => exact mem_desired_fields field
  | write => exact List.mem_reverse.mpr (mem_desired_fields field)

def unpublished : OutputDesired := ⟨0, 0, 0, .stopped, .software, 0, 0, 0, 0⟩

def pulsePublished : Publish := .configure .running .hardware 1000000 500000 500000 5000000000

/-- A reader has copied four fields when a publisher has its whole section. It
copies all of them once more. -/
def overtaking : List (Pool.Scheduled (SeqRequest Publish) Empty) :=
  [.begin .read, .begin (.write pulsePublished)] ++ List.replicate 7 (.step 0) ++
    List.replicate 22 (.step 1) ++ List.replicate 19 (.step 0)

def outputSeqlockTracer :
    (outputSeqlock desiredCopies desiredStores unpublished.words).Tracer Empty :=
  seqlockTracer desiredCopies unpublished.words (Publish.stores desiredStores)
    OutputDesired.ofWords

def overtakenRead : Pool.Config (SeqOp DesiredField.Word Publish) SeqOp.Resp
    (Guarded DesiredField.Word Publish) (SeqRequest Publish) (OutputDesired ⊕ Bool) :=
  outputSeqlockTracer.after ⟨⟨unpublished.words, 0, false, []⟩, []⟩ overtaking

theorem overtaken_listed : 0 < overtakenRead.calls.length := by decide +kernel

end tracing

theorem output_desired_whole_overtaken : ∃ call ∈ overtakenRead.calls,
    ∃ step ∈ call.trace, published unpublished [pulsePublished] =
      published unpublished step.1.commits := by
  have reaches := outputSeqlockTracer.after_reaches ⟨⟨unpublished.words, 0, false, []⟩, []⟩
    overtaking (by decide +kernel)
  have whole := output_desired_whole desiredCopies desiredStores mem_desired_copies
    (fun _ field => List.mem_reverse.mpr (mem_desired_fields field)) unpublished.words unpublished
    _ reaches
  refine ⟨overtakenRead.calls.get ⟨0, overtaken_listed⟩, List.get_mem _ _, ?_⟩
  exact whole.1 _ (List.get_mem _ _) rfl _ (by decide +kernel) (by unfold Brief; decide +kernel)

end Tgpio

import Tgpio.Interference.Looks
import Tgpio.Interference.Pool
import Mathlib.Algebra.Group.Prod
import Mathlib.Algebra.Order.Group.Multiset
import Mathlib.Data.Multiset.AddSub

/-!
# Records behind a seqlock

A record of several words is guarded by a lock for its writers and a counter
for its readers. A writer bumps the counter before its first store and after
its last one; a reader copies the words one at a time and starts anew unless
the counter was even before and is the same after. Accesses take effect one at
a time and in the order of the program.

A copy that is answered is the whole record as it was at one moment of the
read, and the sections of the writers take effect one after the other.
-/

namespace Interference

open Prog

universe u

section record

variable {ι : Type} (Word : ι → Type) (κ : Type)

structure Guarded where
  words : (i : ι) → Word i
  /-- How often the counter has been bumped. -/
  bumps : Nat
  held : Bool
  /-- History: the requests of the sections so far. The last one comes first. -/
  commits : List κ

inductive SeqOp where
  /-- The counter. -/
  | sequence
  | load (field : ι)
  | store (field : ι) (word : Word field)
  | lock
  /-- Bump the counter, at the beginning of a section or at the end of that of
  a request. -/
  | bump (closing : Option κ)
  | unlock

end record

section seqlock

variable {ι : Type} {Word : ι → Type} {κ A R : Type}

/-- The counter has 32 bits. -/
def Guarded.sequence (s : Guarded Word κ) : BitVec 32 := BitVec.ofNat 32 s.bumps

def SeqOp.Resp : SeqOp Word κ → Type
  | .sequence => BitVec 32
  | .load field => Word field
  | _ => Unit

abbrev SeqProg (Word : ι → Type) (κ : Type) := Prog (SeqOp Word κ) SeqOp.Resp

variable [DecidableEq ι]

def Guarded.access : (op : SeqOp Word κ) → Guarded Word κ → Option (op.Resp × Guarded Word κ)
  | .sequence, s => some (s.sequence, s)
  | .load field, s => some (s.words field, s)
  | .store field word, s => some ((), { s with words := Function.update s.words field word })
  | .lock, s => if s.held then none else some ((), { s with held := true })
  | .bump closing, s =>
      some ((), { s with bumps := s.bumps + 1, commits := closing.toList ++ s.commits })
  | .unlock, s => some ((), { s with held := false })

def seqSem : Semantics (SeqOp Word κ) SeqOp.Resp (Guarded Word κ) where
  step op s reply t := Guarded.access op s = some (reply, t)
  env _ _ := False

/-! ## Readers and writers -/

section programs

variable (order : List ι) (blank : (i : ι) → Word i)

/-- A copy of the record, word for word. -/
def copyFields : List ι → ((i : ι) → Word i) → SeqProg Word κ ((i : ι) → Word i)
  | [], copy => return copy
  | field :: fields, copy => do
    let word ← perform (SeqOp.load field)
    copyFields fields (Function.update copy field word)

def storeFields : List ((i : ι) × Word i) → SeqProg Word κ Unit
  | [] => return
  | ⟨field, word⟩ :: stores => do
    perform (SeqOp.store field word)
    storeFields stores

/-- A section under the lock: what it stores and answers depends on the record
it finds. -/
def writeSection (request : κ) (update : ((i : ι) → Word i) → List ((i : ι) × Word i) × A) :
    SeqProg Word κ A := do
  perform SeqOp.lock
  perform (SeqOp.bump none)
  let found ← copyFields order blank
  storeFields (update found).1
  perform (SeqOp.bump (some request))
  perform SeqOp.unlock
  return (update found).2

def readBeginTry (_ : Unit) : SeqProg Word κ (Unit ⊕ BitVec 32) := do
  let start : BitVec 32 ← perform SeqOp.sequence
  if start.getLsbD 0 then return .inl () else return .inr start

/-- `read_seqbegin` waits for an even counter. -/
def readSeqbegin : SeqProg Word κ (BitVec 32) := Prog.iterate readBeginTry ()

/-- `read_seqretry` -/
def readSeqretry (start : BitVec 32) : SeqProg Word κ Bool := do
  let now : BitVec 32 ← perform SeqOp.sequence
  return decide (now ≠ start)

def readAttempt (_ : Unit) : SeqProg Word κ (Unit ⊕ ((i : ι) → Word i)) := do
  let start ← readSeqbegin
  let copy ← copyFields order blank
  let again ← readSeqretry start
  if again then return .inl () else return .inr copy

def readRecord : SeqProg Word κ ((i : ι) → Word i) := Prog.iterate (readAttempt order blank) ()

end programs

inductive SeqRequest (κ : Type) where
  | read
  | write (request : κ)

section pool

variable (order : SeqRequest κ → List ι) (blank : (i : ι) → Word i)
variable (update : κ → ((i : ι) → Word i) → List ((i : ι) × Word i) × A)
variable (present : ((i : ι) → Word i) → R)

/-- Any number of readers and writers, each with an order of its own. -/
def seqlock : Pool (SeqOp Word κ) SeqOp.Resp (Guarded Word κ) (SeqRequest κ) (R ⊕ A) where
  toSemantics := seqSem
  program
    | .read => do
      let copy ← readRecord (order .read) blank
      return .inl (present copy)
    | .write request => do
      let answer ← writeSection (order (.write request)) blank request (update request)
      return .inr answer

def storeAll (stores : List ((i : ι) × Word i)) (words : (i : ι) → Word i) : (i : ι) → Word i :=
  stores.foldl (fun words entry => Function.update words entry.1 entry.2) words

/-- The assignment of a whole record, in some order of its fields. -/
def assign (fields : List ι) (value : (i : ι) → Word i) : List ((i : ι) × Word i) :=
  fields.map fun i => ⟨i, value i⟩

/-- The record after some sections, one after the other. -/
def replay (first : (i : ι) → Word i) : List κ → (i : ι) → Word i
  | [] => first
  | request :: earlier => storeAll (update request (replay first earlier)).1 (replay first earlier)

theorem store_all_mem (value words : (i : ι) → Word i) (fields : List ι) (i : ι)
    (known : i ∈ fields ∨ words i = value i) : storeAll (assign fields value) words i = value i := by
  induction fields generalizing words with
  | nil => exact known.resolve_left List.not_mem_nil
  | cons field fields ih =>
      change storeAll (assign fields value) (Function.update words field (value field)) i = value i
      apply ih
      by_cases own : i = field
      · subst own
        exact .inr (Function.update_self i _ _)
      · rw [Function.update_of_ne own]
        exact known.imp_left fun among => (List.mem_cons.mp among).resolve_left own

theorem store_all_assign {fields : List ι} (complete : ∀ i, i ∈ fields)
    (value words : (i : ι) → Word i) : storeAll (assign fields value) words = value :=
  funext fun i => store_all_mem value words fields i (.inl (complete i))

end pool

/-! ## What is left of a read and of a section -/

section rests

variable {β : Type} (order : List ι) (blank : (i : ι) → Word i)

def checkCopy (start : BitVec 32) (next : ((i : ι) → Word i) → SeqProg Word κ β)
    (copy : (i : ι) → Word i) : SeqProg Word κ β :=
  call SeqOp.sequence fun (now : BitVec 32) =>
    if now ≠ start then loop (readAttempt order blank) () next else next copy

def copyThen (next : ((i : ι) → Word i) → SeqProg Word κ β) :
    List ι → ((i : ι) → Word i) → SeqProg Word κ β
  | [], copy => next copy
  | field :: fields, copy =>
      call (SeqOp.load field) fun word => copyThen next fields (Function.update copy field word)

theorem copy_fields_bind (next : ((i : ι) → Word i) → SeqProg Word κ β) (fields : List ι)
    (copy : (i : ι) → Word i) :
    (copyFields fields copy).bind next = copyThen next fields copy := by
  induction fields generalizing copy with
  | nil => rfl
  | cons field fields ih =>
      change call (SeqOp.load field) _ = call (SeqOp.load field) _
      congr 1
      funext word
      exact ih _

/-- A read from its first look at the counter on. -/
def tryThen (next : ((i : ι) → Word i) → SeqProg Word κ β) (start : BitVec 32) : SeqProg Word κ β :=
  copyThen (checkCopy order blank start next) order blank

theorem attempt_begins (next : ((i : ι) → Word i) → SeqProg Word κ β) :
    unfoldLoop (readAttempt order blank) () next =
      loop readBeginTry () (tryThen order blank next) := by
  change loop readBeginTry () _ = _
  congr 1
  funext start
  rw [tryThen, ← copy_fields_bind]
  change ((copyFields order blank).bind _).bind _ = _
  rw [bind_assoc]
  congr 1
  funext copy
  change call SeqOp.sequence _ = call SeqOp.sequence _
  congr 1
  refine funext fun (now : BitVec 32) => ?_
  change (if decide (now ≠ start) = true then _ else _ :
    SeqProg Word κ (Unit ⊕ ((i : ι) → Word i))).bind _ = _
  by_cases moved : now ≠ start
  · rw [if_pos (decide_eq_true moved), if_pos moved]
    rfl
  · rw [if_neg (fun test => moved (of_decide_eq_true test)), if_neg moved]
    rfl

omit [DecidableEq ι] in
theorem try_begins (next : BitVec 32 → SeqProg Word κ β) :
    unfoldLoop readBeginTry () next = call SeqOp.sequence fun (start : BitVec 32) =>
      if start.getLsbD 0 then loop readBeginTry () next else next start := by
  change call SeqOp.sequence _ = _
  congr 1
  funext start
  change (if start.getLsbD 0 = true then _ else _ : SeqProg Word κ (Unit ⊕ BitVec 32)).bind _ = _
  split <;> rfl

/-- A section from its last store on. -/
def closeSection (request : κ) (answer : β) : SeqProg Word κ β :=
  call (SeqOp.bump (some request)) fun _ => call SeqOp.unlock fun _ => ret answer

def storeThen (request : κ) (answer : β) : List ((i : ι) × Word i) → SeqProg Word κ β
  | [] => closeSection request answer
  | ⟨field, word⟩ :: stores =>
      call (SeqOp.store field word) fun _ => storeThen request answer stores

omit [DecidableEq ι] in
theorem store_fields_bind (request : κ) (answer : β) (stores : List ((i : ι) × Word i)) :
    (storeFields stores).bind (fun _ => closeSection request answer) =
      storeThen request answer stores := by
  induction stores with
  | nil => rfl
  | cons entry stores ih =>
      change call (SeqOp.store _ _) _ = call (SeqOp.store _ _) _
      congr 1
      funext done
      exact ih

variable {R : Type} (update : κ → ((i : ι) → Word i) → List ((i : ι) × Word i) × A) (request : κ)

/-- A section from its first store on, by what it has found. -/
def updateThen (found : (i : ι) → Word i) : SeqProg Word κ (R ⊕ A) :=
  storeThen request (.inr (update request found).2) (update request found).1

def sectionThen : SeqProg Word κ (R ⊕ A) :=
  call SeqOp.lock fun _ => call (SeqOp.bump none) fun _ =>
    copyThen (updateThen update request) order blank

theorem section_begins :
    (writeSection order blank request (update request) >>= fun answer =>
      pure (Sum.inr answer : R ⊕ A)) = sectionThen order blank update request := by
  change call SeqOp.lock _ = call SeqOp.lock _
  congr 1
  funext locked
  change call (SeqOp.bump none) _ = call (SeqOp.bump none) _
  congr 1
  funext bumped
  rw [← copy_fields_bind]
  change ((copyFields order blank).bind _).bind _ = _
  rw [bind_assoc]
  congr 1
  funext found
  rw [updateThen, ← store_fields_bind]
  change ((storeFields _).bind _).bind _ = _
  rw [bind_assoc]
  rfl

end rests

/-! ## What holds of every run -/

section accounts

variable (order : List ι) (blank : (i : ι) → Word i)
variable (update : κ → ((i : ι) → Word i) → List ((i : ι) × Word i) × A)
variable (present : ((i : ι) → Word i) → R) (first : (i : ι) → Word i)

/-- What the section that has the lock has done to the record. -/
inductive Grip (Word : ι → Type) (κ : Type) where
  | shut
  | opened (earlier : List κ) (now : (i : ι) → Word i)

def Gripped (s : Guarded Word κ) : Grip Word κ → Prop
  | .shut => s.bumps % 2 = 0 ∧ s.words = replay update first s.commits
  | .opened earlier now => s.bumps % 2 = 1 ∧ s.commits = earlier ∧ s.words = now

/-- The lock is free, or one section has it. -/
inductive Owned (s : Guarded Word κ) : Multiset (Grip Word κ) → Prop where
  | free : s.held = false → Gripped update first s .shut → Owned s 0
  | held {grip : Grip Word κ} : s.held = true → Gripped update first s grip → Owned s {grip}

structure Settled (s : Guarded Word κ) (total : Multiset (Grip Word κ) × Multiset κ) : Prop where
  owned : Owned update first s total.1
  once : (s.commits : Multiset κ) = total.2

abbrev SeqTrace (Word : ι → Type) (κ : Type) := List (Guarded Word κ × Guarded Word κ)

/-- The counter has not come round between any two steps. -/
def Brief (trace : SeqTrace Word κ) : Prop :=
  ∀ earlier ∈ trace, ∀ later ∈ trace, later.2.bumps < earlier.1.bumps + 2 ^ 32

/-- Sections take effect where the counter is bumped. -/
structure Onward (s t : Guarded Word κ) : Prop where
  bumps : s.bumps ≤ t.bumps
  commits : t.bumps = s.bumps → t.commits = s.commits

def presented (copy : (i : ι) → Word i) : SeqProg Word κ (R ⊕ A) := ret (.inl (present copy))

/-- The record at one moment of a read. -/
def Sighted (trace : SeqTrace Word κ) (found : R) : Prop :=
  ∃ step ∈ trace, found = present (replay update first step.1.commits)

/-- A section took effect in one step, and answered by what it found. -/
def Took (trace : SeqTrace Word κ) (request : κ) (answer : A) : Prop :=
  ∃ step ∈ trace, step.2.commits = request :: step.1.commits ∧
    answer = (update request (replay update first step.1.commits)).2

/-- How far a read has come. -/
inductive Reading (s : Guarded Word κ) : SeqProg Word κ (R ⊕ A) → SeqTrace Word κ → Prop where
  | begun {trace : SeqTrace Word κ} :
      Reading s (loop (readAttempt order blank) () (presented present)) trace
  | waiting {trace : SeqTrace Word κ} :
      Reading s (loop readBeginTry () (tryThen order blank (presented present))) trace
  | looking {trace : SeqTrace Word κ} :
      Reading s (call SeqOp.sequence fun (start : BitVec 32) =>
        if start.getLsbD 0 then loop readBeginTry () (tryThen order blank (presented present))
        else tryThen order blank (presented present) start) trace
  | copying {seen : Guarded Word κ} {todo : List ι} {copy : (i : ι) → Word i}
      {trace : SeqTrace Word κ} : (seen, seen) ∈ trace → seen.bumps % 2 = 0 → Onward seen s →
      (s.bumps = seen.bumps → ∀ i ∈ order, i ∉ todo → copy i = replay update first seen.commits i) →
      Reading s (copyThen (checkCopy order blank seen.sequence (presented present)) todo copy) trace
  | read {found : R} {trace : SeqTrace Word κ} :
      (Brief trace → Sighted update present first trace found) → Reading s (ret (.inl found)) trace

/-- How far a section has come, what it has done to the record, and whether it
has taken effect. -/
inductive Writing (request : κ) : SeqProg Word κ (R ⊕ A) → SeqTrace Word κ →
    Multiset (Grip Word κ) × Multiset κ → Prop where
  | begun : Writing request (sectionThen order blank update request) [] 0
  | locked {trace : SeqTrace Word κ} : Writing request
      (call (SeqOp.bump none) fun _ => copyThen (updateThen update request) order blank) trace
      ({.shut}, 0)
  | copying {earlier : List κ} {field : ι} {todo : List ι} {copy : (i : ι) → Word i}
      {trace : SeqTrace Word κ} :
      (∀ i ∈ order, i ∉ field :: todo → copy i = replay update first earlier i) →
      Writing request (copyThen (updateThen update request) (field :: todo) copy) trace
        ({.opened earlier (replay update first earlier)}, 0)
  | storing {earlier : List κ} {stores : List ((i : ι) × Word i)} {now : (i : ι) → Word i}
      {trace : SeqTrace Word κ} :
      storeAll stores now = replay update first (request :: earlier) →
      Writing request
        (storeThen request (.inr (update request (replay update first earlier)).2) stores) trace
        ({.opened earlier now}, 0)
  | closed {answer : A} {trace : SeqTrace Word κ} : Took update first trace request answer →
      Writing request (call SeqOp.unlock fun _ => ret (.inr answer)) trace ({.shut}, {request})
  | written {answer : A} {trace : SeqTrace Word κ} : Took update first trace request answer →
      Writing request (ret (.inr answer)) trace (0, {request})

variable {order blank update present first} {s t : Guarded Word κ} {trace : SeqTrace Word κ}
  {rest later : SeqProg Word κ (R ⊕ A)}

omit [DecidableEq ι] in
theorem Onward.trans {u : Guarded Word κ} (before : Onward s t) (after : Onward t u) :
    Onward s u := by
  refine ⟨before.bumps.trans after.bumps, fun same => ?_⟩
  have first := before.bumps
  have second := after.bumps
  rw [after.commits (by omega), before.commits (by omega)]

omit [DecidableEq ι] in
theorem Onward.refl (s : Guarded Word κ) : Onward s s := ⟨Nat.le_refl _, fun _ => rfl⟩

theorem lock_access {reply : Unit} (accessed : Guarded.access SeqOp.lock s = some (reply, t)) :
    s.held = false ∧ t = { s with held := true } := by
  obtain ⟨free, taken⟩ := Option.ite_none_left_eq_some.mp accessed
  cases taken
  exact ⟨Bool.eq_false_of_not_eq_true free, rfl⟩

theorem access_onward {op : SeqOp Word κ} {reply : op.Resp}
    (accessed : Guarded.access op s = some (reply, t)) : Onward s t := by
  cases op with
  | sequence | load =>
      cases accessed
      exact .refl s
  | store | unlock =>
      cases accessed
      exact ⟨Nat.le_refl _, fun _ => rfl⟩
  | lock =>
      obtain ⟨-, rfl⟩ := lock_access accessed
      exact ⟨Nat.le_refl _, fun _ => rfl⟩
  | bump closing =>
      cases accessed
      exact ⟨Nat.le_succ _, fun same => absurd same (Nat.succ_ne_self _)⟩

/-- While the counter is even the record is that of the sections so far. -/
theorem Owned.even {grips : Multiset (Grip Word κ)} (owned : Owned update first s grips)
    (even : s.bumps % 2 = 0) : s.words = replay update first s.commits := by
  cases owned with
  | free _ shut => exact shut.2
  | @held grip _ gripped =>
      cases grip with
      | shut => exact gripped.2
      | opened earlier now =>
          have odd := gripped.1
          omega

/-- A section that has the lock is the only one. -/
theorem Owned.mine {grip : Grip Word κ} {others : Multiset (Grip Word κ)}
    (owned : Owned update first s ({grip} + others)) :
    others = 0 ∧ s.held = true ∧ Gripped update first s grip := by
  generalize whole : {grip} + others = grips at owned
  cases owned with
  | free => simp at whole
  | @held other held gripped =>
      rw [Multiset.singleton_add] at whole
      obtain ⟨rfl, none⟩ := (Multiset.singleton_eq_cons_iff others).mp whole.symm
      exact ⟨none, held, gripped⟩

theorem Owned.nobody (owned : Owned update first s 0) :
    s.words = replay update first s.commits := by
  generalize whole : (0 : Multiset (Grip Word κ)) = grips at owned
  cases owned with
  | free _ shut => exact shut.2
  | held => simp at whole

/-- The lock is taken when nobody has it. -/
theorem Owned.none {grips : Multiset (Grip Word κ)} (owned : Owned update first s grips)
    (free : s.held = false) : grips = 0 ∧ Gripped update first s .shut := by
  cases owned with
  | free _ shut => exact ⟨rfl, shut⟩
  | held held _ => rw [free] at held; cases held

theorem Reading.onward (reading : Reading order blank update present first s rest trace)
    (onward : Onward s t) : Reading order blank update present first t rest trace := by
  cases reading with
  | begun => exact .begun
  | waiting => exact .waiting
  | looking => exact .looking
  | read sighted => exact .read sighted
  | @copying seen todo copy _ saw even since copied =>
      refine .copying saw even (since.trans onward) fun same => copied ?_
      have first := since.bumps
      have second := onward.bumps
      omega

omit [DecidableEq ι] in
theorem sequence_odd (s : Guarded Word κ) : s.sequence.getLsbD 0 = decide (s.bumps % 2 = 1) := by
  rw [Guarded.sequence, BitVec.getLsbD_ofNat, Nat.testBit_zero, decide_eq_true (by decide),
    Bool.true_and]

omit [DecidableEq ι] in
theorem sequence_same {s t : Guarded Word κ} (grown : s.bumps ≤ t.bumps)
    (brief : t.bumps < s.bumps + 2 ^ 32) (same : t.sequence = s.sequence) : t.bumps = s.bumps := by
  have modulo := congrArg BitVec.toNat same
  unfold Guarded.sequence at modulo
  rw [BitVec.toNat_ofNat, BitVec.toNat_ofNat] at modulo
  omega

theorem reading_step {grips : Multiset (Grip Word κ)} (complete : ∀ i, i ∈ order)
    (step : Step (@seqSem ι Word κ _) rest s later t) (owned : Owned update first s grips)
    (reading : Reading order blank update present first s rest trace) :
    t = s ∧ Reading order blank update present first s later (trace ++ [(s, s)]) := by
  have more {pair : Guarded Word κ × Guarded Word κ} (member : pair ∈ trace) :
      pair ∈ trace ++ [(s, s)] := List.mem_append_left _ member
  cases reading with
  | begun =>
      obtain ⟨rfl, rfl⟩ := step_of_loop step
      rw [attempt_begins]
      exact ⟨rfl, .waiting⟩
  | waiting =>
      obtain ⟨rfl, rfl⟩ := step_of_loop step
      rw [try_begins]
      exact ⟨rfl, .looking⟩
  | looking =>
      obtain ⟨start, looked, rfl⟩ := step_of_call step
      cases looked
      refine ⟨rfl, ?_⟩
      rw [sequence_odd]
      split
      · exact .waiting
      · rename_i even
        refine .copying (List.mem_append_right _ List.mem_cons_self) (by simpa using even) (.refl s)
          fun _ i member missing => absurd member missing
  | @copying seen todo copy _ saw even since copied =>
      cases todo with
      | nil =>
          obtain ⟨now, looked, rfl⟩ := step_of_call step
          cases looked
          refine ⟨rfl, ?_⟩
          split
          · exact .begun
          · rename_i same
            refine .read fun brief => ⟨(seen, seen), more saw, ?_⟩
            have bumps := sequence_same since.bumps (brief _ (more saw) _
              (List.mem_append_right _ List.mem_cons_self)) (not_not.mp same)
            exact congrArg present (funext fun i => copied bumps i (complete i) List.not_mem_nil)
      | cons field todo =>
          obtain ⟨word, loaded, rfl⟩ := step_of_call step
          cases loaded
          refine ⟨rfl, .copying (more saw) even since fun same i member missing => ?_⟩
          by_cases own : i = field
          · subst own
            rw [Function.update_self, owned.even (same ▸ even), since.commits same]
          · rw [Function.update_of_ne own]
            refine copied same i member fun among => ?_
            rcases List.mem_cons.mp among with equal | among
            · exact own equal
            · exact missing among
  | read => exact (step_of_ret step).elim

variable {request : κ} {entry others : Multiset (Grip Word κ) × Multiset κ}

/-- Stores begin where the copy is whole. -/
theorem writing_copied {earlier : List κ} (complete : ∀ i, i ∈ order) (todo : List ι)
    {copy : (i : ι) → Word i}
    (copied : ∀ i ∈ order, i ∉ todo → copy i = replay update first earlier i) :
    Writing order blank update first request
      (copyThen (updateThen update request : _ → SeqProg Word κ (R ⊕ A)) todo copy) trace
        ({.opened earlier (replay update first earlier)}, 0) := by
  cases todo with
  | nil =>
      have found : copy = replay update first earlier :=
        funext fun i => copied i (complete i) List.not_mem_nil
      rw [found]
      exact .storing rfl
  | cons field todo => exact .copying copied

theorem writing_step (complete : ∀ i, i ∈ order)
    (step : Step (@seqSem ι Word κ _) rest s later t)
    (settled : Settled update first s (entry + others))
    (writing : Writing order blank update first request rest trace entry) :
    ∃ next, Settled update first t (next + others) ∧ Onward s t ∧
      Writing order blank update first request later (trace ++ [(s, t)]) next := by
  obtain ⟨owned, once⟩ := settled
  cases writing with
  | begun =>
      obtain ⟨reply, accessed, rfl⟩ := step_of_call step
      obtain ⟨free, rfl⟩ := lock_access accessed
      rw [zero_add] at owned once
      obtain ⟨alone, shut⟩ := owned.none free
      refine ⟨({.shut}, 0), ⟨?_, ?_⟩, access_onward accessed, .locked⟩
      · rw [Prod.fst_add, alone, add_zero]
        exact .held rfl shut
      · rw [Prod.snd_add, zero_add]
        exact once
  | locked =>
      obtain ⟨reply, accessed, rfl⟩ := step_of_call step
      obtain ⟨alone, held, even, words⟩ := owned.mine
      have onward := access_onward accessed
      cases accessed
      refine ⟨({.opened s.commits (replay update first s.commits)}, 0), ⟨?_, once⟩, onward,
        writing_copied complete order fun i member missing => absurd member missing⟩
      rw [Prod.fst_add, alone, add_zero]
      exact .held held ⟨by dsimp only; omega, rfl, words⟩
  | @copying earlier field todo copy _ copied =>
      obtain ⟨alone, held, odd, commits, words⟩ := owned.mine
      obtain ⟨word, loaded, rfl⟩ := step_of_call step
      cases loaded
      refine ⟨_, ⟨owned, once⟩, .refl s, writing_copied complete todo fun i member missing => ?_⟩
      by_cases own : i = field
      · subst own
        rw [Function.update_self, words]
      · rw [Function.update_of_ne own]
        exact copied i member fun among => missing ((List.mem_cons.mp among).resolve_left own)
  | @storing earlier stores now _ done =>
      obtain ⟨alone, held, odd, commits, words⟩ := owned.mine
      cases stores with
      | nil =>
          obtain ⟨reply, accessed, rfl⟩ := step_of_call step
          have onward := access_onward accessed
          cases accessed
          refine ⟨({.shut}, {request}), ⟨?_, ?_⟩, onward,
            .closed ⟨_, List.mem_append_right _ List.mem_cons_self, rfl, ?_⟩⟩
          · rw [Prod.fst_add, alone, add_zero]
            refine .held held ⟨by dsimp only; omega, ?_⟩
            rw [words, commits]
            exact done
          · rw [Prod.snd_add] at once ⊢
            rw [Multiset.singleton_add, ← zero_add others.2, ← once]
            rfl
          · rw [commits]
      | cons entry stores =>
          obtain ⟨reply, accessed, rfl⟩ := step_of_call step
          have onward := access_onward accessed
          cases accessed
          have rest : storeAll stores (Function.update now entry.1 entry.2) =
              replay update first (request :: earlier) := done
          refine ⟨({.opened earlier (Function.update now entry.1 entry.2)}, 0), ⟨?_, once⟩, onward,
            .storing rest⟩
          rw [Prod.fst_add, alone, add_zero]
          exact .held held ⟨odd, commits, by rw [words]⟩
  | closed took =>
      obtain ⟨reply, accessed, rfl⟩ := step_of_call step
      obtain ⟨alone, held, shut⟩ := owned.mine
      have onward := access_onward accessed
      cases accessed
      obtain ⟨step, member, took⟩ := took
      refine ⟨(0, {request}), ⟨?_, once⟩, onward, .written ⟨step, List.mem_append_left _ member, took⟩⟩
      rw [Prod.fst_add, alone, add_zero]
      exact .free rfl shut
  | written => exact (step_of_ret step).elim

end accounts

section runs

variable (order : SeqRequest κ → List ι) (blank : (i : ι) → Word i)
variable (update : κ → ((i : ι) → Word i) → List ((i : ι) × Word i) × A)
variable (present : ((i : ι) → Word i) → R) (first : (i : ι) → Word i)

abbrev SeqCall (Word : ι → Type) (κ A R : Type) :=
  Call (SeqOp Word κ) SeqOp.Resp (Guarded Word κ) (SeqRequest κ) (R ⊕ A)

inductive SeqDue (s : Guarded Word κ) :
    SeqCall Word κ A R → Multiset (Grip Word κ) × Multiset κ → Prop where
  | read {call : SeqCall Word κ A R} : call.request = .read →
      Reading (order .read) blank update present first s call.rest call.trace → SeqDue s call 0
  | write {call : SeqCall Word κ A R} {request : κ}
      {entry : Multiset (Grip Word κ) × Multiset κ} : call.request = .write request →
      Writing (order (.write request)) blank update first request call.rest call.trace entry →
      SeqDue s call entry

variable {order blank update present first}

theorem SeqDue.onward {s t : Guarded Word κ} {call : SeqCall Word κ A R}
    {entry : Multiset (Grip Word κ) × Multiset κ} (onward : Onward s t)
    (due : SeqDue order blank update present first s call entry) :
    SeqDue order blank update present first t call entry := by
  cases due with
  | read asked reading => exact .read asked (reading.onward onward)
  | write asked writing => exact .write asked writing

theorem seqlock_accounts (complete : ∀ request i, i ∈ order request) :
    (seqlock order blank update present).Accounts (Settled update first)
      (SeqDue order blank update present first) where
  env _ _ _ step := step.elim
  begin s request calls total _ _ := by
    cases request with
    | read => exact .read rfl .begun
    | write request =>
        refine .write rfl ?_
        change Writing (order (.write request)) blank update first request
          (writeSection (order (.write request)) blank request _ >>= _) [] 0
        rw [section_begins]
        exact .begun
  step s t call later entry others step settled due := by
    cases due with
    | read asked reading =>
        obtain ⟨rfl, read⟩ := reading_step (complete .read) step (by simpa using settled.owned) reading
        exact ⟨0, settled, .read asked read, fun _ _ due => due⟩
    | write asked writing =>
        obtain ⟨next, kept, onward, wrote⟩ := writing_step (complete (.write _)) step settled writing
        exact ⟨next, kept, .write asked wrote, fun _ _ due => due.onward onward⟩

def SeqRequest.written : SeqRequest κ → Option κ
  | .read => none
  | .write request => some request

/-- The sections that have been asked for. -/
def sections (calls : List (SeqCall Word κ A R)) : List κ :=
  calls.filterMap fun call => call.request.written

variable {bumps : Nat}
  {last : Pool.Config (SeqOp Word κ) SeqOp.Resp (Guarded Word κ) (SeqRequest κ) (R ⊕ A)}

theorem seqlock_balanced (complete : ∀ request i, i ∈ order request) (even : bumps % 2 = 0)
    (reaches : (seqlock order blank update present).Reaches ⟨⟨first, bumps, false, []⟩, []⟩ last) :
    Pool.Balanced (Settled update first) (SeqDue order blank update present first) last :=
  (seqlock_accounts complete).reaches reaches ⟨[], .nil, .free rfl ⟨even, rfl⟩, rfl⟩

/-- A read that has been answered is the record at one of its moments. -/
theorem seqlock_reads (complete : ∀ request i, i ∈ order request) (even : bumps % 2 = 0)
    (reaches : (seqlock order blank update present).Reaches ⟨⟨first, bumps, false, []⟩, []⟩ last)
    {call : SeqCall Word κ A R} (member : call ∈ last.calls) (asked : call.request = .read)
    {found : R} (answered : call.answer = some (.inl found)) (brief : Brief call.trace) :
    Sighted update present first call.trace found := by
  obtain ⟨entries, each, -⟩ := seqlock_balanced complete even reaches
  obtain ⟨entry, due⟩ := Pool.exists_partner each call member
  obtain ⟨request, earlier, trace, rest⟩ := call
  cases due with
  | read _ reading =>
      dsimp only at reading
      cases reading with
      | read sighted =>
          cases answered
          exact sighted brief
      | @copying _ todo => cases todo <;> cases answered
      | _ => cases answered
  | write other => cases asked.symm.trans other

theorem Writing.answered {request : κ} {fields : List ι} {rest : SeqProg Word κ (R ⊕ A)}
    {trace : SeqTrace Word κ} {entry : Multiset (Grip Word κ) × Multiset κ} {result : R ⊕ A}
    (writing : Writing fields blank update first request rest trace entry)
    (returned : rest.answer = some result) :
    entry = (0, {request}) ∧ ∃ answer, result = .inr answer ∧
      Took update first trace request answer := by
  cases writing with
  | written took =>
      cases returned
      exact ⟨rfl, _, rfl, took⟩
  | @storing _ stores => cases stores <;> cases returned
  | _ => cases returned

/-- A section that has returned has taken effect in one of its steps. -/
theorem seqlock_writes (complete : ∀ request i, i ∈ order request) (even : bumps % 2 = 0)
    (reaches : (seqlock order blank update present).Reaches ⟨⟨first, bumps, false, []⟩, []⟩ last)
    {call : SeqCall Word κ A R} (member : call ∈ last.calls) {request : κ}
    (asked : call.request = .write request) {result : R ⊕ A}
    (answered : call.answer = some result) :
    ∃ answer, result = .inr answer ∧ Took update first call.trace request answer := by
  obtain ⟨entries, each, -⟩ := seqlock_balanced complete even reaches
  obtain ⟨entry, due⟩ := Pool.exists_partner each call member
  cases due with
  | read other => cases asked.symm.trans other
  | write same writing =>
      cases asked.symm.trans same
      exact (writing.answered answered).2

theorem written_sum {s : Guarded Word κ} {calls : List (SeqCall Word κ A R)}
    {entries : List (Multiset (Grip Word κ) × Multiset κ)}
    (each : List.Forall₂ (SeqDue order blank update present first s) calls entries)
    (returned : ∀ call ∈ calls, call.answer.isSome = true) :
    entries.sum = (0, (sections calls : Multiset κ)) := by
  induction each with
  | nil => rfl
  | @cons call entry calls entries due _ ih =>
      have others := ih fun other member => returned other (List.mem_cons_of_mem _ member)
      obtain ⟨result, answered⟩ := Option.isSome_iff_exists.mp (returned call List.mem_cons_self)
      rw [List.sum_cons, others]
      cases due with
      | read asked => simp [sections, asked, SeqRequest.written]
      | @write _ _ asked writing =>
          rw [(writing.answered answered).1]
          simp [sections, asked, SeqRequest.written]

/-- Once all calls have returned, the record is that of their sections, each
one once. -/
theorem seqlock_settles (complete : ∀ request i, i ∈ order request) (even : bumps % 2 = 0)
    (reaches : (seqlock order blank update present).Reaches ⟨⟨first, bumps, false, []⟩, []⟩ last)
    (returned : ∀ call ∈ last.calls, call.answer.isSome = true) :
    last.state.words = replay update first last.state.commits ∧
      last.state.commits.Perm (sections last.calls) := by
  obtain ⟨entries, each, settled⟩ := seqlock_balanced complete even reaches
  rw [written_sum each returned] at settled
  exact ⟨settled.owned.nobody, Multiset.coe_eq_coe.mp settled.once⟩

/-- Calls on given states. -/
def seqlockTracer (order : SeqRequest κ → List ι) (blank : (i : ι) → Word i)
    (update : κ → ((i : ι) → Word i) → List ((i : ι) × Word i) × A)
    (present : ((i : ι) → Word i) → R) : (seqlock order blank update present).Tracer Empty where
  handler := Guarded.access
  act event _ := event.elim
  handlerSound _ _ _ _ handled := handled
  actSound event _ _ _ := event.elim

end runs

end seqlock

end Interference

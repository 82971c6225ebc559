import Tgpio.Interference.Program
import Mathlib.Algebra.BigOperators.Group.List.Basic
import Mathlib.Data.List.Forall2

/-!
# Concurrent calls on a shared state

Any number of calls, each running the program of its request, take their steps
in any order; new ones begin at any time and none waits for another. A call
keeps a history of its own: what had returned when it began, and the steps it
has taken. The accounting rule carries one entry for each call and one
invariant of the shared state and the sum of the entries.
-/

namespace Interference

open Prog

universe u v

variable {Op : Type u} {Resp : Op → Type} {σ : Type v} {κ ρ : Type}

structure Call (Op : Type u) (Resp : Op → Type) (σ : Type v) (κ ρ : Type) where
  request : κ
  /-- The requests answered before this call began, with their answers. -/
  earlier : List (κ × ρ)
  /-- The steps taken so far, each from a state to a state. -/
  trace : List (σ × σ)
  rest : Prog Op Resp ρ

/-- The answer of a program that has returned. -/
def Prog.answer : Prog Op Resp ρ → Option ρ
  | ret value => some value
  | _ => none

structure Pool (Op : Type u) (Resp : Op → Type) (σ : Type v) (κ ρ : Type)
    extends Semantics Op Resp σ where
  program : κ → Prog Op Resp ρ

namespace Call

variable (call : Call Op Resp σ κ ρ)

def answer : Option ρ := call.rest.answer

/-- The call after one more step. -/
def stepped (s t : σ) (later : Prog Op Resp ρ) : Call Op Resp σ κ ρ :=
  { call with trace := call.trace ++ [(s, t)], rest := later }

end Call

/-- The requests that have been answered. -/
def answered (calls : List (Call Op Resp σ κ ρ)) : List (κ × ρ) :=
  calls.filterMap fun call => call.answer.map fun value => (call.request, value)

theorem mem_answered {calls : List (Call Op Resp σ κ ρ)} {request : κ} {value : ρ}
    (member : (request, value) ∈ answered calls) :
    ∃ call ∈ calls, call.request = request ∧ call.answer = some value := by
  obtain ⟨call, listed, found⟩ := List.mem_filterMap.mp member
  obtain ⟨answer, returned, equal⟩ := Option.map_eq_some_iff.mp found
  cases equal
  exact ⟨call, listed, rfl, returned⟩

namespace Pool

variable (pool : Pool Op Resp σ κ ρ)

structure Config (Op : Type u) (Resp : Op → Type) (σ : Type v) (κ ρ : Type) where
  state : σ
  calls : List (Call Op Resp σ κ ρ)

def newCall (request : κ) (calls : List (Call Op Resp σ κ ρ)) : Call Op Resp σ κ ρ :=
  ⟨request, answered calls, [], pool.program request⟩

inductive Moves : Config Op Resp σ κ ρ → Config Op Resp σ κ ρ → Prop where
  | env {s t : σ} {calls : List (Call Op Resp σ κ ρ)} :
      pool.env s t → Moves ⟨s, calls⟩ ⟨t, calls⟩
  | begin {s : σ} {calls : List (Call Op Resp σ κ ρ)} (request : κ) :
      Moves ⟨s, calls⟩ ⟨s, calls ++ [pool.newCall request calls]⟩
  | step {s t : σ} {before after : List (Call Op Resp σ κ ρ)} {call : Call Op Resp σ κ ρ}
      {later : Prog Op Resp ρ} : Step pool.toSemantics call.rest s later t →
      Moves ⟨s, before ++ call :: after⟩ ⟨t, before ++ call.stepped s t later :: after⟩

def Reaches : Config Op Resp σ κ ρ → Config Op Resp σ κ ρ → Prop :=
  Relation.ReflTransGen pool.Moves

section pairing

variable {α β : Type*} {related : α → β → Prop}

/-- The partner of an element in the middle of a list. -/
theorem forall₂_middle {before after : List α} {first : α} {partners : List β}
    (each : List.Forall₂ related (before ++ first :: after) partners) :
    ∃ left partner right, partners = left ++ partner :: right ∧
      List.Forall₂ related before left ∧ related first partner ∧
      List.Forall₂ related after right := by
  induction before generalizing partners with
  | nil =>
      cases each with
      | cons head tail => exact ⟨[], _, _, rfl, .nil, head, tail⟩
  | cons item before ih =>
      cases each with
      | cons head tail =>
          obtain ⟨left, partner, right, rfl, leftEach, holds, rightEach⟩ := ih tail
          exact ⟨_ :: left, partner, right, rfl, .cons head leftEach, holds, rightEach⟩

theorem exists_partner {items : List α} {partners : List β}
    (each : List.Forall₂ related items partners) :
    ∀ item ∈ items, ∃ partner, related item partner := by
  intro item member
  obtain ⟨before, after, rfl⟩ := List.append_of_mem member
  obtain ⟨_, partner, _, _, _, holds, _⟩ := forall₂_middle each
  exact ⟨partner, holds⟩

end pairing

section accounting

variable {V : Type} [AddCommMonoid V]

/-- A rule for proving invariants of a pool: what each call is due, entry by
entry, and what the shared state owes to the sum of the entries. -/
structure Accounts (shared : σ → V → Prop) (due : σ → Call Op Resp σ κ ρ → V → Prop) : Prop where
  env : ∀ s t total, pool.env s t → shared s total → shared t total ∧
    ∀ call entry, due s call entry → due t call entry
  begin : ∀ s request calls total, shared s total → (∀ call ∈ calls, ∃ entry, due s call entry) →
    due s (pool.newCall request calls) 0
  step : ∀ s t call later entry others, Step pool.toSemantics call.rest s later t →
    shared s (entry + others) → due s call entry →
    ∃ next, shared t (next + others) ∧ due t (call.stepped s t later) next ∧
      ∀ other owed, due s other owed → due t other owed

/-- The accounts are in order: some entries, one for each call. -/
def Balanced (shared : σ → V → Prop) (due : σ → Call Op Resp σ κ ρ → V → Prop)
    (config : Config Op Resp σ κ ρ) : Prop :=
  ∃ entries, List.Forall₂ (due config.state) config.calls entries ∧ shared config.state entries.sum

variable {pool} {shared : σ → V → Prop} {due : σ → Call Op Resp σ κ ρ → V → Prop}

theorem Accounts.moves (accounts : pool.Accounts shared due)
    {before after : Config Op Resp σ κ ρ} (move : pool.Moves before after)
    (balanced : Balanced shared due before) : Balanced shared due after := by
  obtain ⟨entries, each, total⟩ := balanced
  cases move with
  | env step =>
      obtain ⟨kept, all⟩ := accounts.env _ _ _ step total
      exact ⟨entries, each.imp fun call entry => all call entry, kept⟩
  | @begin s calls request =>
      refine ⟨entries ++ [0], ?_, ?_⟩
      · refine List.rel_append each (.cons ?_ .nil)
        exact accounts.begin s request calls _ total (exists_partner each)
      · rw [List.sum_append, List.sum_singleton, add_zero]
        exact total
  | @step s t first rest call later step =>
      obtain ⟨left, entry, right, rfl, leftEach, holds, rightEach⟩ := forall₂_middle each
      have split (value : V) : (left ++ value :: right).sum = value + (left.sum + right.sum) := by
        rw [List.sum_append, List.sum_cons, ← add_assoc, ← add_assoc, add_comm left.sum]
      rw [split] at total
      obtain ⟨next, kept, own, all⟩ := accounts.step _ _ _ _ _ _ step total holds
      refine ⟨left ++ next :: right, ?_, ?_⟩
      · exact List.rel_append (leftEach.imp all) (.cons own (rightEach.imp all))
      · rw [split]
        exact kept

/-- Accounts that are in order stay in order. -/
theorem Accounts.reaches (accounts : pool.Accounts shared due)
    {first last : Config Op Resp σ κ ρ} (reaches : pool.Reaches first last)
    (balanced : Balanced shared due first) : Balanced shared due last := by
  induction reaches with
  | refl => exact balanced
  | tail _ move ih => exact accounts.moves move ih

end accounting

section tracing

variable {Event : Type}

/-- One step of a program on an executable interface. -/
def Prog.advance {α : Type} (handler : (op : Op) → σ → Option (Resp op × σ)) :
    Prog Op Resp α → σ → Option (Prog Op Resp α × σ)
  | ret _, _ => none
  | call op next, s => (handler op s).map fun (reply, t) => (next reply, t)
  | loop body start next, s => some (unfoldLoop body start next, s)

theorem Prog.advance_step {α : Type} {sem : Semantics Op Resp σ}
    {handler : (op : Op) → σ → Option (Resp op × σ)}
    (sound : ∀ op s reply t, handler op s = some (reply, t) → sem.step op s reply t)
    {program later : Prog Op Resp α} {s t : σ}
    (advanced : Prog.advance handler program s = some (later, t)) : Step sem program s later t := by
  cases program with
  | ret value => contradiction
  | call op next =>
      obtain ⟨⟨reply, _⟩, handled, equal⟩ := Option.map_eq_some_iff.mp advanced
      cases equal
      exact .call (sound _ _ _ _ handled)
  | loop body start next =>
      cases advanced
      exact .loop

/-- An executable version of a pool, for schedules on given states. -/
structure Tracer (pool : Pool Op Resp σ κ ρ) (Event : Type) where
  handler : (op : Op) → σ → Option (Resp op × σ)
  act : Event → σ → Option σ
  handlerSound : ∀ op s reply t, handler op s = some (reply, t) → pool.step op s reply t
  actSound : ∀ event s t, act event s = some t → pool.Rely s t

/-- An event of the surroundings, a new call, or a step of one of the calls. -/
inductive Scheduled (κ Event : Type) where
  | act (event : Event)
  | begin (request : κ)
  | step (index : Nat)

namespace Tracer

variable {pool : Pool Op Resp σ κ ρ} (tracer : pool.Tracer Event)

def follow (config : Config Op Resp σ κ ρ) :
    Scheduled κ Event → Option (Config Op Resp σ κ ρ)
  | .act event => (tracer.act event config.state).map fun t => ⟨t, config.calls⟩
  | .begin request =>
      some ⟨config.state, config.calls ++ [pool.newCall request config.calls]⟩
  | .step index =>
      config.calls[index]?.bind fun call =>
        (Prog.advance tracer.handler call.rest config.state).map fun (later, t) =>
          ⟨t, config.calls.set index (call.stepped config.state t later)⟩

def followAll (config : Config Op Resp σ κ ρ) :
    List (Scheduled κ Event) → Option (Config Op Resp σ κ ρ)
  | [] => some config
  | event :: events => (tracer.follow config event).bind fun next => followAll next events

/-- The configuration a schedule ends in. -/
def after (config : Config Op Resp σ κ ρ) (events : List (Scheduled κ Event)) :
    Config Op Resp σ κ ρ :=
  (tracer.followAll config events).getD config

theorem reaches_of_rely {s t : σ} {calls : List (Call Op Resp σ κ ρ)} (rely : pool.Rely s t) :
    pool.Reaches ⟨s, calls⟩ ⟨t, calls⟩ := by
  induction rely with
  | refl => exact .refl
  | tail _ step ih => exact ih.tail (.env step)

/-- Everything but an event of the surroundings is one move. -/
theorem follow_moves {first last : Config Op Resp σ κ ρ} {event : Scheduled κ Event}
    (calls : ∀ outside, event ≠ .act outside)
    (followed : tracer.follow first event = some last) : pool.Moves first last := by
  cases event with
  | act event => exact absurd rfl (calls event)
  | begin request =>
      cases followed
      exact .begin request
  | step index =>
      obtain ⟨call, found, advanced⟩ := Option.bind_eq_some_iff.mp followed
      obtain ⟨⟨later, t⟩, step, rfl⟩ := Option.map_eq_some_iff.mp advanced
      obtain ⟨state, calls⟩ := first
      obtain ⟨bound, rfl⟩ := List.getElem?_eq_some_iff.mp found
      have middle := List.getElem_cons_drop bound
      have whole : calls = calls.take index ++ calls[index] :: calls.drop (index + 1) := by
        rw [middle, List.take_append_drop]
      change pool.Moves ⟨state, calls⟩ ⟨t, calls.set index _⟩
      rw [List.set_eq_take_append_cons_drop, if_pos bound]
      nth_rewrite 1 [whole]
      exact .step (Prog.advance_step tracer.handlerSound step)

theorem follow_reaches {first last : Config Op Resp σ κ ρ} {event : Scheduled κ Event}
    (followed : tracer.follow first event = some last) : pool.Reaches first last := by
  cases event with
  | act event =>
      obtain ⟨t, acted, rfl⟩ := Option.map_eq_some_iff.mp followed
      exact reaches_of_rely (tracer.actSound _ _ _ acted)
  | begin request => exact .single (tracer.follow_moves (by simp) followed)
  | step index => exact .single (tracer.follow_moves (by simp) followed)

/-- A schedule that can be followed to its end is a run of the pool. -/
theorem after_reaches (config : Config Op Resp σ κ ρ) (events : List (Scheduled κ Event))
    (followed : (tracer.followAll config events).isSome = true) :
    pool.Reaches config (tracer.after config events) := by
  induction events generalizing config with
  | nil => exact .refl
  | cons event events ih =>
      obtain ⟨last, ends⟩ := Option.isSome_iff_exists.mp followed
      obtain ⟨next, first, rest⟩ := Option.bind_eq_some_iff.mp ends
      have later := ih next (Option.isSome_iff_exists.mpr ⟨last, rest⟩)
      have same : tracer.after config (event :: events) = tracer.after next events := by
        simp only [after, followAll, first, Option.bind_some, rest, Option.getD_some]
      rw [same]
      exact (tracer.follow_reaches first).trans later

end Tracer

end tracing

end Pool
end Interference

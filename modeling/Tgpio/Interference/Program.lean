import Mathlib.Logic.Relation

/-!
# Programs that run among interfering surroundings

A program is a tree of calls to an interface whose answers it does not choose.
Between any two calls the surroundings may take any number of steps of their
own. Unbounded loops are part of the syntax, so a program that retries for ever
is a program here too; it only has no completed execution. Nothing in this
module depends on which interface is used.
-/

namespace Interference

universe u v

inductive Prog (Op : Type u) (Resp : Op → Type) : Type → Type (max 1 u) where
  | ret {α : Type} (value : α) : Prog Op Resp α
  | call {α : Type} (op : Op) (next : Resp op → Prog Op Resp α) : Prog Op Resp α
  | loop {α β γ : Type} (body : β → Prog Op Resp (β ⊕ γ)) (start : β)
      (next : γ → Prog Op Resp α) : Prog Op Resp α

/-- What a call does to the shared state, and what the surroundings can do to
it between two calls. -/
structure Semantics (Op : Type u) (Resp : Op → Type) (σ : Type v) where
  step : (op : Op) → σ → Resp op → σ → Prop
  env : σ → σ → Prop

/-- Any finite number of steps of the surroundings. -/
def Semantics.Rely {Op : Type u} {Resp : Op → Type} {σ : Type v}
    (sem : Semantics Op Resp σ) : σ → σ → Prop :=
  Relation.ReflTransGen sem.env

namespace Prog

variable {Op : Type u} {Resp : Op → Type} {σ : Type v} {α β γ : Type}

def bind : {α : Type} → Prog Op Resp α → (α → Prog Op Resp β) → Prog Op Resp β
  | _, ret value, rest => rest value
  | _, call op next, rest => call op fun reply => (next reply).bind rest
  | _, loop body start next, rest => loop body start fun value => (next value).bind rest

instance : Monad (Prog Op Resp) where
  pure := ret
  bind := bind

/-- One call and its answer. -/
def perform (op : Op) : Prog Op Resp (Resp op) := call op ret

/-- Repeat `body` until it answers on the right. -/
def iterate (body : β → Prog Op Resp (β ⊕ γ)) (start : β) : Prog Op Resp γ :=
  loop body start ret

theorem bind_def (program : Prog Op Resp α) (rest : α → Prog Op Resp β) :
    program >>= rest = program.bind rest := rfl

theorem bind_assoc (program : Prog Op Resp α) (first : α → Prog Op Resp β)
    (second : β → Prog Op Resp γ) :
    (program.bind first).bind second = program.bind fun value => (first value).bind second := by
  induction program with
  | ret value => rfl
  | call op next ih => simp only [bind, ih]
  | loop body start next _ ih => simp only [bind, ih]

/-- One turn of a loop, followed by the rest of it. -/
def unfoldLoop (body : β → Prog Op Resp (β ⊕ γ)) (start : β) (next : γ → Prog Op Resp α) :
    Prog Op Resp α :=
  (body start).bind fun outcome =>
    match outcome with
    | .inl again => loop body again next
    | .inr value => next value

theorem unfold_loop_bind (body : β → Prog Op Resp (β ⊕ γ)) (start : β)
    (next : γ → Prog Op Resp α) {δ : Type} (rest : α → Prog Op Resp δ) :
    (unfoldLoop body start next).bind rest =
      unfoldLoop body start fun value => (next value).bind rest := by
  rw [unfoldLoop, bind_assoc, unfoldLoop]
  congr 1
  funext outcome
  cases outcome <;> rfl

/-- The same calls, each under the label of the one who makes it. -/
def tag {Label : Type} (label : Label) :
    {α : Type} → Prog Op Resp α → Prog (Label × Op) (fun op => Resp op.2) α
  | _, ret value => ret value
  | _, call op next => call (label, op) fun reply => (next reply).tag label
  | _, loop body start next =>
      loop (fun value => (body value).tag label) start fun value => (next value).tag label

/-- A completed run: the calls of the program in order, each preceded by some
steps of the surroundings, and some more after the last. -/
inductive Executes (sem : Semantics Op Resp σ) :
    {α : Type} → Prog Op Resp α → σ → α → σ → Prop where
  | ret {α : Type} {value : α} {s t : σ} : sem.Rely s t → Executes sem (ret value) s value t
  | call {α : Type} {op : Op} {next : Resp op → Prog Op Resp α} {s t u w : σ} {reply : Resp op}
      {value : α} : sem.Rely s t → sem.step op t reply u → Executes sem (next reply) u value w →
      Executes sem (call op next) s value w
  | loop {α β γ : Type} {body : β → Prog Op Resp (β ⊕ γ)} {start : β}
      {next : γ → Prog Op Resp α} {s t : σ} {value : α} :
      Executes sem (unfoldLoop body start next) s value t →
      Executes sem (loop body start next) s value t

theorem Executes.prepend {sem : Semantics Op Resp σ} {program : Prog Op Resp α} {s t w : σ}
    {value : α} (before : sem.Rely s t) (run : Executes sem program t value w) :
    Executes sem program s value w := by
  induction run with
  | ret rely => exact .ret (before.trans rely)
  | call rely step rest _ => exact .call (before.trans rely) step rest
  | loop _ ih => exact .loop (ih before)

theorem Executes.sequence {sem : Semantics Op Resp σ} {program : Prog Op Resp α}
    {rest : α → Prog Op Resp β} {s t w : σ} {value : α} {result : β}
    (first : Executes sem program s value t) (second : Executes sem (rest value) t result w) :
    Executes sem (program.bind rest) s result w := by
  induction first with
  | ret rely => exact second.prepend rely
  | call rely step _ ih => exact .call rely step (ih second)
  | loop _ ih => exact .loop (unfold_loop_bind _ _ _ _ ▸ ih second)

/-- Every completed run of a sequence passes through a state between its two
parts. -/
theorem Executes.split {sem : Semantics Op Resp σ} {program : Prog Op Resp α}
    {rest : α → Prog Op Resp β} {s w : σ} {result : β}
    (run : Executes sem (program.bind rest) s result w) :
    ∃ value t, Executes sem program s value t ∧ Executes sem (rest value) t result w := by
  generalize same : program.bind rest = whole at run
  induction run generalizing α with
  | ret rely =>
      cases program with
      | ret value =>
          refine ⟨value, _, .ret .refl, ?_⟩
          rw [bind] at same
          exact same ▸ .ret rely
      | call op next => simp [bind] at same
      | loop body start next => simp [bind] at same
  | call rely step after ih =>
      cases program with
      | ret value =>
          refine ⟨value, _, .ret .refl, ?_⟩
          rw [bind] at same
          exact same ▸ .call rely step after
      | call op next =>
          simp only [bind, call.injEq] at same
          obtain ⟨rfl, same⟩ := same
          cases same
          obtain ⟨value, t, first, second⟩ := ih rfl
          exact ⟨value, t, .call rely step first, second⟩
      | loop body start next => simp [bind] at same
  | loop after ih =>
      cases program with
      | ret value =>
          refine ⟨value, _, .ret .refl, ?_⟩
          rw [bind] at same
          exact same ▸ .loop after
      | call op next => simp [bind] at same
      | loop body start next =>
          simp only [bind] at same
          cases same
          obtain ⟨value, t, first, second⟩ := ih (unfold_loop_bind _ _ next rest)
          exact ⟨value, t, .loop first, second⟩

/-- A run of a program in the course of which `part` ran from `u` to `v`. -/
inductive Contains (sem : Semantics Op Resp σ) (part : Prog Op Resp β) (u : σ) (answer : β) (v : σ) :
    {α : Type} → Prog Op Resp α → σ → α → σ → Prop where
  | here {α : Type} {rest : β → Prog Op Resp α} {value : α} {t : σ} :
      Executes sem part u answer v → Executes sem (rest answer) v value t →
      Contains sem part u answer v (part.bind rest) u value t
  | later {α γ : Type} {first : Prog Op Resp γ} {rest : γ → Prog Op Resp α} {s m t : σ} {known : γ}
      {value : α} : Executes sem first s known m →
      Contains sem part u answer v (rest known) m value t →
      Contains sem part u answer v (first.bind rest) s value t

theorem Contains.bind {sem : Semantics Op Resp σ} {part : Prog Op Resp β}
    {program : Prog Op Resp α} {next : α → Prog Op Resp γ} {s t u v w : σ} {answer : β} {value : α}
    {result : γ} (contains : Contains sem part u answer v program s value t)
    (after : Executes sem (next value) t result w) :
    Contains sem part u answer v (program.bind next) s result w := by
  induction contains with
  | here ran rest =>
      rw [bind_assoc]
      exact .here ran (rest.sequence after)
  | later first _ ih =>
      rw [bind_assoc]
      exact .later first (ih after)

/-- One step of a program that is being run; the turn of a loop is silent. -/
inductive Step (sem : Semantics Op Resp σ) : Prog Op Resp α → σ → Prog Op Resp α → σ → Prop where
  | call {op : Op} {next : Resp op → Prog Op Resp α} {s t : σ} {reply : Resp op} :
      sem.step op s reply t → Step sem (call op next) s (next reply) t
  | loop {β γ : Type} {body : β → Prog Op Resp (β ⊕ γ)} {start : β}
      {next : γ → Prog Op Resp α} {s : σ} :
      Step sem (loop body start next) s (unfoldLoop body start next) s

/-- Run a program on an executable interface. The `i`-th entry of `moves` is
what the surroundings do just before the `i`-th call; past the end of the list
they do nothing. -/
def exec (handler : (op : Op) → σ → Option (Resp op × σ)) :
    {α : Type} → Nat → List (σ → σ) → Prog Op Resp α → σ → Option (α × σ)
  | _, 0, _, _, _ => none
  | _, _ + 1, _, ret value, s => some (value, s)
  | _, fuel + 1, moves, call op next, s =>
      match handler op (moves.headD id s) with
      | none => none
      | some (reply, t) => exec handler fuel moves.tail (next reply) t
  | _, fuel + 1, moves, loop body start next, s =>
      exec handler fuel moves (unfoldLoop body start next) s

theorem exec_executes {sem : Semantics Op Resp σ}
    {handler : (op : Op) → σ → Option (Resp op × σ)}
    (sound : ∀ op s reply t, handler op s = some (reply, t) → sem.step op s reply t)
    (fuel : Nat) (moves : List (σ → σ)) (allowed : ∀ move ∈ moves, ∀ s, sem.Rely s (move s))
    (program : Prog Op Resp α) (s : σ) (value : α) (t : σ)
    (ran : exec handler fuel moves program s = some (value, t)) :
    Executes sem program s value t := by
  induction fuel generalizing moves program s with
  | zero => simp [exec] at ran
  | succ fuel ih =>
      cases program with
      | ret result =>
          simp only [exec, Option.some.injEq, Prod.mk.injEq] at ran
          obtain ⟨rfl, rfl⟩ := ran
          exact .ret .refl
      | call op next =>
          rw [exec] at ran
          have moved : sem.Rely s (moves.headD id s) := by
            cases moves with
            | nil => exact .refl
            | cons move rest => exact allowed move (by simp) s
          cases answered : handler op (moves.headD id s) with
          | none =>
              rw [answered] at ran
              contradiction
          | some answer =>
              rw [answered] at ran
              exact .call moved (sound _ _ _ _ answered) (ih moves.tail
                (fun move member => allowed move (List.mem_of_mem_tail member)) _ _ ran)
      | loop body start next =>
          rw [exec] at ran
          exact .loop (ih moves allowed _ _ ran)

/-- The state an execution ends in; the state it began in if it does not end. -/
def finalState (handler : (op : Op) → σ → Option (Resp op × σ)) (fuel : Nat)
    (moves : List (σ → σ)) (program : Prog Op Resp α) (s : σ) : σ :=
  ((exec handler fuel moves program s).map Prod.snd).getD s

theorem exec_final {sem : Semantics Op Resp σ}
    {handler : (op : Op) → σ → Option (Resp op × σ)}
    (sound : ∀ op s reply t, handler op s = some (reply, t) → sem.step op s reply t)
    (fuel : Nat) (moves : List (σ → σ)) (allowed : ∀ move ∈ moves, ∀ s, sem.Rely s (move s))
    (program : Prog Op Resp α) (s : σ) (value : α)
    (ends : (exec handler fuel moves program s).map Prod.fst = some value) :
    Executes sem program s value (finalState handler fuel moves program s) := by
  cases ran : exec handler fuel moves program s with
  | none => simp [ran] at ends
  | some final =>
      have same : final.1 = value := by simpa [ran] using ends
      refine exec_executes sound fuel moves allowed program s value _ ?_
      rw [finalState, ran, ← same]
      rfl

end Prog
end Interference

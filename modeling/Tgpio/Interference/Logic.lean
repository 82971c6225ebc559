import Tgpio.Interference.Program

/-!
# Weakest preconditions under interference

`wp sem program Q s` says that every completed run of `program` from `s`, with
any steps of the surroundings before, between and after its calls, ends in `Q`.
The surroundings are part of the definition, so an assertion obtained from it
is stable. A loop asks for an invariant of its own.
-/

namespace Interference.Prog

universe u v w

variable {Op : Type u} {Resp : Op → Type} {σ : Type v} {α β γ : Type}

def wp (sem : Semantics Op Resp σ) :
    {α : Type} → Prog Op Resp α → (α → σ → Prop) → σ → Prop
  | _, ret value, post, s => ∀ t, sem.Rely s t → post value t
  | _, call op next, post, s =>
      ∀ t, sem.Rely s t → ∀ reply u, sem.step op t reply u → wp sem (next reply) post u
  | _, loop (β := β) body start next, post, s =>
      ∃ invariant : β → σ → Prop, invariant start s ∧ ∀ value t, invariant value t →
        wp sem (body value) (fun outcome u => match outcome with
          | .inl again => invariant again u
          | .inr done => wp sem (next done) post u) t

section rules

variable {sem : Semantics Op Resp σ}

theorem wp_mono {program : Prog Op Resp α} {post weaker : α → σ → Prop} {s : σ}
    (implies : ∀ value t, post value t → weaker value t) (holds : wp sem program post s) :
    wp sem program weaker s := by
  induction program generalizing s with
  | ret value => exact fun t rely => implies _ _ (holds t rely)
  | call op next ih =>
      exact fun t rely reply u step => ih reply implies (holds t rely reply u step)
  | loop body start next bodyIh nextIh =>
      obtain ⟨invariant, initial, kept⟩ := holds
      refine ⟨invariant, initial, fun value t inv => bodyIh value ?_ (kept value t inv)⟩
      intro outcome u after
      cases outcome with
      | inl again => exact after
      | inr done => exact nextIh done implies after

/-- What holds before some steps of the surroundings holds after them. -/
theorem wp_rely {program : Prog Op Resp α} {post : α → σ → Prop} {s t : σ}
    (holds : wp sem program post s) (rely : sem.Rely s t) : wp sem program post t := by
  induction program generalizing s t with
  | ret value => exact fun u later => holds u (rely.trans later)
  | call op next _ => exact fun u later => holds u (rely.trans later)
  | loop body start next bodyIh nextIh =>
      obtain ⟨invariant, initial, kept⟩ := holds
      refine ⟨fun value u => ∃ w, sem.Rely w u ∧ invariant value w, ⟨s, rely, initial⟩, ?_⟩
      rintro value u ⟨w, later, inv⟩
      refine wp_mono ?_ (bodyIh value (kept value w inv) later)
      intro outcome x after
      cases outcome with
      | inl again => exact ⟨x, .refl, after⟩
      | inr done => exact after

theorem wp_bind (program : Prog Op Resp α) (rest : α → Prog Op Resp β) (post : β → σ → Prop)
    (s : σ) :
    wp sem (program.bind rest) post s ↔
      wp sem program (fun value => wp sem (rest value) post) s := by
  induction program generalizing s with
  | ret value =>
      constructor
      · intro holds t rely
        exact wp_rely holds rely
      · intro holds
        exact holds s .refl
  | call op next ih =>
      simp only [bind, wp, ih]
  | loop body start next _ nextIh =>
      simp only [bind, wp, nextIh]

theorem wp_unfold_loop {body : β → Prog Op Resp (β ⊕ γ)} {start : β}
    {next : γ → Prog Op Resp α} {post : α → σ → Prop} {s : σ}
    (holds : wp sem (loop body start next) post s) :
    wp sem (unfoldLoop body start next) post s := by
  obtain ⟨invariant, initial, kept⟩ := holds
  rw [unfoldLoop, wp_bind]
  refine wp_mono ?_ (kept start s initial)
  intro outcome t after
  cases outcome with
  | inl again => exact ⟨invariant, after, kept⟩
  | inr done => exact after

/-- The loop rule: an invariant that holds on entry, is kept by a turn that
asks for another, and gives the postcondition on a turn that does not. -/
theorem wp_iterate {body : β → Prog Op Resp (β ⊕ γ)} {start : β} {post : γ → σ → Prop} {s : σ}
    (invariant : β → σ → Prop) (initial : invariant start s)
    (kept : ∀ value t, invariant value t → wp sem (body value)
      (fun outcome u => match outcome with
        | .inl again => invariant again u
        | .inr done => ∀ w, sem.Rely u w → post done w) t) :
    wp sem (iterate body start) post s := by
  refine ⟨invariant, initial, fun value t inv => wp_mono ?_ (kept value t inv)⟩
  intro outcome u after
  cases outcome with
  | inl again => exact after
  | inr done => exact after

theorem wp_and {program : Prog Op Resp α} {left right : α → σ → Prop} {s : σ}
    (first : wp sem program left s) (second : wp sem program right s) :
    wp sem program (fun value t => left value t ∧ right value t) s := by
  induction program generalizing s with
  | ret value => exact fun t rely => ⟨first t rely, second t rely⟩
  | call op next ih =>
      exact fun t rely reply u step => ih reply (first t rely reply u step) (second t rely reply u step)
  | loop body start next bodyIh nextIh =>
      obtain ⟨invariant, initial, kept⟩ := first
      obtain ⟨other, otherInitial, otherKept⟩ := second
      refine ⟨fun value u => invariant value u ∧ other value u, ⟨initial, otherInitial⟩, ?_⟩
      rintro value t ⟨inv, otherInv⟩
      refine wp_mono ?_ (bodyIh value (kept value t inv) (otherKept value t otherInv))
      rintro outcome u ⟨after, otherAfter⟩
      cases outcome with
      | inl again => exact ⟨after, otherAfter⟩
      | inr done => exact nextIh done after otherAfter

theorem wp_executes {program : Prog Op Resp α} {post : α → σ → Prop} {s t : σ} {value : α}
    (holds : wp sem program post s) (run : Executes sem program s value t) : post value t := by
  induction run with
  | ret rely => exact holds _ rely
  | call rely step _ ih => exact ih (holds _ rely _ _ step)
  | loop _ ih => exact ih (wp_unfold_loop holds)

theorem wp_step {program later : Prog Op Resp α} {post : α → σ → Prop} {s t : σ}
    (holds : wp sem program post s) (step : Step sem program s later t) :
    wp sem later post t := by
  cases step with
  | call step => exact holds _ .refl _ _ step
  | loop => exact wp_unfold_loop holds

end rules

section triples

/-- Assertions that the surroundings cannot invalidate. -/
def Stable (sem : Semantics Op Resp σ) (assertion : σ → Prop) : Prop :=
  ∀ s t, sem.env s t → assertion s → assertion t

def Triple (sem : Semantics Op Resp σ) (pre : σ → Prop) (program : Prog Op Resp α)
    (post : α → σ → Prop) : Prop :=
  ∀ s, pre s → wp sem program post s

variable {sem : Semantics Op Resp σ} {pre : σ → Prop}

theorem Stable.rely (stable : Stable sem pre) {s t : σ} (rely : sem.Rely s t)
    (holds : pre s) : pre t := by
  induction rely with
  | refl => exact holds
  | tail _ step ih => exact stable _ _ step ih

theorem Stable.and {other : σ → Prop} (first : Stable sem pre) (second : Stable sem other) :
    Stable sem fun s => pre s ∧ other s :=
  fun s t step holds => ⟨first s t step holds.1, second s t step holds.2⟩

theorem Triple.pure {value : α} {post : α → σ → Prop} (stable : Stable sem pre)
    (implies : ∀ s, pre s → post value s) :
    Triple sem pre (Pure.pure value : Prog Op Resp α) post :=
  fun _ holds t rely => implies t (stable.rely rely holds)

theorem Triple.bind {program : Prog Op Resp α} {rest : α → Prog Op Resp β}
    {mid : α → σ → Prop} {post : β → σ → Prop} (first : Triple sem pre program mid)
    (second : ∀ value, Triple sem (mid value) (rest value) post) :
    Triple sem pre (program >>= rest) post := by
  intro s holds
  rw [bind_def, wp_bind]
  exact wp_mono (fun value t after => second value t after) (first s holds)

/-- The same, with the assertion between the two parts given first. -/
theorem Triple.via {program : Prog Op Resp α} {rest : α → Prog Op Resp β}
    {post : β → σ → Prop} (mid : α → σ → Prop) (first : Triple sem pre program mid)
    (second : ∀ value, Triple sem (mid value) (rest value) post) :
    Triple sem pre (program >>= rest) post :=
  first.bind second

theorem Triple.call {op : Op} {post : Resp op → σ → Prop} (stable : Stable sem pre)
    (after : ∀ reply, Stable sem (post reply))
    (step : ∀ s reply t, pre s → sem.step op s reply t → post reply t) :
    Triple sem pre (Prog.perform op) post :=
  fun _ holds t rely reply u called _ later =>
    (after reply).rely later (step t reply u (stable.rely rely holds) called)

theorem Triple.conseq {program : Prog Op Resp α} {stronger : σ → Prop}
    {post weaker : α → σ → Prop} (triple : Triple sem pre program post)
    (before : ∀ s, stronger s → pre s) (after : ∀ value t, post value t → weaker value t) :
    Triple sem stronger program weaker :=
  fun s holds => wp_mono after (triple s (before s holds))

theorem Triple.ends {program : Prog Op Resp α} {post : α → σ → Prop}
    (triple : Triple sem pre program post) {s t : σ} {value : α} (holds : pre s)
    (run : Executes sem program s value t) : post value t :=
  wp_executes (triple s holds) run

theorem Triple.post {program : Prog Op Resp α} {post weaker : α → σ → Prop}
    (triple : Triple sem pre program post) (after : ∀ value t, post value t → weaker value t) :
    Triple sem pre program weaker :=
  triple.conseq (fun _ holds => holds) after

/-- A fact that needs no state can be taken for granted. -/
theorem Triple.given {program : Prog Op Resp α} {post : α → σ → Prop} {fact : Prop}
    (triple : fact → Triple sem pre program post) :
    Triple sem (fun s => fact ∧ pre s) program post :=
  fun s holds => triple holds.1 s holds.2

/-- A name for what is only known to exist. -/
theorem Triple.named {ι : Type} {program : Prog Op Resp α} {each : ι → σ → Prop}
    {post : α → σ → Prop} (triple : ∀ i, Triple sem (each i) program post) :
    Triple sem (fun s => ∃ i, each i s) program post :=
  fun s ⟨i, holds⟩ => triple i s holds

/-- The first part answers one known value. -/
theorem Triple.bind_known {program : Prog Op Resp α} {rest : α → Prog Op Resp β} {known : α}
    {mid : σ → Prop} {post : β → σ → Prop}
    (first : Triple sem pre program fun value s => value = known ∧ mid s)
    (second : Triple sem mid (rest known) post) :
    Triple sem pre (program >>= rest) post := by
  apply first.bind
  intro value
  apply Triple.given
  intro same
  rw [same]
  exact second

theorem Triple.iterate {body : β → Prog Op Resp (β ⊕ γ)} {start : β} {post : γ → σ → Prop}
    (invariant : β → σ → Prop) (initial : ∀ s, pre s → invariant start s)
    (stable : ∀ done, Stable sem (post done))
    (turn : ∀ value, Triple sem (invariant value) (body value) fun outcome t =>
      match outcome with
      | .inl again => invariant again t
      | .inr done => post done t) :
    Triple sem pre (Prog.iterate body start) post := by
  intro s holds
  refine wp_iterate invariant (initial s holds) fun value t inv => ?_
  refine wp_mono ?_ (turn value t inv)
  intro outcome u after
  cases outcome with
  | inl again => exact after
  | inr done => exact fun w later => (stable done).rely later after

end triples

/-- Every call the program can reach is allowed, whatever it is answered. -/
def Uses (allowed : Op → Prop) : {α : Type} → Prog Op Resp α → Prop
  | _, ret _ => True
  | _, call op next => allowed op ∧ ∀ reply, Uses allowed (next reply)
  | _, loop body _ next => (∀ value, Uses allowed (body value)) ∧ ∀ done, Uses allowed (next done)

section frame

variable {allowed : Op → Prop}

theorem uses_true (program : Prog Op Resp α) : Uses (fun _ => True) program := by
  induction program with
  | ret value => trivial
  | call op next ih => exact ⟨trivial, ih⟩
  | loop body start next bodyIh nextIh => exact ⟨bodyIh, nextIh⟩

@[simp] theorem uses_ret (value : α) : Uses allowed (ret value : Prog Op Resp α) := trivial

@[simp] theorem uses_pure (value : α) : Uses allowed (pure value : Prog Op Resp α) := trivial

@[simp] theorem uses_perform (op : Op) : Uses allowed (perform op : Prog Op Resp (Resp op)) ↔
    allowed op := by
  simp [perform, Uses]

theorem Uses.bind {program : Prog Op Resp α} {rest : α → Prog Op Resp β}
    (first : Uses allowed program) (second : ∀ value, Uses allowed (rest value)) :
    Uses allowed (program.bind rest) := by
  induction program with
  | ret value => exact second value
  | call op next ih => exact ⟨first.1, fun reply => ih reply (first.2 reply) second⟩
  | loop body start next _ nextIh => exact ⟨first.1, fun done => nextIh done (first.2 done) second⟩

theorem Uses.seq {program : Prog Op Resp α} {rest : α → Prog Op Resp β}
    (first : Uses allowed program) (second : ∀ value, Uses allowed (rest value)) :
    Uses allowed (program >>= rest) := first.bind second

theorem Uses.iterate {body : β → Prog Op Resp (β ⊕ γ)} {start : β}
    (turns : ∀ value, Uses allowed (body value)) : Uses allowed (iterate body start) :=
  ⟨turns, fun _ => trivial⟩

theorem Uses.mono {weaker : Op → Prop} {program : Prog Op Resp α}
    (implies : ∀ op, allowed op → weaker op) (uses : Uses allowed program) :
    Uses weaker program := by
  induction program with
  | ret value => trivial
  | call op next ih => exact ⟨implies op uses.1, fun reply => ih reply (uses.2 reply)⟩
  | loop body start next bodyIh nextIh =>
      exact ⟨fun value => bodyIh value (uses.1 value), fun done => nextIh done (uses.2 done)⟩

theorem Uses.tag {Label : Type} {labelled : Label × Op → Prop} {label : Label}
    {program : Prog Op Resp α} (uses : Uses (fun op => labelled (label, op)) program) :
    Uses labelled (program.tag label) := by
  induction program with
  | ret value => trivial
  | call op next ih => exact ⟨uses.1, fun reply => ih reply (uses.2 reply)⟩
  | loop body start next bodyIh nextIh =>
      exact ⟨fun value => bodyIh value (uses.1 value), fun done => nextIh done (uses.2 done)⟩

theorem Uses.unfold_loop {γ : Type} {body : β → Prog Op Resp (β ⊕ γ)}
    {start : β} {next : γ → Prog Op Resp α} (uses : Uses allowed (loop body start next)) :
    Uses allowed (unfoldLoop body start next) := by
  refine Uses.bind (uses.1 start) fun outcome => ?_
  cases outcome with
  | inl again => exact ⟨uses.1, uses.2⟩
  | inr value => exact uses.2 value

theorem Uses.step {sem : Semantics Op Resp σ} {program later : Prog Op Resp α} {s t : σ}
    (uses : Uses allowed program) (step : Step sem program s later t) : Uses allowed later := by
  cases step with
  | call step => exact uses.2 _
  | loop => exact uses.unfold_loop

/-- The frame rule: a fact kept by the surroundings and by every allowed call
is kept by a program that makes only such calls. -/
theorem wp_uses {sem : Semantics Op Resp σ} {invariant : σ → Prop} {program : Prog Op Resp α}
    (uses : Uses allowed program)
    (byCall : ∀ op s reply t, allowed op → sem.step op s reply t → invariant s → invariant t)
    (byEnv : Stable sem invariant) {s : σ} (initial : invariant s) :
    wp sem program (fun _ t => invariant t) s := by
  have byRely : ∀ s t, sem.Rely s t → invariant s → invariant t :=
    fun _ _ rely => byEnv.rely rely
  induction program generalizing s with
  | ret value => exact fun t rely => byRely s t rely initial
  | call op next ih =>
      exact fun t rely reply u step =>
        ih reply (uses.2 reply) (byCall op t reply u uses.1 step (byRely s t rely initial))
  | loop body start next bodyIh nextIh =>
      refine ⟨fun _ => invariant, initial, fun value t inv => ?_⟩
      refine wp_mono ?_ (bodyIh value (uses.1 value) inv)
      intro outcome u after
      cases outcome with
      | inl again => exact after
      | inr done => exact nextIh done (uses.2 done) after

/-- A program that is correct on a part of the state, among the steps that can
be seen of it, is correct on the whole. The comparison may rely on a fact that
the allowed calls and the surroundings keep. -/
theorem wp_view {τ : Type w} {sem : Semantics Op Resp σ} {other : Semantics Op Resp τ}
    (view : τ → σ) {fact : τ → Prop} {program : Prog Op Resp α} {post : α → σ → Prop} {s : τ}
    (uses : Uses allowed program)
    (steps : ∀ op s reply t, allowed op → fact s → other.step op s reply t →
      sem.step op (view s) reply (view t) ∧ fact t)
    (moves : ∀ s t, fact s → other.env s t → sem.env (view s) (view t) ∧ fact t)
    (initial : fact s) (holds : wp sem program post (view s)) :
    wp other program (fun value t => post value (view t) ∧ fact t) s := by
  have byRely : ∀ s t, fact s → other.Rely s t → sem.Rely (view s) (view t) ∧ fact t := by
    intro s t initial rely
    induction rely with
    | refl => exact ⟨.refl, initial⟩
    | tail _ step ih =>
        have moved := moves _ _ ih.2 step
        exact ⟨ih.1.tail moved.1, moved.2⟩
  induction program generalizing s with
  | ret value =>
      intro t rely
      have moved := byRely s t initial rely
      exact ⟨holds _ moved.1, moved.2⟩
  | call op next ih =>
      intro t rely reply u step
      have moved := byRely s t initial rely
      have stepped := steps op t reply u uses.1 moved.2 step
      exact ih reply (uses.2 reply) stepped.2 (holds _ moved.1 reply _ stepped.1)
  | loop body start next bodyIh nextIh =>
      obtain ⟨invariant, begins, kept⟩ := holds
      refine ⟨fun value t => invariant value (view t) ∧ fact t, ⟨begins, initial⟩, ?_⟩
      rintro value t ⟨inv, holdsFact⟩
      refine wp_mono ?_ (bodyIh value (uses.1 value) holdsFact (kept value _ inv))
      rintro outcome u ⟨after, later⟩
      cases outcome with
      | inl again => exact ⟨after, later⟩
      | inr done => exact nextIh done (uses.2 done) later after

end frame

section throughout

/-- A move of a program that is being run, or of its surroundings. -/
inductive Advances (sem : Semantics Op Resp σ) :
    Prog Op Resp α × σ → Prog Op Resp α × σ → Prop where
  | env {program : Prog Op Resp α} {s t : σ} : sem.env s t → Advances sem (program, s) (program, t)
  | step {program later : Prog Op Resp α} {s t : σ} : Step sem program s later t →
      Advances sem (program, s) (later, t)

/-- Every state a run passes through, finished or not, is an `always` state. -/
def Secure (sem : Semantics Op Resp σ) (always : σ → Prop) (program : Prog Op Resp α) (s : σ) :
    Prop :=
  ∀ last, Relation.ReflTransGen (Advances sem) (program, s) last → always last.2

/-- A triple whose runs pass through `always` states only. -/
def Upholds (sem : Semantics Op Resp σ) (always pre : σ → Prop) (program : Prog Op Resp α)
    (post : α → σ → Prop) : Prop :=
  ∀ s, pre s → Secure sem always program s ∧ wp sem program post s

variable {sem : Semantics Op Resp σ} {always pre : σ → Prop}

theorem Secure.now {program : Prog Op Resp α} {s : σ} (secure : Secure sem always program s) :
    always s :=
  secure (program, s) .refl

theorem Secure.advance {program later : Prog Op Resp α} {s t : σ}
    (secure : Secure sem always program s) (move : Advances sem (program, s) (later, t)) :
    Secure sem always later t :=
  fun last rest => secure last (.head move rest)

/-- A fact kept by the surroundings and by every allowed call holds throughout. -/
theorem secure_uses {allowed : Op → Prop} {program : Prog Op Resp α}
    (uses : Uses allowed program)
    (byCall : ∀ op s reply t, allowed op → sem.step op s reply t → always s → always t)
    (byEnv : Stable sem always) {s : σ} (initial : always s) :
    Secure sem always program s := by
  intro last moves
  generalize start : (program, s) = first at moves
  induction moves using Relation.ReflTransGen.head_induction_on generalizing program s with
  | refl =>
      cases start
      exact initial
  | head move _ ih =>
      cases start
      cases move with
      | env env => exact ih uses (byEnv _ _ env initial) rfl
      | step step =>
          refine ih (uses.step step) ?_ rfl
          cases step with
          | call step => exact byCall _ _ _ _ uses.1 step initial
          | loop => exact initial

theorem Secure.mono {weaker : σ → Prop} {program : Prog Op Resp α} {s : σ}
    (implies : ∀ t, always t → weaker t) (secure : Secure sem always program s) :
    Secure sem weaker program s :=
  fun last moves => implies _ (secure last moves)

theorem secure_ret {value : α} {s : σ} (stable : Stable sem pre) (safe : ∀ t, pre t → always t)
    (holds : pre s) : Secure sem always (ret value) s := by
  have none (op : Op) (s : σ) (reply : Resp op) (t : σ) (no : False) :
      sem.step op s reply t → pre s → pre t := no.elim
  exact (secure_uses (uses_ret value) none stable holds).mono safe

theorem secure_call {op : Op} {next : Resp op → Prog Op Resp α} {s : σ}
    (before : ∀ t, sem.Rely s t → always t)
    (after : ∀ t, sem.Rely s t → ∀ reply u, sem.step op t reply u →
      Secure sem always (next reply) u) :
    Secure sem always (call op next) s := by
  intro last moves
  generalize start : (call op next, s) = now at moves
  induction moves using Relation.ReflTransGen.head_induction_on generalizing s with
  | refl =>
      cases start
      exact before _ .refl
  | head move moves ih =>
      cases start
      cases move with
      | env env =>
          exact ih (fun t rely => before t (.head env rely))
            (fun t rely => after t (.head env rely)) rfl
      | step step =>
          cases step with
          | call step => exact after _ .refl _ _ step last moves

theorem Secure.bind {program : Prog Op Resp α} {rest : α → Prog Op Resp β} {s : σ}
    (first : Secure sem always program s)
    (second : wp sem program (fun value => Secure sem always (rest value)) s) :
    Secure sem always (program.bind rest) s := by
  intro last moves
  generalize start : (program.bind rest, s) = now at moves
  induction moves using Relation.ReflTransGen.head_induction_on generalizing program s with
  | refl =>
      cases start
      exact first.now
  | head move moves ih =>
      cases start
      cases move with
      | env env => exact ih (first.advance (.env env)) (wp_rely second (.single env)) rfl
      | step step =>
          cases program with
          | ret value => exact second s .refl last (.head (.step step) moves)
          | call op next =>
              cases step with
              | call step =>
                  exact ih (first.advance (.step (.call step))) (wp_step second (.call step)) rfl
          | loop body start next =>
              cases step
              refine ih (first.advance (.step .loop)) (wp_step second .loop) ?_
              rw [unfold_loop_bind]

theorem Upholds.bind {program : Prog Op Resp α} {rest : α → Prog Op Resp β}
    {mid : α → σ → Prop} {post : β → σ → Prop} (first : Upholds sem always pre program mid)
    (second : ∀ value, Upholds sem always (mid value) (rest value) post) :
    Upholds sem always pre (program >>= rest) post := by
  intro s holds
  obtain ⟨secure, after⟩ := first s holds
  constructor
  · exact secure.bind (wp_mono (fun value t reached => (second value t reached).1) after)
  · exact Triple.bind (fun s holds => (first s holds).2)
      (fun value t reached => (second value t reached).2) s holds

/-- The same, with the assertion between the two parts given first. -/
theorem Upholds.via {program : Prog Op Resp α} {rest : α → Prog Op Resp β}
    {post : β → σ → Prop} (mid : α → σ → Prop) (first : Upholds sem always pre program mid)
    (second : ∀ value, Upholds sem always (mid value) (rest value) post) :
    Upholds sem always pre (program >>= rest) post :=
  first.bind second

theorem Upholds.conseq {program : Prog Op Resp α} {stronger : σ → Prop}
    {post weaker : α → σ → Prop} (upholds : Upholds sem always pre program post)
    (before : ∀ s, stronger s → pre s) (after : ∀ value t, post value t → weaker value t) :
    Upholds sem always stronger program weaker := by
  intro s holds
  obtain ⟨secure, ends⟩ := upholds s (before s holds)
  exact ⟨secure, wp_mono after ends⟩

/-- The frame rule for every moment: the fact that is kept makes each state safe. -/
theorem Upholds.uses {allowed : Op → Prop} {program : Prog Op Resp α}
    (uses : Uses allowed program)
    (byCall : ∀ op s reply t, allowed op → sem.step op s reply t → pre s → pre t)
    (byEnv : Stable sem pre) (safe : ∀ s, pre s → always s) :
    Upholds sem always pre program fun _ => pre :=
  fun _ holds =>
    ⟨(secure_uses uses byCall byEnv holds).mono safe, wp_uses uses byCall byEnv holds⟩

/-- A fact that needs no state can be taken for granted. -/
theorem Upholds.given {program : Prog Op Resp α} {post : α → σ → Prop} {fact : Prop}
    (upholds : fact → Upholds sem always pre program post) :
    Upholds sem always (fun s => fact ∧ pre s) program post :=
  fun s holds => upholds holds.1 s holds.2

theorem Upholds.pure {value : α} {post : α → σ → Prop} (stable : Stable sem pre)
    (safe : ∀ s, pre s → always s) (implies : ∀ s, pre s → post value s) :
    Upholds sem always pre (Pure.pure value : Prog Op Resp α) post := by
  intro s holds
  exact ⟨secure_ret stable safe holds, Triple.pure stable implies s holds⟩

theorem Upholds.call {op : Op} {post : Resp op → σ → Prop} (stable : Stable sem pre)
    (after : ∀ reply, Stable sem (post reply)) (safe : ∀ s, pre s → always s)
    (safeAfter : ∀ reply s, post reply s → always s)
    (step : ∀ s reply t, pre s → sem.step op s reply t → post reply t) :
    Upholds sem always pre (Prog.perform op) post := by
  intro s holds
  refine ⟨?_, Triple.call stable after step s holds⟩
  apply secure_call
  · intro t rely
    exact safe t (stable.rely rely holds)
  · intro t rely reply u called
    have reached := step t reply u (stable.rely rely holds) called
    exact secure_ret (after reply) (safeAfter reply) reached

end throughout

end Interference.Prog

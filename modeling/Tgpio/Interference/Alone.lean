import Tgpio.Interference.Logic

/-!
# Programs that nothing interferes with

An interface that answers every call in one way, and surroundings that stand
still: a program then has at most one completed run. `Achieves` is the total
triple, which gives the run; that it is the only one comes for free. The calls
that matter are kept in a trace beside the state.
-/

namespace Interference.Prog

universe u v w x

variable {Op : Type u} {Resp : Op → Type} {σ : Type v} {τ : Type w} {α β : Type}

abbrev Handler (Op : Type u) (Resp : Op → Type) (σ : Type v) :=
  (op : Op) → σ → Option (Resp op × σ)

def alone (handler : Handler Op Resp σ) : Semantics Op Resp σ where
  step op s reply t := handler op s = some (reply, t)
  env _ _ := False

def traced (handler : Handler Op Resp σ) (note : Op → List τ) : Handler Op Resp (σ × List τ) :=
  fun op s => (handler op s.1).map fun done => (done.1, done.2, s.2 ++ note op)

variable {handler : Handler Op Resp σ}

theorem alone_rely {s t : σ} (rely : (alone handler).Rely s t) : t = s := by
  induction rely with
  | refl => rfl
  | tail _ step _ => exact step.elim

theorem Stable.alone (assertion : σ → Prop) : Stable (alone handler) assertion :=
  fun _ _ step => step.elim

/-- Two runs of one program from one state are the same run. -/
theorem Executes.unique {program : Prog Op Resp α} {s t t' : σ} {value value' : α}
    (run : Executes (alone handler) program s value t)
    (other : Executes (alone handler) program s value' t') : value' = value ∧ t' = t := by
  induction run generalizing t' with
  | ret rely =>
      cases other with
      | ret rely' => exact ⟨rfl, (alone_rely rely').trans (alone_rely rely).symm⟩
  | call rely step _ ih =>
      cases other with
      | call rely' step' rest' =>
          cases alone_rely rely
          cases alone_rely rely'
          cases step.symm.trans step'
          exact ih rest'
  | loop _ ih =>
      cases other with
      | loop rest' => exact ih rest'

def Achieves (handler : Handler Op Resp σ) (pre : σ → Prop) (program : Prog Op Resp α)
    (post : α → σ → Prop) : Prop :=
  ∀ s, pre s → ∃ value t, Executes (alone handler) program s value t ∧ post value t

variable {pre : σ → Prop}

theorem Achieves.bind {program : Prog Op Resp α} {rest : α → Prog Op Resp β}
    {mid : α → σ → Prop} {post : β → σ → Prop} (first : Achieves handler pre program mid)
    (second : ∀ value, Achieves handler (mid value) (rest value) post) :
    Achieves handler pre (program >>= rest) post := by
  intro s holds
  obtain ⟨value, t, ran, reached⟩ := first s holds
  obtain ⟨result, u, after, ends⟩ := second value t reached
  exact ⟨result, u, ran.sequence after, ends⟩

theorem Achieves.pure {value : α} {post : α → σ → Prop} (implies : ∀ s, pre s → post value s) :
    Achieves handler pre (Pure.pure value : Prog Op Resp α) post :=
  fun s holds => ⟨value, s, .ret .refl, implies s holds⟩

theorem Achieves.call {op : Op} {post : Resp op → σ → Prop}
    (answers : ∀ s, pre s → ∃ reply t, handler op s = some (reply, t) ∧ post reply t) :
    Achieves handler pre (perform op) post := by
  intro s holds
  obtain ⟨reply, t, answered, reached⟩ := answers s holds
  exact ⟨reply, t, .call .refl answered (.ret .refl), reached⟩

theorem Achieves.post {program : Prog Op Resp α} {post weaker : α → σ → Prop}
    (achieves : Achieves handler pre program post)
    (implies : ∀ value t, post value t → weaker value t) :
    Achieves handler pre program weaker := by
  intro s holds
  obtain ⟨value, t, ran, reached⟩ := achieves s holds
  exact ⟨value, t, ran, implies value t reached⟩

/-- The run of a program that answers one known value. -/
theorem Achieves.bind_known {program : Prog Op Resp α} {rest : α → Prog Op Resp β} {known : α}
    {mid : σ → Prop} {post : β → σ → Prop}
    (first : Achieves handler pre program fun value s => value = known ∧ mid s)
    (second : Achieves handler mid (rest known) post) :
    Achieves handler pre (program >>= rest) post := by
  refine first.bind fun value s reached => ?_
  obtain ⟨rfl, reached⟩ := reached
  exact second s reached

/-- What the run achieves, every run does. -/
theorem Achieves.every {program : Prog Op Resp α} {post : α → σ → Prop} {s t : σ} {value : α}
    (achieves : Achieves handler pre program post) (holds : pre s)
    (run : Executes (alone handler) program s value t) : post value t := by
  obtain ⟨value', t', ran, reached⟩ := achieves s holds
  obtain ⟨rfl, rfl⟩ := ran.unique run
  exact reached

/-- A run carries over to any interface that answers its calls alike, over a
state of which this one is a part. -/
theorem Executes.embed {ρ : Type x} {wider : Handler Op Resp ρ} {allowed : Op → Prop}
    (inside : σ → ρ)
    (answers : ∀ op s reply t, allowed op → handler op s = some (reply, t) →
      wider op (inside s) = some (reply, inside t))
    {program : Prog Op Resp α} {s t : σ} {value : α} (uses : Uses allowed program)
    (run : Executes (alone handler) program s value t) :
    Executes (alone wider) program (inside s) value (inside t) := by
  induction run with
  | ret rely =>
      cases alone_rely rely
      exact .ret .refl
  | call rely step _ ih =>
      cases alone_rely rely
      exact .call .refl (answers _ _ _ _ uses.1 step) (ih (uses.2 _))
  | loop _ ih => exact .loop (ih uses.unfold_loop)

/-- A run in surroundings that leave alone what its calls go by is one that
nothing interferes with, from any state that is alike. -/
theorem Executes.undisturbed {ρ : Type x} {sem : Semantics Op Resp ρ} {allowed : Op → Prop}
    {like : ρ → σ → Prop} (still : ∀ r r' s, sem.env r r' → like r s → like r' s)
    (answers : ∀ op r s reply r', allowed op → like r s → sem.step op r reply r' →
      ∃ s', handler op s = some (reply, s') ∧ like r' s')
    {program : Prog Op Resp α} {r r' : ρ} {s : σ} {value : α} (uses : Uses allowed program)
    (begins : like r s) (run : Executes sem program r value r') :
    ∃ s', Executes (alone handler) program s value s' ∧ like r' s' := by
  have passes {r r' : ρ} {s : σ} (rely : sem.Rely r r') (begins : like r s) : like r' s := by
    induction rely with
    | refl => exact begins
    | tail _ step ih => exact still _ _ _ step ih
  induction run generalizing s with
  | ret rely => exact ⟨s, .ret .refl, passes rely begins⟩
  | call rely step _ ih =>
      obtain ⟨s', answered, alike⟩ := answers _ _ _ _ _ uses.1 (passes rely begins) step
      obtain ⟨last, ran, ends⟩ := ih (uses.2 _) alike
      exact ⟨last, .call .refl answered ran, ends⟩
  | loop _ ih =>
      obtain ⟨last, ran, ends⟩ := ih uses.unfold_loop begins
      exact ⟨last, .loop ran, ends⟩

/-- A program whose calls are not noted leaves the trace as it is. -/
theorem Achieves.traced {note : Op → List τ} {program : Prog Op Resp α} {post : α → σ → Prop}
    (achieves : Achieves handler pre program post) (uses : Uses (fun op => note op = []) program)
    (log : List τ) :
    Achieves (Prog.traced handler note) (fun s => pre s.1 ∧ s.2 = log) program
      fun value s => post value s.1 ∧ s.2 = log := by
  rintro ⟨s, earlier⟩ ⟨holds, same⟩
  obtain rfl : earlier = log := same
  obtain ⟨value, t, ran, reached⟩ := achieves s holds
  refine ⟨value, (t, earlier), ran.embed (fun s => (s, earlier)) ?_ uses, reached, rfl⟩
  intro op s reply t unnoted answered
  simp [Prog.traced, answered, unnoted]

theorem Achieves.traced_call {note : Op → List τ} {op : Op} {post : Resp op → σ → Prop}
    (achieves : Achieves handler pre (perform op) post) (log : List τ) :
    Achieves (Prog.traced handler note) (fun s => pre s.1 ∧ s.2 = log) (perform op)
      fun value s => post value s.1 ∧ s.2 = log ++ note op := by
  apply Achieves.call
  rintro ⟨s, earlier⟩ ⟨holds, same⟩
  obtain rfl : earlier = log := same
  obtain ⟨reply, t, ran, reached⟩ := achieves s holds
  cases ran with
  | call rely answered rest =>
      cases alone_rely rely
      cases rest with
      | ret rely =>
          cases alone_rely rely
          exact ⟨reply, (_, earlier ++ note op), by simp [Prog.traced, show handler op s = _ from answered],
            reached, rfl⟩

theorem Triple.alone_call {op : Op} {post : Resp op → σ → Prop}
    (step : ∀ s reply t, pre s → handler op s = some (reply, t) → post reply t) :
    Triple (alone handler) pre (perform op) post :=
  Triple.call (.alone pre) (fun reply => .alone (post reply)) step

theorem Triple.alone_pure {value : α} {post : α → σ → Prop} (implies : ∀ s, pre s → post value s) :
    Triple (alone handler) pre (Pure.pure value : Prog Op Resp α) post :=
  Triple.pure (.alone pre) implies

theorem Triple.alone_uses {allowed : Op → Prop} {program : Prog Op Resp α}
    (keeps : ∀ op s reply t, allowed op → handler op s = some (reply, t) → pre s → pre t)
    (uses : Uses allowed program) : Triple (alone handler) pre program fun _ => pre :=
  fun _ holds => wp_uses uses keeps (.alone pre) holds

/-- What every call keeps, is kept by a run that achieves something. -/
theorem Achieves.keeping {kept : σ → Prop} {allowed : Op → Prop} {program : Prog Op Resp α}
    {post : α → σ → Prop} (achieves : Achieves handler pre program post)
    (keeps : ∀ op s reply t, allowed op → handler op s = some (reply, t) → kept s → kept t)
    (uses : Uses allowed program) :
    Achieves handler (fun s => pre s ∧ kept s) program fun value t => post value t ∧ kept t := by
  intro s holds
  obtain ⟨value, t, ran, reached⟩ := achieves s holds.1
  refine ⟨value, t, ran, reached, ?_⟩
  exact (Triple.alone_uses keeps uses).ends holds.2 ran

end Interference.Prog

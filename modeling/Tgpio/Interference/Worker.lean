import Tgpio.Interference.Logic

/-!
# A worker thread and its surroundings

One thread runs the same program over and over. A run begins when `start`
allows it and ends, after the program has returned, with `finish`. Between any
two calls of a run, and between runs, the surroundings take their own steps.
The state records the rest of the run in progress, so a claim can speak about a
run that is half done.
-/

namespace Interference

open Prog

universe u v

variable {Op : Type u} {Resp : Op → Type} {σ : Type v}

structure Worker (Op : Type u) (Resp : Op → Type) (σ : Type v) extends Semantics Op Resp σ where
  program : Prog Op Resp Unit
  start : σ → σ → Prop
  finish : σ → σ → Prop

namespace Worker

variable (worker : Worker Op Resp σ)

/-- The shared state, and what is left of the run in progress if there is one. -/
structure Config (Op : Type u) (Resp : Op → Type) (σ : Type v) where
  state : σ
  run : Option (Prog Op Resp Unit)

inductive Moves : Config Op Resp σ → Config Op Resp σ → Prop where
  | env {s t : σ} {run : Option (Prog Op Resp Unit)} :
      worker.env s t → Moves ⟨s, run⟩ ⟨t, run⟩
  | start {s t : σ} : worker.start s t → Moves ⟨s, none⟩ ⟨t, some worker.program⟩
  | step {s t : σ} {program later : Prog Op Resp Unit} :
      Step worker.toSemantics program s later t → Moves ⟨s, some program⟩ ⟨t, some later⟩
  | finish {s t : σ} : worker.finish s t → Moves ⟨s, some (ret ())⟩ ⟨t, none⟩

def Reaches : Config Op Resp σ → Config Op Resp σ → Prop :=
  Relation.ReflTransGen worker.Moves

/-- What the worker owes while it runs: to end in a state from which `finish`
gives the invariant of the states between runs. -/
def Owes (invariant : σ → Prop) : Unit → σ → Prop :=
  fun _ s => ∀ t, worker.finish s t → invariant t

/-- The idle invariant when no run is in progress, and the rest of the run
leading back to it when one is. -/
def Holds (invariant : σ → Prop) (config : Config Op Resp σ) : Prop :=
  match config.run with
  | none => invariant config.state
  | some program => wp worker.toSemantics program (worker.Owes invariant) config.state

section invariant

variable {worker} {invariant : σ → Prop}

theorem holds_moves
    (byEnv : ∀ s t, worker.env s t → invariant s → invariant t)
    (byRun : ∀ s t, worker.start s t → invariant s →
      wp worker.toSemantics worker.program (worker.Owes invariant) t)
    {before after : Config Op Resp σ} (move : worker.Moves before after)
    (holds : worker.Holds invariant before) : worker.Holds invariant after := by
  cases move with
  | @env s t run env =>
      cases run with
      | none => exact byEnv _ _ env holds
      | some program => exact wp_rely holds (.single env)
  | start start => exact byRun _ _ start holds
  | step step => exact wp_step holds step
  | finish finish => exact holds _ .refl _ finish

/-- An idle invariant kept by the surroundings and restored by every run holds
of every reachable configuration. -/
theorem holds_reaches
    (byEnv : ∀ s t, worker.env s t → invariant s → invariant t)
    (byRun : ∀ s t, worker.start s t → invariant s →
      wp worker.toSemantics worker.program (worker.Owes invariant) t)
    {first last : Config Op Resp σ} (reaches : worker.Reaches first last)
    (initial : worker.Holds invariant first) : worker.Holds invariant last := by
  induction reaches with
  | refl => exact initial
  | tail _ move ih => exact holds_moves byEnv byRun move ih

/-- An idle invariant that every run restores, through `always` states only,
makes every reachable state one, in the middle of a run too. -/
theorem always_reaches {always pre : σ → Prop}
    (byEnv : ∀ s t, worker.env s t → invariant s → invariant t)
    (safe : ∀ s, invariant s → always s)
    (begins : ∀ s t, worker.start s t → invariant s → pre t)
    (runs : Upholds worker.toSemantics always pre worker.program (worker.Owes invariant))
    {s : σ} {last : Config Op Resp σ} (reaches : worker.Reaches ⟨s, none⟩ last)
    (initial : invariant s) : always last.state := by
  have byRun (s t : σ) (start : worker.start s t) (holds : invariant s) :
      wp worker.toSemantics worker.program (worker.Owes invariant) t :=
    (runs t (begins s t start holds)).2
  have throughout : worker.Holds invariant last ∧
      ∀ program, last.run = some program →
        Secure worker.toSemantics always program last.state := by
    induction reaches with
    | refl => exact ⟨initial, nofun⟩
    | tail _ move ih =>
        obtain ⟨holds, secure⟩ := ih
        refine ⟨holds_moves byEnv byRun move holds, ?_⟩
        cases move with
        | env env => exact fun program running => (secure program running).advance (.env env)
        | start start =>
            rintro _ ⟨rfl⟩
            exact (runs _ (begins _ _ start holds)).1
        | step step =>
            rintro _ ⟨rfl⟩
            exact (secure _ rfl).advance (.step step)
        | finish finish => exact nofun
  obtain ⟨holds, secure⟩ := throughout
  obtain ⟨state, run⟩ := last
  cases run with
  | none => exact safe state holds
  | some program => exact (secure program rfl).now

end invariant

section runs

variable {worker}

theorem Reaches.ofRely {s t : σ} {run : Option (Prog Op Resp Unit)}
    (rely : worker.Rely s t) : worker.Reaches ⟨s, run⟩ ⟨t, run⟩ := by
  induction rely with
  | refl => exact .refl
  | tail _ step ih => exact ih.tail (.env step)

theorem Reaches.ofExecutes {program : Prog Op Resp Unit} {s t : σ} {value : Unit}
    (run : Executes worker.toSemantics program s value t) :
    worker.Reaches ⟨s, some program⟩ ⟨t, some (ret ())⟩ := by
  have general : ∀ {α : Type} {program : Prog Op Resp α} {s t : σ} {value : α},
      Executes worker.toSemantics program s value t → ∀ (isUnit : α = Unit),
      worker.Reaches ⟨s, some (isUnit ▸ program)⟩ ⟨t, some (ret ())⟩ := by
    intro α program s t value run
    induction run with
    | ret rely =>
        intro isUnit
        subst isUnit
        exact Reaches.ofRely rely
    | call rely step _ ih =>
        intro isUnit
        subst isUnit
        exact (Reaches.ofRely rely).trans (.head (.step (.call step)) (ih rfl))
    | loop _ ih =>
        intro isUnit
        subst isUnit
        exact .head (.step .loop) (ih rfl)
  exact general run rfl

/-- A whole run, from the state it starts in to the state it finishes in. -/
theorem Reaches.ofRun {s t u w : σ} (start : worker.start s t)
    (run : Executes worker.toSemantics worker.program t () u) (finish : worker.finish u w) :
    worker.Reaches ⟨s, none⟩ ⟨w, none⟩ :=
  .head (.start start) ((Reaches.ofExecutes run).tail (.finish finish))

/-- An executable version of a worker, for runs on given states: how each call
is answered, how a run starts and finishes, and some events of the
surroundings, each with its soundness. -/
structure Tracer (worker : Worker Op Resp σ) (Event : Type) where
  handler : (op : Op) → σ → Option (Resp op × σ)
  start : σ → Option σ
  finish : σ → σ
  act : Event → σ → Option σ
  handlerSound : ∀ op s reply t, handler op s = some (reply, t) → worker.step op s reply t
  startSound : ∀ s t, start s = some t → worker.start s t
  finishSound : ∀ s, worker.finish s (finish s)
  actSound : ∀ event s t, act event s = some t → worker.Rely s t

/-- An event of a trace: one of the surroundings, or a whole run. -/
inductive Traced (Event : Type) where
  | act (event : Event)
  | run

namespace Tracer

variable {Event : Type} (tracer : Tracer worker Event)

def follow (fuel : Nat) (s : σ) : Traced Event → Option σ
  | .act event => tracer.act event s
  | .run => (tracer.start s).bind fun begun =>
      (exec tracer.handler fuel [] worker.program begun).map fun result => tracer.finish result.2

def followAll (fuel : Nat) (s : σ) : List (Traced Event) → Option σ
  | [] => some s
  | event :: events => (tracer.follow fuel s event).bind fun t => followAll fuel t events

/-- The state a trace ends in. -/
def after (fuel : Nat) (s : σ) (events : List (Traced Event)) : σ :=
  (tracer.followAll fuel s events).getD s

theorem follow_reaches {fuel : Nat} {s t : σ} {event : Traced Event}
    (followed : tracer.follow fuel s event = some t) : worker.Reaches ⟨s, none⟩ ⟨t, none⟩ := by
  cases event with
  | act event => exact Reaches.ofRely (tracer.actSound event s t followed)
  | run =>
      obtain ⟨begun, starts, followed⟩ := Option.bind_eq_some_iff.mp followed
      obtain ⟨⟨_, last⟩, ran, rfl⟩ := Option.map_eq_some_iff.mp followed
      refine Reaches.ofRun (tracer.startSound s begun starts) ?_ (tracer.finishSound last)
      exact exec_executes tracer.handlerSound fuel [] (by simp) _ _ _ _ ran

theorem follow_all_reaches {fuel : Nat} {s t : σ} {events : List (Traced Event)}
    (followed : tracer.followAll fuel s events = some t) :
    worker.Reaches ⟨s, none⟩ ⟨t, none⟩ := by
  induction events generalizing s with
  | nil =>
      cases followed
      exact .refl
  | cons event events ih =>
      obtain ⟨next, first, rest⟩ := Option.bind_eq_some_iff.mp followed
      exact (tracer.follow_reaches first).trans (ih rest)

/-- A trace that can be followed to its end is a run of the system. -/
theorem after_reaches (fuel : Nat) (s : σ) (events : List (Traced Event))
    (followed : (tracer.followAll fuel s events).isSome = true) :
    worker.Reaches ⟨s, none⟩ ⟨tracer.after fuel s events, none⟩ := by
  obtain ⟨t, followed⟩ := Option.isSome_iff_exists.mp followed
  rw [after, followed]
  exact tracer.follow_all_reaches followed

end Tracer

end runs

section beside

/-- Another thread beside the worker: it acts on the shared state, and whatever
the worker does is a step of its surroundings. -/
def beside : Semantics Op Resp (Config Op Resp σ) where
  step op before reply after := worker.toSemantics.step op before.state reply after.state ∧
    after.run = before.run
  env := worker.Moves

variable {worker} {invariant : σ → Prop} {running : Prog Op Resp Unit → Prop}

/-- What the other thread may rely on: a fact about the state, kept by the
surroundings and by whatever part of a run may be in progress. -/
theorem stable_beside
    (byEnv : ∀ s t, worker.env s t → invariant s → invariant t)
    (byStart : ∀ s t, worker.start s t → invariant s → invariant t ∧ running worker.program)
    (byStep : ∀ s t program later, Step worker.toSemantics program s later t → running program →
      invariant s → invariant t ∧ running later)
    (byFinish : ∀ s t, worker.finish s t → invariant s → invariant t) :
    Stable worker.beside fun config =>
      invariant config.state ∧ ∀ program, config.run = some program → running program := by
  rintro before after (env | start | step | finish) ⟨inv, runs⟩
  · exact ⟨byEnv _ _ env inv, runs⟩
  · obtain ⟨inv, begun⟩ := byStart _ _ start inv
    exact ⟨inv, by rintro _ ⟨rfl⟩; exact begun⟩
  · obtain ⟨inv, later⟩ := byStep _ _ _ _ step (runs _ rfl) inv
    exact ⟨inv, by rintro _ ⟨rfl⟩; exact later⟩
  · exact ⟨byFinish _ _ finish inv, nofun⟩

end beside

end Worker
end Interference

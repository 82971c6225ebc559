import Tgpio.Interference.TornRead

/-!
# The looks of a torn read

A record is kept of what every look found, the whole value at that moment with
it. A torn read has returned exactly when its last two looks at the high half
agree, and then it answers the value of the look between them.
-/

namespace Interference

universe u v

/-- The same calls and surroundings, and a note of every call taken down. -/
def Semantics.noted {Op : Type u} {Resp : Op → Type} {σ : Type v} {Note : Type}
    (sem : Semantics Op Resp σ) (note : Op → σ → Option Note) :
    Semantics Op Resp (σ × List Note) where
  step op s reply t := sem.step op s.1 reply t.1 ∧ t.2 = (note op s.1).toList ++ s.2
  env s t := sem.env s.1 t.1 ∧ t.2 = s.2

namespace Prog

variable {Op : Type u} {Resp : Op → Type} {σ : Type v} {V R H : Type}

inductive Half where
  | low
  | high
  deriving DecidableEq, Repr

/-- The last two looks at the high half, with one at the low half between them,
agree. The last look comes first. -/
def Agreed (high : V → H) : List (Half × V) → Prop
  | (.high, after) :: (.low, _) :: (.high, before) :: _ => high after = high before
  | _ => False

/-- A read is over when its looks agree, and answers what the low one found. -/
def NeverTorn (high : V → H) (whole : V → R) (looks : List (Half × V))
    (program : Prog Op Resp R) : Prop :=
  ((∃ result, program = ret result) ↔ Agreed high looks) ∧
    ∀ result, program = ret result →
      ∃ after found before earlier,
        looks = (.high, after) :: (.low, found) :: (.high, before) :: earlier ∧
          result = whole found

/-- What a look finds and takes down, and how the value moves in between. -/
structure Watches (sem : Semantics Op Resp σ) (highOp lowOp : Op)
    (note : Op → σ → Option (Half × V)) (value : σ → V) (high : V → Resp highOp)
    (low : V → Resp lowOp) (rank : Resp highOp → Nat) : Prop where
  faithful : Function.Injective rank
  grows : ∀ {s t}, sem.env s t → rank (high (value s)) ≤ rank (high (value t))
  readsHigh : ∀ {s reply t}, sem.step highOp s reply t → reply = high (value s) ∧ value t = value s
  readsLow : ∀ {s reply t}, sem.step lowOp s reply t → reply = low (value s) ∧ value t = value s
  notesHigh : ∀ s, note highOp s = some (.high, value s)
  notesLow : ∀ s, note lowOp s = some (.low, value s)

/-- A look leaves the value. -/
theorem Watches.stays {sem : Semantics Op Resp σ} {highOp lowOp : Op}
    {note : Op → σ → Option (Half × V)} {value : σ → V} {high : V → Resp highOp}
    {low : V → Resp lowOp} {rank : Resp highOp → Nat}
    (_ : Watches sem highOp lowOp note value high low rank) {s t : σ} (same : value t = value s) :
    rank (high (value s)) ≤ rank (high (value t)) :=
  Nat.le_of_eq (congrArg (fun v => rank (high v)) same.symm)

section steps

variable {sem : Semantics Op Resp σ} {α β γ : Type} {later : Prog Op Resp α} {s t : σ}

theorem step_of_ret {value : α} : ¬Step sem (ret value) s later t := nofun

theorem step_of_call {op : Op} {next : Resp op → Prog Op Resp α}
    (step : Step sem (call op next) s later t) :
    ∃ reply, sem.step op s reply t ∧ later = next reply := by
  cases step with
  | call stepped => exact ⟨_, stepped, rfl⟩

theorem step_of_loop {body : β → Prog Op Resp (β ⊕ γ)} {start : β} {next : γ → Prog Op Resp α}
    (step : Step sem (loop body start next) s later t) :
    later = unfoldLoop body start next ∧ t = s := by
  cases step with
  | loop => exact ⟨rfl, rfl⟩

end steps

section reading

variable {highOp lowOp : Op} [DecidableEq (Resp highOp)] (join : Resp highOp → Resp lowOp → R)

def tornTurn (previous : Resp highOp) : Prog Op Resp (Resp highOp ⊕ R) := do
  let found ← perform lowOp
  let high ← perform highOp
  if high ≠ previous then return .inl high
  else return .inr (join high found)

/-- A torn read from the answer of a low look on. -/
def lowRead (previous : Resp highOp) (found : Resp lowOp) : Prog Op Resp R :=
  call highOp fun high =>
    if high ≠ previous then loop (tornTurn join) high ret else ret (join high found)

theorem torn_read_begins : (tornRead (perform highOp) (perform lowOp) join : Prog Op Resp R) =
    call highOp fun high => loop (tornTurn join) high ret := rfl

theorem torn_turn_begins (previous : Resp highOp) :
    unfoldLoop (tornTurn join) previous ret =
      call lowOp fun found => lowRead join previous found := by
  change call lowOp _ = _
  congr 1
  funext found
  change call highOp _ = _
  congr 1
  funext high
  change (if high ≠ previous then _ else _ : Prog Op Resp (Resp highOp ⊕ R)).bind _ = _
  split <;> rfl

/-- How far a torn read has come. -/
inductive Stage (value : σ → V) (high : V → Resp highOp) (low : V → Resp lowOp)
    (rank : Resp highOp → Nat) : Prog Op Resp R → σ × List (Half × V) → Prop where
  | begun {s : σ} :
      Stage value high low rank (tornRead (perform highOp) (perform lowOp) join) (s, [])
  | turning {s : σ} {seen : V} {looks : List (Half × V)} :
      rank (high seen) ≤ rank (high (value s)) → ¬Agreed high ((.high, seen) :: looks) →
      Stage value high low rank (loop (tornTurn join) (high seen) ret) (s, (.high, seen) :: looks)
  | turned {s : σ} {seen : V} {looks : List (Half × V)} :
      rank (high seen) ≤ rank (high (value s)) → ¬Agreed high ((.high, seen) :: looks) →
      Stage value high low rank (unfoldLoop (tornTurn join) (high seen) ret)
        (s, (.high, seen) :: looks)
  | halved {s : σ} {seen found : V} {looks : List (Half × V)} :
      rank (high seen) ≤ rank (high found) → rank (high found) ≤ rank (high (value s)) →
      Stage value high low rank (lowRead join (high seen) (low found))
        (s, (.low, found) :: (.high, seen) :: looks)
  | ended {s : σ} {before found after : V} {looks : List (Half × V)} :
      high after = high before →
      Stage value high low rank (ret (join (high found) (low found)))
        (s, (.high, after) :: (.low, found) :: (.high, before) :: looks)

variable {join} {sem : Semantics Op Resp σ} {note : Op → σ → Option (Half × V)} {value : σ → V}
  {high : V → Resp highOp} {low : V → Resp lowOp} {rank : Resp highOp → Nat}

theorem Stage.env (watches : Watches sem highOp lowOp note value high low rank) {program : Prog Op Resp R}
    {s t : σ × List (Half × V)} (stage : Stage join value high low rank program s)
    (step : (sem.noted note).env s t) : Stage join value high low rank program t := by
  obtain ⟨now, seen⟩ := t
  obtain ⟨moved, same⟩ := step
  cases same
  have grows := watches.grows moved
  cases stage with
  | begun => exact .begun
  | turning least unsettled => exact .turning (Nat.le_trans least grows) unsettled
  | turned least unsettled => exact .turned (Nat.le_trans least grows) unsettled
  | halved least most => exact .halved least (Nat.le_trans most grows)
  | ended same => exact .ended same

theorem Stage.step (watches : Watches sem highOp lowOp note value high low rank)
    {program later : Prog Op Resp R} {s t : σ × List (Half × V)}
    (stage : Stage join value high low rank program s) (step : Step (sem.noted note) program s later t) :
    Stage join value high low rank later t := by
  obtain ⟨now, seen⟩ := t
  cases stage with
  | begun =>
      rw [torn_read_begins] at step
      obtain ⟨reply, ⟨stepped, noted⟩, rfl⟩ := step_of_call step
      obtain ⟨rfl, same⟩ := watches.readsHigh stepped
      rw [watches.notesHigh] at noted
      cases noted
      exact .turning (watches.stays same) nofun
  | turning least unsettled =>
      obtain ⟨rfl, same⟩ := step_of_loop step
      cases same
      exact .turned least unsettled
  | turned least unsettled =>
      rw [torn_turn_begins] at step
      obtain ⟨reply, ⟨stepped, noted⟩, rfl⟩ := step_of_call step
      obtain ⟨rfl, same⟩ := watches.readsLow stepped
      rw [watches.notesLow] at noted
      cases noted
      exact .halved least (watches.stays same)
  | @halved state seen found looks least most =>
      obtain ⟨reply, ⟨stepped, noted⟩, rfl⟩ := step_of_call step
      obtain ⟨rfl, same⟩ := watches.readsHigh stepped
      rw [watches.notesHigh] at noted
      cases noted
      -- The high half has moved, or it was the same from the first look to the last.
      by_cases moved : high (value state) = high seen
      · have between : high found = high (value state) := by
          apply watches.faithful
          rw [moved] at most ⊢
          omega
        rw [if_neg fun other => other moved, ← between]
        exact .ended moved
      · rw [if_pos moved]
        exact .turning (watches.stays same) moved
  | ended settled => exact (step_of_ret step).elim

/-- Every moment of a torn read, wherever the value moves. -/
theorem torn_read_never_torn (watches : Watches sem highOp lowOp note value high low rank)
    {program : Prog Op Resp R} {s : σ} {t : σ × List (Half × V)} {whole : V → R}
    (joins : ∀ v, join (high v) (low v) = whole v)
    (reached : Relation.ReflTransGen (Advances (sem.noted note))
      (tornRead (perform highOp) (perform lowOp) join, (s, [])) (program, t)) :
    NeverTorn high whole t.2 program := by
  have stage : Stage join value high low rank program t := by
    generalize last : (program, t) = final at reached
    induction reached generalizing program t with
    | refl =>
        cases last
        exact .begun
    | tail _ move ih =>
        cases last
        cases move with
        | env env => exact (ih rfl).env watches env
        | step step => exact (ih rfl).step watches step
  cases stage with
  | begun => exact ⟨⟨nofun, nofun⟩, nofun⟩
  | turning least unsettled => exact ⟨⟨nofun, fun agreed => absurd agreed unsettled⟩, nofun⟩
  | turned least unsettled => exact ⟨⟨nofun, fun agreed => absurd agreed unsettled⟩, nofun⟩
  | halved least most => exact ⟨⟨nofun, nofun⟩, nofun⟩
  | ended settled =>
      refine ⟨⟨fun _ => settled, fun _ => ⟨_, rfl⟩⟩, ?_⟩
      intro result answered
      cases answered
      exact ⟨_, _, _, _, rfl, joins _⟩

end reading

end Prog

end Interference

import Tgpio.Interference.Logic

/-!
# Reading two words of one moving value

A value wider than the bus is read in two halves, and moves between them. The
read is repeated until the high half is the one read before: if the high half
only grows, both halves are then those of the moment the low one was read last.
-/

namespace Interference.Prog

universe u v

variable {Op : Type u} {Resp : Op → Type} {σ : Type v} {H L R : Type}

/-- Read the halves until the high one is stable across the read of the low one. -/
def tornRead [DecidableEq H] (readHigh : Prog Op Resp H) (readLow : Prog Op Resp L)
    (join : H → L → R) : Prog Op Resp R := do
  let high ← readHigh
  iterate (fun previous => do
    let low ← readLow
    let high ← readHigh
    if high ≠ previous then return .inl high
    else return .inr (join high low)) high

/-- The order in which states come, and which of them the low half was last
read in: `since u t` says that it was `u`, and that the state is now `t`. -/
structure Looking (sem : Semantics Op Resp σ) (later since : σ → σ → Prop) : Prop where
  refl : ∀ s, later s s
  trans : ∀ {s t u}, later s t → later t u → later s u
  env : ∀ {s t}, sem.env s t → later s t
  passed : ∀ {u t}, since u t → later u t
  kept : ∀ {u s t}, sem.env s t → since u s → since u t

/-- The high half, as it is at some moment; no look at the low one. -/
def ReadsHigh (sem : Semantics Op Resp σ) (later since : σ → σ → Prop)
    (program : Prog Op Resp H) (high : σ → H) : Prop :=
  ∀ s, wp sem program
    (fun value t => ∃ u, later s u ∧ value = high u ∧ later u t ∧ ∀ w, since w s → since w t) s

/-- The low half, as it is at the moment of the look. -/
def ReadsLow (sem : Semantics Op Resp σ) (later since : σ → σ → Prop)
    (program : Prog Op Resp L) (low : σ → L) : Prop :=
  ∀ s, wp sem program (fun value t => ∃ u, later s u ∧ value = low u ∧ since u t) s

variable {sem : Semantics Op Resp σ} {later since : σ → σ → Prop}

theorem Looking.rely (looking : Looking sem later since) {s t : σ} (rely : sem.Rely s t) :
    later s t := by
  induction rely with
  | refl => exact looking.refl s
  | tail _ step ih => exact looking.trans ih (looking.env step)

theorem Looking.stable (looking : Looking sem later since) (u : σ) : Stable sem (since u) :=
  fun _ _ step holds => looking.kept step holds

theorem reads_high_perform (looking : Looking sem later since) {op : Op} {high : σ → Resp op}
    (answers : ∀ s reply t, sem.step op s reply t →
      reply = high s ∧ later s t ∧ ∀ w, since w s → since w t) :
    ReadsHigh sem later since (perform op) high := by
  intro s t rely reply u step w after
  obtain ⟨seen, moved, kept⟩ := answers t reply u step
  refine ⟨t, looking.rely rely, seen, looking.trans moved (looking.rely after), ?_⟩
  intro x holds
  exact (looking.stable x).rely after (kept x ((looking.stable x).rely rely holds))

theorem reads_low_perform (looking : Looking sem later since) {op : Op} {low : σ → Resp op}
    (answers : ∀ s reply t, sem.step op s reply t → reply = low s ∧ since s t) :
    ReadsLow sem later since (perform op) low := by
  intro s t rely reply u step w after
  obtain ⟨seen, looked⟩ := answers t reply u step
  exact ⟨t, looking.rely rely, seen, (looking.stable t).rely after looked⟩

/-- A torn read answers the whole value of the moment it last read the low half. -/
theorem torn_read_spec [DecidableEq H] (looking : Looking sem later since)
    {readHigh : Prog Op Resp H} {readLow : Prog Op Resp L} {high : σ → H} {low : σ → L}
    (join : H → L → R) (rank : H → Nat) (faithful : Function.Injective rank)
    (grows : ∀ s t, later s t → rank (high s) ≤ rank (high t))
    (readsHigh : ReadsHigh sem later since readHigh high)
    (readsLow : ReadsLow sem later since readLow low) (s : σ) :
    wp sem (tornRead readHigh readLow join)
      (fun value t => ∃ u, later s u ∧ value = join (high u) (low u) ∧ since u t) s := by
  rw [tornRead, bind_def, wp_bind]
  apply wp_mono ?_ (readsHigh s)
  rintro first t ⟨u, reached, rfl, passed, -⟩
  -- The high half last read is that of some earlier moment of this run.
  apply wp_iterate fun previous t => ∃ u, later s u ∧ previous = high u ∧ later u t
  · exact ⟨u, reached, rfl, passed⟩
  rintro previous t ⟨u, reached, rfl, passed⟩
  rw [bind_def, wp_bind]
  apply wp_mono ?_ (readsLow t)
  rintro lowHalf t₁ ⟨v, lowReached, rfl, looked⟩
  rw [bind_def, wp_bind]
  apply wp_mono ?_ (readsHigh t₁)
  rintro highHalf t₂ ⟨w, highReached, rfl, highPassed, kept⟩
  have before : later u v := looking.trans passed lowReached
  have after : later v w := looking.trans (looking.passed looked) highReached
  have atLow : later s v := looking.trans reached before
  by_cases same : high w = high u
  · rw [if_neg fun other => other same]
    intro t₃ rely t₄ rest
    refine ⟨v, atLow, ?_, (looking.stable v).rely (rely.trans rest) (kept v looked)⟩
    have stable : high w = high v := by
      apply faithful
      have lower := grows u v before
      have upper := grows v w after
      rw [← same] at lower
      omega
    rw [stable]
  · rw [if_pos same]
    intro t₃ rely
    exact ⟨w, looking.trans atLow after, rfl, looking.trans highPassed (looking.rely rely)⟩

end Interference.Prog

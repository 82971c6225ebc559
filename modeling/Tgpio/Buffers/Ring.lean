import Mathlib.Data.Fin.Basic
import Mathlib.Logic.Function.Basic

/-!
# A ring of the latest entries

A fixed number of slots, the slot the next entry goes to, and how many are in
use. The ring fills from slot zero and then overwrites its oldest entry. Read
from the oldest on, it is the end of the list of everything pushed since it was
last cleared.
-/

namespace Buffers

universe u

variable {α : Type u} {capacity : Nat}

structure Ring (α : Type u) (capacity : Nat) where
  slots : Fin capacity → α
  head : Fin capacity
  count : Nat
  bounded : count ≤ capacity
  /-- Until it is full, the entries lie below the head. -/
  filling : count < capacity → head.val = count

namespace Ring

def slot (ring : Ring α capacity) (index : Nat) : Fin capacity :=
  ⟨index % capacity, Nat.mod_lt _ ring.head.pos⟩

def oldest (ring : Ring α capacity) : Fin capacity :=
  if ring.count < capacity then ring.slot 0 else ring.head

def push (ring : Ring α capacity) (entry : α) : Ring α capacity where
  slots := Function.update ring.slots ring.head entry
  head := ring.slot (ring.head + 1)
  count := if ring.count < capacity then ring.count + 1 else ring.count
  bounded := by
    have bounded := ring.bounded
    split <;> omega
  filling := by
    intro free
    have bounded := ring.bounded
    split at free
    · rename_i room
      rw [if_pos room]
      change (ring.head.val + 1) % capacity = ring.count + 1
      rw [ring.filling room, Nat.mod_eq_of_lt free]
    · omega

def clear (ring : Ring α capacity) : Ring α capacity where
  slots := ring.slots
  head := ring.slot 0
  count := 0
  bounded := Nat.zero_le _
  filling _ := Nat.zero_mod _

def contents (ring : Ring α capacity) : List α :=
  (List.range ring.count).map fun index => ring.slots (ring.slot (ring.oldest + index))

variable {ring : Ring α capacity} {entry : α}

@[simp] theorem length_contents : ring.contents.length = ring.count := by
  simp [contents]

@[simp] theorem contents_clear : ring.clear.contents = [] := rfl

theorem head_contents (used : 0 < ring.count) :
    ring.contents.head? = some (ring.slots ring.oldest) := by
  have whole : ring.slot (ring.oldest + 0) = ring.oldest := by
    ext
    exact Nat.mod_eq_of_lt ring.oldest.isLt
  rw [contents, List.head?_map, List.head?_range, if_neg (by omega)]
  exact congrArg (fun index => some (ring.slots index)) whole

/-- The slot of the `index`-th entry, the oldest being the zeroth. -/
theorem getElem_contents {index : Nat} (within : index < ring.contents.length) :
    ring.contents[index] = ring.slots (ring.slot (ring.oldest + index)) := by
  simp [contents]

/-- The oldest entry stays in slot zero until it is overwritten. -/
theorem oldest_push : (ring.push entry).oldest.val =
    if ring.count < capacity then 0 else (ring.head.val + 1) % capacity := by
  have bounded := ring.bounded
  unfold oldest push
  dsimp only
  split
  · rename_i room
    split
    · exact Nat.zero_mod _
    · have filled := ring.filling room
      have full : ring.head.val + 1 = capacity := by omega
      change (ring.head.val + 1) % capacity = 0
      rw [full, Nat.mod_self]
  · rfl

theorem contents_push_room (room : ring.count < capacity) :
    (ring.push entry).contents = ring.contents ++ [entry] := by
  have filled := ring.filling room
  have count : (ring.push entry).count = ring.count + 1 := if_pos room
  have fresh : (ring.push entry).oldest.val = 0 := oldest_push.trans (if_pos room)
  have old : ring.oldest.val = 0 := by rw [oldest, if_pos room]; exact Nat.zero_mod _
  refine List.ext_getElem (by simp [count]) fun index within _ => ?_
  rw [length_contents, count] at within
  have position : (ring.push entry).slot ((ring.push entry).oldest + index) =
      (⟨index, by omega⟩ : Fin capacity) := by
    ext
    simp only [slot, fresh, Nat.zero_add]
    exact Nat.mod_eq_of_lt (by omega)
  rw [getElem_contents, position, List.getElem_append]
  change Function.update ring.slots ring.head entry _ = _
  split
  · rename_i before
    rw [length_contents] at before
    have other : (⟨index, by omega⟩ : Fin capacity) ≠ ring.head := by
      intro same
      have equal : index = ring.head.val := congrArg Fin.val same
      omega
    have kept : ring.slot (ring.oldest + index) = (⟨index, by omega⟩ : Fin capacity) := by
      ext
      simp only [slot, old, Nat.zero_add]
      exact Nat.mod_eq_of_lt (by omega)
    rw [Function.update_of_ne other, getElem_contents, kept]
  · rename_i last
    rw [length_contents] at last
    have here : (⟨index, by omega⟩ : Fin capacity) = ring.head := by
      ext
      dsimp only
      omega
    rw [here, Function.update_self, List.getElem_singleton]

/-- In a full ring, an entry takes the place of the oldest. -/
theorem contents_push_full (full : ring.count = capacity) :
    (ring.push entry).contents = ring.contents.tail ++ [entry] := by
  have positive := ring.head.pos
  have noRoom : ¬ring.count < capacity := by omega
  have count : (ring.push entry).count = capacity := (if_neg noRoom).trans full
  have fresh : (ring.push entry).oldest.val = (ring.head.val + 1) % capacity :=
    oldest_push.trans (if_neg noRoom)
  have old : ring.oldest = ring.head := if_neg noRoom
  refine List.ext_getElem (by simp [count]; omega) fun index within _ => ?_
  rw [length_contents, count] at within
  have position : (ring.push entry).slot ((ring.push entry).oldest + index) =
      ring.slot (ring.head + (index + 1)) := by
    ext
    simp only [slot, fresh, Nat.mod_add_mod]
    congr 1
    omega
  rw [getElem_contents, position, List.getElem_append]
  change Function.update ring.slots ring.head entry _ = _
  split
  · rename_i before
    rw [List.length_tail, length_contents] at before
    have other : ring.slot (ring.head + (index + 1)) ≠ ring.head := by
      intro same
      have equal : (ring.head.val + (index + 1)) % capacity = ring.head.val := congrArg Fin.val same
      have below := ring.head.isLt
      rcases Nat.lt_or_ge (ring.head.val + (index + 1)) capacity with small | large
      · rw [Nat.mod_eq_of_lt small] at equal
        omega
      · rw [Nat.mod_eq_sub_mod large, Nat.mod_eq_of_lt (by omega)] at equal
        omega
    rw [Function.update_of_ne other, List.getElem_tail, getElem_contents, old]
  · rename_i last
    rw [List.length_tail, length_contents] at last
    have here : ring.slot (ring.head + (index + 1)) = ring.head := by
      ext
      have whole : ring.head.val + (index + 1) = ring.head.val + capacity := by omega
      change (ring.head.val + (index + 1)) % capacity = ring.head.val
      rw [whole, Nat.add_mod_right]
      exact Nat.mod_eq_of_lt ring.head.isLt
    rw [here, Function.update_self, List.getElem_singleton]

def latest (capacity : Nat) (entries : List α) : List α := entries.drop (entries.length - capacity)

/-- A ring that holds the end of a list holds the end of the extended list after
a push. -/
theorem contents_push {entries : List α} (holds : ring.contents = latest capacity entries) :
    (ring.push entry).contents = latest capacity (entries ++ [entry]) := by
  have bounded := ring.bounded
  have size := congrArg List.length holds
  rw [length_contents, latest, List.length_drop] at size
  unfold latest at holds ⊢
  rw [List.length_append, List.length_singleton]
  rcases Nat.lt_or_ge ring.count capacity with room | full
  · have short : entries.length + 1 - capacity = 0 := by omega
    have whole : entries.length - capacity = 0 := by omega
    rw [contents_push_room room, holds, short, whole, List.drop_zero, List.drop_zero]
  · have positive := ring.head.pos
    have next : entries.length + 1 - capacity = entries.length - capacity + 1 := by omega
    have within : entries.length - capacity + 1 ≤ entries.length := by omega
    rw [contents_push_full (by omega), holds, next, List.tail_drop,
      List.drop_append_of_le_length within]

end Ring
end Buffers

import Tgpio.ClockDomain
import Tgpio.Buffers.Ring
import Mathlib.Data.List.Induction

/-!
# The measured rate of realtime mode

Every refine tick of realtime mode takes a sample that pairs ART with
`CLOCK_REALTIME`, measures it against the oldest one in a ring of eight, and
keeps it. A clock step empties the ring; a sample that does not advance empties
it and withdraws the rate.
-/

namespace Tgpio

open Buffers

set_option autoImplicit false

/-- `struct tgpio_art_raw_sample` with status OK. -/
structure ArtRawSample where
  art : Nat
  raw : Int
  clockWasSetSeq : Nat
  artInRange : art < 2 ^ 64
  rawInRange : -(2 ^ 63) ≤ raw ∧ raw < 2 ^ 63
  deriving DecidableEq, Repr

def ArtRawSample.zero : ArtRawSample := ⟨0, 0, 0, zero_in_range, by decide⟩

def realtimeRateRing : Nat := 8
def realtimeRateMinWindowS : Nat := 4

/-- The ring and the published pair. -/
structure RealtimeRate where
  ring : Ring ArtRawSample realtimeRateRing
  artCycles : Nat
  realNs : Nat

def RealtimeRate.initial : RealtimeRate where
  ring := ⟨fun _ => .zero, ⟨0, by decide⟩, 0, by decide, fun _ => rfl⟩
  artCycles := 0
  realNs := 0

def Advances (oldest real : ArtRawSample) : Prop := oldest.art < real.art ∧ oldest.raw < real.raw

instance (oldest real : ArtRawSample) : Decidable (Advances oldest real) :=
  inferInstanceAs (Decidable (_ ∧ _))

/-- The part of the refine tick before the sample is stored. -/
def measureRealtime (rate : RealtimeRate) (real : ArtRawSample) : RealtimeRate :=
  if rate.ring.count = 0 then rate
  else
    let oldest := rate.ring.slots rate.ring.oldest
    if real.clockWasSetSeq ≠ oldest.clockWasSetSeq then { rate with ring := rate.ring.clear }
    else if real.art ≤ oldest.art ∨ real.raw ≤ oldest.raw then
      { ring := rate.ring.clear, artCycles := 0, realNs := 0 }
    else
      let deltaReal := toS64 (real.raw - oldest.raw)
      if deltaReal ≥ (realtimeRateMinWindowS * nsecPerSec : Nat) then
        { rate with artCycles := real.art - oldest.art, realNs := toU64 deltaReal }
      else rate

/-- One refine tick in realtime mode, by the outcome of its sample. -/
def refineRealtime (rate : RealtimeRate) : Except Errno ArtRawSample → RealtimeRate
  | .error _ => rate
  | .ok real =>
    let measured := measureRealtime rate real
    { measured with ring := measured.ring.push real }

def refinedBy (samples : List (Except Errno ArtRawSample)) : RealtimeRate :=
  samples.foldl refineRealtime RealtimeRate.initial

section window

def windowOldest (accepted : List ArtRawSample) : Option ArtRawSample :=
  (Ring.latest realtimeRateRing accepted).head?

/-- A sample that can be measured against the oldest one, if there is one. -/
def Continues (accepted : List ArtRawSample) (real : ArtRawSample) : Prop :=
  ∀ oldest ∈ windowOldest accepted,
    real.clockWasSetSeq = oldest.clockWasSetSeq ∧ Advances oldest real

instance (accepted : List ArtRawSample) (real : ArtRawSample) :
    Decidable (Continues accepted real) :=
  inferInstanceAs (Decidable (∀ _ ∈ _, _))

/-- The samples accepted since the last reset: one that does not continue the
others starts afresh. -/
def acceptedThrough (accepted : List ArtRawSample) :
    Except Errno ArtRawSample → List ArtRawSample
  | .error _ => accepted
  | .ok real => if Continues accepted real then accepted ++ [real] else [real]

def acceptedBy (samples : List (Except Errno ArtRawSample)) : List ArtRawSample :=
  samples.foldl acceptedThrough []

/-- What a tick does to the published pair, by the oldest sample it measures
against. -/
inductive PairMoves (oldest : Option ArtRawSample) (before after : RealtimeRate)
    (real : ArtRawSample) : Prop where
  | kept : after.artCycles = before.artCycles → after.realNs = before.realNs →
      PairMoves oldest before after real
  | published (old : ArtRawSample) : oldest = some old →
      real.clockWasSetSeq = old.clockWasSetSeq → 0 < after.artCycles →
      realtimeRateMinWindowS * nsecPerSec ≤ after.realNs → after.realNs ≤ s64Max →
      (after.artCycles : Int) = real.art - old.art → (after.realNs : Int) = real.raw - old.raw →
      PairMoves oldest before after real
  | withdrawn (old : ArtRawSample) : oldest = some old →
      real.clockWasSetSeq = old.clockWasSetSeq → ¬Advances old real →
      after.artCycles = 0 → after.realNs = 0 → PairMoves oldest before after real

/-- The ring holds the end of the list of accepted samples, which all carry the
same sequence number. -/
structure Window (rate : RealtimeRate) (accepted : List ArtRawSample) : Prop where
  contents : rate.ring.contents = Ring.latest realtimeRateRing accepted
  sameSeq : ∀ first ∈ accepted, ∀ second ∈ accepted,
    first.clockWasSetSeq = second.clockWasSetSeq

variable {rate : RealtimeRate} {accepted : List ArtRawSample} {real : ArtRawSample}

theorem Window.oldest (window : Window rate accepted) :
    windowOldest accepted =
      if rate.ring.count = 0 then none else some (rate.ring.slots rate.ring.oldest) := by
  rw [windowOldest, ← window.contents]
  split
  · rename_i unused
    have empty : rate.ring.contents = [] := List.length_eq_zero_iff.mp (by simpa using unused)
    rw [empty, List.head?_nil]
  · rename_i used
    exact Ring.head_contents (Nat.pos_of_ne_zero used)

theorem window_oldest_mem {old : ArtRawSample} (found : windowOldest accepted = some old) :
    old ∈ accepted :=
  List.mem_of_mem_drop (List.mem_of_mem_head? found)

theorem window_oldest_exists {other : ArtRawSample} (member : other ∈ accepted) :
    ∃ old, windowOldest accepted = some old := by
  refine Option.ne_none_iff_exists'.mp fun missing => ?_
  have empty := List.drop_eq_nil_iff.mp (List.head?_eq_none_iff.mp missing)
  have used := List.length_pos_of_mem member
  unfold realtimeRateRing at empty
  omega

theorem Window.fresh (ring : Ring ArtRawSample realtimeRateRing) (real : ArtRawSample)
    (artCycles realNs : Nat) : Window ⟨ring.clear.push real, artCycles, realNs⟩ [real] where
  contents := by
    have empty : ring.clear.contents = Ring.latest realtimeRateRing [] := rfl
    exact Ring.contents_push empty
  sameSeq := by
    intro first firstMem second secondMem
    rw [List.mem_singleton.mp firstMem, List.mem_singleton.mp secondMem]

theorem Window.extend (window : Window rate accepted)
    (sameSeq : ∀ old ∈ windowOldest accepted, real.clockWasSetSeq = old.clockWasSetSeq)
    (artCycles realNs : Nat) :
    Window ⟨rate.ring.push real, artCycles, realNs⟩ (accepted ++ [real]) where
  contents := Ring.contents_push window.contents
  sameSeq := by
    have equal : ∀ other ∈ accepted, real.clockWasSetSeq = other.clockWasSetSeq := by
      intro other member
      obtain ⟨old, found⟩ := window_oldest_exists member
      exact (sameSeq old found).trans (window.sameSeq _ (window_oldest_mem found) _ member)
    intro first firstMem second secondMem
    rcases List.mem_append.mp firstMem with firstOld | firstNew <;>
      rcases List.mem_append.mp secondMem with secondOld | secondNew
    · exact window.sameSeq first firstOld second secondOld
    · rw [List.mem_singleton.mp secondNew]
      exact (equal first firstOld).symm
    · rw [List.mem_singleton.mp firstNew]
      exact equal second secondOld
    · rw [List.mem_singleton.mp firstNew, List.mem_singleton.mp secondNew]

theorem to_s64_difference {newer older : ArtRawSample} (later : older.raw < newer.raw)
    (window : (realtimeRateMinWindowS * nsecPerSec : Nat) ≤ toS64 (newer.raw - older.raw)) :
    toS64 (newer.raw - older.raw) = newer.raw - older.raw := by
  have first := newer.rawInRange
  have second := older.rawInRange
  unfold toS64 Int.bmod realtimeRateMinWindowS nsecPerSec at *
  dsimp only at *
  split at window <;> omega

/-- One tick with a sample: the ring follows the list, and the pair moves by the
oldest sample only. -/
theorem Window.refine (window : Window rate accepted) (real : ArtRawSample) :
    Window (refineRealtime rate (.ok real)) (acceptedThrough accepted (.ok real)) ∧
      PairMoves (windowOldest accepted) rate (refineRealtime rate (.ok real)) real := by
  have oldest := window.oldest
  unfold refineRealtime measureRealtime acceptedThrough
  dsimp only
  by_cases unused : rate.ring.count = 0
  · rw [if_pos unused] at oldest
    have continues : Continues accepted real := by simp [Continues, oldest]
    rw [if_pos unused, if_pos continues]
    exact ⟨window.extend (by simp [oldest]) _ _, .kept rfl rfl⟩
  rw [if_neg unused] at oldest
  rw [if_neg unused]
  generalize rate.ring.slots rate.ring.oldest = old at oldest ⊢
  have continues : Continues accepted real ↔
      real.clockWasSetSeq = old.clockWasSetSeq ∧ Advances old real := by
    simp [Continues, oldest]
  by_cases stepped : real.clockWasSetSeq ≠ old.clockWasSetSeq
  · rw [if_pos stepped, if_neg (fun holds => stepped (continues.mp holds).1)]
    exact ⟨.fresh _ real _ _, .kept rfl rfl⟩
  have sameSeq : real.clockWasSetSeq = old.clockWasSetSeq := not_not.mp stepped
  rw [if_neg stepped]
  by_cases stuck : real.art ≤ old.art ∨ real.raw ≤ old.raw
  · have behind : ¬Advances old real := by
      unfold Advances
      omega
    rw [if_pos stuck, if_neg (fun holds => behind (continues.mp holds).2)]
    exact ⟨.fresh _ real _ _, .withdrawn old oldest sameSeq behind rfl rfl⟩
  have advances : Advances old real := by
    unfold Advances
    omega
  have extends_ := window.extend (by simp [oldest, sameSeq] : ∀ other ∈ windowOldest accepted,
    real.clockWasSetSeq = other.clockWasSetSeq)
  rw [if_neg stuck, if_pos (continues.mpr ⟨sameSeq, advances⟩)]
  by_cases wide : toS64 (real.raw - old.raw) ≥ (realtimeRateMinWindowS * nsecPerSec : Nat)
  · have whole := to_s64_difference advances.2 wide
    have upper := real.rawInRange
    have lower := old.rawInRange
    have later := advances.2
    have measured : (toU64 (toS64 (real.raw - old.raw)) : Int) = real.raw - old.raw := by
      rw [whole]
      exact to_u64_of_range (by omega) (by omega)
    rw [if_pos wide]
    have range := @Int.bmod_lt (real.raw - old.raw) (2 ^ 64) (by decide : 0 < 2 ^ 64)
    refine ⟨extends_ _ _, .published old oldest sameSeq ?_ ?_ ?_ ?_ measured⟩
    · exact Nat.sub_pos_of_lt advances.1
    · rw [whole] at wide
      dsimp only
      omega
    · change toS64 (real.raw - old.raw) < _ at range
      dsimp only
      unfold s64Max
      omega
    · exact Int.ofNat_sub advances.1.le
  · rw [if_neg wide]
    exact ⟨extends_ _ _, .kept rfl rfl⟩

theorem window_refined (samples : List (Except Errno ArtRawSample)) :
    Window (refinedBy samples) (acceptedBy samples) := by
  induction samples using List.reverseRecOn with
  | nil => exact ⟨rfl, fun _ member => absurd member List.not_mem_nil⟩
  | append_singleton samples sample ih =>
      unfold refinedBy acceptedBy at *
      rw [List.foldl_append, List.foldl_append]
      cases sample with
      | error status => exact ih
      | ok real => exact (ih.refine real).1

end window

/-- Where the published rate comes from, after any ticks. The ring holds the last
samples accepted since its last reset, in order and of one sequence number, and
its oldest index is that of the earliest. The next tick publishes the distance
of its sample from that earliest one, or withdraws the pair for a sample of the
same sequence that has not advanced past it, or leaves the pair alone, as it
does on a failed sample and on a changed sequence, which empties the ring. -/
theorem rate_provenance (samples : List (Except Errno ArtRawSample)) :
    Window (refinedBy samples) (acceptedBy samples) ∧
    windowOldest (acceptedBy samples) =
      (if (refinedBy samples).ring.count = 0 then none
        else some ((refinedBy samples).ring.slots (refinedBy samples).ring.oldest)) ∧
    (∀ status, refinedBy (samples ++ [.error status]) = refinedBy samples) ∧
    ∀ real, PairMoves (windowOldest (acceptedBy samples)) (refinedBy samples)
        (refinedBy (samples ++ [.ok real])) real ∧
      ∀ old ∈ windowOldest (acceptedBy samples), real.clockWasSetSeq ≠ old.clockWasSetSeq →
        (refinedBy (samples ++ [.ok real])).ring.contents = [real] ∧
        (refinedBy (samples ++ [.ok real])).artCycles = (refinedBy samples).artCycles ∧
        (refinedBy (samples ++ [.ok real])).realNs = (refinedBy samples).realNs := by
  have window := window_refined samples
  have last (sample : Except Errno ArtRawSample) : refinedBy (samples ++ [sample]) =
      refineRealtime (refinedBy samples) sample := by
    rw [refinedBy, List.foldl_append]
    rfl
  refine ⟨window, window.oldest, fun status => last _, fun real => ?_⟩
  obtain ⟨next, moves⟩ := window.refine real
  rw [last]
  refine ⟨moves, fun old found stepped => ?_⟩
  have fresh : acceptedThrough (acceptedBy samples) (.ok real) = [real] :=
    if_neg fun continues => stepped (continues old found).1
  rw [fresh] at next
  refine ⟨next.contents, ?_⟩
  cases moves with
  | kept sameArt sameReal => exact ⟨sameArt, sameReal⟩
  | published other oldest sameSeq | withdrawn other oldest sameSeq =>
      cases oldest.symm.trans found
      exact absurd sameSeq stepped

end Tgpio

import Tgpio.InputPolling
import Mathlib.Logic.Relation

/-!
# Channels and blocks

A request names a channel; the block it goes to is that of the pin assigned to the
function and the channel, or else the block of the channel's own number. A user
assigns pins while the module is loaded: the driver checks an assignment, and the
PTP core takes the pair from any other pin that has it.
-/

namespace Tgpio

set_option autoImplicit false

/-- `tgpio_find_mmio_block_for_channel`, by the number of the block. -/
def blockForChannel (slots : PinSlots) (func : PtpPinFunction) (channel : Nat) :
    Except Errno Nat :=
  match slots[channel]? with
  | none => .error .einval
  | some own =>
    match slots.findIdx? fun slot =>
        mmioBlockSupportsFunc slot func && slot.func == func && slot.chan == channel with
    | some index => .ok index
    | none => if mmioBlockSupportsFunc own func then .ok channel else .error .eopnotsupp

def ptpVerify (slots : PinSlots) (pin : Nat) (func : PtpPinFunction) (chan : Nat) :
    Except Errno Unit :=
  match slots[pin]? with
  | none => .error .einval
  | some slot =>
    if func = .none then .ok ()
    else if chan ≥ slots.length then .error .einval
    else match func with
      | .extts => if mmioBlockSupportsFunc slot .extts then .ok () else .error .eopnotsupp
      | .perout => if mmioBlockSupportsFunc slot .perout then .ok () else .error .eopnotsupp
      | _ => .error .eopnotsupp

/-- The pin stands for the channel of a function. -/
def Assigned (slots : PinSlots) (pin : Nat) (func : PtpPinFunction) (chan : Nat) : Prop :=
  ∃ slot, slots[pin]? = some slot ∧ slot.func = func ∧ slot.chan = chan

/-- The block supports the function. -/
def Supports (slots : PinSlots) (block : Nat) (func : PtpPinFunction) : Prop :=
  ∃ slot, slots[block]? = some slot ∧ mmioBlockSupportsFunc slot func = true

/-- A user assigns a pin. All that is relied on of the PTP core: the driver has
accepted the assignment, no other pin keeps the pair, and a pin whose assignment
changes otherwise is left without a function. -/
structure Assigns (slots next : PinSlots) (pin : Nat) (func : PtpPinFunction) (chan : Nat) :
    Prop where
  verified : ptpVerify slots pin func chan = .ok ()
  modes : next.map PinSlot.mode = slots.map PinSlot.mode
  target : Assigned next pin func chan
  taken : func ≠ .none → ∀ other, other ≠ pin → ¬Assigned next other func chan
  rest : ∀ other slot, other ≠ pin → next[other]? = some slot → slot.func ≠ .none →
    slots[other]? = some slot

def PinMove (slots next : PinSlots) : Prop := ∃ pin func chan, Assigns slots next pin func chan

/-- Every assigned pin supports its function, and no two stand for one channel. -/
structure PinsOrderly (slots : PinSlots) : Prop where
  supported : ∀ (pin : Nat) (slot : PinSlot), slots[pin]? = some slot → slot.func ≠ .none →
    mmioBlockSupportsFunc slot slot.func = true ∧ slot.chan < slots.length
  distinct : ∀ func chan, func ≠ .none → ∀ pin other, Assigned slots pin func chan →
    Assigned slots other func chan → pin = other

section assigning

variable {slots next : PinSlots} {pin chan : Nat} {func : PtpPinFunction}

theorem verify_accepts (verified : ptpVerify slots pin func chan = .ok ())
    (assigns : func ≠ .none) :
    Supports slots pin func ∧ chan < slots.length := by
  unfold ptpVerify at verified
  split at verified
  · cases verified
  next slot found =>
    rw [if_neg assigns] at verified
    split at verified
    · cases verified
    next inRange =>
      have below : chan < slots.length := by omega
      split at verified
      · split at verified
        next supports => exact ⟨⟨slot, found, supports⟩, below⟩
        · cases verified
      · split at verified
        next supports => exact ⟨⟨slot, found, supports⟩, below⟩
        · cases verified
      · cases verified

theorem modes_length (modes : next.map PinSlot.mode = slots.map PinSlot.mode) :
    next.length = slots.length := by
  simpa using congrArg List.length modes

/-- What a block supports depends on its mode alone. -/
theorem supports_by_mode {slot other : PinSlot} (mode : slot.mode = other.mode) :
    mmioBlockSupportsFunc slot func = mmioBlockSupportsFunc other func := by
  cases func <;> simp [mmioBlockSupportsFunc, mode]

theorem supports_kept (modes : next.map PinSlot.mode = slots.map PinSlot.mode) {block : Nat}
    (supports : Supports slots block func) : Supports next block func := by
  obtain ⟨slot, found, supported⟩ := supports
  have same : (next[block]?).map PinSlot.mode = some slot.mode := by
    rw [← List.getElem?_map, modes, List.getElem?_map, found]
    rfl
  obtain ⟨new, newFound, mode⟩ := Option.map_eq_some_iff.mp same
  exact ⟨new, newFound, (supports_by_mode mode).trans supported⟩

theorem assigns_orderly (orderly : PinsOrderly slots) (assigns : Assigns slots next pin func chan) :
    PinsOrderly next := by
  obtain ⟨verified, modes, ⟨target, found, targetFunc, targetChan⟩, taken, rest⟩ := assigns
  have length := modes_length modes
  constructor
  · intro other slot atOther used
    by_cases same : other = pin
    · subst same
      obtain rfl : target = slot := Option.some.inj (found.symm.trans atOther)
      rw [targetFunc] at used ⊢
      obtain ⟨supports, below⟩ := verify_accepts verified used
      obtain ⟨held, heldAt, heldSupports⟩ := supports_kept modes supports
      obtain rfl : held = target := Option.some.inj (heldAt.symm.trans found)
      exact ⟨heldSupports, by omega⟩
    · have before := rest other slot same atOther used
      have kept := orderly.supported other slot before used
      exact ⟨kept.1, by omega⟩
  · intro function channel used first second atFirst atSecond
    have kept (other : Nat) (apart : other ≠ pin) (held : Assigned next other function channel) :
        Assigned slots other function channel := by
      obtain ⟨slot, atOther, slotFunc, slotChan⟩ := held
      exact ⟨slot, rest other slot apart atOther (by rw [slotFunc]; exact used), slotFunc, slotChan⟩
    have alone (other : Nat) (apart : other ≠ pin) (held : Assigned next other function channel)
        (own : Assigned next pin function channel) : False := by
      obtain ⟨slot, atPin, slotFunc, slotChan⟩ := own
      obtain rfl : target = slot := Option.some.inj (found.symm.trans atPin)
      rw [targetFunc] at slotFunc
      rw [targetChan] at slotChan
      subst slotFunc slotChan
      exact taken used other apart held
    by_cases firstPin : first = pin <;> by_cases secondPin : second = pin
    · exact firstPin.trans secondPin.symm
    · subst firstPin
      exact (alone second secondPin atSecond atFirst).elim
    · subst secondPin
      exact (alone first firstPin atFirst atSecond).elim
    · exact orderly.distinct function channel used first second (kept first firstPin atFirst)
        (kept second secondPin atSecond)

/-- However often users assign pins, these stay in order. -/
theorem moves_orderly (orderly : PinsOrderly slots)
    (moves : Relation.ReflTransGen PinMove slots next) : PinsOrderly next := by
  induction moves with
  | refl => exact orderly
  | tail _ move before =>
      obtain ⟨pin, func, chan, assigns⟩ := move
      exact assigns_orderly before assigns

end assigning

section routing

variable {slots : PinSlots} {func : PtpPinFunction} {channel pin : Nat}

/-- What a channel's request looks for among the pins. -/
theorem stands_for (slot : PinSlot) :
    (mmioBlockSupportsFunc slot func && slot.func == func && slot.chan == channel) = true ↔
      mmioBlockSupportsFunc slot func = true ∧ slot.func = func ∧ slot.chan = channel := by
  simp only [Bool.and_eq_true, beq_iff_eq, and_assoc]

theorem supports_function {block : Nat} (supports : Supports slots block func) :
    func ≠ .none := by
  obtain ⟨slot, -, supported⟩ := supports
  rintro rfl
  contradiction

theorem no_pin_stands (none : func = .none ∨ ∀ pin, ¬Assigned slots pin func channel) :
    slots.findIdx? (fun slot =>
      mmioBlockSupportsFunc slot func && slot.func == func && slot.chan == channel) = .none := by
  rw [List.findIdx?_eq_none_iff]
  intro slot member
  apply Bool.eq_false_iff.mpr
  intro found
  obtain ⟨supported, slotFunc, slotChan⟩ := (stands_for slot).mp found
  obtain ⟨pin, atPin⟩ := List.mem_iff_getElem?.mp member
  rcases none with rfl | unassigned
  · contradiction
  · exact unassigned pin ⟨slot, atPin, slotFunc, slotChan⟩

/-- Without a pin for the channel it is the block of the channel's number. -/
theorem own_block (none : func = .none ∨ ∀ pin, ¬Assigned slots pin func channel)
    (inRange : channel < slots.length) :
    (Supports slots channel func → blockForChannel slots func channel = .ok channel) ∧
      (¬Supports slots channel func → blockForChannel slots func channel = .error .eopnotsupp) := by
  have own := List.getElem?_eq_getElem inRange
  unfold blockForChannel
  rw [own]
  dsimp only
  rw [no_pin_stands none]
  dsimp only
  constructor
  · rintro ⟨slot, found, supported⟩
    obtain rfl := Option.some.inj (own.symm.trans found)
    rw [if_pos supported]
  · intro unsupported
    rw [if_neg fun supported => unsupported ⟨_, own, supported⟩]

theorem out_of_range (outside : slots.length ≤ channel) :
    blockForChannel slots func channel = .error .einval := by
  unfold blockForChannel
  rw [List.getElem?_eq_none outside]

/-- A pin that stands for a channel is the only one, so the search ends at it. -/
theorem assigned_block (orderly : PinsOrderly slots) (used : func ≠ .none)
    (assigned : Assigned slots pin func channel) :
    blockForChannel slots func channel = .ok pin := by
  obtain ⟨slot, atPin, slotFunc, slotChan⟩ := assigned
  obtain ⟨supported, inRange⟩ := orderly.supported pin slot atPin (slotFunc ▸ used)
  rw [slotFunc] at supported
  rw [slotChan] at inRange
  unfold blockForChannel
  rw [List.getElem?_eq_getElem inRange]
  dsimp only
  split
  next index found =>
    obtain ⟨below, stands, -⟩ := List.findIdx?_eq_some_iff_getElem.mp found
    obtain ⟨-, func, chan⟩ := (stands_for _).mp stands
    rw [orderly.distinct _ channel used index pin
      ⟨_, List.getElem?_eq_getElem below, func, chan⟩ ⟨slot, atPin, slotFunc, slotChan⟩]
  next missing =>
    have refused := List.findIdx?_eq_none_iff.mp missing slot (List.mem_of_getElem? atPin)
    rw [(stands_for slot).mpr ⟨supported, slotFunc, slotChan⟩] at refused
    contradiction

/-- The events of an assigned pin come under its channel. -/
theorem assigned_channel (assigned : Assigned slots pin func channel) :
    channelForMmioBlock slots pin func = channel := by
  obtain ⟨slot, atPin, slotFunc, slotChan⟩ := assigned
  simp only [channelForMmioBlock, atPin, slotFunc, if_true, slotChan]

theorem unassigned_channel (unassigned : ∀ channel, ¬Assigned slots pin func channel) :
    channelForMmioBlock slots pin func = pin := by
  unfold channelForMmioBlock
  split
  next slot atPin =>
    rw [if_neg fun slotFunc => unassigned slot.chan ⟨slot, atPin, slotFunc, rfl⟩]
  next => rfl

theorem supports_in_range {block : Nat} (supports : Supports slots block func) :
    block < slots.length := by
  obtain ⟨slot, found, -⟩ := supports
  exact (List.getElem?_eq_some_iff.mp found).1

/-- The channel of a block's events leads back to the block, unless it has no pin
and its number has been given to another. -/
theorem events_lead_back (orderly : PinsOrderly slots) {block : Nat}
    (supports : Supports slots block func) :
    blockForChannel slots func (channelForMmioBlock slots block func) = .ok block ↔
      (∃ own, Assigned slots block func own) ∨ ∀ other, ¬Assigned slots other func block := by
  have used := supports_function supports
  by_cases assigned : ∃ own, Assigned slots block func own
  · obtain ⟨own, assigned⟩ := assigned
    rw [assigned_channel assigned]
    exact ⟨fun _ => .inl ⟨own, assigned⟩, fun _ => assigned_block orderly used assigned⟩
  · have unassigned : ∀ channel, ¬Assigned slots block func channel := not_exists.mp assigned
    rw [unassigned_channel unassigned]
    constructor
    · intro back
      refine .inr fun other taken => ?_
      have there := (assigned_block orderly used taken).symm.trans back
      obtain rfl := Except.ok.inj there
      exact unassigned _ taken
    · rintro (own | free)
      · exact (assigned own).elim
      · exact (own_block (.inr free) (supports_in_range supports)).1 supports

/-- The slot a request is checked against is that of the block it goes to. -/
theorem find_mmio_block (slot : PinSlot) :
    findMmioBlockForChannel slots func channel = .ok slot ↔
      ∃ block, blockForChannel slots func channel = .ok block ∧ slots[block]? = some slot := by
  unfold findMmioBlockForChannel blockForChannel
  cases own : slots[channel]? with
  | none => simp
  | some ownSlot =>
      dsimp only
      cases found : slots.findIdx? fun slot =>
          mmioBlockSupportsFunc slot func && slot.func == func && slot.chan == channel with
      | none =>
          have missing := List.find?_eq_none.mpr fun slot member =>
            Bool.eq_false_iff.mp (List.findIdx?_eq_none_iff.mp found slot member)
          rw [missing]
          dsimp only
          split
          next => simp [own, eq_comm]
          next => simp
      | some index =>
          obtain ⟨below, stands, before⟩ := List.findIdx?_eq_some_iff_getElem.mp found
          have first : slots.find? (fun slot => mmioBlockSupportsFunc slot func &&
              slot.func == func && slot.chan == channel) = some slots[index] := by
            apply List.find?_eq_some_iff_getElem.mpr
            refine ⟨stands, index, below, rfl, fun earlier less => ?_⟩
            rw [Bool.not_eq_true']
            exact Bool.eq_false_iff.mpr (before earlier less)
          rw [first]
          simp [List.getElem?_eq_getElem below]

end routing

end Tgpio

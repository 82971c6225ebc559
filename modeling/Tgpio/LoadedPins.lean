import Tgpio.ChannelRouting
import Tgpio.LoadFailure

/-!
# The pins of a loaded module

Init fills the pins in from the persistent operations it has validated. Every
request and every event of a loaded module goes by what users have made of them.
-/

namespace Tgpio

open Interference Interference.Prog

set_option autoImplicit false

section validated

variable {params : ModuleParams} {dev : LoadedDevice}

theorem validated_block {number : BlockNumber}
    (valid : validatePersistentBlock params dev number = .ok ()) :
    ((params.block number).inputEnable = true → (dev.block number).mode = .input ∧
      (params.block number).inputChannel < dev.nPtpPins) ∧
    ((params.block number).outputPeriodNs ≠ 0 → (dev.block number).mode = .output ∧
      (params.block number).outputChannel < dev.nPtpPins) := by
  unfold validatePersistentBlock at valid
  dsimp only at valid
  split at valid
  · contradiction
  split at valid
  · contradiction
  split at valid
  · contradiction
  split at valid
  · contradiction
  split at valid
  · contradiction
  next inputMode =>
    split at valid
    · contradiction
    next outputMode =>
      split at valid
      · contradiction
      next inputRange =>
        split at valid
        · contradiction
        next outputRange =>
          constructor
          · intro enabled
            exact ⟨Decidable.of_not_not fun other => inputMode ⟨enabled, other⟩,
              Nat.lt_of_not_le fun beyond => inputRange ⟨enabled, beyond⟩⟩
          · intro periodic
            exact ⟨Decidable.of_not_not fun other => outputMode ⟨periodic, other⟩,
              Nat.lt_of_not_le fun beyond => outputRange ⟨periodic, beyond⟩⟩

theorem block_numbers (number : BlockNumber) : number = firstBlock ∨ number = secondBlock := by
  revert number
  decide

theorem validated_operations (valid : validatePersistentOperations params dev = .ok ()) :
    (∀ number, validatePersistentBlock params dev number = .ok ()) ∧
      validatePersistentPair params = .ok () := by
  unfold validatePersistentOperations at valid
  cases first : validatePersistentBlock params dev firstBlock with
  | error status =>
      rw [first] at valid
      contradiction
  | ok =>
      cases second : validatePersistentBlock params dev secondBlock with
      | error status =>
          rw [first, second] at valid
          contradiction
      | ok =>
          rw [first, second] at valid
          refine ⟨fun number => ?_, valid⟩
          rcases block_numbers number with rfl | rfl
          · exact first
          · exact second

/-- A pin starts out with the persistent operation of its block. -/
theorem pin_slot_cases (params : ModuleParams) (dev : LoadedDevice) (number : BlockNumber) :
    ((params.block number).inputEnable = true ∧ pinSlot params dev number =
      ⟨(dev.block number).mode, (dev.block number).mapped, .extts,
        (params.block number).inputChannel⟩) ∨
    ((params.block number).outputPeriodNs ≠ 0 ∧ pinSlot params dev number =
      ⟨(dev.block number).mode, (dev.block number).mapped, .perout,
        (params.block number).outputChannel⟩) ∨
    (pinSlot params dev number).func = .none := by
  unfold pinSlot
  dsimp only
  split
  next enabled => exact .inl ⟨enabled, rfl⟩
  next =>
    split
    next periodic => exact .inr (.inl ⟨periodic, rfl⟩)
    next => exact .inr (.inr rfl)

theorem persisted_pin {number : BlockNumber}
    (valid : validatePersistentBlock params dev number = .ok ())
    (used : (pinSlot params dev number).func ≠ .none) :
    mmioBlockSupportsFunc (pinSlot params dev number) (pinSlot params dev number).func = true ∧
      (pinSlot params dev number).chan < dev.nPtpPins := by
  obtain ⟨input, output⟩ := validated_block valid
  rcases pin_slot_cases params dev number with
    ⟨enabled, slot⟩ | ⟨periodic, slot⟩ | unused
  · obtain ⟨mode, inRange⟩ := input enabled
    rw [slot]
    exact ⟨by simp [mmioBlockSupportsFunc, mode], inRange⟩
  · obtain ⟨mode, inRange⟩ := output periodic
    rw [slot]
    exact ⟨by simp [mmioBlockSupportsFunc, mode], inRange⟩
  · exact (used unused).elim

theorem persisted_apart (valid : validatePersistentPair params = .ok ())
    (used : (pinSlot params dev firstBlock).func ≠ .none)
    (sameFunc : (pinSlot params dev firstBlock).func = (pinSlot params dev secondBlock).func)
    (sameChan : (pinSlot params dev firstBlock).chan = (pinSlot params dev secondBlock).chan) :
    False := by
  unfold validatePersistentPair at valid
  dsimp only at valid
  split at valid
  · contradiction
  next inputs =>
    split at valid
    · contradiction
    next outputs =>
      rcases pin_slot_cases params dev firstBlock with
          ⟨enabled, first⟩ | ⟨periodic, first⟩ | unused <;>
        rcases pin_slot_cases params dev secondBlock with
          ⟨otherEnabled, second⟩ | ⟨otherPeriodic, second⟩ | otherUnused
      · rw [first, second] at sameChan
        exact inputs ⟨enabled, otherEnabled, sameChan⟩
      · rw [first, second] at sameFunc
        contradiction
      · exact used (sameFunc.trans otherUnused)
      · rw [first, second] at sameFunc
        contradiction
      · rw [first, second] at sameChan
        exact outputs ⟨periodic, otherPeriodic, sameChan⟩
      · exact used (sameFunc.trans otherUnused)
      all_goals exact used unused

/-- A slot is that of a block with a pin. -/
theorem slot_of_block {pin : Nat} {slot : PinSlot}
    (atPin : (pinSlots params dev)[pin]? = some slot) :
    ∃ number : BlockNumber, number.val = pin ∧ slot = pinSlot params dev number := by
  unfold pinSlots at atPin
  rw [List.getElem?_take] at atPin
  split at atPin
  · match pin with
    | 0 => exact ⟨firstBlock, rfl, (Option.some.inj atPin).symm⟩
    | 1 => exact ⟨secondBlock, rfl, (Option.some.inj atPin).symm⟩
    | pin + 2 => simp at atPin
  · contradiction

theorem pins_length (bounded : dev.nPtpPins ≤ maxBlocks) :
    (pinSlots params dev).length = dev.nPtpPins := by
  unfold pinSlots
  rw [List.length_take]
  exact Nat.min_eq_left bounded

theorem validated_pins_orderly (bounded : dev.nPtpPins ≤ maxBlocks)
    (valid : validatePersistentOperations params dev = .ok ()) :
    PinsOrderly (pinSlots params dev) := by
  obtain ⟨blocks, pair⟩ := validated_operations valid
  constructor
  · intro pin slot atPin used
    obtain ⟨number, -, rfl⟩ := slot_of_block atPin
    rw [pins_length bounded]
    exact persisted_pin (blocks number) used
  · rintro func chan used pin other ⟨slot, atPin, rfl, rfl⟩ ⟨held, atOther, sameFunc, sameChan⟩
    obtain ⟨number, rfl, rfl⟩ := slot_of_block atPin
    obtain ⟨second, rfl, rfl⟩ := slot_of_block atOther
    rcases block_numbers number with rfl | rfl <;> rcases block_numbers second with rfl | rfl
    · rfl
    · exact (persisted_apart pair used sameFunc.symm sameChan.symm).elim
    · exact (persisted_apart pair (sameFunc ▸ used) sameFunc sameChan).elim
    · rfl

end validated

section loading

variable {α β : Type} (params : ModuleParams)

theorem device_stable (fact : LoadedDevice → Prop) : Stable loadSem fun s => fact s.device := by
  intro s t step holds
  rw [(handlers_free_nothing step).2.2]
  exact holds

theorem consults_device {op : LoadOp} {s t : LoadState} {reply : op.Resp} (consults : Consults op)
    (step : loadSem.step op s reply t) : t.device = s.device := by
  obtain ⟨answers, step⟩ := step
  cases op with
  | kzalloc => exact consults.elim
  | store update => exact consults.elim
  | cancelSync work => exact consults.elim
  | kfree => exact consults.elim
  | startPersistentOutput number =>
      cases step
      cases answers.starts <;> rfl
  | _ =>
      cases step
      rfl

theorem consults_keeps {program : Loader α} (consults : Uses Consults program)
    (fact : LoadedDevice → Prop) :
    Triple loadSem (fun s => fact s.device) program fun _ s => fact s.device := by
  intro s holds
  refine wp_uses consults (fun op u reply t consults step kept => ?_) (device_stable fact) holds
  rw [consults_device consults step]
  exact kept

theorem sets_up_bounded {program : Loader α} (setsUp : Uses SetsUp program) :
    Triple loadSem (fun s => s.device.nPtpPins ≤ maxBlocks) program
      fun _ s => s.device.nPtpPins ≤ maxBlocks := by
  intro s bounded
  refine wp_uses setsUp (fun op u reply t setsUp step bounded => ?_)
    (device_stable fun dev => dev.nPtpPins ≤ maxBlocks) bounded
  by_cases consults : Consults op
  · rw [consults_device consults step]
    exact bounded
  · obtain ⟨answers, step⟩ := step
    cases op with
    | store update =>
        cases step
        exact setsUp _ bounded
    | kzalloc => exact setsUp.elim
    | cancelSync work => exact setsUp.elim
    | kfree => exact setsUp.elim
    | _ => exact (consults trivial).elim

/-- The device is as it was, but for a clock that may have been registered. -/
def RegisteredSince (dev found : LoadedDevice) : Prop :=
  ∃ registered, found = { dev with ptpClock := registered }

theorem register_ptp_clock_keeps (dev : LoadedDevice) :
    Triple loadSem (fun s => RegisteredSince dev s.device) registerPtpClock
      fun _ s => RegisteredSince dev s.device := by
  have uses : Uses (fun op => Consults op ∨
      op = .store fun dev => { dev with ptpClock := true }) registerPtpClock := by
    apply (loaded_device_consults.mono fun _ => .inl).seq
    intro found
    split
    · exact uses_pure _
    · apply uses_and_then ((consults_perform (by trivial)).mono fun _ => .inl)
      intro _
      exact ((@uses_perform _ LoadOp.Resp _ _).mpr (.inr rfl)).seq fun _ => uses_pure _
  intro s holds
  refine wp_uses uses (fun op u reply t allowed step kept => ?_)
    (device_stable (RegisteredSince dev)) holds
  rcases allowed with consults | rfl
  · rw [consults_device consults step]
    exact kept
  · obtain ⟨answers, step⟩ := step
    obtain ⟨registered, same⟩ := kept
    cases step
    exact ⟨true, by rw [same]⟩

/-- What the last part of init leaves, where no part before it fails. -/
theorem and_then_loads {first : Loader (Except Errno α)} {rest : α → Loader (Except Errno β)}
    {pre mid : LoadState → Prop} {post : LoadState → Prop} (stable : Stable loadSem mid)
    (before : Triple loadSem pre first fun _ => mid)
    (after : ∀ value, Triple loadSem mid (rest value)
      fun result s => ∀ loaded, result = .ok loaded → post s) :
    Triple loadSem pre (andThen first rest)
      fun result s => ∀ loaded, result = .ok loaded → post s := by
  unfold andThen
  apply Triple.bind before
  intro result
  cases result with
  | error status => exact Triple.pure stable fun s _ loaded failed => by cases failed
  | ok value => exact after value

theorem anything_goes (program : Loader α) :
    Triple loadSem (fun _ => True) program fun _ _ => True :=
  fun _ _ => wp_uses (uses_true _) (fun _ _ _ _ _ _ _ => trivial) (fun _ _ _ _ => trivial) trivial

theorem load_device_validates :
    Triple loadSem (fun _ => True) (loadDevice params) fun result s => ∀ loaded,
      result = .ok loaded → validatePersistentOperations params s.device = .ok () := by
  have free : Stable loadSem fun _ => True := fun _ _ _ _ => trivial
  apply and_then_loads free (anything_goes _)
  intro clock
  apply and_then_loads free (anything_goes _)
  intro timestamp
  apply and_then_loads free (anything_goes _)
  intro _
  apply and_then_loads free (anything_goes _)
  intro _
  apply Triple.bind (anything_goes _)
  intro _
  apply Triple.via fun dev s => s.device = dev
  · refine @Triple.call _ LoadOp.Resp _ loadSem _ LoadOp.device _ free
      (fun dev => device_stable fun found => found = dev) ?_
    intro s dev t _ step
    obtain ⟨answers, step⟩ := step
    cases step
    rfl
  intro dev
  cases valid : validatePersistentOperations params dev with
  | error status =>
      exact Triple.pure (device_stable fun found => found = dev) fun s _ loaded failed => by
        cases failed
  | ok =>
      have kept : Stable loadSem fun s => RegisteredSince dev s.device := device_stable _
      have ends : Uses Consults (do
          if clock = .realtime then schedule .artRefine else pure ()
          return .ok () : Loader (Except Errno Unit)) := by
        split
        · exact (schedule_consults _).seq fun _ => uses_pure _
        · exact uses_pure _
      refine (?_ : Triple loadSem (fun s => RegisteredSince dev s.device) _ fun result s =>
        ∀ loaded, result = .ok loaded → RegisteredSince dev s.device).conseq ?_ ?_
      · apply and_then_loads kept (consults_keeps (uses_pure _) _)
        intro _
        apply and_then_loads kept (consults_keeps (init_clock_consults params clock timestamp) _)
        intro _
        apply and_then_loads kept (register_ptp_clock_keeps dev)
        intro _
        apply and_then_loads kept (consults_keeps (start_persistent_operations_consults params) _)
        intro _
        exact (consults_keeps ends (RegisteredSince dev)).post fun _ _ holds _ _ => holds
      · rintro s rfl
        exact ⟨s.device.ptpClock, rfl⟩
      · intro result s holds loaded succeeded
        obtain ⟨registered, same⟩ := holds loaded succeeded
        rw [same]
        exact valid

/-- A module that has loaded starts with its pins in order. -/
theorem loaded_pins_orderly :
    Triple loadSem (fun _ => True) (tgpioInputInit params) fun result s =>
      ∀ loaded, result = .ok loaded → PinsOrderly (pinSlots params s.device) := by
  have free : Stable loadSem fun _ => True := fun _ _ _ _ => trivial
  have bounded : Stable loadSem fun s => s.device.nPtpPins ≤ maxBlocks :=
    device_stable fun dev => dev.nPtpPins ≤ maxBlocks
  unfold tgpioInputInit
  split
  · exact Triple.pure free fun s _ loaded failed => by cases failed
  · apply Triple.via fun _ s => s.device.nPtpPins ≤ maxBlocks
    · apply Triple.call free fun _ => bounded
      intro s granted t _ step
      obtain ⟨answers, step⟩ := step
      cases step
      exact Nat.zero_le _
    intro granted
    split
    · exact Triple.pure bounded fun s _ loaded failed => by cases failed
    · apply Triple.bind (sets_up_bounded (consults_sets_up (schedule_consults _)))
      intro _
      apply Triple.via fun result s => ∀ loaded, result = .ok loaded →
        PinsOrderly (pinSlots params s.device)
      · intro s few
        apply wp_mono _ (wp_and (sets_up_bounded (load_device_sets_up params) s few)
          (load_device_validates params s trivial))
        rintro result t ⟨few, valid⟩ loaded succeeded
        exact validated_pins_orderly few (valid loaded succeeded)
      intro result
      cases result with
      | error status =>
          apply Triple.bind ((anything_goes _).conseq (fun _ _ => trivial) fun _ _ holds => holds)
          intro _
          exact Triple.pure free fun s _ loaded failed => by cases failed
      | ok value =>
          exact Triple.pure
            (device_stable fun dev => ∀ loaded, Except.ok value = .ok loaded →
              PinsOrderly (pinSlots params dev))
            fun s orderly loaded succeeded => orderly loaded succeeded

end loading

/-- Where the requests and the events of a channel go. -/
structure Routed (slots : PinSlots) (func : PtpPinFunction) (channel : Nat) : Prop where
  outside : slots.length ≤ channel → blockForChannel slots func channel = .error .einval
  assigned : func ≠ .none → ∀ pin, Assigned slots pin func channel →
    blockForChannel slots func channel = .ok pin ∧ channelForMmioBlock slots pin func = channel
  own : (func = .none ∨ ∀ pin, ¬Assigned slots pin func channel) → channel < slots.length →
    (Supports slots channel func → blockForChannel slots func channel = .ok channel) ∧
      (¬Supports slots channel func → blockForChannel slots func channel = .error .eopnotsupp)
  slot : ∀ slot, findMmioBlockForChannel slots func channel = .ok slot ↔
    ∃ block, blockForChannel slots func channel = .ok block ∧ slots[block]? = some slot
  events : ∀ block, Supports slots block func →
    (blockForChannel slots func (channelForMmioBlock slots block func) = .ok block ↔
      (∃ own, Assigned slots block func own) ∨ ∀ other, ¬Assigned slots other func block)

theorem orderly_routed {slots : PinSlots} (orderly : PinsOrderly slots) (func : PtpPinFunction)
    (channel : Nat) : Routed slots func channel where
  outside := out_of_range
  assigned used _ assigned := ⟨assigned_block orderly used assigned, assigned_channel assigned⟩
  own := own_block
  slot := find_mmio_block
  events _ := events_lead_back orderly

/-- Whatever users assign after a load, every channel leads to its one pin, or to
the block of its number where no pin stands for it. -/
theorem channels_routed {params : ModuleParams} {s loaded : LoadState} {slots : PinSlots}
    (run : Executes loadSem (tgpioInputInit params) s (.ok ()) loaded)
    (moves : Relation.ReflTransGen PinMove (pinSlots params loaded.device) slots) :
    PinsOrderly slots ∧ ∀ func channel, Routed slots func channel := by
  have initial := (loaded_pins_orderly params).ends trivial run () rfl
  have orderly := moves_orderly initial moves
  exact ⟨orderly, orderly_routed orderly⟩

/-- A kernel that grants everything, and takes the persistent output. -/
def loadingKernel : KernelAnswers := { grantingKernel with starts := .ok secondBlock }

/-- The input takes the channel of the other block's number, and it the input's. -/
def crossedBlocks : ModuleParams where
  mmioSize := minMmioSize
  clockMode := "realtime"
  timestampMode := "realtime"
  outputPolarity := "normal"
  useSecond := true
  block number :=
    if number = firstBlock then ⟨"input", "rising", 4096, true, 1, 0, 0, 0⟩
    else ⟨"output", "rising", 8192, false, 0, nsecPerSec, 0, 0⟩
  hardwareTimestamps := false
  artFrequency := 0
  artCalibration := "raw"
  rateTrimPpb := 0
  tdc := false
  tdcStart := 0

def crossedEnd : LoadState :=
  finalState (LoadState.perform loadingKernel) 100 [] (tgpioInputInit crossedBlocks) .fresh

theorem crossed_run :
    Executes loadSem (tgpioInputInit crossedBlocks) .fresh (.ok ()) crossedEnd := by
  apply exec_final
  · exact fun op s reply t step => ⟨loadingKernel, step⟩
  · simp
  · decide +kernel

/-- The input has been given the channel of its own number. -/
def uncrossedPins : PinSlots := [⟨.input, true, .extts, 0⟩, ⟨.output, true, .perout, 0⟩]

theorem crossed_pins : pinSlots crossedBlocks crossedEnd.device =
    [⟨.input, true, .extts, 1⟩, ⟨.output, true, .perout, 0⟩] := by
  decide +kernel

theorem uncrosses : PinMove (pinSlots crossedBlocks crossedEnd.device) uncrossedPins := by
  rw [crossed_pins]
  refine ⟨0, .extts, 0, by decide, rfl, ⟨⟨.input, true, .extts, 0⟩, rfl, rfl, rfl⟩, ?_, ?_⟩
  · rintro - other apart ⟨slot, found, func, -⟩
    match other with
    | 0 => exact apart rfl
    | 1 =>
        obtain rfl := Option.some.inj found
        contradiction
    | other + 2 => simp [uncrossedPins] at found
  · intro other slot apart found _
    match other with
    | 0 => exact (apart rfl).elim
    | 1 => exact found
    | other + 2 => simp [uncrossedPins] at found

theorem channels_routed_uncrossed :
    PinsOrderly uncrossedPins ∧ ∀ func channel, Routed uncrossedPins func channel :=
  channels_routed crossed_run (.single uncrosses)

end Tgpio

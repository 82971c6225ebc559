import Tgpio.InputFrames
import Mathlib.Data.BitVec

/-!
# What the poll work delivers

The capture hardware keeps a count and the ART value of the last capture, and a
poll latches the two together. Between two looks at an enabled input any number
of edges may have come. The poll work reports the last of them and how many
there were, and the snapshot it converts the capture with is older than it.
-/

namespace Tgpio.Inputs

open Interference Interference.Prog Buffers

set_option autoImplicit false

section facts

def natural (entry : Art × BitVec 64) : Nat × Nat := (entry.1.toNat, entry.2.toNat)

/-- The taken batches are processed but for `pending`. -/
structure Tracked (pending : List (List Art)) (v : InputView) : Prop where
  steady : v.line.restarts = false
  processed : ∃ done, v.sampling.taken = done ++ pending ∧
    v.processed = (reports done).map natural
  latest : ∀ art, v.sampling.fresh.getLast? = some art → v.line.capture.artCycles = art

/-- The snapshot was taken before every capture not yet looked at. -/
def Precedes (snapshot : Option SystemTimeSnapshot) (v : InputView) : Prop :=
  ∀ taken, snapshot = some taken →
    taken.cycles ≤ v.art ∧ ∀ art ∈ v.sampling.fresh, taken.cycles ≤ art.toNat

/-- No conversion was asked for with a history that is later than the capture. -/
def Timely (v : InputView) : Prop :=
  ∀ conversion ∈ v.conversions, ∀ taken, conversion.history = some taken →
    taken.cycles ≤ conversion.art

structure Base (pending : List (List Art)) (v : InputView) : Prop where
  tracked : Tracked pending v
  precedes : Precedes v.block.crosststampSnapshot v
  timely : Timely v

/-- The input is enabled, and `since` is the count of the last look at it. -/
def Counting (since : BitVec 64) (v : InputView) : Prop :=
  hasEn v.line.ctl = true ∧
    v.line.capture.eventCount = since + (v.sampling.fresh.length : BitVec 64)

/-- An input brought to `desired`. -/
structure Sampled (desired : BitVec 32) (v : InputView) : Prop extends Base [] v where
  counting : inputDesiredState desired = .on → Counting v.block.lastEventCount v

end facts

section enduring

variable {v w : InputView}

theorem sampling_captured (line : CaptureLine) (art : Art) :
    Sampling.of (line.captured art).happenings =
      ⟨(Sampling.of line.happenings).taken, (Sampling.of line.happenings).fresh ++ [art]⟩ := by
  simp [CaptureLine.captured, Sampling.of_append, Sampling.next]

theorem enduring_tracked (pending : List (List Art)) : Enduring (Tracked pending) := by
  intro v w moves tracked
  cases moves with
  | tick art artInRange later => exact ⟨tracked.steady, tracked.processed, tracked.latest⟩
  | captured enabled =>
      refine ⟨tracked.steady, ?_, ?_⟩
      · simp only [InputView.sampling, sampling_captured]
        exact tracked.processed
      · simp only [InputView.sampling, sampling_captured]
        intro art last
        simpa [CaptureLine.captured] using last

theorem enduring_precedes (snapshot : Option SystemTimeSnapshot) :
    Enduring (Precedes snapshot) := by
  intro v w moves precedes taken present
  obtain ⟨now, fresh⟩ := precedes taken present
  cases moves with
  | tick art artInRange later => exact ⟨now.trans later, fresh⟩
  | captured enabled =>
      refine ⟨now, ?_⟩
      simp only [InputView.sampling, sampling_captured, List.mem_append, List.mem_singleton]
      rintro art (earlier | rfl)
      · exact fresh art earlier
      · rw [BitVec.toNat_ofNat, Nat.mod_eq_of_lt v.artInRange]
        exact now

theorem enduring_timely : Enduring Timely := by
  intro v w moves timely
  cases moves <;> exact timely

theorem enduring_counting (since : BitVec 64) : Enduring (Counting since) := by
  intro v w moves counting
  cases moves with
  | tick art artInRange later => exact counting
  | captured enabled =>
      refine ⟨counting.1, ?_⟩
      simp only [InputView.sampling, sampling_captured, List.length_append, List.length_singleton,
        Nat.cast_add, Nat.cast_one]
      simp only [CaptureLine.captured, counting.2, InputView.sampling]
      ring

theorem enduring_base (pending : List (List Art)) : Enduring (Base pending) := by
  intro v w moves base
  have precedes := enduring_precedes _ v w moves base.precedes
  refine ⟨enduring_tracked pending v w moves base.tracked, ?_, enduring_timely v w moves base.timely⟩
  cases moves <;> exact precedes

theorem enduring_sampled (desired : BitVec 32) : Enduring (Sampled desired) := by
  intro v w moves sampled
  refine ⟨enduring_base [] v w moves sampled.toBase, fun on => ?_⟩
  have counting := enduring_counting _ v w moves (sampled.counting on)
  cases moves <;> exact counting

/-- A disabled input does not change. -/
theorem enduring_disabled (record : CaptureLine → Prop) :
    Enduring fun v => hasEn v.line.ctl = false ∧ record v.line := by
  intro v w moves disabled
  cases moves with
  | tick art artInRange later => exact disabled
  | captured enabled =>
      rw [disabled.1] at enabled
      contradiction

end enduring

section reading

variable {index : BlockNumber} {pre : InputView → Prop}

/-- A read of a word that is latched. -/
theorem triple_latched_word {holds : InputView → Prop} (enduring : Enduring holds) (cap : TgpioCapture)
    (latched : ∀ v, holds v → v.line.latched = cap) {reg : CaptureReg}
    (word : TgpioCapture → BitVec 32)
    (reads : ∀ line : CaptureLine, line.read reg = word line.latched ∧ line.readEffect reg = line) :
    Triple pollingSem (fun m => holds (m.view index)) (readLine index reg)
      fun reply m => reply = word cap ∧ holds (m.view index) := by
  refine Triple.input (.readl index reg) (fun (reply : BitVec 32) v => reply = word cap ∧ holds v)
    enduring (fun reply => (enduring_const _).and enduring) ?_
  intro v reply w before step
  simp only [InputView.Step, if_pos] at step
  obtain ⟨same, rfl⟩ := step
  rw [(reads v.line).1, latched v before] at same
  rw [(reads v.line).2]
  exact ⟨same, before⟩

/-- A capture is read as it was when its low word was. -/
theorem triple_read_capture (post : TgpioCapture → InputView → Prop) (enduring : Enduring pre)
    (after : ∀ cap, Enduring (post cap)) (latched : ∀ cap v, post cap v → v.line.latched = cap)
    (latch : ∀ v, pre v → post v.line.capture v.latch) :
    Triple pollingSem (fun m => pre (m.view index)) (readCapture index)
      fun cap m => post cap (m.view index) := by
  have first : Triple pollingSem (fun m => pre (m.view index)) (readLine index .tcv31_0)
      fun reply m => ∃ cap, reply = lowerWord cap.artCycles ∧ post cap (m.view index) := by
    refine Triple.input (.readl index .tcv31_0)
      (fun (reply : BitVec 32) v => ∃ cap, reply = lowerWord cap.artCycles ∧ post cap v)
      enduring ?_ ?_
    · rintro reply v w moves ⟨cap, same, holds⟩
      exact ⟨cap, same, after cap v w moves holds⟩
    · intro v reply w before step
      simp only [InputView.Step, if_pos] at step
      obtain ⟨same, rfl⟩ := step
      exact ⟨v.line.capture, same, latch v before⟩
  refine first.bind fun tcvLo => Triple.named fun cap => Triple.given fun isLow => ?_
  refine (triple_latched_word (after cap) cap (latched cap) (fun cap => upperWord cap.eventCount)
    fun line => ⟨rfl, rfl⟩).bind fun countHi => Triple.given fun isCountHigh => ?_
  refine (triple_latched_word (after cap) cap (latched cap) (fun cap => lowerWord cap.eventCount)
    fun line => ⟨rfl, rfl⟩).bind fun countLo => Triple.given fun isCountLow => ?_
  refine (triple_latched_word (after cap) cap (latched cap) (fun cap => upperWord cap.artCycles)
    fun line => ⟨rfl, rfl⟩).bind fun tcvHi => Triple.given fun isHigh => ?_
  have whole : (⟨joinWords countHi countLo, joinWords tcvHi tcvLo⟩ : TgpioCapture) = cap := by
    rw [isLow, isCountHigh, isCountLow, isHigh, join_words, join_words]
  rw [whole]
  exact Triple.pure (after cap).stable fun _ holds => holds

end reading

section applying

variable {index : BlockNumber} {desired : BitVec 32}

theorem has_en_edge (ctrl desired : BitVec 32) (off : hasEn ctrl = false) :
    hasEn (ctlWith (ctlWithEdge ctrl (inputDesiredEdge desired)) ctlDir) = false := by
  have edge : hasEn (inputDesiredEdge desired) = false := by
    simp [hasEn, inputDesiredEdge, ctlEp]
  simp [ctlWithEdge, off, edge]

/-- A disabled input that is being brought to another configuration. -/
structure Disabled (v : InputView) : Prop extends Base [] v where
  off : hasEn v.line.ctl = false

theorem enduring_disabled_base : Enduring Disabled := by
  intro v w moves disabled
  have off := enduring_disabled (fun _ => True) v w moves ⟨disabled.off, trivial⟩
  exact ⟨enduring_base [] v w moves disabled.toBase, off.1⟩

/-- A write of the control register; the counter of a steady input stays. -/
theorem Base.write {pending : List (List Art)} {v : InputView} (base : Base pending v)
    (value : BitVec 32) : Base pending { v with line := v.line.writeCtl value } := by
  have same : v.line.writeCtl value = { v.line with ctl := value } := by
    simp [CaptureLine.writeCtl, base.tracked.steady]
  rw [same]
  exact ⟨⟨base.tracked.steady, base.tracked.processed, base.tracked.latest⟩, base.precedes,
    base.timely⟩

theorem Base.store {pending : List (List Art)} {v : InputView} (base : Base pending v)
    {update : InputMmioBlock → InputMmioBlock}
    (precedes : Precedes (update v.block).crosststampSnapshot v) :
    Base pending { v with block := update v.block } :=
  ⟨⟨base.tracked.steady, base.tracked.processed, base.tracked.latest⟩, precedes, base.timely⟩

theorem triple_write_off {pre : InputView → Prop} (enduring : Enduring pre)
    (based : ∀ v, pre v → Base [] v) {value : BitVec 32} (off : hasEn value = false) :
    Triple pollingSem (fun m => pre (m.view index)) (writeLine index value)
      fun _ m => Disabled (m.view index) := by
  refine Triple.input (.writeCtl index value) (fun _ v => Disabled v) enduring
    (fun _ => enduring_disabled_base) ?_
  intro v reply w before step
  simp only [InputView.Step, if_pos] at step
  rw [step]
  exact ⟨(based v before).write value, off⟩

/-- A baseline has been read, and not yet recorded. -/
structure Baselined (cap : TgpioCapture) (v : InputView) : Prop extends Disabled v where
  latched : v.line.latched = cap
  count : v.line.capture.eventCount = cap.eventCount
  none : v.sampling.fresh = []

theorem enduring_baselined (cap : TgpioCapture) : Enduring (Baselined cap) := by
  intro v w moves base
  obtain ⟨-, rest⟩ := enduring_disabled (fun line => line.latched = cap ∧
    line.capture.eventCount = cap.eventCount ∧ (Sampling.of line.happenings).fresh = []) v w moves
    ⟨base.off, base.latched, base.count, base.none⟩
  exact ⟨enduring_disabled_base v w moves base.toDisabled, rest.1, rest.2.1, rest.2.2⟩

theorem Disabled.latch {v : InputView} (disabled : Disabled v) :
    Baselined v.line.capture v.latch := by
  have dropped : v.latch.sampling = ⟨v.sampling.taken, []⟩ := by
    simp [InputView.latch, InputView.sampling, CaptureLine.readEffect, disabled.off,
      Sampling.of_append, Sampling.next]
  refine ⟨⟨⟨⟨disabled.tracked.steady, ?_, ?_⟩, ?_, disabled.timely⟩, disabled.off⟩, rfl, rfl, ?_⟩
  · rw [dropped]
    exact disabled.tracked.processed
  · simp [dropped]
  · intro taken present
    refine ⟨(disabled.precedes taken present).1, ?_⟩
    simp [dropped]
  · rw [dropped]

/-- An input that has its baseline is enabled. -/
theorem triple_enable (ctrl : BitVec 32) (off : hasEn ctrl = false) :
    Triple pollingSem (fun m => Disabled (m.view index)) (enableInput index ctrl desired)
      fun _ m => Sampled desired (m.view index) := by
  have mode := has_en_edge ctrl desired off
  refine (triple_write_off enduring_disabled_base (fun _ disabled => disabled.toBase) mode).bind
    fun _ => ?_
  refine (triple_read_capture Baselined enduring_disabled_base enduring_baselined
    (fun _ _ base => base.latched) fun _ disabled => disabled.latch).bind fun baseline => ?_
  have enduring : Enduring fun v => Baselined baseline v ∧
      v.block.lastEventCount = baseline.eventCount :=
    (enduring_baselined baseline).and (enduring_block fun block => block.lastEventCount = _)
  have recorded : Triple pollingSem (fun m => Baselined baseline (m.view index))
      (storeInput index (withCount baseline.eventCount)) fun _ m =>
        Baselined baseline (m.view index) ∧
          (m.view index).block.lastEventCount = baseline.eventCount := by
    refine Triple.input (.store index _) (fun _ v => Baselined baseline v ∧
      v.block.lastEventCount = baseline.eventCount) (enduring_baselined baseline)
      (fun _ => enduring) ?_
    intro v reply w base step
    simp only [InputView.Step, if_pos] at step
    rw [step]
    exact ⟨⟨⟨base.toBase.store base.precedes, base.off⟩, base.latched, base.count, base.none⟩, rfl⟩
  refine recorded.bind fun _ => ?_
  refine Triple.input (.writeCtl index _) (fun _ v => Sampled desired v) enduring
    (fun _ => enduring_sampled desired) ?_
  rintro v reply w ⟨base, count⟩ step
  simp only [InputView.Step, if_pos] at step
  rw [step]
  refine ⟨base.toBase.write _, fun _ => ⟨by simp [CaptureLine.writeCtl], ?_⟩⟩
  have none : (Sampling.of v.line.happenings).fresh = [] := base.none
  simp [CaptureLine.writeCtl, base.tracked.steady, InputView.sampling, none, base.count, count]

theorem triple_apply_input : Triple pollingSem (fun m => Base [] (m.view index))
    (applyInput index desired) fun _ m => Sampled desired (m.view index) := by
  have read : Triple pollingSem (fun m => Base [] (m.view index)) (readLine index .ctl)
      fun _ m => Base [] (m.view index) := by
    refine Triple.input (.readl index .ctl) (fun _ v => Base [] v) (enduring_base [])
      (fun _ => enduring_base []) ?_
    intro v reply w base step
    simp only [InputView.Step, if_pos] at step
    rw [step.2]
    exact base
  refine read.bind fun ctrl => ?_
  have off : hasEn (ctlWithout ctrl ctlEn) = false := by simp
  refine (triple_write_off (enduring_base []) (fun _ base => base) off).bind fun _ => ?_
  split
  · rename_i idle
    refine Triple.input (.store index _) (fun _ v => Sampled desired v) enduring_disabled_base
      (fun _ => enduring_sampled desired) ?_
    intro v reply w disabled step
    simp only [InputView.Step, if_pos] at step
    rw [step]
    have precedes : Precedes none v := by
      intro taken absent
      cases absent
    refine ⟨disabled.toBase.store precedes, fun on => ?_⟩
    rw [idle] at on
    cases on
  · exact triple_enable _ off

/-- The input is brought to what is asked of it. -/
theorem triple_reconcile {applied : BitVec 32} :
    Triple pollingSem
      (fun m => Sampled applied (m.view index) ∧ (m.view index).block.inputApplied = applied)
      (reconcileInput index desired applied)
      fun _ m => Sampled desired (m.view index) ∧
        (m.view index).block.inputApplied = desired := by
  have enduring (asked : BitVec 32) :
      Enduring fun v => Sampled asked v ∧ v.block.inputApplied = asked :=
    (enduring_sampled asked).and (enduring_block fun block => block.inputApplied = asked)
  rw [reconcileInput]
  split
  · rename_i same
    rw [same]
    exact Triple.pure (enduring applied).stable fun _ holds => holds
  · have apply : Triple pollingSem
        (fun m => Sampled applied (m.view index) ∧ (m.view index).block.inputApplied = applied)
        (applyInput index desired) fun _ m => Sampled desired (m.view index) :=
      triple_apply_input.conseq (fun _ holds => holds.1.toBase) fun _ _ sampled => sampled
    refine apply.bind fun _ => ?_
    refine Triple.input (.store index _)
      (fun _ v => Sampled desired v ∧ v.block.inputApplied = desired)
      (enduring_sampled desired) (fun _ => enduring desired) ?_
    intro v reply w sampled step
    simp only [InputView.Step, if_pos] at step
    rw [step]
    exact ⟨⟨sampled.toBase.store sampled.precedes, sampled.counting⟩, rfl⟩

end applying

section delivering

variable {index : BlockNumber} {snap : Option SystemTimeSnapshot} {pending : List (List Art)}
  {cap : TgpioCapture} {α β : Type} {holds : InputView → Prop}

def Keeps (index : BlockNumber) (holds : InputView → Prop) (program : Poller α) : Prop :=
  Triple pollingSem (fun m => holds (m.view index)) program fun _ m => holds (m.view index)

theorem Keeps.bind {program : Poller α} {rest : α → Poller β} (first : Keeps index holds program)
    (second : ∀ value, Keeps index holds (rest value)) : Keeps index holds (program >>= rest) :=
  Triple.bind first second

theorem keeps_pure (enduring : Enduring holds) (value : α) :
    Keeps index holds (pure value : Poller α) :=
  Triple.pure enduring.stable fun _ before => before

/-- Accesses that leave the input as it is. -/
theorem keeps_quiet (enduring : Enduring holds) (op : PollOp)
    (quiet : ∀ v reply w, InputView.Step index op v reply w → w = v) :
    Keeps index holds (Prog.perform op) := by
  refine Triple.input op (fun _ v => holds v) enduring (fun _ => enduring) ?_
  intro v reply w before step
  rw [quiet v reply w step]
  exact before

theorem keeps_setting (enduring : Enduring holds) : Keeps index holds getSetting :=
  keeps_quiet enduring .setting fun _ _ _ step => step.1

theorem keeps_realtime_now (enduring : Enduring holds) : Keeps index holds realtimeNow :=
  (keeps_setting enduring).bind fun _ => keeps_pure enduring _

theorem keeps_poll_time (enduring : Enduring holds) : Keeps index holds pollTime := by
  refine (keeps_setting enduring).bind fun setting => ?_
  split
  · exact keeps_realtime_now enduring
  · split
    · exact keeps_realtime_now enduring
    · exact keeps_pure enduring _

/-- A capture whose count has moved, on its way out; the block's snapshot is
older than it, and `snap` older than what comes after it. -/
structure Delivering (snap : Option SystemTimeSnapshot) (pending : List (List Art))
    (cap : TgpioCapture) (v : InputView) : Prop extends Base pending v where
  counting : Counting v.block.lastEventCount v
  timed : ∀ taken, v.block.crosststampSnapshot = some taken → taken.cycles ≤ cap.artCycles.toNat
  newer : Precedes snap v

theorem enduring_delivering : Enduring (Delivering snap pending cap) := by
  intro v w moves delivering
  have counting := enduring_counting _ v w moves delivering.counting
  have timed := enduring_block (fun block => ∀ taken, block.crosststampSnapshot = some taken →
    taken.cycles ≤ cap.artCycles.toNat) v w moves delivering.timed
  refine ⟨enduring_base pending v w moves delivering.toBase, ?_, timed,
    enduring_precedes snap v w moves delivering.newer⟩
  cases moves <;> exact counting

theorem keeps_art_to_realtime :
    Keeps index (Delivering snap pending cap) (artToRealtimeNs index cap.artCycles.toNat) := by
  have loaded : Triple pollingSem (fun m => Delivering snap pending cap (m.view index))
      (loadInput index) fun block m => block = (m.view index).block ∧
        Delivering snap pending cap (m.view index) := by
    refine Triple.input (.load index)
      (fun (reply : InputMmioBlock) v => reply = v.block ∧ Delivering snap pending cap v)
      enduring_delivering (fun reply => (enduring_block fun block => reply = block).and
        enduring_delivering) ?_
    rintro v reply w delivering ⟨same, answer⟩
    rw [same]
    exact ⟨answer rfl, delivering⟩
  refine loaded.bind fun block => ?_
  refine Triple.input (.crosststamp block.crosststampSnapshot cap.artCycles.toNat)
    (fun _ v => Delivering snap pending cap v)
    ((enduring_block fun now => block = now).and enduring_delivering)
    (fun _ => enduring_delivering) ?_
  rintro v reply w ⟨same, delivering⟩ step
  rw [step]
  obtain ⟨⟨tracked, precedes, timely⟩, counting, timed, newer⟩ := delivering
  refine ⟨⟨⟨tracked.steady, tracked.processed, tracked.latest⟩, precedes, ?_⟩, counting, timed,
    newer⟩
  intro conversion member taken history
  rcases List.mem_append.mp member with earlier | now
  · exact timely conversion earlier taken history
  · rw [List.mem_singleton.mp now] at history ⊢
    rw [same] at history
    exact timed taken history

theorem keeps_capture_time :
    Keeps index (Delivering snap pending cap) (captureTime index cap.artCycles.toNat) := by
  refine (keeps_setting enduring_delivering).bind fun setting => ?_
  split
  · exact keeps_poll_time enduring_delivering
  split
  · split
    · exact keeps_poll_time enduring_delivering
    · split
      · exact keeps_poll_time enduring_delivering
      · exact keeps_pure enduring_delivering _
  split
  · refine keeps_art_to_realtime.bind fun time => ?_
    cases time with
    | error status => exact keeps_realtime_now enduring_delivering
    | ok time => exact keeps_pure enduring_delivering _
  · exact keeps_pure enduring_delivering _

theorem keeps_emit_event (channel : Nat) :
    Keeps index (Delivering snap pending cap) (emitEvent index channel cap.artCycles.toNat) := by
  refine (keeps_quiet enduring_delivering .ptpClock fun _ _ _ step => step).bind fun ptpClock => ?_
  split
  · exact keeps_pure enduring_delivering _
  · exact keeps_capture_time.bind fun time =>
      keeps_quiet enduring_delivering (.ptpClockEvent ⟨channel, time⟩) fun _ _ _ step => step

theorem keeps_pps_emit :
    Keeps index (Delivering snap pending cap) (ppsEmit index cap.artCycles.toNat) := by
  refine (keeps_quiet enduring_delivering (.load index) fun _ _ _ step => step.1).bind
    fun block => ?_
  split
  · exact keeps_pure enduring_delivering _
  · refine keeps_art_to_realtime.bind fun real => ?_
    cases real with
    | error status => exact keeps_pure enduring_delivering _
    | ok real =>
        dsimp only
        split
        · exact keeps_pure enduring_delivering _
        · exact keeps_quiet enduring_delivering (.ppsEvent index real) fun _ _ _ step => step

end delivering

section polling

variable {index : BlockNumber} {snap : Option SystemTimeSnapshot} {batch : List Art}
  {cap : TgpioCapture} {v w : InputView}

/-- An enabled input between two looks. -/
structure Enabled (v : InputView) : Prop extends Base [] v where
  counting : Counting v.block.lastEventCount v

theorem enduring_enabled : Enduring Enabled := by
  intro v w moves enabled
  have counting := enduring_counting _ v w moves enabled.counting
  refine ⟨enduring_base [] v w moves enabled.toBase, ?_⟩
  cases moves <;> exact counting

/-- A batch has been latched, and nothing has become of it. -/
structure Latched (snap : Option SystemTimeSnapshot) (batch : List Art) (cap : TgpioCapture)
    (v : InputView) : Prop extends Base [batch] v where
  latched : v.line.latched = cap
  seen : cap.eventCount = v.block.lastEventCount + (batch.length : BitVec 64)
  last : ∀ art, batch.getLast? = some art → cap.artCycles = art
  older : ∀ taken, v.block.crosststampSnapshot = some taken → ∀ art ∈ batch,
    taken.cycles ≤ art.toNat
  counting : Counting cap.eventCount v
  newer : Precedes snap v

theorem enduring_latched : Enduring (Latched snap batch cap) := by
  intro v w moves now
  have seen := enduring_block (fun block => cap.eventCount = block.lastEventCount + _) v w moves
    now.seen
  have older := enduring_block (fun block => ∀ taken, block.crosststampSnapshot = some taken →
    ∀ art ∈ batch, taken.cycles ≤ art.toNat) v w moves now.older
  refine ⟨enduring_base _ v w moves now.toBase, ?_, seen, now.last, older,
    enduring_counting _ v w moves now.counting, enduring_precedes snap v w moves now.newer⟩
  have latched := now.latched
  cases moves <;> exact latched

/-- The look that takes what has come since the last. -/
theorem Enabled.latch (enabled : Enabled v)
    (newer : ∀ taken, snap = some taken → taken.cycles ≤ v.art) :
    Latched snap v.sampling.fresh v.line.capture v.latch := by
  have looked : v.latch.sampling = ⟨v.sampling.taken ++ [v.sampling.fresh], []⟩ := by
    simp [InputView.latch, InputView.sampling, CaptureLine.readEffect, enabled.counting.1,
      Sampling.of_append, Sampling.next]
  have nothing {snapshot : Option SystemTimeSnapshot}
      (now : ∀ taken, snapshot = some taken → taken.cycles ≤ v.art) : Precedes snapshot v.latch := by
    intro taken present
    refine ⟨now taken present, ?_⟩
    simp [looked]
  obtain ⟨done, all, processed⟩ := enabled.tracked.processed
  refine ⟨⟨⟨enabled.tracked.steady, ⟨done, ?_, processed⟩, ?_⟩,
    nothing fun taken present => (enabled.precedes taken present).1, enabled.timely⟩, rfl,
    enabled.counting.2, enabled.tracked.latest, fun taken present =>
      (enabled.precedes taken present).2, ⟨enabled.counting.1, ?_⟩, nothing newer⟩
  · rw [looked, all, List.append_nil]
  · simp [looked]
  · rw [looked]
    simp [InputView.latch, CaptureLine.readEffect]

/-- Nothing has come: the batch needs no event. -/
theorem Latched.unseen (now : Latched snap batch cap v)
    (same : cap.eventCount = v.block.lastEventCount) :
    Enabled { v with block := withSnapshot snap v.block } := by
  have none : (batch.length : BitVec 64) = 0 := by
    have seen := now.seen
    rw [same] at seen
    exact left_eq_add.mp seen
  obtain ⟨done, all, processed⟩ := now.tracked.processed
  have nothing : v.processed = (reports (done ++ [batch])).map natural := by
    rw [reports_append, report_unseen none, processed]
    simp
  have counting := now.counting
  rw [same] at counting
  exact ⟨⟨⟨now.tracked.steady, ⟨done ++ [batch], by rw [List.append_nil]; exact all, nothing⟩,
    now.tracked.latest⟩, now.newer, now.timely⟩, counting⟩

/-- Captures have come: the last of them is on its way out. -/
theorem Latched.deliver (now : Latched snap batch cap v)
    (moved : cap.eventCount ≠ v.block.lastEventCount) :
    report batch = some (cap.artCycles, cap.eventCount - v.block.lastEventCount) ∧
      Delivering snap [batch] cap { v with block := withCount cap.eventCount v.block } := by
  have count : cap.eventCount - v.block.lastEventCount = (batch.length : BitVec 64) := by
    rw [now.seen, add_sub_cancel_left]
  have some_ : (batch.length : BitVec 64) ≠ 0 := by
    rw [← count]
    exact sub_ne_zero.mpr moved
  have last := List.getLast?_eq_some_getLast (seen_not_empty some_)
  constructor
  · rw [report_seen some_ last, count, now.last _ last]
  · refine ⟨now.toBase.store now.precedes, now.counting, ?_, now.newer⟩
    intro taken present
    rw [now.last _ last]
    exact now.older taken present _ (List.getLast_mem _)

/-- A batch that has been processed. -/
theorem Delivering.process (delivering : Delivering snap [batch] cap v) {delta : BitVec 64}
    (reported : report batch = some (cap.artCycles, delta)) :
    Delivering snap [] cap
      { v with processed := v.processed ++ [(cap.artCycles.toNat, delta.toNat)] } := by
  obtain ⟨done, all, processed⟩ := delivering.tracked.processed
  have more : v.processed ++ [(cap.artCycles.toNat, delta.toNat)] =
      (reports (done ++ [batch])).map natural := by
    rw [reports_append, reported, processed]
    simp [natural]
  exact ⟨⟨⟨delivering.tracked.steady, ⟨done ++ [batch], by rw [List.append_nil]; exact all, more⟩,
    delivering.tracked.latest⟩, delivering.precedes, delivering.timely⟩, delivering.counting,
    delivering.timed, delivering.newer⟩

theorem triple_deliver {delta : BitVec 64} (reported : report batch = some (cap.artCycles, delta)) :
    Triple pollingSem (fun m => Latched snap batch cap (m.view index) ∧
        cap.eventCount ≠ (m.view index).block.lastEventCount)
      (deliverCapture index cap delta)
      fun _ m => Delivering snap [] cap (m.view index) := by
  have counted : Triple pollingSem (fun m => Latched snap batch cap (m.view index) ∧
        cap.eventCount ≠ (m.view index).block.lastEventCount)
      (storeInput index (withCount cap.eventCount))
      fun _ m => Delivering snap [batch] cap (m.view index) := by
    refine Triple.input (.store index _) (fun _ v => Delivering snap [batch] cap v)
      (enduring_latched.and (enduring_block fun block => cap.eventCount ≠ block.lastEventCount))
      (fun _ => enduring_delivering) ?_
    rintro v reply w ⟨now, moved⟩ step
    simp only [InputView.Step, if_pos] at step
    rw [step]
    exact (now.deliver moved).2
  refine counted.bind fun _ => ?_
  refine Triple.bind (keeps_quiet enduring_delivering .pins fun _ _ _ step => step) fun pins => ?_
  refine Triple.bind (keeps_emit_event _) fun _ => ?_
  refine Triple.bind ?_ fun _ => keeps_pps_emit
  refine Triple.input (.process _) (fun _ v => Delivering snap [] cap v) enduring_delivering
    (fun _ => enduring_delivering) ?_
  intro v reply w delivering step
  simp only [InputView.Step, if_pos] at step
  rw [step]
  exact delivering.process reported

/-- The snapshot, if there is one, is of the past. -/
def Past (snap : Option SystemTimeSnapshot) (v : InputView) : Prop :=
  ∀ taken, snap = some taken → taken.cycles ≤ v.art

theorem enduring_past (snap : Option SystemTimeSnapshot) : Enduring (Past snap) := by
  intro v w moves past taken present
  have before := past taken present
  cases moves with
  | tick art artInRange later => exact before.trans later
  | captured enabled => exact before

theorem triple_take_crosststamp :
    Triple pollingSem (fun m => Enabled (m.view index)) takeCrosststamp fun snap m =>
      Enabled (m.view index) ∧ Past snap (m.view index) := by
  have enduring (snap : Option SystemTimeSnapshot) : Enduring fun v => Enabled v ∧ Past snap v :=
    enduring_enabled.and (enduring_past snap)
  have read : Triple pollingSem (fun m => Enabled (m.view index)) getSetting
      fun (setting : PollSetting) m =>
        Enabled (m.view index) ∧ Past (some ⟨setting.art⟩) (m.view index) := by
    refine Triple.input .setting
      (fun (setting : PollSetting) v => Enabled v ∧ Past (some ⟨setting.art⟩) v) enduring_enabled
      (fun _ => enduring _) ?_
    rintro v reply w enabled ⟨same, art⟩
    rw [same]
    refine ⟨enabled, fun taken present => ?_⟩
    rw [← Option.some.inj present, ← art]
  refine read.bind fun setting => ?_
  split
  · exact Triple.pure (enduring _).stable fun _ holds => holds
  · refine Triple.pure (enduring _).stable fun _ holds => ⟨holds.1, fun taken absent => ?_⟩
    cases absent

theorem triple_poll_input :
    Triple pollingSem (fun m => Enabled (m.view index)) (pollInput index)
      fun _ m => Enabled (m.view index) := by
  refine triple_take_crosststamp.bind fun snap => ?_
  have read : Triple pollingSem
      (fun m => Enabled (m.view index) ∧ Past snap (m.view index)) (readCapture index)
      fun cap m => ∃ batch, Latched snap batch cap (m.view index) := by
    refine triple_read_capture (fun cap v => ∃ batch, Latched snap batch cap v)
      (enduring_enabled.and (enduring_past snap)) ?_ ?_ ?_
    · rintro cap v w moves ⟨batch, now⟩
      exact ⟨batch, enduring_latched v w moves now⟩
    · rintro cap v ⟨batch, now⟩
      exact now.latched
    · rintro v ⟨enabled, past⟩
      exact ⟨_, enabled.latch past⟩
  refine read.bind fun cap => Triple.named fun batch => ?_
  have loaded : Triple pollingSem (fun m => Latched snap batch cap (m.view index))
      (loadInput index) fun (block : InputMmioBlock) m =>
        Latched snap batch cap (m.view index) ∧ block = (m.view index).block := by
    refine Triple.input (.load index)
      (fun (reply : InputMmioBlock) v => Latched snap batch cap v ∧ reply = v.block)
      enduring_latched (fun reply => enduring_latched.and (enduring_block fun block => reply = block))
      ?_
    rintro v reply w now ⟨same, answer⟩
    rw [same]
    exact ⟨now, answer rfl⟩
  refine loaded.bind fun block => ?_
  have enduring : Enduring fun v => Latched snap batch cap v ∧ block = v.block :=
    enduring_latched.and (enduring_block fun now => block = now)
  split
  · rename_i same
    refine Triple.input (.store index _) (fun _ v => Enabled v) enduring
      (fun _ => enduring_enabled) ?_
    rintro v reply w ⟨now, here⟩ step
    simp only [InputView.Step, if_pos] at step
    rw [step]
    exact now.unseen (here ▸ same)
  · rename_i moved
    have delivered : Triple pollingSem
        (fun m => Latched snap batch cap (m.view index) ∧ block = (m.view index).block)
        (deliverCapture index cap (cap.eventCount - block.lastEventCount))
        fun _ m => Delivering snap [] cap (m.view index) := by
      rintro m ⟨now, here⟩
      rw [here] at moved ⊢
      exact triple_deliver (now.deliver moved).1 m ⟨now, moved⟩
    refine delivered.bind fun _ => ?_
    refine Triple.input (.store index _) (fun _ v => Enabled v) enduring_delivering
      (fun _ => enduring_enabled) ?_
    intro v reply w delivering step
    simp only [InputView.Step, if_pos] at step
    rw [step]
    exact ⟨delivering.toBase.store delivering.newer, delivering.counting⟩

end polling

section blocks

variable {index other : BlockNumber}

/-- An input between two runs of the poll work. -/
structure Settled (v : InputView) : Prop extends Sampled v.block.inputApplied v

theorem enduring_settled : Enduring Settled := by
  intro v w moves settled
  have sampled := enduring_sampled v.block.inputApplied v w moves settled.toSampled
  refine ⟨?_⟩
  cases moves <;> exact sampled

theorem triple_poll_block :
    Triple pollingSem (fun m => Settled (m.view index)) (pollBlock index)
      fun _ m => Settled (m.view index) := by
  have loaded : Triple pollingSem (fun m => Settled (m.view index)) (loadInput index)
      fun (block : InputMmioBlock) m =>
        Settled (m.view index) ∧ (m.view index).block.inputApplied = block.inputApplied := by
    refine Triple.input (.load index)
      (fun (reply : InputMmioBlock) v => Settled v ∧ v.block.inputApplied = reply.inputApplied)
      enduring_settled (fun reply => enduring_settled.and
        (enduring_block fun block => block.inputApplied = reply.inputApplied)) ?_
    rintro v reply w settled ⟨same, answer⟩
    rw [same, answer rfl]
    exact ⟨settled, rfl⟩
  refine loaded.bind fun block => ?_
  have enduring : Enduring fun v => Settled v ∧ v.block.inputApplied = block.inputApplied :=
    enduring_settled.and (enduring_block fun now => now.inputApplied = block.inputApplied)
  split
  · exact Triple.pure enduring.stable fun _ holds => holds.1
  refine Triple.bind (keeps_quiet enduring (.atomicRead index) fun _ _ _ step => step)
    fun desired => ?_
  have reconciled : Triple pollingSem
      (fun m => Settled (m.view index) ∧
        (m.view index).block.inputApplied = block.inputApplied)
      (reconcileInput index desired block.inputApplied)
      fun _ m => Sampled desired (m.view index) ∧ (m.view index).block.inputApplied = desired :=
    triple_reconcile.conseq (fun _ holds => ⟨holds.2 ▸ holds.1.toSampled, holds.2⟩)
      fun _ _ holds => holds
  refine reconciled.bind fun _ => ?_
  have enduringNow : Enduring fun v => Sampled desired v ∧ v.block.inputApplied = desired :=
    (enduring_sampled desired).and (enduring_block fun now => now.inputApplied = desired)
  split
  · refine Triple.pure enduringNow.stable fun m holds => ⟨?_⟩
    rw [holds.2]
    exact holds.1
  · rename_i active
    have on : inputDesiredState desired = .on := by
      cases state : inputDesiredState desired with
      | off => exact absurd state active
      | on => rfl
    have polled : Triple pollingSem (fun m => Sampled desired (m.view index) ∧
        (m.view index).block.inputApplied = desired) (pollInput index)
        fun _ m => Enabled (m.view index) :=
      triple_poll_input.conseq (fun _ holds => ⟨holds.1.toBase, holds.1.counting on⟩)
        fun _ _ holds => holds
    refine polled.bind fun _ => ?_
    exact Triple.pure enduring_enabled.stable fun _ enabled =>
      ⟨enabled.toBase, fun _ => enabled.counting⟩

theorem Settled.unconverted {v : InputView} (settled : Settled v) : Settled v.unconverted :=
  ⟨⟨⟨⟨settled.tracked.steady, settled.tracked.processed, settled.tracked.latest⟩, settled.precedes,
    fun _ member => absurd member List.not_mem_nil⟩, settled.counting⟩⟩

theorem Settled.converted {v : InputView} (settled : Settled v.unconverted) (timely : Timely v) :
    Settled v :=
  ⟨⟨⟨⟨settled.tracked.steady, settled.tracked.processed, settled.tracked.latest⟩, settled.precedes,
    timely⟩, settled.counting⟩⟩

theorem enduring_unconverted : Enduring fun v => Settled v.unconverted := by
  intro v w moves settled
  refine enduring_settled v.unconverted w.unconverted ?_ settled
  cases moves with
  | tick art artInRange later => exact .tick art artInRange later
  | captured enabled => exact .captured enabled

/-- Every input but one is settled, conversions apart. -/
def OthersSettled (index : BlockNumber) (m : PollMachine) : Prop :=
  ∀ other, index ≠ other → Settled (m.view other).unconverted

theorem triple_poll_apart :
    Triple pollingSem (OthersSettled index) (pollBlock index) fun _ => OthersSettled index := by
  intro m settled
  refine wp_uses poll_block_at ?_ ?_ settled
  · intro op s reply t turn step before other different
    rw [apart_step different turn (view_step step)]
    exact before other different
  · intro s t step before other different
    exact enduring_unconverted.stable s t step (before other different)

/-- Every input is settled. -/
def AllSettled (m : PollMachine) : Prop := ∀ index, Settled (m.view index)

theorem all_settled_stable : Stable pollingSem AllSettled :=
  fun s t step before index => enduring_settled.stable s t step (before index)

theorem triple_poll_all :
    Triple pollingSem AllSettled (pollBlock index) fun _ => AllSettled := by
  intro m settled
  have own := triple_poll_block m (settled index)
  have others : OthersSettled index m := fun other _ => (settled other).unconverted
  have apart := triple_poll_apart m others
  refine wp_mono ?_ (wp_and own apart)
  rintro value t ⟨here, others⟩ other
  by_cases same : index = other
  · exact same ▸ here
  · exact (others other same).converted here.timely

theorem triple_poll_work : Triple pollingSem AllSettled pollWork fun _ => AllSettled := by
  refine triple_poll_all.bind fun first => triple_poll_all.bind fun second => ?_
  split
  · refine Triple.call all_settled_stable (fun _ => all_settled_stable) ?_
    intro s reply t settled step
    cases step
    exact settled
  · exact Triple.pure all_settled_stable fun _ settled => settled

end blocks

/-- A poll that has not run: nothing is applied, and nothing has been seen of
the hardware. -/
structure Loaded (m : PollMachine) : Prop where
  applied : ∀ index, (m.block index).inputApplied = 0
  snapshot : ∀ index, (m.block index).crosststampSnapshot = none
  unseen : ∀ index, (m.line index).happenings = []
  steady : ∀ index, (m.line index).restarts = false
  processed : m.processed = []
  conversions : m.conversions = []

theorem Loaded.settled {m : PollMachine} (loaded : Loaded m) : AllSettled m := by
  intro index
  have nothing : (m.view index).sampling = ⟨[], []⟩ := by
    simp [InputView.sampling, PollMachine.view, loaded.unseen index, Sampling.of]
  refine ⟨⟨⟨⟨loaded.steady index, ⟨[], ?_, ?_⟩, ?_⟩, ?_, ?_⟩, ?_⟩⟩
  · rw [nothing]
    rfl
  · simp [PollMachine.view, processedOf, loaded.processed, reports]
  · simp [nothing]
  · intro taken present
    simp [PollMachine.view, loaded.snapshot index] at present
  · intro conversion member
    simp [PollMachine.view, loaded.conversions] at member
  · intro on
    have off : inputDesiredState (m.view index).block.inputApplied = .off := by
      simp [PollMachine.view, loaded.applied index, inputDesiredState]
    rw [off] at on
    cases on

theorem settled_reaches {first last : PollMachine} (loaded : Loaded first)
    (reaches : poller.Reaches ⟨first, none⟩ ⟨last, none⟩) : AllSettled last := by
  have byRun (s t : PollMachine) (start : poller.start s t) (settled : AllSettled s) :
      wp pollingSem pollWork (poller.Owes AllSettled) t := by
    obtain ⟨-, -, rfl⟩ := start
    refine wp_mono ?_ (triple_poll_work s.beginRun settled)
    rintro _ u done w rfl
    exact done
  have holds : poller.Holds AllSettled ⟨last, none⟩ :=
    Worker.holds_reaches (fun s t step => all_settled_stable s t step) byRun reaches loaded.settled
  exact holds

/-- Words add up as numbers do, short of the wrap. -/
theorem sum_natural (words : List (BitVec 64)) :
    (words.map BitVec.toNat).sum ≡ words.sum.toNat [MOD 2 ^ 64] := by
  induction words with
  | nil => rfl
  | cons word words ih =>
      rw [List.map_cons, List.sum_cons, List.sum_cons, BitVec.toNat_add]
      exact (Nat.ModEq.add_left _ ih).trans (Nat.mod_modEq _ _).symm

/-- The captures of an input, divided by the looks that took them. -/
def takenOf (index : BlockNumber) (m : PollMachine) : List (List Art) :=
  (m.view index).sampling.taken

/-- The poll work samples its inputs: of the captures between two looks it
processes the last, with the number of them, in order and none twice. -/
theorem inputs_sampled_in_order (first last : PollMachine) (loaded : Loaded first)
    (reaches : poller.Reaches ⟨first, none⟩ ⟨last, none⟩) (index : BlockNumber) :
    processedOf index last = (reports (takenOf index last)).map natural ∧
    ((processedOf index last).map Prod.fst).Sublist
      ((arrivals (last.line index).happenings).map BitVec.toNat) ∧
    ((processedOf index last).map Prod.snd).sum ≡ (takenOf index last).flatten.length
      [MOD 2 ^ 64] := by
  have settled := settled_reaches loaded reaches index
  obtain ⟨done, all, processed⟩ := settled.tracked.processed
  have same : processedOf index last = (reports (takenOf index last)).map natural := by
    rw [takenOf, all, List.append_nil]
    exact processed
  refine ⟨same, ?_, ?_⟩
  · have arts : (processedOf index last).map Prod.fst =
        ((reports (takenOf index last) : List (Art × BitVec 64)).map Prod.fst).map
          BitVec.toNat := by
      rw [same, List.map_map, List.map_map]
      rfl
    rw [arts]
    refine List.Sublist.map _ ((reports_sublist _).trans ?_)
    exact (List.sublist_append_left _ _).trans (taken_sublist (last.line index).happenings)
  · have counts : (processedOf index last).map Prod.snd =
        ((reports (takenOf index last) : List (Art × BitVec 64)).map Prod.snd).map
          BitVec.toNat := by
      rw [same, List.map_map, List.map_map]
      rfl
    have sum := sum_natural
      ((reports (takenOf index last) : List (Art × BitVec 64)).map Prod.snd)
    rw [← counts, reports_sum, BitVec.natCast_eq_ofNat, BitVec.toNat_ofNat] at sum
    exact sum.trans (Nat.mod_modEq _ _)

section traces

theorem loaded_inputs : Loaded (loadedInputs false) where
  applied _ := rfl
  snapshot _ := rfl
  unseen _ := rfl
  steady _ := rfl
  processed := rfl
  conversions := rfl

/-- The first input is asked for and reconciled, and captures two edges. -/
def twoEdges : List (Worker.Traced PollEvent) :=
  [.act (.request firstBlock 0 true), .run, .act (.captured firstBlock),
    .act (.setting (steadySetting 1000000000 billion_in_range)), .act (.captured firstBlock), .run]

def sampledTwice : PollMachine := pollTracer.after 100 (loadedInputs false) twoEdges

theorem sampled_twice_reaches : poller.Reaches ⟨loadedInputs false, none⟩ ⟨sampledTwice, none⟩ :=
  pollTracer.after_reaches 100 (loadedInputs false) twoEdges (by decide +kernel)

theorem inputs_sampled_in_order_two_edges :
    (reports (takenOf firstBlock sampledTwice)).map natural = [(1000000000, 2)] := by
  have sampled := inputs_sampled_in_order _ _ loaded_inputs sampled_twice_reaches firstBlock
  rw [← sampled.1]
  decide +kernel

/-- On hardware whose counter begins again when the block is enabled, the first
look after that reports a capture that has been reported before. -/
theorem restarted_counter_repeats :
    ∃ last, poller.Reaches ⟨loadedInputs true, none⟩ ⟨last, none⟩ ∧
      processedOf firstBlock last = [(0, 1), (0, 2 ^ 64 - 1)] ∧
      arrivals (last.line firstBlock).happenings = [0] := by
  have reaches := pollTracer.after_reaches 100 (loadedInputs true)
    [.act (.request firstBlock 0 true), .run, .act (.captured firstBlock), .run,
      .act (.request firstBlock 0 false), .run, .act (.request firstBlock 0 true), .run]
    (by decide +kernel)
  exact ⟨_, reaches, by decide +kernel, by decide +kernel⟩

end traces

/-- What a capture is converted to realtime with was taken before it. -/
theorem histories_precede_captures (first last : PollMachine) (loaded : Loaded first)
    (reaches : poller.Reaches ⟨first, none⟩ ⟨last, none⟩) :
    ∀ conversion ∈ last.conversions, ∀ taken, conversion.history = some taken →
      taken.cycles ≤ conversion.art :=
  (settled_reaches loaded reaches firstBlock).timely

theorem histories_precede_captures_two_edges :
    sampledTwice.conversions = [⟨some ⟨0⟩, 1000000000⟩] ∧
      ∀ conversion ∈ sampledTwice.conversions, ∀ taken, conversion.history = some taken →
        taken.cycles ≤ conversion.art :=
  ⟨by decide +kernel, histories_precede_captures _ _ loaded_inputs sampled_twice_reaches⟩

end Tgpio.Inputs

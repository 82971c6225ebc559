import Tgpio.StatusReader
import Mathlib.Data.List.Infix

/-!
# The dashboard

The cards of the text user interface look up fields of the status file and show
numbers of nanoseconds with their digits in threes. They show what the driver has.
-/

namespace Tgpio

open Text

set_option autoImplicit false

section cards

/-- Shown where there is no value. -/
def dash : List Char := ['—']

/-- `_fmt_ns` -/
def fmtNs (value : Option (List Char)) : List Char :=
  match value with
  | none => dash
  | some text =>
    if text.isEmpty then dash
    else match readSigned (strip isSpace (text.rdropWhile fun symbol => symbol = 'n' || symbol = 's')) with
      | some number => grouped number ++ " ns".toList
      | none => text

/-- `dict.get` of a field. -/
def get (fields : Text.Record Char) (key : String) : Option (List Char) :=
  fields.values.get key.toList

def getOr (fields : Text.Record Char) (key fallback : String) : List Char :=
  (get fields key).getD fallback.toList

/-- The values on the card of a block, in the order they are shown in. -/
inductive BlockCard where
  | unused
  | input (capture events phase interval min max mean n : List Char)
  | output (running : Bool) (mode period periodError high low phaseError level piv : List Char)
  | other (role summary : List Char)
  deriving DecidableEq

/-- `needle in text` -/
def contains (needle : String) (text : List Char) : Bool :=
  text.tails.any needle.toList.isPrefixOf

def BlockStatus.card (block : BlockStatus) : BlockCard :=
  let f := block.fields
  if block.role = "input".toList then
    .input (getOr f "capture" "?") (getOr f "events" "0") (fmtNs (get f "phase"))
      (fmtNs (get f "interval_last")) (fmtNs (get f "min")) (fmtNs (get f "max"))
      (fmtNs (get f "mean")) (getOr f "n" "0")
  else if block.role = "output".toList then
    .output (contains "running" block.summary) (getOr f "mode" "?") (fmtNs (get f "period"))
      (getOr f "period_error" "—") (fmtNs (get f "high_time")) (fmtNs (get f "low_time"))
      (getOr f "phase_error" "—") (getOr f "tracked_level" "?") (getOr f "armed_piv" "—")
  else .other block.role block.summary

/-- `BlockCard.show` -/
def DriverStatus.blockCard (status : DriverStatus) (index : Nat) : BlockCard :=
  match status.blocks.find? fun block => block.index = index with
  | none => .unused
  | some block => block.card

/-- `TdcCard.show`: nothing while the measurement is off. -/
inductive TdcCard where
  | off
  | waiting
  | measuring (start stop pending count lost last lastCycles min max mean : List Char)
  deriving DecidableEq

def DriverStatus.tdcCard (status : DriverStatus) (tdcParam : List Char) : TdcCard :=
  let t := status.tdc
  if tdcParam ≠ "Y".toList then .off
  else if t.values.isEmpty && t.flags.isEmpty then .waiting
  else .measuring (getOr t "start" "?") (getOr t "stop" "?") (getOr t "pending" "?")
    (getOr t "count" "0") (getOr t "lost" "0") (fmtNs (get t "last"))
    (getOr t "last_cycles" "—") (fmtNs (get t "min")) (fmtNs (get t "max")) (fmtNs (get t "mean"))

/-- The values that `ClockCard.show` takes from the status file. -/
structure ClockCard where
  mode : List Char
  art : List Char
  baseClock : List Char
  activity : List Char
  verbose : List Char
  counters : List Char
  deriving DecidableEq

def DriverStatus.globalOr (status : DriverStatus) (key fallback : String) : List Char :=
  (status.globals.get key.toList).getD fallback.toList

def DriverStatus.clockCard (status : DriverStatus) : ClockCard where
  mode := status.globalOr "clock_mode" "?"
  art := status.globalOr "art_frequency" "?"
  baseClock := status.globalOr "art_base_clock" "?"
  activity := status.globalOr "activity_log" "?"
  verbose := status.globalOr "verbose" "?"
  counters := status.globalOr "counters" "—"

end cards

section shown

/-- A number of nanoseconds, where there is one. -/
def shownNs : Option Int → List Char
  | none => dash
  | some value => grouped value ++ " ns".toList

def shownOr (fallback : List Char) : Option (List Char) → List Char
  | none => fallback
  | some text => text

namespace StatusBlock

variable (block : StatusBlock)

def phaseNs (params : Params) : Option Int :=
  if params.clockUsesModel ∧ block.input.inputHavePrev then some block.input.inputPhaseNs else none

/-- Count, last value, minimum, maximum and mean of the intervals. -/
def figures : Option (Nat × Int × Int × Int × Int) := statistics block.input.intervals

def inputCard (params : Params) : BlockCard :=
  .input (onOff block.capturing).toList (decimal block.lastEventCount.toNat)
    (shownNs (block.phaseNs params)) (shownNs (block.figures.map (·.2.1)))
    (shownNs (block.figures.map (·.2.2.1))) (shownNs (block.figures.map (·.2.2.2.1)))
    (shownNs (block.figures.map (·.2.2.2.2)))
    (decimal ((block.figures.map (·.1)).getD 0))

/-- The rounding of the period, while the output is rounded as a whole. -/
def quantization (params : Params) (clocks : Clocks) : Option OutputQuantization :=
  if block.Rounded then
    (outputQuantizationGet params clocks block.desired.periodNs block.highTimeNs).toOption
  else none

/-- The level the hardware is taken to have, while it is armed. -/
def level : Option Bool :=
  if block.Rounded ∧ block.output.outputHwPiv ≠ 0 then some block.output.outputHwFlopHigh else none

/-- The measured phase, while the hardware is armed. -/
def measured : Option HwPhase :=
  if block.Rounded ∧ block.output.outputHwPiv ≠ 0 then block.phase.toOption else none

def outputCard (params : Params) (clocks : Clocks) : BlockCard :=
  .output block.running (outputModeName block.desired.mode).toList
    (shownNs (some block.desired.periodNs))
    (shownOr dash ((block.quantization params clocks).map fun quant =>
      nanoseconds quant.periodErrorNs))
    (shownNs (some block.highTimeNs)) (shownNs (some block.lowTimeNs))
    (shownOr dash (block.measured.map fun phase => nanoseconds phase.errorNs))
    (shownOr ['?'] (block.level.map fun high => (highLow high).toList))
    (shownOr dash (block.measured.map fun _ => decimal block.output.outputHwPiv))

def card (params : Params) (clocks : Clocks) : BlockCard :=
  match block.mode with
  | .input => block.inputCard params
  | .output => block.outputCard params clocks
  | .off => .other "off".toList []

end StatusBlock

namespace StatusDevice

variable (device : StatusDevice)

/-- Count, last value, minimum, maximum and mean of the durations. -/
def durations : Option (Nat × Int × Int × Int × Int) := statistics device.pairing.durations

def tdcCard : TdcCard :=
  if device.tdc then
    .measuring ("block".toList ++ decimal (device.tdcStart.toNat % 2))
      ("block".toList ++ decimal (1 - device.tdcStart.toNat % 2))
      (decimal device.pairing.pending.toNat) (decimal ((device.durations.map (·.1)).getD 0))
      (decimal device.pairing.lost) (shownNs (device.durations.map (·.2.1)))
      (shownOr dash (device.durations.map fun _ => decimal device.pairing.lastCycles))
      (shownNs (device.durations.map (·.2.2.1))) (shownNs (device.durations.map (·.2.2.2.1)))
      (shownNs (device.durations.map (·.2.2.2.2)))
  else .off

def clockCard : ClockCard where
  mode := (clockModeName device.params.clockMode).toList
  art := decimal device.params.artFrequency ++ " Hz".toList
  baseClock := (presence device.clocks.clocksourceHasBase).toList
  activity := (onOff (device.activityLog || device.verbose)).toList
  verbose := (onOff device.verbose).toList
  counters := "events=".toList ++ Text.signed device.events ++ " fallbacks=".toList ++
    Text.signed device.fallbacks

/-- The boolean parameter as sysfs prints it. -/
def tdcParam : List Char := if device.tdc then ['Y'] else ['N']

end StatusDevice

end shown

section lookups

theorem get_nil (key : String) : get (recordOf []) key = none := rfl

theorem get_flag (word key : String) (rest : List (Piece Char)) :
    get (recordOf (flag word :: rest)) key = get (recordOf rest) key := rfl

theorem get_field (name key : String) (value : List Char) (rest : List (Piece Char)) :
    get (recordOf (field name value :: rest)) key =
      if name = key then some value else get (recordOf rest) key := by
  have entry : (recordOf (field name value :: rest)).values =
      (name.toList, value) :: (recordOf rest).values := rfl
  unfold get
  rw [entry, Dict.get_cons]
  simp only [String.toList_inj]

theorem unit_off_numbers : OffNumbers fun symbol => decide (symbol = 'n') || decide (symbol = 's') where
  digits symbol digit := by
    have range := digit_range digit
    have notN : symbol ≠ 'n' := by
      rintro rfl
      exact absurd range.2 (by decide)
    have notS : symbol ≠ 's' := by
      rintro rfl
      exact absurd range.2 (by decide)
    simp [notN, notS]
  minus := by decide

theorem strip_signed (value : Int) : strip isSpace (Text.signed value) = Text.signed value := by
  have filled : Text.signed value ≠ [] := by
    cases value with
    | ofNat value => exact decimal_ne_nil value
    | negSucc value => exact List.cons_ne_nil _ _
  have word : Word isSpace (Text.signed value) := ⟨filled, unspaced_signed value⟩
  have alone : (spread ' ' [Text.signed value]).tail = Text.signed value := by simp [spread]
  rw [← alone]
  exact strip_tail_spread (by simpa using word)

/-- The number is read, its unit left out. -/
theorem fmt_ns (value : Int) : fmtNs (some (nanoseconds value)) = shownNs (some value) := by
  have unit : (nanoseconds value).rdropWhile
      (fun symbol => decide (symbol = 'n') || decide (symbol = 's')) = Text.signed value :=
    rdrop_unit unit_off_numbers value (List.all_eq_true.mp (by decide))
  have filled : (nanoseconds value).isEmpty = false := by simp [nanoseconds]
  unfold fmtNs
  simp only [filled, unit, strip_signed, read_signed]
  rfl

example : fmtNs (some "-1000000024ns".toList) = "-1,000,000,024 ns".toList := by decide

theorem fmt_none : fmtNs none = shownNs none := rfl

end lookups

section dashboard

variable (block : StatusBlock) (params : Params) (clocks : Clocks)

theorem letter_off_numbers : OffNumbers fun symbol => decide (symbol = 'u') where
  digits symbol digit := by
    have range := digit_range digit
    have other : symbol ≠ 'u' := by
      rintro rfl
      exact absurd range.2 (by decide)
    simp [other]
  minus := by decide

/-- There is no `u` on the line of a stopped output. -/
theorem stopped_line (stopped : block.running = false) :
    Clear (fun symbol => decide (symbol = 'u')) (inLine (block.outputPieces params clocks)) := by
  have plain : ¬block.Rounded := fun rounded =>
    Bool.false_ne_true (stopped.symm.trans rounded.1)
  have number (key : String) (letters : Clear (fun symbol => decide (symbol = 'u')) key.toList)
      (value : Int) : Clear (fun symbol => decide (symbol = 'u'))
        (Piece.text '=' (field key (nanoseconds value))) :=
    Clear.append letters (Clear.cons (by decide)
      ((letter_off_numbers.signed value).append (clear_of_all (by decide))))
  unfold inLine StatusBlock.outputPieces
  rw [if_neg plain, stopped, List.append_nil]
  refine clear_spread (by decide) fun text member => ?_
  simp only [List.map_cons, List.map_nil, List.mem_cons, List.not_mem_nil, or_false] at member
  rcases member with rfl | rfl | rfl | rfl | rfl
  · exact clear_of_all (by decide)
  · exact clear_of_all (by cases block.desired.mode <;> decide)
  · exact number "period" (clear_of_all (by decide)) _
  · exact number "high_time" (clear_of_all (by decide)) _
  · exact number "low_time" (clear_of_all (by decide)) _

/-- The summary of an output tells whether it runs. -/
theorem summary_running :
    contains "running" (inLine (block.outputPieces params clocks)).tail = block.running := by
  unfold contains
  cases state : block.running with
  | true =>
      have starts : "running".toList <+: (inLine (block.outputPieces params clocks)).tail := by
        unfold StatusBlock.outputPieces
        rw [state]
        exact ⟨_, rfl⟩
      exact List.any_eq_true.mpr
        ⟨_, (List.mem_tails _ _).mpr (List.suffix_refl _), List.isPrefixOf_iff_prefix.mpr starts⟩
  | false =>
      refine List.any_eq_false.mpr fun rest suffix starts => ?_
      have within := (List.isPrefixOf_iff_prefix.mp starts).subset
      have letter : 'u' ∈ inLine (block.outputPieces params clocks) :=
        List.mem_of_mem_tail (((List.mem_tails _ _).mp suffix).subset (within (by decide)))
      have clear := stopped_line block params clocks state 'u' letter
      exact absurd clear (by decide)

/-- Whatever is missing from the line is missing on the card. -/
theorem input_card (index : Nat) (summary : List Char) :
    BlockStatus.card ⟨index, "input".toList, summary, recordOf (block.inputPieces params)⟩ =
      block.inputCard params := by
  unfold BlockStatus.card StatusBlock.inputCard StatusBlock.phaseNs StatusBlock.figures
    StatusBlock.inputPieces StatusBlock.phasePieces StatusBlock.intervalPieces
  have zero : decimal 0 = "0".toList := by decide
  by_cases sighted : params.clockUsesModel ∧ block.input.inputHavePrev <;>
    cases statistics block.input.intervals <;>
    simp [sighted, getOr, get_field, get_nil, fmt_ns, fmt_none, zero]

theorem output_card (index : Nat) (summary : List Char)
    (told : contains "running" summary = block.running) :
    BlockStatus.card ⟨index, "output".toList, summary, recordOf (block.outputPieces params clocks)⟩ =
      block.outputCard params clocks := by
  unfold BlockStatus.card StatusBlock.outputCard StatusBlock.quantization StatusBlock.level
    StatusBlock.measured StatusBlock.outputPieces
  by_cases rounded : block.Rounded
  · unfold StatusBlock.quantizationPieces StatusBlock.armedPieces StatusBlock.measuredPieces
    by_cases armed : block.output.outputHwPiv ≠ 0 <;>
      cases outputQuantizationGet params clocks block.desired.periodNs block.highTimeNs <;>
      cases block.phase <;>
      simp [rounded, armed, getOr, get_flag, get_field, get_nil, fmt_ns, told, shownOr,
        Except.toOption, dash]
  · simp [rounded, getOr, get_flag, get_field, get_nil, fmt_ns, told, shownOr, dash]

variable (device : StatusDevice)

theorem read_card (index : Fin 2) :
    (device.readBlock index).card =
      (device.blocks index).card device.params device.clocks := by
  unfold StatusDevice.readBlock StatusBlock.card StatusBlock.pieces
  cases (device.blocks index).mode with
  | input => exact input_card _ _ _ _
  | output => exact output_card _ _ _ _ _ (summary_running _ _ _)
  | off => rfl

theorem block_found (index : Fin 2) :
    device.read.blocks.find? (fun block => block.index = index.val) =
      some (device.readBlock index) := by
  obtain rfl | rfl : index = 0 ∨ index = 1 := by omega
  · rfl
  · rfl

theorem tdc_card : device.read.tdcCard device.tdcParam = device.tdcCard := by
  unfold DriverStatus.tdcCard StatusDevice.tdcCard StatusDevice.read StatusDevice.tdcParam
    StatusDevice.durations
  by_cases measuring : device.tdc
  · have filled : (recordOf device.tdcPieces).values.isEmpty = false := rfl
    have zero : decimal 0 = "0".toList := by decide
    simp only [measuring, if_true, filled]
    unfold StatusDevice.tdcPieces StatusDevice.durationPieces
    cases statistics device.pairing.durations <;>
      simp [getOr, get_field, get_nil, fmt_ns, fmt_none, zero, shownOr, dash]
  · simp [measuring]

theorem global_shown {line : String × List Char}
    (printed : line ∈ device.firstLines ++ [("counters", (inLine device.counterPieces).tail)])
    (fallback : String) : device.read.globalOr line.1 fallback = line.2 := by
  have distinct : (device.read.globals.map Prod.fst).Nodup := by
    unfold StatusDevice.read
    rw [List.map_map]
    exact distinct_names device
  have found := Dict.get_mem distinct (List.mem_map_of_mem printed)
  exact congrArg (·.getD fallback.toList) found

theorem clock_card : device.read.clockCard = device.clockCard := by
  have counters : (inLine device.counterPieces).tail = device.clockCard.counters := by
    simp [inLine, spread, StatusDevice.counterPieces, StatusDevice.clockCard, field, Piece.text]
  have shown (key : String) (value : List Char) (printed : (key, value) ∈ device.firstLines) :
      device.read.globalOr key "?" = value :=
    global_shown device (List.mem_append_left _ printed) "?"
  have mode := shown "clock_mode" _ (List.mem_of_getElem? (i := 0) rfl)
  have art := shown "art_frequency" _ (List.mem_of_getElem? (i := 1) rfl)
  have activity := shown "activity_log" _ (List.mem_of_getElem? (i := 2) rfl)
  have verbose := shown "verbose" _ (List.mem_of_getElem? (i := 3) rfl)
  have base := shown "art_base_clock" _ (List.mem_of_getElem? (i := 4) rfl)
  have counted : device.read.globalOr "counters" "—" = (inLine device.counterPieces).tail :=
    global_shown device (List.mem_append_right _ List.mem_cons_self) "—"
  unfold DriverStatus.clockCard
  rw [mode, art, activity, verbose, base, counted, counters]
  rfl

/-- Whatever state the driver is in, the dashboard shows it as it is. -/
theorem dashboard_shows :
    (∀ index : Fin 2, (DriverStatus.status device.statusShow).blockCard index =
      (device.blocks index).card device.params device.clocks) ∧
    (DriverStatus.status device.statusShow).tdcCard device.tdcParam = device.tdcCard ∧
    (DriverStatus.status device.statusShow).clockCard = device.clockCard := by
  rw [status_reads]
  refine ⟨fun index => ?_, tdc_card device, clock_card device⟩
  unfold DriverStatus.blockCard
  rw [block_found]
  exact read_card device index

end dashboard

end Tgpio

import Tgpio.StatusText

/-!
# Reading the status file

The text user interface takes the status file apart line by line: a line of a
block by its number and mode, the line of the duration measurement, and the other
lines by name. All of it is found as it was printed.
-/

namespace Tgpio

open Text

set_option autoImplicit false

section characters

/-- `str.isspace`, for ASCII. -/
def isSpace (symbol : Char) : Bool :=
  symbol = ' ' || (9 ≤ symbol.toNat && symbol.toNat ≤ 13) ||
    (28 ≤ symbol.toNat && symbol.toNat ≤ 31)

/-- The line boundaries of `str.splitlines`, for ASCII. The text has no CR LF pairs. -/
def isBreak (symbol : Char) : Bool :=
  (10 ≤ symbol.toNat && symbol.toNat ≤ 13) || (28 ≤ symbol.toNat && symbol.toNat ≤ 30)

/-- `\w`, for ASCII. -/
def isWordChar (symbol : Char) : Bool := symbol.isAlphanum || symbol = '_'

/-- `[\w ]` -/
def isNameChar (symbol : Char) : Bool := isWordChar symbol || symbol = ' '

end characters

structure BlockStatus where
  index : Nat
  role : List Char
  summary : List Char
  fields : Text.Record Char

structure DriverStatus where
  globals : Dict (List Char) (List Char)
  blocks : List BlockStatus
  tdc : Text.Record Char

namespace DriverStatus

/-- What `_kv` makes of a text. -/
def kv (text : List Char) : Text.Record Char := keyValues isSpace '=' text

/-- `block(\d): (\w+)\s*(.*)`. No other way to match gives other groups. -/
def matchBlock (line : List Char) : Option BlockStatus :=
  if "block".toList.isPrefixOf line then
    match line.drop 5 with
    | digit :: ':' :: ' ' :: rest =>
      if digit.isDigit ∧ rest.takeWhile isWordChar ≠ [] then
        let summary := strip isSpace ((rest.dropWhile isWordChar).dropWhile isSpace)
        some ⟨digit.toNat - 48, rest.takeWhile isWordChar, summary, kv summary⟩
      else none
    | _ => none
  else none

/-- `([\w ]+): (.*)`. No name contains the colon it ends at. -/
def matchNamed (line : List Char) : Option (List Char × List Char) :=
  match line.dropWhile isNameChar with
  | ':' :: ' ' :: value =>
    if line.takeWhile isNameChar ≠ [] then some (line.takeWhile isNameChar, value) else none
  | _ => none

def readLine (status : DriverStatus) (line : List Char) : DriverStatus :=
  match matchBlock line with
  | some block => { status with blocks := status.blocks ++ [block] }
  | none =>
    if "tdc:".toList.isPrefixOf line then
      { status with tdc := kv (strip isSpace (line.drop 4)) }
    else match matchNamed line with
      | some (name, value) => { status with globals := status.globals.set name value }
      | none => status

/-- `TgpioDriver.status`, of a text that could be read. -/
def status (raw : List Char) : DriverStatus :=
  (lines isBreak raw).foldl readLine ⟨[], [], ⟨[], []⟩⟩

end DriverStatus

section printed

theorem space_off_numbers : OffNumbers isSpace where
  digits symbol digit := by
    have range := digit_range digit
    have other : symbol ≠ ' ' := by
      rintro rfl
      exact absurd range.1 (by decide)
    simp [isSpace, other]
    omega
  minus := by decide

/-- Every line boundary is a space. -/
theorem break_space (symbol : Char) (stops : isBreak symbol = true) : isSpace symbol = true := by
  simp only [isBreak, isSpace, Bool.or_eq_true, Bool.and_eq_true, decide_eq_true_eq] at stops ⊢
  omega

/-- A text that holds no blanks at all. -/
abbrev Unspaced (text : List Char) : Prop := Clear isSpace text

theorem unspaced_decimal (value : Nat) : Unspaced (decimal value) := space_off_numbers.decimal value

theorem unspaced_signed (value : Int) : Unspaced (Text.signed value) :=
  space_off_numbers.signed value

theorem unspaced_nanoseconds (value : Int) : Unspaced (nanoseconds value) :=
  (unspaced_signed value).append (clear_of_all (by decide))

theorem unspaced_word (word : String) (clear : word.toList.all fun symbol => !isSpace symbol) :
    Unspaced word.toList := clear_of_all clear

/-- A key or a flag of the driver can be told from blanks and from the mark. -/
def cleanKey (key : String) : Bool :=
  key.toList.all fun symbol => !isSpace symbol && symbol != '='

theorem clean_key_unspaced {key : String} (clean : cleanKey key = true) : Unspaced key.toList := by
  intro symbol member
  have both := List.all_eq_true.mp clean symbol member
  simp only [Bool.and_eq_true, Bool.not_eq_true'] at both
  exact both.1

theorem clean_key_unmarked {key : String} (clean : cleanKey key = true) : '=' ∉ key.toList := by
  intro member
  have both := List.all_eq_true.mp clean '=' member
  simp at both

/-- The pieces of a line, as the driver prints them. -/
abbrev Printed (pieces : List (Piece Char)) : Prop :=
  ∀ piece ∈ pieces, piece.Clean isSpace '='

theorem printed_nil : Printed [] := fun _ member => absurd member (List.not_mem_nil)

theorem printed_field {key : String} (clean : cleanKey key = true) {value : List Char}
    (unspaced : Unspaced value) {rest : List (Piece Char)} (later : Printed rest) :
    Printed (field key value :: rest) := by
  intro piece member
  rcases List.mem_cons.mp member with rfl | other
  · exact .field (clean_key_unspaced clean) (clean_key_unmarked clean) unspaced
  · exact later piece other

theorem printed_flag {word : String} (clean : cleanKey word = true) (filled : word.toList ≠ [])
    {rest : List (Piece Char)} (later : Printed rest) : Printed (flag word :: rest) := by
  intro piece member
  rcases List.mem_cons.mp member with rfl | other
  · exact .flag ⟨filled, clean_key_unspaced clean⟩ (clean_key_unmarked clean)
  · exact later piece other

theorem Printed.append {left right : List (Piece Char)} (first : Printed left)
    (second : Printed right) : Printed (left ++ right) := fun piece member =>
  (List.mem_append.mp member).elim (first piece) (second piece)

theorem Printed.words {pieces : List (Piece Char)} (printed : Printed pieces) :
    ∀ text ∈ pieces.map (Piece.text '='), Word isSpace text := by
  intro text member
  obtain ⟨piece, chosen, rfl⟩ := List.mem_map.mp member
  exact (printed piece chosen).word (by decide)

/-- The keys of a line, in order. -/
def keysOf (pieces : List (Piece Char)) : List (List Char) :=
  (pieces.filterMap Piece.field?).map Prod.fst

theorem keys_append (left right : List (Piece Char)) :
    keysOf (left ++ right) = keysOf left ++ keysOf right := by
  simp [keysOf]

theorem unspaced_on_off (on : Bool) : Unspaced (onOff on).toList := by
  cases on <;> exact unspaced_word _ (by decide)

theorem unspaced_high_low (high : Bool) : Unspaced (highLow high).toList := by
  cases high <;> exact unspaced_word _ (by decide)

theorem unspaced_presence (present : Bool) : Unspaced (presence present).toList := by
  cases present <;> exact unspaced_word _ (by decide)

theorem unspaced_mode (mode : TgpioMode) : Unspaced (modeName mode).toList := by
  cases mode <;> exact unspaced_word _ (by decide)

theorem unspaced_output_mode (mode : OutputMode) : Unspaced (outputModeName mode).toList := by
  cases mode <;> exact unspaced_word _ (by decide)

theorem unspaced_clock_mode (mode : ClockMode) : Unspaced (clockModeName mode).toList := by
  cases mode <;> exact unspaced_word _ (by decide)

end printed

section blocks

variable (block : StatusBlock)

theorem printed_intervals : Printed block.intervalPieces := by
  unfold StatusBlock.intervalPieces
  split
  · exact printed_nil
  · exact printed_field (by decide) (unspaced_nanoseconds _)
      (printed_field (by decide) (unspaced_nanoseconds _)
        (printed_field (by decide) (unspaced_nanoseconds _)
          (printed_field (by decide) (unspaced_nanoseconds _)
            (printed_field (by decide) (unspaced_decimal _) printed_nil))))

theorem printed_phase (params : Params) : Printed (block.phasePieces params) := by
  unfold StatusBlock.phasePieces
  split
  · exact printed_field (by decide) (unspaced_nanoseconds _) printed_nil
  · exact printed_nil

theorem printed_input (params : Params) : Printed (block.inputPieces params) := by
  unfold StatusBlock.inputPieces
  exact (printed_field (by decide) (unspaced_on_off _)
    (printed_field (by decide) (unspaced_decimal _) printed_nil)).append
      ((printed_phase block params).append (printed_intervals block))

theorem printed_quantization (params : Params) (clocks : Clocks) :
    Printed (block.quantizationPieces params clocks) := by
  unfold StatusBlock.quantizationPieces
  split
  · exact printed_field (by decide) (unspaced_decimal _)
      (printed_field (by decide) (unspaced_nanoseconds _)
        (printed_field (by decide) (unspaced_nanoseconds _) printed_nil))
  · exact printed_field (by decide) (unspaced_signed _) printed_nil

theorem printed_measured : Printed block.measuredPieces := by
  unfold StatusBlock.measuredPieces
  split
  · exact printed_field (by decide) (unspaced_decimal _)
      (printed_field (by decide) (unspaced_nanoseconds _) printed_nil)
  · exact printed_nil

theorem printed_armed : Printed block.armedPieces := by
  unfold StatusBlock.armedPieces
  split
  · exact (printed_measured block).append
      (printed_field (by decide) (unspaced_high_low _) printed_nil)
  · exact printed_nil

theorem printed_output (params : Params) (clocks : Clocks) :
    Printed (block.outputPieces params clocks) := by
  have state : Printed [flag (if block.running then "running" else "stopped"),
      field "mode" (outputModeName block.desired.mode).toList,
      field "period" (nanoseconds block.desired.periodNs),
      field "high_time" (nanoseconds block.highTimeNs),
      field "low_time" (nanoseconds block.lowTimeNs)] := by
    have values : Printed [field "mode" (outputModeName block.desired.mode).toList,
        field "period" (nanoseconds block.desired.periodNs),
        field "high_time" (nanoseconds block.highTimeNs),
        field "low_time" (nanoseconds block.lowTimeNs)] :=
      printed_field (by decide) (unspaced_output_mode _)
        (printed_field (by decide) (unspaced_nanoseconds _)
          (printed_field (by decide) (unspaced_nanoseconds _)
            (printed_field (by decide) (unspaced_nanoseconds _) printed_nil)))
    split
    · exact printed_flag (by decide) (by decide) values
    · exact printed_flag (by decide) (by decide) values
  unfold StatusBlock.outputPieces
  refine state.append ?_
  split
  · exact (printed_quantization block params clocks).append (printed_armed block)
  · exact printed_nil

theorem printed_pieces (params : Params) (clocks : Clocks) :
    Printed (block.pieces params clocks) := by
  unfold StatusBlock.pieces
  split
  · exact printed_input block params
  · exact printed_output block params clocks
  · exact printed_nil

/-- The keys of an input come in one order, those of figures there are none of left out. -/
theorem keys_input (params : Params) :
    (keysOf (block.inputPieces params)).Sublist
      ["capture".toList, "events".toList, "phase".toList, "interval_last".toList, "min".toList,
        "max".toList, "mean".toList, "n".toList] := by
  have phase : (keysOf (block.phasePieces params)).Sublist ["phase".toList] := by
    unfold StatusBlock.phasePieces
    split
    · exact List.Sublist.refl _
    · exact List.nil_sublist _
  have intervals : (keysOf block.intervalPieces).Sublist
      ["interval_last".toList, "min".toList, "max".toList, "mean".toList, "n".toList] := by
    unfold StatusBlock.intervalPieces
    split
    · exact List.nil_sublist _
    · exact List.Sublist.refl _
  unfold StatusBlock.inputPieces
  rw [keys_append, keys_append]
  exact (List.Sublist.refl ["capture".toList, "events".toList]).append (phase.append intervals)

theorem keys_output (params : Params) (clocks : Clocks) :
    (keysOf (block.outputPieces params clocks)).Sublist
      ["mode".toList, "period".toList, "high_time".toList, "low_time".toList,
        "art_half_cycles".toList, "actual_period".toList, "period_error".toList,
        "quantization_status".toList, "armed_piv".toList, "phase_error".toList,
        "tracked_level".toList] := by
  have quantization : (keysOf (block.quantizationPieces params clocks)).Sublist
      ["art_half_cycles".toList, "actual_period".toList, "period_error".toList,
        "quantization_status".toList] := by
    unfold StatusBlock.quantizationPieces
    split
    · exact (List.Sublist.refl ["art_half_cycles".toList, "actual_period".toList,
        "period_error".toList]).append (List.nil_sublist ["quantization_status".toList])
    · exact (List.nil_sublist ["art_half_cycles".toList, "actual_period".toList,
        "period_error".toList]).append (List.Sublist.refl ["quantization_status".toList])
  have measured : (keysOf block.measuredPieces).Sublist
      ["armed_piv".toList, "phase_error".toList] := by
    unfold StatusBlock.measuredPieces
    split
    · exact List.Sublist.refl _
    · exact List.nil_sublist _
  have armed : (keysOf block.armedPieces).Sublist
      ["armed_piv".toList, "phase_error".toList, "tracked_level".toList] := by
    unfold StatusBlock.armedPieces
    split
    · rw [keys_append]
      exact measured.append (List.Sublist.refl ["tracked_level".toList])
    · exact List.nil_sublist _
  unfold StatusBlock.outputPieces
  rw [keys_append]
  refine (List.Sublist.refl ["mode".toList, "period".toList, "high_time".toList,
    "low_time".toList]).append ?_
  split
  · rw [keys_append]
    exact quantization.append armed
  · exact List.nil_sublist _

theorem distinct_keys (params : Params) (clocks : Clocks) :
    (keysOf (block.pieces params clocks)).Nodup := by
  unfold StatusBlock.pieces
  split
  · exact (by decide : List.Nodup _).sublist (keys_input block params)
  · exact (by decide : List.Nodup _).sublist (keys_output block params clocks)
  · exact List.nodup_nil

end blocks

section reading

variable (device : StatusDevice)

theorem printed_durations : Printed device.durationPieces := by
  unfold StatusDevice.durationPieces
  split
  · exact printed_field (by decide) (unspaced_decimal _) printed_nil
  · exact printed_field (by decide) (unspaced_decimal _)
      (printed_field (by decide) (unspaced_nanoseconds _)
        (printed_field (by decide) (unspaced_decimal _)
          (printed_field (by decide) (unspaced_nanoseconds _)
            (printed_field (by decide) (unspaced_nanoseconds _)
              (printed_field (by decide) (unspaced_nanoseconds _) printed_nil)))))

theorem printed_tdc : Printed device.tdcPieces := by
  have unspaced (index : Nat) : Unspaced ("block".toList ++ decimal index) :=
    (unspaced_word "block" (by decide)).append (unspaced_decimal index)
  unfold StatusDevice.tdcPieces
  exact (printed_field (by decide) (unspaced _) (printed_field (by decide) (unspaced _)
    printed_nil)).append ((printed_durations device).append
      (printed_field (by decide) (unspaced_decimal _)
        (printed_field (by decide) (unspaced_decimal _) printed_nil)))

theorem keys_tdc : (keysOf device.tdcPieces).Nodup := by
  have durations : (keysOf device.durationPieces).Sublist
      ["count".toList, "last".toList, "last_cycles".toList, "min".toList, "max".toList,
        "mean".toList] := by
    unfold StatusDevice.durationPieces
    split
    · exact (List.Sublist.refl ["count".toList]).append (List.nil_sublist ["last".toList,
        "last_cycles".toList, "min".toList, "max".toList, "mean".toList])
    · exact List.Sublist.refl _
  have all : (keysOf device.tdcPieces).Sublist
      ["start".toList, "stop".toList, "count".toList, "last".toList, "last_cycles".toList,
        "min".toList, "max".toList, "mean".toList, "lost".toList, "pending".toList] := by
    unfold StatusDevice.tdcPieces
    rw [keys_append, keys_append]
    exact (List.Sublist.refl ["start".toList, "stop".toList]).append
      (durations.append (List.Sublist.refl ["lost".toList, "pending".toList]))
  exact (by decide : List.Nodup _).sublist all

theorem printed_phc : Printed device.phcPieces :=
  printed_field (by decide) (unspaced_decimal _) (printed_field (by decide) (unspaced_signed _)
    (printed_field (by decide) (unspaced_decimal _)
      (printed_field (by decide) (unspaced_signed _) printed_nil)))

theorem printed_counters : Printed device.counterPieces :=
  printed_field (by decide) (unspaced_signed _)
    (printed_field (by decide) (unspaced_signed _) printed_nil)

/-- The fields of a line are those that were printed. -/
theorem kv_in_line {pieces : List (Piece Char)} (printed : Printed pieces)
    (distinct : (keysOf pieces).Nodup) :
    DriverStatus.kv (inLine pieces).tail = recordOf pieces := by
  have read : keyValues isSpace '=' (inLine pieces) = recordOf pieces :=
    key_values_spread (by decide) (by decide) printed distinct
  rw [← read]
  exact key_values_tail (by decide) (pieces.map (Piece.text '='))

theorem strip_in_line {pieces : List (Piece Char)} (printed : Printed pieces) :
    strip isSpace (inLine pieces) = (inLine pieces).tail :=
  strip_spread (by decide) printed.words

/-- A name that is not taken for a block or for the duration measurement. -/
def plainName (key : String) : Bool :=
  (key.toList.all fun symbol => isNameChar symbol && !isBreak symbol) && !key.toList.isEmpty &&
    !("b".toList.isPrefixOf key.toList) && !("t".toList.isPrefixOf key.toList)

theorem match_named {key : String} (plain : plainName key = true) (value : List Char) :
    DriverStatus.matchNamed (named key value) = some (key.toList, value) := by
  simp only [plainName, Bool.and_eq_true, Bool.not_eq_true'] at plain
  obtain ⟨⟨⟨letters, filled⟩, -⟩, -⟩ := plain
  have letter : ∀ symbol ∈ key.toList, isNameChar symbol = true := fun symbol member =>
    (Bool.and_eq_true_iff.mp (List.all_eq_true.mp letters symbol member)).1
  have named_ : key.toList ≠ [] := by
    intro empty
    simp [empty] at filled
  have ends : isNameChar ':' = false := by decide
  have before : (named key value).takeWhile isNameChar = key.toList := by
    unfold named
    rw [List.takeWhile_append_of_pos letter, List.takeWhile_cons_of_neg (by simp [ends]),
      List.append_nil]
  have after : (named key value).dropWhile isNameChar = ':' :: ' ' :: value := by
    unfold named
    rw [List.dropWhile_append_of_pos letter, List.dropWhile_cons_of_neg (by simp [ends])]
  unfold DriverStatus.matchNamed
  rw [after, before]
  exact if_pos named_

theorem named_starts {key : String} (plain : plainName key = true) (value : List Char) :
    ∃ first rest, named key value = first :: rest ∧ first ≠ 'b' ∧ first ≠ 't' := by
  simp only [plainName, Bool.and_eq_true, Bool.not_eq_true'] at plain
  obtain ⟨⟨⟨-, filled⟩, notB⟩, notT⟩ := plain
  cases shape : key.toList with
  | nil => simp [shape] at filled
  | cons first rest =>
      refine ⟨first, rest ++ ':' :: ' ' :: value, by simp [named, shape], ?_, ?_⟩
      · rintro rfl
        simp [shape, List.isPrefixOf] at notB
      · rintro rfl
        simp [shape, List.isPrefixOf] at notT

theorem read_named {key : String} (plain : plainName key = true) (value : List Char)
    (status : DriverStatus) (fresh : key.toList ∉ status.globals.map Prod.fst) :
    status.readLine (named key value) =
      { status with globals := status.globals ++ [(key.toList, value)] } := by
  obtain ⟨first, rest, shape, notB, notT⟩ := named_starts plain value
  have noBlock : "block".toList.isPrefixOf (named key value) = false := by
    rw [shape]
    simp [List.isPrefixOf, notB.symm]
  have noTdc : "tdc:".toList.isPrefixOf (named key value) = false := by
    rw [shape]
    simp [List.isPrefixOf, notT.symm]
  have unmatched : DriverStatus.matchBlock (named key value) = none := by
    unfold DriverStatus.matchBlock
    rw [noBlock]
    rfl
  unfold DriverStatus.readLine
  rw [unmatched, noTdc, match_named plain]
  simp only [Bool.false_eq_true, if_false]
  rw [Dict.set_new fresh]

/-- Lines with names of their own are read one after the other. -/
theorem read_names {named_ : List (String × List Char)}
    (plain : ∀ line ∈ named_, plainName line.1 = true) (status : DriverStatus)
    (distinct : (status.globals.map Prod.fst ++ named_.map fun line => line.1.toList).Nodup) :
    (named_.map fun line => named line.1 line.2).foldl DriverStatus.readLine status =
      { status with
        globals := status.globals ++ named_.map fun line => (line.1.toList, line.2) } := by
  induction named_ generalizing status with
  | nil => simp
  | cons line rest induction =>
      have fresh : line.1.toList ∉ status.globals.map Prod.fst := fun member =>
        (List.nodup_append.mp distinct).2.2 _ member _ (by simp) rfl
      rw [List.map_cons, List.foldl_cons, read_named (plain line (by simp)) line.2 status fresh,
        induction (fun other member => plain other (by simp [member])) _
          (by simpa using distinct)]
      simp

theorem read_tdc (status : DriverStatus) :
    status.readLine ("tdc:".toList ++ inLine device.tdcPieces) =
      { status with tdc := recordOf device.tdcPieces } := by
  have unmatched : DriverStatus.matchBlock ("tdc:".toList ++ inLine device.tdcPieces) = none := rfl
  have begins : "tdc:".toList.isPrefixOf ("tdc:".toList ++ inLine device.tdcPieces) = true := rfl
  have rest : ("tdc:".toList ++ inLine device.tdcPieces).drop 4 = inLine device.tdcPieces := rfl
  unfold DriverStatus.readLine
  rw [unmatched, begins, rest, strip_in_line (printed_tdc device),
    kv_in_line (printed_tdc device) (keys_tdc device)]
  rfl

/-- What the user interface should know of a block. -/
def StatusDevice.readBlock (index : Fin 2) : BlockStatus where
  index := index
  role := (modeName (device.blocks index).mode).toList
  summary := (inLine ((device.blocks index).pieces device.params device.clocks)).tail
  fields := recordOf ((device.blocks index).pieces device.params device.clocks)

theorem role_then_pieces (mode : TgpioMode) {pieces : List (Piece Char)} (printed : Printed pieces) :
    ((modeName mode).toList ++ inLine pieces).takeWhile isWordChar = (modeName mode).toList ∧
      strip isSpace ((((modeName mode).toList ++ inLine pieces).dropWhile isWordChar).dropWhile
        isSpace) = (inLine pieces).tail := by
  have letters : ∀ symbol ∈ (modeName mode).toList, isWordChar symbol = true := by
    have all : (modeName mode).toList.all isWordChar = true := by cases mode <;> decide
    exact List.all_eq_true.mp all
  have blank : isWordChar ' ' = false := by decide
  have next : (inLine pieces).takeWhile isWordChar = [] ∧
      (inLine pieces).dropWhile isWordChar = inLine pieces := by
    cases pieces with
    | nil => exact ⟨rfl, rfl⟩
    | cons piece rest => exact ⟨rfl, rfl⟩
  constructor
  · rw [List.takeWhile_append_of_pos letters, next.1, List.append_nil]
  · rw [List.dropWhile_append_of_pos letters, next.2]
    have once := strip_in_line printed
    unfold strip at once ⊢
    rw [List.dropWhile_idempotent]
    exact once

theorem match_block (index : Fin 2) :
    DriverStatus.matchBlock (device.blockLine index) = some (device.readBlock index) := by
  have printed := printed_pieces (device.blocks index) device.params device.clocks
  obtain ⟨role, summary⟩ := role_then_pieces (device.blocks index).mode printed
  have filled : (modeName (device.blocks index).mode).toList ≠ [] := by
    cases (device.blocks index).mode <;> decide
  have digit : ∃ symbol : Char, decimal index = [symbol] ∧ symbol.isDigit = true ∧
      symbol.toNat - 48 = index.val := by
    obtain rfl | rfl : index = 0 ∨ index = 1 := by omega
    · exact ⟨'0', by decide, by decide, by decide⟩
    · exact ⟨'1', by decide, by decide, by decide⟩
  obtain ⟨symbol, shown, isDigit, value⟩ := digit
  have shape : device.blockLine index = "block".toList ++ symbol :: ':' :: ' ' ::
      ((modeName (device.blocks index).mode).toList ++
        inLine ((device.blocks index).pieces device.params device.clocks)) := by
    unfold StatusDevice.blockLine
    rw [shown]
    simp only [List.append_assoc, List.cons_append, List.nil_append]
  have begins : "block".toList.isPrefixOf (device.blockLine index) = true := by
    rw [shape]
    rfl
  have rest : (device.blockLine index).drop 5 = symbol :: ':' :: ' ' ::
      ((modeName (device.blocks index).mode).toList ++
        inLine ((device.blocks index).pieces device.params device.clocks)) := by
    rw [shape]
    rfl
  have fields := kv_in_line printed (distinct_keys (device.blocks index) device.params device.clocks)
  unfold DriverStatus.matchBlock
  simp only [begins, rest, if_true, role, summary, isDigit, fields, value, ne_eq, filled,
    not_false_eq_true, and_self]
  rfl

theorem read_blocks (indices : List (Fin 2)) (status : DriverStatus) :
    (indices.map device.blockLine).foldl DriverStatus.readLine status =
      { status with blocks := status.blocks ++ indices.map device.readBlock } := by
  induction indices generalizing status with
  | nil => simp
  | cons index rest induction =>
      have first : status.readLine (device.blockLine index) =
          { status with blocks := status.blocks ++ [device.readBlock index] } := by
        unfold DriverStatus.readLine
        rw [match_block]
      rw [List.map_cons, List.foldl_cons, first, induction]
      simp

/-- What the user interface should know of the driver. -/
def StatusDevice.read : DriverStatus where
  globals := (device.firstLines ++ [("counters", (inLine device.counterPieces).tail)]).map
    fun line => (line.1.toList, line.2)
  blocks := (List.finRange 2).map device.readBlock
  tdc := if device.tdc then recordOf device.tdcPieces else ⟨[], []⟩

theorem one_line_unspaced {text : List Char} (unspaced : Unspaced text) : Clear isBreak text :=
  unspaced.mono break_space

theorem one_line_in_line {pieces : List (Piece Char)} (printed : Printed pieces) :
    Clear isBreak (inLine pieces) :=
  clear_spread (by decide) fun text member => one_line_unspaced (printed.words text member).clear

theorem one_line_named {key : String} (plain : plainName key = true) {value : List Char}
    (single : Clear isBreak value) : Clear isBreak (named key value) := by
  simp only [plainName, Bool.and_eq_true, Bool.not_eq_true'] at plain
  have letters : Clear isBreak key.toList := by
    intro symbol member
    have both := List.all_eq_true.mp plain.1.1.1 symbol member
    simp only [Bool.and_eq_true, Bool.not_eq_true'] at both
    exact both.2
  exact letters.append ((single.cons (by decide)).cons (by decide))

theorem one_line_tail {text : List Char} (single : Clear isBreak text) : Clear isBreak text.tail :=
  fun symbol member => single symbol (List.mem_of_mem_tail member)

theorem names_plain : ∀ line ∈ device.firstLines ++ [("counters", (inLine device.counterPieces).tail)],
    plainName line.1 = true ∧ Clear isBreak line.2 := by
  have hertz : Clear isBreak (decimal device.params.artFrequency ++ " Hz".toList) :=
    (one_line_unspaced (unspaced_decimal _)).append (clear_of_all (by decide))
  intro line member
  simp only [StatusDevice.firstLines, List.cons_append, List.nil_append, List.mem_cons,
    List.not_mem_nil, or_false] at member
  rcases member with rfl | rfl | rfl | rfl | rfl | rfl | rfl | rfl
  · exact ⟨(by decide : plainName "clock_mode" = true), one_line_unspaced (unspaced_clock_mode _)⟩
  · exact ⟨(by decide : plainName "art_frequency" = true), hertz⟩
  · exact ⟨(by decide : plainName "activity_log" = true), one_line_unspaced (unspaced_on_off _)⟩
  · exact ⟨(by decide : plainName "verbose" = true), one_line_unspaced (unspaced_on_off _)⟩
  · exact ⟨(by decide : plainName "art_base_clock" = true), one_line_unspaced (unspaced_presence _)⟩
  · exact ⟨(by decide : plainName "art_snapshot" = true), one_line_unspaced (unspaced_presence _)⟩
  · exact ⟨(by decide : plainName "phc" = true), one_line_tail (one_line_in_line (printed_phc device))⟩
  · exact ⟨(by decide : plainName "counters" = true), one_line_tail (one_line_in_line (printed_counters device))⟩

theorem status_lines_single : ∀ line ∈ device.statusLines, Clear isBreak line := by
  have names := names_plain device
  intro line member
  unfold StatusDevice.statusLines at member
  simp only [List.mem_append, List.mem_map, List.mem_singleton] at member
  rcases member with ((⟨first, chosen, rfl⟩ | ⟨index, -, rfl⟩) | tdc) | rfl
  · have plain := names first (by simp [chosen])
    exact one_line_named plain.1 plain.2
  · have role := one_line_unspaced (unspaced_mode (device.blocks index).mode)
    have rest := one_line_in_line
      (printed_pieces (device.blocks index) device.params device.clocks)
    exact (((one_line_unspaced (unspaced_word "block" (by decide))).append
      (one_line_unspaced (unspaced_decimal index))).append
        ((role.cons (by decide)).cons (by decide))).append rest
  · split at tdc
    · rw [List.mem_singleton.mp tdc]
      have label : Clear isBreak "tdc:".toList := clear_of_all (by decide)
      exact label.append (one_line_in_line (printed_tdc device))
    · exact absurd tdc List.not_mem_nil
  · have plain := names ("counters", (inLine device.counterPieces).tail) (by simp)
    exact one_line_named plain.1 plain.2

theorem distinct_names :
    ((device.firstLines ++ [("counters", (inLine device.counterPieces).tail)]).map
      fun line => line.1.toList).Nodup := by
  change List.Nodup ["clock_mode".toList, "art_frequency".toList, "activity_log".toList,
    "verbose".toList, "art_base_clock".toList, "art_snapshot".toList, "phc".toList,
    "counters".toList]
  decide

/-- The status file is read as it was printed. -/
theorem status_reads : DriverStatus.status device.statusShow = device.read := by
  have found : lines isBreak device.statusShow = device.statusLines :=
    lines_unlines (by decide) (status_lines_single device)
  have plain : ∀ line ∈ device.firstLines, plainName line.1 = true := fun line member =>
    (names_plain device line (by simp [member])).1
  have apart := List.nodup_append.mp (List.map_append ▸ distinct_names device)
  have distinct : (device.firstLines.map fun line => line.1.toList).Nodup := apart.1
  have fresh : "counters".toList ∉ device.firstLines.map fun line => line.1.toList := fun member =>
    apart.2.2 _ member _ (List.mem_singleton.mpr rfl) rfl
  have counters := (names_plain device _ (List.mem_append_right _ List.mem_cons_self)).1
  unfold DriverStatus.status
  rw [found]
  unfold StatusDevice.statusLines
  rw [List.foldl_append, List.foldl_append, List.foldl_append, read_names plain _ (by simpa using distinct),
    read_blocks]
  unfold StatusDevice.read
  by_cases measuring : device.tdc
  · simp only [measuring, if_true, List.foldl_cons, List.foldl_nil, read_tdc]
    rw [read_named counters _ _ (by simpa using fresh)]
    simp
  · simp only [measuring, List.foldl_cons, List.foldl_nil]
    rw [read_named counters _ _ (by simpa using fresh)]
    simp

end reading

end Tgpio

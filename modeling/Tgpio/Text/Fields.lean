import Mathlib.Data.List.DropRight
import Mathlib.Data.List.Nodup

/-!
# Lines, words and fields

A text is cut at its line ends, a line at its gaps, and a word at the first mark
in it: a word with a mark is a field, one without is a flag. What was put
together from lines, words and fields that contain no separators of their own is
found again.
-/

namespace Text

universe u v

variable {α : Type u}

section pieces

variable {stop gap : α → Bool}

/-- Every mark ends a line; what follows the last one is a line if it is not empty. -/
def withoutEnd : List (List α) → List (List α)
  | [] => []
  | [last] => if last.isEmpty then [] else [last]
  | line :: next :: rest => line :: withoutEnd (next :: rest)

def lines (stop : α → Bool) (text : List α) : List (List α) := withoutEnd (text.splitOnP stop)

def unlines (mark : α) (texts : List (List α)) : List α := texts.flatMap (· ++ [mark])

/-- What lies between gaps, without the empty pieces. -/
def words (gap : α → Bool) (text : List α) : List (List α) :=
  (text.splitOnP gap).filter (!·.isEmpty)

/-- Every word after a gap of its own. -/
def spread (mark : α) (texts : List (List α)) : List α := texts.flatMap (mark :: ·)

def strip (gap : α → Bool) (text : List α) : List α := (text.dropWhile gap).rdropWhile gap

def Clear (mark : α → Bool) (text : List α) : Prop := ∀ symbol ∈ text, mark symbol = false

structure Word (gap : α → Bool) (text : List α) : Prop where
  nonempty : text ≠ []
  clear : Clear gap text

theorem clear_of_all {text : List α} (all : (text.all fun symbol => !gap symbol) = true) :
    Clear gap text := by
  intro symbol member
  simpa using List.all_eq_true.mp all symbol member

theorem Clear.append {left right : List α} (first : Clear gap left) (second : Clear gap right) :
    Clear gap (left ++ right) := fun symbol member =>
  (List.mem_append.mp member).elim (first symbol) (second symbol)

theorem Clear.cons {symbol : α} {rest : List α} (first : gap symbol = false)
    (second : Clear gap rest) : Clear gap (symbol :: rest) := by
  intro other member
  rcases List.mem_cons.mp member with rfl | later
  · exact first
  · exact second other later

theorem Clear.mono {text : List α} (clear : Clear gap text)
    (included : ∀ symbol, stop symbol = true → gap symbol = true) : Clear stop text := by
  intro symbol member
  have open_ := clear symbol member
  cases stopped : stop symbol with
  | false => rfl
  | true => simp [included symbol stopped] at open_

theorem clear_spread {mark : α} (clean : stop mark = false) {texts : List (List α)}
    (clear : ∀ text ∈ texts, Clear stop text) : Clear stop (spread mark texts) := by
  intro symbol member
  obtain ⟨text, chosen, inside⟩ := List.mem_flatMap.mp member
  exact (clear text chosen).cons clean symbol inside

theorem lines_cons {mark : α} (marks : stop mark = true) {line : List α} (clear : Clear stop line)
    (rest : List α) : lines stop (line ++ mark :: rest) = line :: lines stop rest := by
  unfold lines
  rw [List.splitOnP_append_cons_of_forall_mem clear mark marks]
  cases tail : rest.splitOnP stop with
  | nil => exact absurd tail (List.splitOnP_ne_nil stop rest)
  | cons next later => rfl

theorem lines_unlines {mark : α} (marks : stop mark = true) {texts : List (List α)}
    (clear : ∀ text ∈ texts, Clear stop text) : lines stop (unlines mark texts) = texts := by
  induction texts with
  | nil => rfl
  | cons line rest induction =>
      have first : unlines mark (line :: rest) = line ++ mark :: unlines mark rest := by
        simp [unlines]
      rw [first, lines_cons marks (clear line (by simp)),
        induction fun text member => clear text (by simp [member])]

theorem words_gap {mark : α} (marks : gap mark = true) (rest : List α) :
    words gap (mark :: rest) = words gap rest := by
  simp [words, List.splitOnP_cons_eq_if_modifyHead, marks]

theorem words_cons {mark : α} (marks : gap mark = true) {word : List α} (clean : Word gap word)
    (rest : List α) : words gap (word ++ mark :: rest) = word :: words gap rest := by
  unfold words
  rw [List.splitOnP_append_cons_of_forall_mem clean.clear mark marks,
    List.filter_cons_of_pos (by simp [clean.nonempty])]

theorem words_last {word : List α} (clean : Word gap word) : words gap word = [word] := by
  unfold words
  rw [List.splitOnP_eq_singleton clean.clear]
  simp [clean.nonempty]

/-- Words after gaps are found again, a first one without a gap before it too. -/
theorem words_spread {mark : α} (marks : gap mark = true) {texts : List (List α)}
    (clean : ∀ text ∈ texts, Word gap text) : words gap (spread mark texts) = texts := by
  induction texts with
  | nil => rfl
  | cons word rest induction =>
      have last := induction fun text member => clean text (by simp [member])
      have first : spread mark (word :: rest) = mark :: (word ++ spread mark rest) := rfl
      rw [first, words_gap marks]
      cases rest with
      | nil => simpa [spread] using words_last (clean word (by simp))
      | cons next later =>
          have apart : spread mark (next :: later) = mark :: (next ++ spread mark later) := rfl
          rw [apart, words_cons marks (clean word (by simp))]
          rw [apart, words_gap marks] at last
          rw [last]

theorem word_last {word : List α} (clean : Word gap word) :
    gap (word.getLast clean.nonempty) = false :=
  clean.clear _ (List.getLast_mem _)

/-- A text that ends in a word has no gap to strip off at its end. -/
theorem rdrop_while_word {word : List α} (clean : Word gap word) (before : List α) :
    (before ++ word).rdropWhile gap = before ++ word := by
  have some_ : before ++ word ≠ [] := by simp [clean.nonempty]
  refine List.rdropWhile_eq_self_iff.mpr fun filled => ?_
  rw [List.getLast_append_of_ne_nil filled clean.nonempty, word_last clean]
  exact Bool.false_ne_true

theorem spread_ends (mark : α) {texts : List (List α)} (filled : texts ≠ []) :
    ∃ before, spread mark texts = mark :: (before ++ texts.getLast filled) := by
  induction texts with
  | nil => exact absurd rfl filled
  | cons word rest induction =>
      cases rest with
      | nil => exact ⟨[], by simp [spread]⟩
      | cons next later =>
          obtain ⟨before, ends⟩ := induction (by simp)
          refine ⟨word ++ mark :: before, ?_⟩
          have first : spread mark (word :: next :: later) =
              mark :: (word ++ spread mark (next :: later)) := rfl
          rw [first, ends]
          simp

/-- The gaps between the words stay, the one before the first goes. -/
theorem strip_spread {mark : α} (marks : gap mark = true) {texts : List (List α)}
    (clean : ∀ text ∈ texts, Word gap text) :
    strip gap (spread mark texts) = (spread mark texts).tail := by
  cases texts with
  | nil => rfl
  | cons word rest =>
      obtain ⟨before, ends⟩ := spread_ends mark (List.cons_ne_nil word rest)
      have own : Word gap word := clean word (by simp)
      have last := clean _ (List.getLast_mem (List.cons_ne_nil word rest))
      have start : (spread mark (word :: rest)).dropWhile gap =
          (spread mark (word :: rest)).tail := by
        obtain ⟨symbol, later, shape⟩ := List.exists_cons_of_ne_nil own.nonempty
        have open_ : gap symbol = false := own.clear symbol (by simp [shape])
        simp [spread, shape, marks, open_]
      unfold strip
      rw [start, ends, List.tail_cons, rdrop_while_word last]

/-- Nothing is stripped off twice. -/
theorem strip_tail_spread {mark : α} {texts : List (List α)}
    (clean : ∀ text ∈ texts, Word gap text) :
    strip gap (spread mark texts).tail = (spread mark texts).tail := by
  cases texts with
  | nil => rfl
  | cons word rest =>
      obtain ⟨before, ends⟩ := spread_ends mark (List.cons_ne_nil word rest)
      have own : Word gap word := clean word (by simp)
      have last := clean _ (List.getLast_mem (List.cons_ne_nil word rest))
      have start : (spread mark (word :: rest)).tail.dropWhile gap =
          (spread mark (word :: rest)).tail := by
        obtain ⟨symbol, later, shape⟩ := List.exists_cons_of_ne_nil own.nonempty
        have open_ : gap symbol = false := own.clear symbol (by simp [shape])
        simp [spread, shape, open_]
      unfold strip
      rw [start, ends, List.tail_cons, rdrop_while_word last]

end pieces

section dictionaries

variable {κ : Type u} {β : Type v} [DecidableEq κ]

/-- A dictionary that remembers the order its keys came in. -/
abbrev Dict (κ : Type u) (β : Type v) := List (κ × β)

def Dict.set (dict : Dict κ β) (key : κ) (value : β) : Dict κ β :=
  if key ∈ dict.map Prod.fst then
    dict.map fun entry => if entry.1 = key then (key, value) else entry
  else dict ++ [(key, value)]

def Dict.get (dict : Dict κ β) (key : κ) : Option β :=
  (dict.find? fun entry => decide (entry.1 = key)).map Prod.snd

theorem Dict.set_new {dict : Dict κ β} {key : κ} (fresh : key ∉ dict.map Prod.fst) (value : β) :
    dict.set key value = dict ++ [(key, value)] := if_neg fresh

@[simp] theorem Dict.get_nil (key : κ) : Dict.get ([] : Dict κ β) key = none := rfl

theorem Dict.get_cons (entry : κ × β) (dict : Dict κ β) (key : κ) :
    Dict.get (entry :: dict) key = if entry.1 = key then some entry.2 else Dict.get dict key := by
  unfold Dict.get
  rw [List.find?_cons]
  by_cases same : entry.1 = key <;> simp [same]

/-- Under keys of their own, every value is found. -/
theorem Dict.get_mem {dict : Dict κ β} (distinct : (dict.map Prod.fst).Nodup) {entry : κ × β}
    (member : entry ∈ dict) : dict.get entry.1 = some entry.2 := by
  induction dict with
  | nil => exact absurd member List.not_mem_nil
  | cons first rest induction =>
      rw [Dict.get_cons]
      rcases List.mem_cons.mp member with rfl | later
      · exact if_pos rfl
      · have apart : first.1 ≠ entry.1 := by
          intro same
          exact (List.nodup_cons.mp distinct).1 (same ▸ List.mem_map_of_mem later)
        rw [if_neg apart]
        exact induction (List.nodup_cons.mp distinct).2 later

end dictionaries

section fields

/-- What words say: the values of the fields, and the flags. -/
structure Record (α : Type u) where
  flags : List (List α)
  values : Dict (List α) (List α)

inductive Piece (α : Type u) where
  | flag (word : List α)
  | field (key value : List α)

def Piece.text (mark : α) : Piece α → List α
  | .flag word => word
  | .field key value => key ++ mark :: value

def Piece.flag? : Piece α → Option (List α)
  | .flag word => some word
  | .field _ _ => none

def Piece.field? : Piece α → Option (List α × List α)
  | .flag _ => none
  | .field key value => some (key, value)

def recordOf (pieces : List (Piece α)) : Record α :=
  ⟨pieces.filterMap Piece.flag?, pieces.filterMap Piece.field?⟩

/-- The keys and flags can be told from the separators; a value may contain marks. -/
inductive Piece.Clean (gap : α → Bool) (mark : α) : Piece α → Prop
  | flag {word : List α} (clean : Word gap word) (unmarked : mark ∉ word) : Clean gap mark (.flag word)
  | field {key value : List α} (clean : Clear gap key) (unmarked : mark ∉ key)
      (free : Clear gap value) : Clean gap mark (.field key value)

variable {gap : α → Bool} {mark : α}

theorem Piece.Clean.word (open_ : gap mark = false) {piece : Piece α} (clean : piece.Clean gap mark) :
    Word gap (piece.text mark) := by
  cases clean with
  | flag clean _ => exact clean
  | field clean _ free => exact ⟨by simp [Piece.text], clean.append (free.cons open_)⟩

theorem flags_flag (word : List α) (rest : List (Piece α)) :
    (Piece.flag word :: rest).filterMap Piece.flag? = word :: rest.filterMap Piece.flag? := rfl

theorem flags_field (key value : List α) (rest : List (Piece α)) :
    (Piece.field key value :: rest).filterMap Piece.flag? = rest.filterMap Piece.flag? := rfl

theorem fields_flag (word : List α) (rest : List (Piece α)) :
    (Piece.flag word :: rest).filterMap Piece.field? = rest.filterMap Piece.field? := rfl

theorem fields_field (key value : List α) (rest : List (Piece α)) :
    (Piece.field key value :: rest).filterMap Piece.field? =
      (key, value) :: rest.filterMap Piece.field? := rfl

section reading

variable [DecidableEq α]

/-- A word, cut at the first mark in it. -/
def cut (mark : α) (word : List α) : Option (List α × List α) :=
  if mark ∈ word then some (word.takeWhile (· ≠ mark), (word.dropWhile (· ≠ mark)).tail)
  else none

def Record.add (mark : α) (record : Record α) (word : List α) : Record α :=
  match cut mark word with
  | some (key, value) => { record with values := record.values.set key value }
  | none => { record with flags := record.flags ++ [word] }

def keyValues (gap : α → Bool) (mark : α) (text : List α) : Record α :=
  (words gap text).foldl (Record.add mark) ⟨[], []⟩

theorem cut_field {key : List α} (unmarked : mark ∉ key) (value : List α) :
    cut mark (key ++ mark :: value) = some (key, value) := by
  have differ : ∀ symbol ∈ key, (decide (symbol ≠ mark)) = true := fun symbol member =>
    decide_eq_true (ne_of_mem_of_not_mem member unmarked)
  unfold cut
  rw [if_pos (by simp), List.takeWhile_append_of_pos differ, List.dropWhile_append_of_pos differ]
  simp

theorem cut_flag {word : List α} (unmarked : mark ∉ word) : cut mark word = none := if_neg unmarked

/-- Fields with new keys and flags are added one after the other. -/
theorem add_pieces {pieces : List (Piece α)} (clean : ∀ piece ∈ pieces, piece.Clean gap mark)
    (record : Record α)
    (distinct : ((record.values ++ pieces.filterMap Piece.field?).map Prod.fst).Nodup) :
    (pieces.map (Piece.text mark)).foldl (Record.add mark) record =
      ⟨record.flags ++ pieces.filterMap Piece.flag?,
        record.values ++ pieces.filterMap Piece.field?⟩ := by
  induction pieces generalizing record with
  | nil => simp
  | cons piece rest induction =>
      have later : ∀ other ∈ rest, other.Clean gap mark := fun other member =>
        clean other (by simp [member])
      rw [List.map_cons, List.foldl_cons]
      cases clean piece (by simp) with
      | @flag word _ unmarked =>
          have added : Record.add mark record (Piece.text mark (.flag word)) =
              { record with flags := record.flags ++ [word] } := by
            simp [Record.add, Piece.text, cut_flag unmarked]
          rw [added, induction later _ (by simpa [fields_flag] using distinct)]
          simp [flags_flag, fields_flag]
      | @field key value _ unmarked _ =>
          have fresh : key ∉ record.values.map Prod.fst := by
            intro member
            have apart := List.nodup_append.mp (List.map_append ▸ distinct)
            exact apart.2.2 key member key (by simp [fields_field]) rfl
          have added : Record.add mark record (Piece.text mark (.field key value)) =
              { record with values := record.values ++ [(key, value)] } := by
            simp [Record.add, Piece.text, cut_field unmarked, Dict.set_new fresh]
          rw [added, induction later _ (by simpa [fields_field] using distinct)]
          simp [flags_field, fields_field]

theorem key_values_spread {space : α} (marks : gap space = true) (open_ : gap mark = false)
    {pieces : List (Piece α)} (clean : ∀ piece ∈ pieces, piece.Clean gap mark)
    (distinct : ((pieces.filterMap Piece.field?).map Prod.fst).Nodup) :
    keyValues gap mark (spread space (pieces.map (Piece.text mark))) = recordOf pieces := by
  have found : words gap (spread space (pieces.map (Piece.text mark))) =
      pieces.map (Piece.text mark) := by
    refine words_spread marks fun text member => ?_
    obtain ⟨piece, chosen, rfl⟩ := List.mem_map.mp member
    exact (clean piece chosen).word open_
  unfold keyValues recordOf
  rw [found, add_pieces clean _ (by simpa using distinct)]
  simp

/-- The gap before the first field does not matter. -/
theorem key_values_tail {space : α} (marks : gap space = true) (texts : List (List α)) :
    keyValues gap mark (spread space texts).tail = keyValues gap mark (spread space texts) := by
  cases texts with
  | nil => rfl
  | cons word rest =>
      unfold keyValues
      exact congrArg (List.foldl _ _) (words_gap marks (word ++ spread space rest)).symm

end reading

end fields

end Text

import Tgpio.Interference.Looks
import Tgpio.OutputHardware
import Tgpio.Windows.Requests

/-!
# Reading COMPV while it moves

COMPV is read in two words while edges raise it. Both drivers read it until the
high word is stable. Every look is taken down with all of COMPV as it is then,
and COMPV rises between the looks by whatever amount the edges carry.
-/

namespace Tgpio

open Interference Interference.Prog

set_option autoImplicit false

/-- COMPV rises, or stays; of the rest nothing is assumed. -/
def Raises (compv larger : BitVec 64) : Prop := ∃ piv : Nat, larger.toNat = compv.toNat + piv

theorem raises_upper_word {compv larger : BitVec 64} (raises : Raises compv larger) :
    (upperWord compv).toNat ≤ (upperWord larger).toNat := by
  obtain ⟨piv, sum⟩ := raises
  exact upper_word_mono (by omega)

/-- A record of looks: which word, and what COMPV was. -/
def lookNote : Op → Machine → Option (Half × BitVec 64)
  | .readl .compv63_32, m => some (.high, m.regs.compv)
  | .readl .compv31_0, m => some (.low, m.regs.compv)
  | _, _ => none

def lookSem : Semantics Op Op.Resp (Machine × List (Half × BitVec 64)) :=
  (driverSem fun m m' => Raises m.regs.compv m'.regs.compv).noted lookNote

instance (reg : Reg) : DecidableEq (Op.readl reg).Resp := inferInstanceAs (DecidableEq (BitVec 32))

theorem compv_watches : Watches (driverSem fun m m' => Raises m.regs.compv m'.regs.compv)
    (.readl .compv63_32) (.readl .compv31_0) lookNote
    (fun m => m.regs.compv) upperWord lowerWord BitVec.toNat where
  faithful _ _ same := BitVec.eq_of_toNat_eq same
  grows raises := raises_upper_word raises
  readsHigh stepped := by
    cases stepped
    exact ⟨rfl, rfl⟩
  readsLow stepped := by
    cases stepped
    exact ⟨rfl, rfl⟩
  notesHigh _ := rfl
  notesLow _ := rfl

namespace Windows

variable (index : BlockIndex)

def lookNote : WinOp → WinMachine → Option (Half × BitVec 64)
  | .readl other (.block .compv63_32), m =>
      if other = index then some (.high, (m.line index).regs.compv) else none
  | .readl other (.block .compv31_0), m =>
      if other = index then some (.low, (m.line index).regs.compv) else none
  | _, _ => none

def risingSem : Semantics WinOp WinOp.Resp WinMachine :=
  { winSem with env := fun m m' => Raises (m.line index).regs.compv (m'.line index).regs.compv }

def lookSem : Semantics WinOp WinOp.Resp (WinMachine × List (Half × BitVec 64)) :=
  (risingSem index).noted (lookNote index)

instance (reg : WinReg) : DecidableEq (WinOp.readl index reg).Resp :=
  inferInstanceAs (DecidableEq (BitVec 32))

theorem compv_watches : Watches (risingSem index)
    (.readl index (.block .compv63_32)) (.readl index (.block .compv31_0))
    (lookNote index) (fun m => (m.line index).regs.compv) upperWord lowerWord BitVec.toNat where
  faithful _ _ same := BitVec.eq_of_toNat_eq same
  grows raises := raises_upper_word raises
  readsHigh := by
    intro s reply t stepped
    obtain ⟨-, answered⟩ := Option.ite_none_right_eq_some.mp stepped
    cases answered
    exact ⟨rfl, by simp [WinMachine.updateLine, Line.readEffect]⟩
  readsLow := by
    intro s reply t stepped
    obtain ⟨-, answered⟩ := Option.ite_none_right_eq_some.mp stepped
    cases answered
    exact ⟨rfl, by simp [WinMachine.updateLine, Line.readEffect]⟩
  notesHigh _ := if_pos rfl
  notesLow _ := if_pos rfl

end Windows

/-- At every moment of a COMPV read, under any edges: it is over exactly when the
last two reads of the high word agree, and then answers COMPV as it was at the
read of the low word between them. -/
theorem read_compv_never_torn :
    (∀ m program t,
      Relation.ReflTransGen (Prog.Advances lookSem) (readCompv, (m, [])) (program, t) →
        NeverTorn upperWord BitVec.toNat t.2 program) ∧
    ∀ index m program t,
      Relation.ReflTransGen (Prog.Advances (Windows.lookSem index))
          (Windows.readCompv index, (m, [])) (program, t) →
        NeverTorn upperWord BitVec.toNat t.2 program := by
  have joins (compv : BitVec 64) :
      (joinWords (upperWord compv) (lowerWord compv)).toNat = compv.toNat := by
    rw [join_words]
  constructor
  · intro m program t reached
    exact torn_read_never_torn compv_watches joins reached
  · intro index m program t reached
    exact torn_read_never_torn (Windows.compv_watches index) joins reached

/-- A block at rest, COMPV as given. -/
def restingAt (compv : BitVec 64) : Machine :=
  .zeroed defaultParams (steadyClocks 0 zero_in_range) ⟨0, compv, 0⟩ false

/-- An edge carries between the first high read and the low read. -/
theorem read_compv_never_torn_carry :
    NeverTorn upperWord BitVec.toNat
      [(.high, 0x100000000), (.low, 0x100000000), (.high, 0x100000000), (.low, 0x100000000),
        (.high, 0xffffffff)]
      (ret 0x100000000 : Driver Nat) := by
  have look : Prog.Advances lookSem (readCompv, (restingAt 0xffffffff, []))
      (_, (restingAt 0xffffffff, [(.high, 0xffffffff)])) := .step (.call ⟨rfl, rfl⟩)
  have raises : Raises 0xffffffff 0x100000000 := ⟨1, by decide⟩
  have carry {program : Driver Nat} {looks : List (Half × BitVec 64)} :
      Prog.Advances lookSem (program, (restingAt 0xffffffff, looks))
        (program, (restingAt 0x100000000, looks)) := .env ⟨raises, rfl⟩
  have low {m : Machine} {next : BitVec 32 → Driver Nat} {looks : List (Half × BitVec 64)}
      (now : m.regs.compv = 0x100000000) :
      Prog.Advances lookSem (.call (.readl .compv31_0) next, (m, looks))
        (next 0, (m.readReg .compv31_0, (.low, 0x100000000) :: looks)) := by
    have zero : lowerWord m.regs.compv = 0 := by
      rw [now]
      decide
    rw [← now, ← zero]
    exact .step (.call ⟨rfl, rfl⟩)
  have high {m : Machine} {next : BitVec 32 → Driver Nat} {looks : List (Half × BitVec 64)}
      (now : m.regs.compv = 0x100000000) :
      Prog.Advances lookSem (.call (.readl .compv63_32) next, (m, looks))
        (next 1, (m.readReg .compv63_32, (.high, 0x100000000) :: looks)) := by
    have one : upperWord m.regs.compv = 1 := by
      rw [now]
      decide
    rw [← now, ← one]
    exact .step (.call ⟨rfl, rfl⟩)
  apply read_compv_never_torn.1 (restingAt 0xffffffff) _ (_, _)
  refine .head look (.head carry (.head (.step .loop) (.head (low rfl) (.head (high rfl) ?_))))
  exact .head (.step .loop) (.head (low rfl) (.head (high rfl) .refl))

end Tgpio

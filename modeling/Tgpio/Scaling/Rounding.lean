import Mathlib.Algebra.Order.Field.Basic
import Mathlib.Algebra.Order.Ring.Nat
import Mathlib.Tactic.Ring
import Mathlib.Tactic.Linarith

/-!
# Rescaling counts

A count of `src` units to the second, in units of which there are `dst` to the
second, rounded down or to nearest with ties up; and a count lengthened or
shortened by a part of itself. The laws are those that survive the rounding:
what a composition of two roundings gives back, and how far a rounded sum is
from the sum of the roundings. Only naturals, and no machine width.
-/

namespace Scaling

set_option autoImplicit false

def down (count src dst : Nat) : Nat := count * dst / src

def nearest (count src dst : Nat) : Nat := (2 * (count * dst) + src) / (2 * src)

def lengthened (count whole part : Nat) : Nat := count + down count whole part

def shortened (count whole part : Nat) : Nat := count - down count whole part

section rounding

variable {count src dst : Nat}

theorem down_le (count dst : Nat) (positive : 0 < src) : down count src dst * src ≤ count * dst :=
  (Nat.le_div_iff_mul_le positive).mp (le_refl _)

theorem lt_down (count dst : Nat) (positive : 0 < src) :
    count * dst < down count src dst * src + src := by
  have below := (Nat.div_lt_iff_lt_mul positive).mp (Nat.lt_succ_self (down count src dst))
  rwa [Nat.succ_mul] at below

/-- Whole units first, then what is left of one. -/
theorem down_split (positive : 0 < src) :
    count / src * dst + count % src * dst / src = down count src dst := by
  have split : count * dst = src * (count / src * dst) + count % src * dst := by
    rw [← Nat.mul_assoc, ← Nat.add_mul, Nat.div_add_mod]
  rw [down, split, Nat.mul_add_div positive]

/-- The same for the rounding to nearest: only what is left of one is rounded. -/
theorem nearest_split (positive : 0 < src) :
    count / src * dst + nearest (count % src) src dst = nearest count src dst := by
  have split : 2 * (count * dst) + src =
      2 * src * (count / src * dst) + (2 * (count % src * dst) + src) := by
    have parts := congrArg (· * dst) (Nat.div_add_mod count src)
    simp only [Nat.add_mul] at parts
    rw [← parts]
    ring
  rw [nearest, nearest, split, Nat.mul_add_div (by omega)]

/-- Rounding to nearest adds one to the quotient when the remainder is at
least half of the divisor. -/
theorem nearest_remainder (positive : 0 < src) :
    nearest count src dst = count * dst / src +
      if count * dst % src ≥ src - count * dst % src then 1 else 0 := by
  have parts := Nat.div_add_mod (count * dst) src
  have small := Nat.mod_lt (count * dst) positive
  generalize count * dst / src = quotient at parts ⊢
  generalize count * dst % src = remainder at parts small ⊢
  have whole : 2 * (count * dst) + src = 2 * src * quotient + (2 * remainder + src) := by
    rw [← parts]
    ring
  rw [nearest, whole, Nat.mul_add_div (by omega)]
  congr 1
  split
  · exact Nat.div_eq_of_lt_le (by omega) (by omega)
  · exact Nat.div_eq_of_lt (by omega)

theorem nearest_eq {value : Nat} (lower : 2 * value * src ≤ 2 * (count * dst) + src)
    (upper : 2 * (count * dst) < 2 * value * src + src) : nearest count src dst = value := by
  refine Nat.div_eq_of_lt_le ?_ ?_
  · calc value * (2 * src) = 2 * value * src := by ring
      _ ≤ _ := lower
  · calc 2 * (count * dst) + src < 2 * value * src + src + src := by omega
      _ = (value + 1) * (2 * src) := by ring

theorem down_mono {longer : Nat} (shorter : count ≤ longer) :
    down count src dst ≤ down longer src dst :=
  Nat.div_le_div_right (Nat.mul_le_mul_right dst shorter)

theorem down_add (more : Nat) (positive : 0 < src) :
    down count src dst + down more src dst ≤ down (count + more) src dst ∧
      down (count + more) src dst ≤ down count src dst + down more src dst + 1 := by
  have first := down_le count dst positive
  have second := down_le more dst positive
  have firstBelow := lt_down count dst positive
  have secondBelow := lt_down more dst positive
  have sum : (count + more) * dst = count * dst + more * dst := Nat.add_mul _ _ _
  constructor
  · refine (Nat.le_div_iff_mul_le positive).mpr ?_
    rw [sum, Nat.add_mul]
    omega
  · refine Nat.lt_succ_iff.mp ((Nat.div_lt_iff_lt_mul positive).mpr ?_)
    rw [sum]
    calc count * dst + more * dst
        < (down count src dst * src + src) + (down more src dst * src + src) := by omega
      _ = (down count src dst + down more src dst + 1 + 1) * src := by ring

theorem nearest_bounds (count dst : Nat) (positive : 0 < src) :
    2 * (nearest count src dst * src) ≤ 2 * (count * dst) + src ∧
      2 * (count * dst) < 2 * (nearest count src dst * src) + src := by
  have parts := Nat.div_add_mod (2 * (count * dst) + src) (2 * src)
  have below := Nat.mod_lt (2 * (count * dst) + src) (by omega : 2 * src > 0)
  have whole : 2 * src * nearest count src dst = 2 * (nearest count src dst * src) := by ring
  unfold nearest at *
  omega

theorem abs_nearest_sub_le {K : Type*} [Field K] [LinearOrder K] [IsStrictOrderedRing K]
    (count dst : Nat) (positive : 0 < src) :
    |(nearest count src dst : K) - count * dst / src| ≤ 1 / 2 := by
  obtain ⟨upper, lower⟩ := nearest_bounds count dst positive
  have source : (0 : K) < src := by exact_mod_cast positive
  have above : (2 * (nearest count src dst * src) : K) ≤ 2 * (count * dst) + src := by
    exact_mod_cast upper
  have below : (2 * (count * dst) : K) ≤ 2 * (nearest count src dst * src) + src := by
    exact_mod_cast lower.le
  have most : (nearest count src dst - 1 / 2 : K) ≤ count * dst / src := by
    rw [le_div_iff₀ source]
    linarith
  have least : (count * dst / src : K) ≤ nearest count src dst + 1 / 2 := by
    rw [div_le_iff₀ source]
    linarith
  exact abs_le.mpr ⟨by linarith, by linarith⟩

/-- To a finer unit and back, both rounded down: the count comes back only if
nothing was lost on the way there, and is one short otherwise. -/
theorem down_there_and_back (positive : 0 < src) (finer : src ≤ dst) :
    down (down count src dst) dst src = if src ∣ count * dst then count else count - 1 := by
  have lower := down_le count dst positive
  have upper := lt_down count dst positive
  split
  next whole =>
    have exact_ : down count src dst * src = count * dst := Nat.div_mul_cancel whole
    rw [down, exact_, Nat.mul_div_cancel _ (by omega)]
  next lost =>
    have less : down count src dst * src < count * dst := by
      refine lt_of_le_of_ne lower fun same => lost ?_
      exact Dvd.intro_left _ same
    have some_ : 0 < count := by
      by_contra none
      simp [Nat.eq_zero_of_not_pos none] at less
    have last : count * dst = (count - 1) * dst + dst := by
      rw [← Nat.succ_mul]
      congr 1
      omega
    have next : count * dst = (count - 1 + 1) * dst := by
      congr 1
      omega
    exact Nat.div_eq_of_lt_le (by omega) (by omega)

theorem nearest_mono {longer : Nat} (shorter : count ≤ longer) :
    nearest count src dst ≤ nearest longer src dst := by
  have scaled : count * dst ≤ longer * dst := Nat.mul_le_mul_right dst shorter
  exact Nat.div_le_div_right (by omega)

theorem nearest_zero (src dst : Nat) : nearest 0 src dst = 0 := by
  rcases Nat.eq_zero_or_pos src with rfl | positive
  · simp [nearest]
  · exact Nat.div_eq_of_lt (by omega)

theorem nearest_same (positive : 0 < src) : nearest count src src = count :=
  nearest_eq (by linarith) (by linarith)

theorem nearest_le (positive : 0 < src) (coarser : dst ≤ src) : nearest count src dst ≤ count := by
  have fewer : count * dst ≤ count * src := Nat.mul_le_mul_left _ coarser
  refine Nat.lt_succ_iff.mp ((Nat.div_lt_iff_lt_mul (by omega)).mpr ?_)
  linarith

/-- There by a rate, and back by that rate in whole units: the error is half a
unit of each, and what the count makes of the fraction the rate has lost. -/
theorem nearest_there_and_back_of_drift (count unit dst : Nat) {drift : Nat} (positive : 0 < src)
    (counts : 0 < nearest unit src dst)
    (drifts : nearest unit src dst * src ≤ unit * dst + drift ∧
      unit * dst ≤ nearest unit src dst * src + drift) :
    let rate := nearest unit src dst
    let back := nearest (nearest count src dst) rate unit
    2 * (back * rate) * src ≤ 2 * (count * rate) * src + (rate * src + unit * src + 2 * (count * drift)) ∧
      2 * (count * rate) * src ≤
        2 * (back * rate) * src + (rate * src + unit * src + 2 * (count * drift)) := by
  intro rate back
  obtain ⟨thereUp, thereDown⟩ := nearest_bounds count dst positive
  obtain ⟨backUp, backDown⟩ := nearest_bounds (nearest count src dst) unit counts
  obtain ⟨rateUp, rateDown⟩ := drifts
  change rate * src ≤ _ at rateUp
  change _ ≤ rate * src + drift at rateDown
  change 2 * (back * rate) ≤ _ at backUp
  change _ < 2 * (back * rate) + rate at backDown
  generalize nearest count src dst = there at *
  -- Both sides are compared at `src` times their size.
  have scaledThere : 2 * (there * src) * unit ≤ (2 * (count * dst) + src) * unit ∧
      2 * (count * dst) * unit ≤ (2 * (there * src) + src) * unit :=
    ⟨Nat.mul_le_mul_right _ thereUp, Nat.mul_le_mul_right _ thereDown.le⟩
  have scaledRate : rate * src * count ≤ (unit * dst + drift) * count ∧
      unit * dst * count ≤ (rate * src + drift) * count :=
    ⟨Nat.mul_le_mul_right _ rateUp, Nat.mul_le_mul_right _ rateDown⟩
  have scaledBack : 2 * (back * rate) * src ≤ (2 * (there * unit) + rate) * src ∧
      2 * (there * unit) * src ≤ (2 * (back * rate) + rate) * src :=
    ⟨Nat.mul_le_mul_right _ backUp, Nat.mul_le_mul_right _ backDown.le⟩
  constructor
  · nlinarith only [scaledThere, scaledRate, scaledBack]
  · nlinarith only [scaledThere, scaledRate, scaledBack]

theorem nearest_last {there : Nat} (dense : 0 < dst) (finer : dst ≤ src) :
    nearest (((2 * there + 1) * src - 1) / (2 * dst)) src dst = there := by
  have positive : 0 < src := by omega
  have parts := Nat.div_add_mod ((2 * there + 1) * src - 1) (2 * dst)
  have below := Nat.mod_lt ((2 * there + 1) * src - 1) (by omega : 2 * dst > 0)
  generalize ((2 * there + 1) * src - 1) / (2 * dst) = last at parts ⊢
  have scaled : 2 * (last * dst) = 2 * dst * last := by ring
  have whole : (2 * there + 1) * src = 2 * there * src + src := by ring
  apply nearest_eq <;> omega

theorem nearest_first {there : Nat} (dense : 0 < dst) (finer : dst ≤ src) (positive : 0 < there) :
    nearest (((2 * there - 1) * src + (2 * dst - 1)) / (2 * dst)) src dst = there := by
  have parts := Nat.div_add_mod ((2 * there - 1) * src + (2 * dst - 1)) (2 * dst)
  have below := Nat.mod_lt ((2 * there - 1) * src + (2 * dst - 1)) (by omega : 2 * dst > 0)
  generalize ((2 * there - 1) * src + (2 * dst - 1)) / (2 * dst) = first at parts ⊢
  have scaled : 2 * (first * dst) = 2 * dst * first := by ring
  have whole : (2 * there - 1) * src = 2 * there * src - src := by
    rw [Nat.sub_mul, Nat.one_mul]
  have large : src ≤ 2 * there * src := by
    have one : 1 * src ≤ 2 * there * src := Nat.mul_le_mul_right _ (by omega)
    omega
  apply nearest_eq <;> omega

/-- What the fraction of a rate makes of a long count is lost: some count up to
the limit comes back more than one unit of the target and one of its own off. -/
theorem nearest_drift_lost {unit limit drift : Nat} (dense : 0 < dst) (finer : dst ≤ src)
    (fine : 2 * src ≤ nearest unit src dst * dst) (room : 2 * src ≤ limit * dst)
    (drifts : nearest unit src dst * src = unit * dst + drift ∨
      unit * dst = nearest unit src dst * src + drift)
    (large : (src + 6 * dst) * (nearest unit src dst * src) ≤ 2 * (limit * drift) * dst) :
    ∃ count, 0 < count ∧ count ≤ limit ∧
      let back := nearest (nearest count src dst) (nearest unit src dst) unit
      (back * dst + (src + dst) < count * dst ∨ count * dst + (src + dst) < back * dst) := by
  have positive : 0 < src := by omega
  have counts : 0 < nearest unit src dst := by
    by_contra none
    rw [Nat.eq_zero_of_not_pos none] at fine
    omega
  obtain ⟨rateUp, rateDown⟩ := nearest_bounds unit dst positive
  obtain ⟨limitUp, limitDown⟩ := nearest_bounds limit dst positive
  generalize nearest unit src dst = rate at *
  obtain ⟨there, isThere⟩ : ∃ there, nearest limit src dst = there + 1 := by
    refine Nat.exists_eq_succ_of_ne_zero fun none => ?_
    rw [none] at limitDown
    omega
  rw [isThere] at limitUp limitDown
  have some_ : 0 < there := by
    by_contra none
    rw [Nat.eq_zero_of_not_pos none] at limitDown
    omega
  -- the limit is within two of the counts that are rounded to `there`
  have reach : (2 * (limit * dst)) * drift ≤ (2 * (there * src) + 3 * src) * drift :=
    Nat.mul_le_mul_right _ (by rw [Nat.add_mul, Nat.one_mul] at limitDown; omega)
  have slow : 3 * drift < rate * dst := by omega
  have spare : src * (3 * drift) < src * (rate * dst) := Nat.mul_lt_mul_of_pos_left slow positive
  have lost : rate * src + 5 * (rate * dst) < 2 * (there * drift) := by
    apply Nat.lt_of_mul_lt_mul_left (a := src)
    nlinarith only [reach, spare, large]
  obtain ⟨backUp, backDown⟩ := nearest_bounds there unit counts
  have below : 2 * (there * src) + src ≤ 2 * (limit * dst) := by
    rw [Nat.add_mul, Nat.one_mul] at limitUp
    omega
  rcases drifts with above | above
  · have last := @nearest_last src dst there dense finer
    have parts := Nat.div_add_mod ((2 * there + 1) * src - 1) (2 * dst)
    have rest := Nat.mod_lt ((2 * there + 1) * src - 1) (by omega : 2 * dst > 0)
    generalize ((2 * there + 1) * src - 1) / (2 * dst) = count at last parts
    have whole : (2 * there + 1) * src = 2 * (there * src) + src := by ring
    have once : src ≤ there * src := Nat.le_mul_of_pos_left _ some_
    rw [Nat.mul_assoc] at parts
    refine ⟨count, ?_, ?_, .inl ?_⟩
    · refine Nat.pos_of_ne_zero fun none => ?_
      rw [none] at parts
      omega
    · refine Nat.le_of_mul_le_mul_left ?_ dense
      rw [Nat.mul_comm dst limit]
      omega
    · rw [last]
      have scaled : rate * (2 * (there * src) + src) ≤ rate * (2 * (dst * count) + 2 * dst) :=
        Nat.mul_le_mul_left _ (by omega)
      have undone := Nat.mul_le_mul_right dst backUp
      have drifted := congrArg (there * ·) above
      simp only [Nat.mul_add] at drifted
      apply Nat.lt_of_mul_lt_mul_left (a := 2 * rate)
      nlinarith only [scaled, undone, drifted, lost]
  · have first := @nearest_first src dst there dense finer some_
    have parts := Nat.div_add_mod ((2 * there - 1) * src + (2 * dst - 1)) (2 * dst)
    have rest := Nat.mod_lt ((2 * there - 1) * src + (2 * dst - 1)) (by omega : 2 * dst > 0)
    generalize ((2 * there - 1) * src + (2 * dst - 1)) / (2 * dst) = count at first parts
    have once : src ≤ there * src := Nat.le_mul_of_pos_left _ some_
    have whole : (2 * there - 1) * src + src = 2 * (there * src) := by
      rw [← Nat.succ_mul, ← Nat.mul_assoc]
      congr 1
      omega
    rw [Nat.mul_assoc] at parts
    refine ⟨count, ?_, ?_, .inr ?_⟩
    · refine Nat.pos_of_ne_zero fun none => ?_
      rw [none] at parts
      omega
    · refine Nat.le_of_mul_le_mul_left ?_ dense
      rw [Nat.mul_comm dst limit]
      omega
    · rw [first]
      have scaled : rate * (2 * (dst * count)) ≤ rate * (2 * (there * src) - src + 2 * dst) :=
        Nat.mul_le_mul_left _ (by omega)
      have undone := Nat.mul_lt_mul_of_pos_right backDown dense
      have drifted := congrArg (there * ·) above
      simp only [Nat.mul_add] at drifted
      have split : rate * (2 * (there * src) - src + 2 * dst) + rate * src =
          rate * (2 * (there * src)) + rate * (2 * dst) := by
        rw [← Nat.mul_add, ← Nat.mul_add]
        congr 1
        omega
      apply Nat.lt_of_mul_lt_mul_left (a := 2 * rate)
      nlinarith only [scaled, undone, drifted, lost, split]

end rounding

section adjusting

variable {count whole part : Nat}

theorem lengthened_eq (positive : 0 < whole) :
    lengthened count whole part = down count whole (whole + part) := by
  rw [lengthened, down, down, Nat.mul_add, Nat.mul_comm count whole, Nat.mul_add_div positive]

theorem shortened_le (count : Nat) (positive : 0 < whole) (less : part ≤ whole) :
    down count whole part ≤ count := by
  refine (Nat.div_le_iff_le_mul_add_pred positive).mpr ?_
  calc count * part ≤ count * whole := Nat.mul_le_mul_left _ less
    _ ≤ whole * count + (whole - 1) := by rw [Nat.mul_comm]; omega

/-- A shortened count is the scaled count rounded up. -/
theorem shortened_bounds (count : Nat) (positive : 0 < whole) (less : part ≤ whole) :
    count * (whole - part) ≤ shortened count whole part * whole ∧
      shortened count whole part * whole < count * (whole - part) + whole := by
  have below := down_le count part positive
  have above := lt_down count part positive
  have small := shortened_le count positive less
  have product : count * part ≤ count * whole := Nat.mul_le_mul_left _ less
  have scaled : down count whole part * whole ≤ count * whole := Nat.mul_le_mul_right _ small
  rw [shortened, Nat.sub_mul, Nat.mul_sub]
  omega

theorem lengthened_mono {longer : Nat} (shorter : count ≤ longer) :
    lengthened count whole part ≤ lengthened longer whole part :=
  Nat.add_le_add shorter (down_mono shorter)

theorem shortened_mono {longer : Nat} (positive : 0 < whole) (less : part ≤ whole)
    (shorter : count ≤ longer) : shortened count whole part ≤ shortened longer whole part := by
  have first := shortened_bounds count positive less
  have second := shortened_bounds longer positive less
  have scaled : count * (whole - part) ≤ longer * (whole - part) := Nat.mul_le_mul_right _ shorter
  refine Nat.lt_succ_iff.mp (Nat.lt_of_mul_lt_mul_right ?_ (a := whole))
  rw [Nat.succ_mul]
  omega

/-- The lengthening of a sum, less one at most, is that of its parts. -/
theorem lengthened_add (count more part : Nat) (positive : 0 < whole) :
    lengthened count whole part + lengthened more whole part ≤
        lengthened (count + more) whole part ∧
      lengthened (count + more) whole part ≤
        lengthened count whole part + lengthened more whole part + 1 := by
  have sum := @down_add count whole part more positive
  unfold lengthened
  omega

theorem shortened_add (count more : Nat) (positive : 0 < whole) (less : part ≤ whole) :
    shortened (count + more) whole part ≤ shortened count whole part + shortened more whole part ∧
      shortened count whole part + shortened more whole part ≤
        shortened (count + more) whole part + 1 := by
  have sum := @down_add count whole part more positive
  have first := shortened_le count positive less
  have second := shortened_le more positive less
  have both := shortened_le (count + more) positive less
  unfold shortened
  omega

theorem lengthened_undo (count part : Nat) (positive : 0 < whole) :
    down (lengthened count whole part) (whole + part) whole ≤ count ∧
      count ≤ down (lengthened count whole part) (whole + part) whole + 1 := by
  have lower := down_le count (whole + part) positive
  have upper := lt_down count (whole + part) positive
  rw [← lengthened_eq positive] at lower upper
  constructor
  · refine (Nat.div_le_iff_le_mul_add_pred (by omega)).mpr ?_
    rw [Nat.mul_comm (whole + part)]
    omega
  · refine Nat.lt_succ_iff.mp (Nat.lt_of_mul_lt_mul_right ?_ (a := whole + part))
    have undone := lt_down (lengthened count whole part) whole (by omega : 0 < whole + part)
    rw [Nat.succ_mul, Nat.add_mul]
    omega

theorem shortened_undo (count : Nat) (positive : 0 < whole) (less : 2 * part ≤ whole) :
    count ≤ down (shortened count whole part) (whole - part) whole ∧
      down (shortened count whole part) (whole - part) whole ≤ count + 1 := by
  obtain ⟨lower, upper⟩ := shortened_bounds count positive (by omega : part ≤ whole)
  constructor
  · exact (Nat.le_div_iff_mul_le (by omega)).mpr lower
  · refine Nat.lt_succ_iff.mp ((Nat.div_lt_iff_lt_mul (by omega)).mpr ?_)
    calc shortened count whole part * whole
        < count * (whole - part) + whole := upper
      _ ≤ count * (whole - part) + 2 * (whole - part) := by omega
      _ = (count + 1 + 1) * (whole - part) := by ring

end adjusting

end Scaling

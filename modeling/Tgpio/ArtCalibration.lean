import Tgpio.ArtMaintenance
import Tgpio.PhcMapping

/-!
# Calibration of the ART clock against CLOCK_REALTIME

With `art_calibration=realtime` the refine work keeps a ring of samples that
pair ART with `CLOCK_REALTIME`, measures the rate over the window they span, and
folds its error into a moving average. On top of the average comes the
operator's trim.
-/

namespace Tgpio

open Scaling

set_option autoImplicit false

section trim

theorem tdiv_eq_with_sign (value : Int) (dst src : Nat) :
    (value * dst).tdiv src = withSign value (down value.natAbs src dst) := by
  unfold withSign down
  split
  next negative =>
    have size : value = -(value.natAbs : Int) := by omega
    rw [size, Int.neg_mul, Int.neg_tdiv, ← Int.natCast_mul, Int.ofNat_tdiv, Int.natAbs_neg,
      Int.natAbs_natCast]
  next positive =>
    have size : value = (value.natAbs : Int) := by omega
    rw [size, ← Int.natCast_mul, Int.ofNat_tdiv, Int.natAbs_natCast]

def clampedTrim (rateTrimPpb : Int) : Int := max (-500000) (min rateTrimPpb 500000)

theorem trim_applied (rateTrimPpb : Int) :
    scaledPpmToPpb (rateTrimScaledPpm rateTrimPpb) =
      withSign (-clampedTrim rateTrimPpb)
        (down (down (clampedTrim rateTrimPpb).natAbs 1000 65536) 65536 1000) := by
  have stored : rateTrimScaledPpm rateTrimPpb =
      withSign (-clampedTrim rateTrimPpb) (down (clampedTrim rateTrimPpb).natAbs 1000 65536) := by
    rw [← Int.natAbs_neg]
    exact tdiv_eq_with_sign (-clampedTrim rateTrimPpb) 65536 1000
  have small : (clampedTrim rateTrimPpb).natAbs ≤ 500000 := by
    unfold clampedTrim
    omega
  have most : down (clampedTrim rateTrimPpb).natAbs 1000 65536 ≤ 32768000 :=
    (down_mono small).trans (by decide)
  rw [stored]
  generalize down (clampedTrim rateTrimPpb).natAbs 1000 65536 = scaled at most
  have range : -32768000 ≤ withSign (-clampedTrim rateTrimPpb) scaled ∧
      withSign (-clampedTrim rateTrimPpb) scaled ≤ 32768000 := by
    unfold withSign
    split <;> omega
  have upper : (s64Max : Int).tdiv 1000 = 9223372036854775 := by decide
  have lower : s64Min.tdiv 1000 = -9223372036854775 := by decide
  unfold scaledPpmToPpb
  rw [upper, lower, if_neg (by omega), if_neg (by omega)]
  have back := tdiv_eq_with_sign (withSign (-clampedTrim rateTrimPpb) scaled) 1000 65536
  rw [with_sign_nat_abs, with_sign_trans fun none => by rw [none, down_zero]] at back
  exact back

/-- The stored trim stands for the trim itself exactly when it is a multiple of
125: 65.536 units to the part in a thousand million, both ways rounded down. -/
theorem trim_applied_iff (rateTrimPpb : Int) :
    scaledPpmToPpb (rateTrimScaledPpm rateTrimPpb) = -clampedTrim rateTrimPpb ↔
      125 ∣ clampedTrim rateTrimPpb := by
  have back := @down_there_and_back (clampedTrim rateTrimPpb).natAbs 1000 65536 (by decide)
    (by decide)
  rw [trim_applied, back]
  unfold withSign
  split <;> split <;> omega

theorem unit_trim_lost :
    ¬∀ rateTrimPpb, scaledPpmToPpb (rateTrimScaledPpm rateTrimPpb) = -clampedTrim rateTrimPpb := by
  intro exact_
  exact absurd (exact_ 1) (by decide)

end trim

/-- `mul_u64_u64_div_u64` of the kernel. A quotient of more than 64 bits stops
the machine or comes out as the largest value. -/
structure WideDivision where
  run : Nat → Nat → Nat → Option Nat
  exact : ∀ first second divisor, 0 < divisor → first * second / divisor < 2 ^ 64 →
    run first second divisor = some (first * second / divisor)
  overflow : ∀ first second divisor, 0 < divisor → 2 ^ 64 ≤ first * second / divisor →
    run first second divisor = none ∨ run first second divisor = some u64Max

def wideDivision (saturates : Bool) : WideDivision where
  run first second divisor :=
    if first * second / divisor < 2 ^ 64 then some (first * second / divisor)
    else if saturates then some u64Max else none
  exact _ _ _ _ fits := if_pos fits
  overflow _ _ _ _ large := by
    rw [if_neg (Nat.not_lt.mpr large)]
    cases saturates with
    | false => exact .inl rfl
    | true => exact .inr rfl

def artCalRing : Nat := 8

structure ArtCalibration where
  clock : ArtClock
  /-- `tgpio_art_cal_base`. -/
  base : Nat
  /-- The moving average of the rate error, in thousandths of a ppb. -/
  emaMppb : Int
  slots : Fin artCalRing → ArtRawSample
  head : Fin artCalRing
  count : Nat

def ArtCalibration.oldest (cal : ArtCalibration) : ArtRawSample :=
  cal.slots (if cal.count < artCalRing then ⟨0, by decide⟩ else cal.head)

/-- The part of a run before the rate is measured: the sample is stored, or the
window is dropped. The distance from the oldest sample is answered when the
window is long enough. -/
def calibrationWindow (cal : ArtCalibration) (real : ArtRawSample) :
    ArtCalibration × Option (Nat × Int) :=
  if cal.count = 0 then
    ({ cal with
        slots := Function.update cal.slots ⟨0, by decide⟩ real
        head := ⟨1, by decide⟩
        count := 1 }, none)
  else if real.raw ≤ cal.oldest.raw ∨ real.art ≤ cal.oldest.art then ({ cal with count := 0 }, none)
  else
    let deltaArt := real.art - cal.oldest.art
    let deltaReal := toS64 (real.raw - cal.oldest.raw)
    ({ cal with
        slots := Function.update cal.slots cal.head real
        head := ⟨(cal.head + 1) % artCalRing, Nat.mod_lt _ (by decide)⟩
        count := if cal.count < artCalRing then cal.count + 1 else cal.count },
      if deltaReal < (25 * nsecPerSec : Nat) then none else some (deltaArt, deltaReal))

/-- The rate error over a window; nothing when a division stops the machine. -/
def windowRateError (divide : WideDivision) (base deltaArt : Nat) (deltaReal : Int) :
    Option Int := do
  let expect ← divide.run (toU64 deltaReal) base nsecPerSec
  let errCycles := toS64 (deltaArt - expect)
  let errMppb ← divide.run (toU64 (if errCycles < 0 then -errCycles else errCycles))
    (nsecPerSec * 1000) deltaArt
  return if errCycles < 0 then toS64 (-toS64 errMppb) else toS64 errMppb

/-- A large error drops the window; any other goes into the average, and the
model takes the rate of the average and the trim. The flag says whether running
outputs are refreshed. -/
def foldRateError (rateTrimPpb : Int) (cal : ArtCalibration) (art : Nat) (errMppb : Int) :
    ArtCalibration × Bool :=
  if errMppb > 100000000 ∨ errMppb < -100000000 then ({ cal with count := 0 }, false)
  else
    let ema := toS64 (cal.emaMppb + (toS64 ((errMppb - cal.emaMppb) * 3)).tdiv 10)
    let scaled := toS64 ((toS64 (-ema * 65536)).tdiv 1000000 + rateTrimScaledPpm rateTrimPpb)
    let (clock, refreshed) := applyRate cal.clock art cal.base scaled
    ({ cal with emaMppb := ema, clock := clock }, refreshed)

structure CalibrationTick where
  rateTrimPpb : Int
  now : Except Errno ArtRawSample
  real : Except Errno ArtRawSample

def artCalibrateWork (divide : WideDivision) (cal : ArtCalibration) (tick : CalibrationTick) :
    Option (ArtCalibration × Bool) :=
  match tick.now, tick.real with
  | .ok now, .ok real =>
    match calibrationWindow cal real with
    | (kept, none) => some (kept, false)
    | (kept, some (deltaArt, deltaReal)) =>
      (windowRateError divide kept.base deltaArt deltaReal).map
        (foldRateError tick.rateTrimPpb kept now.art)
  | _, _ => some (cal, false)

/-- The runs since load, the oldest first. -/
def calibratedBy (divide : WideDivision) (clock : ArtClock) (base : Nat)
    (ticks : List CalibrationTick) : Option ArtCalibration :=
  ticks.foldlM (fun cal tick => (artCalibrateWork divide cal tick).map Prod.fst)
    ⟨clock, base, 0, fun _ => .zero, ⟨0, by decide⟩, 0⟩

section window

variable (base deltaArt : Nat) (deltaReal : Int)

def expectedCycles : Nat := deltaReal.toNat * base / nsecPerSec

def errorQuotient : Nat :=
  (toS64 (deltaArt - expectedCycles base deltaReal)).natAbs * (nsecPerSec * 1000) / deltaArt

/-- The rate over a window is off from the base rate by more than 101 ppm. -/
def Stepped : Prop :=
  101 * (deltaReal * base) < 10 ^ 6 * |(deltaArt : Int) * 10 ^ 9 - deltaReal * base|

/-- A window whose error is within the range of the driver's quotient, or, for
one that wraps the signed difference, far enough from coming out small. -/
def InRange : Prop :=
  if ((deltaArt : Int) - expectedCycles base deltaReal).natAbs < 2 ^ 63 then
    errorQuotient base deltaArt deltaReal < 2 ^ 64 - 10 ^ 8
  else 10 ^ 8 < errorQuotient base deltaArt deltaReal

structure MeasuredWindow : Prop where
  fast : 1000000 ≤ base
  slow : base ≤ 100000000
  art : 0 < deltaArt
  narrow : deltaArt < 2 ^ 64
  long : 25 * nsecPerSec ≤ deltaReal
  short : deltaReal < 2 ^ 63

variable {base deltaArt deltaReal}

theorem window_rate_error_eq (divide : WideDivision) (measured : MeasuredWindow base deltaArt deltaReal)
    (fits : errorQuotient base deltaArt deltaReal < 2 ^ 64) :
    windowRateError divide base deltaArt deltaReal =
      some (if toS64 (deltaArt - expectedCycles base deltaReal) < 0 then
          toS64 (-toS64 (errorQuotient base deltaArt deltaReal))
        else toS64 (errorQuotient base deltaArt deltaReal)) := by
  have long := measured.long
  have short := measured.short
  have real : toU64 deltaReal = deltaReal.toNat := by
    have exact_ := @to_u64_of_range deltaReal (by omega) (by omega)
    omega
  have expected : divide.run deltaReal.toNat base nsecPerSec =
      some (expectedCycles base deltaReal) := by
    refine divide.exact _ _ _ (by decide) ?_
    have product : deltaReal.toNat * base ≤ 2 ^ 63 * 100000000 :=
      Nat.mul_le_mul (by omega) measured.slow
    unfold nsecPerSec
    omega
  unfold windowRateError
  rw [real, expected]
  simp only [Option.bind_eq_bind, Option.bind_some]
  unfold errorQuotient at fits ⊢
  generalize expectedCycles base deltaReal = expect at fits ⊢
  have range := to_s64_range (deltaArt - expect)
  generalize toS64 (deltaArt - expect) = err at fits range ⊢
  have size : toU64 (if err < 0 then -err else err) = err.natAbs := by
    have exact_ := @to_u64_of_range (if err < 0 then -err else err) (by split <;> omega)
      (by split <;> omega)
    split at exact_ <;> split <;> omega
  rw [size, divide.exact _ _ _ measured.art fits]
  rfl

/-- The signed reading of a quotient is out of bounds unless the quotient is
small, or near the end of the 64-bit range, where it reads as a small negative
value. -/
theorem reading_rejected_iff {quotient : Nat} (negative : Prop) [Decidable negative]
    (fits : quotient < 2 ^ 64) :
    ((if negative then toS64 (-toS64 quotient) else toS64 quotient) > 100000000 ∨
        (if negative then toS64 (-toS64 quotient) else toS64 quotient) < -100000000) ↔
      10 ^ 8 < quotient ∧ quotient < 2 ^ 64 - 10 ^ 8 := by
  have reads : toS64 quotient = if quotient < 2 ^ 63 then (quotient : Int) else quotient - 2 ^ 64 := by
    unfold toS64 Int.bmod
    dsimp only
    split <;> split <;> omega
  have turned : toS64 (-toS64 quotient) =
      if quotient = 2 ^ 63 then -(2 ^ 63) else -toS64 quotient := by
    rw [reads]
    unfold toS64 Int.bmod
    dsimp only
    split <;> split <;> split <;> omega
  rw [turned, reads]
  split <;> split <;> (try split) <;> omega

theorem MeasuredWindow.counts (measured : MeasuredWindow base deltaArt deltaReal) :
    ∃ product : Nat, deltaReal * base = product ∧ 25000000000000000 ≤ product ∧
      product ≤ 2 ^ 63 * 100000000 ∧ expectedCycles base deltaReal = product / 1000000000 := by
  have long := measured.long
  have short := measured.short
  unfold nsecPerSec at long
  have least : 25000000000 * 1000000 ≤ deltaReal.toNat * base :=
    Nat.mul_le_mul (by omega) measured.fast
  have most : deltaReal.toNat * base ≤ 2 ^ 63 * 100000000 :=
    Nat.mul_le_mul (by omega) measured.slow
  refine ⟨deltaReal.toNat * base, ?_, least, most, rfl⟩
  rw [Int.natCast_mul, Int.toNat_of_nonneg (by omega)]

theorem quotient_of_step (measured : MeasuredWindow base deltaArt deltaReal)
    (stepped : Stepped base deltaArt deltaReal)
    (narrow : ((deltaArt : Int) - expectedCycles base deltaReal).natAbs < 2 ^ 63) :
    10 ^ 8 < errorQuotient base deltaArt deltaReal := by
  obtain ⟨product, isProduct, least, most, isExpected⟩ := measured.counts
  unfold Stepped at stepped
  rw [isProduct] at stepped
  refine (Nat.le_div_iff_mul_le measured.art).mpr ?_
  rw [isExpected] at narrow ⊢
  rw [to_s64_of_range (by omega) (by omega)]
  unfold nsecPerSec
  rcases abs_cases ((deltaArt : Int) * 10 ^ 9 - product) with ⟨size, side⟩ | ⟨size, side⟩ <;>
    rw [size] at stepped <;> omega

theorem step_of_quotient (measured : MeasuredWindow base deltaArt deltaReal)
    (narrow : ((deltaArt : Int) - expectedCycles base deltaReal).natAbs < 2 ^ 63)
    (large : 2 ^ 64 - 10 ^ 8 ≤ errorQuotient base deltaArt deltaReal) :
    Stepped base deltaArt deltaReal := by
  obtain ⟨product, isProduct, least, most, isExpected⟩ := measured.counts
  have positive := measured.art
  have error := (Nat.le_div_iff_mul_le positive).mp large
  rw [isExpected] at narrow error
  rw [to_s64_of_range (by omega) (by omega)] at error
  unfold nsecPerSec at error
  unfold Stepped
  rw [isProduct]
  rcases abs_cases ((deltaArt : Int) * 10 ^ 9 - product) with ⟨size, side⟩ | ⟨size, side⟩ <;>
    rw [size] <;> omega

/-- A difference that wraps comes from a step, and its quotient is small. -/
theorem step_of_wrap (measured : MeasuredWindow base deltaArt deltaReal)
    (wraps : ¬((deltaArt : Int) - expectedCycles base deltaReal).natAbs < 2 ^ 63) :
    Stepped base deltaArt deltaReal ∧ errorQuotient base deltaArt deltaReal ≤ 10 ^ 12 := by
  obtain ⟨product, isProduct, least, most, isExpected⟩ := measured.counts
  have narrow := measured.narrow
  have range := to_s64_range ((deltaArt : Int) - expectedCycles base deltaReal)
  constructor
  · unfold Stepped
    rw [isProduct]
    rw [isExpected] at wraps
    rcases abs_cases ((deltaArt : Int) * 10 ^ 9 - product) with ⟨size, side⟩ | ⟨size, side⟩ <;>
      rw [size] <;> omega
  · unfold errorQuotient
    generalize isDifference : toS64 ((deltaArt : Int) - expectedCycles base deltaReal) = difference
      at range ⊢
    have wide : difference.natAbs ≤ deltaArt := by omega
    refine Nat.div_le_of_le_mul ?_
    unfold nsecPerSec
    omega

end window

structure ArtCalibration.Rated (cal : ArtCalibration) : Prop where
  fast : 1000000 ≤ cal.base
  slow : cal.base ≤ 100000000

def Measures (cal : ArtCalibration) (tick : CalibrationTick) (now : ArtRawSample)
    (kept : ArtCalibration) (deltaArt : Nat) (deltaReal : Int) : Prop :=
  tick.now = .ok now ∧ ∃ real, tick.real = .ok real ∧
    calibrationWindow cal real = (kept, some (deltaArt, deltaReal))

/-- A run does not let a step through: its division has a quotient, and a
stepped window is dropped with the average and the model as they were. -/
def KeepsStepOut (divide : WideDivision) (cal : ArtCalibration) (tick : CalibrationTick) : Prop :=
  ∀ now kept deltaArt deltaReal, Measures cal tick now kept deltaArt deltaReal →
    errorQuotient cal.base deltaArt deltaReal < 2 ^ 64 ∧
      (Stepped cal.base deltaArt deltaReal → ∃ after,
        artCalibrateWork divide cal tick = some (after, false) ∧ after.count = 0 ∧
          after.emaMppb = cal.emaMppb ∧ after.clock = cal.clock)

def WindowInRange (cal : ArtCalibration) (tick : CalibrationTick) : Prop :=
  ∀ now kept deltaArt deltaReal, Measures cal tick now kept deltaArt deltaReal →
    InRange cal.base deltaArt deltaReal

section runs

variable {cal kept : ArtCalibration} {tick : CalibrationTick} {now : ArtRawSample}
  {deltaArt : Nat} {deltaReal : Int}

theorem window_keeps {measured : Option (Nat × Int)} {real : ArtRawSample}
    (window : calibrationWindow cal real = (kept, measured)) :
    kept.clock = cal.clock ∧ kept.base = cal.base ∧ kept.emaMppb = cal.emaMppb := by
  unfold calibrationWindow at window
  split at window
  · cases window
    exact ⟨rfl, rfl, rfl⟩
  split at window
  · cases window
    exact ⟨rfl, rfl, rfl⟩
  · cases window
    exact ⟨rfl, rfl, rfl⟩

theorem window_measured {real : ArtRawSample} (rated : cal.Rated)
    (window : calibrationWindow cal real = (kept, some (deltaArt, deltaReal))) :
    0 < kept.count ∧ MeasuredWindow cal.base deltaArt deltaReal := by
  unfold calibrationWindow at window
  split at window
  · cases window
  rename_i used
  split at window
  · cases window
  rename_i advances
  obtain ⟨isKept, isMeasured⟩ := Prod.mk.inj window
  split at isMeasured
  · contradiction
  rename_i long
  obtain ⟨isArt, isReal⟩ := Prod.mk.inj (Option.some.inj isMeasured)
  have range := real.artInRange
  constructor
  · rw [← isKept]
    dsimp only
    split <;> omega
  · rw [← isArt, ← isReal]
    exact ⟨rated.fast, rated.slow, by omega, by omega, by push_cast at long; omega,
      (to_s64_range _).2⟩

theorem calibrate_work_eq (divide : WideDivision) (rated : cal.Rated)
    (measures : Measures cal tick now kept deltaArt deltaReal)
    (fits : errorQuotient cal.base deltaArt deltaReal < 2 ^ 64) :
    ∃ err, artCalibrateWork divide cal tick =
        some (foldRateError tick.rateTrimPpb kept now.art err) ∧
      ((err > 100000000 ∨ err < -100000000) ↔
        10 ^ 8 < errorQuotient cal.base deltaArt deltaReal ∧
          errorQuotient cal.base deltaArt deltaReal < 2 ^ 64 - 10 ^ 8) := by
  obtain ⟨isNow, real, isReal, window⟩ := measures
  have measured := (window_measured rated window).2
  have reading := window_rate_error_eq divide measured fits
  refine ⟨_, ?_, reading_rejected_iff
    (toS64 (deltaArt - expectedCycles cal.base deltaReal) < 0) fits⟩
  unfold artCalibrateWork
  rw [isNow, isReal]
  dsimp only
  rw [window]
  dsimp only
  rw [(window_keeps window).2.1, reading]
  rfl

theorem keeps_step_out_iff (divide : WideDivision) (rated : cal.Rated) :
    KeepsStepOut divide cal tick ↔ WindowInRange cal tick := by
  constructor
  · intro keeps now kept deltaArt deltaReal measures
    obtain ⟨fits, rejects⟩ := keeps now kept deltaArt deltaReal measures
    obtain ⟨-, real, -, window⟩ := id measures
    obtain ⟨used, measured⟩ := window_measured rated window
    obtain ⟨err, folds, rejected⟩ := calibrate_work_eq divide rated measures fits
    -- a window that is dropped had its reading rejected
    have reading : Stepped cal.base deltaArt deltaReal →
        10 ^ 8 < errorQuotient cal.base deltaArt deltaReal ∧
          errorQuotient cal.base deltaArt deltaReal < 2 ^ 64 - 10 ^ 8 := by
      intro stepped
      obtain ⟨after, works, dropped, -⟩ := rejects stepped
      rw [folds] at works
      rw [← rejected]
      by_contra accepted
      unfold foldRateError at works
      rw [if_neg accepted] at works
      have counted := congrArg (fun run => run.1.count) (Option.some.inj works)
      change kept.count = after.count at counted
      omega
    unfold InRange
    split
    next narrow =>
      by_contra large
      have stepped := step_of_quotient measured narrow (by omega)
      exact large (reading stepped).2
    next wraps => exact (reading (step_of_wrap measured wraps).1).1
  · intro within now kept deltaArt deltaReal measures
    obtain ⟨-, real, -, window⟩ := id measures
    obtain ⟨used, measured⟩ := window_measured rated window
    have inRange := within now kept deltaArt deltaReal measures
    unfold InRange at inRange
    have fits : errorQuotient cal.base deltaArt deltaReal < 2 ^ 64 - 10 ^ 8 := by
      split at inRange
      · exact inRange
      · rename_i wraps
        have small := (step_of_wrap measured wraps).2
        omega
    refine ⟨by omega, fun stepped => ?_⟩
    have large : 10 ^ 8 < errorQuotient cal.base deltaArt deltaReal := by
      split at inRange
      · rename_i narrow
        exact quotient_of_step measured stepped narrow
      · exact inRange
    obtain ⟨err, folds, rejected⟩ := calibrate_work_eq divide rated measures (by omega)
    have kept_ := window_keeps window
    refine ⟨{ kept with count := 0 }, ?_, rfl, kept_.2.2, kept_.1⟩
    rw [folds]
    unfold foldRateError
    rw [if_pos (rejected.mpr ⟨large, fits⟩)]

theorem average_step {ema err : Int} (average : |ema| ≤ 10 ^ 8) (reading : |err| ≤ 10 ^ 8) :
    |toS64 (ema + (toS64 ((err - ema) * 3)).tdiv 10)| ≤ 10 ^ 8 := by
  rw [abs_le] at average reading ⊢
  rw [to_s64_of_range (by omega : -(2 ^ 63) ≤ (err - ema) * 3) (by omega)]
  have part : ((err - ema) * 3).tdiv 10 * 10 ≤ (err - ema) * 3 + 9 ∧
      (err - ema) * 3 ≤ ((err - ema) * 3).tdiv 10 * 10 + 9 := by
    have sign : Int.sign 10 = 1 := rfl
    rw [Int.tdiv_eq_ediv, sign]
    split <;> omega
  have inside : -(10 ^ 8) ≤ ema + ((err - ema) * 3).tdiv 10 ∧
      ema + ((err - ema) * 3).tdiv 10 ≤ 10 ^ 8 := by omega
  rw [to_s64_of_range (by omega) (by omega)]
  exact inside

theorem calibrate_work_average {divide : WideDivision} {after : ArtCalibration} {refreshed : Bool}
    (average : |cal.emaMppb| ≤ 10 ^ 8)
    (works : artCalibrateWork divide cal tick = some (after, refreshed)) :
    |after.emaMppb| ≤ 10 ^ 8 ∧ after.base = cal.base := by
  unfold artCalibrateWork at works
  split at works
  next now real isNow isReal =>
    split at works
    next kept window =>
      cases works
      have same := window_keeps window
      exact ⟨same.2.2 ▸ average, same.2.1⟩
    next kept deltaArt deltaReal window =>
      have same := window_keeps window
      obtain ⟨err, -, folds⟩ := Option.map_eq_some_iff.mp works
      unfold foldRateError at folds
      split at folds
      · cases folds
        exact ⟨same.2.2 ▸ average, same.2.1⟩
      · rename_i accepted
        cases folds
        refine ⟨average_step (same.2.2 ▸ average) (abs_le.mpr ?_), same.2.1⟩
        omega
  next =>
    cases works
    exact ⟨average, rfl⟩

theorem calibrated_by_append {divide : WideDivision} {clock : ArtClock} {base : Nat}
    (before : List CalibrationTick) (tick : CalibrationTick) :
    calibratedBy divide clock base (before ++ [tick]) =
      (calibratedBy divide clock base before).bind fun cal =>
        (artCalibrateWork divide cal tick).map Prod.fst := by
  unfold calibratedBy
  rw [List.foldlM_append]
  simp

theorem calibrated_average {divide : WideDivision} {clock : ArtClock} {base : Nat}
    (ticks : List CalibrationTick) (cal : ArtCalibration)
    (reached : calibratedBy divide clock base ticks = some cal) :
    |cal.emaMppb| ≤ 10 ^ 8 ∧ cal.base = base := by
  induction ticks using List.reverseRecOn generalizing cal with
  | nil =>
      cases reached
      refine ⟨?_, rfl⟩
      change |(0 : Int)| ≤ 10 ^ 8
      decide
  | append_singleton before tick ih =>
      rw [calibrated_by_append] at reached
      obtain ⟨last, found, works⟩ := Option.bind_eq_some_iff.mp reached
      obtain ⟨⟨after, refreshed⟩, runs, same⟩ := Option.map_eq_some_iff.mp works
      cases same
      obtain ⟨average, rate⟩ := ih last found
      have next := calibrate_work_average average runs
      exact ⟨next.1, next.2.trans rate⟩

theorem calibrate_work_defined (divide : WideDivision) (rated : cal.Rated)
    (within : WindowInRange cal tick) : ∃ run, artCalibrateWork divide cal tick = some run := by
  unfold artCalibrateWork
  split
  next now real isNow isReal =>
    split
    next => exact ⟨_, rfl⟩
    next kept deltaArt deltaReal window =>
      have measures : Measures cal tick now kept deltaArt deltaReal := ⟨isNow, real, isReal, window⟩
      have fits := ((keeps_step_out_iff divide rated).mpr within now kept _ _ measures).1
      obtain ⟨err, folds, -⟩ := calibrate_work_eq divide rated measures fits
      unfold artCalibrateWork at folds
      rw [isNow, isReal] at folds
      dsimp only at folds
      rw [window] at folds
      exact ⟨_, folds⟩
  next => exact ⟨_, rfl⟩

end runs

/-- In every state since load the average is within 100 ppm, and the next run
keeps a step of the system clock out of it exactly when its window is in range. A
calibration all of whose windows are in range never stops. -/
theorem stepped_clock_kept_out_iff (divide : WideDivision) (clock : ArtClock) (base : Nat)
    (rated : 1000000 ≤ base ∧ base ≤ 100000000) :
    (∀ before cal, calibratedBy divide clock base before = some cal →
      |cal.emaMppb| ≤ 10 ^ 8 ∧ ∀ tick, KeepsStepOut divide cal tick ↔ WindowInRange cal tick) ∧
    ∀ ticks, (∀ before tick cal, before ++ [tick] <+: ticks →
        calibratedBy divide clock base before = some cal → WindowInRange cal tick) →
      ∃ cal, calibratedBy divide clock base ticks = some cal := by
  have known (before : List CalibrationTick) (cal : ArtCalibration)
      (reached : calibratedBy divide clock base before = some cal) :
      |cal.emaMppb| ≤ 10 ^ 8 ∧ cal.Rated := by
    obtain ⟨average, same⟩ := calibrated_average before cal reached
    exact ⟨average, same ▸ rated.1, same ▸ rated.2⟩
  constructor
  · intro before cal reached
    obtain ⟨average, within⟩ := known before cal reached
    exact ⟨average, fun tick => keeps_step_out_iff divide within⟩
  · intro ticks within
    induction ticks using List.reverseRecOn with
    | nil => exact ⟨_, rfl⟩
    | append_singleton before tick ih =>
        obtain ⟨cal, reached⟩ := ih fun first next cal earlier =>
          within first next cal (earlier.trans (List.prefix_append before [tick]))
        have inRange := within before tick cal List.prefix_rfl reached
        obtain ⟨⟨after, refreshed⟩, runs⟩ :=
          calibrate_work_defined divide (known before cal reached).2 inRange
        refine ⟨after, ?_⟩
        rw [calibrated_by_append, reached, Option.bind_some, runs]
        rfl

section cases

/-- The first run after load: the clock chip was dead and the system clock
starts in 1970. -/
def deadClockTick : CalibrationTick where
  rateTrimPpb := 0
  now := .ok earlySample
  real := .ok earlySample

def laterTick (real : Int) (inRange : -(2 ^ 63) ≤ real ∧ real < 2 ^ 63) : CalibrationTick where
  rateTrimPpb := 0
  now := .ok ⟨2545600000, 41250000000, 0, by decide, by decide⟩
  real := .ok ⟨2545600000, real, 0, by decide, inRange⟩

/-- The time is put forward by an hour between two runs: the window is dropped. -/
theorem stepped_clock_kept_out_iff_hour :
    ∃ cal, calibratedBy (wideDivision true) loadedArtClock 38400000 [deadClockTick] = some cal ∧
      cal.count = 1 ∧ ∃ after,
        artCalibrateWork (wideDivision true) cal (laterTick 3641250000000 (by decide)) =
          some (after, false) ∧
        after.count = 0 ∧ after.emaMppb = cal.emaMppb ∧ after.clock = cal.clock := by
  have states := (stepped_clock_kept_out_iff (wideDivision true) loadedArtClock 38400000
    (by decide)).1 [deadClockTick] _ rfl
  refine ⟨_, rfl, by decide +kernel, ?_⟩
  have keeps := (states.2 (laterTick 3641250000000 (by decide))).mpr ?_
  · refine (keeps _ _ 1152000000 3630000000000 ⟨rfl, _, rfl, rfl⟩).2 ?_
    unfold Stepped
    decide +kernel
  · rintro now kept deltaArt deltaReal ⟨isNow, real, isReal, window⟩
    cases isReal
    obtain ⟨-, isMeasured⟩ := Prod.mk.inj window
    cases isMeasured
    unfold InRange
    decide +kernel

/-- The time is set from the network between two runs: the division has no
quotient. -/
theorem first_set_overflows :
    ¬∀ (divide : WideDivision) (clock : ArtClock) (base : Nat),
      1000000 ≤ base ∧ base ≤ 100000000 → ∀ before cal tick,
        calibratedBy divide clock base before = some cal → KeepsStepOut divide cal tick := by
  intro keeps
  have kept := keeps (wideDivision true) loadedArtClock 38400000 (by decide) [deadClockTick] _
    (laterTick 1700000000000000000 (by decide)) rfl
  have fits := (kept _ _ 1152000000 1699999988750000000 ⟨rfl, _, rfl, rfl⟩).1
  exact absurd fits (by decide +kernel)

end cases

end Tgpio

import Tgpio.OutputHardware
import Tgpio.PhcSpans

/-!
# The times of a pulse

A PHC clock at its nominal rate: its time and `CLOCK_REALTIME` advance together,
and ART counts the cycles of both. The conversions are then the rounded
quotients, and the arm of a pulse lies where a few bounds on them say.
-/

namespace Tgpio

open Scaling

set_option autoImplicit false

def artCounter (hz phase : Nat) (real : Int) : BitVec 64 :=
  BitVec.ofNat 64 ((real.toNat * hz + phase) / nsecPerSec)

/-- A PHC clock with no trim and no calibration offset, its crystal between a
megahertz and a gigahertz, its anchor some decades away from the end of the
range of ART. -/
structure NominalClock (hz : Nat) (params : Params) (clocks : Clocks) : Prop where
  mode : params.clockMode = .phc
  rate : clocks.phc.baseArtHz = hz
  trim : clocks.phc.scaledPpm = 0
  offset : clocks.outputPhaseOffsetNs = 0
  snapshot : clocks.snapshotHasArt = true
  crystal : 1000000 ≤ hz ∧ hz ≤ nsecPerSec
  anchorArt : clocks.phc.anchorArt < 2 ^ 61
  anchorNs : 0 ≤ clocks.phc.anchorNs

/-- The moment of a request: ART counts by `CLOCK_REALTIME`, both after the
anchor and some decades away from the end of their ranges. -/
structure RequestClock (hz phase : Nat) (params : Params) (clocks : Clocks) : Prop
    extends NominalClock hz params clocks where
  counter : clocks.art = (clocks.real.toNat * hz + phase) / nsecPerSec
  room : clocks.art < 2 ^ 61
  real : 0 ≤ clocks.real ∧ clocks.real < 2 ^ 62
  anchored : clocks.phc.anchorArt ≤ clocks.art

/-- An ART value is that of a clock time, up to one cycle. -/
def AtTime (phc : PhcParams) (art : Nat) (ns : Int) : Prop :=
  (((art : Int) - phc.anchorArt) * nsecPerSec - (ns - phc.anchorNs) * phc.baseArtHz).natAbs ≤
    nsecPerSec

section conversions

variable {hz : Nat}

theorem untrimmed : scaledPpmToPpb 0 = 0 := by decide

theorem adjusted_to_base_untrimmed {ns : Nat} (fits : ns ≤ s64Max) :
    phcAdjustedToBaseDelta ns 0 = .ok ns := by
  have rate : toS64 (nsecPerSec + 0) = (nsecPerSec : Int) := by decide
  have sign : ¬(nsecPerSec : Int) ≤ 0 := by decide
  have whole : ¬ns / nsecPerSec > s64Max / nsecPerSec := by
    have quotient := Nat.div_le_div_right fits (c := nsecPerSec)
    omega
  have parts := Nat.div_add_mod ns nsecPerSec
  unfold s64Max at fits
  unfold phcAdjustedToBaseDelta
  dsimp only
  rw [rate, if_neg sign, Int.toNat_natCast, abs_s64_eq (by omega) (by omega), Int.natAbs_natCast,
    if_neg whole]
  have sum : u64 (u64 (ns / nsecPerSec * nsecPerSec) + u64 (ns % nsecPerSec * nsecPerSec) / nsecPerSec) =
      ns := by
    rw [u64_of_lt (by unfold nsecPerSec at *; omega : ns / nsecPerSec * nsecPerSec < 2 ^ 64),
      u64_of_lt (by unfold nsecPerSec; omega : ns % nsecPerSec * nsecPerSec < 2 ^ 64),
      Nat.mul_div_cancel _ (by decide), u64_of_lt (by unfold nsecPerSec at *; omega)]
    unfold nsecPerSec at *
    omega
  rw [sum, signed_ok (by unfold s64Max; omega), withSign, if_neg (by omega)]

theorem nearest_le_of_slow {ns : Nat} (slow : hz ≤ nsecPerSec) : nearest ns nsecPerSec hz ≤ ns := by
  have bounds := (nearest_bounds ns hz (by decide : 0 < nsecPerSec)).1
  have scaled := Nat.mul_le_mul_left ns slow
  unfold nsecPerSec at *
  omega

theorem ns_delta_to_cycles_of {ns cycles : Nat} (fits : ns ≤ s64Max) (counted : cycles ≤ s64Max)
    (scaled : rescaleCommon ns nsecPerSec hz true = .ok cycles) :
    nsDeltaToCycles ns hz true = .ok (cycles : Int) := by
  have size : absS64 (ns : Int) = ns := by
    unfold s64Max at fits
    rw [abs_s64_eq (by omega) (by omega), Int.natAbs_natCast]
  have sign : withSign (ns : Int) cycles = (cycles : Int) := if_neg (by omega)
  unfold nsDeltaToCycles rescaleNearest
  rw [size, if_pos rfl, scaled, ← sign]
  exact signed_ok counted

theorem ns_delta_to_cycles_eq {ns : Nat} (positive : 0 < hz) (slow : hz ≤ nsecPerSec)
    (fits : ns ≤ s64Max) : nsDeltaToCycles ns hz true = .ok (nearest ns nsecPerSec hz : Nat) := by
  have product : ns % nsecPerSec * hz < 2 ^ 64 := by
    have part : ns % nsecPerSec * hz ≤ nsecPerSec * nsecPerSec :=
      Nat.mul_le_mul (Nat.mod_lt _ (by decide)).le slow
    unfold nsecPerSec at part ⊢
    omega
  have fitting := (@nearest_le_of_slow hz ns slow).trans fits
  have answer := rescale_common_eq true (by decide : 0 < nsecPerSec) positive product
  rw [rescaled_nearest, if_pos fitting] at answer
  exact ns_delta_to_cycles_of fits fitting answer

variable {params : Params} {clocks : Clocks}

theorem NominalClock.model (clock : NominalClock hz params clocks) :
    params.clockUsesModel = true := by
  simp [Params.clockUsesModel, clock.mode]

theorem NominalClock.delta_real (clock : NominalClock hz params clocks) {ns : Nat} (some : 0 < ns)
    (fits : ns ≤ s64Max) : clockDeltaToRealNs params clocks ns = .ok ns := by
  unfold clockDeltaToRealNs phcDeltaToRealNs
  rw [if_pos clock.model, if_neg (by omega), clock.trim, untrimmed, adjusted_to_base_untrimmed fits]
  dsimp only
  rw [if_neg (by omega), Int.toNat_natCast]

theorem nearest_of_long {ns : Nat} (fast : 1000000 ≤ hz) (long : nsecPerMsec ≤ ns) :
    1000 ≤ nearest ns nsecPerSec hz := by
  have bounds := (nearest_bounds ns hz (by decide : 0 < nsecPerSec)).2
  have scaled := Nat.mul_le_mul long fast
  unfold nsecPerMsec nsecPerSec at *
  omega

theorem NominalClock.delta_cycles_of (clock : NominalClock hz params clocks) {ns cycles : Nat}
    (some : 0 < ns) (fits : ns ≤ s64Max) (positive : cycles ≠ 0)
    (counted : nsDeltaToCycles ns hz true = .ok (cycles : Int)) :
    clockDeltaToArtCycles params clocks ns = .ok cycles := by
  unfold clockDeltaToArtCycles phcDeltaToArtCycles
  rw [if_pos clock.model, if_neg (by omega), clock.trim, untrimmed, adjusted_to_base_untrimmed fits]
  dsimp only
  rw [if_neg (by omega), clock.rate, counted]
  dsimp only
  rw [if_neg (by omega), Int.toNat_natCast]
  dsimp only
  rw [if_neg positive]

theorem NominalClock.delta_cycles (clock : NominalClock hz params clocks) {ns : Nat}
    (long : nsecPerMsec ≤ ns) (fits : ns ≤ s64Max) :
    clockDeltaToArtCycles params clocks ns = .ok (nearest ns nsecPerSec hz) := by
  have crystal := clock.crystal
  have many := nearest_of_long crystal.1 long
  unfold nsecPerMsec at long
  exact clock.delta_cycles_of (by omega) fits (by omega)
    (ns_delta_to_cycles_eq (by omega) crystal.2 fits)

theorem NominalClock.compare_art_of (clock : NominalClock hz params clocks) {ns cycles : Nat}
    (fits : clocks.phc.anchorNs + ns ≤ s64Max) (range : clocks.phc.anchorArt + cycles < 2 ^ 64)
    (after : artHwDelayCycles < clocks.phc.anchorArt + cycles)
    (counted : nsDeltaToCycles ns hz true = .ok (cycles : Int)) :
    clockNsToCompareArt params clocks (clocks.phc.anchorNs + ns) =
      .ok (clocks.phc.anchorArt + cycles - artHwDelayCycles) := by
  have start := clock.anchorNs
  unfold s64Max at fits
  have shifted : addS64 (clocks.phc.anchorNs + ns) clocks.outputPhaseOffsetNs =
      .ok (clocks.phc.anchorNs + ns) := by
    rw [clock.offset, add_s64_ok (by omega) (by omega), Int.add_zero]
  have back : toS64 (-clocks.phc.anchorNs) = -clocks.phc.anchorNs :=
    to_s64_of_range (by omega) (by omega)
  have delta : addS64 (clocks.phc.anchorNs + ns) (-clocks.phc.anchorNs) = .ok (ns : Int) := by
    rw [add_s64_ok (by omega) (by omega)]
    congr 1
    omega
  have based : phcAdjustedToBaseDelta ns 0 = .ok (ns : Int) :=
    adjusted_to_base_untrimmed (by unfold s64Max; omega)
  have art : phcNsToArt clocks.phc (clocks.phc.anchorNs + ns) =
      .ok (clocks.phc.anchorArt + cycles) := by
    simp only [phcNsToArt, bind, Except.bind, back, delta, clock.trim, untrimmed, clock.rate, based,
      counted]
    rw [if_pos (by omega), Int.toNat_natCast, u64_of_lt range, if_neg (by omega)]
  unfold clockNsToCompareArt clockNsToArt
  rw [shifted]
  dsimp only
  rw [if_pos clock.model, art]
  dsimp only
  rw [if_pos after]

/-- The compare of a time a millisecond or more after the anchor. -/
theorem NominalClock.compare_art (clock : NominalClock hz params clocks) {ns : Nat}
    (long : nsecPerMsec ≤ ns) (fits : clocks.phc.anchorNs + ns ≤ s64Max) :
    clockNsToCompareArt params clocks (clocks.phc.anchorNs + ns) =
      .ok (clocks.phc.anchorArt + nearest ns nsecPerSec hz - artHwDelayCycles) := by
  have start := clock.anchorNs
  have anchor := clock.anchorArt
  have crystal := clock.crystal
  have within : ns ≤ s64Max := by omega
  have below := (@nearest_le_of_slow hz ns crystal.2).trans within
  have many := nearest_of_long crystal.1 long
  unfold s64Max at below
  refine clock.compare_art_of fits (by omega) ?_ (ns_delta_to_cycles_eq (by omega) crystal.2 within)
  unfold artHwDelayCycles
  omega

theorem NominalClock.modest (clock : NominalClock hz params clocks) :
    Modest clocks.phc.baseArtHz (scaledPpmToPpb clocks.phc.scaledPpm) := by
  have crystal := clock.crystal
  rw [clock.rate, clock.trim, untrimmed]
  refine ⟨by omega, ?_, by decide, by decide⟩
  have product := Nat.mul_le_mul_right nsecPerSec crystal.2
  unfold nsecPerSec at *
  omega

theorem NominalClock.now_eq (clock : NominalClock hz params clocks) {now : Int}
    (anchored : clocks.phc.anchorArt ≤ clocks.art)
    (read : clockNowNs params clocks = .ok now) :
    now = clocks.phc.anchorNs + down (clocks.art - clocks.phc.anchorArt) hz nsecPerSec := by
  unfold clockNowNs clockPhcNowNs getCurrentArt at read
  rw [if_pos clock.model, if_pos clock.snapshot] at read
  obtain ⟨exact_, -⟩ := phc_art_to_ns_eq clock.modest read
  have ahead : ((clocks.art : Int) - clocks.phc.anchorArt).natAbs =
      clocks.art - clocks.phc.anchorArt := by omega
  rw [exact_, phcTime, offsetTime, ahead, withSign, if_neg (by omega), clock.rate, clock.trim,
    untrimmed]
  have none (count : Nat) : down count nsecPerSec 0 = 0 := by simp [down]
  rw [cyclesTime, adjustedNs, if_pos le_rfl, Int.natAbs_zero, lengthened, none, Nat.add_zero]

end conversions

/-! ## Where the arm and the stop of a pulse lie -/

section placing

variable {hz phase : Nat} {params : Params} {clocks : Clocks}

def sinceAnchor (clocks : Clocks) : Nat :=
  down (clocks.art - clocks.phc.anchorArt) clocks.phc.baseArtHz nsecPerSec

def artAfter (clocks : Clocks) (ns : Nat) : Nat :=
  clocks.phc.anchorArt + nearest ns nsecPerSec clocks.phc.baseArtHz

theorem RequestClock.later (clock : RequestClock hz phase params clocks) {ns : Nat}
    (fits : ns ≤ s64Max) :
    (artCounter hz phase (clocks.real + ns)).toNat * nsecPerSec <
        clocks.art * nsecPerSec + ns * hz + nsecPerSec ∧
      clocks.art * nsecPerSec + ns * hz <
        (artCounter hz phase (clocks.real + ns)).toNat * nsecPerSec + nsecPerSec := by
  have real := clock.real
  have size : (clocks.real + ns).toNat = clocks.real.toNat + ns := by omega
  have counter := clock.counter
  have room := clock.room
  have span := Nat.mul_le_mul fits clock.crystal.2
  have parts := Nat.div_add_mod (clocks.real.toNat * hz + phase) nsecPerSec
  have rest := Nat.mod_lt (clocks.real.toNat * hz + phase) (by decide : 0 < nsecPerSec)
  have laterParts := Nat.div_add_mod ((clocks.real.toNat + ns) * hz + phase) nsecPerSec
  have laterRest := Nat.mod_lt ((clocks.real.toNat + ns) * hz + phase) (by decide : 0 < nsecPerSec)
  rw [← counter] at parts
  rw [Nat.add_mul] at laterParts laterRest
  unfold nsecPerSec s64Max at *
  have value : (artCounter hz phase (clocks.real + ns)).toNat =
      (clocks.real.toNat * hz + ns * hz + phase) / 1000000000 := by
    rw [artCounter, BitVec.toNat_ofNat, size, Nat.add_mul]
    exact Nat.mod_eq_of_lt (by unfold nsecPerSec; omega)
  rw [value]
  omega

/-- The cycles between a request and a time, against the span between them. -/
theorem RequestClock.art_after (clock : RequestClock hz phase params clocks) (ns : Nat) :
    2 * (artAfter clocks (sinceAnchor clocks + ns) * nsecPerSec) ≤
        2 * (clocks.art * nsecPerSec + ns * hz) + nsecPerSec ∧
      2 * (clocks.art * nsecPerSec + ns * hz) <
        2 * (artAfter clocks (sinceAnchor clocks + ns) * nsecPerSec) + nsecPerSec + 2 * hz := by
  have positive : 0 < hz := by
    have crystal := clock.crystal.1
    omega
  have anchored := clock.anchored
  have below := down_le (clocks.art - clocks.phc.anchorArt) nsecPerSec positive
  have above := lt_down (clocks.art - clocks.phc.anchorArt) nsecPerSec positive
  have rounded := nearest_bounds (sinceAnchor clocks + ns) hz (by decide : 0 < nsecPerSec)
  unfold artAfter
  rw [clock.rate, Nat.add_mul]
  rw [Nat.add_mul (sinceAnchor clocks)] at rounded
  have since : sinceAnchor clocks = down (clocks.art - clocks.phc.anchorArt) hz nsecPerSec := by
    rw [sinceAnchor, clock.rate]
  rw [← since] at below above
  obtain ⟨gap, split⟩ := Nat.exists_eq_add_of_le anchored
  rw [split, Nat.add_sub_cancel_left] at below above
  rw [split, Nat.add_mul]
  generalize nearest (sinceAnchor clocks + ns) nsecPerSec hz * nsecPerSec = rise at *
  omega

/-- A run of the work no later than twenty milliseconds before a rise finds its
compare far enough ahead. -/
theorem RequestClock.rise_ahead (clock : RequestClock hz phase params clocks) {ns early : Nat}
    (fits : ns ≤ s64Max) (lead : early + outputSafeTimeNs ≤ ns) :
    (artCounter hz phase (clocks.real + early)).toNat + nearest (2 * nsecPerMsec) nsecPerSec hz +
      artHwDelayCycles ≤ artAfter clocks (sinceAnchor clocks + ns) := by
  have crystal := clock.crystal
  have now := (clock.later (by omega : early ≤ s64Max)).1
  have rise := (clock.art_after ns).2
  have margin := (nearest_bounds (2 * nsecPerMsec) hz (by decide : 0 < nsecPerSec)).1
  have span := Nat.mul_le_mul_right hz lead
  rw [Nat.add_mul] at span
  generalize nearest (2 * nsecPerMsec) nsecPerSec hz = cycles at *
  generalize artAfter clocks (sinceAnchor clocks + ns) = art at *
  generalize (artCounter hz phase (clocks.real + early)).toNat = counted at *
  unfold outputSafeTimeNs nsecPerMsec nsecPerSec artHwDelayCycles at *
  omega

/-- A run well before a rise, in ART as in time. -/
theorem RequestClock.before_rise (clock : RequestClock hz phase params clocks) {ns stop : Nat}
    (fits : stop ≤ s64Max) (before : stop + nsecPerMsec ≤ ns) :
    (artCounter hz phase (clocks.real + stop)).toNat < artAfter clocks (sinceAnchor clocks + ns) := by
  have crystal := clock.crystal
  have now := (clock.later fits).1
  have rise := (clock.art_after ns).2
  have span := Nat.mul_le_mul_right hz before
  rw [Nat.add_mul] at span
  generalize artAfter clocks (sinceAnchor clocks + ns) = art at *
  generalize (artCounter hz phase (clocks.real + stop)).toNat = counted at *
  unfold nsecPerMsec nsecPerSec at *
  omega

/-- How far off its due time a delayed work may run: two jiffies of ten
milliseconds. -/
def jiffiesSlackNs : Nat := 20 * nsecPerMsec

/-- A stop that is due a quarter of a period after the fall, or a tenth of a
second if that is less, comes before the next rise. -/
theorem RequestClock.stop_between (clock : RequestClock hz phase params clocks)
    {ns width stop : Nat} (wide : hwDutyMinHalfNs ≤ width) (fits : stop ≤ s64Max)
    (early : ns + width + min (width / 2) (100 * nsecPerMsec) ≤ stop + jiffiesSlackNs)
    (late : stop ≤ ns + width + min (width / 2) (100 * nsecPerMsec) + jiffiesSlackNs) :
    let rise := artAfter clocks (sinceAnchor clocks + ns)
    let half := nearest width nsecPerSec hz
    let art := (artCounter hz phase (clocks.real + stop)).toNat
    rise + half ≤ art ∧ art < rise + 2 * half := by
  intro rise half art
  have crystal := clock.crystal
  have later := clock.later fits
  have near := clock.art_after ns
  have count := nearest_bounds width hz (by decide : 0 < nsecPerSec)
  have least : ns + width + 5000000 ≤ stop := by
    unfold hwDutyMinHalfNs jiffiesSlackNs nsecPerMsec at *
    omega
  have most : stop + 5000000 ≤ ns + 2 * width := by
    unfold hwDutyMinHalfNs jiffiesSlackNs nsecPerMsec at *
    omega
  have low := Nat.mul_le_mul_right hz least
  have high := Nat.mul_le_mul_right hz most
  change art * nsecPerSec < _ ∧ _ < art * nsecPerSec + nsecPerSec at later
  change 2 * (rise * nsecPerSec) ≤ _ ∧ _ < 2 * (rise * nsecPerSec) + nsecPerSec + 2 * hz at near
  change 2 * (half * nsecPerSec) ≤ _ ∧ _ < 2 * (half * nsecPerSec) + nsecPerSec at count
  rw [Nat.add_mul, Nat.add_mul] at low
  rw [Nat.add_mul, Nat.add_mul, Nat.mul_assoc] at high
  unfold nsecPerSec at *
  omega

end placing

end Tgpio

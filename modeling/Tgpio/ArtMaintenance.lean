import Tgpio.RealtimeRate

/-!
# Maintenance of the ART clock

In ART mode the refine work re-derives the base rate from everything since the
calibration anchor and applies it, together with the operator's trim, so that
the clock does not jump. Here the calibration source is `raw`.
-/

namespace Tgpio

set_option autoImplicit false

@[ext]
structure ArtClock where
  phc : PhcParams
  calAnchorArt : Nat
  calAnchorRaw : Int
  rawInRange : -(2 ^ 63) ≤ calAnchorRaw ∧ calAnchorRaw < 2 ^ 63
  deriving Repr

instance : DecidableEq ArtClock := fun _ _ => decidable_of_iff _ ArtClock.ext_iff.symm

/-- The trim in the model's units; a positive trim is stored negated. -/
def rateTrimScaledPpm (rateTrimPpb : Int) : Int :=
  let ppb := max (-500000) (min rateTrimPpb 500000)
  (-ppb * 65536).tdiv 1000

def cycleRate (cycles : Nat) (ns : Int) : Nat := u64 (cycles * nsecPerSec) / toU64 ns

/-- `tgpio_art_init_clock`, by its two samples. -/
def artInitClock (rateTrimPpb : Int) (first second : Except Errno ArtRawSample) :
    Except Errno ArtClock :=
  match first, second with
  | .ok first, .ok second =>
    if second.raw ≤ first.raw ∨ second.art ≤ first.art ∨
        second.art - first.art > u64Max / nsecPerSec then .error .enodev
    else
      let base := cycleRate (second.art - first.art) (second.raw - first.raw)
      if base = 0 then .error .enodev
      else .ok {
        phc := phcParamsMake second.art second.raw base (rateTrimScaledPpm rateTrimPpb)
        calAnchorArt := second.art
        calAnchorRaw := second.raw
        rawInRange := second.rawInRange }
  | _, _ => .error .enodev

def refinedBase (clock : ArtClock) (now : ArtRawSample) : Option Nat :=
  if now.raw ≤ clock.calAnchorRaw ∨ now.art ≤ clock.calAnchorArt ∨
      now.art - clock.calAnchorArt > u64Max / nsecPerSec then none
  else
    let base := cycleRate (now.art - clock.calAnchorArt) (now.raw - clock.calAnchorRaw)
    if base = 0 then none else some base

/-- The part after `apply`; the flag says whether running outputs are
refreshed. -/
def applyRate (clock : ArtClock) (art base : Nat) (scaled : Int) : ArtClock × Bool :=
  if clock.phc.baseArtHz ≠ base ∨ clock.phc.scaledPpm ≠ scaled then
    match phcArtToNs clock.phc art with
    | .error _ => (clock, false)
    | .ok curNs => ({ clock with phc := phcParamsMake art curNs base scaled }, true)
  else (clock, false)

/-- One run of the refine work in ART mode, by the outcome of its sample. -/
def artRefineWork (rateTrimPpb : Int) (clock : ArtClock) :
    Except Errno ArtRawSample → ArtClock × Bool
  | .error _ => (clock, false)
  | .ok now =>
    match refinedBase clock now with
    | none => (clock, false)
    | some base => applyRate clock now.art base (rateTrimScaledPpm rateTrimPpb)

section maintenance

variable (rateTrimPpb : Int) (clock : ArtClock) (now : ArtRawSample)

def baselineHz : Nat :=
  (now.art - clock.calAnchorArt) * 10 ^ 9 / (now.raw - clock.calAnchorRaw).toNat

structure AfterAnchors : Prop where
  art : clock.calAnchorArt < now.art
  raw : clock.calAnchorRaw < now.raw

/-- What a run is to leave behind: the current trim, the rate of the whole
baseline, and the time it was. -/
structure Maintained (after : PhcParams) : Prop where
  trim : after.scaledPpm = rateTrimScaledPpm rateTrimPpb
  rate : after.baseArtHz = baselineHz clock now
  continuous : phcArtToNs after now.art = phcArtToNs clock.phc now.art

def UpToDate : Prop :=
  clock.phc.scaledPpm = rateTrimScaledPpm rateTrimPpb ∧ clock.phc.baseArtHz = baselineHz clock now

/-- The baseline is within the bound of the driver's 64-bit product. -/
def BaselineFits : Prop := (now.art - clock.calAnchorArt) * 10 ^ 9 < 2 ^ 64

variable {rateTrimPpb clock now}

theorem baseline_fits_iff :
    BaselineFits clock now ↔ now.art - clock.calAnchorArt ≤ u64Max / nsecPerSec := by
  unfold BaselineFits
  rw [Nat.le_div_iff_mul_le (by decide)]
  unfold u64Max nsecPerSec
  omega

theorem cycle_rate_baseline (after : AfterAnchors clock now) (fits : BaselineFits clock now) :
    cycleRate (now.art - clock.calAnchorArt) (now.raw - clock.calAnchorRaw) =
      baselineHz clock now := by
  have elapsed := after.raw
  have anchorRange := clock.rawInRange
  have nowRange := now.rawInRange
  have ns : toU64 (now.raw - clock.calAnchorRaw) = (now.raw - clock.calAnchorRaw).toNat := by
    have exact := @to_u64_of_range (now.raw - clock.calAnchorRaw) (by omega) (by omega)
    omega
  unfold cycleRate baselineHz
  rw [ns]
  exact congrArg (· / _) (u64_of_lt fits)

theorem refined_base_eq (after : AfterAnchors clock now) (live : baselineHz clock now ≠ 0)
    (fits : BaselineFits clock now) : refinedBase clock now = some (baselineHz clock now) := by
  have elapsed := after.raw
  have counted := after.art
  have bound := baseline_fits_iff.mp fits
  unfold refinedBase
  rw [if_neg (by omega)]
  dsimp only
  rw [cycle_rate_baseline after fits, if_neg live]

theorem refined_base_stops (long : ¬BaselineFits clock now) : refinedBase clock now = none := by
  rw [baseline_fits_iff] at long
  exact if_pos (.inr (.inr (by omega)))

theorem maintained_unchanged :
    Maintained rateTrimPpb clock now clock.phc ↔ UpToDate rateTrimPpb clock now :=
  ⟨fun maintained => ⟨maintained.trim, maintained.rate⟩,
    fun current => ⟨current.1, current.2, rfl⟩⟩

theorem apply_rate_maintains (live : baselineHz clock now ≠ 0) :
    Maintained rateTrimPpb clock now (applyRate clock now.art (baselineHz clock now)
        (rateTrimScaledPpm rateTrimPpb)).1.phc ↔
      UpToDate rateTrimPpb clock now ∨ isOk (phcArtToNs clock.phc now.art) = true := by
  unfold applyRate
  split
  next changed =>
    have stale : ¬UpToDate rateTrimPpb clock now := by
      rintro ⟨trim, rate⟩
      rcases changed with other | other
      · exact other rate
      · exact other trim
    cases told : phcArtToNs clock.phc now.art with
    | error status =>
        dsimp only
        rw [maintained_unchanged]
        simp [isOk]
    | ok curNs =>
        have kept := phc_art_to_ns_anchor now.art curNs (baselineHz clock now)
          (rateTrimScaledPpm rateTrimPpb) (Nat.pos_of_ne_zero live)
        exact ⟨fun _ => .inr rfl, fun _ => ⟨rfl, rfl, kept.trans told.symm⟩⟩
  next same =>
    have current : UpToDate rateTrimPpb clock now := by
      simpa [UpToDate, and_comm] using same
    dsimp only
    rw [maintained_unchanged]
    exact ⟨.inl, fun _ => current⟩

end maintenance

/-- A run of the work maintains the clock exactly when there is nothing to do,
or when the baseline is short enough and the old mapping can tell the time. -/
theorem art_refine_maintains_iff (rateTrimPpb : Int) (clock : ArtClock) (now : ArtRawSample)
    (after : AfterAnchors clock now) (live : baselineHz clock now ≠ 0) :
    Maintained rateTrimPpb clock now (artRefineWork rateTrimPpb clock (.ok now)).1.phc ↔
      UpToDate rateTrimPpb clock now ∨
        (BaselineFits clock now ∧ isOk (phcArtToNs clock.phc now.art) = true) := by
  by_cases fits : BaselineFits clock now
  · unfold artRefineWork
    dsimp only
    rw [refined_base_eq after live fits]
    simpa [fits] using apply_rate_maintains live
  · unfold artRefineWork
    dsimp only
    rw [refined_base_stops fits]
    dsimp only
    rw [maintained_unchanged]
    simp [fits]

def refinedTo (clock : ArtClock) (runs : List (Int × Except Errno ArtRawSample)) : ArtClock :=
  runs.foldl (fun clock run => (artRefineWork run.1 clock run.2).1) clock

/-- Once the baseline is too long nothing changes the clock any more. -/
theorem long_baseline_freezes (clock : ArtClock) (runs : List (Int × Except Errno ArtRawSample))
    (long : ∀ run ∈ runs, ∀ now, run.2 = .ok now → ¬BaselineFits clock now) :
    refinedTo clock runs = clock := by
  induction runs with
  | nil => rfl
  | cons run rest ih =>
      obtain ⟨trim, sample⟩ := run
      have kept : (artRefineWork trim clock sample).1 = clock := by
        cases sample with
        | error status => rfl
        | ok now =>
            unfold artRefineWork
            dsimp only
            rw [refined_base_stops (long _ List.mem_cons_self now rfl)]
      unfold refinedTo at ih ⊢
      rw [List.foldl_cons, kept]
      exact ih fun run member => long run (List.mem_cons_of_mem _ member)

section cases

def loadSamples : ArtRawSample × ArtRawSample :=
  (⟨1000000000, 1000000000, 0, billion_in_range, by decide⟩,
    ⟨1009600000, 1250000000, 0, by decide, by decide⟩)

def loadedArtClock : ArtClock where
  phc := phcParamsMake 1009600000 1250000000 38400000 0
  calAnchorArt := 1009600000
  calAnchorRaw := 1250000000
  rawInRange := by decide

example : artInitClock 0 (.ok loadSamples.1) (.ok loadSamples.2) = .ok loadedArtClock := by decide

def earlySample : ArtRawSample := ⟨1393600000, 11250000000, 0, by decide, by decide⟩

def lateSample : ArtRawSample := ⟨20593600000, 511250000000, 0, by decide, by decide⟩

theorem art_refine_maintains_iff_early :
    Maintained 1000 loadedArtClock earlySample
      (artRefineWork 1000 loadedArtClock (.ok earlySample)).1.phc :=
  (art_refine_maintains_iff 1000 loadedArtClock earlySample ⟨by decide, by decide⟩
    (by decide)).mpr (.inr ⟨by unfold BaselineFits; decide, by decide⟩)

/-- A trim written in the ninth minute does not reach the clock. -/
theorem late_trim_ignored :
    ¬∀ (rateTrimPpb : Int) (clock : ArtClock) (now : ArtRawSample), AfterAnchors clock now →
      baselineHz clock now ≠ 0 →
      Maintained rateTrimPpb clock now (artRefineWork rateTrimPpb clock (.ok now)).1.phc := by
  intro maintained
  have trim := (maintained 1000 loadedArtClock lateSample ⟨by decide, by decide⟩ (by decide)).trim
  exact absurd trim (by decide)

end cases

end Tgpio

import Tgpio.ClockArithmetic

/-!
# Clock modes

The driver reads time through one of three clock modes. PHC and ART mode run on
the anchor-plus-rate model; realtime mode goes through the kernel timekeeper.
`Clocks` holds every value these conversions read from outside the output
block, sampled at the instant of the conversion. The kernel's own conversion
`ktime_real_to_base_clock` is a field: the driver only relies on its answer.
-/

namespace Tgpio

set_option autoImplicit false

inductive ClockMode where
  | realtime
  | phc
  | art
  deriving DecidableEq, Repr

inductive OutputPolarity where
  | normal
  | inverted
  deriving DecidableEq, Repr

/-- Load-time parameters: read-only once the module is loaded. -/
structure Params where
  clockMode : ClockMode
  outputPolarity : OutputPolarity
  hardwarePeriodicOutput : Bool
  softwareRearmToggle : Bool
  experimentalInstantaneousRealtimeProjection : Bool
  artFrequency : Nat
  deriving DecidableEq, Repr

/-- The load-time defaults, for a block that may use the hardware engine. -/
def defaultParams : Params where
  clockMode := .phc
  outputPolarity := .normal
  hardwarePeriodicOutput := true
  softwareRearmToggle := true
  experimentalInstantaneousRealtimeProjection := false
  artFrequency := 0

structure Clocks where
  /-- `dev->phc`, read under its seqlock. -/
  phc : PhcParams
  /-- The ART counter. -/
  art : Nat
  /-- Whether a timekeeping snapshot carries ART cycles on this kernel. -/
  snapshotHasArt : Bool
  /-- `CLOCK_REALTIME` in nanoseconds; it can be set back. -/
  real : Int
  /-- `ktime_real_to_base_clock(·, CSID_X86_ART, ·)`. -/
  realToBaseClock : Int → Option Nat
  /-- `timekeeping_clocksource_has_base(CSID_X86_ART)`. -/
  clocksourceHasBase : Bool
  realtimeRateArtCycles : Nat
  realtimeRateRealNs : Nat
  outputPhaseOffsetNs : Int
  outputPhaseToleranceNs : Nat
  artInRange : art < 2 ^ 64
  anchorInRange : phc.anchorArt < 2 ^ 64
  baseInRange : ∀ time value, realToBaseClock time = some value → value < 2 ^ 64

def artHwDelayCycles : Nat := 2

namespace Params

def clockUsesModel (params : Params) : Bool := params.clockMode != .realtime

end Params

section conversions

variable (params : Params) (clocks : Clocks)

def getCurrentArt : U64Result :=
  if clocks.snapshotHasArt then .ok clocks.art
  else match clocks.realToBaseClock clocks.real with
    | none => .error .enodev
    | some art => .ok art

/-- `DIV_ROUND_CLOSEST_ULL`, whose `do_div` takes the low word of the divisor. A
low word of 0 traps in `do_div`; the quotient is 0 here. -/
def divRoundClosest (value divisor : Nat) : Nat :=
  u64 (value + divisor / 2) / (divisor % 2 ^ 32)

theorem div_round_closest_word {value divisor : Nat} (word : divisor < 2 ^ 32)
    (small : value < 2 ^ 63) : divRoundClosest value divisor = (value + divisor / 2) / divisor := by
  unfold divRoundClosest u64
  rw [Nat.mod_eq_of_lt word, Nat.mod_eq_of_lt (by omega)]

/-- The dead-band floor: one ART cycle, from the best rate known. -/
def outputPhaseNudgeMinNs : Nat :=
  if clocks.realtimeRateArtCycles ≠ 0 ∧ clocks.realtimeRateRealNs ≠ 0 then
    max (divRoundClosest clocks.realtimeRateRealNs clocks.realtimeRateArtCycles) 1
  else if params.artFrequency ≠ 0 then max (divRoundClosest nsecPerSec params.artFrequency) 1
  else 1

def realtimeDeltaToArtCycles (deltaNs : Nat) : U64Result :=
  if deltaNs = 0 ∨ deltaNs > s64Max then .error .erange
  else if clocks.realtimeRateArtCycles ≠ 0 ∧ clocks.realtimeRateRealNs ≠ 0 ∧
      ¬params.experimentalInstantaneousRealtimeProjection then
    rescaleNearest deltaNs clocks.realtimeRateRealNs clocks.realtimeRateArtCycles
  else if ¬params.clockUsesModel ∧ ¬params.experimentalInstantaneousRealtimeProjection then
    .error .enodev
  else if clocks.real < 0 then .error .erange
  else match addS64 clocks.real deltaNs with
    | .error status => .error status
    | .ok endNs =>
      match clocks.realToBaseClock clocks.real, clocks.realToBaseClock endNs with
      | some startArt, some endArt =>
        if endArt ≤ startArt then .error .erange else .ok (endArt - startArt)
      | _, _ => .error .enodev

def artCyclesToRealtimeDeltaNs (cycles : Nat) : NsResult :=
  match realtimeDeltaToArtCycles params clocks nsecPerSec with
  | .error status => .error status
  | .ok cyclesPerSec => rescaleNearest cycles cyclesPerSec nsecPerSec

def clockPhcArtToNs (art : Nat) : S64Result := phcArtToNs clocks.phc art

def clockPhcNowNs : S64Result :=
  match getCurrentArt clocks with
  | .error status => .error status
  | .ok art => clockPhcArtToNs clocks art

def clockNowNs : S64Result :=
  if params.clockUsesModel then clockPhcNowNs clocks else .ok clocks.real

/-- The instant realtime mode projects from: one pairing of ART and
`CLOCK_REALTIME`. -/
def realtimeAnchor : Except Errno (Nat × Int) :=
  match getCurrentArt clocks with
  | .error _ => .error .enodev
  | .ok artNow => if clocks.real < 0 then .error .erange else .ok (artNow, clocks.real)

def clockNsToArt (ns : Int) : U64Result :=
  if params.clockUsesModel then phcNsToArt clocks.phc ns
  else if params.experimentalInstantaneousRealtimeProjection then
    match clocks.realToBaseClock ns with
    | none => .error .enodev
    | some art => .ok art
  else match realtimeAnchor clocks with
    | .error status => .error status
    | .ok (artNow, realNow) =>
      let distance := if ns ≥ realNow then toU64 (ns - realNow) else toU64 (realNow - ns)
      match realtimeDeltaToArtCycles params clocks distance with
      | .error status => .error status
      | .ok delta =>
        if ns ≥ realNow then
          if artNow > u64Max - delta then .error .erange else .ok (artNow + delta)
        else if artNow < delta then .error .erange
        else .ok (artNow - delta)

def clockDeltaToRealNs (clockDeltaNs : Int) : U64Result :=
  if params.clockUsesModel then phcDeltaToRealNs clocks.phc clockDeltaNs
  else if clockDeltaNs ≤ 0 then .ok 0
  else .ok clockDeltaNs.toNat

def clockDeltaToArtCycles (clockDeltaNs : Int) : U64Result :=
  if params.clockUsesModel then
    match phcDeltaToArtCycles clocks.phc clockDeltaNs with
    | .error status => .error status
    | .ok cycles => if cycles = 0 then .error .erange else .ok cycles
  else match clockDeltaToRealNs params clocks clockDeltaNs with
    | .error status => .error status
    | .ok real =>
      if real > s64Max then .error .erange
      else match realtimeDeltaToArtCycles params clocks real with
        | .error status => .error status
        | .ok cycles => if cycles = 0 then .error .erange else .ok cycles

def clockArtCyclesToDeltaNs (cycles : Nat) : NsResult :=
  if params.clockUsesModel then phcArtCyclesToDeltaNs clocks.phc cycles
  else artCyclesToRealtimeDeltaNs params clocks cycles

def clockArtToNs (art : Nat) : S64Result :=
  if params.clockUsesModel then clockPhcArtToNs clocks art
  else match realtimeAnchor clocks with
    | .error status => .error status
    | .ok (artNow, realNow) =>
      match clockArtCyclesToDeltaNs params clocks
          (if art ≥ artNow then art - artNow else artNow - art) with
      | .error _ => .error .erange
      | .ok delta =>
        if delta > s64Max then .error .erange
        else addS64 realNow (if art ≥ artNow then (delta : Int) else -(delta : Int))

/-- The compare value of an edge time: the calibration offset is added, the
hardware delay taken off. -/
def clockNsToCompareArt (edgeTimeNs : Int) : U64Result :=
  match addS64 edgeTimeNs clocks.outputPhaseOffsetNs with
  | .error status => .error status
  | .ok shifted =>
    match clockNsToArt params clocks shifted with
    | .error status => .error status
    | .ok art => .ok (if art > artHwDelayCycles then art - artHwDelayCycles else art)

end conversions

/-- A successful cycle conversion never answers zero. -/
theorem clock_delta_to_art_cycles_positive {params : Params} {clocks : Clocks} {delta : Int}
    {cycles : Nat} (converted : clockDeltaToArtCycles params clocks delta = .ok cycles) :
    cycles ≠ 0 := by
  unfold clockDeltaToArtCycles at converted
  split at converted
  · split at converted
    · contradiction
    · split at converted
      · contradiction
      · cases converted
        assumption
  · split at converted
    · contradiction
    · split at converted
      · contradiction
      · split at converted
        · contradiction
        · split at converted
          · contradiction
          · cases converted
            assumption

/-! Some ART values, and the anchor of a crystal of 38.4 MHz, in range. -/

theorem zero_in_range : 0 < 2 ^ 64 := by decide
theorem billion_in_range : 1000000000 < 2 ^ 64 := by decide
theorem two_seconds_in_range : 76800000 < 2 ^ 64 := by decide

theorem crystal_anchor_in_range : (phcParamsMake 0 0 38400000 0).anchorArt < 2 ^ 64 := by decide

/-- A PHC clock whose cycle is a nanosecond, `art` cycles after its anchor. -/
def steadyClocks (art : Nat) (artInRange : art < 2 ^ 64) : Clocks where
  phc := phcParamsMake 0 0 nsecPerSec 0
  art := art
  snapshotHasArt := true
  real := 0
  realToBaseClock := fun _ => none
  clocksourceHasBase := true
  realtimeRateArtCycles := 0
  realtimeRateRealNs := 0
  outputPhaseOffsetNs := 0
  outputPhaseToleranceNs := 0
  artInRange := artInRange
  anchorInRange := by decide
  baseInRange := nofun

section range

variable {params : Params} {clocks : Clocks} {art : Nat}

theorem get_current_art_lt (read : getCurrentArt clocks = .ok art) : art < 2 ^ 64 := by
  unfold getCurrentArt at read
  split at read
  · cases read
    exact clocks.artInRange
  · split at read
    · contradiction
    · rename_i found
      cases read
      exact clocks.baseInRange _ _ found

theorem phc_ns_to_art_lt {ns : Int} (converted : phcNsToArt clocks.phc ns = .ok art) :
    art < 2 ^ 64 := by
  simp only [phcNsToArt, bind, Except.bind] at converted
  split at converted
  · contradiction
  split at converted
  · contradiction
  split at converted
  · contradiction
  split at converted
  · split at converted
    · contradiction
    · cases converted
      exact Nat.mod_lt _ (by decide)
  · split at converted
    · contradiction
    · cases converted
      exact (Nat.sub_le _ _).trans_lt clocks.anchorInRange

theorem realtime_anchor_lt {real : Int} (anchored : realtimeAnchor clocks = .ok (art, real)) :
    art < 2 ^ 64 := by
  unfold realtimeAnchor at anchored
  split at anchored
  · contradiction
  · rename_i read
    split at anchored
    · contradiction
    · cases anchored
      exact get_current_art_lt read

theorem realtime_delta_to_art_cycles_lt {delta cycles : Nat}
    (converted : realtimeDeltaToArtCycles params clocks delta = .ok cycles) :
    cycles < 2 ^ 64 := by
  unfold realtimeDeltaToArtCycles at converted
  split at converted
  · contradiction
  split at converted
  · exact rescale_common_lt converted
  split at converted
  · contradiction
  split at converted
  · contradiction
  split at converted
  · contradiction
  split at converted
  · rename_i found
    split at converted
    · contradiction
    · cases converted
      exact (Nat.sub_le _ _).trans_lt (clocks.baseInRange _ _ found)
  · contradiction

/-- An interval count is a 64-bit value. -/
theorem clock_delta_to_art_cycles_lt {delta : Int} {cycles : Nat}
    (converted : clockDeltaToArtCycles params clocks delta = .ok cycles) : cycles < 2 ^ 64 := by
  unfold clockDeltaToArtCycles at converted
  split at converted
  · split at converted
    · contradiction
    · rename_i counted
      split at converted
      · contradiction
      · cases converted
        exact phc_delta_to_art_cycles_lt counted
  split at converted
  · contradiction
  split at converted
  · contradiction
  split at converted
  · contradiction
  rename_i counted
  split at converted
  · contradiction
  · cases converted
    exact realtime_delta_to_art_cycles_lt counted

theorem clock_ns_to_art_lt {ns : Int} (converted : clockNsToArt params clocks ns = .ok art) :
    art < 2 ^ 64 := by
  unfold clockNsToArt at converted
  split at converted
  · exact phc_ns_to_art_lt converted
  split at converted
  · split at converted
    · contradiction
    · rename_i found
      cases converted
      exact clocks.baseInRange _ _ found
  split at converted
  · contradiction
  rename_i artNow realNow anchored
  have bound := realtime_anchor_lt anchored
  dsimp only at converted
  split at converted
  · contradiction
  rename_i delta scaled
  have deltaBound := realtime_delta_to_art_cycles_lt scaled
  split at converted
  · split at converted
    · contradiction
    · cases converted
      unfold u64Max at *
      omega
  · split at converted
    · contradiction
    · cases converted
      omega

/-- A compare value is a 64-bit value. -/
theorem clock_ns_to_compare_art_lt {time : Int}
    (converted : clockNsToCompareArt params clocks time = .ok art) : art < 2 ^ 64 := by
  unfold clockNsToCompareArt at converted
  split at converted
  · contradiction
  split at converted
  · contradiction
  rename_i found
  have bound := clock_ns_to_art_lt found
  cases converted
  split <;> omega

end range

end Tgpio

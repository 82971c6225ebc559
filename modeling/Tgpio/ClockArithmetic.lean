import Mathlib.Data.Int.Basic
import Mathlib.Tactic.Ring

/-!
# Fixed-width clock arithmetic

The pure value layer of the driver: 64-bit counts as naturals, signed 64-bit
times as integers, every wrap of the C code written out. A result carries an
errno or a value. No function of this module touches a register.
-/

namespace Tgpio

set_option autoImplicit false

inductive Errno where
  | einval
  | erange
  | enodev
  | eopnotsupp
  | ebusy
  | enomem
  | eoverflow
  | efault
  deriving DecidableEq, Repr

abbrev U64Result := Except Errno Nat
abbrev S64Result := Except Errno Int
abbrev NsResult := Except Errno Nat

/-- The value of a result that is not an error. -/
def isOk {α : Type} : Except Errno α → Bool
  | .ok _ => true
  | .error _ => false

def u64Max : Nat := 2 ^ 64 - 1
def s64Max : Nat := 2 ^ 63 - 1
def s64Min : Int := -(2 ^ 63)
def nsecPerSec : Nat := 1000000000
def nsecPerMsec : Nat := 1000000

/-- Reduction of an unsigned 64-bit result. -/
def u64 (value : Nat) : Nat := value % 2 ^ 64

/-- Conversion to `u64`. -/
def toU64 (value : Int) : Nat := (value % 2 ^ 64).toNat

/-- Conversion to `s64`; the kernel is built with wrapping signed arithmetic. -/
def toS64 (value : Int) : Int := Int.bmod value (2 ^ 64)

theorem u64_of_lt {value : Nat} (small : value < 2 ^ 64) : u64 value = value :=
  Nat.mod_eq_of_lt small

theorem to_s64_of_range {value : Int} (lower : -(2 ^ 63) ≤ value) (upper : value < 2 ^ 63) :
    toS64 value = value := by
  unfold toS64 Int.bmod
  dsimp only
  split <;> omega

theorem to_s64_range (value : Int) : -(2 ^ 63) ≤ toS64 value ∧ toS64 value < 2 ^ 63 := by
  unfold toS64 Int.bmod
  dsimp only
  split <;> omega

theorem to_u64_of_range {value : Int} (lower : 0 ≤ value) (upper : value < 2 ^ 64) :
    (toU64 value : Int) = value := by
  unfold toU64
  rw [Int.toNat_of_nonneg (by omega), Int.emod_eq_of_lt lower upper]

/-- The sub-second quotient, rounded down or to nearest. -/
def rescaleSub (product srcHz : Nat) (roundNearest : Bool) : Nat :=
  let remainder := product % srcHz
  if roundNearest ∧ remainder ≥ srcHz - remainder then u64 (product / srcHz + 1)
  else product / srcHz

/-- `count * dst_hz / src_hz`, split at the whole-second boundary. -/
def rescaleCommon (count srcHz dstHz : Nat) (roundNearest : Bool) : U64Result :=
  if srcHz = 0 ∨ dstHz = 0 then .error .enodev
  else
    let seconds := count / srcHz
    let subSecond := count % srcHz
    if seconds > s64Max / dstHz then .error .erange
    else
      let result := u64 (seconds * dstHz)
      let scaledSub := rescaleSub (u64 (subSecond * dstHz)) srcHz roundNearest
      if scaledSub > s64Max - result then .error .erange
      else .ok (u64 (result + scaledSub))

theorem rescale_common_lt {count srcHz dstHz result : Nat} {roundNearest : Bool}
    (scaled : rescaleCommon count srcHz dstHz roundNearest = .ok result) : result < 2 ^ 64 := by
  unfold rescaleCommon at scaled
  split at scaled
  · contradiction
  dsimp only at scaled
  split at scaled
  · contradiction
  split at scaled
  · contradiction
  · cases scaled
    exact Nat.mod_lt _ (by decide)

def rescale (count srcHz dstHz : Nat) : U64Result := rescaleCommon count srcHz dstHz false

def rescaleNearest (count srcHz dstHz : Nat) : U64Result := rescaleCommon count srcHz dstHz true

def absS64 (value : Int) : Nat :=
  if value < 0 then toU64 (-(value + 1)) + 1 else value.toNat

def addS64 (lhs rhs : Int) : S64Result :=
  if rhs > 0 ∧ lhs > (s64Max : Int) - rhs then .error .erange
  else if rhs < 0 ∧ lhs < s64Min - rhs then .error .erange
  else .ok (lhs + rhs)

/-- Put the sign of `like` on a magnitude that must fit in `s64`. -/
def signed (like : Int) (magnitude : Nat) : S64Result :=
  if magnitude > s64Max then .error .erange
  else .ok (if like < 0 then -(magnitude : Int) else magnitude)

theorem signed_to_nat_lt {like value : Int} {magnitude : Nat}
    (fits : signed like magnitude = .ok value) : value.toNat < 2 ^ 64 := by
  unfold signed s64Max at fits
  split at fits
  · contradiction
  · cases fits
    split <;> omega

def cyclesDeltaToNs (cycles : Int) (cyclesPerSec : Nat) (roundNearest : Bool) : S64Result :=
  (if roundNearest then rescaleNearest (absS64 cycles) cyclesPerSec nsecPerSec
    else rescale (absS64 cycles) cyclesPerSec nsecPerSec).bind fun ns => signed cycles ns

def nsDeltaToCycles (ns : Int) (cyclesPerSec : Nat) (roundNearest : Bool) : S64Result :=
  (if roundNearest then rescaleNearest (absS64 ns) nsecPerSec cyclesPerSec
    else rescale (absS64 ns) nsecPerSec cyclesPerSec).bind fun cycles => signed ns cycles

def scaledPpmToPpb (scaledPpm : Int) : Int :=
  if scaledPpm > (s64Max : Int).tdiv 1000 then s64Max
  else if scaledPpm < s64Min.tdiv 1000 then s64Min
  else (scaledPpm * 1000).tdiv (2 ^ 16)

def applyPpbToNs (ns ppb : Int) : Int :=
  if ns = 0 ∨ ppb = 0 then 0
  else
    let seconds := absS64 ns / nsecPerSec
    let rem := absS64 ns % nsecPerSec
    let correction :=
      u64 (u64 (seconds * absS64 ppb) + u64 (rem * absS64 ppb) / nsecPerSec)
    let correction := if correction > s64Max then s64Max else correction
    if (ns < 0) != (ppb < 0) then -(correction : Int) else correction

def phcBaseToAdjustedDelta (baseNs ppb : Int) : S64Result :=
  addS64 baseNs (applyPpbToNs baseNs ppb)

def phcAdjustedToBaseDelta (adjustedNs ppb : Int) : S64Result :=
  let denominatorS64 := toS64 (nsecPerSec + ppb)
  if denominatorS64 ≤ 0 then .error .erange
  else
    let denominator := denominatorS64.toNat
    let quotient := absS64 adjustedNs / denominator
    let rem := absS64 adjustedNs % denominator
    if quotient > s64Max / nsecPerSec then .error .erange
    else
      let absBase := u64 (u64 (quotient * nsecPerSec) + u64 (rem * nsecPerSec) / denominator)
      signed adjustedNs absBase

/-- PHC time is `anchorNs` plus the ART cycles since `anchorArt`, scaled by
`scaledPpm`. -/
structure PhcParams where
  anchorArt : Nat
  anchorNs : Int
  baseArtHz : Nat
  scaledPpm : Int
  deriving DecidableEq, Repr

def phcParamsMake (anchorArt : Nat) (anchorNs : Int) (baseArtHz : Nat) (scaledPpm : Int) :
    PhcParams := ⟨anchorArt, anchorNs, baseArtHz, scaledPpm⟩

/-- The signed distance of an ART value from the anchor, when it fits. -/
def artDistance (anchorArt art : Nat) : S64Result :=
  if art ≥ anchorArt then
    if art - anchorArt > s64Max then .error .erange else .ok ((art - anchorArt : Nat) : Int)
  else
    if anchorArt - art > s64Max then .error .erange else .ok (-((anchorArt - art : Nat) : Int))

def phcArtToNs (phc : PhcParams) (art : Nat) : S64Result := do
  let cyclesDelta ← artDistance phc.anchorArt art
  let base ← cyclesDeltaToNs cyclesDelta phc.baseArtHz false
  let adjusted ← phcBaseToAdjustedDelta base (scaledPpmToPpb phc.scaledPpm)
  addS64 phc.anchorNs adjusted

def phcNsToArt (phc : PhcParams) (phcNs : Int) : U64Result := do
  let phcDelta ← addS64 phcNs (toS64 (-phc.anchorNs))
  let baseDelta ← phcAdjustedToBaseDelta phcDelta (scaledPpmToPpb phc.scaledPpm)
  let cycles ← nsDeltaToCycles baseDelta phc.baseArtHz true
  if cycles ≥ 0 then
    let art := u64 (phc.anchorArt + cycles.toNat)
    if art < phc.anchorArt then .error .erange else .ok art
  else
    if absS64 cycles > phc.anchorArt then .error .erange
    else .ok (phc.anchorArt - absS64 cycles)

def phcDeltaToRealNs (phc : PhcParams) (phcDeltaNs : Int) : U64Result :=
  if phcDeltaNs ≤ 0 then .ok 0
  else match phcAdjustedToBaseDelta phcDeltaNs (scaledPpmToPpb phc.scaledPpm) with
    | .error _ => .error .erange
    | .ok base => if base < 0 then .error .erange else .ok base.toNat

def phcDeltaToArtCycles (phc : PhcParams) (phcDeltaNs : Int) : U64Result :=
  if phcDeltaNs ≤ 0 then .ok 0
  else match phcAdjustedToBaseDelta phcDeltaNs (scaledPpmToPpb phc.scaledPpm) with
    | .error _ => .error .erange
    | .ok base =>
      if base < 0 then .error .erange
      else match nsDeltaToCycles base phc.baseArtHz true with
        | .error status => .error status
        | .ok cycles => if cycles < 0 then .error .erange else .ok cycles.toNat

theorem phc_delta_to_art_cycles_lt {phc : PhcParams} {delta : Int} {cycles : Nat}
    (converted : phcDeltaToArtCycles phc delta = .ok cycles) : cycles < 2 ^ 64 := by
  unfold phcDeltaToArtCycles at converted
  split at converted
  · cases converted
    decide
  split at converted
  · contradiction
  split at converted
  · contradiction
  split at converted
  · contradiction
  rename_i counted
  split at converted
  · contradiction
  · cases converted
    simp only [nsDeltaToCycles, Except.bind] at counted
    split at counted
    · contradiction
    · exact signed_to_nat_lt counted

def phcArtCyclesToDeltaNs (phc : PhcParams) (cycles : Nat) : NsResult :=
  if cycles > s64Max then .error .erange
  else match cyclesDeltaToNs cycles phc.baseArtHz true with
    | .error status => .error status
    | .ok base =>
      match phcBaseToAdjustedDelta base (scaledPpmToPpb phc.scaledPpm) with
      | .error _ => .error .erange
      | .ok adjusted => if adjusted < 0 then .error .erange else .ok adjusted.toNat

/-- `struct ptp_clock_time`: signed 64-bit seconds, unsigned 32-bit nanoseconds. -/
structure PtpClockTime where
  sec : Int
  nsec : Nat
  deriving DecidableEq, Repr

def ptpTimeToNs (time : PtpClockTime) : U64Result :=
  if time.sec < 0 ∨ time.nsec ≥ nsecPerSec then .error .einval
  else if time.sec > ((u64Max / nsecPerSec : Nat) : Int) then .error .erange
  else .ok (u64 (u64 (time.sec.toNat * nsecPerSec) + time.nsec))

def ptpTimeToS64Ns (time : PtpClockTime) : S64Result :=
  if time.sec < 0 ∨ time.nsec ≥ nsecPerSec then .error .einval
  else if time.sec > (s64Max : Int).tdiv nsecPerSec then .error .erange
  else .ok (toS64 (toS64 (time.sec * nsecPerSec) + time.nsec))

/-- The time at the anchor itself is the anchor's, whatever the rates. -/
theorem phc_art_to_ns_anchor (anchorArt : Nat) (anchorNs : Int) (baseArtHz : Nat)
    (scaledPpm : Int) (positive : 0 < baseArtHz) :
    phcArtToNs ⟨anchorArt, anchorNs, baseArtHz, scaledPpm⟩ anchorArt = .ok anchorNs := by
  have base : cyclesDeltaToNs 0 baseArtHz false = .ok 0 := by
    simp [cyclesDeltaToNs, rescale, rescaleCommon, rescaleSub, absS64, signed, u64, nsecPerSec, s64Max,
      Except.bind, Nat.pos_iff_ne_zero.mp positive]
  have adjusted (ppb : Int) : phcBaseToAdjustedDelta 0 ppb = .ok 0 := by
    simp [phcBaseToAdjustedDelta, applyPpbToNs, addS64]
  simp only [phcArtToNs, artDistance, ge_iff_le, le_refl, if_true, Nat.sub_self]
  simp [base, adjusted, addS64, Bind.bind, Except.bind]

end Tgpio

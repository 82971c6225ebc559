import Tgpio.ClockOperations
import Tgpio.Interference.Looks
import Tgpio.Scaling.Line
import Mathlib.Algebra.Order.Group.Multiset
import Mathlib.Data.Rat.Cast.Order
import Mathlib.Tactic.FieldSimp

/-!
# The clock that is meant

A clock in the rationals, without any rounding: it is set, stepped and tuned by
the operations that succeed, in the order in which they hold the lock, each at
the ART value it has sampled. The clock of the driver tells its time up to one
rounding for each step and tuning since the clock was last set.
-/

namespace Tgpio

open Interference Interference.Prog Scaling

set_option autoImplicit false

section rounding

variable {baseArtHz : Nat} {ppb : Int}

/-- Nanoseconds of clock time for each cycle. -/
def pace (baseArtHz : Nat) (ppb : Int) : ℚ := ((nsecPerSec : ℚ) + ppb) / baseArtHz

/-- The rounding of one conversion: a nanosecond, lengthened by a tenth at most,
and another one. -/
def roundingNs : ℚ := 21 / 10

theorem down_rat (count dst : Nat) {src : Nat} (positive : 0 < src) :
    (down count src dst : ℚ) ≤ count * dst / src ∧
      (count * dst / src : ℚ) < down count src dst + 1 := by
  have source : (0 : ℚ) < src := by exact_mod_cast positive
  have below : ((down count src dst * src : Nat) : ℚ) ≤ (count * dst : Nat) :=
    Nat.cast_le.mpr (down_le count dst positive)
  have above : ((count * dst : Nat) : ℚ) < (down count src dst * src + src : Nat) :=
    Nat.cast_lt.mpr (lt_down count dst positive)
  push_cast at below above
  constructor
  · rw [le_div_iff₀ source]
    exact below
  · rw [div_lt_iff₀ source]
    linarith

theorem Modest.tenth (modest : Modest baseArtHz ppb) :
    (0 : ℚ) ≤ |(ppb : ℚ)| / nsecPerSec ∧ |(ppb : ℚ)| / nsecPerSec ≤ 1 / 10 := by
  have slow : -100000000 ≤ ppb := modest.slow
  have fast : ppb ≤ 100000000 := modest.fast
  have size : |(ppb : ℚ)| ≤ 100000000 := by
    rw [← Int.cast_abs]
    exact_mod_cast abs_le.mpr ⟨slow, fast⟩
  have second : (0 : ℚ) < nsecPerSec := by
    unfold nsecPerSec
    norm_num
  refine ⟨div_nonneg (abs_nonneg _) second.le, ?_⟩
  rw [div_le_iff₀ second]
  unfold nsecPerSec
  norm_num
  linarith

/-- The time of some cycles, against the exact one. -/
theorem cycles_time_near (modest : Modest baseArtHz ppb) (cycles : Nat) :
    |(cyclesTime baseArtHz ppb cycles : ℚ) - cycles * pace baseArtHz ppb| ≤ roundingNs := by
  have hertz : (0 : ℚ) < baseArtHz := by exact_mod_cast modest.positive
  have exact_ : (cycles : ℚ) * pace baseArtHz ppb =
      cycles * nsecPerSec / baseArtHz * (1 + ppb / nsecPerSec) := by
    unfold pace nsecPerSec
    push_cast
    field_simp
  have magnitude : (ppb.natAbs : ℚ) = |(ppb : ℚ)| := by
    rw [← Int.cast_abs, Int.abs_eq_natAbs, Int.cast_natCast]
  obtain ⟨partNonneg, partLe⟩ := modest.tenth
  obtain ⟨baseLe, ltBase⟩ := down_rat cycles nsecPerSec modest.positive
  unfold cyclesTime
  rw [exact_]
  generalize (cycles * nsecPerSec / baseArtHz : ℚ) = time at baseLe ltBase ⊢
  generalize down cycles baseArtHz nsecPerSec = base at baseLe ltBase ⊢
  obtain ⟨shareLe, ltShare⟩ := down_rat base ppb.natAbs (by decide : 0 < nsecPerSec)
  have within := shortened_le base (by decide : 0 < nsecPerSec) modest.part
  rw [mul_div_assoc, magnitude] at shareLe ltShare
  unfold adjustedNs lengthened shortened roundingNs
  generalize down base nsecPerSec ppb.natAbs = share at shareLe ltShare within ⊢
  by_cases faster : 0 ≤ ppb
  · have size : |(ppb : ℚ)| = ppb := abs_of_nonneg (by exact_mod_cast faster)
    rw [size] at partNonneg partLe shareLe ltShare
    rw [if_pos faster, abs_le, Nat.cast_add]
    generalize (ppb / nsecPerSec : ℚ) = part at *
    have below := mul_le_mul_of_nonneg_right baseLe (by linarith : 0 ≤ 1 + part)
    have above := mul_le_mul_of_nonneg_right ltBase.le (by linarith : 0 ≤ 1 + part)
    constructor <;> linarith
  · have size : |(ppb : ℚ)| = -ppb := abs_of_neg (by exact_mod_cast Int.not_le.mp faster)
    rw [size, neg_div] at partNonneg partLe shareLe ltShare
    rw [if_neg faster, abs_le, Nat.cast_sub within]
    generalize (ppb / nsecPerSec : ℚ) = part at *
    have below := mul_le_mul_of_nonneg_right baseLe (by linarith : 0 ≤ 1 + part)
    have above := mul_le_mul_of_nonneg_right ltBase.le (by linarith : 0 ≤ 1 + part)
    constructor <;> linarith

/-- The signed time of a signed number of cycles. -/
theorem offset_time_near (modest : Modest baseArtHz ppb) (cycles : Int) :
    |(offsetTime baseArtHz ppb cycles : ℚ) - cycles * pace baseArtHz ppb| ≤ roundingNs := by
  have near := cycles_time_near modest cycles.natAbs
  have magnitude : (cycles.natAbs : ℚ) = |(cycles : ℚ)| := by
    rw [← Int.cast_abs, Int.abs_eq_natAbs, Int.cast_natCast]
  rw [magnitude] at near
  unfold offsetTime withSign
  by_cases back : cycles < 0
  · have size : |(cycles : ℚ)| = -cycles := abs_of_neg (by exact_mod_cast back)
    rw [size] at near
    rw [if_pos back, ← abs_neg]
    push_cast
    have same : -(-(cyclesTime baseArtHz ppb cycles.natAbs : ℚ) - cycles * pace baseArtHz ppb) =
        cyclesTime baseArtHz ppb cycles.natAbs - -cycles * pace baseArtHz ppb := by ring
    rw [same]
    exact near
  · have size : |(cycles : ℚ)| = cycles := abs_of_nonneg (by exact_mod_cast Int.not_lt.mp back)
    rw [size] at near
    rw [if_neg back, Int.cast_natCast]
    exact near

/-- The clock of the driver, without its rounding. -/
def lineOf (phc : PhcParams) : Line ℚ :=
  ⟨phc.anchorArt, phc.anchorNs, pace phc.baseArtHz (scaledPpmToPpb phc.scaledPpm)⟩

theorem phc_time_near {phc : PhcParams}
    (modest : Modest phc.baseArtHz (scaledPpmToPpb phc.scaledPpm)) (art : Nat) :
    |(phcTime phc art : ℚ) - (lineOf phc).valueAt art| ≤ roundingNs := by
  have near := offset_time_near modest ((art : Int) - phc.anchorArt)
  have same : (phcTime phc art : ℚ) - (lineOf phc).valueAt art =
      (offsetTime phc.baseArtHz (scaledPpmToPpb phc.scaledPpm) ((art : Int) - phc.anchorArt) : ℚ) -
        ((art : Int) - phc.anchorArt : Int) * pace phc.baseArtHz (scaledPpmToPpb phc.scaledPpm) := by
    unfold phcTime lineOf Line.valueAt
    push_cast
    ring
  rw [same]
  exact near

variable {phc : PhcParams} {clock : Line ℚ} {bound : ℚ} {art : Nat} {now : Int}

theorem converted_near (modest : Modest phc.baseArtHz (scaledPpmToPpb phc.scaledPpm))
    (read : phcArtToNs phc art = .ok now) : |(now : ℚ) - (lineOf phc).valueAt art| ≤ roundingNs := by
  rw [(phc_art_to_ns_eq modest read).1]
  exact phc_time_near modest art

/-- A step from a converted time, against one of the clock that is meant. -/
theorem near_stepped (delta : Int) (modest : Modest phc.baseArtHz (scaledPpmToPpb phc.scaledPpm))
    (near : Line.Near bound clock (lineOf phc)) (read : phcArtToNs phc art = .ok now) :
    Line.Near (bound + roundingNs) (clock.step delta)
      (lineOf (phcParamsMake art (now + delta) phc.baseArtHz phc.scaledPpm)) := by
  have moved : lineOf (phcParamsMake art (now + delta) phc.baseArtHz phc.scaledPpm) =
      (lineOf phc).setTo art (now + delta) := by
    unfold lineOf Line.setTo phcParamsMake
    push_cast
    rfl
  rw [moved]
  exact near.step (delta : ℚ) (converted_near modest read)

/-- Another rate from a converted time on. -/
theorem near_tuned (hz : Nat) (scaledPpm : Int)
    (modest : Modest phc.baseArtHz (scaledPpmToPpb phc.scaledPpm))
    (near : Line.Near bound clock (lineOf phc)) (read : phcArtToNs phc art = .ok now) :
    Line.Near (bound + roundingNs) (clock.tune art (pace hz (scaledPpmToPpb scaledPpm)))
      (lineOf (phcParamsMake art now hz scaledPpm)) :=
  near.tune _ (converted_near modest read)

end rounding

/-! ## Operations, in the order in which they hold the lock -/

section history

/-- A clock that an operation has steered. -/
def ClockRequest.steers (baseArtHz art : Nat) (clock : Line ℚ) : ClockRequest → Line ℚ
  | .gettime => clock
  | .settime ts => clock.setTo art (timespec64ToNs ts)
  | .adjtime delta => clock.step delta
  | .adjfine scaledPpm => clock.tune art (pace baseArtHz (scaledPpmToPpb scaledPpm))

/-- The clock that is meant, after a history. -/
def meantClock (first : PhcParams) : List ClockEntry → Line ℚ
  | [] => lineOf first
  | .read _ :: earlier => meantClock first earlier
  | .steered art request :: earlier => request.steers first.baseArtHz art (meantClock first earlier)

/-- The steps and tunings since the clock was last set. -/
def roundings : List ClockEntry → Nat
  | [] => 0
  | .read _ :: earlier => roundings earlier
  | .steered _ (.settime _) :: _ => 0
  | .steered _ _ :: earlier => roundings earlier + 1

def steeredRequests : List ClockEntry → List ClockRequest
  | [] => []
  | .read _ :: earlier => steeredRequests earlier
  | .steered _ request :: earlier => request :: steeredRequests earlier

/-- The section of an operation under the lock. -/
inductive Commits : ClockRequest → (Nat → PhcParams → Except Errno Unit × PhcParams) → Prop where
  | settime (ts : Timespec64) : Commits (.settime ts) (settimeCommit (timespec64ToNs ts))
  | adjtime (delta : Int) : Commits (.adjtime delta) (adjtimeCommit delta)
  | adjfine (scaledPpm : Int) : -phcMaxAdjPpb ≤ scaledPpmToPpb scaledPpm →
      scaledPpmToPpb scaledPpm ≤ phcMaxAdjPpb → Commits (.adjfine scaledPpm) (adjfineCommit scaledPpm)

/-- The clock of the driver has followed the one that is meant. -/
structure Follows (first : PhcParams) (history : ClockHistory) : Prop where
  rate : history.1.phc.baseArtHz = first.baseArtHz
  modest : Modest history.1.phc.baseArtHz (scaledPpmToPpb history.1.phc.scaledPpm)
  near : Line.Near (roundings history.2 * roundingNs) (meantClock first history.2)
    (lineOf history.1.phc)

variable {first : PhcParams} {s : Timebase} {entries : List ClockEntry} {art : Nat}
  {request : ClockRequest} {update : Nat → PhcParams → Except Errno Unit × PhcParams}

theorem Follows.read (follows : Follows first (s, entries)) :
    Follows first ({ s with converted := max s.converted art }, .read art :: entries) :=
  ⟨follows.rate, follows.modest, follows.near⟩

/-- A reading of the driver's clock, against the one that is meant. -/
theorem Follows.tells (follows : Follows first (s, entries)) {now : Int}
    (converted : phcArtToNs s.phc art = .ok now) :
    |(now : ℚ) - (meantClock first entries).valueAt art| ≤ (roundings entries + 1) * roundingNs := by
  have near := follows.near.reading (converted_near follows.modest converted)
  rw [add_one_mul]
  exact near

theorem Commits.refused {status : Errno} {next : PhcParams} (commits : Commits request update)
    (refused : update art s.phc = (.error status, next)) : next = s.phc := by
  cases commits with
  | settime ts => cases refused
  | adjtime delta => exact adjtime_commit_refused refused
  | adjfine scaledPpm => exact adjfine_commit_refused refused

/-- What one section under the lock does to both clocks. -/
theorem Follows.commit {next : PhcParams} (follows : Follows first (s, entries))
    (commits : Commits request update) (committed : update art s.phc = (.ok (), next)) :
    Follows first ({ s with phc := next }, .steered art request :: entries) := by
  have more (steered : request ≠ .gettime) (kept : ∀ ts, request ≠ .settime ts) :
      (roundings (.steered art request :: entries) : ℚ) = roundings entries + 1 := by
    cases request with
    | gettime => exact absurd rfl steered
    | settime ts => exact absurd rfl (kept ts)
    | adjtime | adjfine => exact Nat.cast_succ _
  cases commits with
  | settime ts =>
      cases committed
      refine ⟨follows.rate, follows.modest, ?_⟩
      have none : (roundings (.steered art (.settime ts) :: entries) : ℚ) = 0 := Nat.cast_zero
      rw [none, zero_mul]
      exact follows.near.setTo _ _
  | adjtime delta =>
      obtain ⟨now, read, rfl⟩ := adjtime_commit_ok committed
      refine ⟨follows.rate, follows.modest, ?_⟩
      rw [more (by simp) (by simp), add_one_mul]
      exact near_stepped delta follows.modest follows.near read
  | adjfine scaledPpm slow fast =>
      obtain ⟨now, read, rfl⟩ := adjfine_commit_ok committed
      refine ⟨follows.rate, ⟨follows.modest.positive, follows.modest.rate, slow, fast⟩, ?_⟩
      have meant : meantClock first (.steered art (.adjfine scaledPpm) :: entries) =
          (meantClock first entries).tune art (pace s.phc.baseArtHz (scaledPpmToPpb scaledPpm)) := by
        have rate : s.phc.baseArtHz = first.baseArtHz := follows.rate
        rw [rate]
        rfl
      rw [more (by simp) (by simp), add_one_mul, meant]
      exact near_tuned s.phc.baseArtHz scaledPpm follows.modest follows.near read

end history

/-! ## The calls -/

section calls

variable {kernel : SystemClock} {hardwarePeriodicOutput : Bool} {first : PhcParams}
  {request : ClockRequest} {update : Nat → PhcParams → Except Errno Unit × PhcParams}

abbrev ClockProg := Prog (ClockRequest × ClockOp) (fun op => op.2.Resp)

/-- What `gettime64` makes of a conversion. -/
def toldTime : S64Result → ClockAnswer
  | .error status => .time (.error status)
  | .ok now => if now < 0 then .time (.error .erange) else .time (.ok (nsToTimespec64 now))

def convertedTime : U64Result → ClockProg ClockAnswer
  | .error status => ret (.time (.error status))
  | .ok art => call (.gettime, .clockPhcArtToNs art) fun now => ret (toldTime now)

theorem gettime_begins : (clockOperation kernel .phc hardwarePeriodicOutput .gettime).tag .gettime =
    call (ClockRequest.gettime, ClockOp.currentArt) convertedTime := by
  change call (ClockRequest.gettime, ClockOp.currentArt) _ = _
  congr 1
  funext art
  cases art with
  | error status => rfl
  | ok art =>
      change call (ClockRequest.gettime, ClockOp.clockPhcArtToNs art) _ = _
      unfold convertedTime
      congr 1
      funext now
      cases now with
      | error status => rfl
      | ok now =>
          change ((if now < 0 then pure (.error .erange) else pure (.ok (nsToTimespec64 now)) :
            ClockCall (Except Errno Timespec64)).bind fun now =>
              pure (ClockAnswer.time now)).tag ClockRequest.gettime =
                ret (if now < 0 then .time (.error .erange) else .time (.ok (nsToTimespec64 now)))
          split <;> rfl

/-- A success is told to the outputs, or to nobody. -/
def afterSteering (request : ClockRequest) (tell : ClockCall Unit) :
    Except Errno Unit → ClockProg ClockAnswer
  | .error status => ret (.status (.error status))
  | .ok () => (tell >>= fun _ => pure (.status (.ok ()))).tag request

def steeringAt (request : ClockRequest)
    (update : Nat → PhcParams → Except Errno Unit × PhcParams) (tell : ClockCall Unit) :
    U64Result → ClockProg ClockAnswer
  | .error _ => ret (.status (.error .enodev))
  | .ok art => call (request, .phcUpdate art update) (afterSteering request tell)

theorem steering_begins (tell : ClockCall Unit) :
    (commitAtArt update tell >>= fun status => pure (ClockAnswer.status status)).tag request =
      call (request, ClockOp.currentArt) (steeringAt request update tell) := by
  change call (request, ClockOp.currentArt) _ = _
  congr 1
  funext art
  cases art with
  | error status => rfl
  | ok art =>
      change call (request, ClockOp.phcUpdate art update) _ = _
      unfold steeringAt
      congr 1
      funext status
      cases status with
      | error status => rfl
      | ok done =>
          change (((tell.bind fun _ => ret (.ok ())).bind fun status =>
            ret (ClockAnswer.status status)) : ClockCall ClockAnswer).tag request = _
          rw [bind_assoc]
          rfl

abbrev ClockTrace := List (ClockHistory × ClockHistory)

/-- A conversion told the time of the clock that is meant, where ART had been
sampled. -/
structure TimeTold (first : PhcParams) (sample s t : ClockHistory) (ts : Timespec64) : Prop where
  noted : t.2 = .read sample.1.art :: s.2
  near : |(ts.ns : ℚ) - (meantClock first s.2).valueAt sample.1.art| ≤
    (roundings s.2 + 1) * roundingNs

/-- A section under the lock took effect where ART had been sampled. -/
def SteersAt (request : ClockRequest) (sample s t : ClockHistory) : Prop :=
  t.2 = .steered sample.1.art request :: s.2

/-- Steps that leave everything as it is. -/
def Inert (trace : ClockTrace) : Prop := ∀ step ∈ trace, step.2 = step.1

/-- How far a call has come, the steps it has taken, and what it has steered. -/
inductive Underway (first : PhcParams) :
    ClockRequest → ClockProg ClockAnswer → ClockTrace → Multiset ClockRequest → Prop where
  | reads : Underway first .gettime
      (call (ClockRequest.gettime, ClockOp.currentArt) convertedTime) [] 0
  | converts (sample : ClockHistory) : Underway first .gettime
      (call (ClockRequest.gettime, ClockOp.clockPhcArtToNs sample.1.art) fun now =>
        ret (toldTime now)) [(sample, sample)] 0
  | told {sample s t : ClockHistory} {ts : Timespec64} : TimeTold first sample s t ts →
      Underway first .gettime (ret (.time (.ok ts))) [(sample, sample), (s, t)] 0
  | untold {status : Errno} {trace : ClockTrace} :
      Underway first .gettime (ret (.time (.error status))) trace 0
  | asks {request : ClockRequest} {update : Nat → PhcParams → Except Errno Unit × PhcParams}
      {tell : ClockCall Unit} : Commits request update →
      (tell = resyncOutputsAfterPhcStep ∨ tell = updateOutputsAfterPhcFreq ∨ tell = pure ()) →
      Underway first request
        (call (request, ClockOp.currentArt) (steeringAt request update tell)) [] 0
  | commits {request : ClockRequest} {update : Nat → PhcParams → Except Errno Unit × PhcParams}
      {tell : ClockCall Unit} (sample : ClockHistory) : Commits request update →
      (tell = resyncOutputsAfterPhcStep ∨ tell = updateOutputsAfterPhcFreq ∨ tell = pure ()) →
      Underway first request
        (call (request, ClockOp.phcUpdate sample.1.art update) (afterSteering request tell))
        [(sample, sample)] 0
  | resyncs {request : ClockRequest} {sample s t : ClockHistory} : SteersAt request sample s t →
      Underway first request
        (call (request, ClockOp.resyncOutputsAfterPhcStep) fun _ => ret (.status (.ok ())))
        [(sample, sample), (s, t)] {request}
  | updates {request : ClockRequest} {sample s t : ClockHistory} : SteersAt request sample s t →
      Underway first request
        (call (request, ClockOp.updateOutputsAfterPhcFreq) fun _ => ret (.status (.ok ())))
        [(sample, sample), (s, t)] {request}
  | steered {request : ClockRequest} {sample s t : ClockHistory} {told : ClockTrace} :
      SteersAt request sample s t → Inert told →
      Underway first request (ret (.status (.ok ()))) ((sample, sample) :: (s, t) :: told) {request}
  | refused {request : ClockRequest} {status : Errno} {trace : ClockTrace} : Inert trace →
      Underway first request (ret (.status (.error status))) trace 0

theorem settime_shape (doSettimeofday64 : Timespec64 → ClockCall (Except Errno Unit))
    (ts : Timespec64) :
    (∃ status, ptpSettime64 doSettimeofday64 .phc ts = pure (.error status)) ∨
      ptpSettime64 doSettimeofday64 .phc ts =
        commitAtArt (settimeCommit (timespec64ToNs ts)) resyncOutputsAfterPhcStep := by
  unfold ptpSettime64
  rw [if_neg (by decide)]
  split
  · exact .inl ⟨_, rfl⟩
  rw [if_neg (by decide)]
  split
  · exact .inl ⟨_, rfl⟩
  split
  · exact .inl ⟨_, rfl⟩
  · exact .inr rfl

theorem adjfine_shape (scaledPpm : Int) :
    (∃ status, ptpAdjfine .phc hardwarePeriodicOutput scaledPpm = pure (.error status)) ∨
      (-phcMaxAdjPpb ≤ scaledPpmToPpb scaledPpm ∧ scaledPpmToPpb scaledPpm ≤ phcMaxAdjPpb) ∧
        ptpAdjfine .phc hardwarePeriodicOutput scaledPpm =
          commitAtArt (adjfineCommit scaledPpm) (tellFrequency hardwarePeriodicOutput) := by
  by_cases far : scaledPpmToPpb scaledPpm > phcMaxAdjPpb ∨ scaledPpmToPpb scaledPpm < -phcMaxAdjPpb
  · exact .inl ⟨.erange, if_pos far⟩
  · exact .inr ⟨by omega, if_neg far⟩

theorem underway_begins : Underway first request
    ((clockOperation kernel .phc hardwarePeriodicOutput request).tag request) [] 0 := by
  have inert : Inert [] := fun _ member => absurd member List.not_mem_nil
  cases request with
  | gettime =>
      rw [gettime_begins]
      exact .reads
  | settime ts =>
      change Underway first _ ((ptpSettime64 kernel.doSettimeofday64 .phc ts >>= fun status =>
        pure (ClockAnswer.status status)).tag (.settime ts)) [] 0
      rcases settime_shape kernel.doSettimeofday64 ts with ⟨status, refuses⟩ | commits
      · rw [refuses]
        exact .refused inert
      · rw [commits, steering_begins]
        exact .asks (.settime ts) (.inl rfl)
  | adjtime delta =>
      change Underway first _
        ((commitAtArt (adjtimeCommit delta) resyncOutputsAfterPhcStep >>= fun status =>
          pure (ClockAnswer.status status)).tag (.adjtime delta)) [] 0
      rw [steering_begins]
      exact .asks (.adjtime delta) (.inl rfl)
  | adjfine scaledPpm =>
      change Underway first _ ((ptpAdjfine .phc hardwarePeriodicOutput scaledPpm >>=
        fun status => pure (ClockAnswer.status status)).tag (.adjfine scaledPpm)) [] 0
      rcases adjfine_shape scaledPpm with ⟨status, refuses⟩ | ⟨bounds, commits⟩
      · rw [refuses]
        exact .refused inert
      · rw [commits, steering_begins]
        refine .asks (.adjfine scaledPpm bounds.1 bounds.2) ?_
        unfold tellFrequency
        cases hardwarePeriodicOutput with
        | true => exact .inr (.inl rfl)
        | false => exact .inr (.inr rfl)

abbrev ClockOperationCall :=
  Call (ClockRequest × ClockOp) (fun op => op.2.Resp) ClockHistory ClockRequest ClockAnswer

theorem Inert.singleton (s : ClockHistory) : Inert [(s, s)] := by simp [Inert]

theorem underway_step {s t : ClockHistory} {call : ClockOperationCall}
    {later : ClockProg ClockAnswer} {entry others : Multiset ClockRequest}
    (step : Step (clockOperations kernel hardwarePeriodicOutput).toSemantics call.rest s later t)
    (follows : Follows first s)
    (steered : (steeredRequests s.2 : Multiset ClockRequest) = entry + others)
    (underway : Underway first call.request call.rest call.trace entry) :
    ∃ next, Follows first t ∧ (steeredRequests t.2 : Multiset ClockRequest) = next + others ∧
      Underway first call.request later (call.stepped s t later).trace next := by
  obtain ⟨request, earlier, trace, rest⟩ := call
  obtain ⟨now, entries⟩ := t
  dsimp only [Call.stepped] at *
  cases underway with
  | reads =>
      obtain ⟨reply, ⟨⟨-, same, read⟩, noted⟩, rfl⟩ := step_of_call step
      cases noted
      cases same
      refine ⟨0, follows, steered, ?_⟩
      cases reply with
      | error status => exact .untold
      | ok art =>
          cases read art rfl
          exact .converts s
  | converts sample =>
      obtain ⟨reply, ⟨⟨-, converted, same⟩, noted⟩, rfl⟩ := step_of_call step
      cases noted
      cases same
      refine ⟨0, follows.read, steered, ?_⟩
      cases reply with
      | error status => exact .untold
      | ok now =>
          unfold toldTime
          dsimp only
          split
          · exact .untold
          · refine .told ⟨rfl, ?_⟩
            rw [timespec64_ns]
            exact follows.tells converted.symm
  | told => exact (step_of_ret step).elim
  | untold => exact (step_of_ret step).elim
  | asks commits tells =>
      obtain ⟨reply, ⟨⟨-, same, read⟩, noted⟩, rfl⟩ := step_of_call step
      cases noted
      cases same
      refine ⟨0, follows, steered, ?_⟩
      cases reply with
      | error status => exact .refused (.singleton s)
      | ok art =>
          cases read art rfl
          exact .commits s commits tells
  | @commits _ update tell sample commits tells =>
      obtain ⟨reply, ⟨⟨-, answered, same⟩, noted⟩, rfl⟩ := step_of_call step
      change entries = steeredEntry sample.1.art request (update sample.1.art s.1.phc).1 ++ s.2 at noted
      cases done : update sample.1.art s.1.phc with
      | mk status next =>
          rw [done] at noted answered same
          cases same
          cases answered
          cases status with
          | error status =>
              cases noted
              cases commits.refused done
              refine ⟨0, follows, steered, .refused ?_⟩
              simp [Inert, steeredEntry]
          | ok value =>
              cases noted
              refine ⟨{request}, follows.commit commits done, ?_, ?_⟩
              · rw [zero_add] at steered
                rw [Multiset.singleton_add, ← steered, Multiset.cons_coe]
                rfl
              · rcases tells with rfl | rfl | rfl
                · exact .resyncs rfl
                · exact .updates rfl
                · exact .steered rfl fun _ member => absurd member List.not_mem_nil
  | resyncs steers =>
      obtain ⟨reply, ⟨⟨-, same⟩, noted⟩, rfl⟩ := step_of_call step
      cases noted
      cases same
      exact ⟨_, follows, steered, .steered steers (.singleton s)⟩
  | updates steers =>
      obtain ⟨reply, ⟨⟨-, same⟩, noted⟩, rfl⟩ := step_of_call step
      cases noted
      cases same
      exact ⟨_, follows, steered, .steered steers (.singleton s)⟩
  | steered => exact (step_of_ret step).elim
  | refused => exact (step_of_ret step).elim

/-- The clock has followed the meant one, and the history holds the requests of
the entries, each once. -/
structure Steered (first : PhcParams) (s : ClockHistory) (total : Multiset ClockRequest) : Prop where
  follows : Follows first s
  once : (steeredRequests s.2 : Multiset ClockRequest) = total

def OperationDue (first : PhcParams) (_ : ClockHistory) (call : ClockOperationCall)
    (entry : Multiset ClockRequest) : Prop :=
  Underway first call.request call.rest call.trace entry

theorem clock_operations_account (kernel : SystemClock) (hardwarePeriodicOutput : Bool)
    (first : PhcParams) : (clockOperations kernel hardwarePeriodicOutput).Accounts (Steered first)
      (OperationDue first) where
  env s t total step steered := by
    have phc : t.1.phc = s.1.phc := by rw [step.1.2]
    refine ⟨⟨⟨?_, ?_, ?_⟩, ?_⟩, fun _ _ due => due⟩
    · rw [phc]
      exact steered.follows.rate
    · rw [phc]
      exact steered.follows.modest
    · rw [phc, step.2]
      exact steered.follows.near
    · rw [step.2]
      exact steered.once
  begin _ _ _ _ _ _ := underway_begins
  step s t call later entry others step steered due := by
    obtain ⟨next, follows, once, own⟩ := underway_step step steered.follows steered.once due
    exact ⟨next, ⟨follows, once⟩, own, fun _ _ due => due⟩

def steeringSuccess (call : ClockOperationCall) : Option ClockRequest :=
  match call.answer with
  | some (.status (.ok ())) => some call.request
  | _ => none

/-- The requests that have steered the clock, by their answers. -/
def steeringSuccesses (calls : List ClockOperationCall) : List ClockRequest :=
  calls.filterMap steeringSuccess

theorem successes_sum {s : ClockHistory} {calls : List ClockOperationCall}
    {entries : List (Multiset ClockRequest)}
    (each : List.Forall₂ (OperationDue first s) calls entries)
    (returned : ∀ call ∈ calls, call.answer.isSome = true) :
    (steeringSuccesses calls : Multiset ClockRequest) = entries.sum := by
  induction each with
  | nil => rfl
  | @cons call entry calls entries due _ ih =>
      have others := ih fun other member => returned other (List.mem_cons_of_mem _ member)
      have own := returned call List.mem_cons_self
      obtain ⟨request, earlier, trace, rest⟩ := call
      unfold OperationDue at due
      dsimp only at due
      rw [List.sum_cons, ← others]
      cases due with
      | told | untold | refused =>
          rw [zero_add]
          rfl
      | steered =>
          rw [Multiset.singleton_add, Multiset.cons_coe]
          rfl
      | _ => cases own

end calls

/-- Calls that overlap in any way steer the clock in one order, that of their
sections under the lock: once for each call that succeeds and never for a
refused one. In every state the clock tells the time that is meant, up to one
rounding, and one more for each step and tuning since it was last set, and so
does every answer of `gettime64` at the moment of its conversion. -/
theorem clock_operations_follow (kernel : SystemClock) (hardwarePeriodicOutput : Bool)
    (first : PhcParams) (art : Nat)
    (modest : Modest first.baseArtHz (scaledPpmToPpb first.scaledPpm))
    (last : Pool.Config (ClockRequest × ClockOp) (fun op => op.2.Resp) ClockHistory ClockRequest
      ClockAnswer)
    (reaches : (clockOperations kernel hardwarePeriodicOutput).Reaches
      ⟨(⟨first, art, 0⟩, []), []⟩ last) :
    (∀ at_ now, phcArtToNs last.state.1.phc at_ = .ok now →
      |(now : ℚ) - (meantClock first last.state.2).valueAt at_| ≤
        (roundings last.state.2 + 1) * roundingNs) ∧
    (∀ call ∈ last.calls, ∀ ts, call.answer = some (.time (.ok ts)) → ∃ sample s t,
      call.trace = [(sample, sample), (s, t)] ∧ TimeTold first sample s t ts) ∧
    (∀ call ∈ last.calls, call.answer = some (.status (.ok ())) → ∃ sample s t told,
      call.trace = (sample, sample) :: (s, t) :: told ∧ SteersAt call.request sample s t ∧
        Inert told) ∧
    (∀ call ∈ last.calls, ∀ status, call.answer = some (.status (.error status)) →
      Inert call.trace) ∧
    ((∀ call ∈ last.calls, call.answer.isSome = true) →
      (steeredRequests last.state.2).Perm (steeringSuccesses last.calls)) := by
  have near : Line.Near ((0 : Nat) * roundingNs) (lineOf first) (lineOf first) := by
    rw [Nat.cast_zero, zero_mul]
    exact .refl _
  have start : Steered first (⟨first, art, 0⟩, []) 0 := ⟨⟨rfl, modest, near⟩, rfl⟩
  obtain ⟨entries, each, steered⟩ :=
    (clock_operations_account kernel hardwarePeriodicOutput first).reaches reaches ⟨[], .nil, start⟩
  refine ⟨fun at_ now converted => steered.follows.tells converted, ?_, ?_, ?_, ?_⟩
  · intro call member ts answered
    obtain ⟨entry, due⟩ := Pool.exists_partner each call member
    obtain ⟨request, earlier, trace, rest⟩ := call
    unfold OperationDue at due
    dsimp only at due
    cases due with
    | told known =>
        cases answered
        exact ⟨_, _, _, rfl, known⟩
    | _ => cases answered
  · intro call member answered
    obtain ⟨entry, due⟩ := Pool.exists_partner each call member
    obtain ⟨request, earlier, trace, rest⟩ := call
    unfold OperationDue at due
    dsimp only at due
    cases due with
    | steered steers inert => exact ⟨_, _, _, _, rfl, steers, inert⟩
    | _ => cases answered
  · intro call member status answered
    obtain ⟨entry, due⟩ := Pool.exists_partner each call member
    obtain ⟨request, earlier, trace, rest⟩ := call
    unfold OperationDue at due
    dsimp only at due
    cases due with
    | refused inert => exact inert
    | _ => cases answered
  · intro returned
    have sums := successes_sum each returned
    rw [← steered.once] at sums
    exact Multiset.coe_eq_coe.mp sums.symm

section tracing

/-- The calls on given states, where no access fails. -/
def clockOperationsTracer (kernel : SystemClock) (hardwarePeriodicOutput : Bool) :
    (clockOperations kernel hardwarePeriodicOutput).Tracer Nat where
  handler op s := some ((clockAnswer op.2 s.1).1, (clockAnswer op.2 s.1).2, clockEntries op s.1 ++ s.2)
  act art s := some ({ s.1 with art }, s.2)
  handlerSound op s reply t handled := by
    cases handled
    exact ⟨clock_answer_sound op.2 s.1 trivial, rfl⟩
  actSound art s t acted := by
    cases acted
    exact .single ⟨⟨trivial, rfl⟩, rfl⟩

/-- A system clock that nobody asks. -/
def unasked : SystemClock := ⟨fun _ => pure (.ok ()), pure ⟨0, 0⟩⟩

/-- The clock is set where it was sampled before a step back, but after that
step has taken effect, while its time is being read. -/
def crossedOperations : List (Pool.Scheduled ClockRequest Nat) :=
  [.begin (.settime ⟨100, 5⟩), .begin (.adjtime (-3000000)), .begin .gettime, .act 2000, .step 0,
    .act 5000, .step 1, .step 1, .step 2, .step 0, .step 2, .step 0, .step 1]

def afterCrossedOperations :
    Pool.Config (ClockRequest × ClockOp) (fun op => op.2.Resp) ClockHistory ClockRequest ClockAnswer :=
  (clockOperationsTracer unasked true).after
    ⟨(⟨⟨1000, 5000000000, 38400000, 6553600⟩, 1000, 0⟩, []), []⟩ crossedOperations

end tracing

theorem clock_operations_follow_crossed :
    (∃ now, phcArtToNs afterCrossedOperations.state.1.phc 1000000 = .ok now ∧
      |(now : ℚ) - (meantClock ⟨1000, 5000000000, 38400000, 6553600⟩
        afterCrossedOperations.state.2).valueAt 1000000| ≤
          (roundings afterCrossedOperations.state.2 + 1) * roundingNs) ∧
      (steeredRequests afterCrossedOperations.state.2).Perm
        (steeringSuccesses afterCrossedOperations.calls) := by
  have reaches := (clockOperationsTracer unasked true).after_reaches
    ⟨(⟨⟨1000, 5000000000, 38400000, 6553600⟩, 1000, 0⟩, []), []⟩ crossedOperations
    (by decide +kernel)
  have follows := clock_operations_follow unasked true _ _
    ⟨by decide, by decide, by decide, by decide⟩ _ reaches
  exact ⟨⟨100025992186, by decide +kernel, follows.1 1000000 100025992186 (by decide +kernel)⟩,
    follows.2.2.2.2 (by decide +kernel)⟩

end Tgpio

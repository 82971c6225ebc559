import Tgpio.RequestOutcomes

/-!
# The times of a request

The seconds of a time are bounded by those of the largest 64-bit count, the
nanoseconds are then added without another look. Within the last second of the
range the sum wraps, and the wrapped value passes every later check.
-/

namespace Tgpio

open Interference Interference.Prog

set_option autoImplicit false

def wholeNs (time : PtpClockTime) : Int := time.sec * nsecPerSec + time.nsec

section times

variable {time : PtpClockTime}

theorem ptp_time_to_ns_eq {ns : Nat} (converted : ptpTimeToNs time = .ok ns) :
    0 ≤ wholeNs time ∧ (ns : Int) = wholeNs time % 2 ^ 64 := by
  unfold ptpTimeToNs at converted
  split at converted
  · contradiction
  rename_i fields
  split at converted
  · contradiction
  · cases converted
    unfold wholeNs u64 nsecPerSec at *
    omega

theorem ptp_time_to_s64_ns_eq {ns : Int} (converted : ptpTimeToS64Ns time = .ok ns) :
    0 ≤ wholeNs time ∧ wholeNs time < 2 ^ 63 + nsecPerSec ∧ ns = toS64 (wholeNs time) := by
  unfold ptpTimeToS64Ns at converted
  split at converted
  · contradiction
  rename_i fields
  split at converted
  · contradiction
  rename_i seconds
  have limit : (s64Max : Int).tdiv nsecPerSec = 9223372036 := by decide
  rw [limit] at seconds
  cases converted
  have whole : toS64 (time.sec * nsecPerSec) = time.sec * nsecPerSec :=
    to_s64_of_range (by unfold nsecPerSec; omega) (by unfold nsecPerSec; omega)
  rw [whole]
  unfold wholeNs nsecPerSec at *
  omega

/-- The sum wraps into the negative numbers from `2 ^ 63` on. -/
theorem s64_ns_whole_iff {ns : Int} (converted : ptpTimeToS64Ns time = .ok ns) :
    ns = wholeNs time ↔ wholeNs time < 2 ^ 63 := by
  obtain ⟨lower, upper, exact_⟩ := ptp_time_to_s64_ns_eq converted
  constructor
  · intro same
    by_contra above
    have negative : toS64 (wholeNs time) < 0 := by
      unfold toS64 Int.bmod nsecPerSec at *
      dsimp only
      split <;> omega
    omega
  · intro small
    rw [exact_, to_s64_of_range (by omega) small]

theorem ns_whole_iff {ns : Nat} (converted : ptpTimeToNs time = .ok ns) :
    (ns : Int) = wholeNs time ↔ wholeNs time < 2 ^ 64 := by
  obtain ⟨lower, exact_⟩ := ptp_time_to_ns_eq converted
  constructor
  · intro same
    omega
  · intro small
    omega

theorem output_times_get_eq {periodNs dutyNs : Nat} {dutyValid : Bool} {times : OutputTimes}
    (valid : outputTimesGet periodNs dutyNs dutyValid = .ok times) :
    times.periodNs = periodNs ∧ times.highTimeNs = (if dutyValid then dutyNs else periodNs / 2) ∧
      times.lowTimeNs = periodNs - times.highTimeNs ∧ 0 < times.highTimeNs ∧
      times.highTimeNs < periodNs ∧ periodNs ≤ s64Max := by
  unfold outputTimesGet at valid
  split at valid
  · contradiction
  split at valid
  · contradiction
  generalize (if dutyValid then dutyNs else periodNs / 2) = highTimeNs at valid ⊢
  dsimp only at valid
  split at valid
  · contradiction
  split at valid
  · contradiction
  · cases valid
    refine ⟨rfl, rfl, rfl, ?_⟩
    dsimp only
    omega

/-- What a request asks for, as published. -/
structure AsAsked (perout : PtpPeroutRequest) (desired : OutputDesired) : Prop where
  run : desired.run = .running
  period : (desired.periodNs : Int) = wholeNs perout.period
  firstEdge : desired.firstEdgeNs = wholeNs perout.start
  high : (desired.highTimeNs : Int) =
    if perout.hasDuty then wholeNs perout.on_ else wholeNs perout.period / 2
  low : (desired.lowTimeNs : Int) = wholeNs perout.period - desired.highTimeNs
  highRange : 1 ≤ desired.highTimeNs ∧ desired.highTimeNs ≤ s64Max
  lowRange : 1 ≤ desired.lowTimeNs ∧ desired.lowTimeNs ≤ s64Max

structure SumsFit (perout : PtpPeroutRequest) : Prop where
  period : wholeNs perout.period < 2 ^ 64
  duty : perout.hasDuty = true → wholeNs perout.on_ < 2 ^ 64
  start : wholeNs perout.start < 2 ^ 63

def Acceptable (perout : PtpPeroutRequest) : Prop :=
  ∃ period duty first times, peroutValues perout = .ok (period, duty, first) ∧
    outputTimesGet period duty perout.hasDuty = .ok times

theorem perout_values_eq {perout : PtpPeroutRequest} {period duty : Nat} {first : Int}
    (parsed : peroutValues perout = .ok (period, duty, first)) :
    ptpTimeToNs perout.period = .ok period ∧
      (perout.hasDuty = true → ptpTimeToNs perout.on_ = .ok duty) ∧
      ptpTimeToS64Ns perout.start = .ok first := by
  unfold peroutValues at parsed
  split at parsed
  · contradiction
  obtain ⟨ns, periodParsed, parsed⟩ := bind_ok parsed
  obtain ⟨on_, dutyParsed, parsed⟩ := bind_ok parsed
  obtain ⟨edge, startParsed, parsed⟩ := bind_ok parsed
  cases parsed
  refine ⟨periodParsed, fun duty => ?_, startParsed⟩
  rwa [peroutDuty, if_pos duty] at dutyParsed

theorem as_asked_of_fit {perout : PtpPeroutRequest} {period duty : Nat} {first : Int}
    {times : OutputTimes} {before : OutputDesired} {mode : OutputMode}
    (fit : SumsFit perout) (parsed : peroutValues perout = .ok (period, duty, first))
    (valid : outputTimesGet period duty perout.hasDuty = .ok times) :
    AsAsked perout ((Publish.configure .running mode times.periodNs times.highTimeNs
      times.lowTimeNs first).update before) := by
  obtain ⟨periodParsed, dutyParsed, startParsed⟩ := perout_values_eq parsed
  obtain ⟨periodEq, highEq, lowEq, positive, below, small⟩ := output_times_get_eq valid
  have wholePeriod := (ns_whole_iff periodParsed).mpr fit.period
  refine ⟨rfl, ?_, (s64_ns_whole_iff startParsed).mpr fit.start, ?_, ?_, ?_, ?_⟩
  · exact periodEq ▸ wholePeriod
  · change (times.highTimeNs : Int) = _
    rw [highEq]
    split
    · rename_i duty
      exact (ns_whole_iff (dutyParsed duty)).mpr (fit.duty duty)
    · omega
  · change (times.lowTimeNs : Int) = _ - (times.highTimeNs : Int)
    omega
  · change 1 ≤ times.highTimeNs ∧ times.highTimeNs ≤ s64Max
    omega
  · change 1 ≤ times.lowTimeNs ∧ times.lowTimeNs ≤ s64Max
    omega

theorem fit_of_as_asked {perout : PtpPeroutRequest} {period duty : Nat} {first : Int}
    {times : OutputTimes} {before : OutputDesired} {mode : OutputMode}
    (asked : AsAsked perout ((Publish.configure .running mode times.periodNs times.highTimeNs
      times.lowTimeNs first).update before))
    (parsed : peroutValues perout = .ok (period, duty, first))
    (valid : outputTimesGet period duty perout.hasDuty = .ok times) : SumsFit perout := by
  obtain ⟨periodParsed, dutyParsed, startParsed⟩ := perout_values_eq parsed
  obtain ⟨periodEq, highEq, lowEq, positive, below, small⟩ := output_times_get_eq valid
  have wholePeriod : (times.periodNs : Int) = wholeNs perout.period := asked.period
  have wholeStart : first = wholeNs perout.start := asked.firstEdge
  have wholeHigh : (times.highTimeNs : Int) =
      if perout.hasDuty then wholeNs perout.on_ else wholeNs perout.period / 2 := asked.high
  refine ⟨?_, fun hasDuty => ?_, (s64_ns_whole_iff startParsed).mp wholeStart⟩
  · exact (ns_whole_iff periodParsed).mp (periodEq ▸ wholePeriod)
  · rw [highEq, if_pos hasDuty, if_pos hasDuty] at wholeHigh
    exact (ns_whole_iff (dutyParsed hasDuty)).mp wholeHigh

end times

section acceptance

/-- Realtime mode without the hardware engine: nothing to wait for. -/
def softwareParams : Params :=
  { defaultParams with clockMode := .realtime, hardwarePeriodicOutput := false }

def restingBlock : Machine :=
  .zeroed softwareParams (steadyClocks 0 zero_in_range) ⟨0, 0, 0⟩ false

/-- The lead an arm cycle leaves before the edge it aims at. -/
def armLeadNs (mode : OutputMode) (minIntervalNs : Nat) : Nat :=
  if mode = .hardware then outputSafeTimeNs else outputLeadTimeNs minIntervalNs

theorem arm_lead_bounds (mode : OutputMode) (minIntervalNs : Nat) :
    0 < armLeadNs mode minIntervalNs ∧ armLeadNs mode minIntervalNs ≤ outputSafeTimeNs := by
  unfold armLeadNs outputLeadTimeNs outputSafeTimeNs nsecPerMsec
  dsimp only
  split
  · omega
  · split <;> omega

/-- An aligned edge is not too early, and no later than it has to be. -/
theorem output_align_first_edge_range {requestedNs minFirstNs : Int} {periodNs : Nat}
    (small : requestedNs ≤ s64Max) (future : 0 ≤ minFirstNs) (early : minFirstNs ≤ s64Max) :
    minFirstNs ≤ outputAlignFirstEdge requestedNs minFirstNs periodNs ∧
      outputAlignFirstEdge requestedNs minFirstNs periodNs ≤ s64Max ∧
      outputAlignFirstEdge requestedNs minFirstNs periodNs ≤
        max requestedNs (minFirstNs + periodNs) := by
  unfold outputAlignFirstEdge
  split
  · exact ⟨by assumption, small, le_max_left _ _⟩
  have fallback : minFirstNs ≤ minFirstNs ∧ minFirstNs ≤ s64Max ∧
      minFirstNs ≤ max requestedNs (minFirstNs + periodNs) := ⟨le_rfl, early, by omega⟩
  split
  · exact fallback
  rename_i stale fields
  have distance : (toU64 (minFirstNs - requestedNs) : Int) = minFirstNs - requestedNs :=
    to_u64_of_range (by omega) (by unfold s64Max at early; omega)
  generalize toU64 (minFirstNs - requestedNs) = delta at distance
  have rounded : delta ≤ (if delta % periodNs ≠ 0 then delta / periodNs + 1
      else delta / periodNs) * periodNs ∧ (if delta % periodNs ≠ 0 then delta / periodNs + 1
      else delta / periodNs) * periodNs ≤ delta + periodNs := by
    have split := Nat.div_add_mod' delta periodNs
    have below := Nat.mod_lt delta (Nat.pos_of_ne_zero (by omega : periodNs ≠ 0))
    split
    · rw [Nat.add_mul]
      omega
    · omega
  dsimp only
  generalize (if delta % periodNs ≠ 0 then delta / periodNs + 1 else delta / periodNs) = periods
    at rounded ⊢
  split
  · exact fallback
  split
  · exact fallback
  · rename_i aligned added
    obtain ⟨sum, range⟩ := add_s64_eq added
    have bounds := range (by omega) (by unfold s64Max at small; omega)
    obtain ⟨above, below⟩ := rounded
    push_cast at sum
    zify at above below
    unfold s64Max
    omega

/-- Well inside the range of the clock there is a plan for every first edge. -/
theorem output_timing_plan_ok (mode : OutputMode) (minIntervalNs periodNs : Nat)
    {now requestedNs : Int} (started : 0 ≤ now)
    (room : now + 3 * armLeadNs mode minIntervalNs ≤ s64Max) (small : requestedNs ≤ s64Max) :
    ∃ first, outputTimingPlan (.ok now) minIntervalNs periodNs mode requestedNs =
        .ok (first, first + -2 * armLeadNs mode minIntervalNs,
          first + -armLeadNs mode minIntervalNs + -now) ∧
      now + 3 * armLeadNs mode minIntervalNs ≤ first ∧
      first ≤ max requestedNs (now + 3 * armLeadNs mode minIntervalNs + periodNs) := by
  obtain ⟨positive, bound⟩ := arm_lead_bounds mode minIntervalNs
  unfold outputTimingPlan
  dsimp only
  rw [if_neg (by omega : ¬now < 0), ← armLeadNs]
  generalize armLeadNs mode minIntervalNs = lead at positive bound room
  unfold outputSafeTimeNs nsecPerMsec at bound
  have aligned := @output_align_first_edge_range requestedNs (now + (3 * lead : Nat)) periodNs small
    (by omega) (by push_cast; exact room)
  rw [if_neg (by unfold s64Max; omega), add_s64_ok (by omega) (by unfold s64Max at room; omega)]
  dsimp only
  generalize outputAlignFirstEdge requestedNs (now + (3 * lead : Nat)) periodNs = edge at aligned
  unfold s64Max at aligned
  push_cast at aligned
  rw [add_s64_ok (by omega) (by omega), add_s64_ok (by omega) (by omega)]
  dsimp only
  rw [add_s64_ok (by omega) (by omega)]
  exact ⟨edge, rfl, aligned.1, aligned.2.2⟩

theorem output_timing_plan_eq {read : S64Result} {minIntervalNs periodNs : Nat} {mode : OutputMode}
    {requestedNs first prime delay : Int}
    (planned : outputTimingPlan read minIntervalNs periodNs mode requestedNs =
      .ok (first, prime, delay)) :
    ∃ now : Int, read = .ok now ∧ 0 ≤ now ∧
      (now < 2 ^ 63 → now + 3 * armLeadNs mode minIntervalNs ≤ s64Max) ∧
      first = outputAlignFirstEdge requestedNs (now + 3 * armLeadNs mode minIntervalNs) periodNs ∧
      delay = first - armLeadNs mode minIntervalNs - now := by
  unfold outputTimingPlan at planned
  cases read with
  | error status => contradiction
  | ok now =>
      dsimp only at planned
      split at planned
      · contradiction
      rename_i started
      rw [← armLeadNs] at planned
      generalize armLeadNs mode minIntervalNs = lead at planned ⊢
      split at planned
      · contradiction
      split at planned
      · contradiction
      rename_i sum
      obtain ⟨rfl, range⟩ := add_s64_eq sum
      split at planned
      · rename_i timerStart _ starts
        obtain ⟨rfl, -⟩ := add_s64_eq starts
        split at planned
        · contradiction
        rename_i waits
        obtain ⟨rfl, -⟩ := add_s64_eq waits
        cases planned
        push_cast at range ⊢
        refine ⟨now, rfl, by omega, fun inRange => ?_, rfl, by ring⟩
        have bound := (range (by omega) inRange).2
        unfold s64Max
        omega
      · contradiction

theorem executes_perform {β : Type} {sem : Semantics Op Op.Resp Machine} {op : Op}
    {rest : op.Resp → Driver β} {s t u : Machine} {reply : op.Resp} {value : β}
    (step : sem.step op s reply t) (after : Executes sem (rest reply) t value u) :
    Executes sem (Prog.perform op >>= rest) s value u := .call .refl step after

theorem resting_accepts (times : OutputTimes) {firstEdgeNs : Int} (small : firstEdgeNs ≤ s64Max) :
    ∃ m, Executes (driverSem fun _ _ => False) (startOutputValues times firstEdgeNs)
      restingBlock (.ok ()) m := by
  obtain ⟨-, bound⟩ := arm_lead_bounds .software (outputMinIntervalNs times.highTimeNs times.lowTimeNs)
  obtain ⟨edge, plan, -⟩ := output_timing_plan_ok .software
    (outputMinIntervalNs times.highTimeNs times.lowTimeNs) times.periodNs (le_refl (0 : Int))
    (by unfold outputSafeTimeNs nsecPerMsec at bound; unfold s64Max; omega) small
  generalize edge + -armLeadNs .software _ + -0 = delay at plan
  have mode : outputModeOf restingBlock.params times = .software := by
    simp [outputModeOf, restingBlock, Machine.zeroed, softwareParams]
  have delayed : ∃ real,
      clockDeltaToRealNs restingBlock.params restingBlock.clocks delay = .ok real := by
    unfold clockDeltaToRealNs
    rw [if_neg (by decide)]
    split
    · exact ⟨_, rfl⟩
    · exact ⟨_, rfl⟩
  obtain ⟨real, delayed⟩ := delayed
  have timed : ∃ timing, Executes (driverSem fun _ _ => False) (prepareOutputTiming
      (outputMinIntervalNs times.highTimeNs times.lowTimeNs) times.periodNs .software firstEdgeNs)
      restingBlock (.ok timing) restingBlock := by
    apply Exists.intro
    apply executes_perform rfl
    have now : clockNowNs restingBlock.params restingBlock.clocks = .ok 0 := rfl
    rw [now, plan]
    apply executes_perform rfl
    beta_reduce
    rw [delayed]
    apply executes_perform rfl
    exact .ret .refl
  obtain ⟨timing, timed⟩ := timed
  have checked : Executes (driverSem fun _ _ => False) (checkOutputTiming .software times firstEdgeNs)
      restingBlock (.ok ()) restingBlock := by
    unfold checkOutputTiming checkHalfPeriod
    rw [if_neg (by decide)]
    exact timed.sequence (.ret .refl)
  have published : ∃ m, Executes (driverSem fun _ _ => False) (outputPublish .running .software
      times.periodNs times.highTimeNs times.lowTimeNs firstEdgeNs) restingBlock () m := by
    apply Exists.intro
    apply executes_perform rfl
    exact .call .refl rfl (.ret .refl)
  obtain ⟨m, published⟩ := published
  refine ⟨m, ?_⟩
  apply executes_perform rfl
  rw [if_neg (by decide)]
  apply executes_perform rfl
  beta_reduce
  rw [mode]
  apply Executes.sequence checked
  apply Executes.sequence published
  exact .ret .refl

def outputSlots (channel : Nat) : PinSlots :=
  List.replicate (channel + 1) ⟨.output, true, .perout, channel⟩

theorem output_slots_found (channel : Nat) :
    findMmioBlockForChannel (outputSlots channel) .perout channel =
      .ok ⟨.output, true, .perout, channel⟩ := by
  simp [findMmioBlockForChannel, outputSlots, mmioBlockSupportsFunc, List.replicate_succ]

theorem resting_accepts_request {perout : PtpPeroutRequest} {period duty : Nat} {first : Int}
    {times : OutputTimes} (parsed : peroutValues perout = .ok (period, duty, first))
    (valid : outputTimesGet period duty perout.hasDuty = .ok times) :
    ∃ m, Executes (driverSem fun _ _ => False) (configOutput (outputSlots perout.index) perout true)
      restingBlock (.ok ()) m := by
  have small : first ≤ s64Max := by
    obtain ⟨-, -, exact_⟩ := ptp_time_to_s64_ns_eq (perout_values_eq parsed).2.2
    rw [exact_]
    unfold toS64 Int.bmod s64Max
    dsimp only
    split <;> omega
  obtain ⟨m, accepted⟩ := resting_accepts times small
  refine ⟨m, ?_⟩
  unfold configOutput
  rw [if_neg (by decide), parsed]
  dsimp only
  unfold configOutputValues
  rw [output_slots_found]
  dsimp only
  rw [if_neg (by decide)]
  apply executes_perform rfl
  rw [if_neg (by decide), valid]
  exact accepted

end acceptance

/-- What an accepted request leaves published, in surroundings without other
requests. -/
def PublishedAsAsked (perout : PtpPeroutRequest) : Prop :=
  ∀ env, Undisturbed env → ∀ (slots : PinSlots) (m m' : Machine),
    Executes (driverSem env) (configOutput slots perout true) m (.ok ()) m' →
    AsAsked perout m'.desired

/-- A request that is accepted has parsed, and what it publishes is what it
parsed to. -/
theorem accepted_request_published {env : Machine → Machine → Prop} (undisturbed : Undisturbed env)
    {slots : PinSlots} {perout : PtpPeroutRequest} {m m' : Machine}
    (run : Executes (driverSem env) (configOutput slots perout true) m (.ok ()) m') :
    ∃ period duty first times mode, peroutValues perout = .ok (period, duty, first) ∧
      outputTimesGet period duty perout.hasDuty = .ok times ∧
      m'.desired = (Publish.configure .running mode times.periodNs times.highTimeNs
        times.lowTimeNs first).update m.desired := by
  unfold configOutput at run
  rw [if_neg (by decide)] at run
  cases parsed : peroutValues perout with
  | error status =>
      rw [parsed] at run
      cases run
  | ok values =>
      obtain ⟨period, duty, first⟩ := values
      rw [parsed] at run
      dsimp only at run
      cases found : peroutSlot slots perout.index with
      | error status =>
          rw [config_output_values_refused found] at run
          cases run
      | ok slot =>
          have outcome := wp_executes (config_output_values_outcome undisturbed found m rfl) run
          cases outcome with
          | stopped off => contradiction
          | started times status asked valid started =>
              cases started with
              | published mode same =>
                  exact ⟨period, duty, first, times, mode, rfl, valid, same⟩

/-- Requests are published as asked exactly when their sums fit, or when the
wrapped values do not pass the driver's own checks. -/
theorem requests_published_as_asked (perout : PtpPeroutRequest) :
    PublishedAsAsked perout ↔ (Acceptable perout → SumsFit perout) := by
  constructor
  · rintro published ⟨period, duty, first, times, parsed, valid⟩
    obtain ⟨m, run⟩ := resting_accepts_request parsed valid
    have alone : Undisturbed fun _ _ => False := fun _ _ step => step.elim
    have asked := published _ alone _ _ _ run
    obtain ⟨period, duty, first, times, mode, parsed, valid, same⟩ :=
      accepted_request_published alone run
    rw [same] at asked
    exact fit_of_as_asked asked parsed valid
  · intro fits env undisturbed slots m m' run
    obtain ⟨period, duty, first, times, mode, parsed, valid, same⟩ :=
      accepted_request_published undisturbed run
    rw [same]
    exact as_asked_of_fit (fits ⟨period, duty, first, times, parsed, valid⟩) parsed valid

/-- A period 200 ms past the largest 64-bit count, at half of those 200 ms, for an
output that is to start at the epoch. -/
def hugePeriod : PtpPeroutRequest :=
  ⟨⟨0, 0⟩, ⟨18446744073, 909551616⟩, ⟨0, 100000000⟩, 0, ptpPeroutDutyCycle⟩

theorem huge_period_not_as_asked :
    ¬∀ perout : PtpPeroutRequest, PublishedAsAsked perout := by
  intro published
  have parsed : peroutValues hugePeriod = .ok (200000000, 100000000, 0) := by decide
  have valid : outputTimesGet 200000000 100000000 hugePeriod.hasDuty =
      .ok ⟨200000000, 100000000, 100000000⟩ := by decide
  obtain ⟨m, run⟩ := resting_accepts_request parsed valid
  have alone : Undisturbed fun _ _ => False := fun _ _ step => step.elim
  have asked := published hugePeriod _ alone _ _ _ run
  obtain ⟨_, _, _, _, _, parsed, valid, same⟩ := accepted_request_published alone run
  rw [same] at asked
  exact absurd (fit_of_as_asked asked parsed valid).period (by decide)

end Tgpio

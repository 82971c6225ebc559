import Tgpio.RequestOutcomes
import Tgpio.OutputSystem
import Tgpio.Interference.Pool

/-!
# One-shot pulses beside requests

A one-shot write reads the configuration, and publishes if it is not RUNNING; a
PTP request cancels the stop of a pulse, without waiting for it, and publishes.
Neither holds anything between its steps.
-/

namespace Tgpio

open Interference Interference.Prog

set_option autoImplicit false

section oneshot

/-- Nanoseconds until the stop of a pulse, which lands in its low half. -/
def oneshotStopDelta (start now : Int) (width : Nat) : Int :=
  toS64 (start - now + width + (min (width / 2) (100 * nsecPerMsec) : Nat))

/-- Publish the pulse, and schedule its stop. -/
def armOneshot (start now : Int) (width : Nat) : Driver Unit := do
  outputPublish .running .hardware (2 * width) width width start
  let delayReal ← sample fun params clocks =>
    clockDeltaToRealNs params clocks (oneshotStopDelta start now width)
  match delayReal with
  | .error _ => scheduleOneshotStop (toU64 (oneshotStopDelta start now width))
  | .ok delayReal => scheduleOneshotStop delayReal

/-- The part after the busy check; a start of 0 is 200 ms from now. -/
def timeOneshot (start : Int) (width : Nat) : Driver (Except Errno Unit) := do
  let now ← sample clockNowNs
  match now with
  | .error _ => return .error .enodev
  | .ok now =>
    let first := if start = 0 then toS64 (now + (200 * nsecPerMsec : Nat)) else start
    if now < 0 then return .error .enodev
    else if first < toS64 (now + (50 * nsecPerMsec : Nat)) then return .error .einval
    else do
      armOneshot first now width
      return .ok ()

/-- `tgpio_oneshot_write` for a block in the given mode, from what the copy and
the scan of the user's text come to: start and width. It answers with the
number of bytes when it answers 0 here. -/
def oneshotWrite (mode : TgpioMode) (scanned : Except Errno (Int × Nat)) :
    Driver (Except Errno Unit) :=
  match scanned with
  | .error status => return .error status
  | .ok (start, width) =>
    if mode ≠ .output then return .error .eopnotsupp
    else if width < hwDutyMinHalfNs ∨ width > s64Max / 4 then return .error .einval
    else do
      let desired ← outputDesiredGet
      if desired.run = .running then return .error .ebusy
      else timeOneshot start width

end oneshot

/-- What a publication asks of the output: all of `output_desired` but the
counters. -/
structure Waveform where
  run : OutputRun
  mode : OutputMode
  periodNs : Nat
  highTimeNs : Nat
  lowTimeNs : Nat
  firstEdgeNs : Int
  deriving DecidableEq, Repr

def Machine.waveform (m : Machine) : Waveform :=
  ⟨m.desired.run, m.desired.mode, m.desired.periodNs, m.desired.highTimeNs,
    m.desired.lowTimeNs, m.desired.firstEdgeNs⟩

/-- The two kinds of callers. -/
inductive Party where
  | oneshot
  | ptp
  deriving DecidableEq, Repr

/-- A start of an output, and not the end of one. -/
def Publish.starts : Publish → Bool
  | .configure .running _ _ _ _ _ => true
  | _ => false

/-- A block, and a record of the PTP requests published for it: how many, and
what the last one asked for if it was a start. -/
structure Board where
  machine : Machine
  requests : Nat
  standing : Option Waveform

namespace Board

variable (b : Board)

/-- The board after an access that has left the machine at `m`. -/
def note : Party × Op → Machine → Board
  | (.ptp, .publish request), m =>
      ⟨m, b.requests + 1, if request.starts then some m.waveform else none⟩
  | _, m => ⟨m, b.requests, b.standing⟩

def perform (op : Party × Op) (b : Board) : Option (op.2.Resp × Board) :=
  (Machine.perform op.2 b.machine).map fun (reply, m) => (reply, b.note op m)

def withMachine (m : Machine) : Board := { b with machine := m }

end Board

/-- What decides over a pulse: the configuration, and the state of its stop. -/
def Machine.pulse (m : Machine) : Waveform × Bool × OneshotRun :=
  (m.waveform, m.oneshotScheduled, m.oneshotRun)

/-- Around the calls: the stop of a pulse in its steps, and everything that
leaves pulses alone, such as time, edges, the output work, and changes of
phase, rate or sense. -/
inductive AroundPulses : Board → Board → Prop where
  | elsewhere {b : Board} (m : Machine) : m.pulse = b.machine.pulse →
      AroundPulses b (b.withMachine m)
  | beginOneshot {b : Board} : b.machine.oneshotScheduled = true →
      b.machine.oneshotRun = .idle → AroundPulses b (b.withMachine b.machine.beginOneshot)
  | publishOneshot {b : Board} : b.machine.oneshotRun = .begun →
      AroundPulses b (b.withMachine b.machine.publishOneshot)
  | endOneshot {b : Board} : b.machine.oneshotRun = .published →
      AroundPulses b (b.withMachine b.machine.endOneshot)

inductive BlockRequest where
  | oneshot (mode : TgpioMode) (scanned : Except Errno (Int × Nat))
  | perout (slots : PinSlots) (perout : PtpPeroutRequest) (on : Bool)

/-- A request to start a periodic output. -/
def BlockRequest.isStart : BlockRequest → Bool
  | .perout _ _ on => on
  | .oneshot _ _ => false

def BlockRequest.isOneshot : BlockRequest → Bool
  | .oneshot _ _ => true
  | .perout _ _ _ => false

def serveBlock : BlockRequest → Prog (Party × Op) (fun op => op.2.Resp) (Except Errno Unit)
  | .oneshot mode scanned => (oneshotWrite mode scanned).tag .oneshot
  | .perout slots perout on => (configOutput slots perout on).tag .ptp

/-- Any number of requests for one block at a time. -/
def blockPool :
    Pool (Party × Op) (fun op => op.2.Resp) Board BlockRequest (Except Errno Unit) where
  step op b reply b' := Board.perform op b = some (reply, b')
  env := AroundPulses
  program := serveBlock

abbrev BlockCall := Call (Party × Op) (fun op => op.2.Resp) Board BlockRequest (Except Errno Unit)

abbrev BlockConfig :=
  Pool.Config (Party × Op) (fun op => op.2.Resp) Board BlockRequest (Except Errno Unit)

/-- A start that has been answered with 0 stands until another request is
published, and a one-shot write that makes its check meanwhile finds the output
busy. -/
structure Stands (config : BlockConfig) : Prop where
  kept : ∀ call ∈ config.calls, call.request.isStart = true → call.answer = some (.ok ()) →
    ∀ s t, (s, t) ∈ call.trace → s.requests < t.requests →
      config.state.requests = t.requests → config.state.machine.waveform = t.machine.waveform
  busy : ∀ call ∈ config.calls, call.request.isOneshot = true →
    ∀ s t, call.trace.head? = some (s, t) → s.standing ≠ none →
      call.answer = some (.error .ebusy)

section careful

/-- Accesses that neither publish nor schedule a stop. -/
def Tame (op : Party × Op) : Prop :=
  match op.2 with
  | .publish _ | .scheduleOneshotStop _ => False
  | _ => True

/-- A one-shot write that is not between its check and the schedule of its
stop: it has not begun, or nothing that is left of it can publish or schedule. -/
def Outside (call : BlockCall) : Prop := call.trace = [] ∨ Uses Tame call.rest

/-- No one-shot write is past its check and unfinished, and no stop waits or has
begun. -/
structure NoPulse (config : BlockConfig) : Prop where
  writes : ∀ call ∈ config.calls, call.request.isOneshot = true → Outside call
  unscheduled : config.state.machine.oneshotScheduled = false
  notBegun : config.state.machine.oneshotRun ≠ .begun

/-- A step in which a start is published only if there is no pulse. -/
def CarefulMove (first last : BlockConfig) : Prop :=
  blockPool.Moves first last ∧
    (first.state.requests < last.state.requests → last.state.standing ≠ none → NoPulse first)

/-- Accesses a request makes. -/
def OfRequest : BlockRequest → Party × Op → Prop
  | .oneshot _ _, (party, _) => party = .oneshot
  | .perout _ _ on, (party, op) => party = .ptp ∧ (∀ delay, op ≠ .scheduleOneshotStop delay) ∧
      (on = true → ∀ request, op = .publish request → request.starts = true)

/-- While a start stands: it is what the configuration says, and no stop is on
its way. -/
structure Holding (b : Board) (wanted : Waveform) : Prop where
  runs : wanted.run = .running
  wanted : b.machine.waveform = wanted
  unscheduled : b.machine.oneshotScheduled = false
  notBegun : b.machine.oneshotRun ≠ .begun

/-- What an access does to the board, by its kind. -/
inductive Accessed (op : Party × Op) (b b' : Board) : Prop where
  | requested (request : Publish) : op = (.ptp, .publish request) →
      b'.requests = b.requests + 1 →
      b'.standing = (if request.starts then some b'.machine.waveform else none) →
      (request.starts = true → b'.machine.desired.run = .running) →
      b'.machine.oneshotScheduled = b.machine.oneshotScheduled →
      b'.machine.oneshotRun = b.machine.oneshotRun → Accessed op b b'
  | pulsed : ¬Tame op → op.1 = .oneshot ∨ (∃ delay, op.2 = .scheduleOneshotStop delay) →
      b'.requests = b.requests → b'.standing = b.standing → Accessed op b b'
  | tame : Tame op → b'.requests = b.requests → b'.standing = b.standing →
      b'.machine.waveform = b.machine.waveform →
      (b'.machine.oneshotScheduled = true → b.machine.oneshotScheduled = true) →
      b'.machine.oneshotRun = b.machine.oneshotRun → Accessed op b b'

theorem publish_oneshot_fields (m : Machine) (request : Publish) :
    (m.publish request).oneshotScheduled = m.oneshotScheduled ∧
      (m.publish request).oneshotRun = m.oneshotRun := by
  unfold Machine.publish
  split <;> exact ⟨rfl, rfl⟩

theorem starts_running {request : Publish} (starts : request.starts = true) (m : Machine) :
    (m.publish request).desired.run = .running := by
  unfold Publish.starts at starts
  split at starts
  · rfl
  · contradiction

theorem perform_accessed {op : Party × Op} {b b' : Board} {reply : op.2.Resp}
    (step : Board.perform op b = some (reply, b')) : Accessed op b b' := by
  obtain ⟨⟨_, m⟩, performed, equal⟩ := Option.map_eq_some_iff.mp step
  cases equal
  obtain ⟨party, op⟩ := op
  cases op with
  | publish request =>
      cases performed
      obtain ⟨scheduled, run⟩ := publish_oneshot_fields b.machine request
      cases party with
      | oneshot => exact .pulsed (by simp [Tame]) (Or.inl rfl) rfl rfl
      | ptp =>
          exact .requested request rfl rfl rfl (fun starts => starts_running starts _)
            scheduled run
  | scheduleOneshotStop delay =>
      cases performed
      exact .pulsed (by simp [Tame]) (Or.inr ⟨delay, rfl⟩) (by cases party <;> rfl)
        (by cases party <;> rfl)
  | readl reg =>
      cases performed
      cases party <;> cases reg <;> exact .tame trivial rfl rfl rfl id rfl
  | writel reg value =>
      cases performed
      cases party <;> cases reg <;> exact .tame trivial rfl rfl rfl id rfl
  | mark point =>
      cases performed
      cases party <;> cases point <;> exact .tame trivial rfl rfl rfl id rfl
  | cancelOneshotStop =>
      cases performed
      cases party <;> exact .tame trivial rfl rfl rfl (by simp [Board.note]) rfl
  | hrtimerCancel | cancelOneshotStopSync | cancelWorkEnd =>
      simp only [Machine.perform] at performed
      split at performed
      all_goals
        cases performed
        try (cases party <;> exact .tame trivial rfl rfl rfl (by simp [Board.note]) rfl)
  | _ =>
      cases performed
      cases party <;> exact .tame trivial rfl rfl rfl id rfl

theorem one_shot_check {mode : TgpioMode} {scanned : Except Errno (Int × Nat)} {b b' : Board}
    {later : Prog (Party × Op) (fun op => op.2.Resp) (Except Errno Unit)}
    (step : Step blockPool.toSemantics (serveBlock (.oneshot mode scanned)) b later b') :
    b' = b ∧ (b.machine.desired.run = .running → later = ret (.error .ebusy)) := by
  simp only [serveBlock, oneshotWrite] at step
  split at step
  · cases step
  · split at step
    · cases step
    · split at step
      · cases step
      · cases step with
        | call performed =>
            cases performed
            refine ⟨rfl, fun running => ?_⟩
            change tag Party.oneshot (if b.machine.desired.run = .running then
              pure (.error .ebusy) else timeOneshot _ _) = _
            rw [if_pos running]
            rfl

theorem config_output_values_uses {allowed : Op → Prop} {on : Bool}
    (looks : ∀ op, OnlyLooks op → allowed op) (cancels : allowed .cancelOneshotStop)
    (schedules : allowed .scheduleWork)
    (starts : on = true → ∀ request : Publish, request.starts = true → allowed (.publish request))
    (stops : on = false → allowed (.publish .disable)) (slots : PinSlots)
    (channel periodNs dutyNs : Nat) (dutyValid : Bool) (firstEdgeNs : Int) :
    Uses allowed (configOutputValues slots channel periodNs dutyNs dutyValid firstEdgeNs on) := by
  have publishes (request : Publish) (may : allowed (.publish request)) :
      Uses allowed (publishAndSchedule request) := by
    apply Uses.seq ((uses_perform _).mpr may)
    intro changed
    split
    · exact (uses_perform _).mpr schedules
    · exact uses_pure _
  have samples {α : Type} (read : Params → Clocks → α) : Uses allowed (sample read) :=
    (uses_perform _).mpr (looks _ (only_looks_reading.sample _ _))
  unfold configOutputValues
  split
  · exact uses_pure _
  · split
    · exact uses_pure _
    · apply Uses.seq ((uses_perform _).mpr cancels)
      intro _
      split
      · rename_i off
        exact (publishes _ (stops (by simpa using off))).seq fun _ => uses_pure _
      · rename_i on
        split
        · exact uses_pure _
        · apply (samples _).seq
          intro hasBase
          split
          · exact uses_pure _
          · apply (samples _).seq
            intro mode
            apply ((check_output_timing_uses _ _ _).mono looks).seq
            intro checked
            split
            · exact uses_pure _
            · exact (publishes _ (starts (by simpa using on) _ rfl)).seq fun _ => uses_pure _

theorem serve_block_uses (request : BlockRequest) :
    Uses (OfRequest request) (serveBlock request) := by
  cases request with
  | oneshot mode scanned => exact Uses.tag ((uses_true _).mono fun _ _ => rfl)
  | perout slots perout on =>
      have values (channel periodNs dutyNs : Nat) (dutyValid : Bool) (firstEdgeNs : Int) :
          Uses (fun op => OfRequest (.perout slots perout on) (.ptp, op))
            (configOutputValues slots channel periodNs dutyNs dutyValid firstEdgeNs on) := by
        apply config_output_values_uses
        · intro op looks
          refine ⟨rfl, fun delay same => ?_, fun _ request same => ?_⟩
          all_goals
            subst same
            exact looks.elim
        · exact ⟨rfl, by simp, by simp⟩
        · exact ⟨rfl, by simp, by simp⟩
        · intro _ request starts
          refine ⟨rfl, by simp, fun _ other same => ?_⟩
          cases same
          exact starts
        · intro off
          exact ⟨rfl, by simp, by simp [off]⟩
      apply Uses.tag
      unfold configOutput
      split
      · rename_i off
        have off : on = false := by simpa using off
        subst off
        exact values _ _ _ _ _
      · split
        · exact uses_pure _
        · exact values _ _ _ _ _

/-- What is kept of a call. -/
structure CallFact (b : Board) (call : BlockCall) : Prop where
  fresh : call.trace = [] → call.rest = serveBlock call.request
  uses : Uses (OfRequest call.request) call.rest
  outside : b.standing ≠ none → call.request.isOneshot = true → Outside call
  past : ∀ s t, (s, t) ∈ call.trace → t.requests ≤ b.requests ∧
    (t.requests = b.requests → t.standing = b.standing) ∧
    (call.request.isStart = true → s.requests < t.requests →
      t.standing = some t.machine.waveform)
  busy : call.request.isOneshot = true → ∀ s t, call.trace.head? = some (s, t) →
    s.standing ≠ none → call.rest = ret (.error .ebusy)

/-- A call keeps its facts while another takes a step. -/
theorem CallFact.follow {b b' : Board} {call : BlockCall} (fact : CallFact b call)
    (order : b.requests ≤ b'.requests)
    (same : b'.requests = b.requests → b'.standing = b.standing)
    (outside : b'.standing ≠ none → call.request.isOneshot = true → Outside call) :
    CallFact b' call := by
  refine ⟨fact.fresh, fact.uses, outside, fun s t member => ?_, fact.busy⟩
  obtain ⟨before, standing, started⟩ := fact.past s t member
  refine ⟨before.trans order, fun now => ?_, started⟩
  have still : b'.requests = b.requests := by omega
  rw [same still]
  exact standing (by omega)

theorem new_call_fact (b : Board) (request : BlockRequest) (calls : List BlockCall) :
    CallFact b (blockPool.newCall request calls) where
  fresh _ := rfl
  uses := serve_block_uses request
  outside _ _ := Or.inl rfl
  past s t member := by simp [Pool.newCall] at member
  busy _ s t first := by simp [Pool.newCall] at first

section steps

variable {b b' : Board} {call : BlockCall}
  {later : Prog (Party × Op) (fun op => op.2.Resp) (Except Errno Unit)}

theorem step_accessed {rest : Prog (Party × Op) (fun op => op.2.Resp) (Except Errno Unit)}
    (step : Step blockPool.toSemantics rest b later b') :
    b' = b ∨ ∃ op, (∀ allowed : Party × Op → Prop, Uses allowed rest → allowed op) ∧
      Accessed op b b' := by
  cases step with
  | call performed => exact Or.inr ⟨_, fun _ uses => uses.1, perform_accessed performed⟩
  | loop => exact Or.inl rfl

theorem accessed_order {op : Party × Op} (accessed : Accessed op b b') :
    b.requests ≤ b'.requests ∧ (b'.requests = b.requests → b'.standing = b.standing) := by
  cases accessed with
  | requested _ _ counted => exact ⟨by omega, fun same => by omega⟩
  | pulsed _ _ counted standing => exact ⟨counted.ge, fun _ => standing⟩
  | tame _ counted standing => exact ⟨counted.ge, fun _ => standing⟩

theorem step_order (step : Step blockPool.toSemantics call.rest b later b') :
    b.requests ≤ b'.requests ∧ (b'.requests = b.requests → b'.standing = b.standing) := by
  rcases step_accessed step with rfl | ⟨op, _, accessed⟩
  · exact ⟨le_rfl, fun _ => rfl⟩
  · exact accessed_order accessed

/-- A one-shot write publishes nothing of its own account. -/
theorem oneshot_standing (step : Step blockPool.toSemantics call.rest b later b')
    (fact : CallFact b call) (oneshot : call.request.isOneshot = true) :
    b'.requests = b.requests ∧ b'.standing = b.standing := by
  rcases step_accessed step with rfl | ⟨op, uses, accessed⟩
  · exact ⟨rfl, rfl⟩
  · have own := uses _ fact.uses
    cases accessed with
    | requested request same =>
        subst same
        cases asked : call.request with
        | oneshot mode scanned =>
            rw [asked] at own
            cases own
        | perout slots perout on => simp [asked, BlockRequest.isOneshot] at oneshot
    | pulsed _ _ counted standing => exact ⟨counted, standing⟩
    | tame _ counted standing => exact ⟨counted, standing⟩

/-- A one-shot write whose check falls in the time of a start is refused. -/
theorem oneshot_refused (step : Step blockPool.toSemantics call.rest b later b')
    (fact : CallFact b call) (oneshot : call.request.isOneshot = true) (begins : call.trace = [])
    (running : b.machine.desired.run = .running) : b' = b ∧ later = ret (.error .ebusy) := by
  rw [fact.fresh begins] at step
  cases asked : call.request with
  | oneshot mode scanned =>
      rw [asked] at step
      obtain ⟨same, refused⟩ := one_shot_check step
      exact ⟨same, refused running⟩
  | perout slots perout on => simp [asked, BlockRequest.isOneshot] at oneshot

theorem Holding.running {wanted : Waveform} (holding : Holding b wanted) :
    b.machine.desired.run = .running := by
  have same : b.machine.waveform.run = .running := by rw [holding.wanted, holding.runs]
  exact same

/-- What is due of a board at all times. -/
def BoardFact (b : Board) : Prop := ∀ wanted, b.standing = some wanted → Holding b wanted

theorem call_step (step : Step blockPool.toSemantics call.rest b later b')
    (board : BoardFact b) (fact : CallFact b call) : CallFact b' (call.stepped b b' later) := by
  obtain ⟨order, same⟩ := step_order step
  have taken : (call.stepped b b' later).trace ≠ [] := by simp [Call.stepped]
  refine ⟨fun untaken => absurd untaken taken, fact.uses.step step, ?_, ?_, ?_⟩
  · intro standing oneshot
    have kept := (oneshot_standing step fact oneshot).2
    rw [kept] at standing
    obtain ⟨wanted, stands⟩ := Option.ne_none_iff_exists'.mp standing
    rcases fact.outside standing oneshot with begins | tame
    · obtain ⟨_, refused⟩ :=
        oneshot_refused step fact oneshot begins (board wanted stands).running
      refine Or.inr ?_
      simp only [Call.stepped, refused]
      trivial
    · exact Or.inr (tame.step step)
  · intro s t member
    rcases List.mem_append.mp member with past | now
    · obtain ⟨before, standing, started⟩ := fact.past s t past
      refine ⟨before.trans order, fun now => ?_, started⟩
      have still : b'.requests = b.requests := by omega
      rw [same still]
      exact standing (by omega)
    · cases List.mem_singleton.mp now
      refine ⟨le_rfl, fun _ => rfl, fun start counted => ?_⟩
      rcases step_accessed step with rfl | ⟨op, uses, accessed⟩
      · omega
      · have own := uses _ fact.uses
        cases accessed with
        | requested request published _ standing =>
            subst published
            change call.request.isStart = true at start
            cases asked : call.request with
            | oneshot mode scanned => simp [asked, BlockRequest.isStart] at start
            | perout slots perout on =>
                rw [asked] at own start
                rw [standing, if_pos (own.2.2 start request rfl)]
        | pulsed _ _ still => omega
        | tame _ still => omega
  · intro oneshot s t first standing
    by_cases begins : call.trace = []
    · have head : (s, t) = (b, b') := by
        simpa [Call.stepped, begins, eq_comm] using first
      cases head
      obtain ⟨wanted, stands⟩ := Option.ne_none_iff_exists'.mp standing
      exact (oneshot_refused step fact oneshot begins (board wanted stands).running).2
    · have head : call.trace.head? = some (s, t) := by
        simp only [Call.stepped] at first
        rwa [List.head?_append_of_ne_nil _ begins] at first
      have busy := fact.busy oneshot s t head standing
      rw [busy] at step
      cases step

theorem board_step (step : Step blockPool.toSemantics call.rest b later b')
    (board : BoardFact b) (fact : CallFact b call)
    (careful : b.requests < b'.requests → b'.standing ≠ none →
      b.machine.oneshotScheduled = false ∧ b.machine.oneshotRun ≠ .begun) : BoardFact b' := by
  intro wanted stands
  rcases step_accessed step with rfl | ⟨op, uses, accessed⟩
  · exact board wanted stands
  have own := uses _ fact.uses
  cases accessed with
  | requested request published counted standing runs scheduled run =>
      obtain ⟨unscheduled, notBegun⟩ := careful (by omega) (by simp [stands])
      rw [standing] at stands
      split at stands
      · rename_i starts
        cases stands
        exact ⟨runs starts, rfl, scheduled.trans unscheduled, by rw [run]; exact notBegun⟩
      · contradiction
  | pulsed wild party counted standing =>
      rw [standing] at stands
      have pulses : call.request.isOneshot = true := by
        cases asked : call.request with
        | oneshot mode scanned => rfl
        | perout slots perout on =>
            rw [asked] at own
            rcases party with party | ⟨delay, scheduled⟩
            · simp [own.1] at party
            · exact absurd scheduled (own.2.1 delay)
      rcases fact.outside (by simp [stands]) pulses with begins | tame
      · obtain ⟨same, _⟩ :=
          oneshot_refused step fact pulses begins (board wanted stands).running
        rw [same]
        exact board wanted stands
      · exact absurd (uses _ tame) wild
  | tame _ counted standing waveform scheduled run =>
      rw [standing] at stands
      obtain ⟨runs, isWanted, unscheduled, notBegun⟩ := board wanted stands
      refine ⟨runs, waveform.trans isWanted, ?_, by rw [run]; exact notBegun⟩
      by_contra set
      have set : b'.machine.oneshotScheduled = true := by simpa using set
      simp [scheduled set] at unscheduled

end steps

theorem around_board {b b' : Board} (around : AroundPulses b b') (board : BoardFact b) :
    b'.requests = b.requests ∧ b'.standing = b.standing ∧ BoardFact b' := by
  cases around with
  | elsewhere m same =>
      have waveform : m.waveform = b.machine.waveform := congrArg Prod.fst same
      have scheduled : m.oneshotScheduled = b.machine.oneshotScheduled :=
        congrArg (fun pulse => pulse.2.1) same
      have run : m.oneshotRun = b.machine.oneshotRun := congrArg (fun pulse => pulse.2.2) same
      refine ⟨rfl, rfl, fun wanted stands => ?_⟩
      obtain ⟨runs, isWanted, unscheduled, notBegun⟩ := board wanted stands
      exact ⟨runs, waveform.trans isWanted, scheduled.trans unscheduled,
        fun begun => notBegun (run.symm.trans begun)⟩
  | beginOneshot waits _ =>
      refine ⟨rfl, rfl, fun wanted stands => ?_⟩
      simp [(board wanted stands).unscheduled] at waits
  | publishOneshot begun =>
      exact ⟨rfl, rfl, fun wanted stands => absurd begun (board wanted stands).notBegun⟩
  | endOneshot published =>
      refine ⟨rfl, rfl, fun wanted stands => ?_⟩
      obtain ⟨runs, isWanted, unscheduled, _⟩ := board wanted stands
      exact ⟨runs, isWanted, unscheduled, by simp [Board.withMachine, Machine.endOneshot]⟩

/-- The facts of a configuration. -/
structure Orderly (config : BlockConfig) : Prop where
  board : BoardFact config.state
  calls : ∀ call ∈ config.calls, CallFact config.state call

theorem careful_move_orderly {first last : BlockConfig} (move : CarefulMove first last)
    (orderly : Orderly first) : Orderly last := by
  obtain ⟨move, careful⟩ := move
  cases move with
  | env around =>
      obtain ⟨counted, standing, board⟩ := around_board around orderly.board
      refine ⟨board, fun call member => ?_⟩
      have fact := orderly.calls call member
      apply fact.follow counted.ge (fun _ => standing)
      rw [standing]
      exact fact.outside
  | begin request =>
      refine ⟨orderly.board, fun call member => ?_⟩
      rcases List.mem_append.mp member with before | added
      · exact orderly.calls call before
      · cases List.mem_singleton.mp added
        exact new_call_fact _ _ _
  | @step b b' before after call later step =>
      have own : CallFact b call := orderly.calls call (by simp)
      refine ⟨?_, fun other member => ?_⟩
      · exact board_step step orderly.board own fun published starts =>
          ⟨(careful published starts).unscheduled, (careful published starts).notBegun⟩
      · have split : other = call.stepped b b' later ∨ other ∈ before ++ call :: after := by
          simp only [List.mem_append, List.mem_cons] at member ⊢
          tauto
        rcases split with rfl | others
        · exact call_step step orderly.board own
        · have fact : CallFact b other := orderly.calls other others
          obtain ⟨order, same⟩ := step_order step
          apply fact.follow order same
          intro starts oneshot
          rcases order.lt_or_eq with published | still
          · exact (careful published starts).writes other others oneshot
          · have kept : b'.standing = b.standing := same still.symm
            exact fact.outside (by rwa [kept] at starts) oneshot

theorem Orderly.stands {config : BlockConfig} (orderly : Orderly config) : Stands config where
  kept call member start _ s t taken published now := by
    obtain ⟨_, standing, started⟩ := (orderly.calls call member).past s t taken
    have stands : config.state.standing = some t.machine.waveform := by
      rw [← standing now.symm]
      exact started start published
    exact (orderly.board _ stands).wanted
  busy call member oneshot s t first standing := by
    have busy := (orderly.calls call member).busy oneshot s t first standing
    simp only [Call.answer, busy]
    rfl

/-- A start published while there is no pulse stands until another request is
published. -/
theorem careful_starts_stand (machine : Machine) {last : BlockConfig}
    (run : Relation.ReflTransGen CarefulMove ⟨⟨machine, 0, none⟩, []⟩ last) : Stands last := by
  have orderly : Orderly last := by
    induction run with
    | refl => exact ⟨fun wanted stands => by simp at stands, by simp⟩
    | tail _ move ih => exact careful_move_orderly move ih
  exact orderly.stands

end careful

section runs

/-- The calls alone, on a given board. -/
def blockTracer : blockPool.Tracer Empty where
  handler := Board.perform
  act := nofun
  handlerSound _ _ _ _ step := step
  actSound := nofun

/-- A check that is enough for a careful move: no one-shot write is around. -/
def cautious (first last : BlockConfig) : Bool :=
  !decide (first.state.requests < last.state.requests) ||
    (first.calls.all (fun call => !call.request.isOneshot) &&
      !first.state.machine.oneshotScheduled && first.state.machine.oneshotRun != .begun)

theorem cautious_careful {first last : BlockConfig} (cautiously : cautious first last = true)
    (move : blockPool.Moves first last) : CarefulMove first last := by
  refine ⟨move, fun published _ => ?_⟩
  simp only [cautious, Bool.or_eq_true, Bool.not_eq_true', decide_eq_false_iff_not,
    Bool.and_eq_true, List.all_eq_true, bne_iff_ne] at cautiously
  rcases cautiously with still | ⟨⟨perouts, unscheduled⟩, notBegun⟩
  · exact absurd published still
  · refine ⟨fun call member oneshot => ?_, unscheduled, notBegun⟩
    have other := perouts call member
    rw [oneshot] at other
    contradiction

def followCautiously (config : BlockConfig) :
    List (Pool.Scheduled BlockRequest Empty) → Option BlockConfig
  | [] => some config
  | event :: events => (blockTracer.follow config event).bind fun next =>
      if cautious config next then followCautiously next events else none

theorem follow_cautiously_runs {first last : BlockConfig}
    {events : List (Pool.Scheduled BlockRequest Empty)}
    (followed : followCautiously first events = some last) :
    Relation.ReflTransGen CarefulMove first last := by
  induction events generalizing first with
  | nil =>
      cases followed
      exact .refl
  | cons event events ih =>
      obtain ⟨next, step, rest⟩ := Option.bind_eq_some_iff.mp followed
      obtain ⟨cautiously, rest⟩ := Option.ite_none_right_eq_some.mp rest
      have move := blockTracer.follow_moves (fun outside => outside.elim) step
      exact .head (cautious_careful cautiously move) (ih rest)

def everySecond : PtpPeroutRequest := ⟨⟨2, 0⟩, ⟨1, 0⟩, ⟨0, 0⟩, 0, 0⟩

def startRequest : BlockRequest := .perout soleOutput everySecond true

def pulseRequest : BlockRequest := .oneshot .output (.ok (0, 100 * nsecPerMsec))

def idleBlock : BlockConfig := ⟨⟨loadedBlock, 0, none⟩, []⟩

/-- A start, and a write after it has been answered. -/
def startFirst : List (Pool.Scheduled BlockRequest Empty) :=
  .begin startRequest :: List.replicate 9 (.step 0) ++ [.begin pulseRequest, .step 1]

/-- A write makes its check, a start is served, and the write goes on. -/
def checkFirst : List (Pool.Scheduled BlockRequest Empty) :=
  [.begin pulseRequest, .step 0, .begin startRequest] ++ List.replicate 9 (.step 1) ++
    [.step 0, .step 0]

def afterStartFirst : BlockConfig := (followCautiously idleBlock startFirst).getD idleBlock

theorem careful_starts_stand_first :
    Stands afterStartFirst ∧
      afterStartFirst.calls.map Call.answer = [some (.ok ()), some (.error .ebusy)] := by
  have followed : (followCautiously idleBlock startFirst).isSome = true := by decide +kernel
  obtain ⟨last, followed⟩ := Option.isSome_iff_exists.mp followed
  have same : afterStartFirst = last := by rw [afterStartFirst, followed, Option.getD_some]
  refine ⟨?_, by decide +kernel⟩
  rw [same]
  exact careful_starts_stand loadedBlock (follow_cautiously_runs followed)

/-- The check and the publication of a write are separate, and a start fits
between them. -/
theorem start_between_check_and_pulse :
    ¬∀ (machine : Machine) (last : BlockConfig),
      blockPool.Reaches ⟨⟨machine, 0, none⟩, []⟩ last → Stands last := by
  intro claim
  have stands := claim loadedBlock _
    (blockTracer.after_reaches idleBlock checkFirst (by decide +kernel))
  have overridden : ∃ call ∈ (blockTracer.after idleBlock checkFirst).calls,
      call.request.isStart = true ∧ call.answer = some (.ok ()) ∧
        ∃ step ∈ call.trace, step.1.requests < step.2.requests ∧
          (blockTracer.after idleBlock checkFirst).state.requests = step.2.requests ∧
          (blockTracer.after idleBlock checkFirst).state.machine.waveform ≠
            step.2.machine.waveform := by
    decide +kernel
  obtain ⟨call, member, start, answered, ⟨s, t⟩, taken, published, now, differs⟩ := overridden
  exact differs (stands.kept call member start answered s t taken published now)

end runs

end Tgpio

import Tgpio.DutyIntervals
import Tgpio.NudgeFixedPoint

/-!
# Where the rises of a duty output come

The service of a duty output provides intervals and never looks at the grid, so
a rise comes where the intervals before it add up to. Each half was rounded to
whole cycles when it was counted, and what that is off by comes again with every
period.
-/

namespace Tgpio

open Interference Interference.Prog Scaling

set_option autoImplicit false

namespace DutyWatch

variable (w : DutyWatch)

def elapsed : Nat := (w.intervals.map Interval.cycles).sum

def rises : Nat := w.intervals.countP Interval.rise

end DutyWatch

/-- While the engine is on, COMPV is where the intervals since `origin` lead. -/
def Strides (origin : BitVec 64) (w : DutyWatch) : Prop :=
  hasEn w.machine.regs.ctl = true →
    w.machine.regs.compv = origin + BitVec.ofNat 64 w.elapsed

section strides

variable {origin : BitVec 64} {w w' : DutyWatch}

/-- Accesses that leave COMPV alone, and do not switch the engine on. -/
def LeavesCompv : Op → Prop
  | .writel .compv31_0 _ => False
  | .writel .compv63_32 _ => False
  | .writel .ctl value => hasEn value = false
  | op => op.ofWork

theorem leaves_compv_folding : Folding LeavesCompv where
  readl _ := trivial
  load := trivial
  sample _ _ := trivial
  real := trivial
  desired := trivial
  sleep _ := trivial
  looked := trivial
  duty _ := trivial
  periodic _ := trivial

theorem Strides.step {op : Op} {reply : op.Resp} (leaves : LeavesCompv op)
    (step : w.perform op = some (reply, w')) (strides : Strides origin w) : Strides origin w' := by
  obtain ⟨⟨_, m⟩, performed, equal⟩ := Option.map_eq_some_iff.mp step
  cases equal
  cases op with
  | writel reg value =>
      cases performed
      cases reg with
      | ctl =>
          intro on
          exact absurd (on.symm.trans leaves) Bool.noConfusion
      | compv31_0 => exact leaves.elim
      | compv63_32 => exact leaves.elim
      | _ => exact strides
  | readl reg =>
      cases performed
      cases reg <;> exact strides
  | mark point =>
      cases performed
      cases point <;> exact strides
  | hrtimerCancel =>
      simp only [Machine.perform] at performed
      split at performed
      · contradiction
      · cases performed
        exact strides
  | load | store | outputDesiredGet | sample | ktimeGetReal | hrtimerStart | msleep =>
      cases performed
      exact strides
  | _ => exact leaves.elim

theorem stable_strides : Stable dutySem (Strides origin) := by
  intro w w' step strides
  cases step with
  | @elsewhere m block regs flop params phc =>
      unfold Strides
      change hasEn m.regs.ctl = true → m.regs.compv = _
      rw [regs]
      exact strides
  | edge running visited =>
      intro on
      change w.machine.regs.compv + w.machine.regs.piv = _
      rw [strides on]
      simp [DutyWatch.elapsed, DutyWatch.edge, BitVec.ofNat_add, BitVec.add_assoc]

theorem stable_disabled : Stable dutySem fun w => hasEn w.machine.regs.ctl = false := by
  intro w w' step off
  cases step with
  | elsewhere block regs flop params phc => exact (congrArg (fun r => hasEn r.ctl) regs).trans off
  | edge running visited => exact off

theorem upholds_strides_through {α : Type} {program : Driver α} (uses : Uses LeavesCompv program) :
    Upholds dutySem (Strides origin) (Strides origin) program fun _ => Strides origin :=
  Upholds.uses uses (fun _ _ _ _ leaves step strides => strides.step leaves step) stable_strides
    fun _ strides => strides

theorem upholds_strides_disable :
    Upholds dutySem (Strides origin) (Strides origin) disableOutputHw fun _ => Strides origin := by
  have off (w : DutyWatch) (disabled : hasEn w.machine.regs.ctl = false) : Strides origin w :=
    fun on => absurd on (by simp [disabled])
  have through {program : Driver Unit} (uses : Uses StaysCeased program) :
      Upholds dutySem (Strides origin) (fun w => hasEn w.machine.regs.ctl = false) program
        fun _ w => hasEn w.machine.regs.ctl = false := by
    refine Upholds.uses uses ?_ stable_disabled off
    intro op w reply w' stays step disabled
    obtain ⟨⟨_, m⟩, performed, equal⟩ := Option.map_eq_some_iff.mp step
    cases equal
    exact disabled_step stays performed disabled
  apply (upholds_strides_through ((uses_perform _).mpr (leaves_compv_folding.readl .ctl))).bind
  intro (ctrl : BitVec 32)
  apply Upholds.via fun _ w => hasEn w.machine.regs.ctl = false
  · apply Upholds.call stable_strides (fun _ => stable_disabled) (fun _ strides => strides)
      fun _ => off
    intro w reply w' strides step
    cases step
    change hasEn (ctlWithout ctrl ctlEn) = false
    simp
  intro _
  apply (through (hw_flop_fold_uses stays_ceased_halting.toFolding)).bind
  intro _
  apply (through (write_compv_uses 0 stays_ceased_halting.data)).bind
  intro _
  apply (through (write_piv_uses 0 stays_ceased_halting.data)).bind
  intro _
  apply (through ((uses_perform _).mpr (stays_ceased_halting.disable _ (by simp)))).bind
  intro _
  exact (through ((uses_perform _).mpr trivial)).conseq (fun _ disabled => disabled)
    fun _ => off

theorem upholds_strides_visit :
    Upholds dutySem (Strides origin) (Strides origin) hwDutyService
      (dutyWorker.Owes (Strides origin)) := by
  have ends (w : DutyWatch) (strides : Strides origin w) :
      dutyWorker.Owes (Strides origin) () w := by
    rintro w' rfl
    exact strides
  have wake (time : Int) : Uses LeavesCompv (outputWakeAt time) :=
    Uses.seq ((uses_perform _).mpr trivial) fun _ => (uses_perform _).mpr trivial
  refine Upholds.conseq ?_ (fun _ strides => strides) fun _ => ends
  apply (upholds_strides_through (hw_flop_fold_uses leaves_compv_folding)).bind
  intro _
  apply (upholds_strides_through ((uses_perform _).mpr leaves_compv_folding.load)).bind
  intro block
  apply (upholds_strides_through ((uses_perform _).mpr (leaves_compv_folding.sample _ _))).bind
  intro (piv : U64Result)
  apply (upholds_strides_through (refresh_uses leaves_compv_folding.load (fun _ => trivial)
    (fun _ => trivial) (fun _ => trivial) piv)).bind
  intro _
  apply (upholds_strides_through (read_compv_uses leaves_compv_folding.toReading)).bind
  intro compv
  split
  · have marks : LeavesCompv (.mark .giveUp) := trivial
    apply (upholds_strides_through ((uses_perform _).mpr marks)).bind
    intro _
    exact upholds_strides_disable
  apply upholds_strides_through
  refine Uses.seq ((uses_perform _).mpr trivial) fun pending => ?_
  refine Uses.seq ((uses_perform _).mpr trivial) fun now => ?_
  split
  · refine Uses.seq ((uses_perform _).mpr trivial) fun delayReal => ?_
    refine Uses.seq ((uses_perform _).mpr trivial) fun nowReal => ?_
    split <;> exact wake _
  · refine Uses.seq ((uses_perform _).mpr trivial) fun nowReal => ?_
    exact wake _

end strides

section waveform

variable {halves : Halves} {flop : Bool} {start : Nat}

def Halves.period : Halves → Nat := fun halves => halves.highArt + halves.lowArt

def Halves.toRise (halves : Halves) (level : Bool) : Nat := if level then halves.lowArt else 0

theorem wave_rises (close : halves.Close) (flop : Bool) (n : Nat) :
    ((halves.wave start flop n).map Interval.cycles).sum + halves.toRise (flop ^^ n.bodd) =
      halves.toRise flop + (halves.wave start flop n).countP Interval.rise * halves.period := by
  induction n with
  | zero => simp [Halves.wave]
  | succ n ih =>
      rw [Halves.wave_succ, List.map_append, List.sum_append, List.countP_append]
      have pace : halves.paced start (rises flop n) = halves.after (rises flop n) := if_pos close
      rw [pace]
      unfold rises at *
      rw [Nat.bodd_succ]
      unfold Halves.toRise Halves.period Halves.after at *
      cases level : flop ^^ n.bodd with
      | false =>
          have next : (flop ^^ !n.bodd) = true := by
            rw [Bool.xor_not, level]
            rfl
          rw [level] at ih
          simp [next] at ih ⊢
          linarith
      | true =>
          have next : (flop ^^ !n.bodd) = false := by
            rw [Bool.xor_not, level]
            rfl
          rw [level] at ih
          simp [next] at ih ⊢
          linarith

end waveform

/-! ## The arm -/

section arming

variable {halves : Halves} {block : MmioBlock} {regs : Regs} {flop : Bool} {params : Params}
  {clocks : Clocks} {firstEdgeNs : Int} {first : Nat}

theorem late_arm_guard_whole {nowArt margin : U64Result} {slot period picked : Nat}
    (guarded : lateArmGuard nowArt margin slot period = .ok picked) :
    ∃ pushed, picked = slot + pushed * period ∧
      ((∀ now ahead, nowArt = .ok now → margin = .ok ahead → now + ahead ≤ slot) →
        pushed = 0) := by
  unfold lateArmGuard at guarded
  split at guarded
  next now ahead =>
    split at guarded
    next fits =>
      dsimp only at guarded
      split at guarded
      next late =>
        split at guarded
        · contradiction
        · cases guarded
          refine ⟨_, rfl, fun early => ?_⟩
          have inTime := early now ahead rfl rfl
          omega
      next early =>
        cases guarded
        exact ⟨0, by simp, fun _ => rfl⟩
    next wraps =>
      cases guarded
      exact ⟨0, by simp, fun _ => rfl⟩
  next unread =>
    cases guarded
    exact ⟨0, by simp, fun _ => rfl⟩

/-- The rise after a slot is the requested one, or where there is no room for a
fall before it the one after. -/
theorem select_slot_rise (short : halves.highArt < 2 ^ 32 ∧ halves.lowArt < 2 ^ 32) :
    ∃ skipped, selectSlot flop first halves.highArt halves.lowArt + halves.toRise flop =
        first + skipped * halves.period ∧ (halves.lowArt < first → skipped = 0) := by
  unfold selectSlot Halves.toRise Halves.period
  cases flop with
  | false => exact ⟨0, by simp, fun _ => rfl⟩
  | true =>
      rw [if_pos rfl, if_pos rfl]
      by_cases room : first > halves.lowArt
      · rw [if_pos room]
        exact ⟨0, by omega, fun _ => rfl⟩
      · rw [if_neg room, u64, Nat.mod_eq_of_lt (by omega)]
        exact ⟨1, by omega, fun fits => absurd fits room⟩

/-- An arm by a mirror that is right: a duty output, its compare where the guard
has put it. -/
structure DutyArmed (halves : Halves) (params : Params) (clocks : Clocks) (flop : Bool)
    (first : Nat) (m : Machine) : Prop where
  armed : ArmedDuty halves ⟨m, true, false, []⟩
  guarded : lateArmGuard (readNow params clocks) (readMargin params clocks)
    (selectSlot flop first halves.highArt halves.lowArt) halves.period = .ok m.regs.compv.toNat
  level : m.flop = flop
  params : m.params = params
  clocks : m.clocks = clocks

theorem achieves_arm_duty (counted : halves.Counted params clocks)
    (differ : halves.highNs ≠ halves.lowNs)
    (short : halves.highArt < 2 ^ 32 ∧ halves.lowArt < 2 ^ 32)
    (mirror : (folded regs.compv.toNat block).outputHwFlopHigh = flop)
    (converted : clockNsToCompareArt params clocks firstEdgeNs = .ok first) :
    Achieves Machine.perform (Standing block regs flop params clocks)
      (armHardwarePeriodic firstEdgeNs halves.highNs halves.lowNs)
      fun status m => status = .ok () → DutyArmed halves params clocks flop first m := by
  have picked : armIntervals (.ok first) (.ok halves.highArt) (.ok halves.lowArt) =
      .ok (first, halves.highArt, halves.lowArt) := by
    have high := counted.positive true
    have low := counted.positive false
    unfold armIntervals Halves.after at *
    dsimp only
    rw [if_neg]
    unfold u64Max
    simp at high low
    omega
  have bound := clock_ns_to_compare_art_lt converted
  rw [← waiting_still]
  refine Achieves.bind_known (achieves_sample _) ?_
  refine Achieves.bind_known (achieves_sample _) ?_
  refine Achieves.bind_known (achieves_sample _) ?_
  rw [converted, counted.high, counted.low, picked]
  refine Achieves.bind_known achieves_stop_for_rearm ?_
  refine Achieves.bind (achieves_mark .slot) fun _ => ?_
  refine Achieves.bind_known achieves_load ?_
  refine Achieves.bind_known (achieves_sample _) ?_
  refine Achieves.bind_known (achieves_sample _) ?_
  rw [mirror]
  cases guarded : lateArmGuard (readNow params clocks) (readMargin params clocks)
      (selectSlot flop first halves.highArt halves.lowArt) halves.period with
  | error status =>
      unfold readNow readMargin Halves.period at guarded
      rw [guarded]
      exact Achieves.pure fun _ _ => nofun
  | ok slot =>
      have isSlot := guarded
      unfold readNow readMargin Halves.period at guarded
      rw [guarded]
      have fits : slot < 2 ^ 64 := by
        have most := late_arm_guard_le guarded (select_slot_le (by unfold u64Max; omega))
        unfold u64Max at most
        omega
      have starts := @start_arms_duty halves (folded regs.compv.toNat block)
        (clearedRegs (rearmCtl regs.ctl)) flop params clocks firstEdgeNs (rearmCtl regs.ctl) slot
        counted differ mirror fits
      rw [← waiting_still] at starts
      have first_ : (if flop = true then halves.lowArt else halves.highArt) =
          halves.after !flop := by cases flop <;> rfl
      rw [first_]
      refine Achieves.bind starts fun _ => ?_
      refine Achieves.pure fun m reached _ => ?_
      obtain ⟨armed, compv, level, isParams, isClocks⟩ := reached
      exact ⟨armed, compv ▸ isSlot, level, isParams, isClocks⟩

def ArmedInTime (halves : Halves) (params : Params) (clocks : Clocks) (flop : Bool) (first : Nat) :
    Prop :=
  halves.lowArt < first ∧ ∀ now ahead, readNow params clocks = .ok now →
    readMargin params clocks = .ok ahead →
    now + ahead ≤ selectSlot flop first halves.highArt halves.lowArt

/-- The first rise of an armed duty output is the requested one, or whole
periods after it. -/
theorem DutyArmed.rise {m : Machine} (armed : DutyArmed halves params clocks flop first m)
    (short : halves.highArt < 2 ^ 32 ∧ halves.lowArt < 2 ^ 32) :
    ∃ pushed, m.regs.compv.toNat + halves.toRise flop = first + pushed * halves.period ∧
      (ArmedInTime halves params clocks flop first → pushed = 0) := by
  obtain ⟨pushed, isPicked, early⟩ := late_arm_guard_whole armed.guarded
  obtain ⟨skipped, isRise, room⟩ := @select_slot_rise halves flop first short
  refine ⟨skipped + pushed, ?_, fun inTime => ?_⟩
  · rw [isPicked, Nat.add_mul]
    omega
  · rw [room inTime.1, early inTime.2]

end arming

/-! ## Rounding, period after period -/

section drift

variable {phc : PhcParams} {halves : Halves}

/-- What the counts of a period are longer than the period asked for, a
nanosecond being the base rate. -/
def Halves.slip (halves : Halves) (phc : PhcParams) : Int :=
  halves.period * (nsecPerSec + scaledPpmToPpb phc.scaledPpm) -
    (halves.highNs + halves.lowNs : Nat) * phc.baseArtHz

theorem cycles_time_bounds (cycles : Nat)
    (modest : Modest phc.baseArtHz (scaledPpmToPpb phc.scaledPpm)) :
    let time := cyclesTime phc.baseArtHz (scaledPpmToPpb phc.scaledPpm) cycles
    time * phc.baseArtHz ≤
        cycles * ((nsecPerSec : Int) + scaledPpmToPpb phc.scaledPpm) + phc.baseArtHz ∧
      cycles * ((nsecPerSec : Int) + scaledPpmToPpb phc.scaledPpm) ≤
        time * phc.baseArtHz + 3 * phc.baseArtHz := by
  have short := down_le cycles nsecPerSec modest.positive
  have long := lt_down cycles nsecPerSec modest.positive
  obtain ⟨adjustedUp, adjustedDown⟩ :=
    adjusted_bounds (down cycles phc.baseArtHz nsecPerSec) modest
  have slow := modest.slow
  have fast := modest.fast
  unfold cyclesTime
  generalize down cycles phc.baseArtHz nsecPerSec = base at *
  generalize adjustedNs (scaledPpmToPpb phc.scaledPpm) base = adjusted at *
  have positive : 0 < (nsecPerSec : Int) + scaledPpmToPpb phc.scaledPpm := by
    unfold nsecPerSec phcMaxAdjPpb at *
    omega
  zify at short long adjustedUp adjustedDown
  rw [Int.toNat_of_nonneg positive.le] at adjustedUp adjustedDown
  unfold nsecPerSec phcMaxAdjPpb at *
  intro time
  have rate : (1000000000 : Int) + scaledPpmToPpb phc.scaledPpm ≤ 1100000000 := by omega
  push_cast at *
  generalize (1000000000 : Int) + scaledPpmToPpb phc.scaledPpm = scale at *
  have hz : (0 : Int) ≤ phc.baseArtHz := Int.natCast_nonneg _
  constructor
  · have first := mul_le_mul_of_nonneg_right short positive.le
    have second := mul_le_mul_of_nonneg_right adjustedUp.le hz
    linarith
  · have first := mul_le_mul_of_nonneg_right long.le positive.le
    have second := mul_le_mul_of_nonneg_right adjustedDown.le hz
    have third := mul_le_mul_of_nonneg_left rate hz
    linarith

/-- So many periods after a rise that came within 18 ns of its time, what is off
has grown by so many slips, up to six nanoseconds of rounding. -/
theorem slips_add_up {art : Nat} {ns : Int} (count : Nat)
    (modest : Modest phc.baseArtHz (scaledPpmToPpb phc.scaledPpm))
    (near : |phcTime phc art - ns| ≤ 18) :
    |(phcTime phc (art + count * halves.period) -
        (ns + count * (halves.highNs + halves.lowNs : Nat))) * phc.baseArtHz -
      count * halves.slip phc| ≤ 24 * phc.baseArtHz := by
  have order : art ≤ art + count * halves.period := Nat.le_add_right _ _
  obtain ⟨spanUp, spanDown⟩ := phc_time_span modest order
  obtain ⟨timeUp, timeDown⟩ := @cycles_time_bounds phc (count * halves.period) modest
  rw [Nat.add_sub_cancel_left] at spanUp spanDown
  obtain ⟨nearDown, nearUp⟩ := abs_le.mp near
  have hz : (0 : Int) ≤ phc.baseArtHz := Int.natCast_nonneg _
  have first := mul_le_mul_of_nonneg_right spanUp hz
  have second := mul_le_mul_of_nonneg_right spanDown hz
  have third := mul_le_mul_of_nonneg_right nearUp hz
  have fourth := mul_le_mul_of_nonneg_right nearDown hz
  unfold Halves.slip
  push_cast at *
  rw [abs_le]
  constructor <;> linarith

end drift

/-! ## Every rise -/

section rises

variable {halves : Halves} {firstEdgeNs : Int} {first : Nat} {before after : Machine}

theorem Halves.close_of_short (short : halves.highArt < 2 ^ 32 ∧ halves.lowArt < 2 ^ 32) :
    halves.Close := by
  have zero (value : Nat) (bound : value < 2 ^ 32) : upper32Bits value = 0 := by
    apply BitVec.eq_of_toNat_eq
    simp [upper32Bits, upperWord, Nat.shiftRight_eq_div_pow]
    omega
  rw [Halves.Close, zero _ short.1, zero _ short.2]

/-- A request for a duty output from `firstEdgeNs` on, at a clock of 38.4 MHz,
the level mirror right once the edges so far are folded into it. -/
structure DutyStart (halves : Halves) (firstEdgeNs : Int) (first : Nat) (m : Machine) : Prop where
  crystal : Crystal m.clocks.phc
  base : m.clocks.phc.baseArtHz = 38400000
  offset : -(2 ^ 63) < m.clocks.outputPhaseOffsetNs ∧ m.clocks.outputPhaseOffsetNs < 2 ^ 63
  edge : -(2 ^ 63) ≤ firstEdgeNs ∧ firstEdgeNs < 2 ^ 63
  counted : halves.Counted m.params m.clocks
  differ : halves.highNs ≠ halves.lowNs
  short : halves.highArt < 2 ^ 32 ∧ halves.lowArt < 2 ^ 32
  mirror : (folded m.regs.compv.toNat m.block).outputHwFlopHigh = m.flop
  converted : clockNsToCompareArt m.params m.clocks firstEdgeNs = .ok first
  late : artHwDelayCycles < first

theorem DutyStart.arms (start : DutyStart halves firstEdgeNs first before)
    (arm : Executes (alone Machine.perform)
      (armHardwarePeriodic firstEdgeNs halves.highNs halves.lowNs) before (.ok ()) after) :
    DutyArmed halves before.params before.clocks before.flop first after := by
  have arms := @achieves_arm_duty halves before.block before.regs before.flop before.params
    before.clocks firstEdgeNs first start.counted start.differ start.short start.mirror
    start.converted
  exact arms.every ⟨rfl, rfl, rfl, rfl, rfl⟩ arm rfl

/-- While the engine is on, the rise it waits for is so many periods after the
requested one. -/
theorem DutyArmed.pending {params : Params} {clocks : Clocks} {flop : Bool} {pushed : Nat}
    {last : Worker.Config Op Op.Resp DutyWatch}
    (armed : DutyArmed halves params clocks flop first after)
    (short : halves.highArt < 2 ^ 32 ∧ halves.lowArt < 2 ^ 32)
    (rise : after.regs.compv.toNat + halves.toRise flop = first + pushed * halves.period)
    (reaches : dutyWorker.Reaches ⟨⟨after, true, false, []⟩, none⟩ last)
    (on : hasEn last.state.machine.regs.ctl = true) (low : last.state.machine.flop = false)
    (room : first + (pushed + last.state.rises) * halves.period < 2 ^ 64) :
    last.state.machine.regs.compv.toNat =
      first + (pushed + last.state.rises) * halves.period := by
  obtain ⟨n, wave, level⟩ := armed.armed.waved reaches
  have strides : Strides after.regs.compv last.state :=
    Worker.always_reaches (fun w w' => stable_strides w w') (fun _ strides => strides)
      (fun w w' begun strides => by rw [begun.2]; exact strides) upholds_strides_visit reaches
      fun _ => by simp [DutyWatch.elapsed]
  have total := @wave_rises halves after.block.outputHwPiv (Halves.close_of_short short) after.flop
    n
  rw [← wave, ← level, low, armed.level] at total
  change last.state.elapsed + 0 = _ + last.state.rises * _ at total
  have sum : after.regs.compv.toNat + last.state.elapsed =
      first + (pushed + last.state.rises) * halves.period := by
    rw [Nat.add_mul]
    omega
  rw [strides on, BitVec.toNat_add, BitVec.toNat_ofNat, Nat.add_mod_mod, sum,
    Nat.mod_eq_of_lt room]

/-- A rise of a duty output is within an ART cycle and 4 ns of its place on the
grid while the slips of the periods until then come to no more than 6 ns, and is
not once they come to 55 ns. Counts that make up the period exactly never leave
the grid. -/
theorem duty_rises_drift (start : DutyStart halves firstEdgeNs first before)
    (arm : Executes (alone Machine.perform)
      (armHardwarePeriodic firstEdgeNs halves.highNs halves.lowNs) before (.ok ()) after) :
    ∃ pushed, after.regs.compv.toNat + halves.toRise before.flop =
        first + pushed * halves.period ∧
      (ArmedInTime halves before.params before.clocks before.flop first → pushed = 0) ∧
      ∀ last place, dutyWorker.Reaches ⟨⟨after, true, false, []⟩, none⟩ last →
        hasEn last.state.machine.regs.ctl = true → last.state.machine.flop = false →
        first + (pushed + last.state.rises) * halves.period < 2 ^ 64 →
        edgePlace before.params before.clocks last.state.machine.regs.compv.toNat = .ok place →
        let n := pushed + last.state.rises
        let error := place - (firstEdgeNs + n * (halves.highNs + halves.lowNs : Nat))
        (n * |halves.slip before.clocks.phc| ≤ 6 * 38400000 →
          |error| * 38400000 ≤ nsecPerSec + 4 * 38400000) ∧
        (55 * 38400000 ≤ n * |halves.slip before.clocks.phc| →
          nsecPerSec + 4 * 38400000 < |error| * 38400000) := by
  have armed := start.arms arm
  obtain ⟨pushed, rise, inTime⟩ := armed.rise start.short
  refine ⟨pushed, rise, inTime, ?_⟩
  intro last place reaches on low room placed n error
  have compv := armed.pending start.short rise reaches on low room
  rw [compv] at placed
  have model := start.counted.model
  have modest := start.crystal.modest
  -- where the requested edge itself comes back
  obtain ⟨shifted, art, shifts, counts, isFirst⟩ := compare_parts model start.converted
  obtain ⟨physical, reads, added⟩ := place_parts model placed
  obtain ⟨isShifted, within⟩ := add_s64_eq shifts
  obtain ⟨isPlace, -⟩ := add_s64_eq added
  have offset := start.offset
  rw [to_s64_of_range (by omega) (by omega)] at isPlace
  have past : art > artHwDelayCycles := by
    have late := start.late
    rw [isFirst] at late
    split at late <;> omega
  rw [if_pos past] at isFirst
  have back := phc_time_read_back modest start.crystal.anchor before.clocks.anchorInRange
    (within start.edge.1 start.edge.2) counts
  have half : ⌈halfCycleNs before.clocks.phc.baseArtHz
      (scaledPpmToPpb before.clocks.phc.scaledPpm)⌉ ≤ 15 := by
    have fast : scaledPpmToPpb before.clocks.phc.scaledPpm ≤ 100000000 :=
      start.crystal.adjustment.2
    rw [Int.ceil_le, halfCycleNs, start.base]
    have adjusted : (scaledPpmToPpb before.clocks.phc.scaledPpm : ℚ) ≤ 100000000 := by
      exact_mod_cast fast
    rw [div_le_iff₀ (by norm_num)]
    push_cast
    linarith
  have drifted := @slips_add_up _ halves _ _ n modest (back.trans (by omega))
  have place_ : first + n * halves.period + artHwDelayCycles = art + n * halves.period := by omega
  have time := (phc_art_to_ns_eq modest reads).1
  rw [place_] at time
  have same : error = phcTime before.clocks.phc (art + n * halves.period) -
      (shifted + n * (halves.highNs + halves.lowNs : Nat)) := by omega
  rw [← same, start.base, Nat.cast_ofNat] at drifted
  have sized : |error * 38400000| = |error| * 38400000 := abs_mul _ _
  have slipped : |n * halves.slip before.clocks.phc| = n * |halves.slip before.clocks.phc| := by
    rw [abs_mul, Nat.abs_cast]
  have above := abs_sub_abs_le_abs_sub (error * 38400000) (n * halves.slip before.clocks.phc)
  have below := abs_sub_abs_le_abs_sub (n * halves.slip before.clocks.phc) (error * 38400000)
  rw [abs_sub_comm (n * halves.slip before.clocks.phc)] at below
  rw [sized, slipped] at above below
  have second : (nsecPerSec : Int) = 1000000000 := rfl
  constructor
  · intro little
    linarith
  · intro much
    linarith

end rises

section oneRun

def beforeDuty : Machine := .zeroed defaultParams slowClocks ⟨0, 0, 0⟩ false

/-- So many rises and falls of an output armed for three seconds, a visit after
each. -/
def dutyPeriods (halves : Halves) (periods : Nat) : DutyWatch :=
  dutyTracer.after 100 (armedDuty halves.highNs halves.lowNs)
    (List.replicate (2 * periods) [.act (), .run]).flatten

def uneven : Halves := ⟨50000013, 60000013, 1920000, 2304000⟩

theorem starts_at_three_seconds {halves : Halves} (counted : halves.Counted defaultParams slowClocks)
    (differ : halves.highNs ≠ halves.lowNs)
    (short : halves.highArt < 2 ^ 32 ∧ halves.lowArt < 2 ^ 32) :
    DutyStart halves 3000000000 115199998 beforeDuty where
  crystal := ⟨by decide, by decide, by decide⟩
  base := rfl
  offset := by decide
  edge := by decide
  counted := counted
  differ := differ
  short := short
  mirror := rfl
  converted := by decide +kernel
  late := by decide

theorem arms_at_three_seconds (highNs lowNs : Nat)
    (ends : (exec Machine.perform 200 [] (armHardwarePeriodic 3000000000 highNs lowNs)
      beforeDuty).map Prod.fst = some (.ok ())) :
    Executes (alone Machine.perform) (armHardwarePeriodic 3000000000 highNs lowNs) beforeDuty
      (.ok ()) (armedDuty highNs lowNs).machine := by
  unfold armedDuty
  dsimp only
  exact exec_final (fun _ _ _ _ step => step) 200 [] (by simp) _ _ _ ends

theorem duty_rises_drift_short :
    ∃ place, edgePlace defaultParams slowClocks (dutyPeriods shortLow 1).machine.regs.compv.toNat =
        .ok place ∧
      |place - (3000000000 + 150000000)| * 38400000 ≤ nsecPerSec + 4 * 38400000 := by
  have start : DutyStart shortLow 3000000000 115199998 beforeDuty :=
    starts_at_three_seconds (by constructor <;> decide +kernel) (by decide) (by decide)
  have arm := arms_at_three_seconds 50000000 100000000 (by decide +kernel)
  obtain ⟨pushed, rise, -, within⟩ := duty_rises_drift start arm
  have compv : (armedDuty 50000000 100000000).machine.regs.compv.toNat = 115199998 := by
    decide +kernel
  change _ + 0 = 115199998 + pushed * 5760000 at rise
  obtain rfl : pushed = 0 := by omega
  have reaches : dutyWorker.Reaches ⟨armedDuty 50000000 100000000, none⟩
      ⟨dutyPeriods shortLow 1, none⟩ := dutyTracer.after_reaches 100 _ _ (by decide +kernel)
  have rises : (dutyPeriods shortLow 1).rises = 1 := by decide +kernel
  have placed : edgePlace defaultParams slowClocks
      (dutyPeriods shortLow 1).machine.regs.compv.toNat = .ok 3150000000 := by decide +kernel
  have near := within ⟨dutyPeriods shortLow 1, none⟩ 3150000000 reaches (by decide +kernel)
    (by decide +kernel) (by rw [rises]; decide) placed
  rw [rises] at near
  exact ⟨3150000000, placed, near.1 (by decide)⟩

/-- Three periods of halves that are short by 13 ns: the fourth rise comes 78 ns
early. -/
theorem uneven_drifts :
    (outputTimesGet 110000026 50000013 true = .ok ⟨110000026, 50000013, 60000013⟩ ∧
      outputModeOf defaultParams ⟨110000026, 50000013, 60000013⟩ = .hardware) ∧
    DutyStart uneven 3000000000 115199998 beforeDuty ∧
    Executes (alone Machine.perform) (armHardwarePeriodic 3000000000 50000013 60000013)
      beforeDuty (.ok ()) (armedDuty 50000013 60000013).machine ∧
    (armedDuty 50000013 60000013).machine.regs.compv.toNat = 115199998 ∧
    dutyWorker.Reaches ⟨armedDuty 50000013 60000013, none⟩ ⟨dutyPeriods uneven 3, none⟩ ∧
    (dutyPeriods uneven 3).rises = 3 ∧ (dutyPeriods uneven 3).machine.flop = false ∧
    edgePlace defaultParams slowClocks (dutyPeriods uneven 3).machine.regs.compv.toNat =
      .ok 3330000000 ∧
    ¬|(3330000000 : Int) - (3000000000 + 3 * 110000026)| * 38400000 ≤
      nsecPerSec + 4 * 38400000 := by
  refine ⟨⟨by decide, by decide⟩, starts_at_three_seconds (by constructor <;> decide +kernel)
    (by decide) (by decide), arms_at_three_seconds 50000013 60000013 (by decide +kernel),
    by decide +kernel, dutyTracer.after_reaches 100 _ _ (by decide +kernel), by decide +kernel,
    by decide +kernel, by decide +kernel, by decide⟩

end oneRun

end Tgpio

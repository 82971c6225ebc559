import Tgpio.EdgeAlignment
import Tgpio.PhaseSlots
import Tgpio.RequestTimes

/-!
# An output through its ticks

Between two live readings the pending edge strays from its point: with every edge
by the rounding of the interval, and with what `CLOCK_REALTIME` itself does to
ART. `Followed` adds that up. What is left is the moment at which the clock is
set: if the edge is not close to a point for the other kind then, the ticks that
follow keep it on the grid of its own kind.
-/

namespace Tgpio

open Interference Interference.Prog Scaling

set_option autoImplicit false

/-! ## What happens to an output between and at its ticks -/

/-- An output, the interval last counted for it, and by how much its pending edge
has strayed since it was last read, armed or found near its point. -/
structure Followed where
  machine : Machine
  cycles : Nat
  strayed : ℚ

section moves

variable (desired : OutputDesired)

/-- What an interval of `cycles` is longer than the high time. -/
def paceError (clocks : Clocks) (cycles : Nat) : ℚ :=
  cycles * cycleNs clocks - desired.highTimeNs

/-- The interval that the high time now counts for. -/
def countedHigh (params : Params) (clocks : Clocks) : U64Result :=
  clockDeltaToArtCycles params clocks (toS64 desired.highTimeNs)

/-- By how many intervals an arm moves an edge that is due at `first`, at most. -/
def armPushes (params : Params) (clocks : Clocks) (first cycles : Nat) : Nat :=
  match clockDeltaToArtCycles params clocks (2 * nsecPerMsec : Nat) with
  | .ok margin => (artNow clocks + margin - first) / cycles + 2
  | .error _ => 2

/-- What an arm for an edge loses: on the way to the first compare value, and with
every interval it is moved by. -/
def armLoss (params : Params) (clocks : Clocks) (edge : Int) : ℚ :=
  match clockNsToCompareArt params clocks edge, countedHigh desired params clocks with
  | .ok first, .ok cycles =>
      countBlur clocks (edge + clocks.outputPhaseOffsetNs - clocks.real).natAbs +
        artHwDelayCycles * cycleNs clocks +
          armPushes params clocks first cycles * |paceError desired clocks cycles|
  | _, _ => 0

namespace Followed

variable (s : Followed)

def edge : Followed :=
  ⟨s.machine.periodicEdge, s.cycles, s.strayed + paceError desired s.machine.clocks s.cycles⟩

def pass (clocks : Clocks) : Followed where
  machine := { s.machine with clocks }
  cycles := s.cycles
  strayed := s.strayed + if s.machine.freeRunning then
    exactPlace clocks s.machine.regs.compv.toNat -
      exactPlace s.machine.clocks s.machine.regs.compv.toNat else 0

/-- `CLOCK_REALTIME` is set. -/
def step (real : Int) : Followed :=
  ⟨{ s.machine with clocks := { s.machine.clocks with real } }, s.cycles, 0⟩

def arm (t : Machine) : Followed where
  machine := t
  cycles := match countedHigh desired s.machine.params s.machine.clocks with
    | .ok cycles => cycles
    | .error _ => s.cycles
  strayed := 0

/-- A tick has run: the interval is counted again, and after a live reading
nothing has strayed. -/
def tick (t : Machine) : Followed where
  machine := t
  cycles := recounted (countedHigh desired s.machine.params s.machine.clocks) s.cycles
  strayed := match gridPhase s.machine.params s.machine.clocks desired.firstEdgeNs
      desired.highTimeNs s.machine.regs.compv.toNat with
    | .ok _ => 0
    | .error _ => s.strayed

/-- The clocks are fit for the conversions, and the edge has not strayed too far. -/
structure Within (allowance : Allowance desired) : Prop where
  wide : Wide desired allowance.blur s.machine.params s.machine.clocks
  strayed : |s.strayed| ≤ allowance.reserve

end Followed

/-- What happens to an output: a refine tick, a generated edge, an arm after a
tick has sent the block back, with roundings inside the margins, clocks that run,
and `CLOCK_REALTIME` being set as far as it is allowed. What edges and clocks add
up to between two live readings stays within the reserve. -/
inductive Happens (allowance : Allowance desired) (allowed : Machine → Prop) :
    Followed → Followed → Prop where
  | tick {s : Followed} {t : Machine} : s.machine.freeRunning = true →
      Executes tickSem (hwPeriodicApplyFreq desired) s.machine () t →
      Happens allowance allowed s (s.tick desired t)
  | edge {s : Followed} : s.machine.freeRunning = true →
      s.machine.regs.compv.toNat + s.machine.regs.piv.toNat < 2 ^ 64 →
      |(s.edge desired).strayed| ≤ allowance.reserve →
      Happens allowance allowed s (s.edge desired)
  | arm {s : Followed} {t : Machine} : s.machine.block.outputPhase = .armPeriodic →
      armLoss desired s.machine.params s.machine.clocks s.machine.block.outputNextEdge <
        allowance.limit →
      Executes tickSem (armHardwarePeriodic s.machine.block.outputNextEdge
        s.machine.block.outputHighTimeNs s.machine.block.outputLowTimeNs) s.machine (.ok ()) t →
      Happens allowance allowed s (s.arm desired t)
  | pass {s : Followed} (clocks : Clocks) : (s.pass clocks).Within desired allowance →
      Happens allowance allowed s (s.pass clocks)
  | step {s : Followed} (real : Int) : allowed (s.step real).machine →
      Wide desired allowance.blur s.machine.params (s.step real).machine.clocks →
      Happens allowance allowed s (s.step real)

/-- `CLOCK_REALTIME` has been set, and the pending edge is not close to a point
for the other kind. -/
def Harmless (allowance : Allowance desired) (m : Machine) : Prop :=
  m.freeRunning = true → NearOwn desired allowance.limit 0 m

def Runs (allowance : Allowance desired) (allowed : Machine → Prop) : Followed → Followed → Prop :=
  Relation.ReflTransGen (Happens desired allowance allowed)

end moves

/-! ## The invariant -/

section invariant

variable (desired : OutputDesired)

structure RunningOn (allowance : Allowance desired) (s : Followed) : Prop where
  high : s.machine.block.outputHighTimeNs = desired.highTimeNs
  count : s.machine.block.outputHwPiv = s.cycles
  near : NearOwn desired allowance.limit s.strayed s.machine

structure AwaitsArm (m : Machine) : Prop where
  high : m.block.outputHighTimeNs = desired.highTimeNs
  low : m.block.outputLowTimeNs = desired.highTimeNs
  edge : ∃ index : Int, m.block.outputNextEdge = desired.slot (2 * index)
  inside : 0 ≤ m.block.outputNextEdge ∧ m.block.outputNextEdge ≤ s64Max

/-- An output that is followed, with a correct mirror. -/
structure OnTrack (allowance : Allowance desired) (s : Followed) : Prop where
  margins : s.Within desired allowance
  mirror : Level false s.machine.block s.machine.regs s.machine.flop
  running : s.machine.freeRunning = true → RunningOn desired allowance s
  waiting : s.machine.block.outputPhase = .armPeriodic → AwaitsArm desired s.machine

end invariant

/-! ## What one step preserves -/

section steps

variable {desired : OutputDesired} {allowance : Allowance desired} {s : Followed}

theorem Level.of_running {block : MmioBlock} {regs : Regs} {flop : Bool}
    (level : Level false block regs flop) (running : regs.running = true) :
    Tracked false block regs flop := by
  cases level with
  | tracked tracked => exact tracked
  | settled settled =>
      rw [settled.stopped] at running
      contradiction

theorem tracked_at {block : MmioBlock} {regs : Regs} {flop : Bool}
    (phase : block.outputPhase = .hardwarePeriodic) (positive : block.outputHwPiv ≠ 0)
    (piv : regs.piv.toNat = block.outputHwPiv) (ckpt : block.outputHwCkptCompv = regs.compv.toNat)
    (level : flop = block.outputHwFlopHigh) : Tracked false block regs flop where
  phase := phase
  positive := positive
  piv := piv
  ahead := ckpt.le
  level := by
    rw [ckpt, level]
    simp

theorem Followed.tick_read {t : Machine} {phase : HwPhase}
    (measured : gridPhase s.machine.params s.machine.clocks desired.firstEdgeNs desired.highTimeNs
      s.machine.regs.compv.toNat = .ok phase) : (s.tick desired t).strayed = 0 := by
  unfold Followed.tick
  rw [measured]

theorem Followed.pass_still {clocks : Clocks}
    (same : exactPlace clocks s.machine.regs.compv.toNat =
      exactPlace s.machine.clocks s.machine.regs.compv.toNat) :
    (s.pass clocks).strayed = s.strayed := by
  unfold Followed.pass
  rw [same, sub_self, ite_self, add_zero]

theorem Followed.Within.kept {t : Followed} (within : s.Within desired allowance)
    (same : t.machine.params = s.machine.params ∧ t.machine.clocks = s.machine.clocks)
    (strayed : t.strayed = 0 ∨ t.strayed = s.strayed) : t.Within desired allowance where
  wide := by
    rw [same.1, same.2]
    exact within.wide
  strayed := by
    rcases strayed with none_ | still
    · rw [none_, abs_zero]
      exact (abs_nonneg _).trans within.strayed
    · rw [still]
      exact within.strayed

theorem OnTrack.tracked (track : OnTrack desired allowance s)
    (running : s.machine.freeRunning = true) :
    Tracked false s.machine.block s.machine.regs s.machine.flop :=
  track.mirror.of_running running

/-- A running output is in the periodic phase, and waits for no arm. -/
theorem OnTrack.unarmed (track : OnTrack desired allowance s)
    (running : s.machine.freeRunning = true) : s.machine.block.outputPhase ≠ .armPeriodic := by
  rw [(track.tracked running).phase]
  nofun

/-- The next edge is due at the next point, but for the rounding of the interval. -/
theorem NearOwn.edge {m : Machine} {distance strayed : ℚ} {cycles : Nat}
    (fits : m.regs.compv.toNat + m.regs.piv.toNat < 2 ^ 64) (paces : m.regs.piv.toNat = cycles)
    (near : NearOwn desired distance strayed m) :
    NearOwn desired distance (strayed + paceError desired m.clocks cycles) m.periodicEdge := by
  obtain ⟨index, own, close⟩ := near
  have moved : m.periodicEdge.regs.compv.toNat = m.regs.compv.toNat + cycles := by
    change (m.regs.compv + m.regs.piv).toNat = _
    rw [BitVec.toNat_add, Nat.mod_eq_of_lt fits, paces]
  refine ⟨index + 1, ?_, ?_⟩
  · change (index + 1) % 2 = if !m.flop then 1 else 0
    unfold OwnSlot at own
    cases level : m.flop
    · simp only [level, Bool.false_eq_true, if_false] at own
      simp only [Bool.not_false, if_true]
      omega
    · simp only [level, if_true] at own
      simp only [Bool.not_true, Bool.false_eq_true, if_false]
      omega
  · have same : exactPlace m.periodicEdge.clocks m.periodicEdge.regs.compv.toNat -
        (strayed + paceError desired m.clocks cycles) - desired.slot (index + 1) =
        exactPlace m.clocks m.regs.compv.toNat - strayed - desired.slot index := by
      rw [moved]
      change exactPlace m.clocks _ - _ - _ = _
      unfold exactPlace paceError OutputDesired.slot
      push_cast
      ring
    rw [same]
    exact close

theorem OnTrack.edge (track : OnTrack desired allowance s) (running : s.machine.freeRunning = true)
    (fits : s.machine.regs.compv.toNat + s.machine.regs.piv.toNat < 2 ^ 64)
    (strayed : |(s.edge desired).strayed| ≤ allowance.reserve) :
    OnTrack desired allowance (s.edge desired) where
  margins := ⟨track.margins.wide, strayed⟩
  mirror := .tracked ((track.tracked running).ran (.edge running fits))
  running _ := by
    obtain ⟨high, count, near⟩ := track.running running
    exact ⟨high, count, near.edge fits ((track.tracked running).piv.trans count)⟩
  waiting armed := absurd armed (track.unarmed running)

theorem OnTrack.pass (track : OnTrack desired allowance s) (clocks : Clocks)
    (within : (s.pass clocks).Within desired allowance) :
    OnTrack desired allowance (s.pass clocks) where
  margins := within
  mirror := track.mirror
  running running := by
    change s.machine.freeRunning = true at running
    obtain ⟨high, count, index, own, close⟩ := track.running running
    refine ⟨high, count, index, own, ?_⟩
    have same : exactPlace (s.pass clocks).machine.clocks s.machine.regs.compv.toNat -
        (s.pass clocks).strayed - desired.slot index =
        exactPlace s.machine.clocks s.machine.regs.compv.toNat - s.strayed - desired.slot index := by
      change exactPlace clocks _ - (s.strayed + if _ then _ else 0) - _ = _
      rw [if_pos running]
      ring
    exact same ▸ close
  waiting armed := by
    obtain ⟨high, low, edge, inside⟩ := track.waiting armed
    exact ⟨high, low, edge, inside⟩

theorem OnTrack.step (track : OnTrack desired allowance s) (real : Int)
    (harmless : Harmless desired allowance (s.step real).machine)
    (wide : Wide desired allowance.blur s.machine.params (s.step real).machine.clocks) :
    OnTrack desired allowance (s.step real) where
  margins := by
    refine ⟨wide, ?_⟩
    change |(0 : ℚ)| ≤ allowance.reserve
    rw [abs_zero]
    exact (abs_nonneg _).trans track.margins.strayed
  mirror := track.mirror
  running running := by
    obtain ⟨high, count, -⟩ := track.running running
    exact ⟨high, count, harmless running⟩
  waiting armed := by
    obtain ⟨high, low, edge, inside⟩ := track.waiting armed
    exact ⟨high, low, edge, inside⟩

theorem OnTrack.standing {block : MmioBlock} {regs : Regs} {flop : Bool} {params : Params}
    {clocks : Clocks} (standing : Standing block regs flop params clocks s.machine)
    (margins : s.Within desired allowance) (tracked : Tracked false block regs flop)
    (high : block.outputHighTimeNs = desired.highTimeNs) (count : block.outputHwPiv = s.cycles)
    {index : Int} (own : OwnSlot flop index)
    (close : |exactPlace clocks regs.compv.toNat - s.strayed - desired.slot index| <
      allowance.limit) : OnTrack desired allowance s := by
  obtain ⟨isBlock, isRegs, isFlop, -, isClocks⟩ := standing
  refine ⟨margins, ?_, fun _ => ⟨?_, ?_, index, ?_, ?_⟩, fun armed => ?_⟩
  · rw [isBlock, isRegs, isFlop]
    exact .tracked tracked
  · rw [isBlock, high]
  · rw [isBlock, count]
  · rw [isFlop]
    exact own
  · rw [isClocks, isRegs]
    exact close
  · rw [isBlock, tracked.phase] at armed
    contradiction

theorem prepared_slot {params : Params} {clocks : Clocks} {blur : ℚ} {minIntervalNs : Nat}
    {timing : OutputTiming} (symmetric : Symmetric desired)
    (wide : Wide desired blur params clocks)
    (half : 0 < desired.highTimeNs ∧ desired.highTimeNs ≤ s64Max / 4)
    (start : 0 ≤ desired.firstEdgeNs ∧ desired.firstEdgeNs ≤ s64Max)
    (prepared : preparedTiming params clocks minIntervalNs desired.periodNs desired.mode
      desired.firstEdgeNs = .ok timing) :
    (∃ index : Int, timing.firstEdgeNs = desired.slot (2 * index)) ∧
      0 ≤ timing.firstEdgeNs ∧ timing.firstEdgeNs ≤ s64Max := by
  have room := wide.inRange
  have lead := (arm_lead_bounds desired.mode minIntervalNs).2
  have period := symmetric.period
  unfold preparedTiming at prepared
  split at prepared
  · contradiction
  rename_i first prime delay planned
  split at prepared
  · contradiction
  cases prepared
  obtain ⟨now, read, era, -, rfl, -⟩ := output_timing_plan_eq planned
  have real : now = clocks.real := by
    unfold clockNowNs at read
    rw [wide.realtime] at read
    exact (Except.ok.inj read).symm
  subst real
  generalize armLeadNs desired.mode minIntervalNs = ahead at lead ⊢
  dsimp only
  by_cases fresh : desired.firstEdgeNs ≥ clocks.real + 3 * ahead
  · have same : outputAlignFirstEdge desired.firstEdgeNs (clocks.real + 3 * ahead)
        desired.periodNs = desired.firstEdgeNs := by
      unfold outputAlignFirstEdge
      rw [if_pos fresh]
    rw [same]
    exact ⟨⟨0, by simp [OutputDesired.slot]⟩, start⟩
  · obtain ⟨periods, covered⟩ : ∃ periods, CeilDiv.ceilDiv
      (clocks.real + 3 * ahead - desired.firstEdgeNs).toNat desired.periodNs = periods := ⟨_, rfl⟩
    have reached : periods * desired.periodNs ≤
        (clocks.real + 3 * ahead - desired.firstEdgeNs).toNat + desired.periodNs - 1 := by
      rw [← covered, Nat.ceilDiv_eq_add_pred_div]
      exact Nat.div_mul_le_self _ _
    have aligned := @output_align_first_edge_eq desired.firstEdgeNs (clocks.real + 3 * ahead)
      desired.periodNs start.1 start.2 (by omega) (by omega) (by omega) periods covered
    rw [if_pos (by omega)] at aligned
    rw [aligned]
    refine ⟨⟨periods, ?_⟩, by omega, by omega⟩
    unfold OutputDesired.slot
    rw [period]
    push_cast
    ring

/-- A fold, another interval, and a compare value that the checkpoint follows. -/
theorem Tracked.refresh {block : MmioBlock} {regs : Regs} {flop : Bool} {piv compv : Nat}
    (tracked : Tracked false block regs flop) (positive : piv ≠ 0) (pivFits : piv < 2 ^ 64)
    (compvFits : compv < 2 ^ 64) :
    Tracked false (checkpointed compv (paced piv (folded regs.compv.toNat block)))
      ⟨regs.ctl, BitVec.ofNat 64 compv, BitVec.ofNat 64 piv⟩ flop := by
  obtain ⟨folds, mirrored⟩ := tracked.fold
  apply tracked_at
  · exact folds.phase
  · exact positive
  · rw [BitVec.toNat_ofNat, Nat.mod_eq_of_lt pivFits]
    rfl
  · rw [BitVec.toNat_ofNat, Nat.mod_eq_of_lt compvFits]
    rfl
  · rw [mirrored, Bool.xor_false]
    rfl

theorem Tracked.refresh_still {block : MmioBlock} {regs : Regs} {flop : Bool} {piv : Nat}
    (tracked : Tracked false block regs flop) (positive : piv ≠ 0) (fits : piv < 2 ^ 64) :
    Tracked false (paced piv (folded regs.compv.toNat block))
      { regs with piv := BitVec.ofNat 64 piv } flop := by
  obtain ⟨shape, -⟩ := folded_flop_high tracked.phase tracked.positive tracked.ahead
  have still := tracked.refresh positive fits regs.compv.isLt
  rw [shape] at still ⊢
  rwa [BitVec.ofNat_toNat, BitVec.setWidth_eq] at still

theorem OnTrack.sent_back {block : MmioBlock} {regs : Regs} {flop : Bool} {params : Params}
    {clocks : Clocks} {phase : HwPhase} {place index : Int} (symmetric : Symmetric desired)
    (tracked : Tracked false block regs flop)
    (sent : SentBack desired (folded regs.compv.toNat block).outputHwFlopHigh flop params clocks
      s.machine)
    (wide : Wide desired allowance.blur params clocks)
    (read : Read desired params clocks regs.compv.toNat phase place index)
    (margins : s.Within desired allowance) : OnTrack desired allowance s := by
  obtain ⟨due, off, idle, mirror, level, -, -⟩ := sent
  refine ⟨margins, .settled ⟨off, .inl fun folds => folds.1 idle, ?_⟩, fun on => ?_,
    fun armed => ?_⟩
  · rw [level, mirror]
    exact tracked.fold.2
  · rw [off] at on
    contradiction
  · obtain ⟨isHigh, isLow, timing, isEdge, prepared⟩ := due armed
    have bounds := (wide.edge_place read.placed).2.2
    obtain ⟨slot, inside⟩ := prepared_slot symmetric wide ⟨read.positive, read.small⟩
      ⟨read.start, read.after.trans bounds⟩ prepared
    exact ⟨isHigh, isLow.trans symmetric.halves, isEdge ▸ slot, isEdge ▸ inside⟩

/-- A tick leaves the pending edge at a point for its own kind, or sends the block
back. -/
theorem OnTrack.tick {t : Machine} (symmetric : Symmetric desired)
    (track : OnTrack desired allowance s) (running : s.machine.freeRunning = true)
    (run : Executes tickSem (hwPeriodicApplyFreq desired) s.machine () t) :
    OnTrack desired allowance (s.tick desired t) := by
  have tracked := track.tracked running
  have wide := track.margins.wide
  obtain ⟨high, count, near⟩ := track.running running
  obtain ⟨sameCount, sameHigh, -⟩ :=
    folded_keeps s.machine.regs.compv.toNat s.machine.block
  have register : s.machine.regs.piv = BitVec.ofNat 64
      (folded s.machine.regs.compv.toNat s.machine.block).outputHwPiv := by
    rw [← tracked.fold.1.piv]
    simp
  have working : Working Op.ofWork := of_work_working
  have uses : Uses Op.ofWork (hwPeriodicApplyFreq desired) := hw_periodic_apply_freq_uses
    working.toServicing (fun _ => working.store _) (working.store _)
  obtain ⟨t', left, during⟩ := tick_ends uses
    (achieves_apply_freq symmetric.hardware register) ⟨⟨rfl, rfl, rfl, rfl, rfl⟩, rfl⟩ run
  have leaves := left.before during
  rw [high, sameCount, count] at leaves
  obtain ⟨positive, fits⟩ := recounted_fits (count ▸ tracked.positive)
    (count ▸ tracked.piv ▸ s.machine.regs.piv.isLt)
    fun _ => @clock_delta_to_art_cycles_lt s.machine.params s.machine.clocks
      (toS64 desired.highTimeNs) _
  have same := tick_clocks uses run
  have halves : (folded s.machine.regs.compv.toNat s.machine.block).outputHighTimeNs =
      desired.highTimeNs := sameHigh.trans high
  have unmoved := tracked.refresh_still positive fits
  unfold TickLeaves at leaves
  cases measured : gridPhase s.machine.params s.machine.clocks desired.firstEdgeNs
      desired.highTimeNs s.machine.regs.compv.toNat with
  | error status =>
      have strayed : (s.tick desired t).strayed = s.strayed := by
        unfold Followed.tick
        rw [measured]
      rw [measured] at leaves
      obtain ⟨index, own, close⟩ := near
      refine .standing leaves (track.margins.kept same (.inr strayed)) unmoved halves rfl own ?_
      rw [strayed]
      exact close
  | ok phase =>
      obtain ⟨place, index, read⟩ := grid_phase_read wide measured
      have strayed : (s.tick desired t).strayed = 0 := Followed.tick_read measured
      have margins : (s.tick desired t).Within desired allowance :=
        track.margins.kept same (.inl strayed)
      rw [measured] at leaves
      dsimp only at leaves
      split at leaves
      next far => exact .sent_back symmetric unmoved leaves wide read margins
      next kept =>
        have own := read.own wide track.margins.strayed near kept
        split at leaves
        next none_ =>
          refine .standing leaves margins unmoved halves rfl own ?_
          rw [strayed, sub_zero]
          exact (read.at_point wide kept).trans_lt allowance.half_wide
        next target wants =>
          have aimed := (tick_target_some wants).2
          rw [(read.kept wide kept).2.2] at aimed
          have targetFits := clock_ns_to_compare_art_lt aimed
          have close := wide.compare_near (read.slot_inside wide) read.close aimed
          obtain ⟨phase_, positive_, piv, ahead, level⟩ :=
            tracked.refresh positive fits targetFits
          refine .standing leaves margins ⟨phase_, positive_, piv, ahead, level⟩ halves rfl own ?_
          have half := allowance.half_wide
          have high : (0 : ℚ) ≤ desired.highTimeNs := by positivity
          rw [strayed, sub_zero, BitVec.toNat_ofNat, Nat.mod_eq_of_lt targetFits]
          linarith

theorem late_arm_guard_eq {now slot period picked : Nat} {margin : U64Result}
    (guarded : lateArmGuard (.ok now) margin slot period = .ok picked) :
    picked = slot ∨ ∃ ahead, margin = .ok ahead ∧ slot < now + ahead ∧
      picked = slot + ((now + ahead - slot) / period + 1) * period := by
  unfold lateArmGuard at guarded
  split at guarded
  next isNow =>
    cases isNow
    split at guarded
    · dsimp only at guarded
      split at guarded
      next late =>
        split at guarded
        · contradiction
        · cases guarded
          exact .inr ⟨_, rfl, late, rfl⟩
      next =>
        cases guarded
        exact .inl rfl
    · cases guarded
      exact .inl rfl
  next =>
    cases guarded
    exact .inl rfl

/-- An arm of equal halves picks a compare value at a whole number of intervals
from the one of the first edge: an even one for a low level, an odd one for a high
level. -/
theorem picked_slot {clocks : Clocks} {params : Params} {flopHigh : Bool}
    {first cycles picked : Nat} (positive : cycles ≠ 0) (fits : cycles ≤ u64Max / 4)
    (guarded : lateArmGuard (.ok (artNow clocks))
      (clockDeltaToArtCycles params clocks (2 * nsecPerMsec : Nat))
      (selectSlot flopHigh first cycles cycles) (cycles + cycles) = .ok picked) :
    ∃ n : Int, (picked : Int) = first + n * cycles ∧ OwnSlot flopHigh n ∧
      n.natAbs ≤ armPushes params clocks first cycles := by
  obtain ⟨start, slot, own, near⟩ : ∃ start : Int,
      (selectSlot flopHigh first cycles cycles : Int) = first + start * cycles ∧
        OwnSlot flopHigh start ∧ start.natAbs ≤ 1 := by
    unfold selectSlot OwnSlot
    cases flopHigh
    · exact ⟨0, by simp, rfl, by decide⟩
    · by_cases later : first > cycles
      · refine ⟨-1, ?_, rfl, by decide⟩
        rw [if_pos rfl, if_pos later]
        push_cast [later.le]
        ring
      · refine ⟨1, ?_, rfl, by decide⟩
        rw [if_pos rfl, if_neg later, u64_of_lt (by unfold u64Max at fits; omega)]
        push_cast
        ring
  unfold armPushes
  rcases late_arm_guard_eq guarded with same | ⟨ahead, isAhead, late, pushed⟩
  · refine ⟨start, by rw [same, slot], own, ?_⟩
    split
    · exact near.trans (Nat.le_add_left _ _)
    · omega
  · rw [isAhead]
    dsimp only
    generalize artNow clocks + ahead = deadline at late pushed ⊢
    generalize selectSlot flopHigh first cycles cycles = chosen at slot late pushed
    have whole := Nat.div_mul_le_self (deadline - chosen) (cycles + cycles)
    generalize (deadline - chosen) / (cycles + cycles) = rounds at whole pushed
    refine ⟨start + 2 * (rounds + 1), ?_, ?_, ?_⟩
    · rw [pushed]
      push_cast
      linear_combination slot
    · unfold OwnSlot at own ⊢
      omega
    · -- every round of two intervals but the first lies before the deadline
      have reached : (start + 2 * rounds) * cycles ≤ deadline - first := by
        zify [late.le] at whole
        linarith
      have counted : (start + 2 * rounds).toNat ≤ (deadline - first) / cycles := by
        rw [Nat.le_div_iff_mul_le (Nat.pos_of_ne_zero positive)]
        rcases lt_or_ge (start + 2 * rounds) 0 with none_ | some_
        · rw [Int.toNat_of_nonpos none_.le, Nat.zero_mul]
          exact Nat.zero_le _
        · obtain ⟨count, isCount⟩ := Int.eq_ofNat_of_zero_le some_
          rw [isCount] at reached ⊢
          have product : ((count * cycles : Nat) : Int) ≤ deadline - first := by
            push_cast
            exact reached
          rw [Int.toNat_natCast]
          omega
      generalize (deadline - first) / cycles = intervals at counted ⊢
      omega

/-- An arm that has not been asked for too much starts at a point for the level's
own edge. -/
theorem OnTrack.arm {t : Machine} (track : OnTrack desired allowance s)
    (armed : s.machine.block.outputPhase = .armPeriodic)
    (roomy : armLoss desired s.machine.params s.machine.clocks s.machine.block.outputNextEdge <
      allowance.limit)
    (run : Executes tickSem (armHardwarePeriodic s.machine.block.outputNextEdge
      s.machine.block.outputHighTimeNs s.machine.block.outputLowTimeNs) s.machine (.ok ()) t) :
    OnTrack desired allowance (s.arm desired t) := by
  have wide := track.margins.wide
  obtain ⟨isHigh, isLow, ⟨base, isEdge⟩, inside⟩ := track.waiting armed
  rw [isHigh, isLow] at run
  have arming : Working Op.ofWork := of_work_working
  have uses := arm_hardware_periodic_uses arming.toArming s.machine.block.outputNextEdge
    desired.highTimeNs desired.highTimeNs fun _ _ => arming.store _
  obtain ⟨t', left, during⟩ := tick_ends uses (achieves_arm _ _) ⟨rfl, rfl, rfl, rfl, rfl⟩ run
  have within : (s.arm desired t).Within desired allowance :=
    track.margins.kept (tick_clocks uses run) (.inl rfl)
  obtain ⟨first, cycles, picked, aimed, counted, positive, fits, guarded, standing⟩ := left rfl
  have now : getCurrentArt s.machine.clocks = .ok (artNow s.machine.clocks) := wide.counted
  rw [now] at guarded
  have bound := late_arm_guard_le guarded
    (select_slot_le (by have := clock_ns_to_compare_art_lt aimed; unfold u64Max; omega))
  obtain ⟨n, isPicked, own, pushes⟩ := picked_slot positive fits guarded
  have level := track.mirror.fold.2
  rw [Bool.xor_false] at level
  have count : (s.arm desired t).cycles = cycles := by
    change (match countedHigh desired _ _ with | .ok cycles => cycles | .error _ => s.cycles) = _
    rw [countedHigh, counted]
  have start := standing.before during
  have value : (BitVec.ofNat 64 picked).toNat = picked := by
    rw [BitVec.toNat_ofNat, Nat.mod_eq_of_lt]
    unfold u64Max at bound
    omega
  have ownSlot : OwnSlot s.machine.flop (2 * base + n) := by
    unfold OwnSlot
    rw [level, Int.add_comm, Int.add_mul_emod_self_left]
    exact own
  refine .standing start within (tracked_at ?_ positive ?_ value.symm level) rfl count.symm
    ownSlot ?_
  · simp [Tgpio.armed]
  · rw [BitVec.toNat_ofNat, Nat.mod_eq_of_lt]
    · rfl
    · unfold u64Max at fits
      omega
  · change |exactPlace s.machine.clocks (BitVec.ofNat 64 picked).toNat - 0 - _| < _
    have near := (wide.compare_place inside aimed).1
    have moved : (picked : ℚ) = first + n * cycles := by exact_mod_cast isPicked
    have parts : exactPlace s.machine.clocks picked - desired.slot (2 * base + n) =
        exactPlace s.machine.clocks first - s.machine.block.outputNextEdge +
          n * paceError desired s.machine.clocks cycles := by
      rw [isEdge]
      unfold exactPlace paceError OutputDesired.slot
      rw [moved]
      push_cast
      ring
    have fewer : |(n : ℚ)| ≤ armPushes s.machine.params s.machine.clocks first cycles := by
      rw [← Int.cast_abs, ← Int.natCast_natAbs, Int.cast_natCast]
      exact_mod_cast pushes
    unfold armLoss countedHigh at roomy
    rw [aimed, counted] at roomy
    rw [value, sub_zero, parts]
    refine ((abs_add_le _ _).trans (add_le_add near ?_)).trans_lt roomy
    rw [abs_mul]
    gcongr

end steps

/-! ## What the reserve has to cover -/

section reserve

variable {desired : OutputDesired} {allowance : Allowance desired} {s : Followed}

theorem edges_clocks (count : Nat) :
    ((Followed.edge desired)^[count] s).machine.clocks = s.machine.clocks ∧
      ((Followed.edge desired)^[count] s).cycles = s.cycles := by
  induction count with
  | zero => exact ⟨rfl, rfl⟩
  | succ count ih =>
      rw [Function.iterate_succ_apply']
      exact ih

theorem edges_strayed (count : Nat) :
    ((Followed.edge desired)^[count] s).strayed =
      s.strayed + count * paceError desired s.machine.clocks s.cycles := by
  induction count with
  | zero => simp
  | succ count ih =>
      obtain ⟨clocks, cycles⟩ := @edges_clocks desired s count
      rw [Function.iterate_succ_apply', Followed.edge, ih, clocks, cycles]
      push_cast
      ring

/-- While the rate stays, every edge takes the rounding of one conversion from the
reserve. -/
theorem edges_reserved {count : Nat}
    (wide : Wide desired allowance.blur s.machine.params s.machine.clocks) (fresh : s.strayed = 0)
    (small : desired.highTimeNs ≤ s64Max)
    (counted : countedHigh desired s.machine.params s.machine.clocks = .ok s.cycles)
    (covers : count * countBlur s.machine.clocks desired.highTimeNs ≤ allowance.reserve) :
    |((Followed.edge desired)^[count] s).strayed| ≤ allowance.reserve := by
  have pace : |paceError desired s.machine.clocks s.cycles| ≤
      countBlur s.machine.clocks desired.highTimeNs := wide.count_delta small counted
  rw [edges_strayed, fresh, zero_add, abs_mul, Nat.abs_cast]
  exact (mul_le_mul_of_nonneg_left pace (Nat.cast_nonneg count)).trans covers

end reserve

/-! ## Runs -/

section runs

variable {desired : OutputDesired} {allowance : Allowance desired}

theorem OnTrack.happens {s t : Followed} (symmetric : Symmetric desired)
    (track : OnTrack desired allowance s)
    (happens : Happens desired allowance (Harmless desired allowance) s t) :
    OnTrack desired allowance t := by
  cases happens with
  | tick running run => exact track.tick symmetric running run
  | edge running fits strayed => exact track.edge running fits strayed
  | arm armed roomy run => exact track.arm armed roomy run
  | pass clocks within => exact track.pass clocks within
  | step real harmless wide => exact track.step real harmless wide

theorem OnTrack.runs {first last : Followed} (symmetric : Symmetric desired)
    (track : OnTrack desired allowance first)
    (runs : Runs desired allowance (Harmless desired allowance) first last) :
    OnTrack desired allowance last := by
  induction runs with
  | refl => exact track
  | tail _ move track => exact track.happens symmetric move

instance decidableOwnSlot (flop : Bool) (index : Int) : Decidable (OwnSlot flop index) :=
  inferInstanceAs (Decidable (_ = _))

/-- No setting of `CLOCK_REALTIME` takes the pending edge close to a point for the
other kind; then an edge that a tick leaves alone is on the grid of its own kind,
whatever ticks, edges, arms and clocks have done in between. -/
theorem ticks_keep_own_grid (symmetric : Symmetric desired) {first last : Followed} {m : Machine}
    {phase : HwPhase} (begins : OnTrack desired allowance first)
    (run : Runs desired allowance (Harmless desired allowance) first last)
    (running : last.machine.freeRunning = true)
    (measured : Executes tickSem (tickPhase desired) last.machine (.ok phase) m)
    (alone : LeftAlone desired m.params m.clocks phase) :
    OnOwnGrid desired m.flop (deadband m.params m.clocks) phase := by
  have track := begins.runs symmetric run
  have wide := track.margins.wide
  have register : last.machine.regs.piv = BitVec.ofNat 64
      (folded last.machine.regs.compv.toNat last.machine.block).outputHwPiv := by
    rw [← (track.tracked running).fold.1.piv]
    simp
  obtain ⟨m', ⟨answer, standing⟩, during⟩ := tick_ends tick_phase_of_work
    (achieves_tick_phase register) ⟨rfl, rfl, rfl, rfl, rfl⟩ measured
  obtain ⟨-, -, isFlop, isParams, isClocks⟩ := standing.before during
  obtain ⟨place, index, read⟩ := grid_phase_read wide answer.symm
  rw [isParams, isClocks] at alone ⊢
  rw [isFlop]
  have own := read.own wide track.margins.strayed (track.running running).near alone.kept
  exact read.on_own_grid wide own symmetric.period alone

def unitRate (art : Nat) (inRange : art < 2 ^ 64) (real : Int) : Clocks :=
  { steadyClocks art inRange with
    real := real
    realtimeRateArtCycles := 4 * nsecPerSec
    realtimeRateRealNs := 4 * nsecPerSec
    outputPhaseToleranceNs := 100 }

def realtimeParams : Params := { defaultParams with clockMode := .realtime }

/-- Rises on the second, falls half a second later. -/
def onTheSecond : OutputDesired :=
  ⟨0, 1, 0, .running, .hardware, nsecPerSec, nsecPerSec / 2, nsecPerSec / 2, 0⟩

/-- Ten seconds in, the next edge is a rise, a second from now. -/
def secondsBlock : Machine :=
  { Machine.zeroed realtimeParams
      (unitRate (10 * nsecPerSec) (by decide) (10 * nsecPerSec : Nat))
      ⟨ctlEn ||| ctlPm ||| ctlDir ||| ctlEpToggle, BitVec.ofNat 64 (11 * nsecPerSec - 2),
        BitVec.ofNat 64 (nsecPerSec / 2)⟩ false with
    block := ⟨1, 0, 0, .hardwarePeriodic, 11 * nsecPerSec - 2, nsecPerSec / 2,
      11 * nsecPerSec - 2, false, nsecPerSec / 2, nsecPerSec / 2, .rise, 0, 0⟩
    desired := onTheSecond }

def millisecondMargins : Allowance onTheSecond := ⟨3, nsecPerMsec, by decide +kernel⟩

theorem on_the_second_symmetric : Symmetric onTheSecond := ⟨rfl, rfl, rfl, rfl⟩

theorem millisecond_limit : millisecondMargins.limit = 373999997 := by
  unfold Allowance.limit millisecondMargins onTheSecond nsecPerSec nsecPerMsec
  norm_num

theorem unit_rate_second {art : Nat} {inRange : art < 2 ^ 64} {real : Int} :
    cyclesPerSec (unitRate art inRange real) = nsecPerSec := by
  change nearest nsecPerSec (4 * nsecPerSec) (4 * nsecPerSec) = nsecPerSec
  exact nearest_same (by decide)

theorem unit_rate_wide {art : Nat} {inRange : art < 2 ^ 64} {real : Int}
    (grown : 3 * nsecPerSec ≤ art) (small : real ≤ 100 * nsecPerSec) :
    Wide onTheSecond 3 realtimeParams (unitRate art inRange real) where
  realtime := rfl
  plain := rfl
  fitting := by
    change Fitting (4 * nsecPerSec) (4 * nsecPerSec)
    exact ⟨by decide, by decide, by decide, by decide⟩
  counted := rfl
  inRange := by
    change real + 6 * ((nsecPerSec / 2 : Nat) : Int) + 3 * outputSafeTimeNs ≤ s64Max
    unfold outputSafeTimeNs nsecPerMsec nsecPerSec s64Max at *
    omega
  offset := by
    change (0 : Int).natAbs < 2 ^ 60
    decide
  counts := by
    rw [unit_rate_second]
    decide
  slow := by
    rw [unit_rate_second]
    decide
  sharp := by
    have reach : reachNs (unitRate art inRange real) onTheSecond = 2560000000 := rfl
    unfold countBlur
    rw [unit_rate_second, reach, nsecPerSec]
    norm_num
  grown := by
    change nearest (reachNs (unitRate art inRange real) onTheSecond) (4 * nsecPerSec)
      (4 * nsecPerSec) + artHwDelayCycles < art
    rw [nearest_same (by decide)]
    refine lt_of_lt_of_le ?_ grown
    change 2560000000 + 2 < 3 * 1000000000
    decide

theorem unit_rate_cycle {art : Nat} {inRange : art < 2 ^ 64} {real : Int} :
    cycleNs (unitRate art inRange real) = 1 := by
  unfold cycleNs
  rw [unit_rate_second]
  exact div_self (by decide)

theorem unit_rate_place {art : Nat} {inRange : art < 2 ^ 64} {real : Int} (compv : Nat) :
    exactPlace (unitRate art inRange real) compv = ((real + compv + 2 - art : Int) : ℚ) := by
  unfold exactPlace
  rw [unit_rate_cycle, mul_one]
  change ((real : ℚ) - (0 : Int)) + ((compv : ℚ) + (2 : Nat) - art) = _
  push_cast
  ring

theorem unit_rate_pace {art : Nat} {inRange : art < 2 ^ 64} {real : Int} :
    paceError onTheSecond (unitRate art inRange real) (nsecPerSec / 2) = 0 := by
  unfold paceError
  rw [unit_rate_cycle, mul_one]
  exact sub_self _

theorem unit_rate_near {m : Machine} {art : Nat} {inRange : art < 2 ^ 64} {real index : Int}
    (clocks : m.clocks = unitRate art inRange real) (own : OwnSlot m.flop index)
    (close : |real + m.regs.compv.toNat + 2 - art - onTheSecond.slot index| ≤
      300 * nsecPerMsec) :
    NearOwn onTheSecond millisecondMargins.limit 0 m := by
  have limit : ((300 * nsecPerMsec : Nat) : ℚ) < millisecondMargins.limit := by
    rw [millisecond_limit, nsecPerMsec]
    norm_num
  refine ⟨index, own, lt_of_le_of_lt ?_ limit⟩
  rw [clocks, unit_rate_place, sub_zero, ← Int.cast_sub, ← Int.cast_abs]
  exact_mod_cast close

def secondsFollowed : Followed := ⟨secondsBlock, nsecPerSec / 2, 0⟩

theorem unit_rate_within {s : Followed} {art : Nat} {inRange : art < 2 ^ 64} {real : Int}
    (params : s.machine.params = realtimeParams)
    (clocks : s.machine.clocks = unitRate art inRange real) (grown : 3 * nsecPerSec ≤ art)
    (small : real ≤ 100 * nsecPerSec) (still : s.strayed = 0) :
    s.Within onTheSecond millisecondMargins := by
  refine ⟨?_, ?_⟩
  · rw [params, clocks]
    exact unit_rate_wide grown small
  · rw [still, abs_zero]
    exact Nat.cast_nonneg nsecPerMsec

theorem seconds_on_track : OnTrack onTheSecond millisecondMargins secondsFollowed where
  margins := unit_rate_within rfl rfl (by decide) (by decide) rfl
  mirror := .tracked ⟨rfl, by decide, rfl, le_rfl, by decide⟩
  running _ := ⟨rfl, rfl, @unit_rate_near _ _ _ _ 22 rfl (by decide) (by decide)⟩
  waiting := nofun

def endsIn {α : Type} (program : Driver α) (m : Machine) : Machine :=
  finalState Machine.perform 200 [] program m

theorem ends_executes {α : Type} {program : Driver α} {m : Machine} {value : α}
    (ends : (exec Machine.perform 200 [] program m).map Prod.fst = some value) :
    Executes tickSem program m value (endsIn program m) :=
  exec_final (fun _ _ _ _ step => step) 200 [] (by simp) _ m value ends

def setAhead : Followed := secondsFollowed.step (10 * nsecPerSec + 300 * nsecPerMsec : Nat)

def aheadClocks : Clocks :=
  unitRate (10 * nsecPerSec) (by decide) (10 * nsecPerSec + 300 * nsecPerMsec : Nat)

def tickedBlock : Machine := endsIn (hwPeriodicApplyFreq onTheSecond) setAhead.machine

def ticked : Followed := setAhead.tick onTheSecond tickedBlock

def rearming : Driver (Except Errno Unit) :=
  armHardwarePeriodic ticked.machine.block.outputNextEdge ticked.machine.block.outputHighTimeNs
    ticked.machine.block.outputLowTimeNs

def rearmedBlock : Machine := endsIn rearming ticked.machine

def rearmed : Followed := ticked.arm onTheSecond rearmedBlock

def risen : Followed := rearmed.edge onTheSecond

def laterClocks : Clocks :=
  unitRate (10 * nsecPerSec + 700 * nsecPerMsec) (by decide) (11 * nsecPerSec : Nat)

/-- Half a second before the fall. -/
def later : Followed := risen.pass laterClocks

/-- The tick sends the block back for a rise at eleven seconds, 700 ms away, and
the arm counts exact intervals. -/
theorem rearming_runs :
    Executes tickSem (hwPeriodicApplyFreq onTheSecond) setAhead.machine () tickedBlock ∧
      Executes tickSem rearming ticked.machine (.ok ()) rearmedBlock ∧
      ticked.machine.block.outputPhase = .armPeriodic ∧
      ticked.machine.block.outputNextEdge = (11 * nsecPerSec : Nat) ∧
      countedHigh onTheSecond realtimeParams aheadClocks = .ok (nsecPerSec / 2) ∧
      rearmed.cycles = nsecPerSec / 2 ∧ rearmed.machine.freeRunning = true ∧
      rearmed.machine.regs.compv.toNat + rearmed.machine.regs.piv.toNat < 2 ^ 64 :=
  ⟨ends_executes (by decide +kernel), ends_executes (by decide +kernel), by decide +kernel⟩

theorem ticked_clocks :
    ticked.machine.params = realtimeParams ∧ ticked.machine.clocks = aheadClocks := by
  have working : Working Op.ofWork := of_work_working
  have kept := tick_clocks (hw_periodic_apply_freq_uses working.toServicing
    (fun _ => working.store _) (working.store _)) rearming_runs.1
  unfold ticked Followed.tick
  exact kept

theorem rearmed_clocks :
    rearmed.machine.params = realtimeParams ∧ rearmed.machine.clocks = aheadClocks := by
  have working : Working Op.ofWork := of_work_working
  obtain ⟨params, clocks⟩ := tick_clocks
    (arm_hardware_periodic_uses working.toArming _ _ _ fun _ _ => working.store _) rearming_runs.2.1
  rw [ticked_clocks.1] at params
  rw [ticked_clocks.2] at clocks
  unfold rearmed Followed.arm
  dsimp only
  exact ⟨params, clocks⟩

theorem risen_clocks :
    risen.machine.params = realtimeParams ∧ risen.machine.clocks = aheadClocks := by
  unfold risen Followed.edge Machine.periodicEdge
  dsimp only
  exact rearmed_clocks

theorem later_clocks :
    later.machine.params = realtimeParams ∧ later.machine.clocks = laterClocks := by
  unfold later Followed.pass
  dsimp only
  exact ⟨risen_clocks.1, rfl⟩

theorem rearming_roomy : armLoss onTheSecond ticked.machine.params ticked.machine.clocks
    ticked.machine.block.outputNextEdge < millisecondMargins.limit := by
  obtain ⟨-, -, -, edge, counted, -⟩ := rearming_runs
  have aimed : clockNsToCompareArt realtimeParams aheadClocks (11 * nsecPerSec : Nat) =
      .ok (10 * nsecPerSec + 700 * nsecPerMsec - 2) := by
    rfl
  have away : (((11 * nsecPerSec : Nat) : Int) + aheadClocks.outputPhaseOffsetNs -
      aheadClocks.real).natAbs = 700 * nsecPerMsec := by
    change (((11 * nsecPerSec : Nat) : Int) + (0 : Int) -
      (10 * nsecPerSec + 300 * nsecPerMsec : Nat)).natAbs = 700 * nsecPerMsec
    unfold nsecPerSec nsecPerMsec
    omega
  unfold armLoss
  rw [edge, ticked_clocks.1, ticked_clocks.2, aimed, counted, millisecond_limit]
  dsimp only
  rw [away, aheadClocks, unit_rate_pace, unit_rate_cycle, countBlur, unit_rate_second, abs_zero,
    mul_zero]
  norm_num [nsecPerSec, nsecPerMsec, artHwDelayCycles]

theorem risen_still : risen.strayed = 0 := by
  obtain ⟨-, -, -, -, -, cycles, -⟩ := rearming_runs
  change 0 + paceError onTheSecond rearmed.machine.clocks rearmed.cycles = 0
  rw [cycles, rearmed_clocks.2, aheadClocks, unit_rate_pace, add_zero]

theorem later_still : later.strayed = 0 := by
  have same : exactPlace laterClocks risen.machine.regs.compv.toNat =
      exactPlace risen.machine.clocks risen.machine.regs.compv.toNat := by
    rw [risen_clocks.2, aheadClocks, laterClocks, unit_rate_place, unit_rate_place]
    generalize risen.machine.regs.compv.toNat = compv
    congr 1
    unfold nsecPerSec nsecPerMsec
    omega
  exact (Followed.pass_still same).trans risen_still

theorem later_reached : Runs onTheSecond millisecondMargins
    (Harmless onTheSecond millisecondMargins) secondsFollowed later := by
  obtain ⟨ticked_runs, rearmed_runs, awaits, -, -, -, running, room⟩ := rearming_runs
  have set_ : Runs onTheSecond millisecondMargins (Harmless onTheSecond millisecondMargins)
      secondsFollowed setAhead :=
    .single (.step _ (fun _ => @unit_rate_near setAhead.machine _ (by decide) _ 22 rfl (by decide)
      (by decide)) (@unit_rate_wide _ (by decide) _ (by decide) (by decide)))
  have ticks : Runs onTheSecond millisecondMargins (Harmless onTheSecond millisecondMargins)
      secondsFollowed ticked := set_.tail (.tick rfl ticked_runs)
  have arms : Runs onTheSecond millisecondMargins (Harmless onTheSecond millisecondMargins)
      secondsFollowed rearmed := ticks.tail (.arm awaits rearming_roomy rearmed_runs)
  have rises : Runs onTheSecond millisecondMargins (Harmless onTheSecond millisecondMargins)
      secondsFollowed risen := by
    refine arms.tail (.edge running room ?_)
    change |risen.strayed| ≤ _
    rw [risen_still, abs_zero]
    exact Nat.cast_nonneg nsecPerMsec
  exact rises.tail (.pass _ (unit_rate_within later_clocks.1 later_clocks.2 (by decide)
    (by decide) later_still))

/-- `CLOCK_REALTIME` is set 300 ms ahead, a tick sends the block back, it is armed
again, and half a second before its fall a tick finds the edge on its grid. -/
theorem ticks_keep_own_grid_rearmed :
    OnOwnGrid onTheSecond true 100 ⟨(11 * nsecPerSec + 500 * nsecPerMsec : Nat), 0, true⟩ := by
  have grid := ticks_keep_own_grid on_the_second_symmetric seconds_on_track later_reached
    (by decide +kernel)
    (@ends_executes _ (tickPhase onTheSecond) later.machine
      (.ok ⟨(11 * nsecPerSec + 500 * nsecPerMsec : Nat), 0, true⟩) (by decide +kernel))
    ⟨by decide +kernel, by decide +kernel, by decide +kernel⟩
  have flop : (endsIn (tickPhase onTheSecond) later.machine).flop = true := by decide +kernel
  have band : deadband (endsIn (tickPhase onTheSecond) later.machine).params
      (endsIn (tickPhase onTheSecond) later.machine).clocks = 100 := by
    decide +kernel
  rwa [flop, band] at grid

/-- `CLOCK_REALTIME` is set half a second ahead: the rise is now due at a point
for falls, and no tick minds. -/
theorem half_second_step_swaps_edges :
    ¬∀ (desired : OutputDesired) (allowance : Allowance desired), Symmetric desired →
      ∀ (first last : Followed) (m : Machine), first.machine.params.clockMode = .realtime →
      first.machine.desired = desired → OnTrack desired allowance first →
      Runs desired allowance (fun _ => True) first last → last.machine.freeRunning = true →
      ∀ phase : HwPhase, Executes tickSem (tickPhase desired) last.machine (.ok phase) m →
        LeftAlone desired m.params m.clocks phase →
        OnOwnGrid desired m.flop (deadband m.params m.clocks) phase := by
  intro claim
  let swapped : Followed := secondsFollowed.step (10 * nsecPerSec + 500 * nsecPerMsec : Nat)
  have run : Runs onTheSecond millisecondMargins (fun _ => True) secondsFollowed swapped :=
    .single (.step _ trivial (@unit_rate_wide _ (by decide) _ (by decide) (by decide)))
  obtain ⟨k, close⟩ := claim onTheSecond millisecondMargins on_the_second_symmetric _ _ _ rfl rfl
    seconds_on_track run (by decide +kernel)
    ⟨(11 * nsecPerSec + 500 * nsecPerMsec : Nat), 0, true⟩ (ends_executes (by decide +kernel))
    ⟨by decide +kernel, by decide +kernel, by decide +kernel⟩
  have flop : (endsIn (tickPhase onTheSecond) swapped.machine).flop = false := by decide +kernel
  have band : deadband (endsIn (tickPhase onTheSecond) swapped.machine).params
      (endsIn (tickPhase onTheSecond) swapped.machine).clocks = 100 := by
    decide +kernel
  rw [flop, band] at close
  obtain ⟨lower, upper⟩ := abs_lt.mp close
  simp only [onTheSecond, nsecPerSec, nsecPerMsec, Bool.false_eq_true, if_false] at lower upper
  omega

end runs

end Tgpio

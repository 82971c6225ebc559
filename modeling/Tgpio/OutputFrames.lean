import Tgpio.OutputWork

/-!
# Which accesses each sequence makes

Frame facts need to know what a sequence can do, not what it is answered. Each
class lists a kind of access; each lemma says that a sequence stays within it.
-/

namespace Tgpio

open Interference Interference.Prog

set_option autoImplicit false

/-- Accesses that only look. -/
structure Reading (allowed : Op → Prop) : Prop where
  readl : ∀ reg, allowed (.readl reg)
  load : allowed .load
  sample : ∀ (α : Type) (read : Params → Clocks → α), allowed (.sample α read)
  real : allowed .ktimeGetReal
  desired : allowed .outputDesiredGet
  sleep : ∀ msecs, allowed (.msleep msecs)

/-- Looking, and moving the level mirror to what was seen. -/
structure Folding (allowed : Op → Prop) : Prop extends Reading allowed where
  looked : allowed (.mark .looked)
  duty : ∀ compv, allowed (.store (foldDuty compv))
  periodic : ∀ compv, allowed (.store (foldPeriodic compv))

/-- Folding, and writing registers with EN clear. -/
structure Halting (allowed : Op → Prop) : Prop extends Folding allowed where
  data : ∀ reg value, reg ≠ .ctl → allowed (.writel reg value)
  disable : ∀ value, hasEn value = false → allowed (.writel .ctl value)
  halt : allowed (.store halted)

/-- Folding, writing any register, and the records of a hot rewrite. -/
structure Rewriting (allowed : Op → Prop) : Prop extends Folding allowed where
  writel : ∀ reg value, allowed (.writel reg value)
  pace : ∀ piv, allowed (.store (paced piv))
  checkpoint : ∀ compv, allowed (.store (checkpointed compv))
  edge : ∀ time, allowed (.store (edgeAt time))

/-- Halting and rewriting, setting the timer, and the record of an edge. -/
structure Arming (allowed : Op → Prop) : Prop extends Halting allowed, Rewriting allowed where
  start : ∀ expires, allowed (.hrtimerStart expires)
  waking : ∀ time, allowed (.store (wakingAt time))
  slot : allowed (.mark .slot)
  advance : allowed (.store advanced)

/-- Arming, and giving up. -/
structure Servicing (allowed : Op → Prop) : Prop extends Arming allowed where
  cancel : allowed .hrtimerCancel
  giveUp : allowed (.mark .giveUp)

theorem Servicing.mono {allowed weaker : Op → Prop} (servicing : Servicing allowed)
    (implies : ∀ op, allowed op → weaker op) : Servicing weaker where
  readl reg := implies _ (servicing.readl reg)
  load := implies _ servicing.load
  sample α read := implies _ (servicing.sample α read)
  real := implies _ servicing.real
  desired := implies _ servicing.desired
  sleep msecs := implies _ (servicing.sleep msecs)
  looked := implies _ servicing.looked
  duty compv := implies _ (servicing.duty compv)
  periodic compv := implies _ (servicing.periodic compv)
  data reg value notCtl := implies _ (servicing.data reg value notCtl)
  disable value off := implies _ (servicing.disable value off)
  halt := implies _ servicing.halt
  writel reg value := implies _ (servicing.writel reg value)
  start expires := implies _ (servicing.start expires)
  cancel := implies _ servicing.cancel
  giveUp := implies _ servicing.giveUp
  waking time := implies _ (servicing.waking time)
  slot := implies _ servicing.slot
  advance := implies _ servicing.advance
  pace piv := implies _ (servicing.pace piv)
  checkpoint compv := implies _ (servicing.checkpoint compv)
  edge time := implies _ (servicing.edge time)

/-- Everything a run of `outputWork` does. -/
structure Working (allowed : Op → Prop) : Prop extends Servicing allowed where
  store : ∀ update, allowed (.store update)
  inverted : allowed (.mark .inverted)

section uses

variable {allowed : Op → Prop}

theorem read_compv_uses (reading : Reading allowed) : Uses allowed readCompv := by
  refine Uses.seq ((uses_perform _).mpr (reading.readl _)) fun hi => ?_
  refine Uses.iterate fun prevHi => ?_
  refine Uses.seq ((uses_perform _).mpr (reading.readl _)) fun lo => ?_
  refine Uses.seq ((uses_perform _).mpr (reading.readl _)) fun hi => ?_
  split <;> exact uses_pure _

theorem hw_flop_fold_uses (folding : Folding allowed) : Uses allowed hwFlopFold := by
  refine Uses.seq ((uses_perform _).mpr folding.load) fun block => ?_
  split
  · exact uses_pure _
  split
  · refine Uses.seq (read_compv_uses folding.toReading) fun compv => ?_
    refine Uses.seq ((uses_perform _).mpr folding.looked) fun _ => ?_
    split
    · exact (uses_perform _).mpr (folding.duty compv)
    · exact uses_pure _
  split
  · refine Uses.seq (read_compv_uses folding.toReading) fun compv => ?_
    refine Uses.seq ((uses_perform _).mpr folding.looked) fun _ => ?_
    split
    · exact uses_pure _
    · exact (uses_perform _).mpr (folding.periodic compv)
  · exact uses_pure _

theorem write_compv_uses (value : Nat)
    (data : ∀ reg value, reg ≠ .ctl → allowed (.writel reg value)) :
    Uses allowed (writeCompv value) := by
  refine Uses.seq ((uses_perform _).mpr (data _ _ (by decide))) fun _ => ?_
  exact (uses_perform _).mpr (data _ _ (by decide))

theorem write_piv_uses (value : Nat)
    (data : ∀ reg value, reg ≠ .ctl → allowed (.writel reg value)) :
    Uses allowed (writePiv value) := by
  refine Uses.seq ((uses_perform _).mpr (data _ _ (by decide))) fun _ => ?_
  exact (uses_perform _).mpr (data _ _ (by decide))

theorem disable_output_hw_uses (halting : Halting allowed) : Uses allowed disableOutputHw := by
  refine Uses.seq ((uses_perform _).mpr (halting.readl _)) fun ctrl => ?_
  refine Uses.seq ((uses_perform _).mpr (halting.disable _ (by simp))) fun _ => ?_
  refine Uses.seq (hw_flop_fold_uses halting.toFolding) fun _ => ?_
  refine Uses.seq (write_compv_uses 0 halting.data) fun _ => ?_
  refine Uses.seq (write_piv_uses 0 halting.data) fun _ => ?_
  refine Uses.seq ((uses_perform _).mpr (halting.disable _ (by simp))) fun _ => ?_
  exact (uses_perform _).mpr halting.halt

/-- A stop for an arm folds, and writes registers. -/
theorem rearm_stop_uses (folding : Folding allowed)
    (data : ∀ reg value, reg ≠ .ctl → allowed (.writel reg value))
    (disable : ∀ value, hasEn value = false → allowed (.writel .ctl value)) :
    Uses allowed stopForRearm := by
  refine Uses.seq ((uses_perform _).mpr (folding.readl _)) fun ctrl => ?_
  refine Uses.seq ((uses_perform _).mpr (disable _ (by simp))) fun _ => ?_
  refine Uses.seq (hw_flop_fold_uses folding) fun _ => ?_
  refine Uses.seq (write_compv_uses 0 data) fun _ => ?_
  refine Uses.seq (write_piv_uses 0 data) fun _ => ?_
  refine Uses.seq ((uses_perform _).mpr (disable _ (by simp))) fun _ => ?_
  exact uses_pure _

theorem stop_for_rearm_uses (halting : Halting allowed) : Uses allowed stopForRearm :=
  rearm_stop_uses halting.toFolding halting.data halting.disable

/-- An edge program converts a time, and writes registers. -/
theorem edge_program_uses (reading : Reading allowed)
    (writel : ∀ reg value, allowed (.writel reg value)) (edgeTime : Int) (edgeBits : BitVec 32) :
    Uses allowed (programOutputEdge edgeTime edgeBits) := by
  refine Uses.seq ((uses_perform _).mpr (reading.sample _ _)) fun art => ?_
  split
  · exact uses_pure _
  refine Uses.seq ((uses_perform _).mpr (reading.readl _)) fun ctrl => ?_
  split
  · refine Uses.seq (write_compv_uses _ fun reg value _ => writel reg value) fun _ => ?_
    exact Uses.seq ((uses_perform _).mpr (writel _ _)) fun _ => uses_pure _
  · refine Uses.seq ((uses_perform _).mpr (writel _ _)) fun _ => ?_
    exact Uses.seq (write_compv_uses _ fun reg value _ => writel reg value) fun _ => uses_pure _

theorem drain_rounds_uses (folding : Folding allowed) (rounds : Nat) :
    Uses allowed (drainRounds rounds) := by
  induction rounds with
  | zero => exact uses_pure _
  | succ rounds ih =>
      refine Uses.seq ((uses_perform _).mpr folding.load) fun block => ?_
      split
      · refine Uses.seq ((uses_perform _).mpr (folding.sleep _)) fun _ => ?_
        exact Uses.seq (hw_flop_fold_uses folding) fun _ => ih
      · exact uses_pure _

theorem hw_periodic_drain_low_uses (folding : Folding allowed) :
    Uses allowed hwPeriodicDrainLow := by
  refine Uses.seq ((uses_perform _).mpr folding.load) fun block => ?_
  split
  · exact uses_pure _
  · exact Uses.seq (hw_flop_fold_uses folding) fun _ => drain_rounds_uses folding 30

theorem prepare_output_timing_uses (reading : Reading allowed) (minIntervalNs periodNs : Nat)
    (mode : OutputMode) (requestedFirstEdgeNs : Int) :
    Uses allowed (prepareOutputTiming minIntervalNs periodNs mode requestedFirstEdgeNs) := by
  refine Uses.seq ((uses_perform _).mpr (reading.sample _ _)) fun now => ?_
  split
  · exact uses_pure _
  · refine Uses.seq ((uses_perform _).mpr (reading.sample _ _)) fun delay => ?_
    split
    · exact uses_pure _
    · exact Uses.seq ((uses_perform _).mpr reading.real) fun _ => uses_pure _

theorem hw_periodic_phase_get_uses (reading : Reading allowed) (gridStartNs : Int)
    (halfNs : Nat) : Uses allowed (hwPeriodicPhaseGet gridStartNs halfNs) := by
  unfold hwPeriodicPhaseGet
  split
  · exact uses_pure _
  refine Uses.seq (read_compv_uses reading) fun compv => ?_
  split
  · exact uses_pure _
  refine Uses.seq ((uses_perform _).mpr (reading.sample _ _)) fun pending => ?_
  refine Uses.seq ((uses_perform _).mpr (reading.sample _ _)) fun now => ?_
  refine Uses.seq ((uses_perform _).mpr (reading.sample _ _)) fun offset => ?_
  split
  · exact uses_pure _
  refine Uses.seq ((uses_perform _).mpr (reading.sample _ _)) fun usesModel => ?_
  split
  · exact uses_pure _
  refine Uses.seq ((uses_perform _).mpr (reading.sample _ _)) fun target => ?_
  exact Uses.seq ((uses_perform _).mpr (reading.sample _ _)) fun exact_ => uses_pure _

theorem await_safe_edge_uses (reading : Reading allowed) (rounds : Nat) :
    Uses allowed (awaitSafeEdge rounds) := by
  induction rounds with
  | zero => exact uses_pure _
  | succ rounds ih =>
      refine Uses.seq ((uses_perform _).mpr reading.load) fun block => ?_
      refine Uses.seq ((uses_perform _).mpr reading.desired) fun desired => ?_
      refine Uses.seq (hw_periodic_phase_get_uses reading _ _) fun phase => ?_
      split
      · exact uses_pure _
      · split
        · exact uses_pure _
        · exact Uses.seq ((uses_perform _).mpr (reading.sleep _)) fun _ => ih

theorem stop_output_uses (halting : Halting allowed) (cancel : allowed .hrtimerCancel) :
    Uses allowed stopOutput := by
  refine Uses.seq ((uses_perform _).mpr cancel) fun _ => ?_
  refine Uses.seq (hw_periodic_drain_low_uses halting.toFolding) fun _ => ?_
  exact disable_output_hw_uses halting

/-- A refresh writes the two words of PIV and records them. -/
theorem refresh_uses (load : allowed .load) (upper : ∀ value, allowed (.writel .piv63_32 value))
    (lower : ∀ value, allowed (.writel .piv31_0 value))
    (pace : ∀ piv, allowed (.store (paced piv))) (piv : U64Result) :
    Uses allowed (refreshPiv piv) := by
  refine Uses.seq ((uses_perform _).mpr load) fun block => ?_
  split
  · exact uses_pure _
  split
  · apply Uses.seq
    · exact Uses.seq ((uses_perform _).mpr (upper _)) fun _ => (uses_perform _).mpr (lower _)
    · intro _
      exact (uses_perform _).mpr (pace _)
  · exact uses_pure _

/-- A paused rewrite writes registers, and moves the checkpoint. -/
theorem paused_write_uses (reading : Reading allowed)
    (writel : ∀ reg value, allowed (.writel reg value))
    (checkpoint : ∀ compv, allowed (.store (checkpointed compv))) (compv : Nat) :
    Uses allowed (hwPeriodicWriteCompvPaused compv) := by
  refine Uses.seq ((uses_perform _).mpr (reading.readl _)) fun ctrl => ?_
  refine Uses.seq ((uses_perform _).mpr (writel _ _)) fun _ => ?_
  refine Uses.seq (write_compv_uses _ fun reg value _ => writel reg value) fun _ => ?_
  refine Uses.seq ((uses_perform _).mpr (writel _ _)) fun _ => ?_
  exact (uses_perform _).mpr (checkpoint _)

theorem wake_uses (start : ∀ expires, allowed (.hrtimerStart expires))
    (waking : ∀ time, allowed (.store (wakingAt time))) (time : Int) :
    Uses allowed (outputWakeAt time) := by
  refine Uses.seq ((uses_perform _).mpr (waking _)) fun _ => ?_
  exact (uses_perform _).mpr (start _)

theorem half_shift_uses (folding : Folding allowed)
    (writel : ∀ reg value, allowed (.writel reg value))
    (checkpoint : ∀ compv, allowed (.store (checkpointed compv))) : Uses allowed shiftHalfPeriod := by
  refine Uses.seq (await_safe_edge_uses folding.toReading 50) fun _ => ?_
  refine Uses.seq (hw_flop_fold_uses folding) fun _ => ?_
  refine Uses.seq (read_compv_uses folding.toReading) fun compv => ?_
  refine Uses.seq ((uses_perform _).mpr folding.load) fun block => ?_
  split
  · exact uses_pure _
  · exact paused_write_uses folding.toReading writel checkpoint _

section rewriting

variable (rewriting : Rewriting allowed)

include rewriting

theorem refresh_piv_uses (piv : U64Result) : Uses allowed (refreshPiv piv) :=
  refresh_uses rewriting.load (rewriting.writel _) (rewriting.writel _) rewriting.pace piv

theorem hw_periodic_write_compv_paused_uses (compv : Nat) :
    Uses allowed (hwPeriodicWriteCompvPaused compv) :=
  paused_write_uses rewriting.toReading rewriting.writel rewriting.checkpoint compv

theorem shift_half_period_uses : Uses allowed shiftHalfPeriod :=
  half_shift_uses rewriting.toFolding rewriting.writel rewriting.checkpoint

section waking

variable (start : ∀ expires, allowed (.hrtimerStart expires))
  (waking : ∀ time, allowed (.store (wakingAt time)))

include start waking

/-- A start writes registers, records the waveform and may set the timer. -/
theorem periodic_start_uses (ctrl : BitVec 32) (firstEdgeNs : Int)
    (highTimeNs lowTimeNs firstArt initialPiv : Nat)
    (run : allowed (.store (armed firstEdgeNs highTimeNs lowTimeNs firstArt initialPiv))) :
    Uses allowed
      (startHardwarePeriodic ctrl firstEdgeNs highTimeNs lowTimeNs firstArt initialPiv) := by
  have data (reg : Reg) (value : BitVec 32) (_ : reg ≠ .ctl) : allowed (.writel reg value) :=
    rewriting.writel reg value
  refine Uses.seq ((uses_perform _).mpr (rewriting.writel _ _)) fun _ => ?_
  refine Uses.seq (write_piv_uses _ data) fun _ => ?_
  refine Uses.seq (write_compv_uses _ data) fun _ => ?_
  refine Uses.seq ((uses_perform _).mpr run) fun _ => ?_
  refine Uses.seq ((uses_perform _).mpr (rewriting.writel _ _)) fun _ => ?_
  split
  · refine Uses.seq ((uses_perform _).mpr rewriting.real) fun nowReal => ?_
    exact wake_uses start waking _
  · exact uses_pure _

theorem periodic_arm_uses (slot : allowed (.mark .slot)) (firstEdgeNs : Int)
    (highTimeNs lowTimeNs : Nat) (run : ∀ firstArt initialPiv, allowed
      (.store (armed firstEdgeNs highTimeNs lowTimeNs firstArt initialPiv))) :
    Uses allowed (armHardwarePeriodic firstEdgeNs highTimeNs lowTimeNs) := by
  refine Uses.seq ((uses_perform _).mpr (rewriting.sample _ _)) fun firstArt => ?_
  refine Uses.seq ((uses_perform _).mpr (rewriting.sample _ _)) fun highArt => ?_
  refine Uses.seq ((uses_perform _).mpr (rewriting.sample _ _)) fun lowArt => ?_
  split
  · exact uses_pure _
  refine Uses.seq (rearm_stop_uses rewriting.toFolding (fun reg value _ => rewriting.writel reg value)
    fun value _ => rewriting.writel .ctl value) fun ctrl => ?_
  refine Uses.seq ((uses_perform _).mpr slot) fun _ => ?_
  refine Uses.seq ((uses_perform _).mpr rewriting.load) fun block => ?_
  refine Uses.seq ((uses_perform _).mpr (rewriting.sample _ _)) fun nowArt => ?_
  refine Uses.seq ((uses_perform _).mpr (rewriting.sample _ _)) fun margin => ?_
  split
  · exact uses_pure _
  · refine Uses.seq ?_ fun _ => uses_pure _
    exact periodic_start_uses rewriting start waking _ _ _ _ _ _ (run _ _)

end waking

end rewriting

section arming

variable (arming : Arming allowed)

include arming

theorem output_wake_at_uses (time : Int) : Uses allowed (outputWakeAt time) :=
  wake_uses arming.start arming.waking time

theorem program_output_edge_uses (edgeTime : Int) (edgeBits : BitVec 32) :
    Uses allowed (programOutputEdge edgeTime edgeBits) :=
  edge_program_uses arming.toReading arming.writel edgeTime edgeBits

theorem arm_output_uses (firstEdgeNs primeEdgeNs : Int) (highTimeNs lowTimeNs : Nat)
    (mode : OutputMode) (prime : allowed (.store (primed firstEdgeNs highTimeNs lowTimeNs mode))) :
    Uses allowed (armOutput firstEdgeNs primeEdgeNs highTimeNs lowTimeNs mode) := by
  refine Uses.seq (stop_for_rearm_uses arming.toHalting) fun _ => ?_
  split
  · exact Uses.seq ((uses_perform _).mpr prime) fun _ => uses_pure _
  refine Uses.seq ((uses_perform _).mpr (arming.sample _ _)) fun edgeBits => ?_
  refine Uses.seq (program_output_edge_uses arming _ _) fun status => ?_
  split
  · exact Uses.seq (disable_output_hw_uses arming.toHalting) fun _ => uses_pure _
  · refine Uses.seq ((uses_perform _).mpr prime) fun _ => ?_
    refine Uses.seq ((uses_perform _).mpr (arming.readl _)) fun ctrl => ?_
    exact Uses.seq ((uses_perform _).mpr (arming.writel _ _)) fun _ => uses_pure _

theorem arm_hardware_periodic_uses (firstEdgeNs : Int) (highTimeNs lowTimeNs : Nat)
    (start : ∀ firstArt initialPiv, allowed
      (.store (armed firstEdgeNs highTimeNs lowTimeNs firstArt initialPiv))) :
    Uses allowed (armHardwarePeriodic firstEdgeNs highTimeNs lowTimeNs) :=
  periodic_arm_uses arming.toRewriting arming.start arming.waking arming.slot _ _ _ start

end arming

section servicing

variable (servicing : Servicing allowed)

include servicing

theorem abandon_output_uses : Uses allowed abandonOutput := by
  refine Uses.seq ((uses_perform _).mpr servicing.giveUp) fun _ => ?_
  refine Uses.seq ((uses_perform _).mpr servicing.cancel) fun _ => ?_
  exact disable_output_hw_uses servicing.toHalting

theorem software_edge_uses : Uses allowed softwareEdge := by
  refine Uses.seq ((uses_perform _).mpr servicing.load) fun block => ?_
  refine Uses.seq ((uses_perform _).mpr (servicing.sample _ _)) fun edgeBits => ?_
  refine Uses.seq ((uses_perform _).mpr (servicing.sample _ _)) fun interval => ?_
  refine Uses.seq (program_output_edge_uses servicing.toArming _ _) fun status => ?_
  split
  · split
    · exact abandon_output_uses servicing
    · refine Uses.seq ((uses_perform _).mpr servicing.advance) fun _ => ?_
      exact output_wake_at_uses servicing.toArming _
  · exact abandon_output_uses servicing

theorem hw_duty_service_uses : Uses allowed hwDutyService := by
  refine Uses.seq (hw_flop_fold_uses servicing.toFolding) fun _ => ?_
  refine Uses.seq ((uses_perform _).mpr servicing.load) fun block => ?_
  refine Uses.seq ((uses_perform _).mpr (servicing.sample _ _)) fun piv => ?_
  refine Uses.seq (refresh_piv_uses servicing.toRewriting _) fun _ => ?_
  refine Uses.seq (read_compv_uses servicing.toReading) fun compv => ?_
  split
  · refine Uses.seq ((uses_perform _).mpr servicing.giveUp) fun _ => ?_
    exact disable_output_hw_uses servicing.toHalting
  refine Uses.seq ((uses_perform _).mpr (servicing.sample _ _)) fun pending => ?_
  refine Uses.seq ((uses_perform _).mpr (servicing.sample _ _)) fun now => ?_
  split
  · refine Uses.seq ((uses_perform _).mpr (servicing.sample _ _)) fun delayReal => ?_
    refine Uses.seq ((uses_perform _).mpr servicing.real) fun nowReal => ?_
    split <;> exact output_wake_at_uses servicing.toArming _
  · refine Uses.seq ((uses_perform _).mpr servicing.real) fun nowReal => ?_
    exact output_wake_at_uses servicing.toArming _

section desired

variable {desired : OutputDesired}
  (prime : ∀ firstEdgeNs, allowed
    (.store (primed firstEdgeNs desired.highTimeNs desired.lowTimeNs desired.mode)))
  (apply : allowed (.store (applied desired)))

include prime apply

theorem reconcile_arm_uses : Uses allowed (reconcileArm desired) := by
  refine Uses.seq (prepare_output_timing_uses servicing.toReading _ _ _ _) fun timing => ?_
  split
  · exact abandon_output_uses servicing
  refine Uses.seq (arm_output_uses servicing.toArming _ _ _ _ _ (prime _)) fun status => ?_
  split
  · exact abandon_output_uses servicing
  · refine Uses.seq ((uses_perform _).mpr apply) fun _ => ?_
    exact output_wake_at_uses servicing.toArming _

theorem nudge_phase_uses (phase : HwPhase) : Uses allowed (nudgePhase desired phase) := by
  unfold nudgePhase
  split
  · exact reconcile_arm_uses servicing prime apply
  refine Uses.seq ((uses_perform _).mpr (servicing.sample _ _)) fun tolerance => ?_
  split
  · exact uses_pure _
  split
  · exact uses_pure _
  refine Uses.seq ((uses_perform _).mpr (servicing.sample _ _)) fun nudgedArt => ?_
  split
  · exact uses_pure _
  · refine Uses.seq (hw_periodic_write_compv_paused_uses servicing.toRewriting _) fun _ => ?_
    exact (uses_perform _).mpr (servicing.edge _)

theorem hw_periodic_apply_freq_uses : Uses allowed (hwPeriodicApplyFreq desired) := by
  refine Uses.seq ((uses_perform _).mpr servicing.load) fun block => ?_
  refine Uses.seq ((uses_perform _).mpr (servicing.sample _ _)) fun piv => ?_
  refine Uses.seq (hw_flop_fold_uses servicing.toFolding) fun _ => ?_
  refine Uses.seq (refresh_piv_uses servicing.toRewriting _) fun _ => ?_
  refine Uses.seq (hw_periodic_phase_get_uses servicing.toReading _ _) fun phase => ?_
  split
  · exact uses_pure _
  · exact nudge_phase_uses servicing prime apply _

end desired

section edges

variable (arm : ∀ firstEdgeNs highTimeNs lowTimeNs firstArt initialPiv, allowed
  (.store (armed firstEdgeNs highTimeNs lowTimeNs firstArt initialPiv)))

include arm

theorem edge_service_uses : Uses allowed serviceEdge := by
  refine Uses.seq ((uses_perform _).mpr servicing.load) fun block => ?_
  split
  · refine Uses.seq (arm_hardware_periodic_uses servicing.toArming _ _ _
      fun _ _ => arm _ _ _ _ _) fun status => ?_
    split
    · exact uses_pure _
    · refine Uses.seq ((uses_perform _).mpr servicing.giveUp) fun _ => ?_
      exact disable_output_hw_uses servicing.toHalting
  · exact hw_duty_service_uses servicing
  · exact uses_pure _
  · exact software_edge_uses servicing
  · exact software_edge_uses servicing

theorem output_service_uses {desired : OutputDesired}
    (prime : ∀ firstEdgeNs, allowed
      (.store (primed firstEdgeNs desired.highTimeNs desired.lowTimeNs desired.mode)))
    (apply : allowed (.store (applied desired))) (freq : allowed (.store (appliedFreq desired))) :
    Uses allowed (serviceOutput desired) := by
  have edge := edge_service_uses servicing arm
  refine Uses.seq ((uses_perform _).mpr servicing.load) fun block => ?_
  split
  · refine Uses.seq ((uses_perform _).mpr freq) fun _ => ?_
    split
    · exact hw_periodic_apply_freq_uses servicing prime apply
    · exact uses_pure _
    · refine Uses.seq ((uses_perform _).mpr servicing.real) fun nowReal => ?_
      split
      · exact uses_pure _
      · exact edge
    · exact edge
    · exact edge
  · exact edge

end edges

end servicing

section working

variable (working : Working allowed)

include working

theorem service_output_uses (desired : OutputDesired) : Uses allowed (serviceOutput desired) :=
  output_service_uses working.toServicing (fun _ _ _ _ _ => working.store _)
    (fun _ => working.store _) (working.store _) (working.store _)

theorem hw_periodic_invert_uses : Uses allowed hwPeriodicInvert := by
  refine Uses.seq ((uses_perform _).mpr (working.store _)) fun _ => ?_
  refine Uses.seq ((uses_perform _).mpr working.inverted) fun _ => ?_
  refine Uses.seq ((uses_perform _).mpr working.load) fun block => ?_
  split
  · refine Uses.seq ((uses_perform _).mpr working.desired) fun desired => ?_
    split
    · exact reconcile_arm_uses working.toServicing (fun _ => working.store _)
        (working.store _)
    · exact uses_pure _
  split
  · exact uses_pure _
  · exact shift_half_period_uses working.toRewriting

theorem apply_flip_uses (desired : OutputDesired) : Uses allowed (applyFlip desired) := by
  refine Uses.seq ((uses_perform _).mpr working.load) fun block => ?_
  split
  · exact Uses.seq (hw_periodic_invert_uses working) fun _ =>
      (uses_perform _).mpr (working.store _)
  · exact (uses_perform _).mpr (working.store _)

theorem output_work_uses : Uses allowed outputWork := by
  refine Uses.seq ((uses_perform _).mpr working.desired) fun desired => ?_
  split
  · exact stop_output_uses working.toHalting working.cancel
  refine Uses.seq (apply_flip_uses working desired) fun _ => ?_
  refine Uses.seq ((uses_perform _).mpr working.load) fun block => ?_
  split
  · exact reconcile_arm_uses working.toServicing (fun _ => working.store _)
      (working.store _)
  · exact service_output_uses working desired

end working

end uses

/-- Accesses of a run of the work. -/
def Op.ofWork : Op → Prop
  | .publish _ | .scheduleWork | .scheduleOneshotStop _ | .cancelOneshotStop
  | .cancelOneshotStopSync | .cancelWorkBegin | .cancelWorkEnd => False
  | _ => True

theorem of_work_working : Working Op.ofWork where
  readl _ := trivial
  load := trivial
  sample _ _ := trivial
  real := trivial
  desired := trivial
  sleep _ := trivial
  looked := trivial
  duty _ := trivial
  periodic _ := trivial
  data _ _ _ := trivial
  disable _ _ := trivial
  halt := trivial
  writel _ _ := trivial
  pace _ := trivial
  checkpoint _ := trivial
  edge _ := trivial
  start _ := trivial
  waking _ := trivial
  slot := trivial
  advance := trivial
  cancel := trivial
  giveUp := trivial
  store _ := trivial
  inverted := trivial

/-- A run of the work changes the block, its registers and its timer, and
leaves traces in the history. -/
theorem of_work_frame {op : Op} {s t : Machine} {reply : op.Resp} (work : op.ofWork)
    (step : Machine.perform op s = some (reply, t)) :
    t = { s with
      regs := t.regs, comparePending := t.comparePending, history := t.history, block := t.block
      timerArmed := t.timerArmed } := by
  cases op with
  | readl reg =>
      cases step
      cases reg <;> rfl
  | writel reg value =>
      cases step
      cases reg <;> rfl
  | mark point =>
      cases step
      cases point <;> rfl
  | hrtimerCancel =>
      simp only [Machine.perform] at step
      split at step
      · contradiction
      · cases step
        rfl
  | load | store | outputDesiredGet | sample | ktimeGetReal | hrtimerStart | msleep =>
      cases step
      rfl
  | _ => contradiction

/-- Accesses that do not start the timer. -/
def Untimed : Op → Prop
  | .hrtimerStart _ => False
  | _ => True

theorem untimed_halting : Halting Untimed where
  readl _ := trivial
  load := trivial
  sample _ _ := trivial
  real := trivial
  desired := trivial
  sleep _ := trivial
  looked := trivial
  duty _ := trivial
  periodic _ := trivial
  data _ _ _ := trivial
  disable _ _ := trivial
  halt := trivial

theorem untimed_performs (op : Op) (s : Machine) (reply : op.Resp) (t : Machine)
    (untimed : Untimed op) (step : Machine.perform op s = some (reply, t))
    (off : s.timerArmed = false) : t.timerArmed = false := by
  cases op with
  | readl reg =>
      cases step
      cases reg <;> exact off
  | writel reg value =>
      cases step
      cases reg <;> exact off
  | publish request =>
      cases step
      simp only [Machine.publish]
      split <;> exact off
  | mark point =>
      cases step
      cases point <;> exact off
  | hrtimerStart expires => exact untimed.elim
  | hrtimerCancel | cancelOneshotStopSync | cancelWorkEnd =>
      simp only [Machine.perform] at step
      split at step
      all_goals
        cases step
        try first | exact off | rfl
  | _ =>
      cases step
      exact off

end Tgpio

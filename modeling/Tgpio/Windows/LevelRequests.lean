import Tgpio.Windows.LevelMirror

/-!
# Requests and the level

What every start, stop, switch to an input and report finds of the level, and
that the mirror survives any run of them.
-/

namespace Tgpio.Windows

open Interference Interference.Prog

set_option autoImplicit false

/-! ## Starting -/

/-- The part of `tgpio_hw_start_output` after its fold. -/
def hwAimOutput (index : BlockIndex) (ctrl : BitVec 32)
    (highCycles lowCycles firstEdgeArt : Nat) : WinProg (Except NtStatus Unit) := do
  writeCompv index 0
  writePiv index 0
  let ctrl := ctlWithout ctrl (ctlDir ||| ctlEp ||| ctlPm)
  writeCtl index ctrl
  let dev ← getDevice
  let nowArt ← artNow dev
  let firstEdgeArt := if firstEdgeArt = 0 then u64 (nowArt + artNsToCycles dev autoStartNs)
    else firstEdgeArt
  let slot := startSlot (dev.block index).flopHigh firstEdgeArt highCycles lowCycles
  let deadline := u64 (nowArt + artNsToCycles dev armMarginNs)
  match lateArmGuard slot deadline (highCycles + lowCycles) with
  | none => return .error .integerOverflow
  | some first => do
    hwEnableOutput index ctrl highCycles lowCycles
      (if (dev.block index).flopHigh then lowCycles else highCycles) first
    return .ok ()

theorem hw_start_output_shape (index : BlockIndex) {highCycles lowCycles : Nat}
    (inRange : ¬outOfRange highCycles lowCycles) (firstEdgeArt : Nat) :
    hwStartOutput index highCycles lowCycles firstEdgeArt =
      (stopEngine index).bind fun ctrl => (hwFlopFold index).bind fun _ =>
        hwAimOutput index (ctlWithout ctrl ctlEn) highCycles lowCycles firstEdgeArt := by
  unfold outOfRange at inRange
  rw [hwStartOutput, if_neg inRange]
  rfl

/-- The waveform on record starts at the slot for this level. -/
def Picked (highCycles lowCycles requested : Nat) (flop : Bool) (block : WinBlock) : Prop :=
  ∃ (dev : WinDevice) (nowArt : Nat),
    lateArmGuard
      (startSlot flop (if requested = 0 then u64 (nowArt + artNsToCycles dev autoStartNs)
        else requested) highCycles lowCycles)
      (u64 (nowArt + artNsToCycles dev armMarginNs)) (highCycles + lowCycles) =
        some block.ckptCompv ∧
    block.hwPiv = (if flop then lowCycles else highCycles) ∧ block.flopHigh = flop

theorem start_slot_le {flop : Bool} {requested highCycles lowCycles : Nat}
    (bound : requested ≤ u64Max) : startSlot flop requested highCycles lowCycles ≤ u64Max := by
  have wrapped (sum : Nat) : u64 sum ≤ u64Max := by
    have small := Nat.mod_lt sum (show 0 < 2 ^ 64 by decide)
    unfold u64 u64Max
    omega
  have delayed : (if requested > artHwDelayCycles then requested - artHwDelayCycles
      else requested) ≤ u64Max := by
    split <;> omega
  unfold startSlot
  generalize (if requested > artHwDelayCycles then requested - artHwDelayCycles
    else requested) = slot at delayed ⊢
  dsimp only
  split
  · split
    · omega
    · exact wrapped _
  · exact delayed

theorem late_arm_guard_le {slot deadline period first : Nat}
    (aimed : lateArmGuard slot deadline period = some first) (bound : slot ≤ u64Max) :
    first ≤ u64Max := by
  unfold lateArmGuard at aimed
  split at aimed
  · dsimp only at aimed
    split at aimed
    · contradiction
    · rename_i fits
      cases aimed
      have product := Nat.mul_le_mul_right period (Nat.not_lt.mp fits)
      have whole := Nat.div_mul_le_self (u64Max - slot) period
      omega
  · cases aimed
    exact bound

section starting

variable {index : BlockIndex} {block : WinBlock} {regs : Regs} {flop : Bool}

/-- The engine starts with the checkpoint at its first edge. -/
theorem triple_hw_enable_output {ctrl : BitVec 32} {highCycles lowCycles piv first : Nat}
    (off : hasEn ctrl = false) (same : block.flopHigh = flop) (stopped : drives regs = false)
    (positive : piv ≠ 0) (pivBound : piv ≤ u64Max) (bound : first ≤ u64Max) :
    Triple (lineSem index) (At index block regs flop)
      (hwEnableOutput index ctrl highCycles lowCycles piv first)
      fun _ o => Correct index o ∧
        o.block index = started highCycles lowCycles piv first block := by
  have wide (value : Nat) (bound : value ≤ u64Max) : (BitVec.ofNat 64 value).toNat = value := by
    rw [BitVec.toNat_ofNat, Nat.mod_eq_of_lt]
    unfold u64Max at bound
    omega
  have still (compv piv : BitVec 64) :
      drives ⟨ctlWith ctrl (ctlEpToggle ||| ctlPm), compv, piv⟩ = false :=
    drives_of_disabled (by simp [off])
  refine (triple_writel .ctl _ stopped (still _ _)).bind fun _ => ?_
  refine (triple_write_piv piv (still _ _)).bind fun _ => ?_
  refine (triple_write_compv first (still _ _)).bind fun _ => ?_
  refine (triple_store _ (still _ _)).bind fun _ => ?_
  refine Triple.call (stable_at (still _ _)) (fun _ s t step holds => ?_) ?_
  · exact ⟨stable_correct s t step holds.1, (line_env_later step).1.block.trans holds.2⟩
  · intro s reply t at_ step
    have enabled := writel_at at_ step
    refine ⟨?_, enabled.block⟩
    rw [Correct, enabled.block, enabled.regs, enabled.flop]
    refine .counting positive (wide piv pivBound) (wide first bound).ge ?_
    change flop = (block.flopHigh ^^ (((BitVec.ofNat 64 first).toNat - first) / piv).bodd)
    rw [wide first bound, same]
    simp

/-- From the fold on a start succeeds with the slot for the level, or leaves the
engine off. -/
theorem triple_hw_aim_output {ctrl : BitVec 32} {highCycles lowCycles requested : Nat}
    (inRange : ¬outOfRange highCycles lowCycles) (bound : requested ≤ u64Max)
    (off : hasEn ctrl = false) (stopped : drives regs = false) (same : block.flopHigh = flop) :
    Triple (lineSem index) (At index block regs flop)
      (hwAimOutput index ctrl highCycles lowCycles requested)
      fun status o => Correct index o ∧
        ((status = .ok () ∧ Picked highCycles lowCycles requested flop (o.block index)) ∨
          (status = .error .integerOverflow ∧ Off index o)) := by
  have cleared (compv piv : BitVec 64) :
      drives ⟨ctlWithout ctrl (ctlDir ||| ctlEp ||| ctlPm), compv, piv⟩ = false :=
    drives_of_disabled (by simp [off])
  refine Triple.bind (triple_write_compv 0 stopped) fun _ => ?_
  refine Triple.bind (triple_write_piv 0 stopped) fun _ => ?_
  refine Triple.bind (triple_writel .ctl _ stopped (cleared _ _)) fun _ => ?_
  refine Triple.bind (triple_get_device_at (cleared _ _)) fun dev => ?_
  rintro s ⟨known, at_⟩
  refine Triple.bind (triple_art_now dev (cleared _ _)) (fun nowArt => ?_) s at_
  have aimedAt : (if requested = 0 then u64 (nowArt + artNsToCycles dev autoStartNs)
      else requested) ≤ u64Max := by
    have small := Nat.mod_lt (nowArt + artNsToCycles dev autoStartNs) (show 0 < 2 ^ 64 by decide)
    split
    · unfold u64 u64Max
      omega
    · exact bound
  dsimp only
  rw [known, same]
  cases aimed : lateArmGuard
      (startSlot flop (if requested = 0 then u64 (nowArt + artNsToCycles dev autoStartNs)
        else requested) highCycles lowCycles)
      (u64 (nowArt + artNsToCycles dev armMarginNs)) (highCycles + lowCycles) with
  | none =>
      refine Triple.pure (stable_at (cleared _ _)) fun o at_ => ⟨?_, .inr ⟨rfl, ?_, ?_⟩⟩
      · rw [Correct, at_.block, at_.regs, at_.flop]
        exact .resting (cleared _ _) (.inr (Nat.zero_le _)) same.symm
      · rw [at_.regs]
        simp [off]
      · rw [at_.block, at_.flop, same]
  | some first =>
      have positive : (if flop then lowCycles else highCycles) ≠ 0 := by
        unfold outOfRange at inRange
        split <;> omega
      have pivBound : (if flop then lowCycles else highCycles) ≤ u64Max := by
        unfold outOfRange u64Max at inRange
        unfold u64Max
        split <;> omega
      refine (triple_hw_enable_output (by simp [off]) same (cleared _ _) positive pivBound
        (late_arm_guard_le aimed (start_slot_le aimedAt))).bind fun _ => ?_
      refine Triple.pure (fun s t step holds => ?_) fun o holds => ?_
      · exact ⟨stable_correct s t step holds.1, (line_env_later step).1.block.trans holds.2⟩
      · refine ⟨holds.1, .inl ⟨rfl, dev, nowArt, ?_⟩⟩
        rw [holds.2]
        exact ⟨aimed, rfl, same⟩

end starting

/-! ## Requests -/

/-- The requests under which the mirror is followed. -/
def Request.followed : Request → Bool
  | .setInput .. | .startOutput .. | .stopOutput _ | .getBlock _ => true
  | .readCapture _ | .invertOutput _ => false

/-- What a request says and goes by, when it found the mirror correct. -/
def Tells (index : BlockIndex) (s : Observed) (request : Request)
    (status : Except NtStatus Reply) (t : Observed) : Prop :=
  let folds (u v : Observed) :=
    Contains (lineSem index) (hwFlopFold index) u () v (serve index request) s status t
  match request with
  | .getBlock _ => ∃ v answer, folds s v ∧ Folds index s v ∧
      status = .ok (.block answer) ∧ answer.flopHigh = (v.block index).flopHigh
  | .stopOutput _ => Off index t ∧ ∃ u v, folds u v ∧ StopsAt index u v
  | .setInput _ _ edge => (inputEdgeBits edge).isSome → (s.block index).mode = .output →
      ∃ u v, folds u v ∧ StopsAt index u v
  | .startOutput _ highCycles _ firstEdgeArt =>
      (∃ u v, folds u v ∧ StopsAt index u v ∧
        ((status = .ok .done ∧ Picked highCycles.toNat highCycles.toNat firstEdgeArt.toNat
            (v.line index).flop (t.block index)) ∨
          (status = .error .integerOverflow ∧ Off index t))) ∨
      ((status = .error .invalidParameter ∨ status = .error .notSupported) ∧
        ∃ mode, Later index (s.recorded index (withMode mode (s.block index))) t)
  | .readCapture _ | .invertOutput _ => True

section serving

variable {index : BlockIndex}

theorem stable_correct_block (kept : WinBlock → Prop) :
    Stable (lineSem index) fun o => Correct index o ∧ kept (o.block index) := by
  intro s t step holds
  refine ⟨stable_correct s t step holds.1, ?_⟩
  rw [(line_env_later step).1.block]
  exact holds.2

theorem stable_correct_off : Stable (lineSem index) fun o => Correct index o ∧ Off index o := by
  intro s t step holds
  obtain ⟨n, ran⟩ := (line_env_later step).1
  have still := ran.unmoved (drives_of_disabled holds.2.disabled)
  refine ⟨stable_correct s t step holds.1, ?_, ?_⟩
  · rw [still.1, holds.2.disabled]
  · rw [ran.block, still.2, holds.2.level]

/-- Updates of the record that do not concern the level. -/
theorem correct_recorded {o : Observed} {block : WinBlock} (correct : Correct index o)
    (piv : block.hwPiv = (o.block index).hwPiv) (ckpt : block.ckptCompv = (o.block index).ckptCompv)
    (high : block.flopHigh = (o.block index).flopHigh) : Correct index (o.recorded index block) := by
  rw [Correct, recorded_block]
  cases correct with
  | counting positive same ahead level =>
      refine .counting ?_ ?_ ?_ ?_
      · rw [piv]
        exact positive
      · rw [piv]
        exact same
      · rw [ckpt]
        exact ahead
      · rw [high, ckpt, piv]
        exact level
  | resting stopped nothing level =>
      refine .resting stopped ?_ ?_
      · rw [piv, ckpt]
        exact nothing
      · rw [high]
        exact level

/-- Recording a mode, with the answer that follows. -/
theorem triple_with_mode {α : Type} {pre : Observed → Prop} (stable : Stable (lineSem index) pre)
    (mode : BlockMode) (value : α)
    (keeps : ∀ o, pre o → pre (o.recorded index (withMode mode (o.block index)))) :
    Triple (lineSem index) pre (storeBlock index (withMode mode) >>= fun _ => Pure.pure value)
      fun answer o => answer = value ∧ pre o := by
  refine Triple.via (fun _ => pre) ?_ fun _ => Triple.pure stable fun o holds => ⟨rfl, holds⟩
  refine Triple.call stable (fun _ => stable) ?_
  intro s reply t holds step
  obtain rfl := store_recorded step
  exact keeps s holds

theorem triple_hw_set_input (enable : Bool) (edgeBits : BitVec 32) :
    Triple (lineSem index) (Correct index) (hwSetInput index enable edgeBits)
      fun _ => Correct index := by
  refine triple_read_ctl_correct.bind fun ctrl => ?_
  have written (value : BitVec 32) (still : hasEn value = false ∨ hasDir value = true) :
      Triple (lineSem index) (Correct index) (writeCtl index value) fun _ => Correct index :=
    (triple_write_ctl_correct value still).post fun _ o holds => holds.1
  refine (written _ (.inl (by simp))).bind fun _ => ?_
  cases enable with
  | false => exact Triple.pure stable_correct fun o correct => correct
  | true =>
      refine (written _ (.inr (by simp))).bind fun _ => ?_
      exact written _ (.inr (by simp))

theorem stop_output_tells {block : BitVec 32} {s t : Observed} {status : Except NtStatus Reply}
    (correct : Correct index s)
    (run : Executes (lineSem index) (serve index (.stopOutput block)) s status t) :
    Correct index t ∧ Tells index s (.stopOutput block) status t := by
  obtain ⟨_, m, stopping, recording⟩ := Executes.split run
  obtain ⟨kept, off, u, v, stops, contains⟩ := hw_stop_output_off correct stopping
  have left := (triple_with_mode stable_correct_off .off (.ok .done : Except NtStatus Reply)
    fun o holds => ⟨correct_recorded holds.1 rfl rfl rfl, holds.2.disabled, by
      rw [recorded_block]
      exact holds.2.level⟩).ends ⟨kept, off⟩ recording
  exact ⟨left.2.1, left.2.2, u, v, contains.bind recording, stops⟩

/-- Accesses that let edges pass and nothing else. -/
def Peeks (index : BlockIndex) (op : WinOp) : Prop :=
  ∀ s reply t, Observed.perform s index op = some (reply, t) → Later index s t

theorem peeks_readl (reg : WinReg) : Peeks index (.readl index reg) :=
  fun _ _ _ step => ⟨0, (readl_still step).2.1⟩

theorem get_block_tells {block : BitVec 32} {s t : Observed} {status : Except NtStatus Reply}
    (correct : Correct index s)
    (run : Executes (lineSem index) (serve index (.getBlock block)) s status t) :
    Correct index t ∧ Tells index s (.getBlock block) status t := by
  obtain ⟨_, v, fold, reporting⟩ := Executes.split run
  have folds := wp_executes (hw_flop_fold_folds correct) fold
  let kept (o : Observed) : Prop := Correct index o ∧ o.block index = v.block index
  have later {o o' : Observed} (passed : Later index o o') (holds : kept o) : kept o' :=
    ⟨holds.1.later passed, passed.block.trans holds.2⟩
  have stable : Stable (lineSem index) kept := fun s t step => later (line_env_later step).1
  have peeking {α : Type} {program : WinProg α} (uses : Uses (Peeks index) program) :
      Triple (lineSem index) kept program fun _ => kept :=
    fun s holds => wp_uses uses (fun op s reply t peeks step => later (peeks s reply t step)) stable
      holds
  have report : Triple (lineSem index) kept
      (do
        let dev ← getDevice
        let ctl ← readCtl index
        let compv ← readCompv index
        let piv ← readPiv index
        let capture ← readCapture index
        return (.ok (.block ⟨(dev.block index).mode, ctl, compv, piv, capture.eventCount,
          (dev.block index).flopHigh⟩) : Except NtStatus Reply))
      fun status o => kept o ∧ ∃ answer, status = .ok (.block answer) ∧
        answer.flopHigh = (v.block index).flopHigh := by
    refine Triple.via (fun dev o => dev.block index = v.block index ∧ kept o) ?_ fun dev => ?_
    · refine Triple.call stable (fun _ s t step holds => ⟨holds.1, stable s t step holds.2⟩) ?_
      intro s reply t holds step
      obtain ⟨rfl, rfl⟩ := device_still step
      exact ⟨holds.2, holds⟩
    · rintro o ⟨known, holds⟩
      refine Triple.bind (peeking ((uses_perform _).mpr (peeks_readl _))) (fun ctl => ?_) o holds
      refine Triple.bind (peeking (read_compv_uses peeks_readl)) fun compv => ?_
      refine Triple.bind (peeking (read_piv_uses peeks_readl)) fun piv => ?_
      refine Triple.bind (peeking (read_capture_uses peeks_readl)) fun capture => ?_
      refine Triple.pure stable fun o holds => ⟨holds, _, rfl, ?_⟩
      rw [known]
  obtain ⟨holds, answer, same, high⟩ := report.ends ⟨folds.correct, rfl⟩ reporting
  exact ⟨holds.1, v, answer, .here fold reporting, folds, same, high⟩

theorem set_input_tells {block enable edge : BitVec 32} {s t : Observed}
    {status : Except NtStatus Reply} (correct : Correct index s)
    (run : Executes (lineSem index) (serve index (.setInput block enable edge)) s status t) :
    Correct index t ∧ Tells index s (.setInput block enable edge) status t := by
  have shape : serve index (.setInput block enable edge) = setInput index enable edge := rfl
  unfold setInput at shape
  cases known : inputEdgeBits edge with
  | none =>
      rw [known] at shape
      rw [shape] at run
      cases run with
      | ret rely =>
          refine ⟨correct.later (rely_later rely), fun valid => ?_⟩
          rw [known] at valid
          contradiction
  | some edgeBits =>
      rw [known] at shape
      -- what is left to do once an output has been stopped
      let switch : WinProg (Except NtStatus Reply) := do
        hwSetInput index (enable ≠ 0) edgeBits
        storeBlock index (withMode (if enable ≠ 0 then .input else .off))
        return .ok .done
      have switched : Triple (lineSem index) (Correct index) switch fun _ => Correct index := by
        refine Triple.bind (triple_hw_set_input _ _) fun _ => ?_
        refine Triple.post (triple_with_mode stable_correct _ _ fun o correct =>
          correct_recorded correct rfl rfl rfl) fun _ o holds => holds.2
      rw [shape] at run
      obtain ⟨dev, m, asking, run⟩ := Executes.split run
      have asked := (Triple.call (fun a b step holds => ⟨stable_correct a b step holds.1,
          (line_env_later step).1.block.trans holds.2⟩)
        (fun dev a b step holds => ⟨stable_correct a b step holds.1, holds.2⟩)
        (fun a dev b holds step => by
          obtain ⟨rfl, rfl⟩ := device_still step
          exact ⟨holds.1, holds.2⟩) :
        Triple (lineSem index) (fun o => Correct index o ∧ o.block index = s.block index) getDevice
          fun dev o => Correct index o ∧ dev.block index = s.block index).ends ⟨correct, rfl⟩ asking
      obtain ⟨correctAt, record⟩ := asked
      by_cases output : (s.block index).mode = .output
      · rw [record, if_pos output] at run
        obtain ⟨_, w, stopping, switching⟩ := Executes.split run
        obtain ⟨kept, off, u, v, stops, contains⟩ := hw_stop_output_off correctAt stopping
        refine ⟨switched.ends kept switching, fun _ _ => ⟨u, v, ?_, stops⟩⟩
        rw [shape]
        refine .later asking ?_
        rw [record, if_pos output]
        exact contains.bind switching
      · rw [record, if_neg output] at run
        refine ⟨switched.ends correctAt run, fun _ isOutput => absurd isOutput output⟩

theorem start_output_tells {block : BitVec 32} {highCycles lowCycles firstEdgeArt : BitVec 64}
    {s t : Observed} {status : Except NtStatus Reply} (correct : Correct index s)
    (run : Executes (lineSem index)
      (serve index (.startOutput block highCycles lowCycles firstEdgeArt)) s status t) :
    Correct index t ∧
      Tells index s (.startOutput block highCycles lowCycles firstEdgeArt) status t := by
  have refused (done : Later index s t)
      (why : status = .error .invalidParameter ∨ status = .error .notSupported) :
      Correct index t ∧
        Tells index s (.startOutput block highCycles lowCycles firstEdgeArt) status t :=
    ⟨correct.later done, .inr ⟨why, (s.block index).mode, (recorded_same rfl).trans done⟩⟩
  have shape : serve index (.startOutput block highCycles lowCycles firstEdgeArt) =
    startOutput index highCycles lowCycles firstEdgeArt := rfl
  unfold startOutput at shape
  by_cases zero : highCycles = 0
  · rw [shape, if_pos zero] at run
    cases run with
    | ret rely => exact refused (rely_later rely) (.inl rfl)
  by_cases uneven : (if lowCycles ≠ 0 then lowCycles else highCycles) ≠ highCycles
  · rw [shape, if_neg zero, if_pos uneven] at run
    cases run with
    | ret rely => exact refused (rely_later rely) (.inr rfl)
  rw [if_neg zero, if_neg uneven] at shape
  rw [not_not] at uneven
  rw [uneven] at shape
  rw [shape] at run
  obtain ⟨answer, m, starting, recording⟩ := Executes.split run
  by_cases range : outOfRange highCycles.toNat highCycles.toNat
  · have refusal : hwStartOutput index highCycles.toNat highCycles.toNat firstEdgeArt.toNat =
        Prog.ret (.error .invalidParameter) := by
      unfold outOfRange at range
      rw [hwStartOutput, if_pos range]
      rfl
    rw [refusal] at starting
    cases starting with
    | ret before =>
        cases recording with
        | call rely step rest =>
            cases rest with
            | ret after =>
                obtain rfl := store_recorded step
                have reached := (rely_later before).trans (rely_later rely)
                have passed := reached.recorded (withMode .off (s.block index))
                rw [← reached.block] at passed
                refine ⟨?_, .inr ⟨.inl rfl, .off, ?_⟩⟩
                · apply Correct.later ?_ (rely_later after)
                  exact correct_recorded (correct.later reached) rfl rfl rfl
                · rw [← reached.block]
                  exact passed.trans (rely_later after)
  · obtain ⟨ctrl, u, v, contains, stops, closing⟩ :=
      stop_contains (hw_start_output_shape index range _) correct starting
    have still := drives_of_disabled stops.disabled
    have bound : firstEdgeArt.toNat ≤ u64Max := by
      have small := firstEdgeArt.isLt
      unfold u64Max
      omega
    obtain ⟨kept, ⟨rfl, picked⟩ | ⟨rfl, off⟩⟩ :=
      (triple_hw_aim_output range bound (by simp) still stops.level).ends ⟨rfl, rfl, rfl⟩ closing
    · obtain ⟨rfl, holds⟩ := (triple_with_mode (stable_correct_block _) .output _ fun o holds =>
        ⟨correct_recorded holds.1 rfl rfl rfl, by
          rw [recorded_block]
          exact holds.2⟩).ends ⟨kept, picked⟩ recording
      refine ⟨holds.1, .inl ⟨u, v, ?_, stops, .inl ⟨rfl, holds.2⟩⟩⟩
      rw [shape]
      exact contains.bind recording
    · obtain ⟨rfl, holds⟩ := (triple_with_mode stable_correct_off .off _ fun o holds =>
        ⟨correct_recorded holds.1 rfl rfl rfl, holds.2.disabled, by
          rw [recorded_block]
          exact holds.2.level⟩).ends ⟨kept, off⟩ recording
      refine ⟨holds.1, .inl ⟨u, v, ?_, stops, .inr ⟨rfl, holds.2⟩⟩⟩
      rw [shape]
      exact contains.bind recording

theorem serve_tells {request : Request} {s t : Observed} {status : Except NtStatus Reply}
    (correct : Correct index s) (followed : request.followed = true)
    (run : Executes (lineSem index) (serve index request) s status t) :
    Correct index t ∧ Tells index s request status t := by
  cases request with
  | setInput block enable edge => exact set_input_tells correct run
  | startOutput block highCycles lowCycles firstEdgeArt => exact start_output_tells correct run
  | stopOutput block => exact stop_output_tells correct run
  | getBlock block => exact get_block_tells correct run
  | readCapture block => contradiction
  | invertOutput block => contradiction

end serving

/-! ## Runs -/

/-- One request served from beginning to end, edges coming meanwhile. -/
def Followed (index : BlockIndex) (s t : Observed) : Prop :=
  ∃ request status, request.followed = true ∧
    Executes (lineSem index) (serve index request) s status t

/-- The mirror survives every run of requests, wherever the edges fall, and
every request goes by it: each fold finds the level at its look, each stop and
each fold inside a start finds the level the pin has. -/
theorem mirror_survives_requests {index : BlockIndex} {first last : Observed}
    (correct : Correct index first) (run : Relation.ReflTransGen (Followed index) first last) :
    Correct index last ∧ ∀ request status next, request.followed = true →
      Executes (lineSem index) (serve index request) last status next →
      Correct index next ∧ Tells index last request status next := by
  have kept : Correct index last := by
    induction run with
    | refl => exact correct
    | tail _ served kept =>
        obtain ⟨request, status, followed, ran⟩ := served
        exact (serve_tells kept followed ran).1
  exact ⟨kept, fun request status next followed ran => serve_tells kept followed ran⟩

section oneRun

def freshBlock : Observed := ⟨freshMachine, freshMachine.line firstBlock⟩

def oneEdge (o : Observed) : Observed := o.edgeMove firstBlock

theorem one_edge_rely (o : Observed) : (lineSem firstBlock).Rely o (oneEdge o) := by
  unfold oneEdge Observed.edgeMove
  split
  next runs => exact .single (.edge runs.1 runs.2)
  next => exact .refl

/-- The block after a request, with an edge before some of its accesses. -/
def served (moves : List (Observed → Observed)) (request : Request) (o : Observed) : Observed :=
  finalState (fun op o => o.perform firstBlock op) 100 moves (serve firstBlock request) o

theorem served_executes {moves : List (Observed → Observed)}
    (simple : ∀ move ∈ moves, move = id ∨ move = oneEdge) {request : Request} {o : Observed}
    {status : Except NtStatus Reply}
    (ends : (exec (fun op o => Observed.perform o firstBlock op) 100 moves
      (serve firstBlock request) o).map Prod.fst = some status) :
    Executes (lineSem firstBlock) (serve firstBlock request) o status (served moves request o) := by
  refine exec_final (fun _ _ _ _ step => step) 100 moves (fun move member s => ?_) _ o status ends
  rcases simple move member with rfl | rfl
  · exact .refl
  · exact one_edge_rely s

def generatingBlock : Observed := served [] (.startOutput 0 1000 0 0) freshBlock

/-- One edge before the fold looks, one between its look and its report. -/
def reportMoves : List (Observed → Observed) := [id, id, oneEdge, id, oneEdge]

def reportedBlock : Observed := served reportMoves (.getBlock 0) generatingBlock

theorem mirror_survives_requests_reported :
    Correct firstBlock reportedBlock ∧ (reportedBlock.line firstBlock).flop = false ∧
      ∃ v, ∃ answer : BlockStatus, Folds firstBlock generatingBlock v ∧ answer.flopHigh = true ∧
        answer.flopHigh = (v.block firstBlock).flopHigh := by
  have fresh : Correct firstBlock freshBlock := .resting rfl (.inl rfl) rfl
  have started : Relation.ReflTransGen (Followed firstBlock) freshBlock generatingBlock :=
    .single ⟨.startOutput 0 1000 0 0, .ok .done, rfl,
      served_executes (by simp) (by decide +kernel)⟩
  have survived := mirror_survives_requests fresh started
  have reported := survived.2 (.getBlock 0) _ reportedBlock rfl
    (@served_executes reportMoves (by simp [reportMoves]) _ _ _ (by rfl))
  obtain ⟨kept, v, answer, -, folds, same, high⟩ := reported
  refine ⟨kept, by decide +kernel, v, answer, folds, ?_, high⟩
  cases same
  rfl

end oneRun

end Tgpio.Windows

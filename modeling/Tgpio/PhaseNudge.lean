import Tgpio.PhaseSlots

/-!
# A tick of a clock model, left alone

Nothing happens while the tick runs, so what it does is known from the state it
starts in: it measures the pending edge, and then leaves it, writes the compare
value of the nearest point of the grid, or arms again. The writes to COMPV are
kept in a trace.
-/

namespace Tgpio

open Interference Interference.Prog

set_option autoImplicit false

def compareNote : Op → List (Reg × BitVec 32)
  | .writel .compv31_0 value => [(.compv31_0, value)]
  | .writel .compv63_32 value => [(.compv63_32, value)]
  | _ => []

def Unnoted (op : Op) : Prop := compareNote op = []

abbrev compareTraced : Handler Op Op.Resp (Machine × List (Reg × BitVec 32)) :=
  traced Machine.perform compareNote

def compareWrites (compv : Nat) : List (Reg × BitVec 32) :=
  [(.compv63_32, upper32Bits compv), (.compv31_0, lower32Bits compv)]

/-- A tick from `m`, the words it writes to COMPV, and the state it ends in. -/
def Ticks (desired : OutputDesired) (m : Machine) (writes : List (Reg × BitVec 32)) (t : Machine) :
    Prop :=
  Executes (alone compareTraced) (hwPeriodicApplyFreq desired) (m, []) () (t, writes)

def modelPhase (params : Params) (clocks : Clocks) (gridStartNs : Int) (halfNs compv : Nat) :
    Except Errno HwPhase :=
  if halfNs = 0 ∨ halfNs > s64Max / 4 ∨ gridStartNs < 0 then .error .einval
  else if compv = 0 ∨ compv > u64Max - artHwDelayCycles then .error .erange
  else match phasePending (clockArtToNs params clocks (compv + artHwDelayCycles))
      (clockNowNs params clocks) clocks.outputPhaseOffsetNs gridStartNs halfNs with
    | .error status => .error status
    | .ok (pending, now) => .ok ⟨pending, phaseError pending gridStartNs halfNs,
        pending ≥ toS64 (now + outputSafeTimeNs)⟩

section alone

variable {block : MmioBlock} {regs : Regs} {flop : Bool} {params : Params} {clocks : Clocks}
  {desired : OutputDesired}

theorem grid_phase_model (model : params.clockUsesModel = true) (gridStartNs : Int)
    (halfNs compv : Nat) : gridPhase params clocks gridStartNs halfNs compv =
      modelPhase params clocks gridStartNs halfNs compv := by
  unfold gridPhase modelPhase
  rw [model]
  rfl

theorem achieves_model_get (model : params.clockUsesModel = true) (gridStartNs : Int)
    (halfNs : Nat) :
    Achieves standingStill (Standing block regs flop params clocks)
      (hwPeriodicPhaseGet gridStartNs halfNs)
      fun answer m => answer = modelPhase params clocks gridStartNs halfNs regs.compv.toNat ∧
        Standing block regs flop params clocks m := by
  rw [← grid_phase_model model]
  exact achieves_phase_get _ _

/-- A PIV refresh leaves COMPV and the control register as they are. -/
theorem achieves_any_refresh (piv : U64Result) :
    Achieves standingStill (Standing block regs flop params clocks) (refreshPiv piv)
      fun _ m => ∃ block piv, Standing block { regs with piv } flop params clocks m := by
  refine Achieves.bind_known achieves_load ?_
  cases piv with
  | error status => exact Achieves.pure fun m standing => ⟨block, regs.piv, standing⟩
  | ok piv =>
      dsimp only
      split
      · refine Achieves.bind (achieves_write_piv piv) fun _ => ?_
        exact (achieves_store _).post fun _ m standing => ⟨_, _, standing⟩
      · exact Achieves.pure fun m standing => ⟨block, regs.piv, standing⟩

theorem achieves_model_phase (model : params.clockUsesModel = true) :
    Achieves standingStill (Standing block regs flop params clocks) (tickPhase desired)
      fun answer m => answer = modelPhase params clocks desired.firstEdgeNs desired.highTimeNs
          regs.compv.toNat ∧
        ∃ block piv, Standing block { regs with piv } flop params clocks m := by
  refine Achieves.bind_known achieves_load ?_
  refine Achieves.bind_known (achieves_sample _) ?_
  refine Achieves.bind achieves_fold fun _ => ?_
  refine Achieves.bind (achieves_any_refresh _) fun _ => ?_
  rintro m ⟨block, piv, standing⟩
  obtain ⟨answer, t, ran, same, after⟩ :=
    @achieves_model_get block { regs with piv } flop params clocks model _ _ m standing
  exact ⟨answer, t, ran, same, block, piv, after⟩

theorem unnoted_folding : Folding Unnoted where
  readl _ := rfl
  load := rfl
  sample _ _ := rfl
  real := rfl
  desired := rfl
  sleep _ := rfl
  looked := rfl
  duty _ := rfl
  periodic _ := rfl

theorem tick_phase_unnoted : Uses Unnoted (tickPhase desired) := by
  refine Uses.seq ((uses_perform _).mpr unnoted_folding.load) fun block => ?_
  refine Uses.seq ((uses_perform _).mpr (unnoted_folding.sample _ _)) fun piv => ?_
  refine Uses.seq (hw_flop_fold_uses unnoted_folding) fun _ => ?_
  have refreshes : Uses Unnoted (refreshPiv piv) :=
    refresh_uses unnoted_folding.load (fun _ => rfl) (fun _ => rfl) (fun _ => rfl) piv
  refine Uses.seq refreshes fun _ => ?_
  exact hw_periodic_phase_get_uses unnoted_folding.toReading _ _

theorem traced_write_compv_paused (compv : Nat) (log : List (Reg × BitVec 32)) :
    Achieves compareTraced (fun s => Standing block regs flop params clocks s.1 ∧ s.2 = log)
      (hwPeriodicWriteCompvPaused compv) fun _ s =>
        (∃ block, Standing block { regs with compv := BitVec.ofNat 64 compv } flop params clocks
          s.1) ∧ s.2 = log ++ compareWrites compv := by
  have writes (known : Regs) (reg : Reg) (value : BitVec 32) (log : List (Reg × BitVec 32)) :
      Achieves compareTraced (fun s => Standing block known flop params clocks s.1 ∧ s.2 = log)
        (writel reg value) fun _ s =>
          Standing block (known.write reg value) flop params clocks s.1 ∧
            s.2 = log ++ compareNote (.writel reg value) := by
    have single := @achieves_writel (fun _ m => some m) block known flop params clocks reg value
    rw [waiting_still] at single
    exact single.traced_call log
  have reads : Achieves compareTraced
      (fun s => Standing block regs flop params clocks s.1 ∧ s.2 = log) readCtl fun ctrl s =>
        ctrl = regs.ctl ∧ Standing block regs flop params clocks s.1 ∧ s.2 = log := by
    have single := @achieves_readl (fun _ m => some m) block regs flop params clocks .ctl
    rw [waiting_still] at single
    have lifted :=
      @Achieves.traced _ _ _ _ _ _ _ compareNote _ _ single ((uses_perform _).mpr rfl) log
    exact lifted.post fun _ _ reached => ⟨reached.1.1, reached.1.2, reached.2⟩
  have stores (known : Regs) (log : List (Reg × BitVec 32)) :
      Achieves compareTraced (fun s => Standing block known flop params clocks s.1 ∧ s.2 = log)
        (storeBlock (checkpointed compv)) fun _ s =>
          Standing (checkpointed compv block) known flop params clocks s.1 ∧ s.2 = log := by
    have single := @achieves_store (fun _ m => some m) block known flop params clocks
      (checkpointed compv)
    rw [waiting_still] at single
    exact single.traced ((uses_perform _).mpr rfl) log
  refine Achieves.bind_known reads ?_
  refine Achieves.bind (writes _ _ _ _) fun _ => ?_
  refine Achieves.bind (Achieves.bind (writes _ _ _ _) fun _ => writes _ _ _ _) fun _ => ?_
  rw [write_compv_words]
  refine Achieves.bind (writes _ _ _ _) fun _ => ?_
  refine (stores _ _).post fun _ s reached => ⟨⟨_, reached.1⟩, reached.2.trans ?_⟩
  simp [compareNote, compareWrites]

theorem traced_nudge {phase : HwPhase} (near : ¬absS64 phase.errorNs > desired.highTimeNs / 4) :
    Achieves compareTraced (fun s => Standing block regs flop params clocks s.1 ∧ s.2 = [])
      (nudgePhase desired phase) fun _ s =>
        s.2 = (tickTarget params clocks phase).elim [] compareWrites ∧
          s.1.params = params ∧ s.1.clocks = clocks ∧
          ∀ target ∈ tickTarget params clocks phase, s.1.regs.compv = BitVec.ofNat 64 target := by
  have samples {α : Type} (read : Params → Clocks → α) : Achieves compareTraced
      (fun s => Standing block regs flop params clocks s.1 ∧ s.2 = []) (sample read) fun answer s =>
        answer = read params clocks ∧ Standing block regs flop params clocks s.1 ∧ s.2 = [] := by
    have single := @achieves_sample (fun _ m => some m) block regs flop params clocks α read
    rw [waiting_still] at single
    have lifted :=
      @Achieves.traced _ _ _ _ _ _ _ compareNote _ _ single ((uses_perform _).mpr rfl) []
    exact lifted.post fun _ _ reached => ⟨reached.1.1, reached.1.2, reached.2⟩
  have stays : ∀ s : Machine × List (Reg × BitVec 32),
      Standing block regs flop params clocks s.1 ∧ s.2 = [] →
      tickTarget params clocks phase = none →
      s.2 = (tickTarget params clocks phase).elim [] compareWrites ∧
        s.1.params = params ∧ s.1.clocks = clocks ∧
        ∀ target ∈ tickTarget params clocks phase, s.1.regs.compv = BitVec.ofNat 64 target := by
    rintro s ⟨standing, logged⟩ none_
    rw [none_]
    exact ⟨logged, standing.params, standing.clocks, nofun⟩
  unfold nudgePhase
  rw [if_neg near]
  refine Achieves.bind_known (samples _) ?_
  change Achieves _ _ (if phase.errorNs > -deadband params clocks ∧
    phase.errorNs < deadband params clocks then _ else _) _
  by_cases inside : phase.errorNs > -deadband params clocks ∧ phase.errorNs < deadband params clocks
  · rw [if_pos inside]
    exact Achieves.pure fun s known => stays s known (if_pos inside)
  rw [if_neg inside]
  by_cases imminent : ¬phase.nudgeSafe = true
  · rw [if_pos imminent]
    exact Achieves.pure fun s known => stays s known ((if_neg inside).trans (if_pos imminent))
  rw [if_neg imminent]
  refine Achieves.bind_known (samples _) ?_
  cases converted : clockNsToCompareArt params clocks
      (toS64 (phase.pendingNs - phase.errorNs)) with
  | error status =>
      refine Achieves.pure fun s known => stays s known ?_
      rw [tickTarget, if_neg inside, if_neg imminent, converted]
  | ok target =>
      have isTarget : tickTarget params clocks phase = some target := by
        rw [tickTarget, if_neg inside, if_neg imminent, converted]
      refine Achieves.bind (traced_write_compv_paused target []) fun _ => ?_
      rintro ⟨s, log⟩ ⟨⟨block, standing⟩, logged⟩
      have single := @achieves_store (fun _ m => some m) block
        { regs with compv := BitVec.ofNat 64 target } flop params clocks
        (edgeAt (toS64 (phase.pendingNs - phase.errorNs)))
      rw [waiting_still] at single
      have lifted := single.traced ((uses_perform _).mpr (rfl : compareNote _ = [])) log
      obtain ⟨value, t, ran, after, kept⟩ := lifted (s, log) ⟨standing, rfl⟩
      refine ⟨value, t, ran, ?_, after.params, after.clocks, ?_⟩
      · rw [isTarget, kept]
        exact logged
      · rw [isTarget]
        rintro _ ⟨⟩
        rw [after.regs]

theorem tick_measures (m : Machine) (model : m.params.clockUsesModel = true) :
    ∃ t block piv, Executes (alone compareTraced) (tickPhase desired) (m, [])
        (modelPhase m.params m.clocks desired.firstEdgeNs desired.highTimeNs m.regs.compv.toNat)
        (t, []) ∧
      Standing block ⟨m.regs.ctl, m.regs.compv, piv⟩ m.flop m.params m.clocks t := by
  have still : standingStill = Machine.perform := waiting_still
  have single := @achieves_model_phase m.block m.regs m.flop m.params m.clocks desired model
  rw [still] at single
  have lifted := single.traced tick_phase_unnoted []
  obtain ⟨answer, ⟨t, log⟩, ran, ⟨same, block, piv, standing⟩, logged⟩ :=
    lifted (m, []) ⟨⟨rfl, rfl, rfl, rfl, rfl⟩, rfl⟩
  obtain rfl : log = [] := logged
  exact ⟨t, block, piv, same ▸ ran, standing⟩

/-- A tick that finds no live edge writes nothing. -/
theorem ticks_blind {m : Machine} {status : Errno} (model : m.params.clockUsesModel = true)
    (blind : modelPhase m.params m.clocks desired.firstEdgeNs desired.highTimeNs
      m.regs.compv.toNat = .error status) : ∃ t, Ticks desired m [] t := by
  obtain ⟨t, block, piv, ran, -⟩ := @tick_measures desired m model
  rw [blind] at ran
  refine ⟨t, ?_⟩
  unfold Ticks
  rw [apply_freq_eq]
  exact ran.sequence (.ret .refl)

/-- A tick that is near the grid writes its target, if it has one. -/
theorem ticks_near {m : Machine} {phase : HwPhase} (model : m.params.clockUsesModel = true)
    (measured : modelPhase m.params m.clocks desired.firstEdgeNs desired.highTimeNs
      m.regs.compv.toNat = .ok phase) (near : ¬absS64 phase.errorNs > desired.highTimeNs / 4) :
    ∃ t, Ticks desired m ((tickTarget m.params m.clocks phase).elim [] compareWrites) t ∧
      t.params = m.params ∧ t.clocks = m.clocks ∧
      ∀ target ∈ tickTarget m.params m.clocks phase, t.regs.compv = BitVec.ofNat 64 target := by
  obtain ⟨t, block, piv, ran, standing⟩ := @tick_measures desired m model
  rw [measured] at ran
  obtain ⟨_, ⟨u, log⟩, after, logged, isParams, isClocks, isCompv⟩ :=
    traced_nudge near (t, []) ⟨standing, rfl⟩
  obtain rfl : log = _ := logged
  refine ⟨u, ?_, isParams, isClocks, isCompv⟩
  unfold Ticks
  rw [apply_freq_eq]
  exact ran.sequence after

theorem Ticks.unique {m t t' : Machine} {writes writes' : List (Reg × BitVec 32)}
    (ticks : Ticks desired m writes t) (other : Ticks desired m writes' t') :
    t' = t ∧ writes' = writes := by
  have same := (Executes.unique ticks other).2
  exact Prod.mk.inj same

end alone

section measuring

variable (params : Params) (clocks : Clocks) (gridStartNs : Int) (halfNs compv : Nat)

/-- A live edge as a tick of a clock model sees it. -/
structure Sighted (phase : HwPhase) (now : Int) : Prop where
  half : 0 < halfNs ∧ halfNs ≤ s64Max / 4
  grid : 0 ≤ gridStartNs
  compare : compv ≠ 0 ∧ compv ≤ u64Max - artHwDelayCycles
  placed : edgePlace params clocks compv = .ok phase.pendingNs
  read : clockNowNs params clocks = .ok now
  started : 0 ≤ now
  onGrid : gridStartNs ≤ phase.pendingNs
  live : toS64 (now - halfNs) ≤ phase.pendingNs ∧
    toS64 (phase.pendingNs - now) ≤ (4 * halfNs : Nat)
  error : phase.errorNs = phaseError phase.pendingNs gridStartNs halfNs
  safe : phase.nudgeSafe = decide (phase.pendingNs ≥ toS64 (now + outputSafeTimeNs))

variable {params clocks gridStartNs halfNs compv}

theorem Sighted.model_phase {phase : HwPhase} {now : Int}
    (measured : Sighted params clocks gridStartNs halfNs compv phase now) :
    modelPhase params clocks gridStartNs halfNs compv = .ok phase := by
  obtain ⟨half, grid, compare, placed, read, started, onGrid, live, error, safe⟩ := measured
  unfold modelPhase
  rw [if_neg (by omega), if_neg (by omega), read]
  unfold edgePlace at placed
  cases physical : clockArtToNs params clocks (compv + artHwDelayCycles) with
  | error status =>
      rw [physical] at placed
      contradiction
  | ok physicalNs =>
      rw [physical] at placed
      unfold phasePending
      dsimp only at placed ⊢
      rw [if_neg (by omega), placed]
      dsimp only
      rw [if_neg (by omega), if_neg (by omega)]
      cases phase
      dsimp only at error safe ⊢
      rw [error, safe]

theorem sighted_of {phase : HwPhase}
    (measured : modelPhase params clocks gridStartNs halfNs compv = .ok phase) :
    ∃ now, Sighted params clocks gridStartNs halfNs compv phase now := by
  unfold modelPhase at measured
  split at measured
  · contradiction
  next half =>
    split at measured
    · contradiction
    next compare =>
      unfold phasePending at measured
      cases physical : clockArtToNs params clocks (compv + artHwDelayCycles) with
      | error status =>
          rw [physical] at measured
          contradiction
      | ok physicalNs =>
          cases read : clockNowNs params clocks with
          | error status =>
              rw [physical, read] at measured
              contradiction
          | ok now =>
              rw [physical, read] at measured
              dsimp only at measured
              by_cases before : now < 0
              · rw [if_pos before] at measured
                contradiction
              rw [if_neg before] at measured
              cases placed : addS64 physicalNs (toS64 (-clocks.outputPhaseOffsetNs)) with
              | error status =>
                  rw [placed] at measured
                  contradiction
              | ok pending =>
                  rw [placed] at measured
                  dsimp only at measured
                  by_cases early : pending < gridStartNs
                  · rw [if_pos early] at measured
                    contradiction
                  rw [if_neg early] at measured
                  by_cases dead : pending < toS64 (now - halfNs) ∨
                      toS64 (pending - now) > (4 * halfNs : Nat)
                  · rw [if_pos dead] at measured
                    contradiction
                  rw [if_neg dead] at measured
                  cases measured
                  rw [not_or, not_lt, not_lt] at dead
                  refine ⟨now, by omega, by omega, by omega, ?_, read, by omega,
                    not_lt.mp early, dead, rfl, rfl⟩
                  rw [edgePlace, physical]
                  exact placed

end measuring

end Tgpio

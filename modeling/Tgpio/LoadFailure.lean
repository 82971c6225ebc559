import Tgpio.ModuleLoad

/-!
# A failed load

Init schedules the watchdog before it looks at a single parameter, the watchdog
schedules itself again at its end, and the code at `err_cleanup` does not cancel
it. `tgpio_input_exit` cancels it, and the refine work, and gives the PPS sources
back.
-/

namespace Tgpio

open Interference Interference.Prog

set_option autoImplicit false

/-- Waiting for its time, or in its handler. -/
def LoadState.Outstanding (work : Work) (s : LoadState) : Prop :=
  (s.work work).scheduled = true ∨ (s.work work).running = true

/-- Every access but the one that would end the work. -/
def Spares (work : Work) (op : LoadOp) : Prop := op ≠ .cancelSync work

/-- The accesses of init before its cleanup, which cancel nothing. -/
def Acquires (op : LoadOp) : Prop := ∀ work, Spares work op

/-- The accesses that leave the device as it is. -/
def Consults : LoadOp → Prop
  | .kzalloc | .store _ | .cancelSync _ | .kfree => False
  | _ => True

/-- Those that set the device up, with no more pins than blocks. -/
def SetsUp : LoadOp → Prop
  | .kzalloc | .cancelSync _ | .kfree => False
  | .store update => ∀ dev, dev.nPtpPins ≤ maxBlocks → (update dev).nPtpPins ≤ maxBlocks
  | _ => True

theorem Consults.sets_up (op : LoadOp) (consults : Consults op) : SetsUp op := by
  cases op <;> first | exact consults.elim | trivial

theorem SetsUp.acquires (op : LoadOp) (setsUp : SetsUp op) : Acquires op := by
  intro work cancels
  rw [cancels] at setsUp
  exact setsUp

section acquires

variable {α β : Type} (params : ModuleParams) (number : BlockNumber)

theorem uses_and_then {allowed : LoadOp → Prop} {first : Loader (Except Errno α)}
    {rest : α → Loader (Except Errno β)} (before : Uses allowed first)
    (after : ∀ value, Uses allowed (rest value)) : Uses allowed (andThen first rest) := by
  apply Uses.seq before
  intro result
  cases result with
  | error status => exact uses_pure _
  | ok value => exact after value

theorem consults_perform {op : LoadOp} (consults : Consults op) :
    Uses Consults (Prog.perform op : Loader op.Resp) := by
  rw [uses_perform]
  exact consults

theorem loaded_device_consults : Uses Consults loadedDevice := consults_perform (by trivial)

theorem schedule_consults (work : Work) : Uses Consults (schedule work) :=
  consults_perform (by trivial)

theorem consults_sets_up {program : Loader α} (consults : Uses Consults program) :
    Uses SetsUp program :=
  consults.mono Consults.sets_up

theorem sets_up_acquires {program : Loader α} (setsUp : Uses SetsUp program) :
    Uses Acquires program :=
  setsUp.mono SetsUp.acquires

theorem store_device_sets_up {update : LoadedDevice → LoadedDevice}
    (bounded : ∀ dev, dev.nPtpPins ≤ maxBlocks → (update dev).nPtpPins ≤ maxBlocks) :
    Uses SetsUp (storeDevice update) :=
  (@uses_perform _ LoadOp.Resp _ _).mpr bounded

theorem store_device_acquires (update : LoadedDevice → LoadedDevice) :
    Uses Acquires (storeDevice update) :=
  (@uses_perform _ LoadOp.Resp _ _).mpr fun _ cancels => by cases cancels

theorem map_mmio_block_sets_up : Uses SetsUp (mapMmioBlock params number) := by
  unfold mapMmioBlock
  split
  · exact uses_pure _
  · apply Uses.seq (consults_sets_up (consults_perform (by trivial)))
    intro region
    split
    · exact uses_pure _
    · apply Uses.seq (consults_sets_up (consults_perform (by trivial)))
      intro regs
      split
      · exact uses_pure _
      · refine (store_device_sets_up fun dev pins => ?_).seq fun _ => uses_pure _
        exact max_le pins number.isLt

theorem parse_block_sets_up : Uses SetsUp (parseBlock params number) := by
  unfold parseBlock
  split
  · exact uses_pure _
  · refine (store_device_sets_up fun dev pins => ?_).seq fun _ => ?_
    · exact pins
    · split <;> exact uses_pure _

theorem map_block_sets_up : Uses SetsUp (mapBlock params number) := by
  apply (consults_sets_up loaded_device_consults).seq
  intro dev
  split
  · exact uses_pure _
  · exact map_mmio_block_sets_up params number

theorem configure_mmio_blocks_sets_up : Uses SetsUp (configureMmioBlocks params) := by
  apply uses_and_then (parse_block_sets_up params _)
  intro _
  apply uses_and_then (parse_block_sets_up params _)
  intro _
  have mapped : Uses SetsUp
      (andThen (mapBlock params firstBlock) fun _ => mapBlock params secondBlock) :=
    uses_and_then (map_block_sets_up params _) fun _ => map_block_sets_up params _
  dsimp only
  split
  · refine (store_device_sets_up fun dev pins => ?_).seq fun _ => mapped
    exact pins
  · exact mapped

theorem pps_register_sets_up : Uses SetsUp ppsRegister := by
  have registers (number : BlockNumber) : Uses SetsUp (ppsRegisterBlock number) := by
    apply (consults_sets_up loaded_device_consults).seq
    intro dev
    split
    · exact uses_pure _
    · apply (consults_sets_up (consults_perform (by trivial))).seq
      intro registered
      exact store_device_sets_up fun _ pins => pins
  exact (registers firstBlock).seq fun _ => registers secondBlock

theorem art_init_consults : Uses Consults (artInit params) := by
  apply uses_and_then (consults_perform (by trivial))
  intro first
  have refined : Uses Consults
      (do schedule .artRefine; return .ok () : Loader (Except Errno Unit)) :=
    (schedule_consults _).seq fun _ => uses_pure _
  split
  · apply Uses.seq (consults_perform (by trivial))
    intro real
    apply Uses.seq (consults_perform (by trivial))
    intro rate
    cases rate with
    | error status => exact uses_pure _
    | ok rate =>
        cases real with
        | error status => exact uses_pure _
        | ok real =>
            dsimp only
            split
            · exact uses_pure _
            · exact refined
  · apply Uses.seq (consults_perform (by trivial))
    intro second
    split
    · exact uses_pure _
    · exact refined

theorem require_base_consults : Uses Consults requireBase := by
  apply Uses.seq (consults_perform (by trivial))
  intro hasBase
  split <;> exact uses_pure _

theorem resolve_art_frequency_consults : Uses Consults (resolveArtFrequency params) := by
  apply Uses.seq (consults_perform (by trivial))
  intro detected
  split
  · exact uses_pure _
  · split <;> exact uses_pure _

theorem init_clock_consults (clock : ClockMode) (timestamp : TimestampMode) :
    Uses Consults (initClock params clock timestamp) := by
  apply loaded_device_consults.seq
  intro dev
  split
  · apply uses_and_then require_base_consults
    intro _
    split
    · exact art_init_consults params
    · exact consults_perform (by trivial)
  · split
    · exact resolve_art_frequency_consults params
    · split
      · exact require_base_consults
      · exact uses_pure _

theorem register_ptp_clock_sets_up : Uses SetsUp registerPtpClock := by
  apply (consults_sets_up loaded_device_consults).seq
  intro dev
  split
  · exact uses_pure _
  · apply uses_and_then (consults_sets_up (consults_perform (by trivial)))
    intro _
    refine (store_device_sets_up fun dev pins => ?_).seq fun _ => uses_pure _
    exact pins

theorem config_input_consults (channel : Nat) : Uses Consults (configInput params channel) := by
  apply loaded_device_consults.seq
  intro dev
  split
  · exact uses_pure _
  · split
    · exact uses_pure _
    · exact (schedule_consults _).seq fun _ => uses_pure _

theorem start_persistent_operations_consults :
    Uses Consults (startPersistentOperations params) := by
  have tdc : Uses Consults (startTdc params) := by
    unfold startTdc
    split
    · exact uses_pure _
    · split
      · exact uses_pure _
      · apply loaded_device_consults.seq
        intro dev
        split
        · exact uses_pure _
        · exact uses_and_then (config_input_consults params _) fun _ =>
            config_input_consults params _
  have input (number : BlockNumber) : Uses Consults (startPersistentInput params number) := by
    unfold startPersistentInput
    split
    · exact uses_pure _
    · exact config_input_consults params _
  have output (number : BlockNumber) : Uses Consults (startPersistentOutputOf params number) := by
    unfold startPersistentOutputOf
    split
    · exact uses_pure _
    · exact uses_and_then (consults_perform (by trivial)) fun _ => uses_pure _
  unfold startPersistentOperations
  split
  · exact uses_pure _
  · apply uses_and_then tdc
    intro _
    apply uses_and_then (input firstBlock)
    intro _
    apply uses_and_then (input secondBlock)
    intro _
    exact uses_and_then (output firstBlock) fun _ => output secondBlock

theorem load_device_sets_up : Uses SetsUp (loadDevice params) := by
  apply uses_and_then (uses_pure _)
  intro clock
  apply uses_and_then (uses_pure _)
  intro timestamp
  apply uses_and_then (uses_pure _)
  intro _
  apply uses_and_then (configure_mmio_blocks_sets_up params)
  intro _
  apply pps_register_sets_up.seq
  intro _
  apply (consults_sets_up loaded_device_consults).seq
  intro dev
  apply uses_and_then (uses_pure _)
  intro _
  apply uses_and_then (consults_sets_up (init_clock_consults params clock timestamp))
  intro _
  apply uses_and_then register_ptp_clock_sets_up
  intro _
  apply uses_and_then (consults_sets_up (start_persistent_operations_consults params))
  intro _
  dsimp only
  split
  · exact (consults_sets_up (schedule_consults _)).seq fun _ => uses_pure _
  · exact uses_pure _

end acquires

section outstanding

variable {work : Work}

theorem outstanding_stable (rearms : work.rearms = true) :
    Stable loadSem (LoadState.Outstanding work) := by
  intro s t step outstanding
  cases step with
  | begins other scheduled =>
      by_cases same : work = other
      · subst same
        exact Or.inr (by simp [LoadState.setWork])
      · simpa [LoadState.Outstanding, LoadState.setWork, same] using outstanding
  | queues other queued _ _ =>
      by_cases same : work = queued
      · subst same
        exact Or.inl (by simp [LoadState.schedule, LoadState.setWork])
      · simpa [LoadState.Outstanding, LoadState.schedule, LoadState.setWork, same] using outstanding
  | ends other _ =>
      by_cases same : work = other
      · subst same
        exact Or.inl (by simp [LoadState.setWork, rearms])
      · simpa [LoadState.Outstanding, LoadState.setWork, same] using outstanding

theorem spares_outstanding (op : LoadOp) (s : LoadState) (reply : op.Resp) (t : LoadState)
    (spares : Spares work op) (step : loadSem.step op s reply t)
    (outstanding : s.Outstanding work) : t.Outstanding work := by
  obtain ⟨answers, step⟩ := step
  have scheduled (other : Work) : (s.schedule other).Outstanding work := by
    by_cases same : work = other
    · subst same
      exact Or.inl (by simp [LoadState.schedule, LoadState.setWork])
    · simpa [LoadState.Outstanding, LoadState.schedule, LoadState.setWork, same] using outstanding
  cases op with
  | schedule other =>
      cases step
      exact scheduled other
  | cancelSync other =>
      have same : work ≠ other := fun same => spares (by rw [same])
      simp only [LoadState.perform] at step
      split at step
      · contradiction
      · cases step
        simpa [LoadState.Outstanding, LoadState.setWork, same] using outstanding
  | startPersistentOutput number =>
      cases step
      cases answers.starts with
      | error status => exact outstanding
      | ok number => exact scheduled _
  | _ =>
      cases step
      exact outstanding

theorem spares_keeps_outstanding (rearms : work.rearms = true) {α : Type} {program : Loader α}
    (spares : Uses (Spares work) program) :
    Triple loadSem (LoadState.Outstanding work) program fun _ => LoadState.Outstanding work :=
  fun _ outstanding =>
    wp_uses spares spares_outstanding (outstanding_stable rearms) outstanding

end outstanding

/-- The device has been freed with this work outstanding. -/
def FreedUnder (work : Work) (s : LoadState) : Prop :=
  ∃ left, s.freed = some left ∧ ¬(left.work work).idle

section failure

theorem handlers_free_nothing {s t : LoadState} (step : Handlers s t) :
    t.freed = s.freed ∧ t.allocated = s.allocated ∧ t.device = s.device := by
  cases step <;> exact ⟨rfl, rfl, rfl⟩

theorem freed_under_stable (work : Work) : Stable loadSem (FreedUnder work) := by
  intro s t step freed
  unfold FreedUnder
  rw [(handlers_free_nothing step).1]
  exact freed

theorem outstanding_not_idle {work : Work} {s : LoadState} (outstanding : s.Outstanding work) :
    ¬(s.work work).idle := by
  rintro ⟨unscheduled, resting⟩
  rcases outstanding with scheduled | running
  · simp [scheduled] at unscheduled
  · simp [running] at resting

theorem cancel_sync_spares {work other : Work} (differs : other ≠ work) :
    Uses (Spares work) (cancelSync other) :=
  (@uses_perform _ LoadOp.Resp _ _).mpr (by simpa [Spares] using differs)

theorem disable_mmio_blocks_spares : Uses (Spares .watchdog) disableMmioBlocks := by
  have block (number : BlockNumber) : Uses (Spares .watchdog) (cancelOutputBlock number) := by
    apply ((sets_up_acquires (consults_sets_up loaded_device_consults)).mono fun op acquires =>
      acquires .watchdog).seq
    intro dev
    split
    · exact uses_pure _
    · apply (cancel_sync_spares (by simp)).seq
      intro _
      apply (cancel_sync_spares (by simp)).seq
      intro _
      apply (cancel_sync_spares (by simp)).seq
      intro _
      apply (cancel_sync_spares (by simp)).seq
      intro _
      exact cancel_sync_spares (by simp)
  apply (cancel_sync_spares (by simp)).seq
  intro _
  exact (block firstBlock).seq fun _ => block secondBlock

theorem schedule_outstanding {work : Work} (rearms : work.rearms = true) :
    Triple loadSem (fun _ => True) (schedule work) fun _ => LoadState.Outstanding work := by
  apply Triple.call (fun _ _ _ _ => trivial) fun _ => outstanding_stable rearms
  intro s reply t _ step
  obtain ⟨answers, step⟩ := step
  cases step
  exact Or.inl (by simp [LoadState.schedule, LoadState.setWork])

/-- The code at `err_cleanup` neither cancels the watchdog nor waits for it. -/
theorem err_cleanup_leaves_watchdog :
    Triple loadSem (LoadState.Outstanding .watchdog) errCleanup
      fun _ => FreedUnder .watchdog := by
  have stores (update : LoadedDevice → LoadedDevice) :
      Uses (Spares .watchdog) (storeDevice update) :=
    (store_device_acquires update).mono fun op acquires => acquires .watchdog
  apply Triple.bind (spares_keeps_outstanding rfl (stores _))
  intro _
  apply Triple.bind (spares_keeps_outstanding rfl disable_mmio_blocks_spares)
  intro _
  apply Triple.bind (spares_keeps_outstanding rfl (stores _))
  intro _
  apply Triple.call (outstanding_stable rfl) fun _ => freed_under_stable _
  intro s reply t outstanding step
  obtain ⟨answers, step⟩ := step
  cases step
  exact ⟨_, rfl, outstanding_not_idle outstanding⟩

/-- What a run of init that has allocated the device and fails leaves behind. -/
theorem init_failure_leaves_watchdog (params : ModuleParams) :
    Triple loadSem (fun s => s.allocated = false) (tgpioInputInit params) fun result t =>
      ∀ status, result = .error status → t.allocated = true → FreedUnder .watchdog t := by
  have unallocated : Stable loadSem fun s => s.allocated = false := 
    fun s t step never => (handlers_free_nothing step).2.1.trans never
  unfold tgpioInputInit
  split
  · apply Triple.pure unallocated
    intro s never status _ allocated
    simp [never] at allocated
  · apply Triple.via fun granted s => granted = false → s.allocated = false
    · apply Triple.call unallocated
      · intro granted s t step never
        rw [(handlers_free_nothing step).2.1]
        exact never
      · intro s granted t never step refused
        obtain ⟨answers, step⟩ := step
        cases step
        simpa [never] using refused
    intro granted
    split
    · rename_i refused
      apply Triple.pure
      · intro s t step never
        rw [(handlers_free_nothing step).2.1]
        exact never
      · intro s never status _ allocated
        have refused : granted = false := by simpa using refused
        simp [never refused] at allocated
    · apply Triple.via fun _ => LoadState.Outstanding .watchdog
      · exact (schedule_outstanding rfl).conseq (fun _ _ => trivial) fun _ _ outstanding => outstanding
      · intro _
        apply Triple.bind (spares_keeps_outstanding rfl
          ((sets_up_acquires (load_device_sets_up params)).mono fun op acquires =>
            acquires .watchdog))
        intro loaded
        cases loaded with
        | error status =>
            apply Triple.bind err_cleanup_leaves_watchdog
            intro _
            exact Triple.pure (freed_under_stable _) fun s freed _ _ _ => freed
        | ok value =>
            exact Triple.pure (outstanding_stable rfl) fun s _ status failed => by simp at failed

/-- No failure after the device is allocated leaves everything quiet. -/
theorem failed_init_never_quiet (params : ModuleParams) {s final : LoadState} {status : Errno}
    (fresh : s.allocated = false)
    (run : Executes loadSem (tgpioInputInit params) s (.error status) final)
    (allocated : final.allocated = true) :
    ∃ left, final.freed = some left ∧ ¬left.Quiet := by
  have failed := wp_executes (init_failure_leaves_watchdog params s fresh) run
  obtain ⟨left, freed, busy⟩ := failed status rfl allocated
  exact ⟨left, freed, fun quiet => busy (quiet.work .watchdog)⟩

/-- A kernel that grants everything. -/
def grantingKernel : KernelAnswers where
  grants := true
  artRaw := .error .enodev
  artReal := .error .enodev
  cyclesPerSec := .error .einval
  phcInit := .ok ()
  artFrequency := .error .enodev
  registers := .ok ()
  starts := .error .einval

def LoadState.fresh : LoadState := ⟨.blank, fun _ => ⟨false, false⟩, false, none⟩

def unusedBlock : BlockParams := ⟨"off", "rising", 0, false, 0, 0, 0, 0⟩

/-- No block is used, and no clock goes by that name. -/
def unknownClock : ModuleParams where
  mmioSize := minMmioSize
  clockMode := "bogus"
  timestampMode := "realtime"
  outputPolarity := "normal"
  useSecond := false
  block _ := unusedBlock
  hardwareTimestamps := true
  artFrequency := 0
  artCalibration := "realtime"
  rateTrimPpb := 0
  tdc := false
  tdcStart := 0

def unknownClockEnd : LoadState :=
  finalState (LoadState.perform grantingKernel) 40 [] (tgpioInputInit unknownClock) .fresh

theorem unknown_clock_run :
    Executes loadSem (tgpioInputInit unknownClock) .fresh (.error .einval) unknownClockEnd := by
  apply exec_final
  · exact fun op s reply t step => ⟨grantingKernel, step⟩
  · simp
  · decide +kernel

theorem failed_init_never_quiet_clock :
    LoadState.fresh.allocated = false ∧ unknownClockEnd.allocated = true ∧
      ∃ left, unknownClockEnd.freed = some left ∧ ¬left.Quiet :=
  ⟨rfl, by decide +kernel, failed_init_never_quiet unknownClock rfl unknown_clock_run
    (by decide +kernel)⟩

theorem unknown_clock_leaves_watchdog :
    ¬∀ (params : ModuleParams) (s final : LoadState) (status : Errno), s.allocated = false →
      Executes loadSem (tgpioInputInit params) s (.error status) final →
      final.allocated = true → ∃ left, final.freed = some left ∧ left.Quiet := by
  intro claim
  obtain ⟨left, freed, quiet⟩ := claim unknownClock .fresh unknownClockEnd .einval rfl
    unknown_clock_run (by decide +kernel)
  have busy : (unknownClockEnd.freed.map fun left => (left.work .watchdog).scheduled) =
      some true := by
    decide +kernel
  rw [freed] at busy
  simp [(quiet.work .watchdog).1] at busy

end failure

section unload

/-- What exit has undone by the time it turns to the blocks. -/
structure Released (s : LoadState) : Prop where
  artRefine : (s.work .artRefine).idle
  watchdog : (s.work .watchdog).idle
  pps : ∀ number, (s.device.block number).pps = false

/-- Work that no handler queues stays away once it is cancelled. -/
theorem idle_stable {work : Work} (unqueued : ∀ other : Work, ¬other.queues work) :
    Stable loadSem fun s => (s.work work).idle := by
  intro s t step idle
  cases step with
  | begins other scheduled =>
      have differs : work ≠ other := by
        intro same
        subst same
        simp [idle.1] at scheduled
      simpa [LoadState.setWork, differs] using idle
  | queues other queued _ queues =>
      have differs : work ≠ queued := by
        intro same
        subst same
        exact unqueued other queues
      simpa [LoadState.schedule, LoadState.setWork, differs] using idle
  | ends other running =>
      have differs : work ≠ other := by
        intro same
        subst same
        simp [idle.2] at running
      simpa [LoadState.setWork, differs] using idle

theorem art_refine_unqueued (other : Work) : ¬other.queues .artRefine := by
  cases other <;> simp [Work.queues]

theorem watchdog_unqueued (other : Work) : ¬other.queues .watchdog := by
  cases other <;> simp [Work.queues]

theorem released_stable : Stable loadSem Released := by
  intro s t step released
  refine ⟨idle_stable art_refine_unqueued s t step released.artRefine,
    idle_stable watchdog_unqueued s t step released.watchdog, ?_⟩
  rw [(handlers_free_nothing step).2.2]
  exact released.pps

theorem cancel_idle {work other : Work} {s t : LoadState} {reply : Unit}
    (step : loadSem.step (.cancelSync other) s reply t)
    (idle : work = other ∨ (s.work work).idle) : (t.work work).idle := by
  obtain ⟨answers, step⟩ := step
  simp only [LoadState.perform] at step
  split at step
  · contradiction
  · cases step
    by_cases same : work = other
    · subst same
      simp [LoadState.setWork, WorkItem.idle]
    · simpa [LoadState.setWork, same] using idle

theorem disable_mmio_blocks_released :
    Triple loadSem Released disableMmioBlocks fun _ => Released := by
  have allows (work : Work) : Uses (fun op => op = .device ∨ ∃ work, op = .cancelSync work)
      (cancelSync work) :=
    (@uses_perform _ LoadOp.Resp _ _).mpr (Or.inr ⟨work, rfl⟩)
  have block (number : BlockNumber) :
      Uses (fun op => op = .device ∨ ∃ work, op = .cancelSync work) (cancelOutputBlock number) := by
    apply Uses.seq ((@uses_perform _ LoadOp.Resp _ _).mpr (Or.inl rfl))
    intro dev
    split
    · exact uses_pure _
    · apply (allows _).seq
      intro _
      apply (allows _).seq
      intro _
      apply (allows _).seq
      intro _
      exact (allows _).seq fun _ => allows _
  have uses : Uses (fun op => op = .device ∨ ∃ work, op = .cancelSync work) disableMmioBlocks :=
    (allows .poll).seq fun _ => (block firstBlock).seq fun _ => block secondBlock
  intro s released
  apply wp_uses uses _ released_stable released
  rintro op s reply t (rfl | ⟨work, rfl⟩) step released
  · obtain ⟨answers, step⟩ := step
    cases step
    exact released
  · refine ⟨cancel_idle step (Or.inr released.artRefine),
      cancel_idle step (Or.inr released.watchdog), ?_⟩
    obtain ⟨answers, step⟩ := step
    simp only [LoadState.perform] at step
    split at step
    · contradiction
    · cases step
      exact released.pps

/-- What the cleanup label leaves out: exit ends both works that schedule
themselves, and unregisters the PPS sources. -/
theorem exit_releases :
    Triple loadSem (fun _ => True) tgpioInputExit fun _ t => ∃ left, t.freed = some left ∧
      (left.work .watchdog).idle ∧ (left.work .artRefine).idle ∧
      ∀ number, left.pps number = false := by
  have noArt : Stable loadSem fun s => (s.work .artRefine).idle := idle_stable art_refine_unqueued
  have noWatchdog : Stable loadSem fun s => (s.work .watchdog).idle :=
    idle_stable watchdog_unqueued
  apply Triple.via fun _ _ => True
  · exact Triple.call (fun _ _ _ _ => trivial) (fun _ _ _ _ _ => trivial) fun _ _ _ _ _ => trivial
  intro _
  apply Triple.via fun _ s => (s.work .artRefine).idle
  · exact Triple.call (fun _ _ _ _ => trivial) (fun _ => noArt)
      fun s reply t _ step => cancel_idle step (Or.inl rfl)
  intro _
  apply Triple.via fun _ s => (s.work .artRefine).idle ∧ (s.work .watchdog).idle
  · exact Triple.call noArt (fun _ => noArt.and noWatchdog) fun s reply t idle step =>
      ⟨cancel_idle step (Or.inr idle), cancel_idle step (Or.inl rfl)⟩
  intro _
  apply Triple.via fun _ => Released
  · apply Triple.call (noArt.and noWatchdog) fun _ => released_stable
    intro s reply t idle step
    obtain ⟨answers, step⟩ := step
    cases step
    exact ⟨idle.1, idle.2, fun number => rfl⟩
  intro _
  apply Triple.bind disable_mmio_blocks_released
  intro _
  apply Triple.via fun _ => Released
  · apply Triple.call released_stable fun _ => released_stable
    intro s reply t released step
    obtain ⟨answers, step⟩ := step
    cases step
    exact ⟨released.artRefine, released.watchdog, released.pps⟩
  intro _
  apply Triple.call released_stable
  · intro _ s t step freed
    rw [(handlers_free_nothing step).1]
    exact freed
  · intro s reply t released step
    obtain ⟨answers, step⟩ := step
    cases step
    exact ⟨_, rfl, released.watchdog, released.artRefine, released.pps⟩

end unload

end Tgpio

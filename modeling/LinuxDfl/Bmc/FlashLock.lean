import LinuxDfl.Bmc.SecWorker

/-!
# The flash during a secure update

A secure update takes the flash when it prepares, and gives it back on every
way out.  In between other users cannot read it.
-/

namespace LinuxDfl.Bmc

open LinuxDfl.Kernel
open LinuxDfl.ImageLoad
open LinuxDfl.Bmc.Rsu
open LinuxDfl.Lib.Transition

/--
The worker has the flash: from `lock_write` in `m10bmc_sec_prepare` on, until
the error exit of this function or `m10bmc_sec_cleanup` gives it back.
-/
def holdsFlash : WorkerPc → SecPc → Bool
  | .prepare, .enter => false
  | .prepare, .prepLock => false
  | .prepare, _ => true
  | .startTransfer, _ => true
  | .loop _, _ => true
  | .write _, _ => true
  | .advance _ _, _ => true
  | .startProgram, _ => true
  | .pollComplete, _ => true
  | .setError _ prepared, _ => prepared
  | .cleanup, _ => true
  | _, _ => false

/-- What an action does to the flash. -/
def SecAction.touches (info : BoardInfo) (state : SecUpload) :
    SecAction → List FlashTouch
  | .worker _ =>
      match state.pc with
      | .writeBlock _ => if info.flashBulkOps then [.bulkWrite] else []
      | _ => []
  | .flashRead answer => (m10bmcPmciFlashRead answer state.m10bmc).2
  | _ => []

/-- The flash is handed over to the update and back. -/
structure FlashHandedOver (state : SecUpload) : Prop where
  busy :
    state.m10bmc.flashBusy = holdsFlash state.upload.pc state.pc
  refused :
    state.m10bmc.flashBusy = true → ∀ answer,
      m10bmcPmciFlashRead answer state.m10bmc = (some .ebusy, [])
  finished : state.upload.pc = .idle → state.m10bmc.flashBusy = false

/-- The flash is written only by the update, and only while it has it. -/
def WritesWhileBusy (info : BoardInfo) (state : SecUpload)
    (action : SecAction) : Prop :=
  FlashTouch.bulkWrite ∈ action.touches info state →
    state.m10bmc.flashBusy = true ∧ ∃ answer, action = .worker answer

/-- A read of the flash never writes to it. -/
theorem flashRead_no_write (answer : FlashReadAnswer) (m10bmc : M10bmc) :
    FlashTouch.bulkWrite ∉ (m10bmcPmciFlashRead answer m10bmc).2 := by
  unfold m10bmcPmciFlashRead
  cases m10bmc.flashBusy <;> cases answer.muxOn <;> simp

/-! ## The invariant -/

/-- The worker is where it may be, and the flash is busy while it has it. -/
structure FlashInvariant (state : SecUpload) : Prop where
  within : state.pc.Within state.upload.pc
  busy : state.m10bmc.flashBusy = holdsFlash state.upload.pc state.pc

theorem FlashInvariant.handedOver {state : SecUpload}
    (invariant : FlashInvariant state) : FlashHandedOver state where
  busy := invariant.busy
  refused := by
    intro busy answer
    rw [m10bmcPmciFlashRead, if_pos busy]
  finished := by
    intro atIdle
    rw [invariant.busy, atIdle]
    rfl

theorem FlashInvariant.writes {state : SecUpload} (info : BoardInfo)
    (invariant : FlashInvariant state) (action : SecAction) :
    WritesWhileBusy info state action := by
  intro touches
  cases action with
  | write | status | cancel | sysAccess | retimer =>
      exact absurd touches List.not_mem_nil
  | flashRead answer =>
      exact absurd touches (flashRead_no_write answer state.m10bmc)
  | worker answer =>
      refine ⟨?_, answer, rfl⟩
      have within := invariant.within
      cases isPc : state.pc with
      | writeBlock blkSize =>
          rw [isPc] at within
          obtain ⟨offset, atWrite⟩ := within
          rw [invariant.busy, atWrite]
          rfl
      | enter | prepLock | prepCheckIdle | prepSetPrepare | prepUpdateInit
      | prepReady | prepCheckCancel | prepCancel | prepSetWrite
      | prepSetNormal | prepUnlock | cancel | writeDoorbell
      | pollSetProgram | pollSendData | pollWait | cleanSetNormal
      | cleanUnlock =>
          simp only [SecAction.touches, isPc] at touches
          exact absurd touches List.not_mem_nil

/-! ## Steps of the worker -/

theorem FlashInvariant.set {state next : SecUpload} {m10bmc : M10bmc}
    {pc : SecPc} (within : pc.Within state.upload.pc)
    (busy : m10bmc.flashBusy = holdsFlash state.upload.pc pc)
    (step : state.set m10bmc pc = some next) : FlashInvariant next := by
  cases step
  exact ⟨within, busy⟩

/-- An operation returns; what it says decides who has the flash. -/
theorem FlashInvariant.finish {state next : SecUpload} {ret : FwUploadErr}
    {written : Nat} (inOp : InOp state.upload.pc)
    (busy : state.m10bmc.flashBusy =
      holdsFlash (afterOp state.upload.pc ret written) .enter)
    (step : state.finish ret written = some next) :
    FlashInvariant next := by
  obtain ⟨isPc, m10bmc, -, upload⟩ := SecUpload.finish_of_inOp inOp step
  constructor
  · rw [isPc]
    trivial
  · rw [m10bmc, busy, isPc, upload]

theorem FlashInvariant.setFinish {state next : SecUpload} {m10bmc : M10bmc}
    {ret : FwUploadErr} (inOp : InOp state.upload.pc)
    (busy : m10bmc.flashBusy =
      holdsFlash (afterOp state.upload.pc ret 0) .enter)
    (step : state.setFinish m10bmc ret = some next) :
    FlashInvariant next := by
  unfold SecUpload.setFinish at step
  refine FlashInvariant.finish ?_ ?_ step
  · exact inOp
  · exact busy

/-- After its preparation, an operation keeps the flash however it ends. -/
theorem holdsFlash_afterOp {pc : WorkerPc} (inOp : InOp pc)
    (notPrepare : pc ≠ .prepare) (notCleanup : pc ≠ .cleanup)
    (ret : FwUploadErr) (written : Nat) :
    holdsFlash (afterOp pc ret written) .enter = true := by
  cases pc with
  | prepare => exact absurd rfl notPrepare
  | cleanup => exact absurd rfl notCleanup
  | write offset =>
      show holdsFlash (if _ then _ else if _ then _ else _) .enter = true
      by_cases fails : ret ≠ .none
      · rw [if_pos fails]
        rfl
      · rw [if_neg fails]
        by_cases nothing : written = 0
        · rw [if_pos nothing]
          rfl
        · rw [if_neg nothing]
          rfl
  | pollComplete =>
      show holdsFlash (if _ then _ else _) .enter = true
      by_cases succeeds : ret = .none
      · rw [if_pos succeeds]
        rfl
      · rw [if_neg succeeds]
        rfl
  | idle | setError | startTransfer | loop | advance | startProgram
  | putDevice | vfree | clearData | complete | eventfdPut | clearFinished =>
      exact inOp.elim

/-- An operation other than `prepare` and `cleanup` returns. -/
theorem FlashInvariant.keeps {state next : SecUpload} {ret : FwUploadErr}
    {written : Nat} (invariant : FlashInvariant state)
    (middle : state.upload.pc = .pollComplete ∨
      ∃ offset, state.upload.pc = .write offset)
    (step : state.finish ret written = some next) :
    FlashInvariant next := by
  have kind : InOp state.upload.pc ∧ state.upload.pc ≠ .prepare ∧
      state.upload.pc ≠ .cleanup := by
    rcases middle with atPoll | ⟨offset, atWrite⟩
    · rw [atPoll]
      exact ⟨trivial, by decide, by decide⟩
    · rw [atWrite]
      exact ⟨trivial, by simp, by simp⟩
  obtain ⟨inOp, notPrepare, notCleanup⟩ := kind
  refine FlashInvariant.finish inOp ?_ step
  rw [holdsFlash_afterOp inOp notPrepare notCleanup, invariant.busy]
  rcases middle with atPoll | ⟨offset, atWrite⟩
  · rw [atPoll]
    rfl
  · rw [atWrite]
    rfl

/-- Outside of the operations, the worker keeps what it has of the flash. -/
theorem FlashInvariant.main {state next : SecUpload}
    (invariant : FlashInvariant state) (isEnter : state.pc = .enter)
    (notInOp : ¬ InOp state.upload.pc)
    (step : state.finish .none 0 = some next) : FlashInvariant next := by
  have busy := invariant.busy
  rw [isEnter] at busy
  obtain ⟨upload, moves, rfl⟩ := Option.map_eq_some_iff.mp step
  refine ⟨trivial, ?_⟩
  show state.m10bmc.flashBusy = holdsFlash upload.pc .enter
  rw [busy]
  cases isPc : state.upload.pc with
  | prepare | write | pollComplete | cleanup =>
      rw [isPc] at notInOp
      exact absurd trivial notInOp
  | idle =>
      simp only [workerStep, isPc] at moves
      split_ifs at moves
      cases moves
      rfl
  | setError ret prepared =>
      simp only [workerStep, isPc, Option.some.injEq] at moves
      subst moves
      cases prepared <;> rfl
  | loop offset =>
      simp only [workerStep, isPc, Option.some.injEq] at moves
      subst moves
      show true = holdsFlash (if _ then _ else _) .enter
      by_cases more : state.upload.fwlp.remainingSize ≠ 0
      · rw [if_pos more]
        rfl
      · rw [if_neg more]
        rfl
  | startTransfer | advance | startProgram | putDevice | vfree | clearData
  | complete | eventfdPut | clearFinished =>
      simp only [workerStep, isPc, Option.some.injEq] at moves
      subst moves
      rfl

/-- A step inside of an operation, which keeps what it has of the flash. -/
theorem FlashInvariant.inside {state next : SecUpload} {m10bmc : M10bmc}
    {pc : SecPc} {op : WorkerPc} (invariant : FlashInvariant state)
    (atOp : state.upload.pc = op) (step : state.set m10bmc pc = some next)
    (within : pc.Within op)
    (keeps : m10bmc.flashBusy = state.m10bmc.flashBusy)
    (holds : holdsFlash op pc = holdsFlash op state.pc) :
    FlashInvariant next := by
  refine FlashInvariant.set ?_ ?_ step
  · rw [atOp]
    exact within
  · rw [keeps, invariant.busy, atOp, holds]

theorem FlashInvariant.enterStep {info : BoardInfo}
    {state next : SecUpload} (invariant : FlashInvariant state)
    (isEnter : state.pc = .enter)
    (step : state.enterStep info = some next) : FlashInvariant next := by
  have busy := invariant.busy
  rw [isEnter] at busy
  cases isPc : state.upload.pc with
  | prepare =>
      rw [isPc] at busy
      simp only [SecUpload.enterStep, isPc] at step
      split_ifs at step
      · refine FlashInvariant.setFinish ?_ ?_ step
        · rw [isPc]
          trivial
        · rw [isPc]
          exact busy
      · refine FlashInvariant.set ?_ ?_ step
        · exact isPc
        · rw [isPc]
          exact busy
  | write offset =>
      simp only [SecUpload.enterStep, isPc] at step
      refine invariant.inside isPc step ?_ rfl rfl
      cases state.m10bmc.cancelRequest
      · exact ⟨offset, rfl⟩
      · exact Or.inr ⟨offset, rfl⟩
  | pollComplete =>
      simp only [SecUpload.enterStep, isPc] at step
      refine invariant.inside isPc step ?_ rfl rfl
      cases state.m10bmc.cancelRequest
      · rfl
      · exact Or.inl rfl
  | cleanup =>
      simp only [SecUpload.enterStep, isPc] at step
      exact invariant.inside isPc step rfl rfl rfl
  | idle | setError | startTransfer | loop | advance | startProgram
  | putDevice | vfree | clearData | complete | eventfdPut | clearFinished =>
      simp only [SecUpload.enterStep, isPc] at step
      refine invariant.main isEnter ?_ step
      rw [isPc]
      exact id

/-- A check of `m10bmc_sec_prepare`, after which it goes on or gives up. -/
theorem FlashInvariant.checks {state next : SecUpload} {ret : FwUploadErr}
    {gaveUp onwards : SecPc} (invariant : FlashInvariant state)
    (atPrepare : state.upload.pc = .prepare)
    (has : holdsFlash .prepare state.pc = true)
    (step : state.go (if ret ≠ .none then gaveUp else onwards) = some next)
    (failure :
      ret ≠ .none →
        gaveUp.Within .prepare ∧ holdsFlash .prepare gaveUp = true)
    (success :
      onwards.Within .prepare ∧ holdsFlash .prepare onwards = true) :
    FlashInvariant next := by
  by_cases fails : ret ≠ .none
  · obtain ⟨within, holds⟩ := failure fails
    rw [if_pos fails] at step
    exact invariant.inside atPrepare step within rfl (holds.trans has.symm)
  · obtain ⟨within, holds⟩ := success
    rw [if_neg fails] at step
    exact invariant.inside atPrepare step within rfl (holds.trans has.symm)

/-- The last step of an operation which gives the flash back. -/
theorem FlashInvariant.givesBack {info : BoardInfo}
    (hasFlash : info.flashBulkOps = true) {state next : SecUpload}
    {ret : FwUploadErr} (inOp : InOp state.upload.pc)
    (leaves : holdsFlash (afterOp state.upload.pc ret 0) .enter = false)
    (step : state.setFinish (state.unlockFlash info) ret = some next) :
    FlashInvariant next := by
  have unlocked : (state.unlockFlash info).flashBusy = false := by
    unfold SecUpload.unlockFlash
    rw [if_pos hasFlash]
    rfl
  exact FlashInvariant.setFinish inOp (unlocked.trans leaves.symm) step

theorem FlashInvariant.workerStep {info : BoardInfo}
    (hasFlash : info.flashBulkOps = true) {answer : SecAnswer}
    {state next : SecUpload} (invariant : FlashInvariant state)
    (step : state.secWorkerStep info answer = some next) :
    FlashInvariant next := by
  have within := invariant.within
  cases isPc : state.pc with
  | enter =>
      simp only [SecUpload.secWorkerStep, isPc] at step
      exact invariant.enterStep isPc step
  | prepLock =>
      have busy := invariant.busy
      rw [isPc] at within busy
      have atPrepare : state.upload.pc = .prepare := within
      rw [atPrepare] at busy
      have locks : state.lockFlash info =
          (none, { state.m10bmc with flashBusy := true }) := by
        unfold SecUpload.lockFlash m10bmcPmciFlashLock
        rw [if_pos hasFlash, busy]
        rfl
      simp only [SecUpload.secWorkerStep, isPc, locks] at step
      refine FlashInvariant.set ?_ ?_ step
      · exact atPrepare
      · rw [atPrepare]
        rfl
  | prepCheckIdle | prepUpdateInit | prepReady =>
      rw [isPc] at within
      simp only [SecUpload.secWorkerStep, isPc] at step
      refine invariant.checks within ?_ step ?_ ⟨rfl, rfl⟩
      · rw [isPc]
        rfl
      · exact fun fails => ⟨⟨rfl, fails⟩, rfl⟩
  | prepSetPrepare =>
      rw [isPc] at within
      simp only [SecUpload.secWorkerStep, isPc] at step
      exact invariant.inside within step rfl (fwStateSet_flashBusy _ _ _)
        (by rw [isPc]; rfl)
  | prepCheckCancel =>
      rw [isPc] at within
      simp only [SecUpload.secWorkerStep, isPc] at step
      refine invariant.inside within step ?_ rfl ?_
      · cases state.m10bmc.cancelRequest <;> rfl
      · rw [isPc]
        cases state.m10bmc.cancelRequest <;> rfl
  | prepCancel =>
      rw [isPc] at within
      simp only [SecUpload.secWorkerStep, isPc] at step
      exact invariant.inside within step ⟨rfl, rsuCancelRet_ne_none _ _⟩ rfl
        (by rw [isPc]; rfl)
  | prepSetNormal ret =>
      rw [isPc] at within
      simp only [SecUpload.secWorkerStep, isPc] at step
      exact invariant.inside within.1 step ⟨rfl, within.2⟩
        (fwStateSet_flashBusy _ _ _) (by rw [isPc]; rfl)
  | prepSetWrite =>
      have busy := invariant.busy
      rw [isPc] at within busy
      have atPrepare : state.upload.pc = .prepare := within
      rw [atPrepare] at busy
      simp only [SecUpload.secWorkerStep, isPc] at step
      refine FlashInvariant.setFinish ?_ ?_ step
      · rw [atPrepare]
        trivial
      · rw [fwStateSet_flashBusy, busy, atPrepare]
        rfl
  | prepUnlock ret =>
      rw [isPc] at within
      obtain ⟨atPrepare, fails⟩ := within
      simp only [SecUpload.secWorkerStep, isPc] at step
      refine FlashInvariant.givesBack hasFlash ?_ ?_ step
      · rw [atPrepare]
        trivial
      · rw [atPrepare, afterOp, if_neg fails]
        rfl
  | cancel =>
      rw [isPc] at within
      simp only [SecUpload.secWorkerStep, isPc] at step
      exact invariant.keeps within step
  | writeDoorbell size =>
      rw [isPc] at within
      obtain ⟨offset, atWrite⟩ := within
      simp only [SecUpload.secWorkerStep, isPc] at step
      split at step
      · exact invariant.keeps (Or.inr ⟨offset, atWrite⟩) step
      · split_ifs at step
        · exact invariant.keeps (Or.inr ⟨offset, atWrite⟩) step
        · exact invariant.inside atWrite step ⟨offset, rfl⟩ rfl rfl
  | writeBlock blkSize =>
      rw [isPc] at within
      simp only [SecUpload.secWorkerStep, isPc] at step
      split at step
      · exact invariant.keeps (Or.inr within) step
      · exact invariant.keeps (Or.inr within) step
  | pollSetProgram =>
      rw [isPc] at within
      simp only [SecUpload.secWorkerStep, isPc] at step
      exact invariant.inside within step rfl (fwStateSet_flashBusy _ _ _) rfl
  | pollSendData =>
      rw [isPc] at within
      simp only [SecUpload.secWorkerStep, isPc] at step
      split_ifs at step
      · exact invariant.keeps (Or.inl within) step
      · exact invariant.inside within step rfl rfl rfl
  | pollWait =>
      rw [isPc] at within
      simp only [SecUpload.secWorkerStep, isPc] at step
      exact invariant.keeps (Or.inl within) step
  | cleanSetNormal =>
      rw [isPc] at within
      simp only [SecUpload.secWorkerStep, isPc] at step
      exact invariant.inside within step rfl (fwStateSet_flashBusy _ _ _) rfl
  | cleanUnlock =>
      rw [isPc] at within
      have atCleanup : state.upload.pc = .cleanup := within
      simp only [SecUpload.secWorkerStep, isPc] at step
      refine FlashInvariant.givesBack hasFlash ?_ ?_ step
      · rw [atCleanup]
        trivial
      · rw [atCleanup]
        rfl

/-! ## Runs -/

/-- A step which leaves the worker and the flash where they are. -/
theorem FlashInvariant.aside {state next : SecUpload}
    (invariant : FlashInvariant state)
    (upload : next.upload.pc = state.upload.pc) (pc : next.pc = state.pc)
    (flash : next.m10bmc.flashBusy = state.m10bmc.flashBusy) :
    FlashInvariant next where
  within := by
    rw [pc, upload]
    exact invariant.within
  busy := by
    rw [flash, upload, pc]
    exact invariant.busy

theorem FlashInvariant.step {info : BoardInfo}
    (hasFlash : info.flashBulkOps = true) {source target : SecUpload}
    {action : SecAction} (invariant : FlashInvariant source)
    (step : source.Step info action target) : FlashInvariant target := by
  cases action with
  | write request =>
      obtain rfl := step
      exact invariant.aside (source.ioctlWrite_pc request) rfl rfl
  | status | flashRead | sysAccess =>
      obtain rfl := step
      exact invariant
  | cancel =>
      obtain rfl := step
      rcases source.ioctlCancel_cases with ⟨-, effect⟩ | ⟨-, effect⟩
      · rw [effect]
        exact invariant
      · rw [effect]
        exact invariant.aside rfl rfl rfl
  | worker answer => exact invariant.workerStep hasFlash step
  | retimer thread answer =>
      obtain ⟨m10bmc, pc, rfl, changes⟩ := SecUpload.retimerStep_cases step
      refine invariant.aside rfl rfl ?_
      rcases changes with rfl | rfl | ⟨-, rfl⟩
      · rfl
      · exact fwStateSet_flashBusy _ _ _
      · exact fwStateSet_flashBusy _ _ _

theorem flashInvariant_registered : FlashInvariant secRegistered :=
  ⟨trivial, rfl⟩

/--
On a board with flash operations, along every interleaving of uploads,
cancellations and other users, and whatever the board answers: the flash is
busy exactly while the update has it, nobody can read it in the meantime,
only the update writes to it and only then, and it is free when the worker
is done.
-/
theorem flash_handed_over (info : BoardInfo)
    (hasFlash : info.flashBulkOps = true)
    (path : List (SecAction × SecUpload))
    (isPath : IsPath (SecUpload.Step info) secRegistered path) :
    Throughout FlashHandedOver secRegistered path ∧
      StepsMeet (WritesWhileBusy info) secRegistered path := by
  have throughout : Throughout FlashInvariant secRegistered path :=
    throughout_of_invariant
      (fun _ _ _ invariant step => invariant.step hasFlash step) isPath
      flashInvariant_registered
  refine ⟨throughout.mono fun _ => FlashInvariant.handedOver, ?_⟩
  exact throughout.stepsMeet fun _ invariant action =>
    invariant.writes info action

/-- A read of the flash on a board which answers. -/
def flashReadAnswer : FlashReadAnswer := ⟨none, none, none⟩

/-- An upload to the board, with a read of the flash in the middle. -/
def readAmidUpload : List SecAction :=
  .write oneByteRequest :: wholeUpload.take 9 ++
    .flashRead flashReadAnswer :: wholeUpload.drop 9

/-- The flash is busy in the middle of the upload, and free in the end. -/
theorem flash_handed_over_once :
    FlashHandedOver
        (readAmidUpload.foldl (SecUpload.apply m10bmcPmciN6000)
          secRegistered) ∧
      ((readAmidUpload.take 10).foldl (SecUpload.apply m10bmcPmciN6000)
        secRegistered).m10bmc.flashBusy = true := by
  constructor
  · refine Throughout.final (flash_handed_over m10bmcPmciN6000 rfl
      (pathOf (SecUpload.apply m10bmcPmciN6000) secRegistered
        readAmidUpload) ?_).1
    apply isPath_of_enabledAlong (fun _ _ => SecUpload.step_apply)
    decide
  · decide

end LinuxDfl.Bmc

import LinuxDfl.Bmc.SecWorker

/-!
# Cancellations of a secure update

A cancellation sets a flag, which the update clears when it prepares, and
looks at before each block and before it is programmed.  An upload which is
cancelled after the flag was cleared ends with an error; a cancellation which
comes earlier is lost.
-/

namespace LinuxDfl.Bmc

open LinuxDfl.Kernel
open LinuxDfl.ImageLoad
open LinuxDfl.Bmc.Rsu
open LinuxDfl.Lib.Transition

/-- Uploads, and whether the last one was cancelled before programming. -/
structure CancelWatch where
  sec : SecUpload
  cancelled : Bool

/-- What is known about the upload which was accepted last. -/
def cancelledAfter (state : SecUpload) (cancelled : Bool) :
    SecAction → Bool
  | .write request =>
      match (fpgaImageLoadIoctlWrite request state.upload).1 with
      | none => false
      | some _ => cancelled
  | .cancel =>
      match state.ioctlCancel.1 with
      | none => cancelled || state.upload.fwlp.progress ≠ .programming
      | some _ => cancelled
  | _ => cancelled

def CancelWatch.Step (info : BoardInfo) (watch : CancelWatch)
    (action : SecAction) (next : CancelWatch) : Prop :=
  watch.sec.Step info action next.sec ∧
    next.cancelled = cancelledAfter watch.sec watch.cancelled action

/-- The board, watched from its registration on. -/
def cancelWatch : CancelWatch := ⟨secRegistered, false⟩

/-- An upload which was cancelled is not over, or has failed. -/
def CancelKept (watch : CancelWatch) : Prop :=
  watch.cancelled = true → watch.sec.upload.fwlp.progress = .idle →
    watch.sec.upload.fwlp.errCode ≠ .none

/-- Requests are issued while the progress is idle. -/
def RequestsWhenIdle (watch : CancelWatch) : SecAction → Prop
  | .write _ => watch.sec.upload.fwlp.progress = .idle
  | _ => True

/-- `m10bmc_sec_prepare` has cleared `cancel_request` for this upload. -/
def FlagCleared (state : SecUpload) : Prop :=
  state.upload.pc ≠ .idle ∧ state.upload.pc ≠ .eventfdPut ∧
    state.upload.pc ≠ .clearFinished ∧
      (state.upload.pc = .prepare → state.pc ≠ .enter)

/--
A cancellation of an upload which has been accepted comes after
`cancel_request` has been cleared.
-/
def CancelsAfterClear (watch : CancelWatch) : SecAction → Prop
  | .cancel =>
      watch.sec.upload.fwlp.progress ≠ .idle → FlagCleared watch.sec
  | _ => True

instance (watch : CancelWatch) :
    (action : SecAction) → Decidable (RequestsWhenIdle watch action)
  | .write _ => inferInstanceAs (Decidable (_ = _))
  | .status _ => isTrue trivial
  | .cancel => isTrue trivial
  | .worker _ => isTrue trivial
  | .flashRead _ => isTrue trivial
  | .sysAccess _ => isTrue trivial
  | .retimer _ _ => isTrue trivial

instance (state : SecUpload) : Decidable (FlagCleared state) :=
  inferInstanceAs (Decidable (_ ∧ _ ∧ _ ∧ (_ → _)))

instance (watch : CancelWatch) :
    (action : SecAction) → Decidable (CancelsAfterClear watch action)
  | .cancel =>
      inferInstanceAs (Decidable (_ ≠ _ → FlagCleared watch.sec))
  | .write _ => isTrue trivial
  | .status _ => isTrue trivial
  | .worker _ => isTrue trivial
  | .flashRead _ => isTrue trivial
  | .sysAccess _ => isTrue trivial
  | .retimer _ _ => isTrue trivial

/-! ## The invariant -/

/-- The upload which the worker is busy with is the only one. -/
def InProgress (upload : Upload) : Prop :=
  upload.pending = false ∧ upload.fwlp.progress ≠ .idle

/-- The status fits where the worker is. -/
def Located (upload : Upload) : Prop :=
  match upload.pc with
  | .idle | .eventfdPut | .clearFinished =>
      upload.pending = true → upload.fwlp.progress ≠ .idle
  | .setError ret _ => InProgress upload ∧ ret ≠ .none
  | .pollComplete =>
      InProgress upload ∧ upload.fwlp.progress = .programming
  | .cleanup | .putDevice | .vfree | .clearData | .complete =>
      InProgress upload ∧
        (upload.fwlp.errCode ≠ .none ∨
          upload.fwlp.progress = .programming)
  | _ => InProgress upload

/-- The upload has failed, or is going to fail. -/
def Fated (state : SecUpload) : Prop :=
  match state.upload.pc with
  | .idle | .eventfdPut | .clearFinished =>
      state.upload.fwlp.progress = .idle ∧
        state.upload.fwlp.errCode ≠ .none
  | .prepare => state.pc ≠ .enter ∧ state.m10bmc.cancelRequest = true
  | .pollComplete =>
      (state.pc = .enter ∨ state.pc = .cancel) ∧
        state.m10bmc.cancelRequest = true
  | .setError _ _ => True
  | .cleanup | .putDevice | .vfree | .clearData | .complete =>
      state.upload.fwlp.errCode ≠ .none
  | _ => state.m10bmc.cancelRequest = true

/-- An upload which was cancelled is going to fail. -/
structure CancelInvariant (cancelled : Bool) (state : SecUpload) :
    Prop where
  within : state.pc.Within state.upload.pc
  located : Located state.upload
  fated : cancelled = true → Fated state

theorem Located.resting {upload : Upload} (located : Located upload)
    (idle : upload.fwlp.progress = .idle) :
    upload.pc = .idle ∨ upload.pc = .eventfdPut ∨
      upload.pc = .clearFinished := by
  cases isPc : upload.pc with
  | idle => exact Or.inl rfl
  | eventfdPut => exact Or.inr (Or.inl rfl)
  | clearFinished => exact Or.inr (Or.inr rfl)
  | prepare | startTransfer | loop | write | advance | startProgram =>
      simp only [Located, isPc] at located
      exact absurd idle located.2
  | setError | pollComplete | cleanup | putDevice | vfree | clearData
  | complete =>
      simp only [Located, isPc] at located
      exact absurd idle located.1.2

theorem Located.inProgress {upload : Upload} (located : Located upload)
    (inOp : InOp upload.pc) : InProgress upload := by
  cases isPc : upload.pc with
  | prepare | write =>
      simp only [Located, isPc] at located
      exact located
  | pollComplete | cleanup =>
      simp only [Located, isPc] at located
      exact located.1
  | idle | setError | startTransfer | loop | advance | startProgram
  | putDevice | vfree | clearData | complete | eventfdPut | clearFinished =>
      rw [isPc] at inOp
      exact inOp.elim

theorem CancelInvariant.kept {watch : CancelWatch}
    (invariant : CancelInvariant watch.cancelled watch.sec) :
    CancelKept watch := by
  intro cancelled idle
  have fated := invariant.fated cancelled
  rcases invariant.located.resting idle with isPc | isPc | isPc
  · rw [Fated, isPc] at fated
    exact fated.2
  · rw [Fated, isPc] at fated
    exact fated.2
  · rw [Fated, isPc] at fated
    exact fated.2

/-! ## Steps of the worker -/

/-- What other threads share does not matter, but for the flag. -/
theorem CancelInvariant.withM10bmc {cancelled : Bool} {state : SecUpload}
    (invariant : CancelInvariant cancelled state) {m10bmc : M10bmc}
    (flag : cancelled = true →
      m10bmc.cancelRequest = state.m10bmc.cancelRequest) :
    CancelInvariant cancelled { state with m10bmc := m10bmc } where
  within := invariant.within
  located := invariant.located
  fated := by
    intro isCancelled
    have fated := invariant.fated isCancelled
    unfold Fated at fated ⊢
    dsimp only
    rw [flag isCancelled]
    exact fated

/-- The worker goes on inside of an operation. -/
theorem CancelInvariant.set {cancelled : Bool} {state next : SecUpload}
    (invariant : CancelInvariant cancelled state) {m10bmc : M10bmc}
    {pc : SecPc} (step : state.set m10bmc pc = some next)
    (within : pc.Within state.upload.pc)
    (fated : Fated state →
      Fated { state with m10bmc := m10bmc, pc := pc }) :
    CancelInvariant cancelled next := by
  cases step
  exact ⟨within, invariant.located, fun isCancelled =>
    fated (invariant.fated isCancelled)⟩

/-- The worker goes on inside of `m10bmc_sec_prepare`. -/
theorem CancelInvariant.inPrepare {cancelled : Bool}
    {state next : SecUpload}
    (invariant : CancelInvariant cancelled state)
    (atPrepare : state.upload.pc = .prepare)
    {m10bmc : M10bmc} {pc : SecPc}
    (step : state.set m10bmc pc = some next)
    (within : pc.Within .prepare) (inside : pc ≠ .enter)
    (flag : state.pc ≠ .enter →
      m10bmc.cancelRequest = state.m10bmc.cancelRequest) :
    CancelInvariant cancelled next := by
  refine invariant.set step ?_ ?_
  · rw [atPrepare]
    exact within
  · intro fated
    simp only [Fated, atPrepare] at fated ⊢
    exact ⟨inside, (flag fated.1).trans fated.2⟩

/-- An operation returns; a programming which was cancelled has failed. -/
theorem CancelInvariant.finish {cancelled : Bool} {state next : SecUpload}
    (invariant : CancelInvariant cancelled state)
    (inOp : InOp state.upload.pc) {ret : FwUploadErr} {written : Nat}
    (step : state.finish ret written = some next)
    (fails : state.upload.pc = .pollComplete →
      (state.pc = .enter ∨ state.pc = .cancel) → ret ≠ .none) :
    CancelInvariant cancelled next := by
  obtain ⟨isEnter, m10bmc, ⟨fwlp, pending⟩, upload⟩ :=
    SecUpload.finish_of_inOp inOp step
  have located := invariant.located
  have fated := invariant.fated
  have within : next.pc.Within next.upload.pc := by
    rw [isEnter]
    trivial
  have inProgress : InProgress state.upload → InProgress next.upload := by
    simp only [InProgress, fwlp, pending]
    exact id
  rcases afterOp_cases inOp ret written with
    ⟨err, prepared, leads, isErr⟩ | ⟨isPc, leads⟩ | ⟨offset, isPc, leads⟩ |
    ⟨isPc, succeeds, leads⟩ | ⟨isPc, leads⟩
  · rw [leads] at upload
    refine ⟨within, ?_, fun _ => ?_⟩
    · simp only [Located, upload]
      exact ⟨inProgress (located.inProgress inOp), isErr⟩
    · simp only [Fated, upload]
  · rw [leads] at upload
    simp only [Located, isPc] at located
    refine ⟨within, ?_, fun isCancelled => ?_⟩
    · simp only [Located, upload]
      exact inProgress located
    · have fated := fated isCancelled
      simp only [Fated, isPc] at fated
      simp only [Fated, upload, m10bmc]
      exact fated.2
  · rw [leads] at upload
    simp only [Located, isPc] at located
    refine ⟨within, ?_, fun isCancelled => ?_⟩
    · simp only [Located, upload]
      exact inProgress located
    · have fated := fated isCancelled
      simp only [Fated, isPc] at fated
      simp only [Fated, upload, m10bmc]
      exact fated
  · rw [leads] at upload
    simp only [Located, isPc] at located
    refine ⟨within, ?_, fun isCancelled => ?_⟩
    · simp only [Located, upload, fwlp]
      exact ⟨inProgress located.1, Or.inr located.2⟩
    · have fated := fated isCancelled
      simp only [Fated, isPc] at fated
      exact absurd succeeds (fails isPc fated.1)
  · rw [leads] at upload
    simp only [Located, isPc] at located
    refine ⟨within, ?_, fun isCancelled => ?_⟩
    · simp only [Located, upload, fwlp]
      exact ⟨inProgress located.1, located.2⟩
    · have fated := fated isCancelled
      simp only [Fated, isPc] at fated
      simp only [Fated, upload, fwlp]
      exact fated

theorem CancelInvariant.finish_prepare {cancelled : Bool}
    {state next : SecUpload}
    (invariant : CancelInvariant cancelled state)
    (atPrepare : state.upload.pc = .prepare) {ret : FwUploadErr}
    {written : Nat} (step : state.finish ret written = some next) :
    CancelInvariant cancelled next := by
  refine invariant.finish ?_ step ?_
  · rw [atPrepare]
    trivial
  · exact fun atPoll => absurd (atPrepare.symm.trans atPoll) (by decide)

theorem CancelInvariant.finish_write {cancelled : Bool}
    {state next : SecUpload}
    (invariant : CancelInvariant cancelled state) {offset : Nat}
    (atWrite : state.upload.pc = .write offset) {ret : FwUploadErr}
    {written : Nat} (step : state.finish ret written = some next) :
    CancelInvariant cancelled next := by
  refine invariant.finish ?_ step ?_
  · rw [atWrite]
    trivial
  · exact fun atPoll => absurd (atWrite.symm.trans atPoll) (by simp)

/-- `fw_upload_main` goes on outside of the operations. -/
theorem CancelInvariant.main {cancelled : Bool} {state next : SecUpload}
    (invariant : CancelInvariant cancelled state)
    (notInOp : ¬ InOp state.upload.pc)
    (step : state.finish .none 0 = some next) :
    CancelInvariant cancelled next := by
  have located := invariant.located
  have fated := invariant.fated
  obtain ⟨upload, moves, rfl⟩ := Option.map_eq_some_iff.mp step
  cases isPc : state.upload.pc with
  | prepare | write | pollComplete | cleanup =>
      rw [isPc] at notInOp
      exact absurd trivial notInOp
  | idle =>
      simp only [Located, isPc] at located
      simp only [Fated, isPc] at fated
      simp only [ImageLoad.workerStep, isPc] at moves
      split_ifs at moves with pending
      cases moves
      have preparing : FwUploadProg.preparing ≠ .idle := by decide
      exact ⟨trivial, ⟨rfl, preparing⟩, fun isCancelled =>
        absurd (fated isCancelled).1 (located pending)⟩
  | setError ret prepared =>
      simp only [Located, isPc] at located
      simp only [ImageLoad.workerStep, isPc, Option.some.injEq] at moves
      subst moves
      cases prepared with
      | true =>
          exact ⟨trivial, ⟨located.1, Or.inl located.2⟩, fun _ =>
            located.2⟩
      | false =>
          exact ⟨trivial, ⟨located.1, Or.inl located.2⟩, fun _ =>
            located.2⟩
  | startTransfer =>
      simp only [Located, isPc] at located
      simp only [Fated, isPc] at fated
      simp only [ImageLoad.workerStep, isPc, Option.some.injEq] at moves
      subst moves
      have transferring : FwUploadProg.transferring ≠ .idle := by decide
      exact ⟨trivial, ⟨located.1, transferring⟩, fated⟩
  | loop offset =>
      simp only [Located, isPc] at located
      simp only [Fated, isPc] at fated
      simp only [ImageLoad.workerStep, isPc, Option.some.injEq] at moves
      subst moves
      by_cases more : state.upload.fwlp.remainingSize ≠ 0
      · rw [if_pos more]
        exact ⟨trivial, located, fated⟩
      · rw [if_neg more]
        exact ⟨trivial, located, fated⟩
  | startProgram =>
      simp only [Located, isPc] at located
      simp only [Fated, isPc] at fated
      simp only [ImageLoad.workerStep, isPc, Option.some.injEq] at moves
      subst moves
      have programming : FwUploadProg.programming ≠ .idle := by decide
      exact ⟨trivial, ⟨⟨located.1, programming⟩, rfl⟩, fun isCancelled =>
        ⟨Or.inl rfl, fated isCancelled⟩⟩
  | complete =>
      simp only [Located, isPc] at located
      simp only [Fated, isPc] at fated
      simp only [ImageLoad.workerStep, isPc, Option.some.injEq] at moves
      subst moves
      refine ⟨trivial, ?_, fun isCancelled => ⟨rfl, fated isCancelled⟩⟩
      intro pending
      exact absurd (located.1.1.symm.trans pending) (by decide)
  | advance | putDevice | vfree | clearData | eventfdPut
  | clearFinished =>
      simp only [Located, isPc] at located
      simp only [Fated, isPc] at fated
      simp only [ImageLoad.workerStep, isPc, Option.some.injEq] at moves
      subst moves
      exact ⟨trivial, located, fated⟩

theorem CancelInvariant.enterStep {info : BoardInfo} {cancelled : Bool}
    {state next : SecUpload} (invariant : CancelInvariant cancelled state)
    (isEnter : state.pc = .enter)
    (step : state.enterStep info = some next) :
    CancelInvariant cancelled next := by
  have fated := invariant.fated
  cases isPc : state.upload.pc with
  | prepare =>
      -- the flag is cleared here, and no cancellation has been noted
      have notCancelled : cancelled ≠ true := by
        intro isCancelled
        have fated := fated isCancelled
        simp only [Fated, isPc] at fated
        exact fated.1 isEnter
      simp only [SecUpload.enterStep, isPc] at step
      split_ifs at step
      · unfold SecUpload.setFinish at step
        refine (invariant.withM10bmc ?_).finish ?_ step ?_
        · exact fun isCancelled => absurd isCancelled notCancelled
        · rw [isPc]
          trivial
        · exact fun atPoll => absurd (isPc.symm.trans atPoll) (by decide)
      · refine invariant.inPrepare isPc step rfl (by decide) ?_
        exact fun inside => absurd isEnter inside
  | write offset =>
      simp only [SecUpload.enterStep, isPc] at step
      refine invariant.set step ?_ ?_
      · cases state.m10bmc.cancelRequest
        · exact ⟨offset, isPc⟩
        · exact Or.inr ⟨offset, isPc⟩
      · simp only [Fated, isPc]
        exact id
  | pollComplete =>
      simp only [SecUpload.enterStep, isPc] at step
      refine invariant.set step ?_ ?_
      · cases state.m10bmc.cancelRequest
        · exact isPc
        · exact Or.inl isPc
      · simp only [Fated, isPc]
        rintro ⟨-, requested⟩
        exact ⟨Or.inr (if_pos requested), requested⟩
  | cleanup =>
      simp only [SecUpload.enterStep, isPc] at step
      refine invariant.set step isPc ?_
      simp only [Fated, isPc]
      exact id
  | idle | setError | startTransfer | loop | advance | startProgram
  | putDevice | vfree | clearData | complete | eventfdPut | clearFinished =>
      simp only [SecUpload.enterStep, isPc] at step
      refine invariant.main ?_ step
      rw [isPc]
      exact id

/-- A check of `m10bmc_sec_prepare`, after which it goes on or gives up. -/
theorem CancelInvariant.checks {cancelled : Bool} {state next : SecUpload}
    {ret : FwUploadErr} {gaveUp onwards : SecPc}
    (invariant : CancelInvariant cancelled state)
    (atPrepare : state.upload.pc = .prepare)
    (step : state.go (if ret ≠ .none then gaveUp else onwards) = some next)
    (failure :
      ret ≠ .none → gaveUp.Within .prepare ∧ gaveUp ≠ .enter)
    (success : onwards.Within .prepare ∧ onwards ≠ .enter) :
    CancelInvariant cancelled next := by
  by_cases fails : ret ≠ .none
  · obtain ⟨within, inside⟩ := failure fails
    rw [if_pos fails] at step
    exact invariant.inPrepare atPrepare step within inside fun _ => rfl
  · obtain ⟨within, inside⟩ := success
    rw [if_neg fails] at step
    exact invariant.inPrepare atPrepare step within inside fun _ => rfl

theorem CancelInvariant.workerStep {info : BoardInfo} {answer : SecAnswer}
    {cancelled : Bool} {state next : SecUpload}
    (invariant : CancelInvariant cancelled state)
    (step : state.secWorkerStep info answer = some next) :
    CancelInvariant cancelled next := by
  have within := invariant.within
  cases isPc : state.pc with
  | enter =>
      simp only [SecUpload.secWorkerStep, isPc] at step
      exact invariant.enterStep isPc step
  | prepLock =>
      rw [isPc] at within
      have atPrepare : state.upload.pc = .prepare := within
      have flag := lockFlash_cancelRequest info state
      rcases locks : state.lockFlash info with ⟨_ | ret, m10bmc⟩
      · rw [locks] at flag
        simp only [SecUpload.secWorkerStep, isPc, locks] at step
        exact invariant.inPrepare atPrepare step rfl (by decide)
          fun _ => flag
      · simp only [SecUpload.secWorkerStep, isPc, locks] at step
        exact invariant.finish_prepare atPrepare step
  | prepCheckIdle | prepUpdateInit | prepReady =>
      rw [isPc] at within
      simp only [SecUpload.secWorkerStep, isPc] at step
      refine invariant.checks within step ?_ ⟨rfl, by decide⟩
      exact fun fails => ⟨⟨rfl, fails⟩, by simp⟩
  | prepSetPrepare =>
      rw [isPc] at within
      simp only [SecUpload.secWorkerStep, isPc] at step
      exact invariant.inPrepare within step rfl (by decide)
        fun _ => fwStateSet_cancelRequest _ _ _
  | prepCheckCancel =>
      rw [isPc] at within
      simp only [SecUpload.secWorkerStep, isPc] at step
      refine invariant.inPrepare within step ?_ ?_ fun _ => rfl
      · cases state.m10bmc.cancelRequest <;> rfl
      · cases state.m10bmc.cancelRequest <;> decide
  | prepCancel =>
      rw [isPc] at within
      simp only [SecUpload.secWorkerStep, isPc] at step
      exact invariant.inPrepare within step
        ⟨rfl, rsuCancelRet_ne_none _ _⟩ (by simp) fun _ => rfl
  | prepSetNormal ret =>
      rw [isPc] at within
      simp only [SecUpload.secWorkerStep, isPc] at step
      exact invariant.inPrepare within.1 step ⟨rfl, within.2⟩ (by simp)
        fun _ => fwStateSet_cancelRequest _ _ _
  | prepSetWrite =>
      rw [isPc] at within
      have atPrepare : state.upload.pc = .prepare := within
      simp only [SecUpload.secWorkerStep, isPc] at step
      exact (invariant.withM10bmc fun _ =>
        fwStateSet_cancelRequest info .secUpdateWrite _).finish_prepare
          atPrepare step
  | prepUnlock ret =>
      rw [isPc] at within
      simp only [SecUpload.secWorkerStep, isPc] at step
      exact (invariant.withM10bmc fun _ =>
        unlockFlash_cancelRequest info state).finish_prepare within.1 step
  | cancel =>
      rw [isPc] at within
      simp only [SecUpload.secWorkerStep, isPc] at step
      refine invariant.finish ?_ step ?_
      · rcases within with atPoll | ⟨offset, atWrite⟩
        · rw [atPoll]
          trivial
        · rw [atWrite]
          trivial
      · exact fun _ _ => rsuCancelRet_ne_none _ _
  | writeDoorbell size =>
      rw [isPc] at within
      obtain ⟨offset, atWrite⟩ := within
      simp only [SecUpload.secWorkerStep, isPc] at step
      split at step
      · exact invariant.finish_write atWrite step
      · split_ifs at step
        · exact invariant.finish_write atWrite step
        · refine invariant.set step ⟨offset, atWrite⟩ ?_
          simp only [Fated, atWrite]
          exact id
  | writeBlock blkSize =>
      rw [isPc] at within
      obtain ⟨offset, atWrite⟩ := within
      simp only [SecUpload.secWorkerStep, isPc] at step
      split at step
      · exact invariant.finish_write atWrite step
      · exact invariant.finish_write atWrite step
  | pollSetProgram =>
      rw [isPc] at within
      have atPoll : state.upload.pc = .pollComplete := within
      simp only [SecUpload.secWorkerStep, isPc] at step
      refine invariant.set step atPoll ?_
      simp only [Fated, atPoll, isPc]
      rintro ⟨wrong | wrong, -⟩ <;> cases wrong
  | pollSendData =>
      rw [isPc] at within
      have atPoll : state.upload.pc = .pollComplete := within
      simp only [SecUpload.secWorkerStep, isPc] at step
      split_ifs at step with fails
      · exact invariant.finish (by rw [atPoll]; trivial) step
          fun _ _ => fails
      · refine invariant.set step atPoll ?_
        simp only [Fated, atPoll, isPc]
        rintro ⟨wrong | wrong, -⟩ <;> cases wrong
  | pollWait =>
      rw [isPc] at within
      have atPoll : state.upload.pc = .pollComplete := within
      simp only [SecUpload.secWorkerStep, isPc] at step
      refine invariant.finish ?_ step ?_
      · rw [atPoll]
        trivial
      · rw [isPc]
        rintro - (wrong | wrong) <;> cases wrong
  | cleanSetNormal =>
      rw [isPc] at within
      have atCleanup : state.upload.pc = .cleanup := within
      simp only [SecUpload.secWorkerStep, isPc] at step
      refine invariant.set step atCleanup ?_
      simp only [Fated, atCleanup]
      exact id
  | cleanUnlock =>
      rw [isPc] at within
      have atCleanup : state.upload.pc = .cleanup := within
      simp only [SecUpload.secWorkerStep, isPc] at step
      unfold SecUpload.setFinish at step
      refine (invariant.withM10bmc fun _ =>
        unlockFlash_cancelRequest info state).finish ?_ step ?_
      · rw [atCleanup]
        trivial
      · exact fun atPoll => absurd (atCleanup.symm.trans atPoll) (by decide)

/-! ## Steps of the others -/

/-- An upload whose flag has been set in time is going to fail. -/
theorem Located.fated {state : SecUpload} (located : Located state.upload)
    (cleared : FlagCleared state)
    (inTime : state.upload.fwlp.progress ≠ .programming)
    (isSet : state.m10bmc.cancelRequest = true) : Fated state := by
  obtain ⟨notIdle, notPut, notClear, inside⟩ := cleared
  cases isPc : state.upload.pc with
  | idle => exact absurd isPc notIdle
  | eventfdPut => exact absurd isPc notPut
  | clearFinished => exact absurd isPc notClear
  | prepare =>
      simp only [Fated, isPc]
      exact ⟨inside isPc, isSet⟩
  | pollComplete =>
      simp only [Located, isPc] at located
      exact absurd located.2 inTime
  | setError => simp only [Fated, isPc]
  | cleanup | putDevice | vfree | clearData | complete =>
      simp only [Located, isPc] at located
      simp only [Fated, isPc]
      exact located.2.resolve_right inTime
  | startTransfer | loop | write | advance | startProgram =>
      simp only [Fated, isPc]
      exact isSet

/-- A further cancellation does not save an upload. -/
theorem Fated.cancel {state : SecUpload} (fated : Fated state) :
    Fated { state with
      upload := state.upload.emit .cancel
      m10bmc := { state.m10bmc with cancelRequest := true } } := by
  cases isPc : state.upload.pc with
  | idle | eventfdPut | clearFinished | cleanup | putDevice | vfree
  | clearData | complete =>
      simp only [Fated, isPc] at fated
      simp only [Fated, Upload.emit, isPc]
      exact fated
  | prepare | pollComplete =>
      simp only [Fated, isPc] at fated
      simp only [Fated, Upload.emit, isPc]
      exact ⟨fated.1, trivial⟩
  | setError => simp only [Fated, Upload.emit, isPc]
  | startTransfer | loop | write | advance | startProgram =>
      simp only [Fated, Upload.emit, isPc]

theorem CancelInvariant.cancel {cancelled : Bool} {state : SecUpload}
    (invariant : CancelInvariant cancelled state)
    (cleared : state.upload.fwlp.progress ≠ .idle → FlagCleared state) :
    CancelInvariant (cancelledAfter state cancelled .cancel)
      state.ioctlCancel.2 := by
  rcases state.ioctlCancel_cases with ⟨-, effect⟩ | ⟨busy, effect⟩
  · simp only [cancelledAfter, effect]
    exact invariant
  · simp only [cancelledAfter, effect]
    refine ⟨invariant.within, invariant.located, ?_⟩
    rw [Bool.or_eq_true, decide_eq_true_eq]
    rintro (isCancelled | inTime)
    · exact (invariant.fated isCancelled).cancel
    · exact Located.fated invariant.located (cleared busy) inTime rfl

theorem CancelInvariant.write {cancelled : Bool} {state : SecUpload}
    (invariant : CancelInvariant cancelled state) (request : WriteRequest)
    (idle : state.upload.fwlp.progress = .idle) :
    CancelInvariant (cancelledAfter state cancelled (.write request))
      (state.ioctlWrite request) := by
  by_cases passes : request.PassesChecks
  · rcases fpgaImageLoadIoctlWrite_of_passes passes state.upload
      with ⟨ret, -, effect⟩ | ⟨finished, -, accepted, accepts⟩
    · simp only [cancelledAfter, SecUpload.ioctlWrite, effect]
      exact ⟨invariant.within, invariant.located, invariant.fated⟩
    · simp only [cancelledAfter, accepted]
      have within : state.pc.Within
          (state.ioctlWrite request).upload.pc := by
        rw [SecUpload.ioctlWrite_pc]
        exact invariant.within
      refine ⟨within, ?_, fun isCancelled => by cases isCancelled⟩
      have receiving :
          (state.ioctlWrite request).upload.fwlp.progress ≠ .idle := by
        rw [SecUpload.ioctlWrite, accepts.progress]
        decide
      have isPc := SecUpload.ioctlWrite_pc state request
      rcases invariant.located.resting idle with atPc | atPc | atPc
      · rw [Located, isPc, atPc]
        exact fun _ => receiving
      · rw [Located, isPc, atPc]
        exact fun _ => receiving
      · rw [Located, isPc, atPc]
        exact fun _ => receiving
  · obtain ⟨refused, unchanged⟩ :=
      fpgaImageLoadIoctlWrite_of_not_passes passes state.upload
    obtain ⟨ret, isError⟩ := Option.ne_none_iff_exists'.mp refused
    simp only [cancelledAfter, isError, SecUpload.ioctlWrite, unchanged]
    exact invariant

/-! ## Runs -/

/-- Requests when idle, and cancellations after the flag was cleared. -/
theorem CancelInvariant.step {info : BoardInfo} {source target : CancelWatch}
    {action : SecAction}
    (invariant : CancelInvariant source.cancelled source.sec)
    (idle : RequestsWhenIdle source action)
    (afterClear : CancelsAfterClear source action)
    (step : source.Step info action target) :
    CancelInvariant target.cancelled target.sec := by
  obtain ⟨moves, cancelled⟩ := step
  rw [cancelled]
  cases action with
  | write request =>
      have effect : source.sec.ioctlWrite request = target.sec := moves
      rw [← effect]
      exact invariant.write request idle
  | cancel =>
      have effect : source.sec.ioctlCancel.2 = target.sec := moves
      rw [← effect]
      exact invariant.cancel afterClear
  | status | flashRead | sysAccess =>
      have effect : source.sec = target.sec := moves
      rw [← effect]
      exact invariant
  | worker answer => exact invariant.workerStep moves
  | retimer thread answer =>
      obtain ⟨m10bmc, pc, effect, changes⟩ :=
        SecUpload.retimerStep_cases moves
      have flag : m10bmc.cancelRequest =
          source.sec.m10bmc.cancelRequest := by
        rcases changes with rfl | rfl | ⟨-, rfl⟩
        · rfl
        · exact fwStateSet_cancelRequest _ _ _
        · exact fwStateSet_cancelRequest _ _ _
      have kept := invariant.withM10bmc fun _ => flag
      rw [effect]
      exact ⟨kept.within, kept.located, kept.fated⟩

theorem cancelInvariant_registered :
    CancelInvariant cancelWatch.cancelled cancelWatch.sec where
  within := trivial
  located := by
    intro pending
    cases pending
  fated := by
    intro isCancelled
    cases isCancelled

/--
Along every interleaving of the worker with cancellations and others, whatever
the board answers: an upload which was cancelled before its programming, by a
cancellation which came after `m10bmc_sec_prepare` had cleared the flag, does
not end as a success.
-/
theorem cancel_kept (info : BoardInfo)
    (path : List (SecAction × CancelWatch))
    (isPath : IsPath (CancelWatch.Step info) cancelWatch path)
    (whenIdle : StepsMeet RequestsWhenIdle cancelWatch path)
    (afterClear : StepsMeet CancelsAfterClear cancelWatch path) :
    Throughout CancelKept cancelWatch path := by
  have throughout : Throughout
      (fun watch => CancelInvariant watch.cancelled watch.sec)
      cancelWatch path := by
    refine throughout_of_stepsMeet ?_ (isPath.guarded whenIdle)
      cancelInvariant_registered afterClear
    intro source action target invariant afterClear step
    exact invariant.step step.1 afterClear step.2
  exact throughout.mono fun _ => CancelInvariant.kept

/-- The watch after an action. -/
def CancelWatch.apply (info : BoardInfo) (watch : CancelWatch)
    (action : SecAction) : CancelWatch where
  sec := watch.sec.apply info action
  cancelled := cancelledAfter watch.sec watch.cancelled action

theorem CancelWatch.isPath_applied {info : BoardInfo}
    {actions : List SecAction}
    (enabled : enabledAlong (CancelWatch.apply info)
      (fun watch => watch.sec.enabled info) cancelWatch actions = true) :
    IsPath (CancelWatch.Step info) cancelWatch
      (pathOf (CancelWatch.apply info) cancelWatch actions) := by
  apply isPath_of_enabledAlong ?_ enabled
  intro watch action enabled
  exact ⟨SecUpload.step_apply enabled, rfl⟩

/-- The upload is cancelled before the worker starts. -/
def cancelledEarly : List SecAction :=
  .write oneByteRequest :: .cancel :: wholeUpload

/-- The cancellation has been accepted, and the upload succeeds. -/
theorem early_cancel_lost :
    ∃ path,
      IsPath (CancelWatch.Step m10bmcSpiN3000) cancelWatch path ∧
        StepsMeet RequestsWhenIdle cancelWatch path ∧
          ¬ Throughout CancelKept cancelWatch path := by
  refine ⟨pathOf (CancelWatch.apply m10bmcSpiN3000) cancelWatch
    cancelledEarly, ?_, ?_, ?_⟩
  · apply CancelWatch.isPath_applied
    decide
  · apply stepsMeet_of_enabledAlong
    decide
  · intro throughout
    have kept := throughout.final (by decide) (by decide)
    exact absurd kept (by decide)

/-- The upload is cancelled when `m10bmc_sec_prepare` has begun. -/
def cancelledInPrepare : List SecAction :=
  .write oneByteRequest :: wholeUpload.take 2 ++
    .cancel :: (wholeUpload.drop 2).take 15

/-- The upload is over, and has failed. -/
theorem cancel_kept_in_prepare :
    ((cancelledInPrepare.foldl (CancelWatch.apply m10bmcSpiN3000)
      cancelWatch).sec.upload.fwlp.progress = .idle) ∧
    ((cancelledInPrepare.foldl (CancelWatch.apply m10bmcSpiN3000)
      cancelWatch).sec.upload.fwlp.errCode ≠ .none) := by
  have isOver : (cancelledInPrepare.foldl
      (CancelWatch.apply m10bmcSpiN3000)
        cancelWatch).sec.upload.fwlp.progress = .idle := by
    decide
  have throughout := cancel_kept m10bmcSpiN3000
    (pathOf (CancelWatch.apply m10bmcSpiN3000) cancelWatch
      cancelledInPrepare)
    (CancelWatch.isPath_applied (by decide))
    (stepsMeet_of_enabledAlong (by decide))
    (stepsMeet_of_enabledAlong (by decide))
  exact ⟨isOver, throughout.final (by decide) isOver⟩

end LinuxDfl.Bmc

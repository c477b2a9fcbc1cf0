import LinuxDfl.ImageLoad.Exclusive

/-!
# The completion of an upload

Each accepted upload brings an eventfd context, which the worker signals and
releases when it is done.  The worker still needs the context after it has
reported that it is idle, and clears the pointer to it last of all; a request
in between replaces the context under the worker.
-/

namespace LinuxDfl.ImageLoad

open LinuxDfl.Kernel
open LinuxDfl.Lib.Transition

/-! ## Notices -/

/-- What happens to the status of uploads and to their contexts. -/
inductive Notice where
  /-- An upload is accepted, and brings its context. -/
  | accepted (finished : EventfdCtx)
  /-- A request replaces what the pointer to the context held. -/
  | replaced (finished : Option EventfdCtx)
  /-- The worker sets the progress or the error of the upload. -/
  | status
  | signalled (finished : Option EventfdCtx)
  | released (finished : Option EventfdCtx)
  /-- The worker clears the pointer to the context, which held this. -/
  | cleared (finished : Option EventfdCtx)
  deriving DecidableEq, Repr

/-- What the worker gives notice of when it takes its next step. -/
def workerNotices (upload : Upload) : List Notice :=
  match upload.pc with
  | .idle => if upload.pending then [.status] else []
  | .setError _ _ => [.status]
  | .startTransfer => [.status]
  | .startProgram => [.status]
  | .complete => [.status, .signalled upload.fwlp.finished]
  | .eventfdPut => [.released upload.fwlp.finished]
  | .clearFinished => [.cleared upload.fwlp.finished]
  | _ => []

/-- The request gets as far as `eventfd_ctx_fdget`. -/
def WriteRequest.reachesEventfd (request : WriteRequest) : Bool :=
  request.copyRequest && decide (request.flags = 0) &&
    decide (request.size ≠ 0) && decide (0 ≤ request.evtfd) &&
      request.vzalloc && request.copyBuffer

/-- What a request gives notice of. -/
def writeNotices (request : WriteRequest) (upload : Upload) : List Notice :=
  if request.reachesEventfd then
    match request.eventfd with
    | .error _ => [.replaced upload.fwlp.finished]
    | .ok finished =>
        [.replaced upload.fwlp.finished, .accepted finished]
  else
    []

def Action.notices : Action → Upload → List Notice
  | .write request, upload => writeNotices request upload
  | .status _, _ => []
  | .cancel, _ => []
  | .worker _, upload => workerNotices upload

/-- Uploads, with the notices so far. -/
structure Watched where
  upload : Upload
  notices : List Notice

/-- One action of any thread; the driver may answer anything. -/
def Upload.Moves (upload : Upload) : Action → Upload → Prop
  | .write request, next =>
      (fpgaImageLoadIoctlWrite request upload).2 = next
  | .status _, next => upload = next
  | .cancel, next => (fpgaImageLoadIoctlCancel upload).2 = next
  | .worker answer, next => workerStep answer upload = some next

/-- One action of any thread, with its notices. -/
def Watched.Step (watched : Watched) (action : Action) (next : Watched) :
    Prop :=
  watched.upload.Moves action next.upload ∧
    next.notices = watched.notices ++ action.notices watched.upload

def watched (hasCleanup : Bool) : Watched := ⟨registered hasCleanup, []⟩

/-! ## What the notices should be -/

/-- How far the upload is which was accepted last. -/
inductive Phase where
  /-- It is done, and nothing holds its context. -/
  | rest
  /-- It has been accepted. -/
  | serving (finished : EventfdCtx)
  /-- Its context has been signalled. -/
  | signalled (finished : EventfdCtx)
  /-- Its context has been signalled and released. -/
  | released (finished : EventfdCtx)
  deriving DecidableEq, Repr

/--
Uploads follow one another.  The status of an upload is set before its own
context is signalled; then this context is released, and the pointer to it is
no longer of use to anyone.
-/
def Phase.next : Phase → Notice → Option Phase
  | .rest, .replaced none => some .rest
  | .rest, .cleared none => some .rest
  | .rest, .accepted finished => some (.serving finished)
  | .serving finished, .status => some (.serving finished)
  | .serving own, .signalled (some finished) =>
      if own = finished then some (.signalled own) else none
  | .signalled own, .released (some finished) =>
      if own = finished then some (.released own) else none
  | .released own, .cleared (some finished) =>
      if own = finished then some .rest else none
  | .released own, .replaced (some finished) =>
      if own = finished then some .rest else none
  | _, _ => none

def runPhase : Phase → List Notice → Option Phase
  | phase, [] => some phase
  | phase, notice :: rest =>
      (phase.next notice).bind fun next => runPhase next rest

theorem runPhase_append (phase : Phase) (first rest : List Notice) :
    runPhase phase (first ++ rest) =
      (runPhase phase first).bind fun next => runPhase next rest := by
  induction first generalizing phase with
  | nil => rfl
  | cons notice first ih =>
      cases step : phase.next notice with
      | none => simp only [List.cons_append, runPhase, step, Option.bind_none]
      | some next =>
          simp only [List.cons_append, runPhase, step, Option.bind_some]
          exact ih next

/-- The contexts which accepted uploads brought, in order. -/
def acceptedCtxs (notices : List Notice) : List EventfdCtx :=
  notices.filterMap fun
    | .accepted finished => some finished
    | _ => none

/-- What was signalled, in order. -/
def signalledCtxs (notices : List Notice) : List (Option EventfdCtx) :=
  notices.filterMap fun
    | .signalled finished => some finished
    | _ => none

/-- What was released, in order. -/
def releasedCtxs (notices : List Notice) : List (Option EventfdCtx) :=
  notices.filterMap fun
    | .released finished => some finished
    | _ => none

/-- The context of the upload which was accepted last, while it is not done. -/
def Phase.unsignalled : Phase → List EventfdCtx
  | .serving finished => [finished]
  | _ => []

def Phase.unreleased : Phase → List EventfdCtx
  | .serving finished => [finished]
  | .signalled finished => [finished]
  | _ => []

/-! ## What orderly notices say -/

/-- The contexts of which a notice is to come, and those of which it came. -/
theorem Phase.next_contexts {phase next : Phase} {notice : Notice}
    (step : phase.next notice = some next) :
    (phase.unsignalled ++ acceptedCtxs [notice]).map some =
        signalledCtxs [notice] ++ next.unsignalled.map some ∧
      (phase.unreleased ++ acceptedCtxs [notice]).map some =
        releasedCtxs [notice] ++ next.unreleased.map some := by
  unfold Phase.next at step
  split at step
  case h_9 => cases step
  case h_1 | h_2 | h_3 | h_4 =>
    cases step
    exact ⟨rfl, rfl⟩
  all_goals
    -- a context is named, which is to be the own one
    split_ifs at step with same
    cases step
    cases same
    exact ⟨rfl, rfl⟩

theorem acceptedCtxs_cons (notice : Notice) (rest : List Notice) :
    acceptedCtxs (notice :: rest) =
      acceptedCtxs [notice] ++ acceptedCtxs rest := by
  rw [← List.singleton_append, acceptedCtxs, List.filterMap_append]
  rfl

theorem signalledCtxs_cons (notice : Notice) (rest : List Notice) :
    signalledCtxs (notice :: rest) =
      signalledCtxs [notice] ++ signalledCtxs rest := by
  rw [← List.singleton_append, signalledCtxs, List.filterMap_append]
  rfl

theorem releasedCtxs_cons (notice : Notice) (rest : List Notice) :
    releasedCtxs (notice :: rest) =
      releasedCtxs [notice] ++ releasedCtxs rest := by
  rw [← List.singleton_append, releasedCtxs, List.filterMap_append]
  rfl

/-- Each upload has its own context signalled and released once, in order. -/
theorem runPhase_contexts {phase final : Phase} {notices : List Notice}
    (runs : runPhase phase notices = some final) :
    (phase.unsignalled ++ acceptedCtxs notices).map some =
        signalledCtxs notices ++ final.unsignalled.map some ∧
      (phase.unreleased ++ acceptedCtxs notices).map some =
        releasedCtxs notices ++ final.unreleased.map some := by
  induction notices generalizing phase with
  | nil =>
      cases runs
      exact ⟨by rw [acceptedCtxs, List.filterMap_nil, List.append_nil]; rfl,
        by rw [acceptedCtxs, List.filterMap_nil, List.append_nil]; rfl⟩
  | cons notice rest ih =>
      rw [runPhase, Option.bind_eq_some_iff] at runs
      obtain ⟨next, step, onwards⟩ := runs
      obtain ⟨signalled, released⟩ := Phase.next_contexts step
      obtain ⟨laterSignalled, laterReleased⟩ := ih onwards
      rw [acceptedCtxs_cons, signalledCtxs_cons, releasedCtxs_cons]
      constructor
      · rw [← List.append_assoc, List.map_append, signalled,
          List.append_assoc, ← List.map_append, laterSignalled,
          List.append_assoc]
      · rw [← List.append_assoc, List.map_append, released,
          List.append_assoc, ← List.map_append, laterReleased,
          List.append_assoc]

/--
The notices are in order, and so is what the worker does next; when it is at
rest, each accepted upload has had its own context signalled and released
once.
-/
structure Notified (watched : Watched) : Prop where
  orderly :
    (runPhase .rest
      (watched.notices ++ workerNotices watched.upload)).isSome = true
  at_rest :
    watched.upload.AtRest →
      signalledCtxs watched.notices =
          (acceptedCtxs watched.notices).map some ∧
        releasedCtxs watched.notices =
          (acceptedCtxs watched.notices).map some

/-- Each request arrives while the progress is idle. -/
def IssuedWhenIdle (upload : Upload) : Action → Prop
  | .write _ => upload.fwlp.progress = .idle
  | _ => True

/--
A request which gets as far as its eventfd does not do so between the signal
of the worker and the end of the worker's run.
-/
def SparesContext (watched : Watched) : Action → Prop
  | .write request =>
      request.reachesEventfd = true →
        watched.upload.pc ≠ .eventfdPut ∧
          (watched.upload.pc = .clearFinished →
            ∃ ret, request.eventfd = .error ret)
  | _ => True

/-! ## The invariant -/

/-- The worker is in the middle of an upload. -/
def WorkerPc.Busy (pc : WorkerPc) : Prop :=
  pc ≠ .idle ∧ pc ≠ .eventfdPut ∧ pc ≠ .clearFinished

/-- What the pointer to the context holds, and how far the upload is. -/
inductive CtxAt : Upload → Phase → Prop where
  | resting {upload : Upload} (pc : upload.pc = .idle)
      (pending : upload.pending = false)
      (progress : upload.fwlp.progress = .idle)
      (finished : upload.fwlp.finished = none) : CtxAt upload .rest
  | queued {upload : Upload} {ctx : EventfdCtx} (pc : upload.pc = .idle)
      (pending : upload.pending = true)
      (progress : upload.fwlp.progress ≠ .idle)
      (finished : upload.fwlp.finished = some ctx) :
      CtxAt upload (.serving ctx)
  | serving {upload : Upload} {ctx : EventfdCtx} (pc : upload.pc.Busy)
      (pending : upload.pending = false)
      (progress : upload.fwlp.progress ≠ .idle)
      (finished : upload.fwlp.finished = some ctx) :
      CtxAt upload (.serving ctx)
  | signalled {upload : Upload} {ctx : EventfdCtx}
      (pc : upload.pc = .eventfdPut)
      (pending : upload.pending = false)
      (progress : upload.fwlp.progress = .idle)
      (finished : upload.fwlp.finished = some ctx) :
      CtxAt upload (.signalled ctx)
  | released {upload : Upload} {ctx : EventfdCtx}
      (pc : upload.pc = .clearFinished)
      (pending : upload.pending = false)
      (progress : upload.fwlp.progress = .idle)
      (finished : upload.fwlp.finished = some ctx) :
      CtxAt upload (.released ctx)
  | replaced {upload : Upload} (pc : upload.pc = .clearFinished)
      (pending : upload.pending = false)
      (progress : upload.fwlp.progress = .idle)
      (finished : upload.fwlp.finished = none) : CtxAt upload .rest

/-- The notices so far are in order, and the pointer is as they say. -/
def Orderly (watched : Watched) : Prop :=
  ∃ phase, runPhase .rest watched.notices = some phase ∧
    CtxAt watched.upload phase

theorem orderly_watched (hasCleanup : Bool) : Orderly (watched hasCleanup) :=
  ⟨.rest, rfl, .resting rfl rfl rfl rfl⟩

/-- A busy worker may set the status, and signal the context in the end. -/
theorem busy_notices {upload : Upload} {ctx : EventfdCtx}
    (busy : upload.pc.Busy) (finished : upload.fwlp.finished = some ctx) :
    (runPhase (.serving ctx) (workerNotices upload)).isSome = true := by
  unfold workerNotices
  obtain ⟨notIdle, notPut, notClear⟩ := busy
  cases isPc : upload.pc <;>
    first
      | exact absurd isPc notIdle
      | exact absurd isPc notPut
      | exact absurd isPc notClear
      | rfl
      | simp [finished, runPhase, Phase.next]

theorem Orderly.notified {watched : Watched} (orderly : Orderly watched) :
    Notified watched := by
  obtain ⟨phase, runs, ctxAt⟩ := orderly
  constructor
  · rw [runPhase_append, runs]
    show (runPhase phase (workerNotices watched.upload)).isSome = true
    cases ctxAt with
    | resting pc pending progress finished =>
        simp [workerNotices, pc, pending, runPhase]
    | queued pc pending progress finished =>
        simp [workerNotices, pc, pending, runPhase, Phase.next]
    | serving pc pending progress finished =>
        exact busy_notices pc finished
    | signalled pc pending progress finished =>
        simp [workerNotices, pc, finished, runPhase, Phase.next]
    | released pc pending progress finished =>
        simp [workerNotices, pc, finished, runPhase, Phase.next]
    | replaced pc pending progress finished =>
        simp [workerNotices, pc, finished, runPhase, Phase.next]
  · rintro ⟨isPc, notPending⟩
    obtain ⟨signalled, released⟩ := runPhase_contexts runs
    cases ctxAt with
    | resting pc pending progress finished =>
        exact ⟨by simpa [Phase.unsignalled] using signalled.symm,
          by simpa [Phase.unreleased] using released.symm⟩
    | queued pc pending progress finished =>
        exact absurd (notPending.symm.trans pending) (by decide)
    | serving pc pending progress finished => exact absurd isPc pc.1
    | signalled pc pending progress finished =>
        exact absurd (isPc.symm.trans pc) (by decide)
    | released pc pending progress finished =>
        exact absurd (isPc.symm.trans pc) (by decide)
    | replaced pc pending progress finished =>
        exact absurd (isPc.symm.trans pc) (by decide)

/-! ## Steps of the worker -/

/-- What a busy worker leaves alone until it signals the context. -/
structure StaysBusy (upload next : Upload) : Prop where
  pc : next.pc.Busy
  pending : next.pending = upload.pending
  finished : next.fwlp.finished = upload.fwlp.finished
  progress : upload.fwlp.progress ≠ .idle → next.fwlp.progress ≠ .idle

theorem workerStep_busy {answer : OpAnswer} {upload next : Upload}
    (busy : upload.pc.Busy) (notComplete : upload.pc ≠ .complete)
    (step : workerStep answer upload = some next) :
    StaysBusy upload next := by
  obtain ⟨notIdle, notPut, notClear⟩ := busy
  cases isPc : upload.pc with
  | idle => exact absurd isPc notIdle
  | eventfdPut => exact absurd isPc notPut
  | clearFinished => exact absurd isPc notClear
  | complete => exact absurd isPc notComplete
  | prepare =>
      simp only [workerStep, isPc, Option.some.injEq] at step
      subst step
      refine ⟨?_, rfl, rfl, id⟩
      by_cases prepared : answer.ret = .none <;>
        simp [prepared, WorkerPc.Busy]
  | setError ret prepared =>
      simp only [workerStep, isPc, Option.some.injEq] at step
      subst step
      refine ⟨?_, rfl, rfl, id⟩
      cases prepared <;> simp [WorkerPc.Busy]
  | loop offset =>
      simp only [workerStep, isPc, Option.some.injEq] at step
      subst step
      refine ⟨?_, rfl, rfl, id⟩
      by_cases more : upload.fwlp.remainingSize ≠ 0 <;>
        simp [more, WorkerPc.Busy]
  | write offset =>
      simp only [workerStep, isPc, Option.some.injEq] at step
      subst step
      refine ⟨?_, rfl, rfl, id⟩
      by_cases fails : answer.ret ≠ .none
      · simp [fails, WorkerPc.Busy]
      · by_cases nothing : answer.written = 0 <;>
          simp [fails, nothing, WorkerPc.Busy]
  | pollComplete =>
      simp only [workerStep, isPc, Option.some.injEq] at step
      subst step
      refine ⟨?_, rfl, rfl, id⟩
      by_cases completes : answer.ret = .none <;>
        simp [completes, WorkerPc.Busy]
  | cleanup =>
      simp only [workerStep, isPc, Option.some.injEq] at step
      subst step
      by_cases cleans : upload.hasCleanup = true
      · rw [if_pos cleans]
        exact ⟨by simp [WorkerPc.Busy], rfl, rfl, id⟩
      · rw [if_neg cleans]
        exact ⟨by simp [WorkerPc.Busy], rfl, rfl, id⟩
  | startTransfer | startProgram =>
      simp only [workerStep, isPc, Option.some.injEq] at step
      subst step
      exact ⟨by simp [WorkerPc.Busy], rfl, rfl, fun _ => by
        simp [fwUploadUpdateProgress]⟩
  | advance | putDevice | vfree | clearData =>
      simp only [workerStep, isPc, Option.some.injEq] at step
      subst step
      exact ⟨by simp [WorkerPc.Busy], rfl, rfl, id⟩

/-- A busy worker which is not about to signal sets the status at most. -/
theorem busy_runs {upload : Upload} (ctx : EventfdCtx)
    (busy : upload.pc.Busy) (notComplete : upload.pc ≠ .complete) :
    runPhase (.serving ctx) (workerNotices upload) =
      some (.serving ctx) := by
  unfold workerNotices
  obtain ⟨notIdle, notPut, notClear⟩ := busy
  cases isPc : upload.pc <;>
    first
      | exact absurd isPc notIdle
      | exact absurd isPc notPut
      | exact absurd isPc notClear
      | exact absurd isPc notComplete
      | rfl

/-- Each step of the worker goes with its notices. -/
theorem CtxAt.workerStep {upload next : Upload} {phase : Phase}
    {answer : OpAnswer} (ctxAt : CtxAt upload phase)
    (step : workerStep answer upload = some next) :
    ∃ after, runPhase phase (workerNotices upload) = some after ∧
      CtxAt next after := by
  cases ctxAt with
  | resting pc pending progress finished =>
      simp [ImageLoad.workerStep, pc, pending] at step
  | @queued ctx pc pending progress finished =>
      simp only [ImageLoad.workerStep, pc, pending, if_true,
        Option.some.injEq] at step
      subst step
      refine ⟨.serving ctx, ?_, .serving ?_ rfl ?_ finished⟩
      · simp [workerNotices, pc, pending, runPhase, Phase.next]
      · simp [WorkerPc.Busy]
      · simp [fwUploadUpdateProgress]
  | @serving ctx pc pending progress finished =>
      by_cases complete : upload.pc = .complete
      · simp only [ImageLoad.workerStep, complete, Option.some.injEq] at step
        subst step
        refine ⟨.signalled ctx, ?_, .signalled rfl pending rfl finished⟩
        simp [workerNotices, complete, finished, runPhase, Phase.next]
      · have stays := workerStep_busy pc complete step
        refine ⟨.serving ctx, busy_runs ctx pc complete, ?_⟩
        exact .serving stays.pc (stays.pending.trans pending)
          (stays.progress progress) (stays.finished.trans finished)
  | @signalled ctx pc pending progress finished =>
      simp only [ImageLoad.workerStep, pc, Option.some.injEq] at step
      subst step
      refine ⟨.released ctx, ?_, .released rfl pending progress finished⟩
      simp [workerNotices, pc, finished, runPhase, Phase.next]
  | @released ctx pc pending progress finished =>
      simp only [ImageLoad.workerStep, pc, Option.some.injEq] at step
      subst step
      refine ⟨.rest, ?_, .resting rfl pending progress rfl⟩
      simp [workerNotices, pc, finished, runPhase, Phase.next]
  | replaced pc pending progress finished =>
      simp only [ImageLoad.workerStep, pc, Option.some.injEq] at step
      subst step
      refine ⟨.rest, ?_, .resting rfl pending progress rfl⟩
      simp [workerNotices, pc, finished, runPhase, Phase.next]

/-! ## Requests -/

theorem WriteRequest.reachesEventfd_iff (request : WriteRequest) :
    request.reachesEventfd = true ↔ request.PassesChecks := by
  unfold reachesEventfd
  simp only [Bool.and_eq_true, decide_eq_true_eq]
  constructor
  · rintro ⟨⟨⟨⟨⟨copyRequest, flags⟩, size⟩, evtfd⟩, vzalloc⟩, copyBuffer⟩
    exact ⟨copyRequest, flags, size, evtfd, vzalloc, copyBuffer⟩
  · rintro ⟨copyRequest, flags, size, evtfd, vzalloc, copyBuffer⟩
    exact ⟨⟨⟨⟨⟨copyRequest, flags⟩, size⟩, evtfd⟩, vzalloc⟩, copyBuffer⟩

/-- The request replaces the pointer to the context by its own. -/
structure TakesContext (request : WriteRequest) (upload next : Upload)
    (ctx : EventfdCtx) : Prop where
  eventfd : request.eventfd = .ok ctx
  pc : next.pc = upload.pc
  pending : next.pending = true
  progress : next.fwlp.progress ≠ .idle
  finished : next.fwlp.finished = some ctx

/-- What a request does which gets as far as its eventfd. -/
theorem ioctlWrite_of_reaches
    {request : WriteRequest} (reaches : request.reachesEventfd = true)
    (upload : Upload) :
    (∃ ret, request.eventfd = .error ret ∧
      (fpgaImageLoadIoctlWrite request upload).2 =
        { upload with fwlp := { upload.fwlp with finished := none } }) ∨
    (∃ ctx, TakesContext request upload
      (fpgaImageLoadIoctlWrite request upload).2 ctx) := by
  obtain ⟨copyRequest, flags, size, evtfd, vzalloc, copyBuffer⟩ :=
    request.reachesEventfd_iff.mp reaches
  have notNegative : ¬ request.evtfd < 0 := Int.not_lt.mpr evtfd
  simp only [fpgaImageLoadIoctlWrite, copyRequest, flags, size, notNegative,
    vzalloc, copyBuffer]
  cases eventfd : request.eventfd with
  | error ret => exact Or.inl ⟨ret, rfl, by simp⟩
  | ok ctx =>
      refine Or.inr ⟨ctx, eventfd, ?_, ?_, ?_, ?_⟩ <;> simp

/-- A request which does not get as far as its eventfd changes nothing. -/
theorem ioctlWrite_of_not_reaches
    {request : WriteRequest} (stops : ¬ request.reachesEventfd = true)
    (upload : Upload) :
    (fpgaImageLoadIoctlWrite request upload).2 = upload :=
  (fpgaImageLoadIoctlWrite_of_not_passes
    (fun passes => stops (request.reachesEventfd_iff.mpr passes)) upload).2

/-- A request which spares the context, while the progress is idle. -/
theorem CtxAt.ioctlWrite {upload : Upload} {phase : Phase}
    (ctxAt : CtxAt upload phase) (request : WriteRequest)
    (idle : upload.fwlp.progress = .idle)
    (spares : request.reachesEventfd = true →
      upload.pc ≠ .eventfdPut ∧
        (upload.pc = .clearFinished → ∃ ret, request.eventfd = .error ret)) :
    ∃ after, runPhase phase (writeNotices request upload) = some after ∧
      CtxAt (fpgaImageLoadIoctlWrite request upload).2 after := by
  unfold writeNotices
  by_cases reaches : request.reachesEventfd = true
  swap
  · rw [if_neg reaches, ioctlWrite_of_not_reaches reaches]
    exact ⟨phase, rfl, ctxAt⟩
  obtain ⟨notPut, onClear⟩ := spares reaches
  rw [if_pos reaches]
  cases ctxAt with
  | queued pc pending progress finished => exact absurd idle progress
  | serving pc pending progress finished => exact absurd idle progress
  | signalled pc pending progress finished => exact absurd pc notPut
  | resting pc pending progress finished =>
      rcases ioctlWrite_of_reaches reaches upload
        with ⟨ret, eventfd, effect⟩ | ⟨ctx, takes⟩
      · rw [eventfd, effect, finished]
        exact ⟨.rest, rfl, .resting pc pending progress rfl⟩
      · rw [takes.eventfd, finished]
        exact ⟨.serving ctx, rfl, .queued (takes.pc.trans pc) takes.pending
          takes.progress takes.finished⟩
  | @released ctx pc pending progress finished =>
      obtain ⟨ret, eventfd⟩ := onClear pc
      rcases ioctlWrite_of_reaches reaches upload
        with ⟨other, -, effect⟩ | ⟨taken, takes⟩
      · rw [eventfd, effect, finished]
        refine ⟨.rest, ?_, .replaced pc pending progress rfl⟩
        simp [runPhase, Phase.next]
      · exact absurd (eventfd.symm.trans takes.eventfd) (by simp)
  | replaced pc pending progress finished =>
      obtain ⟨ret, eventfd⟩ := onClear pc
      rcases ioctlWrite_of_reaches reaches upload
        with ⟨other, -, effect⟩ | ⟨taken, takes⟩
      · rw [eventfd, effect, finished]
        exact ⟨.rest, rfl, .replaced pc pending progress rfl⟩
      · exact absurd (eventfd.symm.trans takes.eventfd) (by simp)

/-- A cancellation leaves the contexts alone. -/
theorem CtxAt.ioctlCancel {upload : Upload} {phase : Phase}
    (ctxAt : CtxAt upload phase) :
    CtxAt (fpgaImageLoadIoctlCancel upload).2 phase := by
  unfold fpgaImageLoadIoctlCancel
  by_cases idle : upload.fwlp.progress = .idle
  · rw [if_pos idle]
    exact ctxAt
  · rw [if_neg idle]
    cases ctxAt with
    | resting pc pending progress finished => exact absurd progress idle
    | signalled pc pending progress finished => exact absurd progress idle
    | released pc pending progress finished => exact absurd progress idle
    | replaced pc pending progress finished => exact absurd progress idle
    | queued pc pending progress finished =>
        exact .queued pc pending progress finished
    | serving pc pending progress finished =>
        exact .serving pc pending progress finished

/-! ## Runs -/

/-- A step which spares the context keeps the notices in order. -/
theorem Orderly.step {source target : Watched} {action : Action}
    (orderly : Orderly source) (idle : IssuedWhenIdle source.upload action)
    (spares : SparesContext source action)
    (step : source.Step action target) : Orderly target := by
  obtain ⟨phase, runs, ctxAt⟩ := orderly
  obtain ⟨moves, notices⟩ := step
  have goesOn :
      ∃ after, runPhase phase (action.notices source.upload) = some after ∧
        CtxAt target.upload after := by
    cases action with
    | write request =>
        have effect : (fpgaImageLoadIoctlWrite request source.upload).2 =
          target.upload := moves
        rw [← effect]
        exact ctxAt.ioctlWrite request idle spares
    | status copyToUser =>
        have effect : source.upload = target.upload := moves
        rw [← effect]
        exact ⟨phase, rfl, ctxAt⟩
    | cancel =>
        have effect : (fpgaImageLoadIoctlCancel source.upload).2 =
          target.upload := moves
        rw [← effect]
        exact ⟨phase, rfl, ctxAt.ioctlCancel⟩
    | worker answer => exact ctxAt.workerStep moves
  obtain ⟨after, runsOn, ctxAfter⟩ := goesOn
  refine ⟨after, ?_, ctxAfter⟩
  rw [notices, runPhase_append, runs]
  exact runsOn

/-- A request in front of the release takes the context of another upload. -/
theorem writeNotices_of_signalled {request : WriteRequest}
    (reaches : request.reachesEventfd = true) {upload : Upload}
    {ctx : EventfdCtx} (finished : upload.fwlp.finished = some ctx)
    (rest : List Notice) :
    runPhase (.signalled ctx) (writeNotices request upload ++ rest) =
      none := by
  unfold writeNotices
  rw [if_pos reaches, finished]
  cases request.eventfd <;> rfl

/-- A context which is recorded in front of the end of a run is cleared. -/
theorem writeNotices_of_released {request : WriteRequest}
    (reaches : request.reachesEventfd = true) {upload next : Upload}
    {phase : Phase} {ctx : EventfdCtx} (ctxAt : CtxAt upload phase)
    (isPc : upload.pc = .clearFinished)
    (takes : TakesContext request upload next ctx) :
    runPhase phase (writeNotices request upload ++ workerNotices next) =
      none := by
  have clears : workerNotices next = [.cleared (some ctx)] := by
    rw [workerNotices, takes.pc, isPc, takes.finished]
  unfold writeNotices
  rw [if_pos reaches, takes.eventfd, clears]
  cases ctxAt with
  | resting pc pending progress finished =>
      exact absurd (pc.symm.trans isPc) (by decide)
  | queued pc pending progress finished =>
      exact absurd (pc.symm.trans isPc) (by decide)
  | serving pc pending progress finished => exact absurd isPc pc.2.2
  | signalled pc pending progress finished =>
      exact absurd (pc.symm.trans isPc) (by decide)
  | released pc pending progress finished =>
      simp [finished, runPhase, Phase.next]
  | replaced pc pending progress finished =>
      rw [finished]
      rfl

/-- A step which does not spare the context breaks the order. -/
theorem Orderly.lost {source target : Watched} {action : Action}
    (orderly : Orderly source) (grabs : ¬ SparesContext source action)
    (step : source.Step action target) : ¬ Notified target := by
  obtain ⟨phase, runs, ctxAt⟩ := orderly
  obtain ⟨moves, notices⟩ := step
  intro notified
  have orderly := notified.orderly
  rw [notices, List.append_assoc, runPhase_append, runs,
    Option.bind_some] at orderly
  cases action with
  | status copyToUser => exact grabs trivial
  | cancel => exact grabs trivial
  | worker answer => exact grabs trivial
  | write request =>
      have effect : (fpgaImageLoadIoctlWrite request source.upload).2 =
        target.upload := moves
      have broken :
          runPhase phase
              (writeNotices request source.upload ++
                workerNotices target.upload) ≠ none := by
        intro stops
        rw [Action.notices, stops] at orderly
        exact absurd orderly (by decide)
      refine grabs fun reaches => ⟨fun isPc => ?_, fun isPc => ?_⟩
      · cases ctxAt with
        | resting pc pending progress finished =>
            exact absurd (pc.symm.trans isPc) (by decide)
        | queued pc pending progress finished =>
            exact absurd (pc.symm.trans isPc) (by decide)
        | serving pc pending progress finished => exact pc.2.1 isPc
        | released pc pending progress finished =>
            exact absurd (pc.symm.trans isPc) (by decide)
        | replaced pc pending progress finished =>
            exact absurd (pc.symm.trans isPc) (by decide)
        | signalled pc pending progress finished =>
            exact broken (writeNotices_of_signalled reaches finished _)
      · rcases ioctlWrite_of_reaches reaches source.upload
          with ⟨ret, eventfd, -⟩ | ⟨ctx, takes⟩
        · exact ⟨ret, eventfd⟩
        · rw [effect] at takes
          exact absurd (writeNotices_of_released reaches ctxAt isPc takes)
            broken

/-- Each request arrives while the progress is idle. -/
def IdleRequests (watched : Watched) (action : Action) : Prop :=
  IssuedWhenIdle watched.upload action

/--
Along every interleaving in which requests arrive while the progress is idle
only: the completions of uploads are notified in order, if and only if no
request gets as far as its eventfd between the signal for the last upload and
the end of the worker's run.
-/
theorem completion_notified_iff (hasCleanup : Bool)
    (path : List (Action × Watched))
    (isPath : IsPath Watched.Step (watched hasCleanup) path)
    (whenIdle : StepsMeet IdleRequests (watched hasCleanup) path) :
    Throughout Notified (watched hasCleanup) path ↔
      StepsMeet SparesContext (watched hasCleanup) path := by
  refine throughout_iff_stepsMeet_of_strong (fun _ => Orderly.notified)
    ?kept ?lost (isPath.guarded whenIdle) (orderly_watched hasCleanup)
  case kept =>
    intro source action target orderly spares step
    exact orderly.step step.1 spares step.2
  case lost =>
    intro source action target orderly grabs step
    exact orderly.lost grabs step.2

/-- The uploads after an action, with its notices. -/
def Watched.apply (watched : Watched) (action : Action) : Watched where
  upload :=
    match action with
    | .write request => (fpgaImageLoadIoctlWrite request watched.upload).2
    | .status _ => watched.upload
    | .cancel => (fpgaImageLoadIoctlCancel watched.upload).2
    | .worker answer =>
        (workerStep answer watched.upload).getD watched.upload
  notices := watched.notices ++ action.notices watched.upload

/-- The worker can take each of its steps among the actions. -/
def stepsEnabled : Watched → List Action → Bool
  | _, [] => true
  | source, .worker answer :: rest =>
      (workerStep answer source.upload).isSome &&
        stepsEnabled (source.apply (.worker answer)) rest
  | source, action :: rest => stepsEnabled (source.apply action) rest

theorem isPath_applied (source : Watched) (actions : List Action)
    (enabled : stepsEnabled source actions = true) :
    IsPath Watched.Step source (pathOf Watched.apply source actions) := by
  induction actions generalizing source with
  | nil => trivial
  | cons action rest ih =>
      cases action with
      | write request => exact ⟨⟨rfl, rfl⟩, ih _ enabled⟩
      | status copyToUser => exact ⟨⟨rfl, rfl⟩, ih _ enabled⟩
      | cancel => exact ⟨⟨rfl, rfl⟩, ih _ enabled⟩
      | worker answer =>
          obtain ⟨steps, onwards⟩ := Bool.and_eq_true_iff.mp enabled
          obtain ⟨next, step⟩ := Option.isSome_iff_exists.mp steps
          refine ⟨⟨?_, rfl⟩, ih _ onwards⟩
          show workerStep answer source.upload =
            some ((workerStep answer source.upload).getD source.upload)
          rw [step]
          rfl

/-- An upload whose driver fails to prepare, up to the signal for it. -/
def failedUpload : List Action :=
  .write oneByteRequest :: List.replicate 7 (.worker ⟨.busy, 0⟩)

/-- A request for one byte, with another eventfd. -/
def otherRequest : WriteRequest :=
  { oneByteRequest with evtfd := 4, eventfd := .ok 8 }

/-- The next request takes the context before the worker has released it. -/
theorem request_takes_signalled_context :
    ∃ path, IsPath Watched.Step (watched true) path ∧
      StepsMeet IdleRequests (watched true) path ∧
        ¬ Throughout Notified (watched true) path := by
  refine ⟨pathOf Watched.apply (watched true)
    (failedUpload ++ [.write otherRequest]), ?_, ?_, ?_⟩
  · exact isPath_applied _ _ (by decide)
  · exact ⟨rfl, trivial, trivial, trivial, trivial, trivial, trivial, trivial,
      rfl, trivial⟩
  · intro throughout
    exact absurd throughout.final.orderly (by decide)

/-- A failed upload, the end of the worker's run, and a further request. -/
def nextUpload : List Action :=
  failedUpload ++ List.replicate 2 (.worker ⟨.none, 0⟩) ++
    [.write otherRequest]

/-- The next request is in order when the worker has ended its run. -/
theorem completion_notified_after_run :
    Notified (nextUpload.foldl Watched.apply (watched true)) := by
  refine Throughout.final ((completion_notified_iff true
    (pathOf Watched.apply (watched true) nextUpload)
    (isPath_applied _ _ (by decide)) ?_).mpr ?_)
  · exact ⟨rfl, trivial, trivial, trivial, trivial, trivial, trivial, trivial,
      trivial, trivial, rfl, trivial⟩
  · refine ⟨fun _ => ⟨?_, ?_⟩, trivial, trivial, trivial, trivial, trivial,
      trivial, trivial, trivial, trivial, fun _ => ⟨?_, ?_⟩, trivial⟩
    · decide
    · exact fun atEnd => absurd atEnd (by decide)
    · decide
    · exact fun atEnd => absurd atEnd (by decide)

end LinuxDfl.ImageLoad

import Mathlib.Tactic.SplitIfs
import LinuxDfl.ImageLoad.Upload
import LinuxDfl.Lib.History
import LinuxDfl.Lib.Transition

/-!
# Uploads are exclusive

The requests which were accepted, their buffers and the runs of the worker
correspond one to one as long as requests arrive while no upload is in
progress.  `fpga_image_load_ioctl_write` does not look at the progress
itself, so a request during an upload is not refused.
-/

namespace LinuxDfl.ImageLoad

open LinuxDfl.Kernel
open LinuxDfl.Lib.History
open LinuxDfl.Lib.Transition

/-! ## What a history tells -/

/-- The accepted requests, in order. -/
def acceptedOf (history : List Event) : List Accepted :=
  history.filterMap fun
    | .accepted request => some request
    | _ => none

/-- The buffers which were freed, in order. -/
def freedOf (history : List Event) : List (Option Buffer) :=
  history.filterMap fun
    | .vfree data => some data
    | _ => none

/-- How often the worker has begun to run. -/
def startsOf (history : List Event) : Nat :=
  history.countP fun
    | .started => true
    | _ => false

/-- The buffers of all accepted requests were freed, each of them once. -/
def NoneInFlight (history : List Event) : Prop :=
  freedOf history = (acceptedOf history).map fun request => some request.buf

/-- All accepted requests but the last one are done with their buffers. -/
def InFlight (history : List Event) (request : Accepted) : Prop :=
  ∃ done, acceptedOf history = done ++ [request] ∧
    freedOf history = done.map fun request => some request.buf

/-- The worker runs for the request which is in flight. -/
def Serves (history : List Event) (request : Accepted) : Prop :=
  InFlight history request ∧
    startsOf history = (acceptedOf history).length

/--
What may happen after a history: uploads follow one another, each run of the
worker serves the request which is in flight and passes its buffer only.
-/
def Allowed (history : List Event) : Event → Prop
  | .accepted request =>
      NoneInFlight history ∧
        ∀ earlier ∈ acceptedOf history, earlier.buf ≠ request.buf
  | .started =>
      ∃ request, InFlight history request ∧
        startsOf history + 1 = (acceptedOf history).length
  | .prepare data size =>
      ∃ request, Serves history request ∧ data = some request.buf ∧
        size ≤ request.size
  | .write data offset size =>
      ∃ request, Serves history request ∧ data = some request.buf ∧
        offset + size ≤ request.size
  | .vfree data =>
      ∃ request, Serves history request ∧ data = some request.buf
  | _ => True

/-- The worker does not run, and is not going to. -/
def Upload.AtRest (upload : Upload) : Prop :=
  upload.pc = .idle ∧ upload.pending = false

/-- Uploads have been exclusive so far. -/
structure Exclusive (upload : Upload) : Prop where
  allowed : Everywhere Allowed upload.history
  at_rest : upload.AtRest → NoneInFlight upload.history

/-- A request during an upload is refused, and changes nothing. -/
def RefusedWhileBusy (upload : Upload) : Action → Prop
  | .write request =>
      upload.fwlp.progress ≠ .idle →
        (fpgaImageLoadIoctlWrite request upload).1 ≠ none ∧
          (fpgaImageLoadIoctlWrite request upload).2 = upload
  | _ => True

/-- None of the checks on its arguments stops the request. -/
structure WriteRequest.PassesChecks (request : WriteRequest) : Prop where
  copyRequest : request.copyRequest = true
  flags : request.flags = 0
  size : request.size ≠ 0
  evtfd : 0 ≤ request.evtfd
  vzalloc : request.vzalloc = true
  copyBuffer : request.copyBuffer = true

/--
The condition on a request: it arrives while the progress is idle, unless its
arguments are refused, or its descriptor is while no eventfd is recorded.
-/
def WritesWhenIdle (upload : Upload) : Action → Prop
  | .write request =>
      request.PassesChecks → upload.fwlp.progress = .idle ∨
        (upload.fwlp.finished = none ∧ ∃ ret, request.eventfd = .error ret)
  | _ => True

/-! ## Histories which grow -/

@[simp]
theorem acceptedOf_append (history : List Event) (event : Event) :
    acceptedOf (history ++ [event]) =
      acceptedOf history ++ acceptedOf [event] :=
  List.filterMap_append

@[simp]
theorem freedOf_append (history : List Event) (event : Event) :
    freedOf (history ++ [event]) = freedOf history ++ freedOf [event] :=
  List.filterMap_append

@[simp]
theorem startsOf_append (history : List Event) (event : Event) :
    startsOf (history ++ [event]) = startsOf history + startsOf [event] :=
  List.countP_append

/-- Events which neither accept a request, nor start, nor free a buffer. -/
def Event.Passing (event : Event) : Prop :=
  acceptedOf [event] = [] ∧ freedOf [event] = [] ∧ startsOf [event] = 0

theorem NoneInFlight.append_passing
    {history : List Event} {event : Event}
    (none : NoneInFlight history) (passing : event.Passing) :
    NoneInFlight (history ++ [event]) := by
  simpa [NoneInFlight, passing.1, passing.2.1] using none

theorem InFlight.append_passing
    {history : List Event} {event : Event} {request : Accepted}
    (inFlight : InFlight history request) (passing : event.Passing) :
    InFlight (history ++ [event]) request := by
  simpa [InFlight, passing.1, passing.2.1] using inFlight

theorem Serves.append_passing
    {history : List Event} {event : Event} {request : Accepted}
    (serves : Serves history request) (passing : event.Passing) :
    Serves (history ++ [event]) request :=
  ⟨serves.1.append_passing passing,
    by simpa [passing.1, passing.2.2] using serves.2⟩

/-- Accepting a request when none is in flight puts it in flight. -/
theorem NoneInFlight.append_accepted
    {history : List Event} (none : NoneInFlight history)
    (request : Accepted) :
    InFlight (history ++ [.accepted request]) request := by
  refine ⟨acceptedOf history, by simp [acceptedOf], ?_⟩
  have noFree : freedOf [.accepted request] = [] := rfl
  rw [freedOf_append, noFree, List.append_nil]
  exact none

/-- The run which starts serves the request which is in flight. -/
theorem InFlight.append_started
    {history : List Event} {request : Accepted}
    (inFlight : InFlight history request)
    (behind : startsOf history + 1 = (acceptedOf history).length) :
    Serves (history ++ [.started]) request := by
  have noAccept : acceptedOf [.started] = [] := rfl
  have noFree : freedOf [.started] = [] := rfl
  have starts : startsOf [.started] = 1 := rfl
  refine ⟨?_, ?_⟩
  · simpa [InFlight, noAccept, noFree] using inFlight
  · simpa [noAccept, starts] using behind

/-- Freeing the buffer of the request in flight leaves none in flight. -/
theorem InFlight.append_vfree
    {history : List Event} {request : Accepted}
    (inFlight : InFlight history request) :
    NoneInFlight (history ++ [.vfree (some request.buf)]) := by
  obtain ⟨done, accepted, freed⟩ := inFlight
  have noAccept : acceptedOf [.vfree (some request.buf)] = [] := rfl
  have free :
      freedOf [.vfree (some request.buf)] = [some request.buf] := rfl
  simp [NoneInFlight, noAccept, free, accepted, freed]

/-! ## The invariant -/

/-- The part of the state which the worker and the requests agree on. -/
structure View where
  pending : Bool
  progress : FwUploadProg
  data : Option Buffer
  remainingSize : Nat
  history : List Event

def Upload.view (upload : Upload) : View where
  pending := upload.pending
  progress := upload.fwlp.progress
  data := upload.fwlp.data
  remainingSize := upload.fwlp.remainingSize
  history := upload.history

/-- No upload: nothing is queued, and every request is done. -/
structure Resting (view : View) : Prop where
  pending : view.pending = false
  progress : view.progress = .idle
  none : NoneInFlight view.history
  starts : startsOf view.history = (acceptedOf view.history).length

/-- A request is in flight, and the worker is going to run for it. -/
structure Queued (view : View) : Prop where
  pending : view.pending = true
  progress : view.progress ≠ .idle
  starts : startsOf view.history + 1 = (acceptedOf view.history).length
  request :
    ∃ request, InFlight view.history request ∧
      view.data = some request.buf ∧ view.remainingSize = request.size

/-- The worker runs for the request in flight, within these bounds. -/
structure Serving (view : View) (bounds : Accepted → Prop) : Prop where
  pending : view.pending = false
  progress : view.progress ≠ .idle
  request :
    ∃ request, Serves view.history request ∧
      view.data = some request.buf ∧ bounds request

/-- The worker is done with the buffer, and has not said so yet. -/
structure Done (view : View) : Prop where
  pending : view.pending = false
  progress : view.progress ≠ .idle
  none : NoneInFlight view.history
  starts : startsOf view.history = (acceptedOf view.history).length

/-- What holds at each point of the worker. -/
def AtPc (view : View) : WorkerPc → Prop
  | .idle | .eventfdPut | .clearFinished => Resting view ∨ Queued view
  | .prepare | .startTransfer =>
      Serving view fun request => view.remainingSize = request.size
  | .loop offset | .write offset =>
      Serving view fun request =>
        offset + view.remainingSize = request.size
  | .advance offset written =>
      Serving view fun request =>
        offset + view.remainingSize = request.size ∧
          written ≤ view.remainingSize
  | .setError _ _ | .startProgram | .pollComplete | .cleanup | .putDevice
  | .vfree => Serving view fun _ => True
  | .clearData | .complete => Done view

/-- The invariant of uploads. -/
structure Invariant (upload : Upload) : Prop where
  allowed : Everywhere Allowed upload.history
  fresh : ∀ request ∈ acceptedOf upload.history,
    request.buf < upload.bufs.length
  at_pc : AtPc upload.view upload.pc

theorem Invariant.exclusive {upload : Upload}
    (invariant : Invariant upload) : Exclusive upload where
  allowed := invariant.allowed
  at_rest := by
    rintro ⟨atIdle, notPending⟩
    have atPc := invariant.at_pc
    rw [atIdle] at atPc
    rcases atPc with resting | queued
    · exact resting.none
    · exact absurd (notPending.symm.trans queued.pending) (by decide)

theorem invariant_registered (hasCleanup : Bool) :
    Invariant (registered hasCleanup) where
  allowed := everywhere_nil Allowed
  fresh := by
    intro request member
    exact absurd member (by simp [registered, acceptedOf])
  at_pc := Or.inl ⟨rfl, rfl, rfl, rfl⟩

/-! ## What the ioctls do -/

/-- A request whose arguments are refused changes nothing. -/
theorem fpgaImageLoadIoctlWrite_of_not_passes
    {request : WriteRequest} (stops : ¬ request.PassesChecks)
    (upload : Upload) :
    (fpgaImageLoadIoctlWrite request upload).1 ≠ none ∧
      (fpgaImageLoadIoctlWrite request upload).2 = upload := by
  unfold fpgaImageLoadIoctlWrite
  split_ifs with copyRequest flags size evtfd vzalloc copyBuffer
  all_goals try exact ⟨by simp, rfl⟩
  refine absurd ⟨?_, ?_, size, ?_, ?_, ?_⟩ stops
  · simpa using copyRequest
  · simpa using flags
  · omega
  · simpa using vzalloc
  · simpa using copyBuffer

/-- The request is accepted. -/
structure Accepts (request : WriteRequest) (upload next : Upload) : Prop where
  history :
    next.history = upload.history ++
      [.accepted ⟨upload.bufs.length, request.size, request.size_lt⟩]
  bufs : next.bufs.length = upload.bufs.length + 1
  pc : next.pc = upload.pc
  pending : next.pending = true
  progress : next.fwlp.progress = .receiving
  data : next.fwlp.data = some upload.bufs.length
  remainingSize : next.fwlp.remainingSize = request.size

/-- What a request does once its arguments are accepted. -/
theorem fpgaImageLoadIoctlWrite_of_passes
    {request : WriteRequest} (passes : request.PassesChecks)
    (upload : Upload) :
    (∃ ret, request.eventfd = .error ret ∧
      fpgaImageLoadIoctlWrite request upload =
        (some ret,
          { upload with fwlp := { upload.fwlp with finished := none } })) ∨
    (∃ finished, request.eventfd = .ok finished ∧
      (fpgaImageLoadIoctlWrite request upload).1 = none ∧
      Accepts request upload
        (fpgaImageLoadIoctlWrite request upload).2) := by
  have notNegative : ¬ request.evtfd < 0 := by
    have := passes.evtfd
    omega
  simp only [fpgaImageLoadIoctlWrite, passes.copyRequest, passes.flags,
    passes.size, notNegative, passes.vzalloc, passes.copyBuffer]
  cases request.eventfd with
  | error ret => exact Or.inl ⟨ret, rfl, by simp⟩
  | ok finished =>
      refine Or.inr ⟨finished, rfl, by simp, ?_⟩
      constructor <;> simp

theorem clearFinished_eq_iff (upload : Upload) :
    { upload with fwlp := { upload.fwlp with finished := none } } = upload ↔
      upload.fwlp.finished = none := by
  constructor
  · intro same
    exact (congrArg (fun next => next.fwlp.finished) same).symm
  · intro noEventfd
    rw [← noEventfd]

/-- Requests are refused during an upload exactly under the condition. -/
theorem refusedWhileBusy_iff (upload : Upload) (action : Action) :
    RefusedWhileBusy upload action ↔ WritesWhenIdle upload action := by
  cases action with
  | status copyToUser => exact Iff.rfl
  | cancel => exact Iff.rfl
  | worker answer => exact Iff.rfl
  | write request =>
      simp only [RefusedWhileBusy, WritesWhenIdle]
      by_cases passes : request.PassesChecks
      · by_cases idle : upload.fwlp.progress = .idle
        · simp [idle]
        · rcases fpgaImageLoadIoctlWrite_of_passes passes upload
            with ⟨ret, isError, effect⟩ | ⟨finished, isOk, succeeds, -⟩
          · simp [idle, passes, isError, effect, clearFinished_eq_iff]
          · simp [idle, passes, isOk, succeeds]
      · have refused := fpgaImageLoadIoctlWrite_of_not_passes passes upload
        exact iff_of_true (fun _ => refused) (fun does => absurd does passes)

/-! ## The invariant is kept -/

/-- While the progress is idle, the worker is done and nothing is queued. -/
theorem Invariant.resting {upload : Upload} (invariant : Invariant upload)
    (idle : upload.fwlp.progress = .idle) :
    Resting upload.view ∧
      (upload.pc = .idle ∨ upload.pc = .eventfdPut ∨
        upload.pc = .clearFinished) := by
  have atPc := invariant.at_pc
  cases isPc : upload.pc <;> rw [isPc] at atPc <;>
    first
      | exact absurd idle atPc.progress
      | (rcases atPc with resting | queued
         · exact ⟨resting, by simp⟩
         · exact absurd idle queued.progress)

/-- A request which is accepted while nothing is in flight is queued. -/
theorem Accepts.invariant
    {request : WriteRequest} {upload next : Upload}
    (accepts : Accepts request upload next)
    (invariant : Invariant upload) (idle : upload.fwlp.progress = .idle) :
    Invariant next := by
  obtain ⟨resting, isPc⟩ := invariant.resting idle
  have inFlight := resting.none.append_accepted
    ⟨upload.bufs.length, request.size, request.size_lt⟩
  have queued : Queued next.view := by
    refine ⟨accepts.pending, ?_, ?_,
      ⟨upload.bufs.length, request.size, request.size_lt⟩, ?_,
      accepts.data, accepts.remainingSize⟩
    · simp [Upload.view, accepts.progress]
    · have starts := resting.starts
      simp only [Upload.view, accepts.history] at starts ⊢
      simpa [acceptedOf, startsOf] using starts
    · simpa [Upload.view, accepts.history] using inFlight
  refine ⟨?_, ?_, ?_⟩
  · rw [accepts.history, everywhere_append_singleton]
    refine ⟨invariant.allowed, resting.none, fun earlier member => ?_⟩
    exact Nat.ne_of_lt (invariant.fresh earlier member)
  · intro current member
    rw [accepts.history, acceptedOf_append, List.mem_append] at member
    rw [accepts.bufs]
    rcases member with old | new
    · exact Nat.lt_succ_of_lt (invariant.fresh current old)
    · obtain rfl : current = ⟨upload.bufs.length, request.size,
        request.size_lt⟩ := by simpa [acceptedOf] using new
      exact Nat.lt_succ_self _
  · rw [accepts.pc]
    rcases isPc with isPc | isPc | isPc <;> rw [isPc] <;>
      exact Or.inr queued

theorem Invariant.ioctlWrite
    {upload : Upload} (invariant : Invariant upload)
    {request : WriteRequest}
    (whenIdle : WritesWhenIdle upload (.write request)) :
    Invariant (fpgaImageLoadIoctlWrite request upload).2 := by
  by_cases passes : request.PassesChecks
  · rcases fpgaImageLoadIoctlWrite_of_passes passes upload
      with ⟨ret, isError, effect⟩ | ⟨finished, isOk, -, accepts⟩
    · rw [effect]
      exact ⟨invariant.allowed, invariant.fresh, invariant.at_pc⟩
    · rcases whenIdle passes with idle | ⟨-, ret, isError⟩
      · exact accepts.invariant invariant idle
      · rw [isOk] at isError
        exact absurd isError (by simp)
  · rw [(fpgaImageLoadIoctlWrite_of_not_passes passes upload).2]
    exact invariant

/-! ## The steps of the worker -/

theorem Serving.mono
    {view : View} {bounds weaker : Accepted → Prop}
    (serving : Serving view bounds)
    (implies : ∀ request, bounds request → weaker request) :
    Serving view weaker := by
  obtain ⟨request, serves, data, within⟩ := serving.request
  exact ⟨serving.pending, serving.progress, request, serves, data,
    implies request within⟩

theorem Serving.withProgress
    {view : View} {bounds : Accepted → Prop}
    (serving : Serving view bounds) (progress : FwUploadProg)
    (busy : progress ≠ .idle) :
    Serving { view with progress := progress } bounds :=
  ⟨serving.pending, busy, serving.request⟩

/-- What the driver has written is no longer remaining. -/
theorem Serving.advance
    {view : View} (offset written : Nat)
    (serving : Serving view fun request =>
      offset + view.remainingSize = request.size ∧
        written ≤ view.remainingSize) :
    Serving
      { view with
        remainingSize := Word.sub 32 view.remainingSize written }
      fun request =>
        Word.add 32 offset written +
          Word.sub 32 view.remainingSize written = request.size := by
  obtain ⟨request, serves, data, whole, part⟩ := serving.request
  refine ⟨serving.pending, serving.progress, request, serves, data, ?_⟩
  have bound := request.size_lt
  rw [Word.add_of_lt (by omega), Word.sub_of_le part]
  omega

theorem Serving.emit
    {view : View} {bounds : Accepted → Prop}
    (serving : Serving view bounds) (event : Event)
    (passing : event.Passing) :
    Serving { view with history := view.history ++ [event] } bounds := by
  obtain ⟨request, serves, data, within⟩ := serving.request
  exact ⟨serving.pending, serving.progress, request,
    serves.append_passing passing, data, within⟩

theorem Resting.emit {view : View} (resting : Resting view)
    (event : Event) (passing : event.Passing) :
    Resting { view with history := view.history ++ [event] } where
  pending := resting.pending
  progress := resting.progress
  none := resting.none.append_passing passing
  starts := by simpa [passing.1, passing.2.2] using resting.starts

theorem Done.emit {view : View} (done : Done view)
    (event : Event) (passing : event.Passing) :
    Done { view with history := view.history ++ [event] } where
  pending := done.pending
  progress := done.progress
  none := done.none.append_passing passing
  starts := by simpa [passing.1, passing.2.2] using done.starts

theorem Queued.emit {view : View} (queued : Queued view)
    (event : Event) (passing : event.Passing) :
    Queued { view with history := view.history ++ [event] } where
  pending := queued.pending
  progress := queued.progress
  starts := by simpa [passing.1, passing.2.2] using queued.starts
  request := by
    obtain ⟨request, inFlight, rest⟩ := queued.request
    exact ⟨request, inFlight.append_passing passing, rest⟩

/-- A step which adds an event, accepts nothing, and ends at a point. -/
theorem Invariant.of_event
    {upload next : Upload} (invariant : Invariant upload) (event : Event)
    (history : next.history = upload.history ++ [event])
    (bufs : next.bufs = upload.bufs)
    (noAccept : acceptedOf [event] = [])
    (allowed : Allowed upload.history event)
    (at_pc : AtPc next.view next.pc) : Invariant next where
  allowed := by
    rw [history, everywhere_append_singleton]
    exact ⟨invariant.allowed, allowed⟩
  fresh := by
    rw [history, bufs, acceptedOf_append, noAccept, List.append_nil]
    exact invariant.fresh
  at_pc := at_pc

/-- A step without an event. -/
theorem Invariant.of_same
    {upload next : Upload} (invariant : Invariant upload)
    (history : next.history = upload.history)
    (bufs : next.bufs = upload.bufs)
    (at_pc : AtPc next.view next.pc) : Invariant next where
  allowed := by
    rw [history]
    exact invariant.allowed
  fresh := by
    rw [history, bufs]
    exact invariant.fresh
  at_pc := at_pc

theorem Invariant.workerStep
    {upload next : Upload} (invariant : Invariant upload)
    {answer : OpAnswer} (reports : ReportsAtMost upload answer)
    (step : workerStep answer upload = some next) : Invariant next := by
  have atPc := invariant.at_pc
  simp only [ImageLoad.workerStep] at step
  cases isPc : upload.pc with
  | idle =>
      simp only [isPc] at step atPc
      split_ifs at step with pending
      obtain rfl := Option.some.inj step
      rcases atPc with resting | queued
      · exact absurd (resting.pending.symm.trans pending) (by decide)
      · obtain ⟨request, inFlight, data, size⟩ := queued.request
        refine invariant.of_event _ rfl rfl rfl
          ⟨request, inFlight, queued.starts⟩ ?_
        exact ⟨rfl, nofun, request, inFlight.append_started queued.starts,
          data, size⟩
  | prepare =>
      simp only [isPc, Option.some.injEq] at step atPc
      subst step
      have passing :
          (Event.prepare upload.fwlp.data upload.fwlp.remainingSize).Passing :=
        ⟨rfl, rfl, rfl⟩
      refine invariant.of_event _ rfl rfl rfl ?_ ?_
      · obtain ⟨request, serves, data, size⟩ := atPc.request
        exact ⟨request, serves, data, Nat.le_of_eq size⟩
      · have serving := atPc.emit _ passing
        dsimp only
        split_ifs
        · exact serving
        · exact serving.mono fun _ _ => trivial
  | setError ret prepared =>
      simp only [isPc, Option.some.injEq] at step atPc
      subst step
      refine invariant.of_same rfl rfl ?_
      cases prepared <;> exact atPc
  | startTransfer =>
      simp only [isPc, Option.some.injEq] at step atPc
      subst step
      refine invariant.of_same rfl rfl ?_
      refine (atPc.withProgress .transferring nofun).mono fun _ size => ?_
      exact (Nat.zero_add _).trans size
  | loop offset =>
      simp only [isPc, Option.some.injEq] at step atPc
      subst step
      refine invariant.of_same rfl rfl ?_
      dsimp only
      split_ifs
      · exact atPc
      · exact atPc.mono fun _ _ => trivial
  | write offset =>
      simp only [isPc, Option.some.injEq] at step atPc
      subst step
      have passing :
          (Event.write upload.fwlp.data offset
            upload.fwlp.remainingSize).Passing := ⟨rfl, rfl, rfl⟩
      refine invariant.of_event _ rfl rfl rfl ?_ ?_
      · obtain ⟨request, serves, data, size⟩ := atPc.request
        exact ⟨request, serves, data, Nat.le_of_eq size⟩
      · have serving := atPc.emit _ passing
        dsimp only
        split_ifs
        · exact serving.mono fun _ _ => trivial
        · exact serving.mono fun _ _ => trivial
        · exact serving.mono fun _ size => ⟨size, reports offset isPc⟩
  | advance offset written =>
      simp only [isPc, Option.some.injEq] at step atPc
      subst step
      exact invariant.of_same rfl rfl (atPc.advance offset written)
  | startProgram =>
      simp only [isPc, Option.some.injEq] at step atPc
      subst step
      exact invariant.of_same rfl rfl (atPc.withProgress .programming nofun)
  | pollComplete =>
      simp only [isPc, Option.some.injEq] at step atPc
      subst step
      refine invariant.of_event _ rfl rfl rfl trivial ?_
      have serving := atPc.emit .pollComplete ⟨rfl, rfl, rfl⟩
      dsimp only
      split_ifs <;> exact serving
  | cleanup =>
      simp only [isPc] at step atPc
      split_ifs at step
      · obtain rfl := Option.some.inj step
        exact invariant.of_event .cleanup rfl rfl rfl trivial
          (atPc.emit .cleanup ⟨rfl, rfl, rfl⟩)
      · obtain rfl := Option.some.inj step
        exact invariant.of_same rfl rfl atPc
  | putDevice =>
      simp only [isPc, Option.some.injEq] at step atPc
      subst step
      exact invariant.of_same rfl rfl atPc
  | vfree =>
      simp only [isPc, Option.some.injEq] at step atPc
      subst step
      obtain ⟨request, serves, data, -⟩ := atPc.request
      have isData : upload.fwlp.data = some request.buf := data
      rw [isData]
      refine invariant.of_event _ rfl rfl rfl ⟨request, serves, rfl⟩ ?_
      refine ⟨atPc.pending, atPc.progress, serves.1.append_vfree, ?_⟩
      simpa [Upload.view, Upload.emit, acceptedOf, startsOf] using serves.2
  | clearData =>
      simp only [isPc, Option.some.injEq] at step atPc
      subst step
      exact invariant.of_same rfl rfl
        ⟨atPc.pending, atPc.progress, atPc.none, atPc.starts⟩
  | complete =>
      simp only [isPc, Option.some.injEq] at step atPc
      subst step
      refine invariant.of_event _ rfl rfl rfl trivial (Or.inl ?_)
      refine ⟨atPc.pending, rfl, atPc.none.append_passing ⟨rfl, rfl, rfl⟩, ?_⟩
      simpa [Upload.view, Upload.emit, fwUploadProgComplete,
        fwUploadUpdateProgress, acceptedOf, startsOf] using atPc.starts
  | eventfdPut =>
      simp only [isPc, Option.some.injEq] at step atPc
      subst step
      refine invariant.of_event _ rfl rfl rfl trivial ?_
      rcases atPc with resting | queued
      · exact Or.inl (resting.emit _ ⟨rfl, rfl, rfl⟩)
      · exact Or.inr (queued.emit _ ⟨rfl, rfl, rfl⟩)
  | clearFinished =>
      simp only [isPc, Option.some.injEq] at step atPc
      subst step
      exact invariant.of_same rfl rfl atPc

theorem Invariant.ioctlCancel {upload : Upload}
    (invariant : Invariant upload) :
    Invariant (fpgaImageLoadIoctlCancel upload).2 := by
  have passing : Event.cancel.Passing := ⟨rfl, rfl, rfl⟩
  unfold fpgaImageLoadIoctlCancel
  split_ifs
  · exact invariant
  · refine invariant.of_event _ rfl rfl rfl trivial ?_
    have atPc := invariant.at_pc
    change AtPc _ upload.pc
    cases isPc : upload.pc <;> rw [isPc] at atPc <;>
      first
        | exact atPc.emit _ passing
        | exact Or.imp (·.emit _ passing) (·.emit _ passing) atPc

/-- One action keeps the invariant, if requests arrive while idle. -/
theorem Invariant.step
    {upload next : Upload} {action : Action}
    (invariant : Invariant upload) (whenIdle : WritesWhenIdle upload action)
    (step : upload.Step action next) : Invariant next := by
  cases action with
  | write request =>
      obtain rfl := step
      exact invariant.ioctlWrite whenIdle
  | status copyToUser =>
      obtain rfl := step
      exact invariant
  | cancel =>
      obtain rfl := step
      exact invariant.ioctlCancel
  | worker answer => exact invariant.workerStep step.1 step.2

/--
Along every interleaving of ioctls and worker steps, requests during an
upload are refused and uploads are exclusive, if and only if every request
which gets past the checks on its arguments arrives while the progress is
idle (or fails to get its eventfd when none is recorded).
-/
theorem exclusive_transfer_iff
    (hasCleanup : Bool) (path : List (Action × Upload))
    (isPath : IsPath Upload.Step (registered hasCleanup) path) :
    (StepsMeet RefusedWhileBusy (registered hasCleanup) path ∧
        Throughout Exclusive (registered hasCleanup) path) ↔
      StepsMeet WritesWhenIdle (registered hasCleanup) path := by
  have sameGuard : RefusedWhileBusy = WritesWhenIdle := by
    funext upload action
    exact propext (refusedWhileBusy_iff upload action)
  rw [sameGuard]
  refine ⟨And.left, fun meets => ⟨meets, ?_⟩⟩
  have throughout : Throughout Invariant (registered hasCleanup) path :=
    throughout_of_stepsMeet
      (fun _ _ _ invariant whenIdle step => invariant.step whenIdle step)
      isPath (invariant_registered hasCleanup) meets
  exact throughout.mono fun _ invariant => invariant.exclusive

/-- A request for an image of one byte, which meets no obstacle. -/
def oneByteRequest : WriteRequest where
  copyRequest := true
  flags := 0
  size := 1
  size_lt := by decide
  evtfd := 3
  vzalloc := true
  copyBuffer := true
  image _ := 0
  eventfd := .ok 7

/-- The state after the given number of accepted requests, one at a time. -/
def afterRequests : Nat → Upload
  | 0 => registered true
  | count + 1 =>
      (fpgaImageLoadIoctlWrite oneByteRequest (afterRequests count)).2

/-- A second request is accepted while the first upload is in progress. -/
theorem second_request_not_refused :
    ∃ path, IsPath Upload.Step (registered true) path ∧
      ¬ (StepsMeet RefusedWhileBusy (registered true) path ∧
        Throughout Exclusive (registered true) path) := by
  refine ⟨[(.write oneByteRequest, afterRequests 1),
    (.write oneByteRequest, afterRequests 2)], ⟨rfl, rfl, trivial⟩, ?_⟩
  rintro ⟨⟨-, refused, -⟩, -⟩
  exact (refused (by decide)).1 (by decide)

/-- A single request, and the worker which starts for it. -/
theorem exclusive_transfer_single_request :
    ∃ next, workerStep ⟨.none, 0⟩ (afterRequests 1) = some next ∧
      Exclusive next := by
  refine ⟨_, rfl, ?_⟩
  refine ((exclusive_transfer_iff true
    [(.write oneByteRequest, afterRequests 1), (.worker ⟨.none, 0⟩, _)]
    ⟨rfl, ⟨?_, rfl⟩, trivial⟩).mpr ?_).2.2 _
      (List.mem_cons_of_mem _ List.mem_cons_self)
  · intro offset atWrite
    have atIdle : (afterRequests 1).pc = .idle := rfl
    exact absurd (atIdle.symm.trans atWrite) (by simp)
  · exact ⟨fun _ => Or.inl rfl, trivial, trivial⟩

end LinuxDfl.ImageLoad

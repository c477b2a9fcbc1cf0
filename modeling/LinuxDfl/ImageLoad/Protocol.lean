import LinuxDfl.ImageLoad.Completion

/-!
# The calls of the driver in an upload

One run of the worker, from the request which is accepted to its last
statement, while no other request arrives.  The calls of the driver's
operations are recorded with their answers.  The status which the worker
leaves is that of the first call which fails.
-/

namespace LinuxDfl.ImageLoad

open LinuxDfl.Kernel
open LinuxDfl.Lib.Transition

/-! ## Calls -/

/-- A call of one of the driver's operations, and what it answers. -/
inductive DriverCall where
  | prepare (data : Option Buffer) (size : Nat) (ret : FwUploadErr)
  | write (data : Option Buffer) (offset size : Nat) (answer : OpAnswer)
  | pollComplete (ret : FwUploadErr)
  | cleanup
  deriving DecidableEq, Repr

/-- What the worker calls when it takes its next step. -/
def workerCall (answer : OpAnswer) (upload : Upload) : Option DriverCall :=
  match upload.pc with
  | .prepare =>
      some (.prepare upload.fwlp.data upload.fwlp.remainingSize answer.ret)
  | .write offset =>
      some (.write upload.fwlp.data offset upload.fwlp.remainingSize answer)
  | .pollComplete => some (.pollComplete answer.ret)
  | .cleanup => if upload.hasCleanup then some .cleanup else none
  | _ => none

/-- An upload, with the calls of its worker so far. -/
structure Called where
  upload : Upload
  calls : List DriverCall

/-- What an action calls in the worker. -/
def Action.call (upload : Upload) : Action → Option DriverCall
  | .worker answer => workerCall answer upload
  | _ => none

/--
The action is no request, and the driver's `write` reports an error, or at
most the size it has received.
-/
def Undisturbed (upload : Upload) : Action → Prop
  | .write _ => False
  | .worker answer => answer.ret = .none → ReportsAtMost upload answer
  | _ => True

/-- One action of any thread but a request, and what it calls in the worker. -/
def Called.Step (called : Called) (action : Action) (next : Called) : Prop :=
  Undisturbed called.upload action ∧
    called.upload.Moves action next.upload ∧
      next.calls = called.calls ++ (action.call called.upload).toList

/-- The call as an event of the history. -/
def DriverCall.event : DriverCall → Event
  | .prepare data size _ => .prepare data size
  | .write data offset size _ => .write data offset size
  | .pollComplete _ => .pollComplete
  | .cleanup => .cleanup

/-! ## What the calls amount to -/

/-- A phase which ends with an error. -/
def failed (phase : FwUploadProg) (error : FwUploadErr) :
    Option (FwUploadProg × FwUploadErr) :=
  if error = .none then none else some (phase, error)

/-- Zero bytes without an error are a failed write. -/
def OpAnswer.error (answer : OpAnswer) : FwUploadErr :=
  if answer.ret = .none ∧ answer.written = 0 then .rwError else answer.ret

/-- The phase which fails with the call, and its error. -/
def DriverCall.failure : DriverCall → Option (FwUploadProg × FwUploadErr)
  | .prepare _ _ ret => failed .preparing ret
  | .write _ _ _ answer => failed .transferring answer.error
  | .pollComplete ret => failed .programming ret
  | .cleanup => none

/-- The bytes of the image which the call reports as written. -/
def DriverCall.bytes : DriverCall → List Nat
  | .write _ offset _ answer =>
      if answer.ret = .none then List.range' offset answer.written else []
  | _ => []

/-- What some calls amount to. -/
structure Tally where
  /-- How often `prepare` was called. -/
  prepares : Nat
  /-- `prepare` has succeeded. -/
  prepared : Bool
  /-- How many bytes are written. -/
  written : Nat
  /-- How often `poll_complete` was called. -/
  polls : Nat
  /-- `poll_complete` has succeeded. -/
  completed : Bool
  /-- How often `cleanup` was called. -/
  cleanups : Nat
  /-- The first failing phase, and its error. -/
  failure : Option (FwUploadProg × FwUploadErr)
  deriving DecidableEq, Repr

def Tally.zero : Tally := ⟨0, false, 0, 0, false, 0, none⟩

/-- One more call. -/
def Tally.add (tally : Tally) (call : DriverCall) : Tally :=
  let counted :=
    match call with
    | .prepare _ _ ret =>
        { tally with
          prepares := tally.prepares + 1
          prepared := tally.prepared || decide (ret = FwUploadErr.none) }
    | .write _ _ _ _ =>
        { tally with written := tally.written + call.bytes.length }
    | .pollComplete ret =>
        { tally with
          polls := tally.polls + 1
          completed := tally.completed || decide (ret = FwUploadErr.none) }
    | .cleanup => { tally with cleanups := tally.cleanups + 1 }
  { counted with failure := tally.failure.or call.failure }

def tallyOf (calls : List DriverCall) : Tally := calls.foldl Tally.add .zero

theorem tallyOf_concat (calls : List DriverCall) (call : DriverCall) :
    tallyOf (calls ++ [call]) = (tallyOf calls).add call := by
  rw [tallyOf, List.foldl_append]
  rfl

theorem Tally.add_written (tally : Tally) (call : DriverCall) :
    (tally.add call).written = tally.written + call.bytes.length := by
  cases call <;> rfl

/-! ## Calls in order -/

/--
A call which is in order after the calls before it.  A `write` is for the
buffer, begins behind the bytes which are written, receives the size of all
that is missing, and reports no more than this.
-/
def DriverCall.InOrder (data : Buffer) (size : Nat) (tally : Tally) :
    DriverCall → Prop
  | .prepare source total _ => source = some data ∧ total = size
  | .write source offset remaining answer =>
      source = some data ∧ offset = tally.written ∧
        remaining = size - tally.written ∧ tally.written < size ∧
          (answer.ret = .none → answer.written ≤ remaining)
  | _ => True

/-- Each call is in order, and the bytes are written from the first one on. -/
structure CallsInOrder (data : Buffer) (size : Nat) (calls : List DriverCall) :
    Prop where
  in_order :
    ∀ earlier call later, calls = earlier ++ call :: later →
      call.InOrder data size (tallyOf earlier)
  consecutive :
    calls.flatMap DriverCall.bytes = List.range (tallyOf calls).written
  within : (tallyOf calls).written ≤ size

theorem callsInOrder_nil (data : Buffer) (size : Nat) :
    CallsInOrder data size [] where
  in_order := by
    intro earlier call later split
    exact absurd split.symm (by simp)
  consecutive := rfl
  within := Nat.zero_le size

/-- What a call in order writes continues what is written. -/
theorem DriverCall.InOrder.bytes {data : Buffer} {size : Nat}
    {tally : Tally} {call : DriverCall}
    (inOrder : call.InOrder data size tally) (within : tally.written ≤ size) :
    call.bytes = List.range' tally.written call.bytes.length ∧
      tally.written + call.bytes.length ≤ size := by
  cases call with
  | prepare source total ret => exact ⟨rfl, within⟩
  | pollComplete ret => exact ⟨rfl, within⟩
  | cleanup => exact ⟨rfl, within⟩
  | write source offset remaining answer =>
      obtain ⟨-, rfl, rfl, -, fits⟩ := inOrder
      by_cases writes : answer.ret = .none
      · have atMost := fits writes
        simp only [DriverCall.bytes, if_pos writes, List.length_range']
        exact ⟨trivial, by omega⟩
      · simp only [DriverCall.bytes, if_neg writes, List.length_nil]
        exact ⟨rfl, within⟩

theorem CallsInOrder.concat {data : Buffer} {size : Nat}
    {calls : List DriverCall} {call : DriverCall}
    (orderly : CallsInOrder data size calls)
    (inOrder : call.InOrder data size (tallyOf calls)) :
    CallsInOrder data size (calls ++ [call]) := by
  obtain ⟨continues, within⟩ := inOrder.bytes orderly.within
  constructor
  case in_order =>
    intro earlier other later split
    rcases List.eq_nil_or_concat later with rfl | ⟨front, last, rfl⟩
    · obtain ⟨rfl, same⟩ := List.append_inj' split rfl
      cases same
      exact inOrder
    · rw [List.concat_eq_append, ← List.cons_append,
        ← List.append_assoc] at split
      obtain ⟨isFront, -⟩ := List.append_inj' split rfl
      exact orderly.in_order earlier other front isFront
  case consecutive =>
    rw [List.flatMap_append, orderly.consecutive, List.flatMap_singleton,
      continues, tallyOf_concat, Tally.add_written, List.range_eq_range',
      List.range_eq_range', ← List.range'_append_1, Nat.zero_add]
  case within =>
    rw [tallyOf_concat, Tally.add_written]
    exact within

/-! ## The stages of a run -/

/-- The buffer is held, and so much of it is still to be transferred. -/
structure Holds (data : Buffer) (remaining : Nat) (fwlp : FwUploadPriv) :
    Prop where
  data : fwlp.data = some data
  remaining : fwlp.remainingSize = remaining
  errCode : fwlp.errCode = .none

/-- `prepare` has succeeded, and so many bytes are written. -/
def Tally.transferred (written : Nat) : Tally :=
  ⟨1, true, written, 0, false, 0, none⟩

/-- What the calls amount to when a phase has failed, or all have succeeded. -/
structure Tally.Decided (size : Nat) (tally : Tally) : Prop where
  prepares : tally.prepares = 1
  polls :
    tally.polls = if tally.prepared = true ∧ tally.written = size then 1 else 0
  succeeds :
    tally.failure = none ↔
      tally.prepared = true ∧ tally.written = size ∧ tally.completed = true

/-- The status is that of the first phase which has failed. -/
def Reported (fwlp : FwUploadPriv) (tally : Tally) : Prop :=
  match tally.failure with
  | none => fwlp.errCode = .none
  | some (phase, error) =>
      error ≠ .none ∧ fwlp.errCode = error ∧ fwlp.errProgress = phase

theorem reported_of_none {fwlp : FwUploadPriv} {tally : Tally}
    (succeeds : tally.failure = none) (errCode : fwlp.errCode = .none) :
    Reported fwlp tally := by
  rw [Reported, succeeds]
  exact errCode

theorem reported_of_some {fwlp : FwUploadPriv} {tally : Tally}
    {phase : FwUploadProg} {error : FwUploadErr}
    (fails : tally.failure = some (phase, error))
    (status :
      error ≠ .none ∧ fwlp.errCode = error ∧ fwlp.errProgress = phase) :
    Reported fwlp tally := by
  rw [Reported, fails]
  exact status

/-- How often `cleanup` is called in all. -/
def Tally.cleanupsDue (cleans : Bool) (tally : Tally) : Nat :=
  if tally.prepared = true ∧ cleans = true then 1 else 0

/-- How far the run is, and what it has called. -/
inductive StageAt (size : Nat) (data : Buffer) (worker : WorkerPc)
    (queued : Bool) (fwlp : FwUploadPriv) (cleans : Bool) (tally : Tally) :
    Prop where
  /-- The work is queued; the run before may be about to end. -/
  | queued (spare : ¬ worker.Busy) (pending : queued = true)
      (holds : Holds data size fwlp) (calls : tally = .zero)
  | prepare (pc : worker = .prepare) (pending : queued = false)
      (holds : Holds data size fwlp)
      (progress : fwlp.progress = .preparing) (calls : tally = .zero)
  /-- A phase has failed. -/
  | fails (error : FwUploadErr) (prepared : Bool)
      (pc : worker = .setError error prepared)
      (pending : queued = false)
      (decided : tally.Decided size) (same : tally.prepared = prepared)
      (isError : error ≠ .none)
      (first : tally.failure = some (fwlp.progress, error))
      (cleanups : tally.cleanups = 0)
  | startTransfer (pc : worker = .startTransfer)
      (pending : queued = false)
      (holds : Holds data size fwlp)
      (calls : tally = .transferred 0)
  | loop (offset : Nat) (pc : worker = .loop offset)
      (pending : queued = false) (within : offset ≤ size)
      (holds : Holds data (size - offset) fwlp)
      (progress : fwlp.progress = .transferring)
      (calls : tally = .transferred offset)
  | write (offset : Nat) (pc : worker = .write offset)
      (pending : queued = false) (within : offset < size)
      (holds : Holds data (size - offset) fwlp)
      (progress : fwlp.progress = .transferring)
      (calls : tally = .transferred offset)
  | advance (offset written : Nat) (pc : worker = .advance offset written)
      (pending : queued = false) (writes : 0 < written)
      (within : offset + written ≤ size)
      (holds : Holds data (size - offset) fwlp)
      (progress : fwlp.progress = .transferring)
      (calls : tally = .transferred (offset + written))
  | startProgram (pc : worker = .startProgram)
      (pending : queued = false)
      (errCode : fwlp.errCode = .none)
      (calls : tally = .transferred size)
  | pollComplete (pc : worker = .pollComplete)
      (pending : queued = false)
      (errCode : fwlp.errCode = .none)
      (progress : fwlp.progress = .programming)
      (calls : tally = .transferred size)
  | cleanup (pc : worker = .cleanup) (pending : queued = false)
      (decided : tally.Decided size) (reported : Reported fwlp tally)
      (prepared : tally.prepared = true) (cleanups : tally.cleanups = 0)
  /-- No operation of the driver is left to call. -/
  | leaving
      (pc : worker ∈ [.putDevice, .vfree, .clearData, .complete])
      (pending : queued = false)
      (decided : tally.Decided size) (reported : Reported fwlp tally)
      (cleanups : tally.cleanups = tally.cleanupsDue cleans)
  /-- The worker has reported that it is idle. -/
  | idle (spare : ¬ worker.Busy) (pending : queued = false)
      (decided : tally.Decided size) (reported : Reported fwlp tally)
      (cleanups : tally.cleanups = tally.cleanupsDue cleans)
      (progress : fwlp.progress = .idle)

abbrev Stage (size : Nat) (data : Buffer) (upload : Upload) (tally : Tally) :
    Prop :=
  StageAt size data upload.pc upload.pending upload.fwlp upload.hasCleanup
    tally

/-! ## What the next call amounts to -/

theorem failed_of_error {phase : FwUploadProg} {error : FwUploadErr}
    (isError : error ≠ .none) : failed phase error = some (phase, error) :=
  if_neg isError

theorem failed_none (phase : FwUploadProg) : failed phase .none = none :=
  if_pos rfl

/-- A failed `prepare` decides the run. -/
theorem Tally.prepare_fails (size : Nat) (data : Option Buffer) (total : Nat)
    {ret : FwUploadErr} (isError : ret ≠ .none) :
    (Tally.zero.add (.prepare data total ret)).Decided size ∧
      (Tally.zero.add (.prepare data total ret)).prepared = false ∧
        (Tally.zero.add (.prepare data total ret)).failure =
          some (.preparing, ret) := by
  have isFalse : decide (ret = FwUploadErr.none) = false :=
    decide_eq_false isError
  have first : (Tally.zero.add (.prepare data total ret)).failure =
      some (.preparing, ret) := failed_of_error isError
  have unprepared :
      (Tally.zero.add (.prepare data total ret)).prepared = false := by
    show (false || decide (ret = FwUploadErr.none)) = false
    rw [isFalse, Bool.or_false]
  refine ⟨⟨rfl, ?_, ?_⟩, unprepared, first⟩
  · rw [unprepared, if_neg (by simp)]
    rfl
  · rw [first, unprepared]
    simp

theorem Tally.prepare_succeeds (data : Option Buffer) (total : Nat) :
    Tally.zero.add (.prepare data total .none) = .transferred 0 := rfl

/-- A failed `write` decides the run. -/
theorem Tally.write_fails {size offset : Nat} (within : offset < size)
    (data : Option Buffer) (total : Nat) {answer : OpAnswer}
    (isError : answer.error ≠ .none) :
    ((Tally.transferred offset).add
        (.write data offset total answer)).Decided size ∧
      ((Tally.transferred offset).add
        (.write data offset total answer)).failure =
          some (.transferring, answer.error) := by
  have first : ((Tally.transferred offset).add
      (.write data offset total answer)).failure =
        some (.transferring, answer.error) := failed_of_error isError
  have nothing : (DriverCall.write data offset total answer).bytes = [] := by
    by_cases writes : answer.ret = .none
    · have zero : answer.written = 0 := by
        by_contra some
        exact isError (by
          rw [OpAnswer.error, if_neg fun both => some both.2, writes])
      rw [DriverCall.bytes, if_pos writes, zero, List.range'_zero]
    · rw [DriverCall.bytes, if_neg writes]
  have written : ((Tally.transferred offset).add
      (.write data offset total answer)).written = offset := by
    rw [Tally.add_written, nothing]
    rfl
  refine ⟨⟨rfl, ?_, ?_⟩, first⟩
  · rw [written, if_neg fun both => by omega]
    rfl
  · rw [first, written]
    exact iff_of_false (by simp) fun ⟨_, whole, _⟩ => by omega

theorem Tally.write_succeeds {offset : Nat} (data : Option Buffer)
    (total : Nat) {answer : OpAnswer} (succeeds : answer.ret = .none)
    (writes : answer.written ≠ 0) :
    (Tally.transferred offset).add (.write data offset total answer) =
      .transferred (offset + answer.written) := by
  have noError : answer.error = .none := by
    rw [OpAnswer.error, if_neg fun both => writes both.2, succeeds]
  simp only [Tally.add, Tally.transferred, DriverCall.bytes,
    DriverCall.failure, if_pos succeeds, noError, failed_none,
    List.length_range', Option.or_none]

/-- The last call but `cleanup` decides the run. -/
theorem Tally.poll_decides (size : Nat) (ret : FwUploadErr) :
    ((Tally.transferred size).add (.pollComplete ret)).Decided size where
  prepares := rfl
  polls := (if_pos ⟨rfl, rfl⟩).symm
  succeeds := by
    show failed .programming ret = none ↔
      true = true ∧ size = size ∧
        (false || decide (ret = FwUploadErr.none)) = true
    by_cases completes : ret = .none
    · subst completes
      exact iff_of_true rfl ⟨rfl, rfl, rfl⟩
    · rw [failed_of_error completes, decide_eq_false completes]
      simp

/-- Calls of `cleanup` change nothing else. -/
theorem Tally.add_cleanup (tally : Tally) :
    tally.add .cleanup = { tally with cleanups := tally.cleanups + 1 } := by
  simp only [Tally.add, DriverCall.failure, Option.or_none]

/-! ## Steps of the worker -/

/-- The calls so far, and the next one if there is one. -/
def Tally.addCall (tally : Tally) : Option DriverCall → Tally
  | none => tally
  | some call => tally.add call

theorem tallyOf_append (calls : List DriverCall) (call : Option DriverCall) :
    tallyOf (calls ++ call.toList) = (tallyOf calls).addCall call := by
  cases call with
  | none => rw [Option.toList_none, List.append_nil, Tally.addCall]
  | some call => exact tallyOf_concat calls call

/-- Whether the driver has a `cleanup` does not change. -/
theorem workerStep_hasCleanup {answer : OpAnswer} {upload next : Upload}
    (step : workerStep answer upload = some next) :
    next.hasCleanup = upload.hasCleanup := by
  unfold workerStep at step
  split at step
  case h_1 =>
    split_ifs at step
    cases step
    rfl
  case h_10 =>
    cases step
    split_ifs <;> rfl
  all_goals
    cases step
    rfl

/-- A worker which is not busy is at rest, or about to be. -/
theorem WorkerPc.not_busy {pc : WorkerPc} (spare : ¬ pc.Busy) :
    pc = .idle ∨ pc = .eventfdPut ∨ pc = .clearFinished := by
  cases pc with
  | idle => exact Or.inl rfl
  | eventfdPut => exact Or.inr (Or.inl rfl)
  | clearFinished => exact Or.inr (Or.inr rfl)
  | _ => exact absurd (by simp [WorkerPc.Busy]) spare

theorem workerCall_not_busy (answer : OpAnswer) {upload : Upload}
    (spare : ¬ upload.pc.Busy) : workerCall answer upload = none := by
  rcases WorkerPc.not_busy spare with isPc | isPc | isPc <;>
    rw [workerCall, isPc]

section Steps

variable {size : Nat} {data : Buffer} {answer : OpAnswer}
  {upload next : Upload} {tally : Tally}

/-- The work begins, or the run before ends. -/
theorem Stage.queued_step (spare : ¬ upload.pc.Busy)
    (pending : upload.pending = true)
    (holds : Holds data size upload.fwlp)
    (step : workerStep answer upload = some next) :
    Stage size data next (Tally.zero.addCall (workerCall answer upload)) := by
  obtain ⟨isData, remaining, errCode⟩ := holds
  rw [workerCall_not_busy answer spare]
  rcases WorkerPc.not_busy spare with isPc | isPc | isPc
  · simp only [ImageLoad.workerStep, isPc, if_pos pending,
      Option.some.injEq] at step
    subst step
    exact .prepare rfl rfl ⟨isData, remaining, errCode⟩ rfl rfl
  · simp only [ImageLoad.workerStep, isPc, Option.some.injEq] at step
    subst step
    exact .queued (fun busy => busy.2.2 rfl) pending
      ⟨isData, remaining, errCode⟩ rfl
  · simp only [ImageLoad.workerStep, isPc, Option.some.injEq] at step
    subst step
    exact .queued (fun busy => busy.1 rfl) pending
      ⟨isData, remaining, errCode⟩ rfl

theorem Stage.prepare_step (isPc : upload.pc = .prepare)
    (pending : upload.pending = false)
    (holds : Holds data size upload.fwlp)
    (progress : upload.fwlp.progress = .preparing)
    (step : workerStep answer upload = some next) :
    Stage size data next (Tally.zero.addCall (workerCall answer upload)) := by
  simp only [ImageLoad.workerStep, isPc, Option.some.injEq] at step
  subst step
  rw [workerCall, isPc]
  by_cases succeeds : answer.ret = .none
  · simp only [Tally.addCall, succeeds, Tally.prepare_succeeds]
    exact .startTransfer rfl pending holds rfl
  · simp only [if_neg succeeds]
    obtain ⟨decided, unprepared, first⟩ :=
      Tally.prepare_fails size upload.fwlp.data upload.fwlp.remainingSize
        succeeds
    refine .fails answer.ret false rfl pending decided unprepared succeeds
      ?_ rfl
    show _ = some (upload.fwlp.progress, answer.ret)
    rw [progress]
    exact first

theorem Stage.fails_step {error : FwUploadErr} {prepared : Bool}
    (isPc : upload.pc = .setError error prepared)
    (pending : upload.pending = false) (decided : tally.Decided size)
    (same : tally.prepared = prepared) (isError : error ≠ .none)
    (first : tally.failure = some (upload.fwlp.progress, error))
    (cleanups : tally.cleanups = 0)
    (step : workerStep answer upload = some next) :
    Stage size data next (tally.addCall (workerCall answer upload)) := by
  simp only [ImageLoad.workerStep, isPc, Option.some.injEq] at step
  subst step
  rw [workerCall, isPc]
  have reported : Reported (fwUploadSetError upload error).fwlp tally :=
    reported_of_some first ⟨isError, rfl, rfl⟩
  cases prepared with
  | true => exact .cleanup rfl pending decided reported same cleanups
  | false =>
      refine .leaving (by simp) pending decided reported ?_
      show tally.cleanups = _
      rw [cleanups]
      exact (if_neg fun due =>
        absurd (same.symm.trans due.1) (by decide)).symm

theorem Stage.write_step {offset : Nat}
    (isPc : upload.pc = .write offset) (pending : upload.pending = false)
    (within : offset < size)
    (holds : Holds data (size - offset) upload.fwlp)
    (progress : upload.fwlp.progress = .transferring)
    (reports : answer.ret = .none → ReportsAtMost upload answer)
    (step : workerStep answer upload = some next) :
    Stage size data next
      ((Tally.transferred offset).addCall (workerCall answer upload)) := by
  simp only [ImageLoad.workerStep, isPc, Option.some.injEq] at step
  subst step
  rw [workerCall, isPc]
  have fails : ∀ error, answer.error = error → error ≠ .none →
      Stage size data
        { upload.emit (.write upload.fwlp.data offset
            upload.fwlp.remainingSize) with pc := .setError error true }
        ((Tally.transferred offset).add (.write upload.fwlp.data offset
          upload.fwlp.remainingSize answer)) := by
    intro error isError notNone
    subst isError
    obtain ⟨decided, first⟩ := Tally.write_fails within
      upload.fwlp.data upload.fwlp.remainingSize notNone
    refine .fails answer.error true rfl pending decided rfl notNone ?_ rfl
    show _ = some (upload.fwlp.progress, answer.error)
    rw [progress]
    exact first
  by_cases succeeds : answer.ret = .none
  · by_cases nothing : answer.written = 0
    · simp only [succeeds, ne_eq, not_true_eq_false, if_false, if_pos nothing]
      exact fails .rwError (if_pos ⟨succeeds, nothing⟩) (by decide)
    · have atMost := reports succeeds offset isPc
      rw [holds.remaining] at atMost
      simp only [succeeds, ne_eq, not_true_eq_false, if_false,
        if_neg nothing, Tally.addCall,
        Tally.write_succeeds upload.fwlp.data upload.fwlp.remainingSize
          succeeds nothing]
      exact .advance offset answer.written rfl pending
        (Nat.pos_of_ne_zero nothing) (by omega) holds progress rfl
  · simp only [ne_eq, succeeds, not_false_eq_true, if_true]
    exact fails answer.ret (if_neg fun both => succeeds both.1) succeeds

theorem Stage.loop_step {offset : Nat} (isPc : upload.pc = .loop offset)
    (pending : upload.pending = false) (within : offset ≤ size)
    (holds : Holds data (size - offset) upload.fwlp)
    (progress : upload.fwlp.progress = .transferring)
    (step : workerStep answer upload = some next) :
    Stage size data next
      ((Tally.transferred offset).addCall (workerCall answer upload)) := by
  simp only [ImageLoad.workerStep, isPc, Option.some.injEq] at step
  subst step
  rw [workerCall, isPc]
  by_cases more : upload.fwlp.remainingSize = 0
  · simp only [more, ne_eq, not_true_eq_false, if_false]
    have whole : offset = size := by
      have remaining := holds.remaining
      omega
    subst whole
    exact .startProgram rfl pending holds.errCode rfl
  · simp only [more, ne_eq, not_false_eq_true, if_true]
    have remaining := holds.remaining
    exact .write offset rfl pending (by omega) holds progress rfl

theorem Stage.advance_step {offset written : Nat} (size_lt : size < 2 ^ 32)
    (isPc : upload.pc = .advance offset written)
    (pending : upload.pending = false) (within : offset + written ≤ size)
    (holds : Holds data (size - offset) upload.fwlp)
    (progress : upload.fwlp.progress = .transferring)
    (step : workerStep answer upload = some next) :
    Stage size data next
      ((Tally.transferred (offset + written)).addCall
        (workerCall answer upload)) := by
  simp only [ImageLoad.workerStep, isPc, Option.some.injEq] at step
  subst step
  obtain ⟨isData, remaining, errCode⟩ := holds
  rw [workerCall, isPc, remaining, Word.sub_of_le (by omega),
    Word.add_of_lt (by omega)]
  exact .loop (offset + written) rfl pending within
    ⟨isData, Nat.sub_sub size offset written, errCode⟩ progress rfl

theorem Stage.pollComplete_step (isPc : upload.pc = .pollComplete)
    (pending : upload.pending = false)
    (errCode : upload.fwlp.errCode = .none)
    (progress : upload.fwlp.progress = .programming)
    (step : workerStep answer upload = some next) :
    Stage size data next
      ((Tally.transferred size).addCall (workerCall answer upload)) := by
  simp only [ImageLoad.workerStep, isPc, Option.some.injEq] at step
  subst step
  rw [workerCall, isPc]
  have decided := Tally.poll_decides size answer.ret
  by_cases completes : answer.ret = .none
  · simp only [if_pos completes]
    exact .cleanup rfl pending decided
      (reported_of_none (if_pos completes) errCode) rfl rfl
  · simp only [if_neg completes]
    refine .fails answer.ret true rfl pending decided rfl completes ?_ rfl
    show failed .programming answer.ret =
      some (upload.fwlp.progress, answer.ret)
    rw [progress, failed_of_error completes]

theorem Stage.cleanup_step (isPc : upload.pc = .cleanup)
    (pending : upload.pending = false) (decided : tally.Decided size)
    (reported : Reported upload.fwlp tally)
    (prepared : tally.prepared = true) (cleanups : tally.cleanups = 0)
    (step : workerStep answer upload = some next) :
    Stage size data next (tally.addCall (workerCall answer upload)) := by
  simp only [ImageLoad.workerStep, isPc, Option.some.injEq] at step
  subst step
  rw [workerCall, isPc]
  by_cases cleans : upload.hasCleanup = true
  · simp only [if_pos cleans, Tally.addCall, Tally.add_cleanup]
    refine .leaving (by simp) pending
      ⟨decided.prepares, decided.polls, decided.succeeds⟩ reported ?_
    show tally.cleanups + 1 = _
    rw [cleanups]
    exact (if_pos ⟨prepared, cleans⟩).symm
  · simp only [if_neg cleans, Tally.addCall]
    refine .leaving (by simp) pending decided reported ?_
    rw [cleanups]
    exact (if_neg fun due => cleans due.2).symm

theorem Stage.leaving_step
    (isPc : upload.pc ∈ [.putDevice, .vfree, .clearData, .complete])
    (pending : upload.pending = false) (decided : tally.Decided size)
    (reported : Reported upload.fwlp tally)
    (cleanups : tally.cleanups = tally.cleanupsDue upload.hasCleanup)
    (step : workerStep answer upload = some next) :
    Stage size data next (tally.addCall (workerCall answer upload)) := by
  simp only [List.mem_cons, List.not_mem_nil, or_false] at isPc
  rcases isPc with isPc | isPc | isPc | isPc <;>
    simp only [ImageLoad.workerStep, isPc, Option.some.injEq] at step <;>
    subst step <;>
    rw [workerCall, isPc]
  · exact .leaving (by simp) pending decided reported cleanups
  · exact .leaving (by simp) pending decided reported cleanups
  · exact .leaving (by simp) pending decided reported cleanups
  · exact .idle (fun busy => busy.2.1 rfl) pending decided reported cleanups
      rfl

/-- The worker ends its run. -/
theorem Stage.idle_step (spare : ¬ upload.pc.Busy)
    (pending : upload.pending = false) (decided : tally.Decided size)
    (reported : Reported upload.fwlp tally)
    (cleanups : tally.cleanups = tally.cleanupsDue upload.hasCleanup)
    (progress : upload.fwlp.progress = .idle)
    (step : workerStep answer upload = some next) :
    Stage size data next (tally.addCall (workerCall answer upload)) := by
  rw [workerCall_not_busy answer spare]
  rcases WorkerPc.not_busy spare with isPc | isPc | isPc
  · simp only [ImageLoad.workerStep, isPc, pending, Bool.false_eq_true,
      if_false, reduceCtorEq] at step
  · simp only [ImageLoad.workerStep, isPc, Option.some.injEq] at step
    subst step
    exact .idle (fun busy => busy.2.2 rfl) pending decided reported cleanups
      progress
  · simp only [ImageLoad.workerStep, isPc, Option.some.injEq] at step
    subst step
    exact .idle (fun busy => busy.1 rfl) pending decided reported cleanups
      progress

/-- The worker goes on to the next stage. -/
theorem Stage.workerStep (size_lt : size < 2 ^ 32)
    (stage : Stage size data upload tally)
    (reports : answer.ret = .none → ReportsAtMost upload answer)
    (step : workerStep answer upload = some next) :
    Stage size data next (tally.addCall (workerCall answer upload)) := by
  cases stage with
  | queued spare pending holds calls =>
      subst calls
      exact .queued_step spare pending holds step
  | prepare isPc pending holds progress calls =>
      subst calls
      exact .prepare_step isPc pending holds progress step
  | fails error prepared isPc pending decided same isError first cleanups =>
      exact .fails_step isPc pending decided same isError first cleanups step
  | startTransfer isPc pending holds calls =>
      subst calls
      simp only [ImageLoad.workerStep, isPc, Option.some.injEq] at step
      subst step
      rw [workerCall, isPc]
      exact .loop 0 rfl pending (Nat.zero_le size)
        ⟨holds.data, holds.remaining, holds.errCode⟩ rfl rfl
  | loop offset isPc pending within holds progress calls =>
      subst calls
      exact .loop_step isPc pending within holds progress step
  | write offset isPc pending within holds progress calls =>
      subst calls
      exact .write_step isPc pending within holds progress reports step
  | advance offset written isPc pending writes within holds progress calls =>
      subst calls
      exact .advance_step size_lt isPc pending within holds progress step
  | startProgram isPc pending errCode calls =>
      subst calls
      simp only [ImageLoad.workerStep, isPc, Option.some.injEq] at step
      subst step
      rw [workerCall, isPc]
      exact .pollComplete rfl pending errCode rfl rfl
  | pollComplete isPc pending errCode progress calls =>
      subst calls
      exact .pollComplete_step isPc pending errCode progress step
  | cleanup isPc pending decided reported prepared cleanups =>
      exact .cleanup_step isPc pending decided reported prepared cleanups step
  | leaving isPc pending decided reported cleanups =>
      exact .leaving_step isPc pending decided reported cleanups step
  | idle spare pending decided reported cleanups progress =>
      exact .idle_step spare pending decided reported cleanups progress step

/-- What the worker calls is in order. -/
theorem Stage.inOrder (stage : Stage size data upload tally)
    (reports : answer.ret = .none → ReportsAtMost upload answer)
    {call : DriverCall} (calls : workerCall answer upload = some call) :
    call.InOrder data size tally := by
  cases stage with
  | queued spare pending holds same =>
      rw [workerCall_not_busy answer spare] at calls
      cases calls
  | idle spare pending decided reported cleanups progress =>
      rw [workerCall_not_busy answer spare] at calls
      cases calls
  | prepare isPc pending holds progress same =>
      simp only [workerCall, isPc, Option.some.injEq] at calls
      subst calls
      exact ⟨holds.data, holds.remaining⟩
  | write offset isPc pending within holds progress same =>
      simp only [workerCall, isPc, Option.some.injEq] at calls
      subst calls same
      exact ⟨holds.data, rfl, holds.remaining, within,
        fun succeeds => reports succeeds offset isPc⟩
  | pollComplete isPc pending errCode progress same =>
      simp only [workerCall, isPc, Option.some.injEq] at calls
      subst calls
      trivial
  | cleanup isPc pending decided reported prepared cleanups =>
      simp only [workerCall, isPc] at calls
      split_ifs at calls
      cases calls
      trivial
  | leaving isPc pending decided reported cleanups =>
      simp only [List.mem_cons, List.not_mem_nil, or_false] at isPc
      rcases isPc with isPc | isPc | isPc | isPc <;>
        simp only [workerCall, isPc, reduceCtorEq] at calls
  | fails error prepared isPc pending decided same isError first cleanups =>
      simp only [workerCall, isPc, reduceCtorEq] at calls
  | startTransfer isPc pending holds same =>
      simp only [workerCall, isPc, reduceCtorEq] at calls
  | loop offset isPc pending within holds progress same =>
      simp only [workerCall, isPc, reduceCtorEq] at calls
  | advance offset written isPc pending writes within holds progress same =>
      simp only [workerCall, isPc, reduceCtorEq] at calls
  | startProgram isPc pending errCode same =>
      simp only [workerCall, isPc, reduceCtorEq] at calls

end Steps

/-! ## The end of a run -/

/-- An upper bound on the steps which the worker still takes. -/
def stepsLeft (upload : Upload) : Nat :=
  let remaining := upload.fwlp.remainingSize
  match upload.pc with
  | .eventfdPut => if upload.pending then 4 * remaining + 17 else 2
  | .clearFinished => if upload.pending then 4 * remaining + 16 else 1
  | .idle => if upload.pending then 4 * remaining + 15 else 0
  | .prepare => 4 * remaining + 14
  | .startTransfer => 4 * remaining + 13
  | .loop _ => 4 * remaining + 12
  | .write _ => 4 * remaining + 11
  | .advance _ _ => 4 * remaining + 10
  | .startProgram => 10
  | .pollComplete => 9
  | .setError _ _ => 8
  | .cleanup => 7
  | .putDevice => 6
  | .vfree => 5
  | .clearData => 4
  | .complete => 3

/-- A run takes at most so many steps, with the end of the run before it. -/
theorem stepsLeft_le {upload : Upload} (spare : ¬ upload.pc.Busy) :
    stepsLeft upload ≤ 4 * upload.fwlp.remainingSize + 17 := by
  rcases WorkerPc.not_busy spare with isPc | isPc | isPc <;>
    simp only [stepsLeft, isPc] <;>
    split_ifs <;>
    omega

/-- No work is queued while the worker runs. -/
theorem Stage.not_pending {size : Nat} {data : Buffer} {upload : Upload}
    {tally : Tally} (stage : Stage size data upload tally)
    (busy : upload.pc.Busy) : upload.pending = false := by
  cases stage with
  | queued spare pending holds calls => exact absurd busy spare
  | _ => assumption

/-- The driver has written some of what was missing. -/
theorem Stage.written_pos {size offset written : Nat} {data : Buffer}
    {upload : Upload} {tally : Tally} (stage : Stage size data upload tally)
    (isPc : upload.pc = .advance offset written) :
    0 < written ∧ written ≤ upload.fwlp.remainingSize := by
  cases stage with
  | advance start bytes samePc pending writes within holds progress calls =>
      cases isPc.symm.trans samePc
      have remaining := holds.remaining
      exact ⟨writes, by omega⟩
  | queued spare pending holds calls =>
      exact absurd (by simp [isPc, WorkerPc.Busy]) spare
  | idle spare pending decided reported cleanups progress =>
      exact absurd (by simp [isPc, WorkerPc.Busy]) spare
  | leaving samePc pending decided reported cleanups =>
      simp only [isPc, List.mem_cons, reduceCtorEq, List.not_mem_nil,
        or_false] at samePc
  | _ => simp_all only [reduceCtorEq]

/-- Each step of the worker brings it closer to its end. -/
theorem Stage.stepsLeft {size : Nat} {data : Buffer} {answer : OpAnswer}
    {upload next : Upload} {tally : Tally}
    (stage : Stage size data upload tally)
    (step : ImageLoad.workerStep answer upload = some next) :
    stepsLeft next < stepsLeft upload := by
  cases isPc : upload.pc with
  | idle =>
      by_cases pending : upload.pending = true
      · simp only [ImageLoad.workerStep, isPc, if_pos pending,
          Option.some.injEq] at step
        subst step
        simp only [ImageLoad.stepsLeft, isPc, if_pos pending]
        show 4 * upload.fwlp.remainingSize + 14 < _
        omega
      · simp only [ImageLoad.workerStep, isPc, if_neg pending,
          reduceCtorEq] at step
  | eventfdPut | clearFinished =>
      simp only [ImageLoad.workerStep, isPc, Option.some.injEq] at step
      subst step
      simp only [ImageLoad.stepsLeft, isPc, Upload.emit]
      split_ifs <;> omega
  | prepare =>
      simp only [ImageLoad.workerStep, isPc, Option.some.injEq] at step
      subst step
      simp only [ImageLoad.stepsLeft, isPc, Upload.emit]
      by_cases succeeds : answer.ret = .none
      · simp only [if_pos succeeds]
        omega
      · simp only [if_neg succeeds]
        omega
  | loop offset =>
      simp only [ImageLoad.workerStep, isPc, Option.some.injEq] at step
      subst step
      simp only [ImageLoad.stepsLeft, isPc]
      by_cases more : upload.fwlp.remainingSize ≠ 0
      · simp only [if_pos more]
        omega
      · simp only [if_neg more]
        omega
  | write offset =>
      simp only [ImageLoad.workerStep, isPc, Option.some.injEq] at step
      subst step
      simp only [ImageLoad.stepsLeft, isPc, Upload.emit]
      by_cases fails : answer.ret ≠ .none
      · simp only [if_pos fails]
        omega
      · by_cases nothing : answer.written = 0
        · simp only [if_neg fails, if_pos nothing]
          omega
        · simp only [if_neg fails, if_neg nothing]
          omega
  | advance offset written =>
      simp only [ImageLoad.workerStep, isPc, Option.some.injEq] at step
      subst step
      obtain ⟨writes, atMost⟩ := stage.written_pos isPc
      simp only [ImageLoad.stepsLeft, isPc, Word.sub_of_le atMost]
      omega
  | pollComplete =>
      simp only [ImageLoad.workerStep, isPc, Option.some.injEq] at step
      subst step
      simp only [ImageLoad.stepsLeft, isPc, Upload.emit]
      by_cases completes : answer.ret = .none
      · simp only [if_pos completes]
        omega
      · simp only [if_neg completes]
        omega
  | setError ret prepared =>
      simp only [ImageLoad.workerStep, isPc, Option.some.injEq] at step
      subst step
      cases prepared <;> simp [ImageLoad.stepsLeft, isPc]
  | complete =>
      have pending := stage.not_pending (by simp [isPc, WorkerPc.Busy])
      simp only [ImageLoad.workerStep, isPc, Option.some.injEq] at step
      subst step
      simp [ImageLoad.stepsLeft, isPc, fwUploadProgComplete,
        fwUploadUpdateProgress, Upload.emit, pending]
  | startTransfer | startProgram | cleanup | putDevice | vfree | clearData =>
      simp only [ImageLoad.workerStep, isPc, Option.some.injEq] at step
      subst step
      simp only [ImageLoad.stepsLeft, isPc, fwUploadUpdateProgress]
      omega

/-! ## Whole runs -/

/-- The event is a call of the worker. -/
def Event.isWorkerCall : Event → Bool
  | .prepare _ _ => true
  | .write _ _ _ => true
  | .pollComplete => true
  | .cleanup => true
  | _ => false

/-- The history has recorded what the worker calls. -/
theorem workerStep_history {answer : OpAnswer} {upload next : Upload}
    (step : workerStep answer upload = some next) :
    next.history.filter Event.isWorkerCall =
      upload.history.filter Event.isWorkerCall ++
        ((workerCall answer upload).toList.map DriverCall.event) := by
  cases isPc : upload.pc with
  | idle =>
      simp only [workerStep, isPc] at step
      split_ifs at step
      cases step
      rw [workerCall, isPc]
      exact List.filter_append _ _
  | cleanup =>
      simp only [workerStep, isPc, Option.some.injEq] at step
      subst step
      rw [workerCall, isPc]
      by_cases cleans : upload.hasCleanup = true
      · simp only [if_pos cleans]
        exact List.filter_append _ _
      · simp only [if_neg cleans]
        exact (List.append_nil _).symm
  | prepare | write | pollComplete | vfree | complete | eventfdPut =>
      simp only [workerStep, isPc, Option.some.injEq] at step
      subst step
      rw [workerCall, isPc]
      exact List.filter_append _ _
  | _ =>
      simp only [workerStep, isPc, Option.some.injEq] at step
      subst step
      rw [workerCall, isPc]
      exact (List.append_nil _).symm

/-- One run of the worker, for the request and up to here. -/
structure RunsFor (request : WriteRequest) (before : Upload)
    (called : Called) : Prop where
  stage :
    Stage request.size before.bufs.length called.upload (tallyOf called.calls)
  orderly : CallsInOrder before.bufs.length request.size called.calls
  recorded :
    called.upload.history.filter Event.isWorkerCall =
      before.history.filter Event.isWorkerCall ++
        called.calls.map DriverCall.event
  hasCleanup : called.upload.hasCleanup = before.hasCleanup

/-- The state in which an accepted request leaves the upload. -/
theorem ioctlWrite_accepted {request : WriteRequest} {before upload : Upload}
    (accepts : fpgaImageLoadIoctlWrite request before = (none, upload)) :
    Accepts request before upload ∧ upload.fwlp.errCode = .none ∧
      upload.hasCleanup = before.hasCleanup := by
  have passes : request.PassesChecks := by
    by_contra stops
    have refused := (fpgaImageLoadIoctlWrite_of_not_passes stops before).1
    rw [accepts] at refused
    exact refused rfl
  have notNegative : ¬ request.evtfd < 0 := Int.not_lt.mpr passes.evtfd
  simp only [fpgaImageLoadIoctlWrite, passes.copyRequest, passes.flags,
    passes.size, notNegative, passes.vzalloc, passes.copyBuffer,
    Bool.not_true, Bool.false_eq_true, ne_eq, not_true_eq_false,
    if_false] at accepts
  cases eventfd : request.eventfd with
  | error ret =>
      rw [eventfd] at accepts
      cases accepts
  | ok finished =>
      rw [eventfd] at accepts
      cases accepts
      refine ⟨?_, rfl, rfl⟩
      constructor <;> simp

theorem runsFor_of_accepted {request : WriteRequest} {before upload : Upload}
    (spare : ¬ before.pc.Busy)
    (accepts : fpgaImageLoadIoctlWrite request before = (none, upload)) :
    RunsFor request before ⟨upload, []⟩ := by
  obtain ⟨fields, errCode, hasCleanup⟩ := ioctlWrite_accepted accepts
  constructor
  case stage =>
    exact .queued (by rwa [fields.pc]) fields.pending
      ⟨fields.data, fields.remainingSize, errCode⟩ rfl
  case orderly => exact callsInOrder_nil before.bufs.length request.size
  case recorded =>
    rw [fields.history]
    exact List.filter_append _ _
  case hasCleanup => exact hasCleanup

/-- What the run does not look at may change. -/
theorem RunsFor.congr {request : WriteRequest} {before : Upload}
    {called next : Called} (runs : RunsFor request before called)
    (calls : next.calls = called.calls)
    (fwlp : next.upload.fwlp = called.upload.fwlp)
    (pending : next.upload.pending = called.upload.pending)
    (pc : next.upload.pc = called.upload.pc)
    (hasCleanup : next.upload.hasCleanup = called.upload.hasCleanup)
    (history :
      next.upload.history.filter Event.isWorkerCall =
        called.upload.history.filter Event.isWorkerCall) :
    RunsFor request before next := by
  constructor
  case stage =>
    rw [Stage, calls, fwlp, pending, pc, hasCleanup]
    exact runs.stage
  case orderly =>
    rw [calls]
    exact runs.orderly
  case recorded => rw [history, calls, runs.recorded]
  case hasCleanup => exact hasCleanup.trans runs.hasCleanup

/-- A step of the worker goes on with the run. -/
theorem RunsFor.workerStep {request : WriteRequest} {before : Upload}
    {called next : Called} {answer : OpAnswer}
    (runs : RunsFor request before called)
    (reports : answer.ret = .none → ReportsAtMost called.upload answer)
    (step : workerStep answer called.upload = some next.upload)
    (calls :
      next.calls =
        called.calls ++ (workerCall answer called.upload).toList) :
    RunsFor request before next := by
  constructor
  case stage =>
    rw [calls, tallyOf_append]
    exact runs.stage.workerStep request.size_lt reports step
  case orderly =>
    rw [calls]
    cases isCall : workerCall answer called.upload with
    | none =>
        rw [Option.toList_none, List.append_nil]
        exact runs.orderly
    | some call =>
        exact runs.orderly.concat (runs.stage.inOrder reports isCall)
  case recorded =>
    rw [workerStep_history step, runs.recorded, calls, List.map_append,
      List.append_assoc]
  case hasCleanup =>
    exact (workerStep_hasCleanup step).trans runs.hasCleanup

theorem RunsFor.step {request : WriteRequest} {before : Upload}
    {called next : Called} {action : Action}
    (runs : RunsFor request before called)
    (step : called.Step action next) : RunsFor request before next := by
  obtain ⟨undisturbed, moves, calls⟩ := step
  cases action with
  | write other => exact absurd undisturbed id
  | worker answer => exact runs.workerStep undisturbed moves calls
  | status copyToUser =>
      have same : called.upload = next.upload := moves
      replace calls : next.calls = called.calls ++ [] := calls
      rw [List.append_nil] at calls
      exact runs.congr calls (same ▸ rfl) (same ▸ rfl) (same ▸ rfl)
        (same ▸ rfl) (same ▸ rfl)
  | cancel =>
      have effect :
        (fpgaImageLoadIoctlCancel called.upload).2 = next.upload := moves
      replace calls : next.calls = called.calls ++ [] := calls
      rw [List.append_nil] at calls
      unfold fpgaImageLoadIoctlCancel at effect
      split_ifs at effect
      · exact runs.congr calls (effect ▸ rfl) (effect ▸ rfl) (effect ▸ rfl)
          (effect ▸ rfl) (effect ▸ rfl)
      · refine runs.congr calls (effect ▸ rfl) (effect ▸ rfl) (effect ▸ rfl)
          (effect ▸ rfl) ?_
        rw [← effect]
        show (called.upload.history ++ [Event.cancel]).filter _ = _
        rw [List.filter_append]
        exact List.append_nil _

/-- The worker can go on, whatever the driver answers, unless it is at rest. -/
theorem workerStep_isSome (answer : OpAnswer) {upload : Upload}
    (works : ¬ upload.AtRest) :
    (workerStep answer upload).isSome = true := by
  cases isPc : upload.pc with
  | idle =>
      have pending : upload.pending = true := by
        by_contra notPending
        exact works ⟨isPc, by simpa using notPending⟩
      simp only [workerStep, isPc, if_pos pending, Option.isSome_some]
  | _ => simp only [workerStep, isPc, Option.isSome_some]

/-- The calls and the status at the end of a run. -/
structure RunEnds (size : Nat) (cleans : Bool) (fwlp : FwUploadPriv)
    (tally : Tally) : Prop where
  progress : fwlp.progress = .idle
  prepares : tally.prepares = 1
  /-- `poll_complete` is called once all is written, and only then. -/
  polls :
    tally.polls = if tally.prepared = true ∧ tally.written = size then 1 else 0
  cleanups :
    tally.cleanups = if tally.prepared = true ∧ cleans = true then 1 else 0
  succeeds :
    fwlp.errCode = .none ↔
      tally.prepared = true ∧ tally.written = size ∧ tally.completed = true
  /-- The status is that of the first call which fails, if one does. -/
  fails :
    fwlp.errCode ≠ .none →
      tally.failure = some (fwlp.errProgress, fwlp.errCode)

/-- What is promised of the run at each of its states. -/
structure Conforms (request : WriteRequest) (before : Upload)
    (called : Called) : Prop where
  orderly : CallsInOrder before.bufs.length request.size called.calls
  recorded :
    called.upload.history.filter Event.isWorkerCall =
      before.history.filter Event.isWorkerCall ++
        called.calls.map DriverCall.event
  proceeds :
    ¬ called.upload.AtRest →
      ∀ answer, (workerStep answer called.upload).isSome = true
  ends :
    called.upload.AtRest →
      RunEnds request.size before.hasCleanup called.upload.fwlp
        (tallyOf called.calls)

theorem Reported.errCode_iff {fwlp : FwUploadPriv} {tally : Tally}
    (reported : Reported fwlp tally) :
    fwlp.errCode = .none ↔ tally.failure = none := by
  cases failure : tally.failure with
  | none =>
      rw [Reported, failure] at reported
      exact iff_of_true reported rfl
  | some first =>
      rw [Reported, failure] at reported
      obtain ⟨isError, errCode, -⟩ := reported
      refine iff_of_false ?_ (by simp)
      rw [errCode]
      exact isError

theorem Stage.ends {size : Nat} {data : Buffer} {upload : Upload}
    {tally : Tally} (stage : Stage size data upload tally)
    (rests : upload.AtRest) :
    RunEnds size upload.hasCleanup upload.fwlp tally := by
  obtain ⟨isPc, notPending⟩ := rests
  cases stage with
  | queued spare pending holds calls =>
      exact absurd (notPending.symm.trans pending) (by decide)
  | idle spare pending decided reported cleanups progress =>
      refine ⟨progress, decided.prepares, decided.polls, cleanups,
        reported.errCode_iff.trans decided.succeeds, ?_⟩
      intro isError
      cases failure : tally.failure with
      | none => exact absurd (reported.errCode_iff.mpr failure) isError
      | some first =>
          rw [Reported, failure] at reported
          obtain ⟨-, errCode, errProgress⟩ := reported
          rw [errCode, errProgress]
  | leaving samePc pending decided reported cleanups =>
      simp only [isPc, List.mem_cons, reduceCtorEq, List.not_mem_nil,
        or_false] at samePc
  | _ => simp_all only [reduceCtorEq]

theorem RunsFor.conforms {request : WriteRequest} {before : Upload}
    {called : Called} (runs : RunsFor request before called) :
    Conforms request before called where
  orderly := runs.orderly
  recorded := runs.recorded
  proceeds := fun works answer => workerStep_isSome answer works
  ends := fun rests => runs.hasCleanup ▸ runs.stage.ends rests

/-- The action is a step of the worker. -/
def Action.isWorker : Action → Bool
  | .worker _ => true
  | _ => false

/-- No action takes the worker further from its end. -/
theorem RunsFor.stepsLeft {request : WriteRequest} {before : Upload}
    {called next : Called} {action : Action}
    (runs : RunsFor request before called)
    (step : called.Step action next) :
    stepsLeft next.upload + action.isWorker.toNat ≤
      stepsLeft called.upload := by
  obtain ⟨undisturbed, moves, -⟩ := step
  cases action with
  | write other => exact absurd undisturbed id
  | worker answer => exact runs.stage.stepsLeft moves
  | status copyToUser =>
      have same : called.upload = next.upload := moves
      rw [same]
      exact Nat.le_refl _
  | cancel =>
      have effect :
        (fpgaImageLoadIoctlCancel called.upload).2 = next.upload := moves
      unfold fpgaImageLoadIoctlCancel at effect
      split_ifs at effect
      · rw [← effect]
        exact Nat.le_refl _
      · rw [← effect]
        exact Nat.le_refl _

/--
One run of the worker for an accepted request, with any answers of the driver
and without another request.  The calls of the driver are in order and write
the image from its first byte on.  The worker ends its run, in a bounded
number of steps: `poll_complete` has been called exactly if all is written,
`cleanup` has been called exactly if the device has been prepared and the
driver has the operation, and the status is that of the first failure.
-/
theorem fwUploadMain_conforms (request : WriteRequest)
    (before accepted : Upload) (spare : ¬ before.pc.Busy)
    (accepts : fpgaImageLoadIoctlWrite request before = (none, accepted))
    (path : List (Action × Called))
    (isPath : IsPath Called.Step ⟨accepted, []⟩ path) :
    Throughout (Conforms request before) ⟨accepted, []⟩ path ∧
      countSteps Action.isWorker path ≤ 4 * request.size + 17 := by
  have start := runsFor_of_accepted spare accepts
  have kept : ∀ source action target,
      RunsFor request before source → source.Step action target →
        RunsFor request before target :=
    fun _ _ _ runs step => runs.step step
  constructor
  · exact (throughout_of_invariant kept isPath start).mono
      fun _ runs => runs.conforms
  · have bound := countSteps_le Action.isWorker
      (RunsFor request before) (fun called => stepsLeft called.upload)
      kept (fun _ _ _ runs step => runs.stepsLeft step) isPath start
    obtain ⟨fields, -, -⟩ := ioctlWrite_accepted accepts
    have most : stepsLeft accepted ≤
        4 * accepted.fwlp.remainingSize + 17 :=
      stepsLeft_le (by rwa [fields.pc])
    rw [fields.remainingSize] at most
    exact bound.trans most

/-! ## Runs on fixed answers -/

/-- The calls after an action, with what it calls in the worker. -/
def Called.apply (called : Called) (action : Action) : Called where
  upload :=
    match action with
    | .worker answer => (workerStep answer called.upload).getD called.upload
    | .cancel => (fpgaImageLoadIoctlCancel called.upload).2
    | _ => called.upload
  calls := called.calls ++ (action.call called.upload).toList

/-- The worker can take the step, and the driver writes no more than asked. -/
def Called.canTake (called : Called) : Action → Bool
  | .write _ => false
  | .worker answer =>
      (workerStep answer called.upload).isSome &&
        match called.upload.pc with
        | .write _ => decide (answer.written ≤ called.upload.fwlp.remainingSize)
        | _ => true
  | _ => true

theorem Called.step_apply (called : Called) (action : Action)
    (takes : called.canTake action = true) :
    called.Step action (called.apply action) := by
  cases action with
  | write request => exact absurd takes Bool.false_ne_true
  | status copyToUser => exact ⟨trivial, rfl, rfl⟩
  | cancel => exact ⟨trivial, rfl, rfl⟩
  | worker answer =>
      obtain ⟨steps, fits⟩ := Bool.and_eq_true_iff.mp takes
      obtain ⟨next, step⟩ := Option.isSome_iff_exists.mp steps
      refine ⟨?_, ?_, rfl⟩
      · intro _ offset isPc
        simp only [isPc, decide_eq_true_eq] at fits
        exact fits
      · show workerStep answer called.upload =
          some ((workerStep answer called.upload).getD called.upload)
        rw [step]
        rfl

/-- The upload of one byte, with a request to cancel which is too late. -/
def oneByteUpload : List Action :=
  List.replicate 9 (.worker ⟨.none, 1⟩) ++ [.cancel] ++
    List.replicate 7 (.worker ⟨.none, 1⟩)

/-- The request for one byte, on a device at rest. -/
def oneByteAccepted (hasCleanup : Bool) : Called :=
  ⟨(fpgaImageLoadIoctlWrite oneByteRequest (registered hasCleanup)).2, []⟩

/-- `cleanup` is called once in each run in which `prepare` has succeeded. -/
def CleansUp (called : Called) : Prop :=
  called.upload.AtRest → (tallyOf called.calls).prepared = true →
    (tallyOf called.calls).cleanups = 1

/-- A driver without the operation is not asked to clean up. -/
theorem no_cleanup_without_operation :
    ∃ path, IsPath Called.Step (oneByteAccepted false) path ∧
      ¬ Throughout CleansUp (oneByteAccepted false) path := by
  refine ⟨pathOf Called.apply (oneByteAccepted false) oneByteUpload,
    isPath_of_enabledAlong Called.step_apply (by decide), ?_⟩
  intro throughout
  have cleansUp := throughout.final ⟨by decide, by decide⟩
    (by decide)
  exact absurd cleansUp (by decide)

/-- The whole image is written, and the worker is at rest again. -/
theorem oneByteUpload_conforms :
    Conforms oneByteRequest (registered true)
      (oneByteUpload.foldl Called.apply (oneByteAccepted true)) :=
  (fwUploadMain_conforms oneByteRequest (registered true)
    (oneByteAccepted true).upload (fun busy => busy.1 rfl)
    (by decide)
    (pathOf Called.apply (oneByteAccepted true) oneByteUpload)
    (isPath_of_enabledAlong Called.step_apply (by decide))).1.final

end LinuxDfl.ImageLoad

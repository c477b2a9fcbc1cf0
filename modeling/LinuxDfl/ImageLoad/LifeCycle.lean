import LinuxDfl.ImageLoad.Protocol

/-!
# The life of an image load device

One process at a time has the device open, and closing it cancels an upload
and waits for the worker.  The lower-level driver unregisters the device in
the same way, after which the last reference frees what the worker uses.  Both
waits begin with a look at the progress, which the worker sets to idle before
it is done; and an open file may upload while the device is unregistered.
-/

namespace LinuxDfl.ImageLoad

open LinuxDfl.Kernel
open LinuxDfl.Lib.Transition

/-! ## The model -/

/--
Where `fpga_image_load_release` or `fpga_image_load_unregister` is with its
wait for the worker.
-/
inductive WaitPc where
  /-- It has not begun, or not looked at the progress yet. -/
  | check
  /-- The upload is cancelled, and the lock is dropped. -/
  | cancelled
  /-- In `flush_work`, until so many runs of the worker have ended. -/
  | flush (runs : Nat)
  | passed
  deriving DecidableEq, Repr

/-- Where the lower-level driver is with the device. -/
inductive DriverPc where
  /-- `fpga_image_load_unregister` up to `cdev_del` -/
  | wait (pc : WaitPc)
  | deviceUnregister
  | modulePut
  /-- `fpga_image_load_unregister` has returned. -/
  | gone
  deriving DecidableEq, Repr

/-- `struct fpga_image_load`, the files of its cdev, and its driver. -/
structure FpgaImageLoad where
  upload : Upload
  /-- Runs of the worker which have ended. -/
  ended : Nat
  opened : Bool
  /-- The file which has the device open, as far as its release is. -/
  file : Option WaitPc
  /-- Openers which hold the cdev, and have not looked at `opened` yet. -/
  opening : Nat
  /-- Files which are done, and still hold the cdev. -/
  closing : Nat
  driver : DriverPc
  cdevRefs : Nat
  devRefs : Nat
  /-- How often `fpga_image_load_dev_release` has run. -/
  frees : Nat
  deriving DecidableEq, Repr

/-- The runs of the worker which are queued or running. -/
def Upload.runs (upload : Upload) : Nat :=
  (if upload.pc = .idle then 0 else 1) + upload.pending.toNat

/-- The wait of `fpga_image_load_release` and `fpga_image_load_unregister`. -/
def waitStep (upload : Upload) (ended : Nat) :
    WaitPc → Option (Upload × WaitPc)
  | .check =>
      if upload.fwlp.progress = .idle then
        some (upload, .passed)
      else
        some (upload.emit .cancel, .cancelled)
  | .cancelled => some (upload, .flush (ended + upload.runs))
  | .flush runs => if runs ≤ ended then some (upload, .passed) else none
  | .passed => none

/-- `put_device`; the last one runs `fpga_image_load_dev_release`. -/
def putDevice (imgld : FpgaImageLoad) : FpgaImageLoad :=
  { imgld with
    devRefs := imgld.devRefs - 1
    frees := imgld.frees + if imgld.devRefs = 1 then 1 else 0 }

/-- `cdev_put`; the last one drops the cdev's reference to the device. -/
def cdevPut (imgld : FpgaImageLoad) : FpgaImageLoad :=
  let put := { imgld with cdevRefs := imgld.cdevRefs - 1 }
  if imgld.cdevRefs = 1 then putDevice put else put

/-- The cdev can still be looked up. -/
def DriverPc.cdevAdded : DriverPc → Bool
  | .wait _ => true
  | _ => false

/-- `fpga_image_load_open`, with the new value of `opened` -/
def fpgaImageLoadOpen (opened : Bool) : Option Errno × Bool :=
  if opened then (some .ebusy, opened) else (none, true)

/-- What happens to an image load device. -/
inductive LifeAction where
  /-- `chrdev_open` takes its reference to the cdev. -/
  | lookup
  | openFile
  | write (request : WriteRequest)
  | cancel
  | worker (answer : OpAnswer)
  /-- The last reference to the file is gone: a step of its release. -/
  | release
  /-- A file, or an open which has failed, drops its reference. -/
  | put
  /-- A step of the removal of the lower-level driver. -/
  | unregister

/-- One action; nothing where it cannot be taken. -/
def FpgaImageLoad.perform (imgld : FpgaImageLoad) :
    LifeAction → Option FpgaImageLoad
  | .lookup =>
      if imgld.driver.cdevAdded then
        some { imgld with
          opening := imgld.opening + 1, cdevRefs := imgld.cdevRefs + 1 }
      else
        none
  | .openFile =>
      if imgld.opening = 0 then
        none
      else
        let imgld := { imgld with opening := imgld.opening - 1 }
        match fpgaImageLoadOpen imgld.opened with
        | (some _, _) => some { imgld with closing := imgld.closing + 1 }
        | (none, opened) =>
            some { imgld with opened := opened, file := some .check }
  | .write request =>
      if imgld.file = some .check then
        some { imgld with
          upload := (fpgaImageLoadIoctlWrite request imgld.upload).2 }
      else
        none
  | .cancel =>
      if imgld.file = some .check then
        some { imgld with
          upload := (fpgaImageLoadIoctlCancel imgld.upload).2 }
      else
        none
  | .worker answer =>
      (workerStep answer imgld.upload).map fun upload =>
        { imgld with
          upload := upload
          ended := imgld.ended +
            if imgld.upload.pc = .clearFinished then 1 else 0 }
  | .release =>
      match imgld.file with
      | none => none
      | some .passed =>
          some { imgld with
            opened := false, file := none, closing := imgld.closing + 1 }
      | some pc =>
          (waitStep imgld.upload imgld.ended pc).map fun (upload, pc) =>
            { imgld with upload := upload, file := some pc }
  | .put =>
      if imgld.closing = 0 then
        none
      else
        some (cdevPut { imgld with closing := imgld.closing - 1 })
  | .unregister =>
      match imgld.driver with
      | .wait .passed =>
          some (cdevPut { imgld with driver := .deviceUnregister })
      | .wait pc =>
          (waitStep imgld.upload imgld.ended pc).map fun (upload, pc) =>
            { imgld with upload := upload, driver := .wait pc }
      | .deviceUnregister =>
          some (putDevice { imgld with driver := .modulePut })
      | .modulePut => some { imgld with driver := .gone }
      | .gone => none

/-- One action of any party. -/
def FpgaImageLoad.Step (imgld : FpgaImageLoad) (action : LifeAction)
    (next : FpgaImageLoad) : Prop :=
  imgld.perform action = some next

/-- `fpga_image_load_register` has returned; the cdev holds the device. -/
def registeredDevice (hasCleanup : Bool) : FpgaImageLoad where
  upload := registered hasCleanup
  ended := 0
  opened := false
  file := none
  opening := 0
  closing := 0
  driver := .wait .check
  cdevRefs := 1
  devRefs := 2
  frees := 0

/-! ## What is to hold -/

/-- The driver has unregistered the device from the driver core. -/
def DriverPc.hasDevice : DriverPc → Bool
  | .wait _ | .deviceUnregister => true
  | _ => false

/-- `fpga_image_load_unregister` is behind its wait for the worker. -/
def DriverPc.waited : DriverPc → Prop
  | .wait pc => pc = .passed
  | _ => True

instance (driver : DriverPc) : Decidable driver.waited := by
  cases driver <;> (unfold DriverPc.waited; infer_instance)

/-- Who has a reference to the cdev. -/
def FpgaImageLoad.cdevHolders (imgld : FpgaImageLoad) : Nat :=
  imgld.opening + imgld.closing + imgld.file.isSome.toNat +
    imgld.driver.cdevAdded.toNat

/-- Who has a reference to the device. -/
def FpgaImageLoad.devHolders (imgld : FpgaImageLoad) : Nat :=
  (if imgld.cdevRefs = 0 then 0 else 1) + imgld.driver.hasDevice.toNat

/--
The references are those of their holders, the device is freed with the last
of them and no second time, and `opened` says whether a file is open.
-/
structure Counted (imgld : FpgaImageLoad) : Prop where
  opened : imgld.opened = imgld.file.isSome
  cdevRefs : imgld.cdevRefs = imgld.cdevHolders
  devRefs : imgld.devRefs = imgld.devHolders
  frees : imgld.frees = if imgld.devRefs = 0 then 1 else 0

/-- The worker, the file and the driver, which the waits are about. -/
structure Parties where
  upload : Upload
  ended : Nat
  file : Option WaitPc
  driver : DriverPc

def FpgaImageLoad.parties (imgld : FpgaImageLoad) : Parties :=
  ⟨imgld.upload, imgld.ended, imgld.file, imgld.driver⟩

/--
The upload is over once the file is closed, and the worker is done with the
driver once the driver has waited for it.
-/
structure Settled (parties : Parties) : Prop where
  file :
    parties.file = none ∨ parties.file = some .passed →
      parties.upload.AtRest
  driver : parties.driver.waited → parties.upload.AtRest

/--
What is freed is not in use by the worker or a file, and uploads leave no
reference to the parent device behind.
-/
structure Safe (imgld : FpgaImageLoad) : Prop where
  freed : imgld.frees ≠ 0 →
    imgld.upload.AtRest ∧ imgld.opening = 0 ∧ imgld.file = none ∧
      imgld.closing = 0 ∧ imgld.driver.hasDevice = false
  parent : imgld.upload.AtRest → imgld.upload.parentRefs = 0

/-- Uploads are requested as `WritesWhenIdle` says. -/
def UploadsWhenIdle (parties : Parties) : LifeAction → Prop
  | .write request => WritesWhenIdle parties.upload (.write request)
  | _ => True

/-- The wait of the driver finds the worker at rest when it ends. -/
def DriverPc.WaitsOut (upload : Upload) : DriverPc → Prop
  | .wait .check => upload.fwlp.progress = .idle → upload.AtRest
  | .wait (.flush _) => upload.AtRest
  | _ => True

/--
The worker is not in between its report that it is idle and its end when a
wait looks at the progress; no upload is queued while the driver waits for an
earlier one, and none is accepted after it has.
-/
def WaitsOut (parties : Parties) : LifeAction → Prop
  | .write request =>
      parties.driver.waited →
        (fpgaImageLoadIoctlWrite request parties.upload).1 ≠ none
  | .release =>
      parties.file = some .check → parties.upload.fwlp.progress = .idle →
        parties.upload.AtRest
  | .unregister => parties.driver.WaitsOut parties.upload
  | _ => True

/-! ## The worker and the requests -/

/-- From the start of a run to `put_device`. -/
def WorkerPc.holdsParent : WorkerPc → Bool
  | .idle | .vfree | .clearData | .complete | .eventfdPut
  | .clearFinished => false
  | _ => true

/-- The progress tells of an upload, and each upload holds the parent once. -/
structure Balanced (upload : Upload) : Prop where
  progress :
    upload.fwlp.progress = .idle ↔
      ¬ upload.pc.Busy ∧ upload.pending = false
  pending : upload.pc.Busy → upload.pending = false
  parentRefs :
    upload.parentRefs =
      (upload.pc.holdsParent.toNat + upload.pending.toNat : Nat)

theorem Upload.atRest_iff_runs (upload : Upload) :
    upload.AtRest ↔ upload.runs = 0 := by
  unfold Upload.AtRest Upload.runs
  by_cases isIdle : upload.pc = .idle <;> cases upload.pending <;>
    simp [isIdle]

theorem Balanced.at_rest {upload : Upload} (balanced : Balanced upload)
    (atRest : upload.AtRest) : upload.parentRefs = 0 := by
  rw [balanced.parentRefs, atRest.1, atRest.2]
  rfl

/-- A busy worker drops its reference to the parent in `put_device`. -/
theorem workerStep_parentRefs {answer : OpAnswer} {upload next : Upload}
    (busy : upload.pc.Busy)
    (step : workerStep answer upload = some next) :
    next.parentRefs + upload.pc.holdsParent.toNat =
      upload.parentRefs + next.pc.holdsParent.toNat := by
  obtain ⟨notIdle, notPut, notClear⟩ := busy
  cases isPc : upload.pc with
  | idle => exact absurd isPc notIdle
  | eventfdPut => exact absurd isPc notPut
  | clearFinished => exact absurd isPc notClear
  | prepare =>
      simp only [workerStep, isPc, Option.some.injEq] at step
      subst step
      by_cases prepared : answer.ret = .none <;>
        simp [prepared, WorkerPc.holdsParent, Upload.emit]
  | setError ret prepared =>
      simp only [workerStep, isPc, Option.some.injEq] at step
      subst step
      cases prepared <;> simp [WorkerPc.holdsParent, fwUploadSetError]
  | loop offset =>
      simp only [workerStep, isPc, Option.some.injEq] at step
      subst step
      by_cases done : upload.fwlp.remainingSize = 0 <;>
        simp [done, WorkerPc.holdsParent]
  | write offset =>
      simp only [workerStep, isPc, Option.some.injEq] at step
      subst step
      by_cases fails : answer.ret = .none <;>
        by_cases nothing : answer.written = 0 <;>
          simp [fails, nothing, WorkerPc.holdsParent, Upload.emit]
  | pollComplete =>
      simp only [workerStep, isPc, Option.some.injEq] at step
      subst step
      by_cases completes : answer.ret = .none <;>
        simp [completes, WorkerPc.holdsParent, Upload.emit]
  | cleanup =>
      simp only [workerStep, isPc, Option.some.injEq] at step
      subst step
      by_cases cleans : upload.hasCleanup = true <;>
        simp [cleans, WorkerPc.holdsParent, Upload.emit]
  | putDevice =>
      simp only [workerStep, isPc, Option.some.injEq] at step
      subst step
      simp [WorkerPc.holdsParent]
  | _ =>
      simp only [workerStep, isPc, Option.some.injEq] at step
      subst step
      simp [WorkerPc.holdsParent, Upload.emit, fwUploadUpdateProgress,
        fwUploadProgComplete]

theorem Balanced.workerStep {answer : OpAnswer} {upload next : Upload}
    (balanced : Balanced upload)
    (step : workerStep answer upload = some next) : Balanced next := by
  by_cases busy : upload.pc.Busy
  · have notPending := balanced.pending busy
    have notIdle : upload.fwlp.progress ≠ .idle := fun idle =>
      (balanced.progress.mp idle).1 busy
    have refs := workerStep_parentRefs busy step
    have owed := balanced.parentRefs
    rw [notPending] at owed
    by_cases complete : upload.pc = .complete
    · simp only [ImageLoad.workerStep, complete, Option.some.injEq] at step
      subst step
      refine ⟨⟨fun _ => ⟨by simp [WorkerPc.Busy], notPending⟩, fun _ => rfl⟩,
        fun busy => absurd rfl busy.2.1, ?_⟩
      simpa [complete, WorkerPc.holdsParent, fwUploadProgComplete,
        fwUploadUpdateProgress, Upload.emit, notPending] using owed
    · have stays := workerStep_busy busy complete step
      refine ⟨⟨fun idle => absurd idle (stays.progress notIdle),
        fun spare => absurd stays.pc spare.1⟩,
        fun _ => stays.pending.trans notPending, ?_⟩
      rw [stays.pending, notPending]
      simp only [Bool.toNat_false, Nat.add_zero] at owed ⊢
      omega
  · have refs := balanced.parentRefs
    have progress := balanced.progress
    rcases WorkerPc.not_busy busy with isPc | isPc | isPc
    · by_cases pending : upload.pending = true
      · simp only [ImageLoad.workerStep, isPc, pending, if_true,
          Option.some.injEq] at step
        subst step
        refine ⟨⟨fun idle => ?_, fun spare => ?_⟩, fun _ => rfl, ?_⟩
        · simp [fwUploadUpdateProgress] at idle
        · exact absurd (by simp [WorkerPc.Busy]) spare.1
        · simpa [isPc, pending, WorkerPc.holdsParent, fwUploadUpdateProgress,
            Upload.emit] using refs
      · simp [ImageLoad.workerStep, isPc, pending] at step
    all_goals
      -- the worker leaves, and a request may be queued behind it
      simp only [ImageLoad.workerStep, isPc, Option.some.injEq] at step
      subst step
      refine ⟨?_, fun again => absurd again (by simp [WorkerPc.Busy]), ?_⟩
      · simpa [isPc, WorkerPc.Busy, Upload.emit] using progress
      · simpa [isPc, WorkerPc.holdsParent, Upload.emit] using refs

/-- A run of the worker is queued, then running, and then has ended. -/
theorem workerStep_runs {answer : OpAnswer} {upload next : Upload}
    (step : workerStep answer upload = some next) :
    next.runs + (if upload.pc = .clearFinished then 1 else 0) =
      upload.runs := by
  by_cases busy : upload.pc.Busy
  · have notIdle := busy.1
    have notClear := busy.2.2
    by_cases complete : upload.pc = .complete
    · simp only [workerStep, complete, Option.some.injEq] at step
      subst step
      simp [Upload.runs, complete, fwUploadProgComplete,
        fwUploadUpdateProgress, Upload.emit]
    · have stays := workerStep_busy busy complete step
      simp [Upload.runs, stays.pc.1, stays.pending, notIdle, notClear]
  · rcases WorkerPc.not_busy busy with isPc | isPc | isPc
    · by_cases pending : upload.pending = true
      · simp only [workerStep, isPc, pending, if_true,
          Option.some.injEq] at step
        subst step
        simp [Upload.runs, isPc, pending, fwUploadUpdateProgress, Upload.emit]
      · simp [workerStep, isPc, pending] at step
    all_goals
      simp only [workerStep, isPc, Option.some.injEq] at step
      subst step
      simp [Upload.runs, isPc, Upload.emit, Nat.add_comm]

theorem workerStep_at_rest {upload : Upload} (atRest : upload.AtRest)
    (answer : OpAnswer) : workerStep answer upload = none := by
  simp [workerStep, atRest.1, atRest.2]

/-- What a request does to the worker. -/
theorem ioctlWrite_runs (request : WriteRequest) (upload : Upload) :
    (fpgaImageLoadIoctlWrite request upload).2.pc = upload.pc ∧
      ((fpgaImageLoadIoctlWrite request upload).2.pending = true ∧
          (fpgaImageLoadIoctlWrite request upload).1 = none ∨
        (fpgaImageLoadIoctlWrite request upload).2.pending =
            upload.pending ∧
          (fpgaImageLoadIoctlWrite request upload).1 ≠ none) := by
  by_cases passes : request.PassesChecks
  · rcases fpgaImageLoadIoctlWrite_of_passes passes upload
      with ⟨ret, -, effect⟩ | ⟨finished, -, succeeds, accepts⟩
    · rw [effect]
      exact ⟨rfl, Or.inr ⟨rfl, by simp⟩⟩
    · exact ⟨accepts.pc, Or.inl ⟨accepts.pending, succeeds⟩⟩
  · obtain ⟨refused, same⟩ :=
      fpgaImageLoadIoctlWrite_of_not_passes passes upload
    rw [same]
    exact ⟨rfl, Or.inr ⟨rfl, refused⟩⟩

theorem Balanced.ioctlWrite {upload : Upload} (balanced : Balanced upload)
    {request : WriteRequest}
    (whenIdle : WritesWhenIdle upload (.write request)) :
    Balanced (fpgaImageLoadIoctlWrite request upload).2 := by
  by_cases passes : request.PassesChecks
  swap
  · rw [(fpgaImageLoadIoctlWrite_of_not_passes passes upload).2]
    exact balanced
  rcases fpgaImageLoadIoctlWrite_of_passes passes upload
    with ⟨ret, isError, effect⟩ | ⟨finished, isOk, -, accepts⟩
  · rw [effect]
    exact ⟨balanced.progress, balanced.pending, balanced.parentRefs⟩
  rcases whenIdle passes with idle | ⟨-, ret, isError⟩
  swap
  · rw [isOk] at isError
    cases isError
  obtain ⟨spare, notPending⟩ := balanced.progress.mp idle
  have refs := balanced.parentRefs
  have taken : (fpgaImageLoadIoctlWrite request upload).2.parentRefs =
      upload.parentRefs + 1 := by
    have notNegative : ¬ request.evtfd < 0 := Int.not_lt.mpr passes.evtfd
    simp [fpgaImageLoadIoctlWrite, passes.copyRequest, passes.flags,
      passes.size, notNegative, passes.vzalloc, passes.copyBuffer, isOk]
  refine ⟨⟨fun again => ?_, fun atRest => ?_⟩, fun busy => ?_, ?_⟩
  · rw [accepts.progress] at again
    cases again
  · exact absurd (accepts.pending.symm.trans atRest.2) (by decide)
  · rw [accepts.pc] at busy
    exact absurd busy spare
  · rw [taken, refs, accepts.pc, accepts.pending, notPending]
    rfl

theorem Balanced.emit_cancel {upload : Upload} (balanced : Balanced upload) :
    Balanced (upload.emit .cancel) :=
  ⟨balanced.progress, balanced.pending, balanced.parentRefs⟩

/-- A cancellation changes nothing but what the driver was asked. -/
theorem ioctlCancel_cases (upload : Upload) :
    (fpgaImageLoadIoctlCancel upload).2 = upload ∨
      (fpgaImageLoadIoctlCancel upload).2 = upload.emit .cancel := by
  unfold fpgaImageLoadIoctlCancel
  by_cases idle : upload.fwlp.progress = .idle
  · exact Or.inl (by rw [if_pos idle])
  · exact Or.inr (by rw [if_neg idle])

/-! ## Waiting -/

/-- What a step of a wait does. -/
theorem waitStep_cases {upload after : Upload} {ended : Nat}
    {pc next : WaitPc}
    (step : waitStep upload ended pc = some (after, next)) :
    (pc = .check ∧ upload.fwlp.progress = .idle ∧ after = upload ∧
        next = .passed) ∨
      (pc = .check ∧ after = upload.emit .cancel ∧ next = .cancelled) ∨
      (pc = .cancelled ∧ after = upload ∧
        next = .flush (ended + upload.runs)) ∨
      (∃ runs, pc = .flush runs ∧ runs ≤ ended ∧ after = upload ∧
        next = .passed) := by
  cases pc with
  | check =>
      by_cases idle : upload.fwlp.progress = .idle
      · simp only [waitStep, idle, if_true, Option.some.injEq,
          Prod.mk.injEq] at step
        exact Or.inl ⟨rfl, idle, step.1.symm, step.2.symm⟩
      · simp only [waitStep, idle, if_false, Option.some.injEq,
          Prod.mk.injEq] at step
        exact Or.inr (Or.inl ⟨rfl, step.1.symm, step.2.symm⟩)
  | cancelled =>
      simp only [waitStep, Option.some.injEq, Prod.mk.injEq] at step
      exact Or.inr (Or.inr (Or.inl ⟨rfl, step.1.symm, step.2.symm⟩))
  | flush runs =>
      simp only [waitStep] at step
      split_ifs at step with done
      cases step
      exact Or.inr (Or.inr (Or.inr ⟨runs, rfl, done, rfl, rfl⟩))
  | passed => cases step

/-! ## References -/

theorem counted_registeredDevice (hasCleanup : Bool) :
    Counted (registeredDevice hasCleanup) := ⟨rfl, rfl, rfl, rfl⟩

/-- The last but one reference to the device is dropped, or the last. -/
theorem counted_putDevice {imgld : FpgaImageLoad}
    (opened : imgld.opened = imgld.file.isSome)
    (cdevRefs : imgld.cdevRefs = imgld.cdevHolders)
    (devRefs : imgld.devRefs = imgld.devHolders + 1)
    (frees : imgld.frees = 0) : Counted (putDevice imgld) := by
  refine ⟨opened, cdevRefs, ?_, ?_⟩
  · simp only [putDevice, devRefs, Nat.add_sub_cancel]
    rfl
  · simp only [putDevice, devRefs, frees, Nat.add_sub_cancel, Nat.zero_add]
    congr 1
    exact propext (by omega)

/-- A holder of the cdev is gone, and drops its reference. -/
theorem counted_cdevPut {imgld : FpgaImageLoad}
    (opened : imgld.opened = imgld.file.isSome)
    (cdevRefs : imgld.cdevRefs = imgld.cdevHolders + 1)
    (devRefs : imgld.devRefs = 1 + imgld.driver.hasDevice.toNat)
    (frees : imgld.frees = 0) : Counted (cdevPut imgld) := by
  have put : imgld.cdevRefs - 1 = imgld.cdevHolders := by omega
  unfold cdevPut
  by_cases last : imgld.cdevRefs = 1
  · simp only [last, if_true]
    refine counted_putDevice opened ?_ ?_ frees
    · rw [last] at put
      exact put
    · simp [FpgaImageLoad.devHolders, devRefs, Nat.add_comm]
  · simp only [last, if_false]
    refine ⟨opened, put, ?_, ?_⟩
    · have more : imgld.cdevRefs - 1 ≠ 0 := by omega
      simpa [FpgaImageLoad.devHolders, more] using devRefs
    · have held : imgld.devRefs ≠ 0 := by omega
      simpa [held] using frees

/-- While someone holds the cdev, the device is not freed. -/
theorem Counted.held {imgld : FpgaImageLoad} (counted : Counted imgld)
    (holds : imgld.cdevHolders ≠ 0) :
    imgld.devRefs = 1 + imgld.driver.hasDevice.toNat ∧ imgld.frees = 0 := by
  have devRefs := counted.devRefs
  rw [FpgaImageLoad.devHolders, counted.cdevRefs, if_neg holds] at devRefs
  refine ⟨devRefs, ?_⟩
  have held : imgld.devRefs ≠ 0 := by omega
  rw [counted.frees, if_neg held]

theorem Counted.step {imgld next : FpgaImageLoad} {action : LifeAction}
    (counted : Counted imgld) (step : imgld.Step action next) :
    Counted next := by
  have cdevRefs := counted.cdevRefs
  unfold FpgaImageLoad.cdevHolders at cdevRefs
  cases action with
  | lookup =>
      simp only [FpgaImageLoad.Step, FpgaImageLoad.perform] at step
      split_ifs at step with added
      cases step
      have held := counted.held (by
        simp [FpgaImageLoad.cdevHolders, added])
      refine ⟨counted.opened, ?_, ?_, counted.frees⟩
      · simp only [FpgaImageLoad.cdevHolders]
        omega
      · simpa [FpgaImageLoad.devHolders] using held.1
  | openFile =>
      simp only [FpgaImageLoad.Step, FpgaImageLoad.perform] at step
      split_ifs at step with nobody
      have opened := counted.opened
      have held := counted.held (by
        simp only [FpgaImageLoad.cdevHolders]
        omega)
      have isHeld : imgld.cdevRefs ≠ 0 := by omega
      cases busy : imgld.opened with
      | true =>
          simp only [fpgaImageLoadOpen, busy, if_true] at step
          cases step
          refine ⟨busy.symm.trans counted.opened, ?_, counted.devRefs,
            counted.frees⟩
          simp only [FpgaImageLoad.cdevHolders]
          omega
      | false =>
          simp only [fpgaImageLoadOpen, busy, Bool.false_eq_true,
            if_false] at step
          cases step
          rw [busy] at opened
          rw [← opened, Bool.toNat_false] at cdevRefs
          refine ⟨rfl, ?_, ?_, counted.frees⟩
          · simp only [FpgaImageLoad.cdevHolders, Option.isSome_some,
              Bool.toNat_true]
            omega
          · simpa [FpgaImageLoad.devHolders, isHeld] using held.1
  | write request =>
      simp only [FpgaImageLoad.Step, FpgaImageLoad.perform] at step
      split_ifs at step
      cases step
      exact ⟨counted.opened, counted.cdevRefs, counted.devRefs,
        counted.frees⟩
  | cancel =>
      simp only [FpgaImageLoad.Step, FpgaImageLoad.perform] at step
      split_ifs at step
      cases step
      exact ⟨counted.opened, counted.cdevRefs, counted.devRefs,
        counted.frees⟩
  | worker answer =>
      simp only [FpgaImageLoad.Step, FpgaImageLoad.perform,
        Option.map_eq_some_iff] at step
      obtain ⟨upload, -, rfl⟩ := step
      exact ⟨counted.opened, counted.cdevRefs, counted.devRefs,
        counted.frees⟩
  | release =>
      simp only [FpgaImageLoad.Step, FpgaImageLoad.perform] at step
      cases isFile : imgld.file with
      | none =>
          rw [isFile] at step
          cases step
      | some pc =>
          rw [isFile] at cdevRefs step
          have opened := counted.opened
          rw [isFile] at opened
          have held := counted.held (by
            simp [FpgaImageLoad.cdevHolders, isFile])
          have isHeld : imgld.cdevRefs ≠ 0 := by
            simp only [Option.isSome_some, Bool.toNat_true] at cdevRefs
            omega
          simp only [Option.isSome_some, Bool.toNat_true] at cdevRefs
          split at step
          · cases step
          · cases step
            refine ⟨rfl, ?_, ?_, counted.frees⟩
            · simp only [FpgaImageLoad.cdevHolders, Option.isSome_none,
                Bool.toNat_false]
              omega
            · simpa [FpgaImageLoad.devHolders, isHeld] using held.1
          · simp only [Option.map_eq_some_iff] at step
            obtain ⟨⟨upload, after⟩, -, rfl⟩ := step
            refine ⟨opened, ?_, ?_, counted.frees⟩
            · simp only [FpgaImageLoad.cdevHolders, Option.isSome_some,
                Bool.toNat_true]
              omega
            · simpa [FpgaImageLoad.devHolders, isHeld] using held.1
  | put =>
      simp only [FpgaImageLoad.Step, FpgaImageLoad.perform] at step
      split_ifs at step with nobody
      cases step
      obtain ⟨devRefs, frees⟩ := counted.held (by
        simp only [FpgaImageLoad.cdevHolders]
        omega)
      refine counted_cdevPut counted.opened ?_ devRefs frees
      simp only [FpgaImageLoad.cdevHolders]
      omega
  | unregister =>
      simp only [FpgaImageLoad.Step, FpgaImageLoad.perform] at step
      split at step
      case h_1 isDriver =>
          cases step
          obtain ⟨devRefs, frees⟩ := counted.held (by
            simp [FpgaImageLoad.cdevHolders, isDriver,
              DriverPc.cdevAdded])
          rw [isDriver] at devRefs cdevRefs
          refine counted_cdevPut counted.opened ?_ devRefs frees
          simp only [FpgaImageLoad.cdevHolders]
          exact cdevRefs
      case h_2 pc notPassed isDriver =>
          simp only [Option.map_eq_some_iff] at step
          obtain ⟨⟨upload, after⟩, -, rfl⟩ := step
          have devRefs := counted.devRefs
          rw [FpgaImageLoad.devHolders, isDriver] at devRefs
          rw [isDriver] at cdevRefs
          exact ⟨counted.opened, cdevRefs, devRefs, counted.frees⟩
      case h_3 isDriver =>
          cases step
          have devRefs := counted.devRefs
          have frees := counted.frees
          rw [FpgaImageLoad.devHolders, isDriver] at devRefs
          rw [isDriver] at cdevRefs
          have held : imgld.devRefs ≠ 0 := by
            simp only [DriverPc.hasDevice, Bool.toNat_true] at devRefs
            omega
          rw [if_neg held] at frees
          exact counted_putDevice counted.opened cdevRefs devRefs frees
      case h_4 isDriver =>
          cases step
          have devRefs := counted.devRefs
          rw [FpgaImageLoad.devHolders, isDriver] at devRefs
          rw [isDriver] at cdevRefs
          exact ⟨counted.opened, cdevRefs, devRefs, counted.frees⟩
      case h_5 isDriver => cases step

/-! ## Uploads and waits -/

theorem balanced_registered (hasCleanup : Bool) :
    Balanced (registered hasCleanup) where
  progress := ⟨fun _ => ⟨fun busy => busy.1 rfl, rfl⟩, fun _ => rfl⟩
  pending _ := rfl
  parentRefs := rfl

@[simp]
theorem putDevice_upload (imgld : FpgaImageLoad) :
    (putDevice imgld).upload = imgld.upload := rfl

@[simp]
theorem putDevice_file (imgld : FpgaImageLoad) :
    (putDevice imgld).file = imgld.file := rfl

@[simp]
theorem putDevice_driver (imgld : FpgaImageLoad) :
    (putDevice imgld).driver = imgld.driver := rfl

@[simp]
theorem putDevice_ended (imgld : FpgaImageLoad) :
    (putDevice imgld).ended = imgld.ended := rfl

@[simp]
theorem cdevPut_upload (imgld : FpgaImageLoad) :
    (cdevPut imgld).upload = imgld.upload := by
  unfold cdevPut
  split_ifs <;> rfl

@[simp]
theorem cdevPut_file (imgld : FpgaImageLoad) :
    (cdevPut imgld).file = imgld.file := by
  unfold cdevPut
  split_ifs <;> rfl

@[simp]
theorem cdevPut_driver (imgld : FpgaImageLoad) :
    (cdevPut imgld).driver = imgld.driver := by
  unfold cdevPut
  split_ifs <;> rfl

@[simp]
theorem cdevPut_ended (imgld : FpgaImageLoad) :
    (cdevPut imgld).ended = imgld.ended := by
  unfold cdevPut
  split_ifs <;> rfl

/-- What an action does to the worker, the file and the driver. -/
inductive Parties.Moves (parties : Parties) : LifeAction → Parties → Prop
  | lookup : parties.Moves .lookup parties
  | refused : parties.Moves .openFile parties
  | openFile (file : parties.file = none) :
      parties.Moves .openFile { parties with file := some .check }
  | write (request : WriteRequest) (file : parties.file = some .check) :
      parties.Moves (.write request) { parties with
        upload := (fpgaImageLoadIoctlWrite request parties.upload).2 }
  | cancel (file : parties.file = some .check) :
      parties.Moves .cancel { parties with
        upload := (fpgaImageLoadIoctlCancel parties.upload).2 }
  | worker (answer : OpAnswer) {upload : Upload}
      (step : workerStep answer parties.upload = some upload) :
      parties.Moves (.worker answer) { parties with
        upload := upload
        ended := parties.ended +
          if parties.upload.pc = .clearFinished then 1 else 0 }
  | released (file : parties.file = some .passed) :
      parties.Moves .release { parties with file := none }
  | release {pc next : WaitPc} {upload : Upload}
      (file : parties.file = some pc)
      (step : waitStep parties.upload parties.ended pc =
        some (upload, next)) :
      parties.Moves .release { parties with
        upload := upload, file := some next }
  | put : parties.Moves .put parties
  | unregister {pc next : WaitPc} {upload : Upload}
      (driver : parties.driver = .wait pc)
      (step : waitStep parties.upload parties.ended pc =
        some (upload, next)) :
      parties.Moves .unregister { parties with
        upload := upload, driver := .wait next }
  | leaves {driver : DriverPc} (waited : parties.driver.waited)
      (next : driver.waited) :
      parties.Moves .unregister { parties with driver := driver }

theorem waited_of_eq {driver other : DriverPc} (same : driver = other)
    (waited : other.waited) : driver.waited := same ▸ waited

theorem FpgaImageLoad.Step.moves {imgld next : FpgaImageLoad}
    {action : LifeAction} (step : imgld.Step action next)
    (opened : imgld.opened = imgld.file.isSome) :
    imgld.parties.Moves action next.parties := by
  cases action with
  | lookup =>
      simp only [FpgaImageLoad.Step, FpgaImageLoad.perform] at step
      split_ifs at step
      cases step
      exact .lookup
  | openFile =>
      simp only [FpgaImageLoad.Step, FpgaImageLoad.perform] at step
      split_ifs at step
      cases busy : imgld.opened with
      | true =>
          simp only [fpgaImageLoadOpen, busy, if_true] at step
          cases step
          exact .refused
      | false =>
          simp only [fpgaImageLoadOpen, busy, Bool.false_eq_true,
            if_false] at step
          cases step
          rw [busy] at opened
          exact .openFile (Option.isSome_eq_false_iff.mp opened.symm
            |> Option.isNone_iff_eq_none.mp)
  | write request =>
      simp only [FpgaImageLoad.Step, FpgaImageLoad.perform] at step
      split_ifs at step with isFile
      cases step
      exact .write request isFile
  | cancel =>
      simp only [FpgaImageLoad.Step, FpgaImageLoad.perform] at step
      split_ifs at step with isFile
      cases step
      exact .cancel isFile
  | worker answer =>
      simp only [FpgaImageLoad.Step, FpgaImageLoad.perform,
        Option.map_eq_some_iff] at step
      obtain ⟨upload, step, rfl⟩ := step
      exact .worker answer step
  | release =>
      simp only [FpgaImageLoad.Step, FpgaImageLoad.perform] at step
      split at step
      case h_1 => cases step
      case h_2 isFile =>
          cases step
          exact .released isFile
      case h_3 pc notPassed isFile =>
          simp only [Option.map_eq_some_iff] at step
          obtain ⟨⟨upload, after⟩, step, rfl⟩ := step
          exact .release isFile step
  | put =>
      simp only [FpgaImageLoad.Step, FpgaImageLoad.perform] at step
      split_ifs at step
      cases step
      simp only [FpgaImageLoad.parties, cdevPut_upload, cdevPut_ended,
        cdevPut_file, cdevPut_driver]
      exact .put
  | unregister =>
      simp only [FpgaImageLoad.Step, FpgaImageLoad.perform] at step
      split at step
      case h_1 isDriver =>
          cases step
          simp only [FpgaImageLoad.parties, cdevPut_upload, cdevPut_ended,
            cdevPut_file, cdevPut_driver]
          exact .leaves (waited_of_eq isDriver rfl) trivial
      case h_2 pc notPassed isDriver =>
          simp only [Option.map_eq_some_iff] at step
          obtain ⟨⟨upload, after⟩, step, rfl⟩ := step
          exact .unregister isDriver step
      case h_3 isDriver =>
          cases step
          exact .leaves (waited_of_eq isDriver trivial) trivial
      case h_4 isDriver =>
          cases step
          exact .leaves (waited_of_eq isDriver trivial) trivial
      case h_5 isDriver => cases step

/-- What is known of the waits as long as they wait the worker out. -/
structure Waiting (parties : Parties) : Prop where
  balanced : Balanced parties.upload
  settled : Settled parties
  /-- No upload is requested while a file is released. -/
  flush : ∀ runs, parties.file = some (.flush runs) →
    runs = parties.ended + parties.upload.runs

theorem waiting_registeredDevice (hasCleanup : Bool) :
    Waiting (registeredDevice hasCleanup).parties where
  balanced := balanced_registered hasCleanup
  settled := ⟨fun _ => ⟨rfl, rfl⟩, fun _ => ⟨rfl, rfl⟩⟩
  flush _ flushing := by cases flushing

theorem Waiting.worker {parties : Parties} (waiting : Waiting parties)
    {answer : OpAnswer} {upload : Upload}
    (step : workerStep answer parties.upload = some upload) :
    Waiting { parties with
      upload := upload
      ended := parties.ended +
        if parties.upload.pc = .clearFinished then 1 else 0 } := by
  have runs := workerStep_runs step
  have moving : ¬ parties.upload.AtRest := fun atRest => by
    rw [workerStep_at_rest atRest] at step
    cases step
  refine ⟨waiting.balanced.workerStep step,
    ⟨fun closed => absurd (waiting.settled.file closed) moving,
      fun waited => absurd (waiting.settled.driver waited) moving⟩, ?_⟩
  intro target flushing
  rw [waiting.flush target flushing, ← runs]
  simp only
  omega

/-- A request which is not accepted leaves the worker where it is. -/
theorem ioctlWrite_at_rest {request : WriteRequest} {upload : Upload}
    (atRest : upload.AtRest)
    (refused : (fpgaImageLoadIoctlWrite request upload).1 ≠ none) :
    (fpgaImageLoadIoctlWrite request upload).2.AtRest := by
  obtain ⟨pc, ⟨-, accepted⟩ | ⟨pending, -⟩⟩ :=
    ioctlWrite_runs request upload
  · exact absurd accepted refused
  · exact ⟨pc.trans atRest.1, pending.trans atRest.2⟩

theorem Waiting.step {parties next : Parties} {action : LifeAction}
    (waiting : Waiting parties) (whenIdle : UploadsWhenIdle parties action)
    (meets : WaitsOut parties action) (moves : parties.Moves action next) :
    Waiting next := by
  have settled := waiting.settled
  cases moves with
  | lookup => exact waiting
  | refused => exact waiting
  | put => exact waiting
  | openFile isFile =>
      refine ⟨waiting.balanced, ⟨fun closed => ?_, settled.driver⟩,
        fun _ flushing => by cases flushing⟩
      rcases closed with closed | closed <;> cases closed
  | write request isFile =>
      refine ⟨waiting.balanced.ioctlWrite whenIdle,
        ⟨fun closed => ?_, fun waited => ?_⟩, fun runs flushing => ?_⟩
      · rw [isFile] at closed
        rcases closed with closed | closed <;> cases closed
      · exact ioctlWrite_at_rest (settled.driver waited) (meets waited)
      · exact absurd (isFile.symm.trans flushing) (by simp)
  | cancel isFile =>
      refine ⟨?_, ⟨fun closed => ?_, fun waited => ?_⟩,
        fun runs flushing => absurd (isFile.symm.trans flushing) (by simp)⟩
      · rcases ioctlCancel_cases parties.upload with same | same
        · rw [same]
          exact waiting.balanced
        · rw [same]
          exact waiting.balanced.emit_cancel
      · rw [isFile] at closed
        rcases closed with closed | closed <;> cases closed
      · rcases ioctlCancel_cases parties.upload with same | same
        · rw [same]
          exact settled.driver waited
        · rw [same]
          exact settled.driver waited
  | worker answer step => exact waiting.worker step
  | released isFile =>
      exact ⟨waiting.balanced,
        ⟨fun _ => settled.file (Or.inr isFile), settled.driver⟩,
        fun _ flushing => by cases flushing⟩
  | release isFile step =>
      rcases waitStep_cases step with ⟨isPc, idle, rfl, rfl⟩ |
        ⟨isPc, rfl, rfl⟩ | ⟨isPc, rfl, rfl⟩ | ⟨runs, isPc, done, rfl, rfl⟩
      · rw [isPc] at isFile
        exact ⟨waiting.balanced,
          ⟨fun _ => meets isFile idle, settled.driver⟩,
          fun _ flushing => by cases flushing⟩
      · refine ⟨waiting.balanced.emit_cancel,
          ⟨fun closed => ?_, settled.driver⟩,
          fun _ flushing => by cases flushing⟩
        rcases closed with closed | closed <;> cases closed
      · refine ⟨waiting.balanced, ⟨fun closed => ?_, settled.driver⟩, ?_⟩
        · rcases closed with closed | closed <;> cases closed
        · intro runs flushing
          cases flushing
          rfl
      · rw [isPc] at isFile
        have target := waiting.flush runs isFile
        have atRest : parties.upload.AtRest :=
          parties.upload.atRest_iff_runs.mpr (by omega)
        exact ⟨waiting.balanced, ⟨fun _ => atRest, settled.driver⟩,
          fun _ flushing => by cases flushing⟩
  | unregister isDriver step =>
      rw [WaitsOut, isDriver] at meets
      rcases waitStep_cases step with ⟨rfl, idle, rfl, rfl⟩ |
        ⟨rfl, rfl, rfl⟩ | ⟨rfl, rfl, rfl⟩ | ⟨runs, rfl, done, rfl, rfl⟩
      · exact ⟨waiting.balanced, ⟨settled.file, fun _ => meets idle⟩,
          waiting.flush⟩
      · exact ⟨waiting.balanced.emit_cancel,
          ⟨settled.file, fun waited => by cases waited⟩, waiting.flush⟩
      · exact ⟨waiting.balanced,
          ⟨settled.file, fun waited => by cases waited⟩, waiting.flush⟩
      · exact ⟨waiting.balanced, ⟨settled.file, fun _ => meets⟩,
          waiting.flush⟩
  | leaves waited after =>
      exact ⟨waiting.balanced,
        ⟨settled.file, fun _ => settled.driver waited⟩, waiting.flush⟩

/-- A step which is not waited out loses what is to hold. -/
theorem Waiting.lost {parties next : Parties} {action : LifeAction}
    (fails : ¬ WaitsOut parties action)
    (moves : parties.Moves action next) : ¬ Settled next := by
  intro settled
  cases moves with
  | lookup => exact fails trivial
  | refused => exact fails trivial
  | put => exact fails trivial
  | openFile isFile => exact fails trivial
  | cancel isFile => exact fails trivial
  | worker answer step => exact fails trivial
  | released isFile =>
      refine fails fun atCheck => ?_
      exact absurd (isFile.symm.trans atCheck) (by simp)
  | write request isFile =>
      refine fails fun waited accepted => ?_
      obtain ⟨-, ⟨pending, -⟩ | ⟨-, refused⟩⟩ :=
        ioctlWrite_runs request parties.upload
      · have atRest := (settled.driver waited).2
        exact absurd (pending.symm.trans atRest) (by decide)
      · exact refused accepted
  | release isFile step =>
      refine fails fun atCheck idle => ?_
      rcases waitStep_cases step with ⟨-, -, rfl, rfl⟩ |
        ⟨isPc, rfl, rfl⟩ | ⟨isPc, -, -⟩ | ⟨runs, isPc, -, -, -⟩
      · exact settled.file (Or.inr rfl)
      · rw [isPc, waitStep, if_pos idle] at step
        simp at step
      · rw [isFile, isPc] at atCheck
        cases atCheck
      · rw [isFile, isPc] at atCheck
        cases atCheck
  | unregister isDriver step =>
      refine fails ?_
      rw [WaitsOut, isDriver]
      rcases waitStep_cases step with ⟨rfl, -, rfl, rfl⟩ |
        ⟨rfl, rfl, rfl⟩ | ⟨rfl, -, -⟩ | ⟨runs, rfl, -, rfl, rfl⟩
      · exact fun _ => settled.driver rfl
      · intro idle
        rw [waitStep, if_pos idle] at step
        simp at step
      · trivial
      · exact settled.driver rfl
  | leaves waited after =>
      refine fails ?_
      rw [WaitsOut]
      cases isDriver : parties.driver with
      | wait pc =>
          rw [isDriver] at waited
          cases waited
          trivial
      | _ => trivial

/-- What is not freed too soon, under what is known. -/
theorem safe_of_waiting {imgld : FpgaImageLoad} (counted : Counted imgld)
    (waiting : Waiting imgld.parties) : Safe imgld := by
  refine ⟨fun freed => ?_, waiting.balanced.at_rest⟩
  have frees := counted.frees
  have devRefs := counted.devRefs
  have cdevRefs := counted.cdevRefs
  have dropped : imgld.devRefs = 0 := by
    by_contra held
    rw [if_neg held] at frees
    exact freed frees
  rw [dropped, FpgaImageLoad.devHolders] at devRefs
  have noDevice : imgld.driver.hasDevice = false := by
    cases holds : imgld.driver.hasDevice with
    | false => rfl
    | true =>
        rw [holds, Bool.toNat_true] at devRefs
        omega
  have noCdev : imgld.cdevRefs = 0 := by
    by_contra held
    rw [if_neg held] at devRefs
    omega
  rw [noCdev, FpgaImageLoad.cdevHolders] at cdevRefs
  have noFile : imgld.file = none := by
    cases isFile : imgld.file with
    | none => rfl
    | some pc =>
        rw [isFile, Option.isSome_some, Bool.toNat_true] at cdevRefs
        omega
  exact ⟨waiting.settled.file (Or.inl noFile), by omega, noFile, by omega,
    noDevice⟩

/-! ## Runs -/

instance (upload : Upload) : Decidable upload.AtRest :=
  inferInstanceAs (Decidable (_ ∧ _))

instance DriverPc.decideWaitsOut (upload : Upload) :
    ∀ driver : DriverPc, Decidable (driver.WaitsOut upload)
  | .wait .check => inferInstanceAs (Decidable (_ → _))
  | .wait (.flush _) => inferInstanceAs (Decidable upload.AtRest)
  | .wait .cancelled | .wait .passed | .deviceUnregister | .modulePut
  | .gone => isTrue trivial

instance (parties : Parties) : ∀ action, Decidable (WaitsOut parties action)
  | .write _ | .release => inferInstanceAs (Decidable (_ → _))
  | .unregister =>
      inferInstanceAs (Decidable (parties.driver.WaitsOut parties.upload))
  | .lookup | .openFile | .cancel | .worker _ | .put => isTrue trivial

instance WritesWhenIdle.decideWrite (upload : Upload)
    (request : WriteRequest) :
    Decidable (WritesWhenIdle upload (.write request)) :=
  decidable_of_iff
    (request.reachesEventfd = true → upload.fwlp.progress = .idle ∨
      (upload.fwlp.finished = none ∧ request.eventfd.isOk = false)) (by
    rw [request.reachesEventfd_iff, WritesWhenIdle]
    cases request.eventfd <;> simp [Except.isOk, Except.toBool])

instance (parties : Parties) :
    ∀ action, Decidable (UploadsWhenIdle parties action)
  | .write request =>
      WritesWhenIdle.decideWrite parties.upload request
  | .lookup | .openFile | .cancel | .worker _ | .release | .put
  | .unregister => isTrue trivial

/--
Whatever the order of opens, requests, closes, steps of the worker and the
removal of the driver: the references are counted and the device is freed
once.  The file and the driver wait for the end of the upload exactly when
none of their waits falls into the end of the worker's run, and no upload
begins behind them; then nothing which the worker uses is freed.
-/
theorem lifeCycle_settled_iff (hasCleanup : Bool)
    (path : List (LifeAction × FpgaImageLoad))
    (isPath : IsPath FpgaImageLoad.Step (registeredDevice hasCleanup) path)
    (whenIdle :
      StepsMeet (fun imgld => UploadsWhenIdle imgld.parties)
        (registeredDevice hasCleanup) path) :
    Throughout Counted (registeredDevice hasCleanup) path ∧
      (Throughout (fun imgld => Settled imgld.parties)
          (registeredDevice hasCleanup) path ↔
        StepsMeet (fun imgld => WaitsOut imgld.parties)
          (registeredDevice hasCleanup) path) ∧
      (StepsMeet (fun imgld => WaitsOut imgld.parties)
          (registeredDevice hasCleanup) path →
        Throughout Safe (registeredDevice hasCleanup) path) := by
  have guarded := isPath.guarded whenIdle
  have kept :
      ∀ source label target,
        (Counted source ∧ Waiting source.parties) →
          WaitsOut source.parties label →
          (UploadsWhenIdle source.parties label ∧
            source.Step label target) →
          Counted target ∧ Waiting target.parties := by
    rintro source label target ⟨counted, waiting⟩ meets ⟨idle, step⟩
    exact ⟨counted.step step,
      waiting.step idle meets (step.moves counted.opened)⟩
  refine ⟨?_, ?_, fun meets => ?_⟩
  · exact throughout_of_invariant
      (fun source label target counted step => counted.step step) isPath
      (counted_registeredDevice hasCleanup)
  · have settled : ∀ imgld : FpgaImageLoad,
        (Counted imgld ∧ Waiting imgld.parties) → Settled imgld.parties :=
      fun imgld strong => strong.2.settled
    refine throughout_iff_stepsMeet_of_strong settled kept ?_ guarded
      ⟨counted_registeredDevice hasCleanup,
        waiting_registeredDevice hasCleanup⟩
    rintro source label target ⟨counted, -⟩ fails ⟨-, step⟩
    exact Waiting.lost fails (step.moves counted.opened)
  · exact (throughout_of_stepsMeet kept guarded
      ⟨counted_registeredDevice hasCleanup,
        waiting_registeredDevice hasCleanup⟩ meets).mono
      fun imgld strong => safe_of_waiting strong.1 strong.2

/-- An upload is closed in the middle, and the driver is removed. -/
def closedUpload : List LifeAction :=
  [.lookup, .lookup, .openFile, .openFile, .put, .write oneByteRequest] ++
    List.replicate 3 (.worker ⟨.none, 1⟩) ++ [.release, .release] ++
    List.replicate 13 (.worker ⟨.none, 1⟩) ++
    [.release, .release, .unregister, .unregister, .put, .unregister,
      .unregister]

theorem closedUpload_settled :
    Throughout (fun imgld => Settled imgld.parties) (registeredDevice true)
      (pathOf (orSame FpgaImageLoad.perform) (registeredDevice true)
        closedUpload) :=
  (lifeCycle_settled_iff true _ (isPath_of_allTaken (by decide))
    (stepsMeet_of_enabledAlong (by decide))).2.1.mpr
    (stepsMeet_of_enabledAlong (by decide))

end LinuxDfl.ImageLoad

import LinuxDfl.Kernel.Errno
import LinuxDfl.Kernel.Word

/-!
# FPGA image load

The upload state which is shared between the ioctls of an image load device
and its worker.  Ioctls run under the lock; the worker takes the lock for
single updates, and each of its other accesses to the shared state is a step
of its own.  What the driver's operations answer is a parameter of a step.
-/

namespace LinuxDfl.ImageLoad

open LinuxDfl.Kernel

/-- `enum fw_upload_prog` -/
inductive FwUploadProg where
  | idle
  | receiving
  | preparing
  | transferring
  | programming
  deriving DecidableEq, Repr

/-- `enum fw_upload_err` -/
inductive FwUploadErr where
  | none
  | hwError
  | timeout
  | canceled
  | busy
  | invalidSize
  | rwError
  | wearout
  deriving DecidableEq, Repr

/-- A buffer from `vzalloc`, by the number of its allocation. -/
abbrev Buffer := Nat

/-- An eventfd context. -/
abbrev EventfdCtx := Nat

/-- `struct fw_upload_priv` -/
structure FwUploadPriv where
  data : Option Buffer
  remainingSize : Nat
  progress : FwUploadProg
  errProgress : FwUploadProg
  errCode : FwUploadErr
  finished : Option EventfdCtx
  deriving DecidableEq, Repr

/-- The buffer and the size of a request which was accepted. -/
structure Accepted where
  buf : Buffer
  size : Nat
  size_lt : size < 2 ^ 32
  deriving DecidableEq, Repr

/-- What has happened to the buffers, the driver and the eventfd contexts. -/
inductive Event where
  | accepted (request : Accepted)
  /-- The worker begins to run. -/
  | started
  | prepare (data : Option Buffer) (size : Nat)
  | write (data : Option Buffer) (offset size : Nat)
  | pollComplete
  | cancel
  | cleanup
  | vfree (data : Option Buffer)
  | eventfdSignal (finished : Option EventfdCtx)
  | eventfdCtxPut (finished : Option EventfdCtx)
  deriving DecidableEq, Repr

/-- Where the worker is in `fw_upload_main`. -/
inductive WorkerPc where
  /-- The worker is not running. -/
  | idle
  | prepare
  /-- In front of `fw_upload_set_error`; the device may have been prepared. -/
  | setError (ret : FwUploadErr) (prepared : Bool)
  | startTransfer
  /-- At the head of the transfer loop. -/
  | loop (offset : Nat)
  | write (offset : Nat)
  /-- The driver has reported what it has written. -/
  | advance (offset written : Nat)
  | startProgram
  | pollComplete
  | cleanup
  | putDevice
  | vfree
  | clearData
  | complete
  | eventfdPut
  | clearFinished
  deriving DecidableEq, Repr

/-- The shared state, the worker, and what has happened so far. -/
structure Upload where
  fwlp : FwUploadPriv
  /-- The driver has a `cleanup` operation. -/
  hasCleanup : Bool
  /-- The work is queued. -/
  pending : Bool
  pc : WorkerPc
  /-- References to the parent device which uploads hold. -/
  parentRefs : Int
  /-- The contents of the buffers of accepted requests. -/
  bufs : List (List (BitVec 8))
  history : List Event
  deriving DecidableEq, Repr

/-- The event happens. -/
def Upload.emit (upload : Upload) (event : Event) : Upload :=
  { upload with history := upload.history ++ [event] }

/-! ## The ioctls -/

/-- `struct fpga_image_write`, and what the request meets at each step. -/
structure WriteRequest where
  /-- The request can be copied from the user. -/
  copyRequest : Bool
  flags : Nat
  size : Nat
  size_lt : size < 2 ^ 32
  evtfd : Int
  vzalloc : Bool
  /-- The image can be copied from the user. -/
  copyBuffer : Bool
  image : Nat → BitVec 8
  /-- `eventfd_ctx_fdget` -/
  eventfd : Except Errno EventfdCtx

/--
`fpga_image_load_ioctl_write`.  The buffer of a request which fails is freed
before the ioctl returns, so it is not recorded.
-/
def fpgaImageLoadIoctlWrite (request : WriteRequest) (upload : Upload) :
    Option Errno × Upload :=
  if !request.copyRequest then
    (some .efault, upload)
  else if request.flags ≠ 0 then
    (some .einval, upload)
  else if request.size = 0 then
    (some .einval, upload)
  else if request.evtfd < 0 then
    (some .einval, upload)
  else if !request.vzalloc then
    (some .enomem, upload)
  else if !request.copyBuffer then
    (some .efault, upload)
  else
    match request.eventfd with
    | .error ret =>
        (some ret,
          { upload with fwlp := { upload.fwlp with finished := none } })
    | .ok finished =>
        let buf := upload.bufs.length
        let fwlp := { upload.fwlp with
          finished := some finished
          progress := .receiving
          errCode := .none
          remainingSize := request.size
          data := some buf }
        let content := (List.range request.size).map request.image
        let accepted : Accepted := ⟨buf, request.size, request.size_lt⟩
        (none,
          { upload with
            fwlp := fwlp
            pending := true
            parentRefs := upload.parentRefs + 1
            bufs := upload.bufs ++ [content]
            history := upload.history ++ [.accepted accepted] })

/-- `fw_upload_prog_code`, with the `FPGA_IMAGE_PROG_` codes -/
def fwUploadProgCode : FwUploadProg → Nat
  | .idle => 0
  | .receiving => 1
  | .preparing => 2
  | .transferring => 3
  | .programming => 4

/-- `fw_upload_err_code`, with the `FPGA_IMAGE_ERR_` codes -/
def fwUploadErrCode : FwUploadErr → Nat
  | .none => 0
  | .hwError => 1
  | .timeout => 2
  | .canceled => 3
  | .busy => 4
  | .invalidSize => 5
  | .rwError => 6
  | .wearout => 7

/-- `struct fpga_image_status` -/
structure FpgaImageStatus where
  remainingSize : Nat
  progress : Nat
  errProgress : Nat
  errCode : Nat
  deriving DecidableEq, Repr

/-- `fpga_image_load_ioctl_status` -/
def fpgaImageLoadIoctlStatus (copyToUser : Bool) (upload : Upload) :
    Except Errno FpgaImageStatus :=
  let fwlp := upload.fwlp
  if !copyToUser then
    .error .efault
  else
    .ok
      { remainingSize := fwlp.remainingSize
        progress := fwUploadProgCode fwlp.progress
        errProgress := fwUploadProgCode fwlp.errProgress
        errCode := fwUploadErrCode fwlp.errCode }

/-- `fpga_image_load_ioctl_cancel` -/
def fpgaImageLoadIoctlCancel (upload : Upload) : Option Errno × Upload :=
  if upload.fwlp.progress = .idle then
    (some .enodev, upload)
  else
    (none, upload.emit .cancel)

/-! ## The worker -/

/-- What a driver operation answers; `written` is set by `write` only. -/
structure OpAnswer where
  ret : FwUploadErr
  written : Nat
  deriving DecidableEq, Repr

/-- `fw_upload_update_progress` -/
def fwUploadUpdateProgress (upload : Upload) (progress : FwUploadProg) :
    Upload :=
  { upload with fwlp := { upload.fwlp with progress := progress } }

/-- `fw_upload_set_error` -/
def fwUploadSetError (upload : Upload) (errCode : FwUploadErr) : Upload :=
  { upload with fwlp := { upload.fwlp with
    errProgress := upload.fwlp.progress, errCode := errCode } }

/-- `fw_upload_prog_complete` -/
def fwUploadProgComplete (upload : Upload) : Upload :=
  (fwUploadUpdateProgress upload .idle).emit
    (.eventfdSignal upload.fwlp.finished)

/--
One step of the worker through `fw_upload_main`.  The answer is that of the
driver operation which the step calls, if it calls one.
-/
def workerStep (answer : OpAnswer) (upload : Upload) : Option Upload :=
  let fwlp := upload.fwlp
  let go (next : Upload) (pc : WorkerPc) : Option Upload :=
    some { next with pc := pc }
  match upload.pc with
  | .idle =>
      if upload.pending then
        let begun := { upload with pending := false }.emit .started
        go (fwUploadUpdateProgress begun .preparing) .prepare
      else
        none
  | .prepare =>
      go (upload.emit (.prepare fwlp.data fwlp.remainingSize))
        (if answer.ret = .none then .startTransfer
          else .setError answer.ret false)
  | .setError ret prepared =>
      go (fwUploadSetError upload ret)
        (if prepared then .cleanup else .putDevice)
  | .startTransfer =>
      go (fwUploadUpdateProgress upload .transferring) (.loop 0)
  | .loop offset =>
      go upload (if fwlp.remainingSize ≠ 0 then .write offset
        else .startProgram)
  | .write offset =>
      go (upload.emit (.write fwlp.data offset fwlp.remainingSize))
        (if answer.ret ≠ .none then .setError answer.ret true
          else if answer.written = 0 then .setError .rwError true
          else .advance offset answer.written)
  | .advance offset written =>
      let remaining := Word.sub 32 fwlp.remainingSize written
      go { upload with fwlp := { fwlp with remainingSize := remaining } }
        (.loop (Word.add 32 offset written))
  | .startProgram =>
      go (fwUploadUpdateProgress upload .programming) .pollComplete
  | .pollComplete =>
      go (upload.emit .pollComplete)
        (if answer.ret = .none then .cleanup
          else .setError answer.ret true)
  | .cleanup =>
      go (if upload.hasCleanup then upload.emit .cleanup else upload)
        .putDevice
  | .putDevice =>
      go { upload with parentRefs := upload.parentRefs - 1 } .vfree
  | .vfree => go (upload.emit (.vfree fwlp.data)) .clearData
  | .clearData =>
      go { upload with fwlp := { fwlp with data := none } } .complete
  | .complete => go (fwUploadProgComplete upload) .eventfdPut
  | .eventfdPut =>
      go (upload.emit (.eventfdCtxPut fwlp.finished)) .clearFinished
  | .clearFinished =>
      go { upload with fwlp := { fwlp with finished := none } } .idle

/-! ## Interleavings -/

/-- An ioctl, or a step of the worker. -/
inductive Action where
  | write (request : WriteRequest)
  | status (copyToUser : Bool)
  | cancel
  | worker (answer : OpAnswer)

/-- The driver's `write` reports at most the size it has received. -/
def ReportsAtMost (upload : Upload) (answer : OpAnswer) : Prop :=
  ∀ offset, upload.pc = .write offset →
    answer.written ≤ upload.fwlp.remainingSize

/-- One action of any thread. -/
def Upload.Step (upload : Upload) : Action → Upload → Prop
  | .write request, next =>
      (fpgaImageLoadIoctlWrite request upload).2 = next
  | .status _, next => upload = next
  | .cancel, next => (fpgaImageLoadIoctlCancel upload).2 = next
  | .worker answer, next =>
      ReportsAtMost upload answer ∧ workerStep answer upload = some next

/-- `fpga_image_load_register` -/
def registered (hasCleanup : Bool) : Upload where
  fwlp := ⟨none, 0, .idle, .idle, .none, none⟩
  hasCleanup := hasCleanup
  pending := false
  pc := .idle
  parentRefs := 0
  bufs := []
  history := []

end LinuxDfl.ImageLoad

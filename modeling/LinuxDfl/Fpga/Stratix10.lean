import LinuxDfl.Kernel.Errno
import Mathlib.Data.List.FinRange
import Mathlib.Logic.Function.Basic

/-!
# Writing an image through the service layer

The Stratix10 manager copies an image into four buffers of the service layer
and sends them.  The service layer returns them in callbacks, which come at
any time.  One call of the `write` operation is taken apart at its accesses to
what it shares with the callbacks; so are the callbacks.
-/

namespace LinuxDfl.Fpga.Stratix10

open LinuxDfl.Kernel

/-! ## Private data -/

/-- `NUM_SVC_BUFS` -/
def numSvcBufs : Nat := 4

/-- `SVC_BUF_SIZE`, that is `SZ_512K` -/
def svcBufSize : Nat := 0x80000

/-- An address of memory which the service layer has allocated. -/
abbrev Addr : Type := Nat

/-- The bits of a status, up to that of `SVC_STATUS_ERROR`. -/
inductive SvcStatus where
  | ok
  | bufferSubmitted
  | bufferDone
  | completed
  | error
  /-- A bit which the driver never looks at. -/
  | other (bit : Nat)
  deriving DecidableEq, Repr

/-- `struct s10_svc_buf`; `buf` is `none` for `NULL`. -/
structure SvcBuf where
  buf : Option Addr
  lock : Bool
  deriving DecidableEq, Repr

/-- `struct s10_priv` -/
structure Priv where
  svcBufs : Fin numSvcBufs → SvcBuf
  /-- The bits which are set. -/
  status : List SvcStatus
  /-- How often `status_return_completion` is completed. -/
  completion : Nat

/-- `s10_free_buffer_count` -/
def s10FreeBufferCount (svcBufs : Fin numSvcBufs → SvcBuf) : Nat :=
  (List.finRange numSvcBufs).countP fun i => (svcBufs i).buf.isNone

/-! ## Preparing -/

/-- What `s10_ops_write_init` meets. -/
structure InitEnv where
  /-- The answer to `COMMAND_RECONFIG`. -/
  answer : Option Errno
  timedOut : Bool
  /-- The status when the wait is over, and what is not waited for. -/
  status : List SvcStatus
  completion : Nat
  /-- What `stratix10_svc_allocate_memory` returns. -/
  kbufs : Fin numSvcBufs → Option Addr

/-- `s10_free_buffers`, when no callback comes in between. -/
def s10FreeBuffers (svcBufs : Fin numSvcBufs → SvcBuf) :
    Fin numSvcBufs → SvcBuf := fun i =>
  if (svcBufs i).buf.isNone || (svcBufs i).lock then svcBufs i
  else { buf := none, lock := true }

/-- The loop which allocates, and whether it gets to the end. -/
def allocateBufs (kbufs : Fin numSvcBufs → Option Addr) :
    List (Fin numSvcBufs) → (Fin numSvcBufs → SvcBuf) →
      (Fin numSvcBufs → SvcBuf) × Bool
  | [], svcBufs => (svcBufs, true)
  | i :: left, svcBufs =>
      match kbufs i with
      | none => (svcBufs, false)
      | some kbuf =>
          allocateBufs kbufs left
            (Function.update svcBufs i { buf := some kbuf, lock := false })

/-- `s10_ops_write_init` -/
def s10OpsWriteInit (env : InitEnv) (priv : Priv) : Priv × Option Errno :=
  match env.answer with
  | some err => ({ priv with completion := 0 }, some err)
  | none =>
      let woken :=
        { priv with status := env.status, completion := env.completion }
      if env.timedOut then (woken, some .etimedout)
      else if SvcStatus.ok ∉ woken.status then (woken, some .etimedout)
      else
        let ready := { woken with status := woken.status.filter (· ≠ SvcStatus.ok) }
        match allocateBufs env.kbufs (List.finRange numSvcBufs)
            ready.svcBufs with
        | (svcBufs, true) => ({ ready with svcBufs := svcBufs }, none)
        | (svcBufs, false) =>
            ({ ready with svcBufs := s10FreeBuffers svcBufs }, some .enomem)

/-! ## Callbacks -/

/-- `struct stratix10_svc_cb_data` -/
structure CbData where
  status : List SvcStatus
  kaddr1 : Option Addr
  kaddr2 : Option Addr
  kaddr3 : Option Addr
  deriving DecidableEq, Repr

/-- One access of a callback. -/
inductive CallbackOp where
  | setBit (bit : SvcStatus)
  /-- `s10_unlock_bufs` -/
  | unlockBufs (kaddr : Option Addr)
  | complete
  deriving DecidableEq, Repr

/-- `s10_receive_callback` -/
def s10ReceiveCallback (data : CbData) : List CallbackOp :=
  data.status.map .setBit ++
    (if .bufferDone ∈ data.status then
      [.unlockBufs data.kaddr1, .unlockBufs data.kaddr2,
        .unlockBufs data.kaddr3]
    else []) ++
    [.complete]

/-- The buffers which come back with a callback. -/
def CbData.returns (data : CbData) : List Addr :=
  if .bufferDone ∈ data.status then
    [data.kaddr1, data.kaddr2, data.kaddr3].reduceOption
  else []

/-! ## What becomes of the buffers -/

/-- What is done with the memory of the service layer. -/
inductive Event where
  /-- `memcpy` into a buffer -/
  | filled (addr : Addr)
  /-- The service layer takes a message with a buffer. -/
  | submitted (addr : Addr) (payload : List UInt8)
  /-- The service layer returns a buffer. -/
  | returned (addr : Addr)
  /-- `stratix10_svc_free_memory` -/
  | freed (addr : Addr)
  deriving DecidableEq, Repr

/-- The service layer owns a buffer; the latest event comes first. -/
@[simp]
def owned (addr : Addr) : List Event → Bool
  | [] => false
  | .submitted given _ :: earlier => given == addr || owned addr earlier
  | .returned back :: earlier => back != addr && owned addr earlier
  | .filled _ :: earlier | .freed _ :: earlier => owned addr earlier

/-- What the service layer was sent, the latest event first. -/
def payloads : List Event → List UInt8
  | [] => []
  | .submitted _ payload :: earlier => payloads earlier ++ payload
  | .filled _ :: earlier | .returned _ :: earlier | .freed _ :: earlier =>
      payloads earlier

/-! ## Writing -/

/--
What `s10_ops_write` does next.  A loop over the buffers is given by those
which are left, and `last` tells the call of `s10_free_buffers` behind the
loop from that within.
-/
inductive Stage where
  /-- The condition of the loop. -/
  | head
  /-- `reinit_completion` -/
  | reinit
  /-- `test_and_set_bit_lock` in `s10_send_buf` -/
  | lock (left : List (Fin numSvcBufs))
  /-- `memcpy` -/
  | fill (i : Fin numSvcBufs)
  /-- `s10_svc_send_msg` of a buffer -/
  | send (i : Fin numSvcBufs) (svcBuf : Addr) (xferSz : Nat)
  /-- `clear_bit_unlock` when the message was refused -/
  | unlock (i : Fin numSvcBufs)
  /-- `test_and_set_bit_lock` in `s10_free_buffers` -/
  | free (last : Bool) (left : List (Fin numSvcBufs)) (numFree : Nat)
  /-- `stratix10_svc_free_memory` -/
  | freeMemory (last : Bool) (i : Fin numSvcBufs) (svcBuf : Addr)
      (left : List (Fin numSvcBufs)) (numFree : Nat)
  /-- `s10_svc_send_msg` of `COMMAND_RECONFIG_DATA_CLAIM` -/
  | claim
  /-- Whether there is a status yet. -/
  | readStatus
  /-- `wait_for_completion_timeout` -/
  | wait
  /-- `test_and_clear_bit`, for each status in turn -/
  | testDone (waitStatus : Bool)
  | testSubmitted (waitStatus : Bool)
  | testError (waitStatus : Bool)
  | returned
  /-- Bytes were copied to `NULL`. -/
  | faulted
  deriving DecidableEq, Repr

/-- A call of `s10_ops_write`, with all that it shares. -/
structure Transfer extends Priv where
  stage : Stage
  /-- `buf` and `count` -/
  data : List UInt8
  ret : Option Errno
  /-- What the manager goes on with when the call succeeds. -/
  fragments : List (List UInt8)
  /-- The number of calls before this one. -/
  call : Nat
  /-- What a callback has still to do. -/
  callback : List CallbackOp
  memory : Addr → List UInt8
  log : List Event

def Transfer.setLock (transfer : Transfer) (i : Fin numSvcBufs) (lock : Bool) :
    Transfer :=
  { transfer with
    svcBufs := Function.update transfer.svcBufs i
      { transfer.svcBufs i with lock := lock } }

def Transfer.clearBit (transfer : Transfer) (bit : SvcStatus) : Transfer :=
  { transfer with status := transfer.status.filter (· ≠ bit) }

/-- Bytes are copied to the start of a buffer. -/
def Transfer.memcpy (transfer : Transfer) (addr : Addr) (bytes : List UInt8) :
    Transfer :=
  { transfer with
    memory := Function.update transfer.memory addr
      (bytes ++ (transfer.memory addr).drop bytes.length)
    log := .filled addr :: transfer.log }

/-- The service layer takes the first bytes of a buffer. -/
def Transfer.submit (transfer : Transfer) (addr : Addr) (length : Nat) :
    Transfer :=
  { transfer with
    log := .submitted addr ((transfer.memory addr).take length) ::
      transfer.log }

/-- The call of `s10_free_buffers` behind the loop. -/
def Stage.atEnd : Stage :=
  .free true (List.finRange numSvcBufs) 0

/--
The next step of `s10_ops_write`, unless it is over; `answer` is that of
`stratix10_svc_send`.  A wait goes on only until it times out.
-/
def s10OpsWrite (answer : Option Errno) (transfer : Transfer) :
    Option Transfer :=
  match transfer.stage with
  | .head =>
      if transfer.data ≠ [] ∨
          s10FreeBufferCount transfer.svcBufs ≠ numSvcBufs then
        some { transfer with stage := .reinit }
      else some { transfer with stage := .atEnd }
  | .reinit =>
      if transfer.data ≠ [] then
        some { transfer with
          completion := 0, stage := .lock (List.finRange numSvcBufs) }
      else
        some { transfer with
          completion := 0, stage := .free false (List.finRange numSvcBufs) 0 }
  | .lock [] =>
      -- -ENOBUFS, and the loop goes round at once
      some { transfer with stage := .head }
  | .lock (i :: left) =>
      if (transfer.svcBufs i).lock then
        some { transfer with stage := .lock left }
      else some { transfer.setLock i true with stage := .fill i }
  | .fill i =>
      let xferSz :=
        if transfer.data.length < svcBufSize then transfer.data.length
        else svcBufSize
      match (transfer.svcBufs i).buf with
      | none => some { transfer with stage := .faulted }
      | some svcBuf =>
          some { transfer.memcpy svcBuf (transfer.data.take xferSz) with
            stage := .send i svcBuf xferSz }
  | .send i svcBuf xferSz =>
      match answer with
      | some _ => some { transfer with stage := .unlock i }
      | none =>
          some { transfer.submit svcBuf xferSz with
            data := transfer.data.drop xferSz, stage := .readStatus }
  | .unlock i => some { transfer.setLock i false with stage := .head }
  | .free last [] numFree =>
      if last then some { transfer with stage := .returned }
      else if numFree = numSvcBufs then
        some { transfer with ret := none, stage := .returned }
      else some { transfer with stage := .claim }
  | .free last (i :: left) numFree =>
      match (transfer.svcBufs i).buf with
      | none => some { transfer with stage := .free last left (numFree + 1) }
      | some svcBuf =>
          if (transfer.svcBufs i).lock then
            some { transfer with stage := .free last left numFree }
          else
            some { transfer.setLock i true with
              stage := .freeMemory last i svcBuf left numFree }
  | .freeMemory last i svcBuf left numFree =>
      some { transfer with
        svcBufs := Function.update transfer.svcBufs i
          { transfer.svcBufs i with buf := none }
        log := .freed svcBuf :: transfer.log
        stage := .free last left (numFree + 1) }
  | .claim =>
      match answer with
      | some err => some { transfer with ret := some err, stage := .atEnd }
      | none => some { transfer with ret := none, stage := .readStatus }
  | .readStatus =>
      if transfer.status = [] then some { transfer with stage := .wait }
      else some { transfer with stage := .testDone true }
  | .wait =>
      match transfer.completion with
      | 0 => some { transfer with stage := .testDone false }
      | completion + 1 =>
          some { transfer with
            completion := completion, stage := .testDone true }
  | .testDone waitStatus =>
      if .bufferDone ∈ transfer.status then
        some { transfer.clearBit .bufferDone with ret := none, stage := .head }
      else some { transfer with stage := .testSubmitted waitStatus }
  | .testSubmitted waitStatus =>
      if .bufferSubmitted ∈ transfer.status then
        some { transfer.clearBit .bufferSubmitted with
          ret := none, stage := .head }
      else some { transfer with stage := .testError waitStatus }
  | .testError waitStatus =>
      if .error ∈ transfer.status then
        some { transfer.clearBit .error with
          ret := some .efault, stage := .atEnd }
      else if waitStatus then some { transfer with stage := .head }
      else some { transfer with ret := some .etimedout, stage := .atEnd }
  | .returned | .faulted => none

/-! ## Steps -/

inductive Action where
  /-- The next step of `s10_ops_write`. -/
  | write (answer : Option Errno)
  /-- The service layer begins a callback. -/
  | receive (data : CbData)
  /-- The callback goes on. -/
  | callback
  /-- The manager goes on with the next fragment. -/
  | nextFragment
  deriving DecidableEq, Repr

/-- The next access of a callback. -/
def callbackOp (op : CallbackOp) (transfer : Transfer) : Transfer :=
  match op with
  | .setBit bit =>
      { transfer with status := transfer.status.insert bit }
  | .unlockBufs none => transfer
  | .unlockBufs (some kaddr) =>
      match (List.finRange numSvcBufs).find? fun i =>
          (transfer.svcBufs i).buf = some kaddr with
      | none => transfer
      | some i => transfer.setLock i false
  | .complete =>
      { transfer with completion := transfer.completion + 1 }

/--
The step of an action, if it can be taken.  Callbacks come one after the
other, and return only what the service layer owns.
-/
def perform (transfer : Transfer) : Action → Option Transfer
  | .write answer => s10OpsWrite answer transfer
  | .receive data =>
      if transfer.callback = [] ∧ data.returns.Nodup ∧
          ∀ addr ∈ data.returns, owned addr transfer.log = true then
        some { transfer with
          callback := s10ReceiveCallback data
          log := data.returns.map .returned ++ transfer.log }
      else none
  | .callback =>
      match transfer.callback with
      | [] => none
      | op :: ops => some { callbackOp op transfer with callback := ops }
  | .nextFragment =>
      match transfer.stage, transfer.ret, transfer.fragments with
      | .returned, none, fragment :: fragments =>
          some { transfer with
            stage := .head
            data := fragment
            fragments := fragments
            call := transfer.call + 1 }
      | _, _, _ => none

def Performs (transfer : Transfer) (action : Action) (next : Transfer) :
    Prop :=
  perform transfer action = some next

/-- The first call of `s10_ops_write` begins. -/
def startWrite (priv : Priv) (memory : Addr → List UInt8)
    (fragment : List UInt8) (fragments : List (List UInt8)) : Transfer :=
  { priv with
    stage := .head
    data := fragment
    ret := none
    fragments := fragments
    call := 0
    callback := []
    memory := memory
    log := [] }

end LinuxDfl.Fpga.Stratix10

import LinuxDfl.Bmc.Rsu
import LinuxDfl.ImageLoad.Completion

/-!
# The worker of a secure update

The image load worker, with the operations of the secure update driver taken
apart: each access to the state which the update shares with cancellations,
with readers of the flash, with other drivers and with the retimer is a step
of its own.  What the board management controller answers is a parameter of
a step.
-/

namespace LinuxDfl.Bmc

open LinuxDfl.Kernel
open LinuxDfl.ImageLoad
open LinuxDfl.Bmc.Rsu

/-! ## The board -/

/-- `struct intel_m10bmc_platform_info` and the operations of a board. -/
structure BoardInfo where
  /-- The board has `flash_bulk_ops`. -/
  flashBulkOps : Bool
  /-- `handshake_sys_reg_ranges`: the first and the last offset of each. -/
  handshakeSysRegRanges : List (Nat × Nat)
  base : Nat
  doorbell : Nat
  authResult : Nat
  /-- The register from which `rsu_status` takes the status. -/
  rsuStatus : Nat
  stagingSize : Nat
  /-- `image_load` offers `retimer_fw`. -/
  retimerFw : Bool
  deriving DecidableEq, Repr

/-- `m10bmc_spi_n3000`, with `m10sec_n3000_ops` -/
def m10bmcSpiN3000 : BoardInfo where
  flashBulkOps := false
  handshakeSysRegRanges := [(0x100, 0x250)]
  base := 0x300800
  doorbell := 0x400
  authResult := 0x404
  rsuStatus := 0x400
  stagingSize := 0x3800000
  retimerFw := true

/-- `m10bmc_spi_d5005`, with `m10sec_d5005_ops` -/
def m10bmcSpiD5005 : BoardInfo :=
  { m10bmcSpiN3000 with
    handshakeSysRegRanges := [(0x100, 0x300)]
    retimerFw := false }

/-- `m10bmc_spi_n5010`, with `m10sec_d5005_ops` -/
def m10bmcSpiN5010 : BoardInfo :=
  { m10bmcSpiN3000 with retimerFw := false }

/-- `m10bmc_spi_n5014`, with `m10sec_d5005_ops` -/
def m10bmcSpiN5014 : BoardInfo :=
  { m10bmcSpiN3000 with retimerFw := false }

/--
`m10bmc_pmci_n6000`, with `m10sec_n6000_ops`; `m10bmc_pmci_c6100` and
`m10bmc_pmci_cmc` do not differ from it here.
-/
def m10bmcPmciN6000 : BoardInfo where
  flashBulkOps := true
  handshakeSysRegRanges := []
  base := 0
  doorbell := 0x1c0
  authResult := 0x1c4
  rsuStatus := 0x1c4
  stagingSize := 0x3800000
  retimerFw := false

/-- The boards of the drivers. -/
def boards : List BoardInfo :=
  [m10bmcSpiN3000, m10bmcSpiD5005, m10bmcSpiN5010, m10bmcSpiN5014,
    m10bmcPmciN6000]

/-- `enum m10bmc_fw_state` -/
inductive M10bmcFwState where
  | normal
  | secUpdatePrepare
  | secUpdateWrite
  | secUpdateProgram
  | retimerEepromLoad
  deriving DecidableEq, Repr

/-- What the update shares with others. -/
structure M10bmc where
  /-- `cancel_request` of the update -/
  cancelRequest : Bool
  /-- `flash_busy` of the board -/
  flashBusy : Bool
  bmcfwState : M10bmcFwState
  deriving DecidableEq, Repr

/-- `m10bmc_fw_state_set` -/
def m10bmcFwStateSet (info : BoardInfo) (newState : M10bmcFwState)
    (m10bmc : M10bmc) : M10bmc :=
  if info.handshakeSysRegRanges = [] then m10bmc
  else { m10bmc with bmcfwState := newState }

/-- `regmap_reg_in_ranges` -/
def regmapRegInRanges (offset : Nat) (ranges : List (Nat × Nat)) : Bool :=
  ranges.any fun range => range.1 ≤ offset && offset ≤ range.2

/-- `m10bmc_reg_always_available` -/
def m10bmcRegAlwaysAvailable (info : BoardInfo) (offset : Nat) : Bool :=
  if info.handshakeSysRegRanges = [] then true
  else !regmapRegInRanges offset info.handshakeSysRegRanges

/-- `m10bmc_handshake_reg_unavailable` -/
def m10bmcHandshakeRegUnavailable (m10bmc : M10bmc) : Bool :=
  m10bmc.bmcfwState = .secUpdatePrepare ||
    m10bmc.bmcfwState = .secUpdateWrite ||
      m10bmc.bmcfwState = .retimerEepromLoad

/--
`m10bmc_sys_read` and `m10bmc_sys_update_bits`: the address which is
accessed, or the error.
-/
def m10bmcSysAccess (info : BoardInfo) (offset : Nat) (m10bmc : M10bmc) :
    Except Errno Nat :=
  if m10bmcRegAlwaysAvailable info offset then .ok (info.base + offset)
  else if m10bmcHandshakeRegUnavailable m10bmc then .error .ebusy
  else .ok (info.base + offset)

/-! ## The flash of PMCI boards -/

/-- What is done to the flash. -/
inductive FlashTouch where
  | setMux (request : Bool)
  | bulkRead
  | bulkWrite
  deriving DecidableEq, Repr

/-- What a read of the flash meets. -/
structure FlashReadAnswer where
  muxOn : Option Errno
  read : Option Errno
  muxOff : Option Errno
  deriving DecidableEq, Repr

/-- `m10bmc_pmci_flash_read`, which holds `flash_mutex` throughout -/
def m10bmcPmciFlashRead (answer : FlashReadAnswer) (m10bmc : M10bmc) :
    Option Errno × List FlashTouch :=
  if m10bmc.flashBusy then
    (some .ebusy, [])
  else
    match answer.muxOn with
    | some ret => (some ret, [.setMux true, .setMux false])
    | none =>
        (answer.read.or answer.muxOff,
          [.setMux true, .bulkRead, .setMux false])

/-- `m10bmc_pmci_flash_lock` -/
def m10bmcPmciFlashLock (m10bmc : M10bmc) : Option Errno × M10bmc :=
  if m10bmc.flashBusy then (some .ebusy, m10bmc)
  else (none, { m10bmc with flashBusy := true })

/-- `m10bmc_pmci_flash_unlock` -/
def m10bmcPmciFlashUnlock (m10bmc : M10bmc) : M10bmc :=
  { m10bmc with flashBusy := false }

/-! ## The operations of the driver -/

/-- Where the worker is in an operation of the driver. -/
inductive SecPc where
  /-- In front of an operation, or outside of them. -/
  | enter
  | prepLock
  | prepCheckIdle
  | prepSetPrepare
  | prepUpdateInit
  | prepReady
  | prepCheckCancel
  | prepCancel
  | prepSetWrite
  | prepSetNormal (ret : FwUploadErr)
  | prepUnlock (ret : FwUploadErr)
  /-- At the `rsu_cancel` of `write` or `poll_complete`. -/
  | cancel
  | writeDoorbell (size : Nat)
  | writeBlock (blkSize : Nat)
  | pollSetProgram
  | pollSendData
  | pollWait
  | cleanSetNormal
  | cleanUnlock
  deriving DecidableEq, Repr

/-- Where a thread is in `m10bmc_sec_retimer_eeprom_load`. -/
inductive RetimerPc where
  /-- The thread is not in it. -/
  | idle
  | checkIdle
  | trigger
  | pollLoad
  | pollPreload
  | setNormal
  deriving DecidableEq, Repr

/-- What the board answers to a step; a step uses what it asks for. -/
structure SecAnswer where
  doorbell : RegRead
  /-- `m10bmc_sys_update_bits` -/
  update : Option Errno
  statusPolls : Polls StatusRead
  polls : Polls RegRead
  /-- `rsu_status` -/
  status : RegRead
  /-- `m10bmc_sec_write` -/
  block : Option Errno

/-- An upload to the board, and what goes on around it. -/
structure SecUpload where
  upload : Upload
  m10bmc : M10bmc
  pc : SecPc
  /-- The threads which may write to `image_load`. -/
  retimers : Nat → RetimerPc

namespace SecUpload

variable (info : BoardInfo) (answer : SecAnswer) (state : SecUpload)

/-- The worker goes on inside the operation. -/
def go (pc : SecPc) : Option SecUpload := some { state with pc := pc }

/-- The worker changes what is shared, and goes on. -/
def set (m10bmc : M10bmc) (pc : SecPc) : Option SecUpload :=
  some { state with m10bmc := m10bmc, pc := pc }

/-- The operation returns to `fw_upload_main`. -/
def finish (ret : FwUploadErr) (written : Nat) : Option SecUpload :=
  (workerStep ⟨ret, written⟩ state.upload).map fun upload =>
    { state with upload := upload, pc := .enter }

/-- The operation changes what is shared, and returns. -/
def setFinish (m10bmc : M10bmc) (ret : FwUploadErr) : Option SecUpload :=
  { state with m10bmc := m10bmc }.finish ret 0

/-- The start of an operation, or a step of `fw_upload_main`. -/
def enterStep : Option SecUpload :=
  let fwlp := state.upload.fwlp
  match state.upload.pc with
  | .prepare =>
      let m10bmc := { state.m10bmc with cancelRequest := false }
      if fwlp.remainingSize = 0 ∨ info.stagingSize < fwlp.remainingSize then
        state.setFinish m10bmc .invalidSize
      else
        state.set m10bmc .prepLock
  | .write _ =>
      state.go (if state.m10bmc.cancelRequest then .cancel
        else .writeDoorbell fwlp.remainingSize)
  | .pollComplete =>
      state.go (if state.m10bmc.cancelRequest then .cancel
        else .pollSetProgram)
  -- the result of `rsu_cancel` is not used
  | .cleanup => state.go .cleanSetNormal
  | _ => state.finish .none 0

/-- `flash_bulk_ops->unlock_write`, on boards which have it -/
def unlockFlash : M10bmc :=
  if info.flashBulkOps then m10bmcPmciFlashUnlock state.m10bmc
  else state.m10bmc

/-- `flash_bulk_ops->lock_write`, on boards which have it -/
def lockFlash : Option Errno × M10bmc :=
  if info.flashBulkOps then m10bmcPmciFlashLock state.m10bmc
  else (none, state.m10bmc)

/--
One step of the worker: `m10bmc_sec_prepare`, `m10bmc_sec_fw_write`,
`m10bmc_sec_poll_complete` and `m10bmc_sec_cleanup` inside `fw_upload_main`.
-/
def secWorkerStep : Option SecUpload :=
  match state.pc with
  | .enter => state.enterStep info
  | .prepLock =>
      match state.lockFlash info with
      | (some _, _) => state.finish .busy 0
      | (none, m10bmc) => state.set m10bmc .prepCheckIdle
  | .prepCheckIdle =>
      let ret := rsuCheckIdle answer.doorbell
      state.go (if ret ≠ .none then .prepUnlock ret else .prepSetPrepare)
  | .prepSetPrepare =>
      state.set (m10bmcFwStateSet info .secUpdatePrepare state.m10bmc)
        .prepUpdateInit
  | .prepUpdateInit =>
      let ret := rsuUpdateInit answer.update answer.statusPolls
      state.go (if ret ≠ .none then .prepSetNormal ret else .prepReady)
  | .prepReady =>
      let ret := rsuProgReadyCheck answer.polls
      state.go (if ret ≠ .none then .prepSetNormal ret
        else .prepCheckCancel)
  | .prepCheckCancel =>
      state.go (if state.m10bmc.cancelRequest then .prepCancel
        else .prepSetWrite)
  | .prepCancel =>
      state.go (.prepSetNormal
        (rsuCancelRet answer.doorbell answer.update))
  | .prepSetWrite =>
      state.setFinish (m10bmcFwStateSet info .secUpdateWrite state.m10bmc)
        .none
  | .prepSetNormal ret =>
      state.set (m10bmcFwStateSet info .normal state.m10bmc)
        (.prepUnlock ret)
  | .prepUnlock ret => state.setFinish (state.unlockFlash info) ret
  | .cancel =>
      state.finish (rsuCancelRet answer.doorbell answer.update) 0
  | .writeDoorbell size =>
      match answer.doorbell with
      | .error _ => state.finish .rwError 0
      | .ok doorbell =>
          if rsuProg doorbell ≠ rsuProgReady then state.finish .hwError 0
          else state.go (.writeBlock (min writeBlockSize size))
  | .writeBlock blkSize =>
      match answer.block with
      | some _ => state.finish .rwError 0
      | none => state.finish .none blkSize
  | .pollSetProgram =>
      state.set (m10bmcFwStateSet info .secUpdateProgram state.m10bmc)
        .pollSendData
  | .pollSendData =>
      let ret := rsuSendData answer.update answer.polls answer.status
      if ret ≠ .none then state.finish ret 0 else state.go .pollWait
  | .pollWait =>
      let polls := answer.statusPolls
      state.finish
        (checkCompleteRet (checkCompleteLoop polls.first polls.rest)) 0
  | .cleanSetNormal =>
      state.set (m10bmcFwStateSet info .normal state.m10bmc) .cleanUnlock
  | .cleanUnlock => state.setFinish (state.unlockFlash info) .none

/-- A step of a thread in `m10bmc_sec_retimer_eeprom_load`. -/
def retimerStep (thread : Nat) : Option SecUpload :=
  let goTo (m10bmc : M10bmc) (pc : RetimerPc) : Option SecUpload :=
    some { state with
      m10bmc := m10bmc
      retimers := Function.update state.retimers thread pc }
  let next (ret : Option Errno) (pc : RetimerPc) : Option SecUpload :=
    goTo state.m10bmc (if ret.isSome then .setNormal else pc)
  if !info.retimerFw then
    none
  else
    match state.retimers thread with
    | .idle =>
        goTo (m10bmcFwStateSet info .retimerEepromLoad state.m10bmc)
          .checkIdle
    | .checkIdle => next (retimerCheckIdle answer.doorbell) .trigger
    | .trigger =>
        next (triggerRetimerEepromLoad answer.update answer.polls) .pollLoad
    | .pollLoad =>
        next (pollRetimerEepromLoadDone answer.statusPolls) .pollPreload
    | .pollPreload =>
        next (pollRetimerPreloadDone answer.polls) .setNormal
    | .setNormal =>
        goTo (m10bmcFwStateSet info .normal state.m10bmc) .idle

/-- `fpga_image_load_ioctl_cancel`, with `m10bmc_sec_cancel` -/
def ioctlCancel : Option Errno × SecUpload :=
  match fpgaImageLoadIoctlCancel state.upload with
  | (some ret, _) => (some ret, state)
  | (none, upload) =>
      (none,
        { state with
          upload := upload
          m10bmc := { state.m10bmc with cancelRequest := true } })

/-- `fpga_image_load_ioctl_write` -/
def ioctlWrite (request : WriteRequest) : SecUpload :=
  { state with upload := (fpgaImageLoadIoctlWrite request state.upload).2 }

end SecUpload

/-- A step of any thread. -/
inductive SecAction where
  | write (request : WriteRequest)
  | status (copyToUser : Bool)
  | cancel
  | worker (answer : SecAnswer)
  /-- Another user reads from the flash. -/
  | flashRead (answer : FlashReadAnswer)
  /-- Another driver accesses a system register. -/
  | sysAccess (offset : Nat)
  /-- A thread which loads the firmware of the retimer. -/
  | retimer (thread : Nat) (answer : SecAnswer)

def SecUpload.Step (info : BoardInfo) (state : SecUpload) :
    SecAction → SecUpload → Prop
  | .write request, next => state.ioctlWrite request = next
  | .status _, next => state = next
  | .cancel, next => state.ioctlCancel.2 = next
  | .worker answer, next => state.secWorkerStep info answer = some next
  | .flashRead _, next => state = next
  | .sysAccess _, next => state = next
  | .retimer thread answer, next =>
      state.retimerStep info answer thread = some next

/-- A board on which no upload has been requested yet. -/
def secRegistered : SecUpload where
  upload := registered true
  m10bmc := ⟨false, false, .normal⟩
  pc := .enter
  retimers _ := .idle

/-- The upload after an action. -/
def SecUpload.apply (info : BoardInfo) (state : SecUpload) :
    SecAction → SecUpload
  | .write request => state.ioctlWrite request
  | .status _ => state
  | .cancel => state.ioctlCancel.2
  | .worker answer => (state.secWorkerStep info answer).getD state
  | .flashRead _ => state
  | .sysAccess _ => state
  | .retimer thread answer =>
      (state.retimerStep info answer thread).getD state

/-- The thread can take its step, if the action is one. -/
def SecUpload.enabled (info : BoardInfo) (state : SecUpload) :
    SecAction → Bool
  | .worker answer => (state.secWorkerStep info answer).isSome
  | .retimer thread answer =>
      (state.retimerStep info answer thread).isSome
  | _ => true

theorem SecUpload.step_apply {info : BoardInfo} {state : SecUpload}
    {action : SecAction} (enabled : state.enabled info action = true) :
    state.Step info action (state.apply info action) := by
  cases action with
  | write | status | cancel | flashRead | sysAccess => rfl
  | worker answer =>
      obtain ⟨next, step⟩ := Option.isSome_iff_exists.mp enabled
      show state.secWorkerStep info answer =
        some ((state.secWorkerStep info answer).getD state)
      rw [step]
      rfl
  | retimer thread answer =>
      obtain ⟨next, step⟩ := Option.isSome_iff_exists.mp enabled
      show state.retimerStep info answer thread =
        some ((state.retimerStep info answer thread).getD state)
      rw [step]
      rfl

/-- What a board with this doorbell answers, when nothing fails. -/
def answersWith (doorbell : BitVec 32) : SecAnswer where
  doorbell := .ok doorbell
  update := none
  statusPolls := ⟨⟨.ok doorbell, .ok 0#32⟩, []⟩
  polls := ⟨.ok doorbell, []⟩
  status := .ok 0#32
  block := none

/-- A doorbell with `RSU_PROG_IDLE`. -/
def idleDoorbell : BitVec 32 := 0x00#32

/-- A doorbell with `RSU_PROG_READY`. -/
def readyDoorbell : BitVec 32 := 0x30#32

/-- The steps of the worker for an image of one block, when nothing fails. -/
def wholeUpload : List SecAction :=
  List.replicate 5 (.worker (answersWith idleDoorbell)) ++
    List.replicate 12 (.worker (answersWith readyDoorbell)) ++
      List.replicate 13 (.worker (answersWith idleDoorbell))

/-! ## The shared state of the board -/

/-- Only the firmware state is set. -/
theorem fwStateSet_eq (info : BoardInfo) (newState : M10bmcFwState)
    (m10bmc : M10bmc) :
    m10bmcFwStateSet info newState m10bmc =
      { m10bmc with
        bmcfwState := (m10bmcFwStateSet info newState m10bmc).bmcfwState } := by
  unfold m10bmcFwStateSet
  by_cases none : info.handshakeSysRegRanges = []
  · rw [if_pos none]
  · rw [if_neg none]

theorem fwStateSet_flashBusy (info : BoardInfo) (newState : M10bmcFwState)
    (m10bmc : M10bmc) :
    (m10bmcFwStateSet info newState m10bmc).flashBusy = m10bmc.flashBusy := by
  rw [fwStateSet_eq]

theorem fwStateSet_cancelRequest (info : BoardInfo)
    (newState : M10bmcFwState) (m10bmc : M10bmc) :
    (m10bmcFwStateSet info newState m10bmc).cancelRequest =
      m10bmc.cancelRequest := by
  rw [fwStateSet_eq]

theorem fwStateSet_bmcfwState {info : BoardInfo}
    (handshake : info.handshakeSysRegRanges ≠ [])
    (newState : M10bmcFwState) (m10bmc : M10bmc) :
    (m10bmcFwStateSet info newState m10bmc).bmcfwState = newState := by
  rw [m10bmcFwStateSet, if_neg handshake]

/-- Only the flash is locked. -/
theorem lockFlash_eq (info : BoardInfo) (state : SecUpload) :
    (state.lockFlash info).2 =
      { state.m10bmc with
        flashBusy := (state.lockFlash info).2.flashBusy } := by
  unfold SecUpload.lockFlash m10bmcPmciFlashLock
  cases info.flashBulkOps <;> cases state.m10bmc.flashBusy <;> rfl

theorem lockFlash_bmcfwState (info : BoardInfo) (state : SecUpload) :
    (state.lockFlash info).2.bmcfwState = state.m10bmc.bmcfwState := by
  rw [lockFlash_eq]

theorem lockFlash_cancelRequest (info : BoardInfo) (state : SecUpload) :
    (state.lockFlash info).2.cancelRequest =
      state.m10bmc.cancelRequest := by
  rw [lockFlash_eq]

theorem unlockFlash_eq (info : BoardInfo) (state : SecUpload) :
    state.unlockFlash info =
      { state.m10bmc with
        flashBusy := (state.unlockFlash info).flashBusy } := by
  unfold SecUpload.unlockFlash
  cases info.flashBulkOps <;> rfl

theorem unlockFlash_bmcfwState (info : BoardInfo) (state : SecUpload) :
    (state.unlockFlash info).bmcfwState = state.m10bmc.bmcfwState := by
  rw [unlockFlash_eq]

theorem unlockFlash_cancelRequest (info : BoardInfo) (state : SecUpload) :
    (state.unlockFlash info).cancelRequest = state.m10bmc.cancelRequest := by
  rw [unlockFlash_eq]

/-! ## Where the worker is -/

/-- The operation which the worker is in, and the errors it will return. -/
def SecPc.Within : SecPc → WorkerPc → Prop
  | .enter, _ => True
  | .prepSetNormal ret, pc => pc = .prepare ∧ ret ≠ .none
  | .prepUnlock ret, pc => pc = .prepare ∧ ret ≠ .none
  | .cancel, pc => pc = .pollComplete ∨ ∃ offset, pc = .write offset
  | .writeDoorbell _, pc => ∃ offset, pc = .write offset
  | .writeBlock _, pc => ∃ offset, pc = .write offset
  | .pollSetProgram, pc => pc = .pollComplete
  | .pollSendData, pc => pc = .pollComplete
  | .pollWait, pc => pc = .pollComplete
  | .cleanSetNormal, pc => pc = .cleanup
  | .cleanUnlock, pc => pc = .cleanup
  | _, pc => pc = .prepare

/-- Where the worker goes when an operation returns. -/
def afterOp (pc : WorkerPc) (ret : FwUploadErr) (written : Nat) :
    WorkerPc :=
  match pc with
  | .prepare =>
      if ret = .none then .startTransfer else .setError ret false
  | .write offset =>
      if ret ≠ .none then .setError ret true
      else if written = 0 then .setError .rwError true
      else .advance offset written
  | .pollComplete => if ret = .none then .cleanup else .setError ret true
  | .cleanup => .putDevice
  | pc => pc

/-- The worker is in one of the operations of the driver. -/
def InOp : WorkerPc → Prop
  | .prepare => True
  | .write _ => True
  | .pollComplete => True
  | .cleanup => True
  | _ => False

/-- An operation fails, or leads to the next phase. -/
theorem afterOp_cases {pc : WorkerPc} (inOp : InOp pc) (ret : FwUploadErr)
    (written : Nat) :
    (∃ err prepared,
        afterOp pc ret written = .setError err prepared ∧ err ≠ .none) ∨
      (pc = .prepare ∧ afterOp pc ret written = .startTransfer) ∨
      (∃ offset, pc = .write offset ∧
        afterOp pc ret written = .advance offset written) ∨
      (pc = .pollComplete ∧ ret = .none ∧
        afterOp pc ret written = .cleanup) ∨
      (pc = .cleanup ∧ afterOp pc ret written = .putDevice) := by
  cases pc with
  | prepare =>
      by_cases succeeds : ret = .none
      · exact Or.inr (Or.inl ⟨rfl, if_pos succeeds⟩)
      · exact Or.inl ⟨ret, false, if_neg succeeds, succeeds⟩
  | write offset =>
      unfold afterOp
      by_cases fails : ret ≠ .none
      · exact Or.inl ⟨ret, true, if_pos fails, fails⟩
      · dsimp only
        rw [if_neg fails]
        by_cases nothing : written = 0
        · exact Or.inl ⟨.rwError, true, if_pos nothing, by decide⟩
        · exact Or.inr (Or.inr (Or.inl ⟨offset, rfl, if_neg nothing⟩))
  | pollComplete =>
      by_cases succeeds : ret = .none
      · exact Or.inr (Or.inr (Or.inr (Or.inl
          ⟨rfl, succeeds, if_pos succeeds⟩)))
      · exact Or.inl ⟨ret, true, if_neg succeeds, succeeds⟩
  | cleanup => exact Or.inr (Or.inr (Or.inr (Or.inr ⟨rfl, rfl⟩)))
  | idle | setError | startTransfer | loop | advance | startProgram
  | putDevice | vfree | clearData | complete | eventfdPut | clearFinished =>
      exact inOp.elim

namespace SecUpload

/-- An operation which returns leaves the status of the upload alone. -/
theorem finish_of_inOp {state next : SecUpload} {ret : FwUploadErr}
    {written : Nat} (inOp : InOp state.upload.pc)
    (step : state.finish ret written = some next) :
    next.pc = .enter ∧ next.m10bmc = state.m10bmc ∧
      (next.upload.fwlp = state.upload.fwlp ∧
        next.upload.pending = state.upload.pending) ∧
          next.upload.pc = afterOp state.upload.pc ret written := by
  unfold finish at step
  obtain ⟨upload, moves, rfl⟩ := Option.map_eq_some_iff.mp step
  refine ⟨rfl, rfl, ?_⟩
  show (upload.fwlp = state.upload.fwlp ∧ _) ∧ upload.pc = _
  cases isPc : state.upload.pc with
  | prepare =>
      simp only [workerStep, isPc, Option.some.injEq] at moves
      subst moves
      exact ⟨⟨rfl, rfl⟩, rfl⟩
  | write offset =>
      simp only [workerStep, isPc, Option.some.injEq] at moves
      subst moves
      exact ⟨⟨rfl, rfl⟩, rfl⟩
  | pollComplete =>
      simp only [workerStep, isPc, Option.some.injEq] at moves
      subst moves
      exact ⟨⟨rfl, rfl⟩, rfl⟩
  | cleanup =>
      simp only [workerStep, isPc, Option.some.injEq] at moves
      subst moves
      cases state.upload.hasCleanup <;> exact ⟨⟨rfl, rfl⟩, rfl⟩
  | idle | setError | startTransfer | loop | advance | startProgram
  | putDevice | vfree | clearData | complete | eventfdPut | clearFinished =>
      rw [isPc] at inOp
      exact inOp.elim

theorem finish_refines {state next : SecUpload} {ret : FwUploadErr}
    {written : Nat} (step : state.finish ret written = some next) :
    ∃ opAnswer, workerStep opAnswer state.upload = some next.upload := by
  obtain ⟨upload, moves, rfl⟩ := Option.map_eq_some_iff.mp step
  exact ⟨⟨ret, written⟩, moves⟩

theorem go_upload {state next : SecUpload} {pc : SecPc}
    (step : state.go pc = some next) : next.upload = state.upload := by
  cases step
  rfl

theorem set_upload {state next : SecUpload} {m10bmc : M10bmc} {pc : SecPc}
    (step : state.set m10bmc pc = some next) :
    next.upload = state.upload := by
  cases step
  rfl

theorem setFinish_refines {state next : SecUpload} {m10bmc : M10bmc}
    {ret : FwUploadErr} (step : state.setFinish m10bmc ret = some next) :
    ∃ opAnswer, workerStep opAnswer state.upload = some next.upload := by
  unfold setFinish at step
  obtain ⟨opAnswer, moves⟩ := finish_refines step
  exact ⟨opAnswer, moves⟩

theorem enterStep_refines {info : BoardInfo} {state next : SecUpload}
    (step : state.enterStep info = some next) :
    next.upload = state.upload ∨
      ∃ opAnswer, workerStep opAnswer state.upload = some next.upload := by
  cases isPc : state.upload.pc with
  | prepare =>
      simp only [enterStep, isPc] at step
      split_ifs at step
      · exact Or.inr (setFinish_refines step)
      · exact Or.inl (set_upload step)
  | write | pollComplete | cleanup =>
      simp only [enterStep, isPc] at step
      exact Or.inl (go_upload step)
  | idle | setError | startTransfer | loop | advance | startProgram
  | putDevice | vfree | clearData | complete | eventfdPut | clearFinished =>
      simp only [enterStep, isPc] at step
      exact Or.inr (finish_refines step)

/-- Each step of the worker is one of `fw_upload_main`, or inside of one. -/
theorem secWorkerStep_refines {info : BoardInfo} {answer : SecAnswer}
    {state next : SecUpload}
    (step : state.secWorkerStep info answer = some next) :
    next.upload = state.upload ∨
      ∃ opAnswer, workerStep opAnswer state.upload = some next.upload := by
  cases isPc : state.pc with
  | enter =>
      simp only [secWorkerStep, isPc] at step
      exact enterStep_refines step
  | prepLock =>
      simp only [secWorkerStep, isPc] at step
      split at step
      · exact Or.inr (finish_refines step)
      · exact Or.inl (set_upload step)
  | prepCheckIdle | prepUpdateInit | prepReady | prepCheckCancel
  | prepCancel =>
      simp only [secWorkerStep, isPc] at step
      exact Or.inl (go_upload step)
  | prepSetPrepare | prepSetNormal | pollSetProgram | cleanSetNormal =>
      simp only [secWorkerStep, isPc] at step
      exact Or.inl (set_upload step)
  | prepSetWrite | prepUnlock | cleanUnlock =>
      simp only [secWorkerStep, isPc] at step
      exact Or.inr (setFinish_refines step)
  | cancel | pollWait =>
      simp only [secWorkerStep, isPc] at step
      exact Or.inr (finish_refines step)
  | writeDoorbell size =>
      simp only [secWorkerStep, isPc] at step
      split at step
      · exact Or.inr (finish_refines step)
      · split_ifs at step
        · exact Or.inr (finish_refines step)
        · exact Or.inl (go_upload step)
  | writeBlock blkSize =>
      simp only [secWorkerStep, isPc] at step
      split at step
      · exact Or.inr (finish_refines step)
      · exact Or.inr (finish_refines step)
  | pollSendData =>
      simp only [secWorkerStep, isPc] at step
      split_ifs at step
      · exact Or.inr (finish_refines step)
      · exact Or.inl (go_upload step)

/-! ## Steps of the others -/

theorem ioctlWrite_pc (state : SecUpload) (request : WriteRequest) :
    (state.ioctlWrite request).upload.pc = state.upload.pc := by
  show (fpgaImageLoadIoctlWrite request state.upload).2.pc = _
  by_cases reaches : request.reachesEventfd = true
  · rcases ioctlWrite_of_reaches reaches state.upload
      with ⟨ret, -, effect⟩ | ⟨ctx, takes⟩
    · rw [effect]
    · exact takes.pc
  · rw [ioctlWrite_of_not_reaches reaches]

/-- A cancellation which is accepted is recorded, and nothing else changes. -/
theorem ioctlCancel_cases (state : SecUpload) :
    (state.upload.fwlp.progress = .idle ∧
        state.ioctlCancel = (some .enodev, state)) ∨
      (state.upload.fwlp.progress ≠ .idle ∧
        state.ioctlCancel =
          (none,
            { state with
              upload := state.upload.emit .cancel
              m10bmc := { state.m10bmc with cancelRequest := true } })) := by
  unfold ioctlCancel fpgaImageLoadIoctlCancel
  by_cases idle : state.upload.fwlp.progress = .idle
  · left
    rw [if_pos idle]
    exact ⟨idle, rfl⟩
  · right
    rw [if_neg idle]
    exact ⟨idle, rfl⟩

/-- A retimer thread changes nothing but the firmware state and itself. -/
theorem retimerStep_cases {info : BoardInfo} {answer : SecAnswer}
    {state next : SecUpload} {thread : Nat}
    (step : state.retimerStep info answer thread = some next) :
    ∃ m10bmc pc, next =
        { state with
          m10bmc := m10bmc
          retimers := Function.update state.retimers thread pc } ∧
      (m10bmc = state.m10bmc ∨
        m10bmc =
          m10bmcFwStateSet info .retimerEepromLoad state.m10bmc ∨
        (state.retimers thread = .setNormal ∧
          m10bmc = m10bmcFwStateSet info .normal state.m10bmc)) := by
  unfold retimerStep at step
  dsimp only at step
  by_cases missing : (!info.retimerFw) = true
  · rw [if_pos missing] at step
    cases step
  rw [if_neg missing] at step
  cases isPc : state.retimers thread with
  | idle =>
      simp only [isPc, Option.some.injEq] at step
      exact ⟨_, _, step.symm, Or.inr (Or.inl rfl)⟩
  | setNormal =>
      simp only [isPc, Option.some.injEq] at step
      exact ⟨_, _, step.symm, Or.inr (Or.inr ⟨rfl, rfl⟩)⟩
  | checkIdle | trigger | pollLoad | pollPreload =>
      simp only [isPc, Option.some.injEq] at step
      exact ⟨_, _, step.symm, Or.inl rfl⟩

end SecUpload

end LinuxDfl.Bmc

import LinuxDfl.Bmc.SecUpdate

/-!
# The conversation with the board management controller

What the driver concludes from the registers which it reads during a secure
update, and while the firmware of the retimer is loaded.  A read is the value
of a register or an error; a poll is given by the reads which it makes until
it is answered or has timed out.
-/

namespace LinuxDfl.Bmc.Rsu

open LinuxDfl.Kernel
open LinuxDfl.ImageLoad

/-- `DRBL_RSU_REQUEST` -/
def drblRsuRequest : Field := bit 0

/-- `DRBL_PKVL_EEPROM_LOAD_SEC` -/
def drblPkvlEepromLoadSec : Field := bit 24

/-- `DRBL_RSU_STATUS` and `AUTH_RESULT_RSU_STATUS` -/
def rsuStatusField : Field := genmask 23 16

/-! ## `RSU_PROG_` and `RSU_STAT_` -/

def progIdle : Nat := 0x0
def progPrepare : Nat := 0x1
def progAuthenticating : Nat := 0x4
def progCopying : Nat := 0x5
def progUpdateCancel : Nat := 0x6
def progProgramKeyHash : Nat := 0x7
def progRsuDone : Nat := 0x8
def progPkvlPromDone : Nat := 0x9

def statNormal : Nat := 0x0
def statPkvlReject : Nat := 0x5
def statEraseFail : Nat := 0x7
def statWearout : Nat := 0x8
def statNiosOk : Nat := 0x80
def statUserOk : Nat := 0x81
def statFactoryOk : Nat := 0x82

/-! ## Reads and polls -/

/-- What a read of a register gives. -/
abbrev RegRead := Except Errno (BitVec 32)

/-- A field of a register of 32 bits. -/
def fieldOf (field : Field) (value : BitVec 32) : Nat :=
  field.get (value.setWidth 64)

/-- The reads of a poll; the last is the one after which time is out. -/
structure Polls (Read : Type) where
  first : Read
  rest : List Read
  deriving Repr

/-- `read_poll_timeout`: the read which is an answer, if one comes in time. -/
def readPollTimeout {Read : Type} (done : Read → Bool) (first : Read) :
    List Read → Option Read
  | [] => if done first then some first else none
  | next :: rest =>
      if done first then some first else readPollTimeout done next rest

/-- The poll makes this read: none of those before it is an answer. -/
def Polls.Makes {Read : Type} (done : Read → Bool) (polls : Polls Read)
    (read : Read) : Prop :=
  ∃ before after, polls.first :: polls.rest = before ++ read :: after ∧
    ∀ earlier ∈ before, done earlier = false

theorem readPollTimeout_eq_find {Read : Type} (done : Read → Bool)
    (first : Read) (rest : List Read) :
    readPollTimeout done first rest = (first :: rest).find? done := by
  induction rest generalizing first with
  | nil => cases isDone : done first <;> simp [readPollTimeout, isDone]
  | cons next rest ih =>
      cases isDone : done first with
      | true => simp [readPollTimeout, isDone]
      | false =>
          rw [List.find?_cons_of_neg (by simp [isDone]), ← ih next]
          simp [readPollTimeout, isDone]

theorem readPollTimeout_eq_some_iff {Read : Type} {done : Read → Bool}
    {polls : Polls Read} {read : Read} :
    readPollTimeout done polls.first polls.rest = some read ↔
      polls.Makes done read ∧ done read = true := by
  rw [readPollTimeout_eq_find, List.find?_eq_some_iff_append, and_comm]
  simp only [Polls.Makes, Bool.not_eq_true']

/-- `regmap_read_poll_timeout` -/
def regmapReadPollTimeout (cond : BitVec 32 → Bool) (polls : Polls RegRead) :
    RegRead :=
  let done : RegRead → Bool := fun
    | .error _ => true
    | .ok value => cond value
  (readPollTimeout done polls.first polls.rest).getD (.error .etimedout)

/-- What ends a poll of a register: an error, or the value waited for. -/
def endsRegPoll (cond : BitVec 32 → Bool) : RegRead → Bool
  | .error _ => true
  | .ok value => cond value

theorem regmapReadPollTimeout_eq_ok_iff {cond : BitVec 32 → Bool}
    {polls : Polls RegRead} {value : BitVec 32} :
    regmapReadPollTimeout cond polls = .ok value ↔
      polls.Makes (endsRegPoll cond) (.ok value) ∧ cond value = true := by
  have same : regmapReadPollTimeout cond polls =
      (readPollTimeout (endsRegPoll cond) polls.first polls.rest).getD
        (.error .etimedout) := rfl
  have ends : readPollTimeout (endsRegPoll cond) polls.first polls.rest =
      some (.ok value) ↔
        polls.Makes (endsRegPoll cond) (.ok value) ∧ cond value = true :=
    readPollTimeout_eq_some_iff
  rw [same, ← ends]
  cases readPollTimeout (endsRegPoll cond) polls.first polls.rest with
  | none => simp
  | some read => simp

/-- The doorbell, and the register which has the status. -/
structure StatusRead where
  doorbell : RegRead
  status : RegRead

/-- Doorbell, progress and status. -/
structure ProgressStatus where
  doorbell : BitVec 32
  progress : Nat
  status : Nat

/-- `m10bmc_sec_progress_status` -/
def m10bmcSecProgressStatus (read : StatusRead) :
    Except Errno ProgressStatus := do
  let doorbell ← read.doorbell
  let status ← read.status
  return ⟨doorbell, rsuProg doorbell, fieldOf rsuStatusField status⟩

/-! ## The secure update -/

/-- `rsu_status_ok` -/
def rsuStatusOk (status : Nat) : Bool :=
  status = statNormal || status = statNiosOk || status = statUserOk ||
    status = statFactoryOk

/-- `rsu_progress_done` -/
def rsuProgressDone (progress : Nat) : Bool :=
  progress = progIdle || progress = progRsuDone

/-- `rsu_progress_busy` -/
def rsuProgressBusy (progress : Nat) : Bool :=
  progress = progAuthenticating || progress = progCopying ||
    progress = progUpdateCancel || progress = progProgramKeyHash

/-- `rsu_check_idle` -/
def rsuCheckIdle : RegRead → FwUploadErr
  | .error _ => .rwError
  | .ok doorbell =>
      if !rsuProgressDone (rsuProg doorbell) then .busy else .none

/-- `rsu_start_done` -/
def rsuStartDone (read : ProgressStatus) : Bool :=
  if fieldOf drblRsuRequest read.doorbell ≠ 0 then false
  else if read.status = statEraseFail ∨ read.status = statWearout then true
  else !rsuProgressDone read.progress

/-- `rsu_update_init` -/
def rsuUpdateInit (update : Option Errno) (polls : Polls StatusRead) :
    FwUploadErr :=
  let done (read : StatusRead) : Bool :=
    match m10bmcSecProgressStatus read with
    | .error _ => true
    | .ok read => rsuStartDone read
  match update with
  | some _ => .rwError
  | none =>
      match readPollTimeout done polls.first polls.rest with
      | none => .timeout
      | some read =>
          match m10bmcSecProgressStatus read with
          | .error _ => .rwError
          | .ok read =>
              if read.status = statWearout then .wearout
              else if read.status = statEraseFail then .hwError
              else .none

/-- The loop of `rsu_prog_ready`, from a read on -/
def rsuProgReadyLoop : RegRead → List RegRead → FwUploadErr
  | .error _, _ => .rwError
  | .ok doorbell, rest =>
      if rsuProg doorbell = progPrepare then
        match rest with
        | [] => .timeout
        | next :: rest => rsuProgReadyLoop next rest
      else if rsuProg doorbell ≠ rsuProgReady then .hwError
      else .none

/-- `rsu_prog_ready` -/
def rsuProgReadyCheck (polls : Polls RegRead) : FwUploadErr :=
  rsuProgReadyLoop polls.first polls.rest

/-- `rsu_send_data` -/
def rsuSendData (update : Option Errno) (polls : Polls RegRead)
    (status : RegRead) : FwUploadErr :=
  match update with
  | some _ => .rwError
  | none =>
      match regmapReadPollTimeout
          (fun doorbell => rsuProg doorbell ≠ rsuProgReady) polls with
      | .error .etimedout => .timeout
      | .error _ => .rwError
      | .ok _ =>
          match status with
          | .error _ => .hwError
          | .ok status =>
              if !rsuStatusOk (fieldOf rsuStatusField status) then .hwError
              else .none

/-- `rsu_check_complete` -/
def rsuCheckComplete (read : StatusRead) : Option Errno :=
  match m10bmcSecProgressStatus read with
  | .error _ => some .eio
  | .ok read =>
      if !rsuStatusOk read.status then some .einval
      else if rsuProgressDone read.progress then none
      else if rsuProgressBusy read.progress then some .eagain
      else some .einval

/-- The loop of `m10bmc_sec_poll_complete` -/
def checkCompleteLoop (first : StatusRead) : List StatusRead → Option Errno
  | [] => rsuCheckComplete first
  | next :: rest =>
      if rsuCheckComplete first = some .eagain then
        checkCompleteLoop next rest
      else
        rsuCheckComplete first

/-- What `m10bmc_sec_poll_complete` returns after its loop. -/
def checkCompleteRet : Option Errno → FwUploadErr
  | none => .none
  | some .eagain => .timeout
  | some .eio => .rwError
  | some _ => .hwError

/-- `rsu_cancel`, by what its accesses give -/
def rsuCancelRet (doorbell : RegRead) (update : Option Errno) :
    FwUploadErr :=
  match doorbell with
  | .error _ => .rwError
  | .ok doorbell =>
      if rsuProg doorbell ≠ rsuProgReady then .busy
      else if update.isSome then .rwError
      else .canceled

/-- A cancellation ends with an error. -/
theorem rsuCancelRet_ne_none (doorbell : RegRead) (update : Option Errno) :
    rsuCancelRet doorbell update ≠ .none := by
  unfold rsuCancelRet
  cases doorbell with
  | error ret => simp
  | ok doorbell =>
      by_cases ready : rsuProg doorbell ≠ rsuProgReady
      · simp [ready]
      · cases update <;> simp [ready]

/-- The board of an update sees what `rsu_cancel` concludes from its reads. -/
theorem rsuCancel_eq {Bmc : Type} (board : Board Bmc) (bmc : Bmc) :
    (rsuCancel board bmc).1 =
      rsuCancelRet (board.readDoorbell bmc).1
        (board.abortRsu (board.readDoorbell bmc).2).1 := by
  unfold rsuCancel rsuCancelRet
  rcases board.readDoorbell bmc with ⟨_ | doorbell, seen⟩
  · rfl
  · by_cases ready : rsuProg doorbell ≠ rsuProgReady
    · show (if _ then _ else _ : FwUploadErr × Bmc).1 = if _ then _ else _
      rw [if_pos ready, if_pos ready]
    · show (if _ then _ else _ : FwUploadErr × Bmc).1 = if _ then _ else _
      rw [if_neg ready, if_neg ready]
      rcases board.abortRsu seen with ⟨_ | ret, done⟩ <;> rfl

/-! ## The firmware of the retimer -/

/-- `ECANCELED` -/
def ecanceled : Errno := .other 125

/-- `retimer_check_idle` -/
def retimerCheckIdle : RegRead → Option Errno
  | .error _ => some .eio
  | .ok doorbell =>
      if rsuProg doorbell ≠ progIdle ∧ rsuProg doorbell ≠ progRsuDone ∧
          rsuProg doorbell ≠ progPkvlPromDone then
        some .ebusy
      else
        none

/-- `trigger_retimer_eeprom_load` -/
def triggerRetimerEepromLoad (update : Option Errno)
    (polls : Polls RegRead) : Option Errno :=
  match update with
  | some ret => some ret
  | none =>
      match regmapReadPollTimeout
          (fun val => fieldOf drblPkvlEepromLoadSec val = 0) polls with
      | .error .etimedout => some .enodev
      | .error ret => some ret
      | .ok _ => none

/--
`poll_retimer_eeprom_load_done`.  After a read which fails it returns the
result of the poll, which is zero.
-/
def pollRetimerEepromLoadDone (polls : Polls StatusRead) : Option Errno :=
  let done (read : StatusRead) : Bool :=
    match m10bmcSecProgressStatus read with
    | .error _ => true
    | .ok read =>
        read.progress = progPkvlPromDone || read.status = statPkvlReject
  match readPollTimeout done polls.first polls.rest with
  | none => some .etimedout
  | some read =>
      match m10bmcSecProgressStatus read with
      | .error _ => none
      | .ok read =>
          if read.status = statPkvlReject then some ecanceled else none

/-- `M10BMC_PKVL_PRELOAD` -/
def pkvlPreload : BitVec 32 := 0x01010000#32

/-- `M10BMC_PKVL_UPG_STATUS_MASK` -/
def pkvlUpgStatusMask : BitVec 32 := 0x17170000#32

/-- `M10BMC_PKVL_UPG_STATUS_GOOD` -/
def pkvlUpgStatusGood : BitVec 32 := 0x11110000#32

/-- `poll_retimer_preload_done` -/
def pollRetimerPreloadDone (polls : Polls RegRead) : Option Errno :=
  match regmapReadPollTimeout
      (fun val => val &&& pkvlPreload = pkvlPreload) polls with
  | .error ret => some ret
  | .ok val =>
      if val &&& pkvlUpgStatusMask ≠ pkvlUpgStatusGood then some .eio
      else none

end LinuxDfl.Bmc.Rsu

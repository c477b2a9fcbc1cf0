import LinuxDfl.Fpga.Bridge
import LinuxDfl.Fpga.LoadAgreement
import Mathlib.Logic.Relation

/-!
# Programming over the slave SPI interface

The device is erased, written page by page, and started by a refresh.  Errors
of the SPI controller are returned as they are.  What the device says of
itself in its status register decides where the driver goes, but not always
what it returns.
-/

namespace LinuxDfl.Fpga.MachXo2

open LinuxDfl.Kernel

/-! ## Commands and status -/

abbrev Byte := BitVec 8

abbrev Command := List Byte

def iscEnable : Command := [0xc6, 0x08, 0x00, 0x00]

def iscErase : Command := [0x0e, 0x04, 0x00, 0x00]

def iscProgramdone : Command := [0x5e, 0x00, 0x00, 0x00]

def lscInitaddress : Command := [0x46, 0x00, 0x00, 0x00]

def lscProgincrnv : Command := [0x70, 0x00, 0x00, 0x01]

def lscReadStatus : Command := [0x3c, 0x00, 0x00, 0x00]

def lscRefresh : Command := [0x79, 0x00, 0x00, 0x00]

def machxo2MaxBusyLoop : Nat := 128

def machxo2MaxRefreshLoop : Nat := 16

def machxo2PageSize : Nat := 16

/-- The bits of the status register. -/
def busyBit : Nat := 12

def doneBit : Nat := 8

def errBits : Nat := 23

def failBit : Nat := 13

/-- `get_err`, under `ERRMASK` -/
def getErr (status : BitVec 32) : BitVec 32 := (status >>> errBits) &&& 7

/-- The device has been configured, as its status has it. -/
def configured (status : BitVec 32) : Bool :=
  !status.getLsbD busyBit && status.getLsbD doneBit && getErr status == 0

/-- `ENOTSUPP` -/
def enotsupp : Errno := .other 524

/-! ## Messages -/

/-- `struct spi_transfer` -/
inductive Transfer where
  | tx (command : Command)
  | rx (len : Nat)
  deriving DecidableEq, Repr

/-- `struct spi_message` -/
abbrev Message := List Transfer

/-- The messages so far, the last one at the end. -/
abbrev History := List Message

/-- What comes of a message. -/
structure Answer where
  /-- What `spi_sync` returns. -/
  ret : Option Errno
  /-- The status register at that time. -/
  status : BitVec 32
  /-- What is in the buffer of `get_status` when the message fails. -/
  left : BitVec 32
  deriving DecidableEq, Repr

/-- The device and its controller, which answer a message after others. -/
abbrev SpiDevice := History → Answer

/-- The message of `get_status` -/
def readStatus : Message := [.tx lscReadStatus, .rx 4]

variable (device : SpiDevice)

/-- `spi_sync` -/
def spiSync (message : Message) (history : History) :
    Option Errno × History :=
  ((device (history ++ [message])).ret, history ++ [message])

/-- What is in `status` after `get_status`. -/
def seen (history : History) : BitVec 32 :=
  let answer := device (history ++ [readStatus])
  if answer.ret = none then answer.status else answer.left

/-- What is in the status register during `get_status`. -/
def register (history : History) : BitVec 32 :=
  (device (history ++ [readStatus])).status

/-! ## The driver -/

/-- `wait_until_not_busy`, where this many rounds are left. -/
def waitUntilNotBusyFrom : Nat → History → Option Errno × History
  | 0, history => (some .ebusy, history)
  | left + 1, history =>
      andThen (spiSync device readStatus history) fun history' =>
        if left = 0 then (some .ebusy, history')
        else if (seen device history).getLsbD busyBit then
          waitUntilNotBusyFrom left history'
        else (none, history')

/-- `wait_until_not_busy` -/
def waitUntilNotBusy (history : History) : Option Errno × History :=
  waitUntilNotBusyFrom device machxo2MaxBusyLoop history

/-- `machxo2_cleanup` -/
def machxo2Cleanup (history : History) : Option Errno × History :=
  andThen (spiSync device [.tx iscErase] history) fun history =>
    andThen (waitUntilNotBusy device history) fun history =>
      spiSync device [.tx lscRefresh] history

/-- The part of `machxo2_write_init` which erases the device. -/
def erase (history : History) : Option Errno × History :=
  andThen
    (spiSync device [.tx iscEnable, .tx iscErase] (history ++ [readStatus]))
    (waitUntilNotBusy device)

/-- `machxo2_write_init` -/
def machxo2WriteInit (info : FpgaImageInfo) (history : History) :
    Option Errno × History :=
  if info.partialReconfig then (some enotsupp, history)
  else
    andThen (erase device history) fun history =>
      let status := seen device history
      let history := history ++ [readStatus]
      -- `goto fail` returns what `wait_until_not_busy` has returned
      if status.getLsbD failBit then (none, history)
      else
        andThen (spiSync device [.tx lscInitaddress] history) fun history =>
          (none, history ++ [readStatus])

/-- The loop of `machxo2_write`, over its pages. -/
def writePages : List (List Byte) → History → Option Errno × History
  | [], history => (none, history)
  | page :: rest, history =>
      andThen (spiSync device [.tx (lscProgincrnv ++ page)] history)
        (writePages rest)

/-- `machxo2_write` -/
def machxo2Write (buf : List Byte) (history : History) :
    Option Errno × History :=
  if buf.length % machxo2PageSize ≠ 0 then (some .einval, history)
  else
    andThen
      (writePages device (buf.toChunks machxo2PageSize)
        (history ++ [readStatus]))
      fun history => (none, history ++ [readStatus])

/-- The loop of `machxo2_write_complete`, with this many refreshes left. -/
def refreshLoop : Nat → History → Option Errno × History
  | 0, history => (none, history)
  | left + 1, history =>
      andThen (spiSync device [.tx lscRefresh] history) fun history =>
        let status := seen device history
        let history := history ++ [readStatus]
        if configured status then (none, history ++ [readStatus])
        else if left = 0 then
          -- `goto fail` returns what `spi_sync` has returned
          (none, (machxo2Cleanup device history).2)
        else refreshLoop left history

/-- The part of `machxo2_write_complete` which ends the programming. -/
def programDone (history : History) : Option Errno × History :=
  andThen (spiSync device [.tx iscProgramdone] history)
    (waitUntilNotBusy device)

/-- `machxo2_write_complete` -/
def machxo2WriteComplete (history : History) : Option Errno × History :=
  andThen (programDone device history) fun history =>
    let status := seen device history
    let history := history ++ [readStatus]
    if status.getLsbD doneBit then
      refreshLoop device machxo2MaxRefreshLoop history
    else
      -- `goto fail` returns what `wait_until_not_busy` has returned
      (none, (machxo2Cleanup device history).2)

/-- `machxo2_ops` -/
def machxo2Ops : FpgaManagerSgOps History where
  initialHeaderSize := 0
  skipHeader := false
  parseHeader := none
  writeInit := some fun info _ history => machxo2WriteInit device info history
  write := some (machxo2Write device)
  writeComplete := some fun _ history => machxo2WriteComplete device history
  writeSg := none

/-! ## What is to hold -/

/-- The message of a refresh -/
def refresh : Message := [.tx lscRefresh]

/-- `FAIL` is clear once the device has been erased. -/
def FailClear (start : History) : Prop :=
  ∃ ended, erase device start = (none, ended) ∧
    (register device ended).getLsbD failBit = false

/--
A refresh which the loop tries, with the messages before it: those which were
tried before it have succeeded, and the status did not look configured.
-/
inductive Tries : Nat → History → History → Prop where
  | first (left : Nat) (history : History) : Tries (left + 1) history history
  | next {left : Nat} {history later : History}
      (refreshes : (device (history ++ [refresh])).ret = none)
      (waits : configured (seen device (history ++ [refresh])) = false)
      (tries : Tries left (history ++ [refresh] ++ [readStatus]) later) :
      Tries (left + 1) history later

/-- One of the refreshes which are tried leads to a configured device. -/
def Refreshes (left : Nat) (history : History) : Prop :=
  ∃ last, Tries device left history last ∧
    (device (last ++ [refresh])).ret = none ∧
      configured (register device (last ++ [refresh])) = true

/-- The message of one of them fails. -/
def RefreshFails (left : Nat) (history : History) : Prop :=
  ∃ last, Tries device left history last ∧
    (device (last ++ [refresh])).ret ≠ none

/--
`DONE` is set once the programming is done, refreshes are tried as it is seen
to be set, and one of them leads to a configured device.
-/
def Configured (written : History) : Prop :=
  ∃ ended, programDone device written = (none, ended) ∧
    (seen device ended).getLsbD doneBit = true ∧
      (register device ended).getLsbD doneBit = true ∧
        Refreshes device machxo2MaxRefreshLoop (ended ++ [readStatus])

/-- A call of `machxo2_write` succeeds. -/
def Writes (before after : History) : Prop :=
  ∃ buf, machxo2Write device buf before = (none, after)

/-- The image has been written so far. -/
def Written (info : FpgaImageInfo) (start written : History) : Prop :=
  ∃ ready, machxo2WriteInit device info start = (none, ready) ∧
    Relation.ReflTransGen (Writes device) ready written

/-- All of the configuration has succeeded. -/
def Genuine (info : FpgaImageInfo) (start : History) : Prop :=
  FailClear device start ∧
    ∃ written, Written device info start written ∧ Configured device written

/-- What fails is reported, and never leaves the manager in operation. -/
structure Reports (info : FpgaImageInfo) (start : History) : Prop where
  init : (machxo2WriteInit device info start).1 = none →
    FailClear device start
  complete : ∀ written, Written device info start written →
    (machxo2WriteComplete device written).1 = none →
      Configured device written
  mapped : ∀ (mgr : FpgaManager History) (image : List Byte),
    mgr.hw = start →
      (fpgaMgrBufLoadMapped (machxo2Ops device).toFpgaManagerOps mgr info
        image).2.1.state = .operating → Genuine device info start
  scattered : ∀ (mgr : FpgaManager History) (krealloc : Nat → Bool)
      (sgt : List (List Byte)), mgr.hw = start →
    (fpgaMgrBufLoadSg (machxo2Ops device) krealloc mgr info
      sgt).2.1.state = .operating → Genuine device info start

/-! ## When it holds -/

/--
Once the device is erased, `FAIL` is clear, or the status cannot be read and
neither can the next message be sent.
-/
def InitShows (info : FpgaImageInfo) (start : History) : Prop :=
  info.partialReconfig = false →
  ∀ ended, erase device start = (none, ended) →
    (register device ended).getLsbD failBit = false ∨
      (seen device ended).getLsbD failBit = false ∧
        (device (ended ++ [readStatus] ++ [[.tx lscInitaddress]])).ret ≠ none

/--
Once the programming is done, the status which is read has `DONE` set, and
either the message of a refresh fails or the device has been configured.
-/
def CompleteShows (written : History) : Prop :=
  ∀ ended, programDone device written = (none, ended) →
    (seen device ended).getLsbD doneBit = true ∧
      (RefreshFails device machxo2MaxRefreshLoop (ended ++ [readStatus]) ∨
        (register device ended).getLsbD doneBit = true ∧
          Refreshes device machxo2MaxRefreshLoop (ended ++ [readStatus]))

/-- The condition of a whole load. -/
structure Shows (info : FpgaImageInfo) (start : History) : Prop where
  init : InitShows device info start
  complete : ∀ written, Written device info start written →
    CompleteShows device written

variable {device}

/-! ## `write_init` -/

/-- What `machxo2_write_init` does once the device has been erased. -/
theorem writeInit_of_erased {info : FpgaImageInfo} {start ended : History}
    (full : info.partialReconfig = false)
    (erases : erase device start = (none, ended)) :
    (machxo2WriteInit device info start).1 = none ↔
      (seen device ended).getLsbD failBit = true ∨
        (device (ended ++ [readStatus] ++ [[.tx lscInitaddress]])).ret =
          none := by
  unfold machxo2WriteInit
  rw [full, if_neg Bool.false_ne_true, erases, andThen_of_ok]
  dsimp only
  cases (seen device ended).getLsbD failBit with
  | true =>
      rw [if_pos rfl]
      exact iff_of_true rfl (Or.inl rfl)
  | false =>
      rw [if_neg Bool.false_ne_true, andThen_succeeds_iff]
      constructor
      · rintro ⟨sends, -⟩
        exact Or.inr sends
      · rintro (fails | sends)
        · cases fails
        · exact ⟨sends, rfl⟩

theorem writeInit_of_notFull {info : FpgaImageInfo} {start : History}
    (isPartial : info.partialReconfig = true) :
    (machxo2WriteInit device info start).1 ≠ none := by
  unfold machxo2WriteInit
  rw [isPartial, if_pos rfl]
  exact nofun

theorem writeInit_of_fails {info : FpgaImageInfo} {start ended : History}
    {ret : Errno} (erases : erase device start = (some ret, ended)) :
    (machxo2WriteInit device info start).1 ≠ none := by
  unfold machxo2WriteInit
  rw [erases]
  cases info.partialReconfig <;> exact nofun

theorem failClear_iff {start ended : History}
    (erases : erase device start = (none, ended)) :
    FailClear device start ↔
      (register device ended).getLsbD failBit = false := by
  constructor
  · rintro ⟨other, also, clear⟩
    rw [erases] at also
    cases also
    exact clear
  · intro clear
    exact ⟨ended, erases, clear⟩

theorem init_reports_iff (info : FpgaImageInfo) (start : History) :
    ((machxo2WriteInit device info start).1 = none → FailClear device start) ↔
      InitShows device info start := by
  unfold InitShows
  cases reconfig : info.partialReconfig with
  | true =>
      exact iff_of_true (fun returns => absurd returns
        (writeInit_of_notFull reconfig)) nofun
  | false =>
      rcases erases : erase device start with ⟨- | ret, ended⟩
      case some =>
        exact iff_of_true (fun returns => absurd returns
          (writeInit_of_fails erases)) fun _ _ => nofun
      rw [writeInit_of_erased reconfig erases, failClear_iff erases]
      constructor
      · intro clear _ other also
        cases also
        by_cases returns : (seen device ended).getLsbD failBit = true ∨
            (device (ended ++ [readStatus] ++ [[.tx lscInitaddress]])).ret =
              none
        · exact Or.inl (clear returns)
        · rw [not_or, Bool.not_eq_true] at returns
          exact Or.inr returns
      · intro shows returns
        rcases shows rfl ended rfl with clear | ⟨notSeen, fails⟩
        · exact clear
        · rcases returns with looks | sends
          · rw [looks] at notSeen
            cases notSeen
          · exact absurd sends fails

/-! ## `write_complete` -/

/-- The loop returns an error only where a message fails. -/
theorem refreshLoop_fails_iff (left : Nat) (history : History) :
    (refreshLoop device left history).1 ≠ none ↔
      RefreshFails device left history := by
  induction left generalizing history with
  | zero =>
      refine iff_of_false (fun fails => fails rfl) ?_
      rintro ⟨last, tries, -⟩
      cases tries
  | succ left ih =>
      have sent : spiSync device [.tx lscRefresh] history =
          ((device (history ++ [refresh])).ret, history ++ [refresh]) := rfl
      unfold refreshLoop
      rw [sent]
      rcases refreshes : (device (history ++ [refresh])).ret with - | ret
      · rw [andThen_of_ok]
        dsimp only
        cases looks : configured (seen device (history ++ [refresh])) with
        | true =>
            rw [if_pos rfl]
            refine iff_of_false (fun fails => fails rfl) ?_
            rintro ⟨last, tries, fails⟩
            cases tries with
            | first => exact fails refreshes
            | next _ waits =>
                rw [looks] at waits
                cases waits
        | false =>
            rw [if_neg Bool.false_ne_true]
            have onlyLater : RefreshFails device (left + 1) history ↔
                RefreshFails device left
                  (history ++ [refresh] ++ [readStatus]) := by
              constructor
              · rintro ⟨last, tries, fails⟩
                cases tries with
                | first => exact absurd refreshes fails
                | next _ _ tries => exact ⟨last, tries, fails⟩
              · rintro ⟨last, tries, fails⟩
                exact ⟨last, .next refreshes looks tries, fails⟩
            rw [onlyLater]
            by_cases isLast : left = 0
            · rw [if_pos isLast, ← ih, isLast]
              exact Iff.rfl
            · rw [if_neg isLast]
              exact ih _
      · refine iff_of_true nofun ⟨history, .first left history, ?_⟩
        rw [refreshes]
        exact nofun

/-- What `machxo2_write_complete` does once the programming is done. -/
theorem writeComplete_of_done {written ended : History}
    (ends : programDone device written = (none, ended)) :
    (machxo2WriteComplete device written).1 ≠ none ↔
      (seen device ended).getLsbD doneBit = true ∧
        RefreshFails device machxo2MaxRefreshLoop (ended ++ [readStatus]) := by
  unfold machxo2WriteComplete
  rw [ends, andThen_of_ok]
  dsimp only
  cases (seen device ended).getLsbD doneBit with
  | true =>
      rw [if_pos rfl, refreshLoop_fails_iff]
      exact (and_iff_right rfl).symm
  | false =>
      rw [if_neg Bool.false_ne_true]
      refine iff_of_false (fun fails => fails rfl) ?_
      rintro ⟨looks, -⟩
      cases looks

theorem writeComplete_of_fails {written ended : History} {ret : Errno}
    (ends : programDone device written = (some ret, ended)) :
    (machxo2WriteComplete device written).1 ≠ none := by
  unfold machxo2WriteComplete
  rw [ends]
  exact nofun

theorem complete_reports_iff (written : History) :
    ((machxo2WriteComplete device written).1 = none →
        Configured device written) ↔ CompleteShows device written := by
  rcases ends : programDone device written with ⟨- | ret, ended⟩
  case some =>
    refine iff_of_true (fun returns => absurd returns
      (writeComplete_of_fails ends)) fun other also => ?_
    rw [ends] at also
    cases also
  have fails := writeComplete_of_done ends
  constructor
  · intro reports other also
    rw [ends] at also
    cases also
    by_cases returns : (machxo2WriteComplete device written).1 = none
    · obtain ⟨other, also, looks, done, refreshes⟩ := reports returns
      rw [ends] at also
      cases also
      exact ⟨looks, Or.inr ⟨done, refreshes⟩⟩
    · obtain ⟨looks, refreshFails⟩ := fails.mp returns
      exact ⟨looks, Or.inl refreshFails⟩
  · intro shows returns
    obtain ⟨looks, refreshFails | ⟨done, refreshes⟩⟩ := shows ended ends
    · exact absurd returns (fails.mpr ⟨looks, refreshFails⟩)
    · exact ⟨ended, ends, looks, done, refreshes⟩

/-! ## Loads -/

/-- A load in operation has run through all of its phases. -/
theorem genuine_of_operating {info : FpgaImageInfo}
    {start : History} (shows : Shows device info start)
    {init : Option Errno × FpgaManager History}
    {write : History → Option Errno × History}
    (inits : init.1 = none →
      machxo2WriteInit device info start = (none, init.2.hw))
    (failed : init.1 ≠ none → init.2.state ≠ .operating)
    (writes : ∀ ready written, write ready = (none, written) →
      Relation.ReflTransGen (Writes device) ready written)
    (operating :
      (loadPrepared (machxo2Ops device).toFpgaManagerOps info write
        init).2.1.state = .operating) :
    Genuine device info start := by
  obtain ⟨returns, written, next, wrote, completes⟩ :=
    phases_of_operating _ failed operating
  have ready := inits returns
  have isWritten : Written device info start written :=
    ⟨init.2.hw, ready, writes _ _ wrote⟩
  have init := (init_reports_iff info start).mpr shows.init
  have complete :=
    (complete_reports_iff written).mpr (shows.complete written isWritten)
  exact ⟨init (congrArg Prod.fst ready), written, isWritten,
    complete (congrArg Prod.fst completes)⟩

/-- A fragment after the other is written. -/
theorem writes_fragments {dataSize : Nat} {sgt : List (List Byte)}
    {count : Nat} {ready written : History}
    (wrote :
      fpgaMgrWriteFragments (machxo2Ops device).toFpgaManagerOps dataSize sgt
        count ready = (none, written)) :
    Relation.ReflTransGen (Writes device) ready written := by
  induction sgt generalizing count ready with
  | nil =>
      cases wrote
      exact .refl
  | cons fragment rest ih =>
      unfold fpgaMgrWriteFragments at wrote
      dsimp only at wrote
      generalize (if dataSize ≠ 0 then min fragment.length (dataSize - count)
        else fragment.length) = length at wrote
      rcases writes : fpgaMgrWrite (machxo2Ops device).toFpgaManagerOps ready
        (fragment.take length) with ⟨- | ret, between⟩
      · simp only [writes] at wrote
        have first : Writes device ready between := ⟨_, writes⟩
        split at wrote
        · cases wrote
          exact .single first
        · exact .head first (ih wrote)
      · simp only [writes] at wrote
        cases wrote

/-- The manager prepares as the driver does. -/
theorem writeInitBuf_inits {mgr : FpgaManager History} {info : FpgaImageInfo}
    {buf : List Byte}
    (inits :
      (fpgaMgrWriteInitBuf (machxo2Ops device).toFpgaManagerOps mgr info
        buf).1 = none) :
    machxo2WriteInit device info mgr.hw =
      (none,
        (fpgaMgrWriteInitBuf (machxo2Ops device).toFpgaManagerOps mgr info
          buf).2.hw) := by
  unfold fpgaMgrWriteInitBuf at inits ⊢
  by_cases larger : info.headerSize > buf.length
  · simp only [if_pos larger] at inits
    cases inits
  · simp only [if_neg larger, machxo2Ops] at inits ⊢
    rcases init : machxo2WriteInit device info mgr.hw with ⟨- | ret, ready⟩
    · rfl
    · simp only [init] at inits
      cases inits

theorem writeInitBuf_failed {Hw : Type} (mops : FpgaManagerOps Hw)
    (mgr : FpgaManager Hw) (info : FpgaImageInfo) (buf : List Byte)
    (fails : (fpgaMgrWriteInitBuf mops mgr info buf).1 ≠ none) :
    (fpgaMgrWriteInitBuf mops mgr info buf).2.state ≠ .operating := by
  unfold fpgaMgrWriteInitBuf at fails ⊢
  dsimp only at fails ⊢
  split at fails
  · exact nofun
  · exact absurd rfl fails

theorem genuine_of_mapped {info : FpgaImageInfo} {start : History}
    (shows : Shows device info start) (mgr : FpgaManager History)
    (image : List Byte) (begins : mgr.hw = start)
    (operating :
      (fpgaMgrBufLoadMapped (machxo2Ops device).toFpgaManagerOps mgr info
        image).2.1.state = .operating) : Genuine device info start := by
  have writes (data : List Byte) (ready written : History)
      (wrote : machxo2Write device data ready = (none, written)) :
      Relation.ReflTransGen (Writes device) ready written :=
    .single ⟨data, wrote⟩
  have noHeader : (machxo2Ops device).toFpgaManagerOps.parseHeader = none := rfl
  rw [fpgaMgrBufLoadMapped_eq] at operating
  by_cases outruns :
      (info.headerSize + info.dataSize) % 2 ^ 64 > image.length
  · have parse :
        fpgaMgrParseHeaderMapped (machxo2Ops device).toFpgaManagerOps mgr info
          image =
        (some .einval, { mgr with state := .parseHeaderErr }, info) := by
      simp only [fpgaMgrParseHeaderMapped, noHeader, if_pos outruns]
    rw [parse] at operating
    cases operating
  · have parse :
        fpgaMgrParseHeaderMapped (machxo2Ops device).toFpgaManagerOps mgr info
          image = (none, { mgr with state := .parseHeader }, info) := by
      simp only [fpgaMgrParseHeaderMapped, noHeader, if_neg outruns]
    rw [parse] at operating
    dsimp only at operating
    refine genuine_of_operating shows ?_ (writeInitBuf_failed _ _ _ _)
      (writes _) operating
    intro inits
    rw [← begins]
    exact writeInitBuf_inits inits

theorem genuine_of_scattered {info : FpgaImageInfo} {start : History}
    (shows : Shows device info start) (mgr : FpgaManager History)
    (krealloc : Nat → Bool) (sgt : List (List Byte)) (begins : mgr.hw = start)
    (operating :
      (fpgaMgrBufLoadSg (machxo2Ops device) krealloc mgr info
        sgt).2.1.state = .operating) : Genuine device info start := by
  rw [fpgaMgrBufLoadSg_eq] at operating
  have short : fpgaMgrPrepareSg (machxo2Ops device).toFpgaManagerOps krealloc
      mgr info sgt =
      (let init :=
        fpgaMgrWriteInitBuf (machxo2Ops device).toFpgaManagerOps mgr info []
      (init.1, init.2, info)) :=
    if_pos ⟨rfl, rfl⟩
  rw [short] at operating
  dsimp only at operating
  rw [Prod.mk.eta] at operating
  refine genuine_of_operating shows ?_ (writeInitBuf_failed _ _ _ _)
    ?_ operating
  · intro inits
    rw [← begins]
    exact writeInitBuf_inits inits
  · intro ready written wrote
    exact writes_fragments wrote

/--
Every failure is reported, and none leaves the manager in operation, exactly
if what the status register says of a failure goes with a message which fails.
-/
theorem reports_iff (device : SpiDevice) (info : FpgaImageInfo)
    (start : History) :
    Reports device info start ↔ Shows device info start := by
  constructor
  · intro reports
    constructor
    · exact (init_reports_iff info start).mp reports.init
    · intro written isWritten
      exact (complete_reports_iff written).mp
        (reports.complete written isWritten)
  · intro shows
    constructor
    · exact (init_reports_iff info start).mpr shows.init
    · intro written isWritten
      exact (complete_reports_iff written).mpr
        (shows.complete written isWritten)
    · exact genuine_of_mapped shows
    · intro mgr krealloc sgt
      exact genuine_of_scattered shows mgr krealloc sgt

/-- A device which has failed to be erased, and says so. -/
def failsErase : SpiDevice := fun _ =>
  { ret := none, status := 0x2000#32, left := 0#32 }

/-- `machxo2_write_init` succeeds although `FAIL` is set. -/
theorem fail_bit_not_reported :
    ¬ Reports failsErase
      { ident := 0, partialReconfig := false, regionId := 0, headerSize := 0,
        dataSize := 0, buf := [] } [] := by
  intro reports
  obtain ⟨ended, erases, clear⟩ := reports.init (by decide)
  have isSet : (0x2000#32).getLsbD failBit = true := by decide
  exact absurd (isSet.symm.trans clear) nofun

end LinuxDfl.Fpga.MachXo2

import Mathlib.Tactic.IntervalCases
import LinuxDfl.Fme.PrWrite
import LinuxDfl.Fpga.LoadCycle
import LinuxDfl.Lib.Monitor

/-!
# A load as the PR engine sees it

The operations of the FME manager, composed by the FPGA manager core.  The PR
engine expects a protocol: it is reset and has acknowledged that, is idle and
told its region before it is started, gets no more words than it has credit
for, and is told that the image is complete; an error which it reports is
written back.  A load keeps to it whatever the registers answer, and succeeds
exactly when the engine has gone through all of it without an error.
-/

namespace LinuxDfl.Fme.PrCycle

open LinuxDfl.Fme.PrWrite
open LinuxDfl.Fpga
open LinuxDfl.Kernel
open LinuxDfl.Lib.LittleEndian
open LinuxDfl.Lib.Monitor

/-! ## The driver -/

/-- `FME_PR_ERR` -/
def fmePrErr : Nat := 0x20

/-- `FME_PR_CTRL_PR_RST` -/
def fmePrCtrlPrRst : Field := bit 0
/-- `FME_PR_CTRL_PR_RSTACK` -/
def fmePrCtrlPrRstack : Field := bit 4
/-- `FME_PR_CTRL_PR_RGN_ID` -/
def fmePrCtrlPrRgnId : Field := genmask 9 7
/-- `FME_PR_CTRL_PR_COMPLETE` -/
def fmePrCtrlPrComplete : Field := bit 13
/-- `FME_PR_STS_PR_STS` -/
def fmePrStsPrSts : Field := bit 16
/-- `FME_PR_STS_PR_STS_IDLE` -/
def fmePrStsPrStsIdle : BitVec 64 := 0

/-- `struct fme_mgr_priv`, with the PR engine at its `ioaddr`. -/
structure FmeMgrPriv (Env : Type) where
  engine : PrEngine Env
  prError : BitVec 64

/-- The registers of the PR engine, and the clock of its polls. -/
structure PrHw (Env : Type) extends PrIo Env where
  /-- How many more reads a poll makes before its time has run out. -/
  polls : Env → Nat

variable {Env : Type}

/--
The loop of `readq_poll_timeout`, with this many reads before the time has run
out; the last of them is the one behind the time limit.
-/
def pollLoop (io : PrIo Env) (reg : Nat) (cond : BitVec 64 → Bool) :
    Nat → PrEngine Env → Option Errno × PrEngine Env
  | 0, engine =>
      let read := engine.readq io reg
      (if cond read.1 then none else some .etimedout, read.2)
  | count + 1, engine =>
      let read := engine.readq io reg
      if cond read.1 then (none, read.2)
      else pollLoop io reg cond count read.2

/-- `readq_poll_timeout` -/
def readqPollTimeout (io : PrHw Env) (reg : Nat) (cond : BitVec 64 → Bool)
    (engine : PrEngine Env) : Option Errno × PrEngine Env :=
  pollLoop io.toPrIo reg cond (io.polls engine.env + 1) engine

/-- A read of `FME_PR_CTRL`, and a write of the changed value. -/
def updateCtrl (io : PrIo Env) (change : BitVec 64 → BitVec 64)
    (engine : PrEngine Env) : PrEngine Env :=
  let prCtrl := engine.readq io fmePrCtrl
  prCtrl.2.writeq io fmePrCtrl (change prCtrl.1)

/-- `fme_mgr_pr_error_handle` -/
def fmeMgrPrErrorHandle (io : PrIo Env) (engine : PrEngine Env) :
    BitVec 64 × PrEngine Env :=
  let prStatus := engine.readq io fmePrSts
  if prStatus.1 &&& fmePrStsPrSts.mask = 0 then
    (0, prStatus.2)
  else
    let prError := prStatus.2.readq io fmePrErr
    (prError.1, prError.2.writeq io fmePrErr prError.1)

/-- `FME_PR_CTRL_PR_RSTACK` is read. -/
def resetAcked (prCtrl : BitVec 64) : Bool :=
  prCtrl &&& fmePrCtrlPrRstack.mask ≠ 0

/-- `FME_PR_STS_PR_STS` is read as idle. -/
def statusIdle (prStatus : BitVec 64) : Bool :=
  prStatus &&& fmePrStsPrSts.mask = fmePrStsPrStsIdle

/-- `FME_PR_CTRL_PR_START` is read as clear. -/
def startCleared (prCtrl : BitVec 64) : Bool :=
  prCtrl &&& fmePrCtrlPrStart.mask = 0

/-- `fme_mgr_write_init` -/
def fmeMgrWriteInit (io : PrHw Env) (info : FpgaImageInfo)
    (priv : FmeMgrPriv Env) : Option Errno × FmeMgrPriv Env :=
  if !info.partialReconfig then
    (some .einval, priv)
  else
    let engine :=
      updateCtrl io.toPrIo (· ||| fmePrCtrlPrRst.mask) priv.engine
    match readqPollTimeout io fmePrCtrl resetAcked engine with
    | (some _, engine) => (some .etimedout, { priv with engine := engine })
    | (none, engine) =>
        let engine :=
          updateCtrl io.toPrIo (· &&& ~~~fmePrCtrlPrRst.mask) engine
        match readqPollTimeout io fmePrSts statusIdle engine with
        | (some _, engine) =>
            let handled := fmeMgrPrErrorHandle io.toPrIo engine
            (some .etimedout, ⟨handled.2, handled.1⟩)
        | (none, engine) =>
            let handled := fmeMgrPrErrorHandle io.toPrIo engine
            let engine := updateCtrl io.toPrIo
              (fmePrCtrlPrRgnId.update · info.regionId) handled.2
            (none, ⟨engine, handled.1⟩)

/-- `fme_mgr_write_complete` -/
def fmeMgrWriteComplete (io : PrHw Env) (priv : FmeMgrPriv Env) :
    Option Errno × FmeMgrPriv Env :=
  let engine :=
    updateCtrl io.toPrIo (· ||| fmePrCtrlPrComplete.mask) priv.engine
  match readqPollTimeout io fmePrCtrl startCleared engine with
  | (some _, engine) => (some .etimedout, { priv with engine := engine })
  | (none, engine) =>
      let handled := fmeMgrPrErrorHandle io.toPrIo engine
      (if handled.1 = 0 then none else some .eio, ⟨handled.2, handled.1⟩)

/--
The errors of the PR engine, by their bits in `FME_PR_ERR`, with the bits of
`FPGA_MGR_STATUS_` which stand for them and the texts of `status_show`.
-/
def prErrors : List (BitVec 64 × BitVec 64 × String) :=
  [(.twoPow 64 0, .twoPow 64 0, "reconfig operation error\n"),
    (.twoPow 64 1, .twoPow 64 1, "reconfig CRC error\n"),
    (.twoPow 64 2, .twoPow 64 2, "reconfig incompatible image\n"),
    (.twoPow 64 3, .twoPow 64 3, "reconfig IP protocol error\n"),
    (.twoPow 64 4, .twoPow 64 4, "reconfig fifo overflow error\n")]

/-- `pr_error_to_mgr_status` -/
def prErrorToMgrStatus (err : BitVec 64) : BitVec 64 :=
  prErrors.foldl
    (fun status (errBit, statusBit, _) =>
      if err &&& errBit ≠ 0 then status ||| statusBit else status) 0

/-- `fme_mgr_status` -/
def fmeMgrStatus (priv : FmeMgrPriv Env) : BitVec 64 :=
  prErrorToMgrStatus priv.prError

/-- `status_show`, with the lines it prints -/
def statusShow (status : BitVec 64) : List String :=
  (prErrors.filter fun (_, statusBit, _) => status &&& statusBit ≠ 0).map
    fun (_, _, line) => line

/-- `fme_mgr_ops` -/
def fmeMgrOps (io : PrHw Env) : FpgaManagerSgOps (FmeMgrPriv Env) where
  initialHeaderSize := 0
  skipHeader := false
  parseHeader := none
  writeInit := some fun info _ priv => fmeMgrWriteInit io info priv
  write := some fun buf priv =>
    let written := fmeMgrWrite io.toPrIo buf priv.engine
    (written.1, { priv with engine := written.2 })
  writeComplete := some fun _ priv => fmeMgrWriteComplete io priv
  writeSg := none

/-- What a load hands to `fme_mgr_write`. -/
def pushedData (info : FpgaImageInfo) (buf : List Byte) : List Byte :=
  if info.dataSize ≠ 0 then buf.take info.dataSize else buf

/-! ## The protocol -/

/-- How far a load is, as the PR engine sees it. -/
inductive PrPhase where
  | start
  | resetting (acked : Bool)
  /-- The reset is released, and the engine has not been seen idle yet. -/
  | released
  | ready
  /-- The region is set. -/
  | selected
  | pushing
  | completing
  /-- The engine has cleared the request. -/
  | finished
  deriving DecidableEq

/-- What is known of a load from the accesses so far. -/
structure PrMonitor where
  phase : PrPhase
  /-- `FME_PR_CTRL` as it was read, for the write which follows. -/
  ctrl : Option (BitVec 64)
  /-- The words which are not pushed yet. -/
  left : List (BitVec 64)
  credit : Nat
  /-- The last access has read a status which is not idle. -/
  failing : Bool
  /-- The error which was read and is to be written back. -/
  unwritten : Option (BitVec 64)
  /-- The error of the engine as it was last looked at. -/
  error : Option (BitVec 64)
  deriving DecidableEq

/-- A load of these words has not begun. -/
def PrMonitor.initial (words : List (BitVec 64)) : PrMonitor :=
  ⟨.start, none, words, 0, false, none, none⟩

namespace PrMonitor

variable (monitor : PrMonitor) (val : BitVec 64)

/-- A read of `FME_PR_CTRL`, for a poll or for a write. -/
def readCtrl : Option PrMonitor :=
  let failing := monitor.failing
  let monitor := { monitor with failing := false }
  match monitor.phase with
  | .resetting false =>
      some { monitor with phase := .resetting (resetAcked val) }
  | .completing =>
      some (if startCleared val then
          { monitor with phase := .finished, error := none }
        else monitor)
  | .released | .finished => none
  -- Errors which the engine shows are cleared before the region is set.
  | .ready => if failing then none else some { monitor with ctrl := some val }
  | _ => some { monitor with ctrl := some val }

/-- A write of `FME_PR_CTRL`, which is to be the next request. -/
def writeCtrl (regionId : Nat) : Option PrMonitor :=
  let go (allowed : Bool) (next : PrPhase) : Option PrMonitor :=
    if allowed then
      some { monitor with
        failing := false, phase := next, ctrl := none, credit := 0 }
    else
      none
  match monitor.phase, monitor.ctrl with
  | .start, some ctrl =>
      go (val = ctrl ||| fmePrCtrlPrRst.mask) (.resetting false)
  | .resetting true, some ctrl =>
      go (val = ctrl &&& ~~~fmePrCtrlPrRst.mask) .released
  | .ready, some ctrl =>
      go (val = fmePrCtrlPrRgnId.update ctrl regionId) .selected
  | .selected, some ctrl =>
      go (val = ctrl ||| fmePrCtrlPrStart.mask) .pushing
  | .pushing, some ctrl =>
      go (val = ctrl ||| fmePrCtrlPrComplete.mask ∧ monitor.left = [])
        .completing
  | _, _ => none

/-- A read of `FME_PR_STS`. -/
def readSts : Option PrMonitor :=
  let looked := { monitor with
    failing := !statusIdle val
    error := if statusIdle val then some 0 else monitor.error }
  match monitor.phase with
  | .released =>
      some (if statusIdle val then { looked with phase := .ready }
        else looked)
  | .ready | .finished => some looked
  | .pushing =>
      some { monitor with
        failing := false, credit := fmePrStsPrCredit.get val - 1 }
  | _ => none

/-- A word is pushed: the next one of the image, and within credit. -/
def push : Option PrMonitor :=
  match monitor.phase, monitor.left with
  | .pushing, word :: left =>
      if val = word ∧ 0 < monitor.credit then
        some { monitor with
          failing := false, left := left, credit := monitor.credit - 1 }
      else
        none
  | _, _ => none

/-- A read of `FME_PR_ERR`, behind a status which is not idle. -/
def readErr : Option PrMonitor :=
  if monitor.failing then
    some { monitor with
      failing := false, unwritten := some val, error := some val }
  else
    none

/-- A write of `FME_PR_ERR`: what was read of it. -/
def writeErr : Option PrMonitor :=
  if monitor.unwritten = some val then
    some { monitor with failing := false, unwritten := none }
  else
    none

/-- An access, in a load for the region. -/
def observe (regionId : Nat) (monitor : PrMonitor) :
    Access → Option PrMonitor
  | .readq reg val =>
      if monitor.unwritten.isSome then none
      else if reg = fmePrCtrl then monitor.readCtrl val
      else if reg = fmePrSts then monitor.readSts val
      else if reg = fmePrErr then monitor.readErr val
      else none
  | .writeq reg val =>
      if reg = fmePrErr then monitor.writeErr val
      else if monitor.unwritten.isSome then none
      else if reg = fmePrCtrl then monitor.writeCtrl val regionId
      else if reg = fmePrData then monitor.push val
      else none

/-- The engine has gone through the load, and reports no error. -/
def Succeeded : Prop :=
  monitor.phase = .finished ∧ monitor.error = some 0

end PrMonitor

namespace PrMonitor

variable {monitor : PrMonitor} {regionId : Nat}

/-- Which access is which, while no error is to be written back. -/
theorem observe_of_written (written : monitor.unwritten = none)
    (val : BitVec 64) :
    monitor.observe regionId (.readq fmePrCtrl val) = monitor.readCtrl val ∧
      monitor.observe regionId (.readq fmePrSts val) = monitor.readSts val ∧
      monitor.observe regionId (.readq fmePrErr val) = monitor.readErr val ∧
      monitor.observe regionId (.writeq fmePrCtrl val) =
        monitor.writeCtrl val regionId ∧
      monitor.observe regionId (.writeq fmePrData val) =
        monitor.push val := by
  simp [observe, written, fmePrCtrl, fmePrSts, fmePrErr, fmePrData]

theorem observe_writeErr (val : BitVec 64) :
    monitor.observe regionId (.writeq fmePrErr val) =
      monitor.writeErr val := by
  simp [observe]

end PrMonitor

/-! ## What the accesses do to the monitor -/

section Monitored

variable (io : PrHw Env) {regionId : Nat}

/-- What the driver does to the engine takes the monitor from here to there. -/
def Sees (regionId : Nat) (before after : PrEngine Env)
    (first last : PrMonitor) : Prop :=
  Follows (PrMonitor.observe regionId) before.trace after.trace first last

theorem Sees.refl (engine : PrEngine Env) (monitor : PrMonitor) :
    Sees regionId engine engine monitor monitor := Follows.refl _ _

theorem Sees.trans {before between after : PrEngine Env}
    {first middle last : PrMonitor}
    (front : Sees regionId before between first middle)
    (back : Sees regionId between after middle last) :
    Sees regionId before after first last := Follows.trans front back

theorem sees_readq {reg : Nat} {engine : PrEngine Env}
    {first last : PrMonitor} (io : PrIo Env)
    (step :
      first.observe regionId (.readq reg (engine.readq io reg).1) =
        some last) :
    Sees regionId engine (engine.readq io reg).2 first last :=
  Follows.event step engine.trace

theorem sees_writeq {reg : Nat} {val : BitVec 64} {engine : PrEngine Env}
    {first last : PrMonitor} (io : PrIo Env)
    (step : first.observe regionId (.writeq reg val) = some last) :
    Sees regionId engine (engine.writeq io reg val) first last :=
  Follows.event step engine.trace

/-- The control register is read and written, with the request due. -/
theorem sees_updateCtrl {change : BitVec 64 → BitVec 64}
    {first last : PrMonitor} (engine : PrEngine Env) (io : PrIo Env)
    (written : first.unwritten = none)
    (reads : ∀ val, first.readCtrl val =
      some { first with failing := false, ctrl := some val })
    (writes : ∀ ctrl,
      ({ first with failing := false, ctrl := some ctrl } :
        PrMonitor).writeCtrl (change ctrl) regionId = some last) :
    Sees regionId engine (updateCtrl io change engine) first last := by
  have read :
      Sees regionId engine (engine.readq io fmePrCtrl).2 first
        { first with
          failing := false, ctrl := some (engine.readq io fmePrCtrl).1 } :=
    sees_readq io ((PrMonitor.observe_of_written written _).1.trans
      (reads _))
  refine read.trans (sees_writeq io ?_)
  rw [(PrMonitor.observe_of_written (by exact written) _).2.2.2.1]
  exact writes _

/--
A poll: each read which is not an answer leaves the monitor waiting, and an
answer leads on.
-/
theorem sees_pollLoop {reg : Nat} {cond : BitVec 64 → Bool}
    (waits ends : PrMonitor → Prop) (io : PrIo Env)
    (goesOn : ∀ monitor val, waits monitor → cond val = false →
      ∃ next, monitor.observe regionId (.readq reg val) = some next ∧
        waits next)
    (answered : ∀ monitor val, waits monitor → cond val = true →
      ∃ next, monitor.observe regionId (.readq reg val) = some next ∧
        ends next)
    (count : Nat) (engine : PrEngine Env) {first : PrMonitor}
    (waiting : waits first) :
    ∃ last,
      Sees regionId engine (pollLoop io reg cond count engine).2 first last ∧
        ((pollLoop io reg cond count engine).1 = none ∧ ends last ∨
          (pollLoop io reg cond count engine).1 = some .etimedout ∧
            waits last) := by
  induction count generalizing engine first with
  | zero =>
      cases isDone : cond (engine.readq io reg).1 with
      | true =>
          obtain ⟨next, step, atEnd⟩ := answered first _ waiting isDone
          refine ⟨next, sees_readq io step, Or.inl ⟨?_, atEnd⟩⟩
          simp [pollLoop, isDone]
      | false =>
          obtain ⟨next, step, still⟩ := goesOn first _ waiting isDone
          refine ⟨next, sees_readq io step, Or.inr ⟨?_, still⟩⟩
          simp [pollLoop, isDone]
  | succ count ih =>
      cases isDone : cond (engine.readq io reg).1 with
      | true =>
          obtain ⟨next, step, atEnd⟩ := answered first _ waiting isDone
          simp only [pollLoop, isDone, if_true]
          exact ⟨next, sees_readq io step, Or.inl ⟨trivial, atEnd⟩⟩
      | false =>
          obtain ⟨next, step, still⟩ := goesOn first _ waiting isDone
          obtain ⟨last, sees, how⟩ := ih (engine.readq io reg).2 still
          simp only [pollLoop, isDone, Bool.false_eq_true, if_false]
          exact ⟨last, (sees_readq io step).trans sees, how⟩

/-- The error of the engine is looked at, and written back. -/
theorem sees_errorHandle (engine : PrEngine Env) (io : PrIo Env)
    {first : PrMonitor} (written : first.unwritten = none)
    (phase :
      first.phase = .released ∨ first.phase = .ready ∨
        first.phase = .finished) :
    ∃ last,
      Sees regionId engine (fmeMgrPrErrorHandle io engine).2 first last ∧
        last.unwritten = none ∧ last.left = first.left ∧
          last.failing = false ∧
            last.error = some (fmeMgrPrErrorHandle io engine).1 ∧
              (last.phase = first.phase ∨
                first.phase = .released ∧ last.phase = .ready) := by
  cases isIdle : statusIdle (engine.readq io fmePrSts).1 with
  | true =>
      have quiet :
          (engine.readq io fmePrSts).1 &&& fmePrStsPrSts.mask = 0 :=
        of_decide_eq_true isIdle
      simp only [fmeMgrPrErrorHandle, quiet, if_true]
      rcases phase with isPhase | isPhase | isPhase
      · refine ⟨{ first with
            failing := false, error := some 0, phase := .ready },
          sees_readq io ?_, written, rfl, rfl, rfl, Or.inr ⟨isPhase, rfl⟩⟩
        rw [(PrMonitor.observe_of_written written _).2.1]
        simp [PrMonitor.readSts, isPhase, isIdle]
      all_goals
        refine ⟨{ first with failing := false, error := some 0 },
          sees_readq io ?_, written, rfl, rfl, rfl, Or.inl rfl⟩
        rw [(PrMonitor.observe_of_written written _).2.1]
        simp [PrMonitor.readSts, isPhase, isIdle]
  | false =>
      have failed :
          ¬ (engine.readq io fmePrSts).1 &&& fmePrStsPrSts.mask = 0 :=
        of_decide_eq_false isIdle
      simp only [fmeMgrPrErrorHandle, failed, if_false]
      have look :
          Sees regionId engine (engine.readq io fmePrSts).2 first
            { first with failing := true } := by
        refine sees_readq io ?_
        rw [(PrMonitor.observe_of_written written _).2.1]
        rcases phase with isPhase | isPhase | isPhase <;>
          simp [PrMonitor.readSts, isPhase, isIdle]
      have read :
          Sees regionId (engine.readq io fmePrSts).2
            ((engine.readq io fmePrSts).2.readq io fmePrErr).2
            { first with failing := true }
            { first with
              failing := false
              unwritten :=
                some ((engine.readq io fmePrSts).2.readq io fmePrErr).1
              error :=
                some ((engine.readq io fmePrSts).2.readq io fmePrErr).1 } := by
        refine sees_readq io ?_
        rw [(PrMonitor.observe_of_written (by exact written) _).2.2.1]
        rfl
      refine ⟨{ first with
          failing := false
          unwritten := none
          error :=
            some ((engine.readq io fmePrSts).2.readq io fmePrErr).1 },
        look.trans (read.trans (sees_writeq io ?_)), rfl, rfl, rfl, rfl,
        Or.inl rfl⟩
      rw [PrMonitor.observe_writeErr]
      exact if_pos rfl

/-! ## The operations -/

/-- Waiting for credit reads the status. -/
theorem sees_waitCredit (io : PrIo Env) (delay prCredit : Nat)
    (engine : PrEngine Env) {first : PrMonitor}
    (phase : first.phase = .pushing) (written : first.unwritten = none)
    (credit : first.credit = prCredit - 1) :
    let waited := waitCredit io delay prCredit engine
    ∃ last, Sees regionId engine waited.2.2.2 first last ∧
      last.phase = .pushing ∧ last.unwritten = none ∧
        last.credit = waited.2.2.1 - 1 ∧ last.left = first.left ∧
          last.error = first.error ∧
            (waited.1 = none → 1 < waited.2.2.1) := by
  fun_induction waitCredit io delay prCredit engine generalizing first with
  | case1 delay prCredit engine low timeout =>
      exact ⟨first, Sees.refl _ _, phase, written, credit, rfl, rfl,
        fun fine => by cases fine⟩
  | case2 delay prCredit engine low inTime prStatus =>
      rename_i ih
      have read :
          Sees regionId engine prStatus.2 first
            { first with
              failing := false
              credit := fmePrStsPrCredit.get prStatus.1 - 1 } := by
        refine sees_readq io ?_
        rw [(PrMonitor.observe_of_written written _).2.1]
        simp [PrMonitor.readSts, phase, prStatus]
      have onwards := @ih { first with
        failing := false
        credit := fmePrStsPrCredit.get prStatus.1 - 1 }
      obtain ⟨last, sees, kept⟩ := onwards phase written rfl
      exact ⟨last, read.trans sees, kept⟩
  | case3 delay prCredit engine enough =>
      exact ⟨first, Sees.refl _ _, phase, written, credit, rfl, rfl,
        fun _ => Nat.lt_of_not_le enough⟩

/-- The words of the image are pushed one after the other. -/
theorem sees_pushLoop (io : PrIo Env) (buf : List Byte)
    (delay prCredit : Nat) (engine : PrEngine Env) {first : PrMonitor}
    (phase : first.phase = .pushing) (written : first.unwritten = none)
    (credit : first.credit = prCredit - 1)
    (words : first.left = imageWords buf) :
    let pushed := pushLoop io buf delay prCredit engine
    ∃ last, Sees regionId engine pushed.2 first last ∧
      last.phase = .pushing ∧ last.unwritten = none ∧
        last.error = first.error ∧ (pushed.1 = none → last.left = []) := by
  fun_induction pushLoop io buf delay prCredit engine generalizing first with
  | case1 buf delay prCredit engine left ret delay' prCredit' engine' waits =>
      obtain ⟨last, sees, isPhase, isWritten, -, -, same, -⟩ :=
        sees_waitCredit io delay prCredit engine phase written credit
      rw [waits] at sees
      exact ⟨last, sees, isPhase, isWritten, same, fun fine => by cases fine⟩
  | case2 buf delay prCredit engine left delay' prCredit' engine' waits
      chunkSize prData =>
      rename_i ih
      obtain ⟨middle, sees, isPhase, isWritten, isCredit, isLeft, same,
        enough⟩ :=
        sees_waitCredit io delay prCredit engine phase written credit
      rw [waits] at sees isCredit enough
      have more := enough rfl
      rw [words, imageWords_chunk left] at isLeft
      simp only at isCredit more
      have push :
          Sees regionId engine' (engine'.writeq io fmePrData prData) middle
            { middle with
              failing := false
              left := imageWords (buf.drop chunkSize)
              credit := middle.credit - 1 } := by
        refine sees_writeq io ?_
        have some : 0 < middle.credit := by omega
        rw [(PrMonitor.observe_of_written isWritten _).2.2.2.2]
        simp [PrMonitor.push, isPhase, isLeft, some, prData, chunkSize]
      have onwards := @ih { middle with
        failing := false
        left := imageWords (buf.drop chunkSize)
        credit := middle.credit - 1 }
      obtain ⟨last, later, atEnd, isDone, error, finished⟩ :=
        onwards isPhase isWritten (by simp only; omega) rfl
      exact ⟨last, sees.trans (push.trans later), atEnd, isDone,
        error.trans same, finished⟩
  | case3 buf delay prCredit engine empty =>
      have nothing : buf = [] :=
        List.length_eq_zero_iff.mp (Nat.eq_zero_of_not_pos empty)
      refine ⟨first, Sees.refl _ _, phase, written, rfl, fun _ => ?_⟩
      rw [words, nothing]
      rfl

/-- The driver knows the error of the engine as it was last looked at. -/
structure PrMonitor.Tracks (monitor : PrMonitor) (before after : BitVec 64) :
    Prop where
  unwritten : monitor.unwritten = none
  error : after = monitor.error.getD before

/-- What is known while a poll waits, or when it is answered. -/
structure PrMonitor.At (monitor : PrMonitor) (phase : PrPhase)
    (words : List (BitVec 64)) : Prop where
  phase : monitor.phase = phase
  unwritten : monitor.unwritten = none
  left : monitor.left = words

/-- The reset is acknowledged, or time is up. -/
theorem sees_ackPoll (io : PrHw Env) (engine : PrEngine Env)
    {first : PrMonitor} {words : List (BitVec 64)}
    (isAt : first.At (.resetting false) words) (noError : first.error = none) :
    ∃ last,
      Sees regionId engine (readqPollTimeout io fmePrCtrl resetAcked engine).2
          first last ∧
        last.error = none ∧
          ((readqPollTimeout io fmePrCtrl resetAcked engine).1 = none ∧
              last.At (.resetting true) words ∨
            (readqPollTimeout io fmePrCtrl resetAcked engine).1 =
                some .etimedout ∧
              last.At (.resetting false) words) := by
  have step : ∀ acked : Bool, ∀ (monitor : PrMonitor) val,
      (monitor.At (.resetting false) words ∧ monitor.error = none) →
        resetAcked val = acked →
          ∃ next, monitor.observe regionId (.readq fmePrCtrl val) =
              some next ∧
            (next.At (.resetting acked) words ∧ next.error = none) := by
    rintro acked monitor val ⟨isAt, noError⟩ isAcked
    refine ⟨{ monitor with
      failing := false, phase := .resetting acked }, ?_,
      ⟨rfl, isAt.unwritten, isAt.left⟩, noError⟩
    rw [(PrMonitor.observe_of_written isAt.unwritten val).1,
      PrMonitor.readCtrl]
    simp only [isAt.phase, isAcked]
  obtain ⟨last, sees, ends⟩ :=
    sees_pollLoop _ _ io.toPrIo (step false) (step true)
      (io.polls engine.env + 1) engine ⟨isAt, noError⟩
  rcases ends with ⟨ret, isAt, noError⟩ | ⟨ret, isAt, noError⟩
  · exact ⟨last, sees, noError, Or.inl ⟨ret, isAt⟩⟩
  · exact ⟨last, sees, noError, Or.inr ⟨ret, isAt⟩⟩

/-- The engine is seen idle, or time is up. -/
theorem sees_idlePoll (io : PrHw Env) (engine : PrEngine Env)
    {first : PrMonitor} {words : List (BitVec 64)}
    (isAt : first.At .released words) :
    ∃ last,
      Sees regionId engine (readqPollTimeout io fmePrSts statusIdle engine).2
          first last ∧
        ((readqPollTimeout io fmePrSts statusIdle engine).1 = none ∧
            last.At .ready words ∨
          (readqPollTimeout io fmePrSts statusIdle engine).1 =
              some .etimedout ∧
            last.At .released words) := by
  refine sees_pollLoop (fun monitor => monitor.At .released words)
    (fun monitor => monitor.At .ready words) io.toPrIo ?_ ?_ _ engine isAt
  · intro monitor val isAt isBusy
    refine ⟨{ monitor with failing := true }, ?_,
      ⟨isAt.phase, isAt.unwritten, isAt.left⟩⟩
    rw [(PrMonitor.observe_of_written isAt.unwritten val).2.1]
    simp [PrMonitor.readSts, isAt.phase, isBusy]
  · intro monitor val isAt isIdle
    refine ⟨{ monitor with
      failing := false, error := some 0, phase := .ready }, ?_,
      ⟨rfl, isAt.unwritten, isAt.left⟩⟩
    rw [(PrMonitor.observe_of_written isAt.unwritten val).2.1]
    simp [PrMonitor.readSts, isAt.phase, isIdle]

/-- The engine clears the request, or time is up. -/
theorem sees_clearPoll (io : PrHw Env) (engine : PrEngine Env)
    {first : PrMonitor} (isAt : first.At .completing []) :
    ∃ last,
      Sees regionId engine
          (readqPollTimeout io fmePrCtrl startCleared engine).2 first last ∧
        ((readqPollTimeout io fmePrCtrl startCleared engine).1 = none ∧
            last.At .finished [] ∨
          (readqPollTimeout io fmePrCtrl startCleared engine).1 =
              some .etimedout ∧
            (last.At .completing [] ∧ last.error = first.error)) := by
  refine sees_pollLoop
    (fun monitor =>
      monitor.At .completing [] ∧ monitor.error = first.error)
    (fun monitor => monitor.At .finished []) io.toPrIo ?_ ?_ _ engine
    ⟨isAt, rfl⟩
  · rintro monitor val ⟨isAt, same⟩ isSet
    refine ⟨{ monitor with failing := false }, ?_,
      ⟨isAt.phase, isAt.unwritten, isAt.left⟩, same⟩
    rw [(PrMonitor.observe_of_written isAt.unwritten val).1]
    simp [PrMonitor.readCtrl, isAt.phase, isSet]
  · rintro monitor val ⟨isAt, -⟩ isClear
    refine ⟨{ monitor with
      failing := false, phase := .finished, error := none }, ?_,
      ⟨rfl, isAt.unwritten, isAt.left⟩⟩
    rw [(PrMonitor.observe_of_written isAt.unwritten val).1]
    simp [PrMonitor.readCtrl, isAt.phase, isClear]

/-- The control register requests the next phase. -/
theorem sees_request {first : PrMonitor} (engine : PrEngine Env)
    (io : PrIo Env) (change : BitVec 64 → BitVec 64) (next : PrPhase)
    (written : first.unwritten = none)
    (reads : ∀ val, first.readCtrl val =
      some { first with failing := false, ctrl := some val })
    (writes : ∀ ctrl,
      ({ first with failing := false, ctrl := some ctrl } :
        PrMonitor).writeCtrl (change ctrl) regionId =
          some { first with
            failing := false, phase := next, ctrl := none, credit := 0 }) :
    ∃ last, Sees regionId engine (updateCtrl io change engine) first last ∧
      last.At next first.left ∧ last.error = first.error ∧
        last.credit = 0 :=
  ⟨_, sees_updateCtrl engine io written reads writes,
    ⟨rfl, written, rfl⟩, rfl, rfl⟩

theorem sees_writeInit (io : PrHw Env) (info : FpgaImageInfo)
    (priv : FmeMgrPriv Env) (words : List (BitVec 64)) :
    ∃ last,
      Sees info.regionId priv.engine (fmeMgrWriteInit io info priv).2.engine
          (.initial words) last ∧
        last.Tracks priv.prError (fmeMgrWriteInit io info priv).2.prError ∧
          last.phase ≠ .finished ∧
            ((fmeMgrWriteInit io info priv).1 = none →
              last.At .selected words) := by
  unfold fmeMgrWriteInit
  by_cases partly : info.partialReconfig = true
  swap
  · simp only [partly, Bool.not_false, if_true]
    exact ⟨.initial words, Sees.refl _ _, ⟨rfl, rfl⟩,
      (by simp [PrMonitor.initial]), by simp⟩
  simp only [partly, Bool.not_true, Bool.false_eq_true, if_false]
  -- the reset is requested, and to be acknowledged
  obtain ⟨reset, seesReset, atReset, noError, -⟩ :=
    @sees_request Env info.regionId (.initial words) priv.engine io.toPrIo
      (· ||| fmePrCtrlPrRst.mask) (.resetting false) rfl (fun _ => rfl)
      fun _ => if_pos (decide_eq_true rfl)
  obtain ⟨acked, seesAck, stillNone, ack⟩ :=
    sees_ackPoll io (updateCtrl io.toPrIo (· ||| fmePrCtrlPrRst.mask)
      priv.engine) atReset noError
  rcases polled : readqPollTimeout io fmePrCtrl resetAcked
    (updateCtrl io.toPrIo (· ||| fmePrCtrlPrRst.mask) priv.engine)
    with ⟨ret, engine⟩
  rw [polled] at seesAck ack
  have seesAcked := seesReset.trans seesAck
  rcases ack with ⟨isNone, isAcked⟩ | ⟨isSome, isAcked⟩
  swap
  · obtain rfl : ret = some .etimedout := isSome
    refine ⟨acked, seesAcked, ⟨isAcked.unwritten, ?_⟩, ?_, ?_⟩
    · rw [stillNone]
      rfl
    · simp [isAcked.phase]
    · simp
  obtain rfl : ret = none := isNone
  dsimp only
  -- the reset is released
  obtain ⟨released, seesRelease, atRelease, -, -⟩ :=
    @sees_request Env info.regionId acked engine io.toPrIo
      (· &&& ~~~fmePrCtrlPrRst.mask) .released isAcked.unwritten
      (fun _ => by simp [PrMonitor.readCtrl, isAcked.phase])
      (fun _ => by simp [PrMonitor.writeCtrl, isAcked.phase])
  rw [isAcked.left] at atRelease
  obtain ⟨idle, seesIdle, ends⟩ := sees_idlePoll io
    (updateCtrl io.toPrIo (· &&& ~~~fmePrCtrlPrRst.mask) engine) atRelease
  rcases waited : readqPollTimeout io fmePrSts statusIdle
    (updateCtrl io.toPrIo (· &&& ~~~fmePrCtrlPrRst.mask) engine)
    with ⟨ret, engine⟩
  rw [waited] at seesIdle ends
  have seesWaited := seesAcked.trans (seesRelease.trans seesIdle)
  rcases ends with ⟨isNone, atIdle⟩ | ⟨isSome, atIdle⟩
  swap
  · obtain rfl : ret = some .etimedout := isSome
    obtain ⟨handled, seesError, unwritten, -, -, error, isPhase⟩ :=
      @sees_errorHandle Env info.regionId engine io.toPrIo idle
        atIdle.unwritten (Or.inl atIdle.phase)
    refine ⟨handled, seesWaited.trans seesError, ⟨unwritten, ?_⟩, ?_, ?_⟩
    · rw [error]
      rfl
    · rcases isPhase with same | ⟨-, ready⟩
      · simp [same, atIdle.phase]
      · simp [ready]
    · simp
  obtain rfl : ret = none := isNone
  obtain ⟨handled, seesError, unwritten, left, cleared, error, isPhase⟩ :=
    @sees_errorHandle Env info.regionId engine io.toPrIo idle
      atIdle.unwritten (Or.inr (Or.inl atIdle.phase))
  have isReady : handled.phase = .ready := by
    rcases isPhase with same | ⟨-, ready⟩
    · exact same.trans atIdle.phase
    · exact ready
  -- the region is set
  obtain ⟨selected, seesRegion, atRegion, same, -⟩ :=
    @sees_request Env info.regionId handled
      (fmeMgrPrErrorHandle io.toPrIo engine).2 io.toPrIo
      (fmePrCtrlPrRgnId.update · info.regionId) .selected unwritten
      (fun _ => by simp [PrMonitor.readCtrl, isReady, cleared])
      (fun _ => by simp [PrMonitor.writeCtrl, isReady])
  rw [left, atIdle.left] at atRegion
  refine ⟨selected, seesWaited.trans (seesError.trans seesRegion),
    ⟨atRegion.unwritten, ?_⟩, ?_, fun _ => atRegion⟩
  · rw [same, error]
    rfl
  · simp [atRegion.phase]

/-- The push of an image, once the region is set. -/
theorem sees_write (io : PrIo Env) (buf : List Byte) (engine : PrEngine Env)
    {first : PrMonitor} (isAt : first.At .selected (imageWords buf)) :
    ∃ last,
      Sees regionId engine (fmeMgrWrite io buf engine).2 first last ∧
        last.phase = .pushing ∧ last.unwritten = none ∧
          last.error = first.error ∧
            ((fmeMgrWrite io buf engine).1 = none → last.left = []) := by
  obtain ⟨started, seesStart, atStart, same, credit⟩ :=
    @sees_request Env regionId first engine io (· ||| fmePrCtrlPrStart.mask)
      .pushing isAt.unwritten
      (fun _ => by simp [PrMonitor.readCtrl, isAt.phase])
      (fun _ => by simp [PrMonitor.writeCtrl, isAt.phase])
  let engine' := updateCtrl io (· ||| fmePrCtrlPrStart.mask) engine
  let prStatus := engine'.readq io fmePrSts
  have read :
      Sees regionId engine' prStatus.2 started
        { started with
          failing := false
          credit := fmePrStsPrCredit.get prStatus.1 - 1 } := by
    refine sees_readq io ?_
    rw [(PrMonitor.observe_of_written atStart.unwritten _).2.1]
    simp [PrMonitor.readSts, atStart.phase, prStatus]
  obtain ⟨last, sees, phase, unwritten, error, finished⟩ :=
    @sees_pushLoop Env regionId io buf 0 (fmePrStsPrCredit.get prStatus.1)
      prStatus.2
      { started with
        failing := false, credit := fmePrStsPrCredit.get prStatus.1 - 1 }
      atStart.phase atStart.unwritten rfl (atStart.left.trans isAt.left)
  exact ⟨last, seesStart.trans (read.trans sees), phase, unwritten,
    error.trans same, finished⟩

/-- The end of a load whose words are all pushed. -/
theorem sees_writeComplete (io : PrHw Env) (priv : FmeMgrPriv Env)
    {before : BitVec 64} {first : PrMonitor} (isAt : first.At .pushing [])
    (tracks : first.Tracks before priv.prError) :
    ∃ last,
      Sees regionId priv.engine (fmeMgrWriteComplete io priv).2.engine
          first last ∧
        last.Tracks before (fmeMgrWriteComplete io priv).2.prError ∧
          last.left = [] ∧
            ((fmeMgrWriteComplete io priv).1 = none ↔ last.Succeeded) := by
  unfold fmeMgrWriteComplete
  dsimp only
  obtain ⟨completing, seesComplete, atComplete, same, -⟩ :=
    @sees_request Env regionId first priv.engine io.toPrIo
      (· ||| fmePrCtrlPrComplete.mask) .completing isAt.unwritten
      (fun _ => by simp [PrMonitor.readCtrl, isAt.phase])
      (fun _ => by simp [PrMonitor.writeCtrl, isAt.phase, isAt.left])
  rw [isAt.left] at atComplete
  obtain ⟨cleared, seesClear, ends⟩ := @sees_clearPoll Env regionId io
    (updateCtrl io.toPrIo (· ||| fmePrCtrlPrComplete.mask) priv.engine) _
    atComplete
  rcases waited : readqPollTimeout io fmePrCtrl startCleared
    (updateCtrl io.toPrIo (· ||| fmePrCtrlPrComplete.mask) priv.engine)
    with ⟨ret, engine⟩
  rw [waited] at seesClear ends
  have seesCleared := seesComplete.trans seesClear
  rcases ends with ⟨isNone, atClear⟩ | ⟨isSome, atClear, error⟩
  · obtain rfl : ret = none := isNone
    obtain ⟨last, seesError, unwritten, left, -, error, isPhase⟩ :=
      @sees_errorHandle Env regionId engine io.toPrIo cleared
        atClear.unwritten (Or.inr (Or.inr atClear.phase))
    have finished : last.phase = .finished := by
      rcases isPhase with same | ⟨released, -⟩
      · exact same.trans atClear.phase
      · exact absurd (atClear.phase.symm.trans released) (by simp)
    refine ⟨last, seesCleared.trans seesError, ⟨unwritten, ?_⟩,
      left.trans atClear.left, ?_⟩
    · rw [error]
      rfl
    · rw [PrMonitor.Succeeded, error]
      simp [finished]
  · obtain rfl : ret = some .etimedout := isSome
    refine ⟨cleared, seesCleared, ⟨atClear.unwritten, ?_⟩, atClear.left, ?_⟩
    · rw [error, same]
      exact tracks.error
    · simp [PrMonitor.Succeeded, atClear.phase]

end Monitored

/-! ## The status -/

/-- The lines of the errors which the engine reports. -/
def errorLines (err : BitVec 64) : List String :=
  (prErrors.filter fun (errBit, _, _) => err &&& errBit ≠ 0).map
    fun (_, _, line) => line

theorem and_twoPow_ne_zero (val : BitVec 64) {index : Nat}
    (inside : index < 64) :
    val &&& .twoPow 64 index ≠ 0 ↔ val.getLsbD index = true := by
  rw [BitVec.and_twoPow]
  cases set : val.getLsbD index with
  | true =>
      have isSet : (BitVec.twoPow 64 index).getLsbD index = true := by
        simp [inside]
      refine iff_of_true (fun none => ?_) rfl
      simp only [if_true] at none
      rw [none] at isSet
      simp at isSet
  | false => simp

/-- A bit of the status is set by the errors which stand for it. -/
theorem getLsbD_foldl_status (err : BitVec 64)
    (rows : List (BitVec 64 × BitVec 64 × String)) (status : BitVec 64)
    (index : Nat) :
    (rows.foldl
        (fun status (errBit, statusBit, _) =>
          if err &&& errBit ≠ 0 then status ||| statusBit else status)
        status).getLsbD index =
      (status.getLsbD index || rows.any fun (errBit, statusBit, _) =>
        decide (err &&& errBit ≠ 0) && statusBit.getLsbD index) := by
  induction rows generalizing status with
  | nil => simp
  | cons row rest ih =>
      obtain ⟨errBit, statusBit, line⟩ := row
      rw [List.foldl_cons, ih, List.any_cons, ← Bool.or_assoc]
      congr 1
      by_cases quiet : err &&& errBit = 0#64
      · simp [quiet]
      · simp [quiet]

/-- The bits of an error are those of its status. -/
theorem prErrorToMgrStatus_bit (err : BitVec 64) {index : Nat}
    (known : index < 5) :
    (prErrorToMgrStatus err).getLsbD index = err.getLsbD index := by
  rw [prErrorToMgrStatus, getLsbD_foldl_status]
  have bits : ∀ other < 64, decide (err &&& .twoPow 64 other ≠ 0) =
      err.getLsbD other := by
    intro other inside
    rw [Bool.decide_congr (and_twoPow_ne_zero err inside)]
    exact Bool.decide_eq_true
  simp only [prErrors, List.any_cons, List.any_nil, bits, Nat.reduceLT,
    BitVec.getLsbD_twoPow]
  interval_cases index <;> simp

/-- What the status file shows is what the engine has reported. -/
theorem statusShow_prError (err : BitVec 64) :
    statusShow (prErrorToMgrStatus err) = errorLines err := by
  rw [statusShow, errorLines]
  refine congrArg _ (List.filter_congr fun row member => ?_)
  have same : ∀ index < 5,
      decide (prErrorToMgrStatus err &&& .twoPow 64 index ≠ 0) =
        decide (err &&& .twoPow 64 index ≠ 0) := by
    intro index known
    refine decide_eq_decide.mpr ?_
    rw [and_twoPow_ne_zero _ (by omega), and_twoPow_ne_zero _ (by omega),
      prErrorToMgrStatus_bit err known]
  simp only [prErrors, List.mem_cons, List.not_mem_nil, or_false] at member
  rcases member with rfl | rfl | rfl | rfl | rfl
  · exact same 0 (by decide)
  · exact same 1 (by decide)
  · exact same 2 (by decide)
  · exact same 3 (by decide)
  · exact same 4 (by decide)

/-! ## Loads -/

namespace PrMonitor

variable {monitor next : PrMonitor} {regionId : Nat} {val : BitVec 64}

theorem readCtrl_left (step : monitor.readCtrl val = some next) :
    next.left = monitor.left := by
  unfold readCtrl at step
  dsimp only at step
  split at step
  case h_1 => cases step; rfl
  case h_2 =>
    cases step
    split <;> rfl
  case h_3 => cases step
  case h_4 => cases step
  case h_5 =>
    split at step
    · cases step
    · cases step
      rfl
  case h_6 => cases step; rfl

theorem writeCtrl_left (step : monitor.writeCtrl val regionId = some next) :
    next.left = monitor.left := by
  unfold writeCtrl at step
  dsimp only at step
  split at step
  case h_6 => cases step
  all_goals
    split at step
    · cases step
      rfl
    · cases step

theorem readSts_left (step : monitor.readSts val = some next) :
    next.left = monitor.left := by
  unfold readSts at step
  dsimp only at step
  split at step
  case h_1 =>
    cases step
    split <;> rfl
  case h_2 => cases step; rfl
  case h_3 => cases step; rfl
  case h_4 => cases step; rfl
  case h_5 => cases step

theorem readErr_left (step : monitor.readErr val = some next) :
    next.left = monitor.left := by
  unfold readErr at step
  split at step
  · cases step
    rfl
  · cases step

theorem writeErr_left (step : monitor.writeErr val = some next) :
    next.left = monitor.left := by
  unfold writeErr at step
  split at step
  · cases step
    rfl
  · cases step

theorem push_left (step : monitor.push val = some next) :
    monitor.left = val :: next.left := by
  unfold push at step
  split at step
  case h_1 word left isPhase isLeft =>
    split at step
    case isTrue allowed =>
      cases step
      rw [isLeft, allowed.1]
    case isFalse => cases step
  case h_2 => cases step

/-- Words are left over by all accesses but pushes. -/
theorem observe_left {access : Access}
    (step : monitor.observe regionId access = some next) :
    monitor.left = pushedWords [access] ++ next.left := by
  cases access with
  | readq reg val =>
      simp only [observe] at step
      have nothing : pushedWords [.readq reg val] = [] := rfl
      rw [nothing, List.nil_append]
      split_ifs at step
      · exact (readCtrl_left step).symm
      · exact (readSts_left step).symm
      · exact (readErr_left step).symm
  | writeq reg val =>
      simp only [observe] at step
      by_cases isData : reg = fmePrData
      · have pushes : pushedWords [.writeq reg val] = [val] := by
          simp [pushedWords, isData]
        rw [pushes]
        split_ifs at step with isErr isUnwritten isCtrl
        · exact absurd (isErr.symm.trans isData) (by decide)
        · exact absurd (isCtrl.symm.trans isData) (by decide)
        · exact push_left step
      · have nothing : pushedWords [.writeq reg val] = [] := by
          simp [pushedWords, isData]
        rw [nothing, List.nil_append]
        split_ifs at step
        · exact (writeErr_left step).symm
        · exact (writeCtrl_left step).symm

end PrMonitor

/-- Of the words of a load, those are pushed which are not left. -/
theorem pushedWords_of_run {regionId : Nat} {first last : PrMonitor}
    {added : List Access}
    (runs : run (PrMonitor.observe regionId) first added = some last) :
    pushedWords added ++ last.left = first.left := by
  refine run_induction
    (fun monitor before => pushedWords before ++ monitor.left = first.left)
    ?_ [] rfl runs
  intro monitor access next before kept step
  rw [pushedWords_append, List.append_assoc, ← PrMonitor.observe_left step]
  exact kept

/-- The phases of a load, with the monitor of its words. -/
structure Monitored (io : PrHw Env) (info : FpgaImageInfo)
    (words : List (BitVec 64)) (before after : FmeMgrPriv Env)
    (ret : Option Errno) (last : PrMonitor) : Prop where
  sees :
    Sees info.regionId before.engine after.engine (.initial words) last
  tracks : last.Tracks before.prError after.prError
  succeeded : ret = none ↔ last.Succeeded
  pushed : ret = none → last.left = []

theorem bufLoad_monitored (io : PrHw Env) (resources : LoadResources)
    (mgr : FpgaManager (FmeMgrPriv Env)) (info : FpgaImageInfo)
    (addr : Nat) (buf : List Byte) :
    let loaded := fpgaMgrBufLoad (fmeMgrOps io) resources mgr info addr buf
    ∃ last, Monitored io info (imageWords (pushedData info buf)) mgr.hw
      loaded.2.1.hw loaded.1 last := by
  intro loaded
  -- the driver is not called
  have refused : ∀ ret : Option Errno, ret ≠ none →
      Monitored io info (imageWords (pushedData info buf)) mgr.hw mgr.hw ret
        (.initial (imageWords (pushedData info buf))) := fun ret fails =>
    ⟨Sees.refl _ _, ⟨rfl, rfl⟩,
      iff_of_false fails (fun succeeded => by cases succeeded.1),
      fun fine => absurd fine fails⟩
  have isLoaded : loaded =
      fpgaMgrBufLoadMapped (fmeMgrOps io).toFpgaManagerOps mgr info buf :=
    if_pos rfl
  rw [isLoaded, fpgaMgrBufLoadMapped, fpgaMgrParseHeaderMapped]
  by_cases outruns : (info.headerSize + info.dataSize) % 2 ^ 64 > buf.length
  · simp only [fmeMgrOps, outruns, if_true]
    exact ⟨_, refused _ (by simp)⟩
  simp only [fmeMgrOps, outruns, if_false, fpgaMgrWriteInitBuf]
  by_cases large : info.headerSize > buf.length
  · simp only [large, if_true]
    exact ⟨_, refused _ (by simp)⟩
  simp only [large, if_false, Bool.false_eq_true, fpgaMgrWrite,
    fpgaMgrWriteComplete]
  obtain ⟨selected, seesInit, tracks, going, isAt⟩ :=
    sees_writeInit io info mgr.hw (imageWords (pushedData info buf))
  rcases inited : fmeMgrWriteInit io info mgr.hw with ⟨_ | ret, priv⟩
  swap
  · rw [inited] at seesInit tracks
    exact ⟨selected, seesInit, tracks,
      iff_of_false (by simp) (fun succeeded => going succeeded.1), by simp⟩
  rw [inited] at seesInit tracks isAt
  obtain ⟨pushing, seesWrite, phase, unwritten, same, finished⟩ :=
    @sees_write Env info.regionId io.toPrIo (pushedData info buf) priv.engine
      selected (isAt rfl)
  have seesPushed := seesInit.trans seesWrite
  have tracksPushed : pushing.Tracks mgr.hw.prError priv.prError :=
    ⟨unwritten, by rw [same]; exact tracks.error⟩
  rcases wrote : fmeMgrWrite io.toPrIo (pushedData info buf) priv.engine
    with ⟨_ | ret, engine⟩
  swap
  · rw [wrote] at seesPushed
    unfold pushedData at wrote
    simp only [wrote]
    exact ⟨pushing, seesPushed, tracksPushed,
      iff_of_false (by simp)
        (fun succeeded =>
          absurd (phase.symm.trans succeeded.1) (by decide)),
      by simp⟩
  rw [wrote] at seesPushed finished
  unfold pushedData at wrote
  simp only [wrote]
  obtain ⟨last, seesComplete, atEnd, left, succeeded⟩ :=
    @sees_writeComplete Env info.regionId io { priv with engine := engine }
      mgr.hw.prError pushing ⟨phase, unwritten, finished rfl⟩ tracksPushed
  rcases completed : fmeMgrWriteComplete io { priv with engine := engine }
    with ⟨_ | ret, priv'⟩
  all_goals
    rw [completed] at seesComplete atEnd succeeded
    exact ⟨last, seesPushed.trans seesComplete, atEnd, succeeded,
      fun _ => left⟩

end LinuxDfl.Fme.PrCycle

import LinuxDfl.Kernel.Errno
import LinuxDfl.Lib.Transition
import Mathlib.Data.BitVec

/-!
# The hot-plug check of QSFP modules

A delayed work looks every half second whether a module is plugged in.  If
one has come, the module and its controller are reset, page 0 of the module is
selected by three words on its I2C bus, up to ten times, and polling mode is
enabled.  The thread of the driver, which calls the check once, and removes
the device, and the check take turns access by access.
-/

namespace LinuxDfl.Net.QsfpMem

open LinuxDfl.Kernel

/-! ## Registers -/

/-- `CONF_OFF` -/
def confOff : Nat := 0x20

/-- `CONF_RST_MOD | CONF_RST_CON | CONF_MOD_SEL` -/
def confReset : BitVec 64 := 0x7

/-- `CONF_MOD_SEL` -/
def confModSel : BitVec 64 := 0x4

/-- `CONF_POLL_EN | CONF_MOD_SEL` -/
def confPollEn : BitVec 64 := 0x14

/-- The number of the bit `CONF_POLL_EN` -/
def pollEnBit : Nat := 4

/-- `DELAY_REG` -/
def delayReg : Nat := 0x38

/-- `I2C_TX_FIFO` -/
def i2cTxFifo : Nat := 0x40

/-- `I2C_ISR` -/
def i2cIsr : Nat := 0x50

/-- `I2C_ISR_CLEAR_FLAGS`: no acknowledgement, arbitration lost, overrun -/
def i2cIsrClearFlags : BitVec 32 := 0x1c

/-- `qsfp_init_i2c`, and the two writes behind it; the last one comes first. -/
def initWrites : List (Nat × BitVec 64) :=
  [(delayReg, 0xffffff), (i2cIsr, i2cIsrClearFlags.setWidth 64),
    -- `I2C_CTRL`, `I2C_SDA_HOLD`, `I2C_SCL_HIGH`, `I2C_SCL_LOW`, `I2C_ISER`
    (0x48, 0xf), (0x68, 60), (0x64, 80), (0x60, 170), (0x4c, 0x3)]

/--
The words of `send_qsfp_cmd_page0`: a start with the address of the module,
the register, and a stop
-/
def pageSelect : List (BitVec 32) := [0x2a0, 0x7f, 0x100]

/-- `QSFP_CHK_RDY_CNT` -/
def qsfpChkRdyCnt : Nat := 10

/-- `i2c_txcmp`, with the levels of the FIFO which are read in time -/
def i2cTxcmp (levels : List (BitVec 32)) : Option Errno :=
  if 0 ∈ levels then none else some .etimedout

/-- `check_qsfp_plugin`, which tests `MODPRSL` -/
def checkQsfpPlugin (status : BitVec 64) : Bool := !status.getLsbD 0

/-! ## The device -/

/-- `enum qsfp_init_status` -/
inductive QsfpInitStatus where
  | reset
  | done
  deriving DecidableEq, Repr

/-- Where a check is. -/
inductive CheckPc where
  | lock
  | readStat
  | resetModule
  | selectModule
  | initI2c
  /-- Words are still to be sent. -/
  | send (cnt : Nat) (words : List (BitVec 32))
  /-- At the last `i2c_txcmp`. -/
  | drain (cnt : Nat)
  | readIsr (cnt : Nat)
  | clearIsr (cnt : Nat)
  | enablePolling
  | setDone
  | unlock
  | schedule
  deriving DecidableEq, Repr

/-- Where the thread of the driver is. -/
inductive ProcPc where
  | initWork
  /-- In the call of `qsfp_check_hotplug` by `qsfp_init_work`. -/
  | checking
  | registerRegmap
  | bound
  /-- In front of `qsfp_remove_device`. -/
  | remove
  | cancel
  | flush
  | removed
  deriving DecidableEq, Repr

namespace ProcPc

/-- `qsfp_remove_device` has written its register. -/
def removing : ProcPc → Bool
  | cancel | flush | removed => true
  | _ => false

end ProcPc

/-- `struct qsfp`, with what was written to its registers. -/
structure Qsfp where
  init : QsfpInitStatus
  /-- The delayed work is pending. -/
  pending : Bool
  pc : ProcPc
  /-- The check which runs; it is called directly or by the work. -/
  run : Option CheckPc
  /-- What was written, the last write first. -/
  written : List (Nat × BitVec 64)
  /-- The words of the last page selection which were put into the FIFO. -/
  sequence : List (BitVec 32)
  /-- The status which was read behind them. -/
  isr : Option (BitVec 32)
  /-- An `i2c_send` of the last page selection has failed. -/
  timedOut : Bool
  deriving DecidableEq, Repr

/-- A device whose work is about to be initialised. -/
def probed : Qsfp where
  init := .reset
  pending := false
  pc := .initWork
  run := none
  written := []
  sequence := []
  isr := none
  timedOut := false

/-- The last write to `CONF_OFF` -/
def conf (written : List (Nat × BitVec 64)) : Option (BitVec 64) :=
  (written.find? fun write => write.1 = confOff).map Prod.snd

/-- `CONF_POLL_EN` was set by the last write. -/
def pollEn (written : List (Nat × BitVec 64)) : Bool :=
  (conf written).any fun value => value.getLsbD pollEnBit

namespace Qsfp

variable (qsfp : Qsfp)

/-- The check goes on. -/
def go (pc : CheckPc) : Qsfp := { qsfp with run := some pc }

/-- A register is written, and the check goes on. -/
def write (offset : Nat) (value : BitVec 64) (pc : CheckPc) : Qsfp :=
  { qsfp with written := (offset, value) :: qsfp.written, run := some pc }

/-- The start of `send_qsfp_cmd_page0` -/
def beginSequence (cnt : Nat) : Qsfp :=
  { qsfp with
    sequence := []
    isr := none
    timedOut := false
    run := some (.send cnt pageSelect) }

/-- Where a check goes on behind a word. -/
def behindWord (cnt : Nat) : List (BitVec 32) → CheckPc
  | [] => .drain cnt
  | words => .send cnt words

/-- `i2c_send`, whose result is not looked at -/
def i2cSend (word : BitVec 32) (levels : List (BitVec 32)) (pc : CheckPc) :
    Qsfp :=
  match i2cTxcmp levels with
  | none =>
      { qsfp.write i2cTxFifo (word.setWidth 64) pc with
        sequence := qsfp.sequence ++ [word] }
  | some _ => { qsfp.go pc with timedOut := true }

end Qsfp

/-! ## The check -/

/-- A step of a check, with what it reads. -/
inductive CheckAct where
  /-- The work is due, and its worker takes it. -/
  | start
  | go
  /-- `readq` of `STAT_OFF` -/
  | stat (status : BitVec 64)
  /-- The levels of the FIFO which are read in time. -/
  | poll (levels : List (BitVec 32))
  /-- `readl` of `I2C_ISR` -/
  | isr (st : BitVec 32)
  deriving DecidableEq, Repr

/-- The `if`s of `qsfp_check_hotplug` -/
def hotplug (qsfp : Qsfp) (pluggedIn : Bool) : Qsfp :=
  match pluggedIn, qsfp.init with
  | true, .reset => qsfp.go .resetModule
  | false, .done => { qsfp.go .unlock with init := .reset }
  | _, _ => qsfp.go .unlock

/-- A step of `qsfp_check_hotplug` -/
def checkStepAt (qsfp : Qsfp) (pc : CheckPc) (act : CheckAct) : Option Qsfp :=
  match pc, act with
  | .lock, .go => some (qsfp.go .readStat)
  | .readStat, .stat status =>
      some (hotplug qsfp (checkQsfpPlugin status))
  | .resetModule, .go =>
      some (qsfp.write confOff confReset .selectModule)
  | .selectModule, .go => some (qsfp.write confOff confModSel .initI2c)
  | .initI2c, .go =>
      some ({ qsfp with
        written := initWrites ++ qsfp.written }.beginSequence 0)
  | .send cnt (word :: words), .poll levels =>
      some (qsfp.i2cSend word levels (Qsfp.behindWord cnt words))
  | .drain cnt, .poll levels =>
      match i2cTxcmp levels with
      | none => some (qsfp.go (.readIsr cnt))
      | some _ => some (qsfp.go .unlock)
  | .readIsr cnt, .isr st =>
      some { qsfp.go (if st &&& i2cIsrClearFlags = 0 then .enablePolling
          else .clearIsr cnt) with
        isr := some st }
  | .clearIsr cnt, .go =>
      let next := qsfp.write i2cIsr (i2cIsrClearFlags.setWidth 64) .unlock
      some (if cnt + 1 < qsfpChkRdyCnt then next.beginSequence (cnt + 1)
        else next)
  | .enablePolling, .go => some (qsfp.write confOff confPollEn .setDone)
  | .setDone, .go => some { qsfp.go .unlock with init := .done }
  | .unlock, .go => some (qsfp.go .schedule)
  | .schedule, .go =>
      some { qsfp with
        -- the work is not queued while it is cancelled
        pending := qsfp.pc ≠ .flush
        run := none }
  | _, _ => none

/-- A step of the check which runs, or the start of one. -/
def checkStep (qsfp : Qsfp) (act : CheckAct) : Option Qsfp :=
  match qsfp.run with
  | some pc => checkStepAt qsfp pc act
  | none =>
      if act = .start ∧ qsfp.pending = true then
        some { qsfp.go .lock with pending := false }
      else none

/-! ## The thread of the driver -/

/-- A step of the thread. -/
inductive ProcAct where
  | initWork
  /-- `qsfp_init_work` returns. -/
  | return
  | registerRegmap (ret : Option Errno)
  /-- The driver is unbound. -/
  | unbind
  | write
  | cancel
  | flush
  deriving DecidableEq, Repr

/-- A step of `qsfp_dfl_probe` or of `qsfp_remove_device` -/
def procStep (qsfp : Qsfp) (act : ProcAct) : Option Qsfp :=
  match qsfp.pc, act with
  | .initWork, .initWork => some { qsfp.go .lock with pc := .checking }
  | .checking, .return =>
      if qsfp.run = none then some { qsfp with pc := .registerRegmap }
      else none
  | .registerRegmap, .registerRegmap ret =>
      some { qsfp with pc := if ret.isSome then .remove else .bound }
  | .bound, .unbind => some { qsfp with pc := .remove }
  | .remove, .write =>
      -- `qsfp->lock` is not taken
      some { qsfp with
        written := (confOff, confModSel) :: qsfp.written
        pc := .cancel }
  | .cancel, .cancel => some { qsfp with pending := false, pc := .flush }
  | .flush, .flush =>
      if qsfp.run = none then some { qsfp with pc := .removed } else none
  | _, _ => none

/-- What happens to a device. -/
inductive QsfpAct where
  | proc (act : ProcAct)
  | check (act : CheckAct)
  deriving DecidableEq, Repr

/-- A step of the driver or of a check. -/
def qsfpStep (qsfp : Qsfp) : QsfpAct → Option Qsfp
  | .proc act => procStep qsfp act
  | .check act => checkStep qsfp act

end LinuxDfl.Net.QsfpMem

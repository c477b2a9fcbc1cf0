import LinuxDfl.Fpga.CvpCredit
import LinuxDfl.Fpga.Manager
import LinuxDfl.Lib.Transition
import Mathlib.Tactic.IntervalCases

/-!
# Loads over CvP, one after the other

The operations of the CvP manager go through numbered steps: the clock and the
mode are switched, the control block is asked for the configuration and
answers, the transfer is started, and in the end all of it is taken back.  A
load which fails leaves the device in between, where the next one finds it.
-/

namespace LinuxDfl.Fpga.Cvp

open LinuxDfl.Kernel
open LinuxDfl.Lib.Traced
open LinuxDfl.Lib.Transition

/-! ## Registers -/

/-- `VSE_CVP_STATUS_CFG_RDY` -/
def statusCfgRdy : BitVec 32 := .twoPow 32 18
/-- `VSE_CVP_STATUS_CFG_ERR` -/
def statusCfgErr : BitVec 32 := .twoPow 32 19
/-- `VSE_CVP_STATUS_CVP_EN` -/
def statusCvpEn : BitVec 32 := .twoPow 32 20
/-- `VSE_CVP_STATUS_USERMODE` -/
def statusUsermode : BitVec 32 := .twoPow 32 21
/-- `VSE_CVP_STATUS_PLD_CLK_IN_USE` -/
def statusPldClkInUse : BitVec 32 := .twoPow 32 24

/-- `VSE_CVP_MODE_CTRL_CVP_MODE` -/
def modeCtrlCvpMode : BitVec 32 := .twoPow 32 0
/-- `VSE_CVP_MODE_CTRL_HIP_CLK_SEL` -/
def modeCtrlHipClkSel : BitVec 32 := .twoPow 32 1
/-- `VSE_CVP_MODE_CTRL_NUMCLKS_MASK` -/
def modeCtrlNumclksMask : BitVec 32 := 0xff00

/-- `VSE_CVP_PROG_CTRL_CONFIG` -/
def progCtrlConfig : BitVec 32 := .twoPow 32 0
/-- `VSE_CVP_PROG_CTRL_START_XFER` -/
def progCtrlStartXfer : BitVec 32 := .twoPow 32 1
/-- `VSE_CVP_PROG_CTRL_MASK` -/
def progCtrlMask : BitVec 32 := 0x3

/-- `VSE_UNCOR_ERR_CVP_CFG_ERR` -/
def uncorErrCvpCfgErr : BitVec 32 := .twoPow 32 5

/-- There is a `switch_clk` in `struct cvp_priv`. -/
def Version.switchesClk : Version → Bool
  | .v1 => true
  | .v2 => false

/-- There is a `clear_state` in `struct cvp_priv`. -/
def Version.clearsState : Version → Bool
  | .v1 => false
  | .v2 => true

/-- `poll_time_us` of `struct cvp_priv` -/
def Version.pollTimeUs : Version → Nat
  | .v1 => 10
  | .v2 => 1000000

/-- `user_time_us` of `struct cvp_priv` -/
def Version.userTimeUs : Version → Nat
  | .v1 => 2000
  | .v2 => 500000

/-- What the accesses to the device meet, by their number. -/
structure SessionEnv extends CvpEnv where
  /-- Whether `VSE_CVP_PROG_CTRL` can be read. -/
  progCtrlRead : Nat → Option Errno
  /-- Whether it can be written. -/
  progCtrlWrite : Nat → Option Errno
  /-- `VSE_UNCOR_ERR_STATUS` -/
  uncorErrStatus : Nat → BitVec 32

/-! ## The device -/

/--
`struct altera_cvp_conf`, and the device with its control registers, which are
read as they were written.
-/
structure CvpDev where
  conf : CvpConf
  numclks : Nat
  /-- `VSE_CVP_MODE_CTRL` -/
  modeCtrl : BitVec 32
  /-- `VSE_CVP_PROG_CTRL` -/
  progCtrl : BitVec 32
  /-- `CFG_RDY` has been read as set since `CONFIG` was set. -/
  ready : Bool
  /-- The words which have been written since `START_XFER` was set. -/
  received : List (BitVec 32)
  /-- The steps have been taken in order so far. -/
  kept : Bool
  deriving DecidableEq

namespace CvpDev

def cvpMode (dev : CvpDev) : Bool := dev.modeCtrl.getLsbD 0
def hipClkSel (dev : CvpDev) : Bool := dev.modeCtrl.getLsbD 1
def config (dev : CvpDev) : Bool := dev.progCtrl.getLsbD 0
def startXfer (dev : CvpDev) : Bool := dev.progCtrl.getLsbD 1

/-- The next access to the device. -/
def access (env : SessionEnv) (dev : CvpDev) : CvpDev :=
  { dev with conf := dev.conf.next env.toCvpEnv }

/-- What a read leaves in `val`: all bits are set if it fails. -/
def readVal : Except Errno (BitVec 32) → BitVec 32
  | .ok val => val
  | .error _ => BitVec.allOnes 32

/-- The read of `VSE_CVP_STATUS`. -/
def readStatus (env : SessionEnv) (dev : CvpDev) : BitVec 32 × CvpDev :=
  let val := readVal (env.status dev.conf.access)
  (val, { dev.access env with
    ready := dev.ready || (dev.config && val.getLsbD 18) })

/--
A write of `VSE_CVP_MODE_CTRL`.  The clock is switched before the mode is
entered, and neither is taken back while a configuration is asked for.
-/
def writeModeCtrl (val : BitVec 32) (dev : CvpDev) : CvpDev :=
  let enters := !dev.cvpMode && val.getLsbD 0
  let leaves := dev.cvpMode && !val.getLsbD 0 ||
    dev.hipClkSel && !val.getLsbD 1
  { dev with
    modeCtrl := val
    kept := dev.kept && (!enters || dev.hipClkSel) &&
      (!leaves || !dev.config && !dev.startXfer) }

/--
A write of `VSE_CVP_PROG_CTRL`.  A configuration is asked for in the mode,
while no transfer goes on; a transfer is started when the control block has
answered, and stopped no later than the configuration is taken back.
-/
def writeProgCtrl (val : BitVec 32) (dev : CvpDev) : CvpDev :=
  let asks := !dev.config && val.getLsbD 0
  let takesBack := dev.config && !val.getLsbD 0
  let starts := !dev.startXfer && val.getLsbD 1
  { dev with
    progCtrl := val
    ready := dev.ready && dev.config && val.getLsbD 0
    received := if starts then [] else dev.received
    kept := dev.kept &&
      (!asks || dev.cvpMode && dev.hipClkSel && !val.getLsbD 1) &&
      (!takesBack || !val.getLsbD 1) &&
      (!starts || dev.config && val.getLsbD 0 && dev.ready) }

/-- A dummy word, which is to be no data of a transfer. -/
def dummyWord (env : SessionEnv) (dev : CvpDev) : CvpDev :=
  { dev.access env with
    received := if dev.startXfer then dev.received ++ [0] else dev.received
    kept := dev.kept && !dev.startXfer }

/-- The transfer goes on. -/
def armed (dev : CvpDev) : Bool :=
  dev.cvpMode && dev.hipClkSel && dev.config && dev.startXfer && dev.ready

end CvpDev

open CvpDev

/-! ## The operations -/

/-- The loop of `altera_cvp_dummy_write` -/
def dummyWords (env : SessionEnv) : Nat → CvpDev → CvpDev
  | 0, dev => dev
  | count + 1, dev => dummyWords env count (dev.dummyWord env)

/-- `VSE_CVP_MODE_CTRL` with another `CVP_NUMCLKS` -/
def withNumclks (val : BitVec 32) (numclks : Nat) : BitVec 32 :=
  (val &&& ~~~modeCtrlNumclksMask) ||| BitVec.ofNat 32 (numclks <<< 8)

/-- `altera_cvp_dummy_write` -/
def alteraCvpDummyWrite (env : SessionEnv) (dev : CvpDev) : CvpDev :=
  dummyWords env 244 (dev.writeModeCtrl (withNumclks dev.modeCtrl 1))

/-- `conf->priv->switch_clk`, if there is one -/
def switchClk (env : SessionEnv) (version : Version) (dev : CvpDev) : CvpDev :=
  if version.switchesClk then alteraCvpDummyWrite env dev else dev

/-- The loop of `altera_cvp_wait_status` -/
def waitLoop (env : SessionEnv) (statusMask statusVal : BitVec 32) :
    Nat → CvpDev → Option Errno × CvpDev
  | 0, dev => (some .etimedout, dev)
  | retries + 1, dev =>
      let read := dev.readStatus env
      if read.1 &&& statusMask = statusVal then (none, read.2)
      else waitLoop env statusMask statusVal retries read.2

/-- `altera_cvp_wait_status` -/
def alteraCvpWaitStatus (env : SessionEnv) (statusMask statusVal : BitVec 32)
    (timeoutUs : Nat) (dev : CvpDev) : Option Errno × CvpDev :=
  let retries := timeoutUs / 10 + if timeoutUs % 10 ≠ 0 then 1 else 0
  waitLoop env statusMask statusVal retries dev

/-- `altera_cvp_chk_error`, if the debugging option is set -/
def chkError (env : SessionEnv) (dev : CvpDev) : Option Errno × CvpDev :=
  let number := dev.conf.access
  let dev := dev.access env
  if env.chkcfg number then
    let failed := match env.status dev.conf.access with
      | .error _ => true
      | .ok val => val.getLsbD 19
    let dev := (dev.readStatus env).2
    (if failed then some (.other 71) else none, dev)
  else (none, dev)

/-- `altera_cvp_v2_clear_state` -/
def alteraCvpV2ClearState (env : SessionEnv) (version : Version)
    (dev : CvpDev) : Option Errno × CvpDev :=
  match env.progCtrlRead dev.conf.access with
  | some ret => (some ret, dev.access env)
  | none =>
      let dev := dev.access env
      match env.progCtrlWrite dev.conf.access with
      | some ret => (some ret, dev.access env)
      | none =>
          let dev := dev.writeProgCtrl (dev.progCtrl &&& ~~~progCtrlMask)
          alteraCvpWaitStatus env statusCfgRdy 0 version.pollTimeUs
            (dev.access env)

/-- `conf->priv->clear_state`, if there is one -/
def clearState (env : SessionEnv) (version : Version) (dev : CvpDev) :
    Option Errno × CvpDev :=
  if version.clearsState then alteraCvpV2ClearState env version dev
  else (none, dev)

/-- `altera_cvp_teardown` -/
def alteraCvpTeardown (env : SessionEnv) (version : Version) (dev : CvpDev) :
    Option Errno × CvpDev :=
  -- step 12 and step 13
  let dev := dev.writeProgCtrl (dev.progCtrl &&& ~~~progCtrlStartXfer)
  let dev := dev.writeProgCtrl (dev.progCtrl &&& ~~~progCtrlConfig)
  -- step 14 and step 15
  alteraCvpWaitStatus env statusCfgRdy 0 version.pollTimeUs
    (switchClk env version dev)

/-- `struct fpga_image_info`, with the other flags which the manager reads. -/
structure CvpImageInfo where
  /-- `FPGA_MGR_PARTIAL_RECONFIG` -/
  partialReconfig : Bool
  /-- `FPGA_MGR_COMPRESSED_BITSTREAM` -/
  compressedBitstream : Bool
  /-- `FPGA_MGR_ENCRYPTED_BITSTREAM` -/
  encryptedBitstream : Bool
  deriving DecidableEq

/-- The clock to data ratio of an image -/
def CvpImageInfo.numclks (info : CvpImageInfo) : Nat :=
  if info.compressedBitstream then 8
  else if info.encryptedBitstream then 4
  else 1

/-- Step 1 of `altera_cvp_write_init` -/
def writeInitStatus (env : SessionEnv) (version : Version) (dev : CvpDev) :
    Option Errno × CvpDev :=
  let status := dev.readStatus env
  if status.1 &&& statusCvpEn = 0 then (some .enodev, status.2)
  else if status.1 &&& statusCfgRdy ≠ 0 then
    alteraCvpTeardown env version status.2
  else (none, status.2)

/-- Step 2 and step 3 of `altera_cvp_write_init` -/
def writeInitMode (env : SessionEnv) (version : Version) (dev : CvpDev) :
    Option Errno × CvpDev :=
  let dev := dev.writeModeCtrl (dev.modeCtrl ||| modeCtrlHipClkSel)
  let dev := dev.writeModeCtrl (dev.modeCtrl ||| modeCtrlCvpMode)
  clearState env version (switchClk env version dev)

/-- Step 4 to step 6 of `altera_cvp_write_init` -/
def writeInitConfig (env : SessionEnv) (version : Version) (dev : CvpDev) :
    Option Errno × CvpDev :=
  let dev := { dev with conf := dev.conf.writeInit }
  let dev := dev.writeProgCtrl (dev.progCtrl ||| progCtrlConfig)
  match alteraCvpWaitStatus env statusCfgRdy statusCfgRdy version.pollTimeUs
    dev with
  | (some ret, dev) => (some ret, dev)
  | (none, dev) => chkError env (switchClk env version dev)

/-- Step 7 and step 8 of `altera_cvp_write_init` -/
def writeInitStart (version : Version) (dev : CvpDev) : CvpDev :=
  let dev := dev.writeProgCtrl (dev.progCtrl ||| progCtrlStartXfer)
  if version.switchesClk then
    dev.writeModeCtrl (withNumclks dev.modeCtrl dev.numclks)
  else dev

/-- Step 4 to step 8 of `altera_cvp_write_init` -/
def writeInitTransfer (env : SessionEnv) (version : Version) (dev : CvpDev) :
    Option Errno × CvpDev :=
  match writeInitConfig env version dev with
  | (some ret, dev) => (some ret, dev)
  | (none, dev) => (none, writeInitStart version dev)

/-- `altera_cvp_write_init` -/
def alteraCvpWriteInit (env : SessionEnv) (version : Version)
    (info : CvpImageInfo) (dev : CvpDev) : Option Errno × CvpDev :=
  if info.partialReconfig then (some .einval, dev)
  else
    match writeInitStatus env version { dev with numclks := info.numclks } with
    | (some ret, dev) => (some ret, dev)
    | (none, dev) =>
        match writeInitMode env version dev with
        | (some ret, dev) => (some ret, dev)
        | (none, dev) => writeInitTransfer env version dev

/-- `altera_cvp_write`, on a device with its registers -/
def writeImage (env : SessionEnv) (version : Version) (call : WriteCall)
    (dev : CvpDev) : Option Errno × CvpDev :=
  let run := alteraCvpWrite env.toCvpEnv version call.memory call.count dev.conf
  let data := wordsOf run.events
  (match run.result with
    | .ok _ => none
    | .error ret => some ret,
    { dev with
      conf := run.state
      received := if dev.startXfer then dev.received ++ data else dev.received
      kept := dev.kept && (data.isEmpty || dev.armed) })

/-- `altera_cvp_write_complete` -/
def alteraCvpWriteComplete (env : SessionEnv) (version : Version)
    (dev : CvpDev) : Option Errno × CvpDev :=
  match alteraCvpTeardown env version dev with
  | (some ret, dev) => (some ret, dev)
  | (none, dev) =>
      let number := dev.conf.access
      let dev := dev.access env
      -- step 16
      if env.uncorErrStatus number &&& uncorErrCvpCfgErr ≠ 0 then
        (some (.other 71), dev)
      else
        -- step 17 and step 18
        let dev := dev.writeModeCtrl
          (dev.modeCtrl &&& ~~~modeCtrlHipClkSel &&& ~~~modeCtrlCvpMode)
        let mask := statusPldClkInUse ||| statusUsermode
        alteraCvpWaitStatus env mask mask version.userTimeUs dev

/-! ## Loads -/

/-- Where the manager is, between its calls of the driver. -/
inductive LoadState where
  | unknown
  | loading
  | operating
  | failed
  deriving DecidableEq

/-- Where the manager is after a call of the driver. -/
def LoadState.orFailed (state : LoadState) : Option Errno → LoadState
  | none => state
  | some _ => .failed

/-- The manager and its device. -/
structure CvpMgr where
  state : LoadState
  dev : CvpDev
  /-- What the load has been given so far. -/
  image : List (BitVec 32)
  deriving DecidableEq

/-- What the manager core does with its driver. -/
inductive CvpAct where
  | writeInit (info : CvpImageInfo)
  | write (call : WriteCall)
  | writeComplete
  /-- The core gives a load up for reasons of its own. -/
  | giveUp

/--
An act of the core: it writes an image only when the driver is prepared, and
completes a load only when all of it has been written.
-/
def CvpMgr.perform (env : SessionEnv) (version : Version) (mgr : CvpMgr) :
    CvpAct → Option CvpMgr
  | .writeInit info =>
      if mgr.state = .loading then none
      else
        let inited := alteraCvpWriteInit env version info mgr.dev
        some ⟨LoadState.loading.orFailed inited.1, inited.2, []⟩
  | .write call =>
      if mgr.state ≠ .loading then none
      else
        let written := writeImage env version call mgr.dev
        some ⟨LoadState.loading.orFailed written.1, written.2,
          mgr.image ++ imageWords call.buf⟩
  | .writeComplete =>
      if mgr.state ≠ .loading then none
      else
        let completed := alteraCvpWriteComplete env version mgr.dev
        some ⟨LoadState.operating.orFailed completed.1, completed.2,
          mgr.image⟩
  | .giveUp =>
      if mgr.state ≠ .loading then none
      else some { mgr with state := .failed }

/-! ## What is asked of the loads -/

namespace CvpDev

/-- All which a load sets is taken back. -/
def atRest (dev : CvpDev) : Bool :=
  !dev.cvpMode && !dev.hipClkSel && !dev.config && !dev.startXfer

end CvpDev

/--
The steps have been taken in order; a transfer which goes on has been given
the image and nothing else; and a load which succeeds leaves nothing set.
-/
structure CvpMgr.Safe (mgr : CvpMgr) : Prop where
  kept : mgr.dev.kept = true
  received : mgr.state = .loading → mgr.dev.received = mgr.image
  atRest : mgr.state = .operating → mgr.dev.atRest = true

/--
A load of version 1 begins while a transfer goes on, on a device which reads
as enabled and not as ready.
-/
structure Stale (env : SessionEnv) (version : Version) (info : CvpImageInfo)
    (dev : CvpDev) : Prop where
  isV1 : version = .v1
  full : info.partialReconfig = false
  startXfer : dev.startXfer = true
  enabled : (dev.readStatus env).1 &&& statusCvpEn ≠ 0
  notReady : (dev.readStatus env).1 &&& statusCfgRdy = 0

instance (env : SessionEnv) (version : Version) (info : CvpImageInfo)
    (dev : CvpDev) : Decidable (Stale env version info dev) :=
  decidable_of_iff
    (version = .v1 ∧ info.partialReconfig = false ∧ dev.startXfer = true ∧
      (dev.readStatus env).1 &&& statusCvpEn ≠ 0 ∧
      (dev.readStatus env).1 &&& statusCfgRdy = 0)
    ⟨fun ⟨isV1, full, startXfer, enabled, notReady⟩ =>
        ⟨isV1, full, startXfer, enabled, notReady⟩,
      fun stale => ⟨stale.isV1, stale.full, stale.startXfer, stale.enabled,
        stale.notReady⟩⟩

/-- No load begins so. -/
def NotStale (env : SessionEnv) (version : Version) (mgr : CvpMgr) :
    CvpAct → Prop
  | .writeInit info => ¬ Stale env version info mgr.dev
  | _ => True

instance (env : SessionEnv) (version : Version) (mgr : CvpMgr) :
    ∀ act, Decidable (NotStale env version mgr act)
  | .writeInit info => inferInstanceAs
      (Decidable (¬ Stale env version info mgr.dev))
  | .write _ => inferInstanceAs (Decidable True)
  | .writeComplete => inferInstanceAs (Decidable True)
  | .giveUp => inferInstanceAs (Decidable True)

/-! ## Accesses which change nothing -/

/-- The bits of a load stay as they are. -/
structure Quiet (before after : CvpDev) : Prop where
  cvpMode : after.cvpMode = before.cvpMode
  hipClkSel : after.hipClkSel = before.hipClkSel
  progCtrl : after.progCtrl = before.progCtrl
  kept : after.kept = before.kept
  received : after.received = before.received
  ready : before.ready = true → after.ready = true
  agrees : ∀ version, Agrees version 0 before.conf →
    Agrees version 0 after.conf

namespace Quiet

variable {first before between after : CvpDev}

theorem refl (dev : CvpDev) : Quiet dev dev :=
  ⟨rfl, rfl, rfl, rfl, rfl, id, fun _ => id⟩

theorem trans (front : Quiet before between) (back : Quiet between after) :
    Quiet before after where
  cvpMode := back.cvpMode.trans front.cvpMode
  hipClkSel := back.hipClkSel.trans front.hipClkSel
  progCtrl := back.progCtrl.trans front.progCtrl
  kept := back.kept.trans front.kept
  received := back.received.trans front.received
  ready := fun isReady => back.ready (front.ready isReady)
  agrees := fun version agrees =>
    back.agrees version (front.agrees version agrees)

theorem config (quiet : Quiet before after) : after.config = before.config :=
  congrArg (BitVec.getLsbD · 0) quiet.progCtrl

theorem startXfer (quiet : Quiet before after) :
    after.startXfer = before.startXfer :=
  congrArg (BitVec.getLsbD · 1) quiet.progCtrl

end Quiet

variable (env : SessionEnv) {version : Version}

theorem quiet_access (dev : CvpDev) : Quiet dev (dev.access env) :=
  ⟨rfl, rfl, rfl, rfl, rfl, id, fun version => agrees_stable version 0 _⟩

theorem quiet_readStatus (dev : CvpDev) :
    Quiet dev (dev.readStatus env).2 := by
  refine ⟨rfl, rfl, rfl, rfl, rfl, fun isReady => ?_,
    fun version => agrees_stable version 0 _⟩
  simp [readStatus, isReady]

theorem quiet_waitLoop (statusMask statusVal : BitVec 32) (retries : Nat)
    (dev : CvpDev) :
    Quiet dev (waitLoop env statusMask statusVal retries dev).2 := by
  induction retries generalizing dev with
  | zero => exact Quiet.refl dev
  | succ retries ih =>
      have read : Quiet dev (dev.readStatus env).2 := quiet_readStatus env dev
      simp only [waitLoop]
      split_ifs with found
      · exact read
      · exact read.trans (ih _)

theorem quiet_waitStatus (statusMask statusVal : BitVec 32)
    (timeoutUs : Nat) (dev : CvpDev) :
    Quiet dev
      (alteraCvpWaitStatus env statusMask statusVal timeoutUs dev).2 :=
  quiet_waitLoop env statusMask statusVal _ dev

/-- A bit which has been set is set, and the others stay as they are. -/
theorem bit_set (val : BitVec 32) {bit i : Nat} (inside : i < 32) :
    (val ||| .twoPow 32 bit).getLsbD i =
      (val.getLsbD i || decide (i = bit)) := by
  by_cases same : bit = i
  · simp [same, inside]
  · simp [inside, Ne.symm same]

/-- A bit which has been cleared is clear, and the others stay. -/
theorem bit_clear (val : BitVec 32) {bit i : Nat} (inside : i < 32) :
    (val &&& ~~~.twoPow 32 bit).getLsbD i =
      (val.getLsbD i && decide (i ≠ bit)) := by
  by_cases same : bit = i
  · simp [same, inside]
  · simp [inside, Ne.symm same]

/-- The bits of a mask are cleared. -/
theorem mask_clears (val : BitVec 32) {mask : BitVec 32} {bit : Nat}
    (isSet : mask.getLsbD bit = true) :
    (val &&& ~~~mask).getLsbD bit = false := by
  rw [BitVec.getLsbD_and, BitVec.getLsbD_not, isSet, Bool.not_true,
    Bool.and_false, Bool.and_false]

/-- The bit of a mask which has one is read. -/
theorem bit_of_and {val : BitVec 32} {bit : Nat} (inside : bit < 32)
    (same : val &&& .twoPow 32 bit = .twoPow 32 bit) :
    val.getLsbD bit = true := by
  have read := congrArg (BitVec.getLsbD · bit) same
  simpa [inside] using read

/-- What has been waited for is known. -/
theorem ready_of_waitLoop {env : SessionEnv} {retries : Nat} {dev : CvpDev}
    (config : dev.config = true)
    (found : (waitLoop env statusCfgRdy statusCfgRdy retries dev).1 = none) :
    (waitLoop env statusCfgRdy statusCfgRdy retries dev).2.ready = true := by
  induction retries generalizing dev with
  | zero => cases found
  | succ retries ih =>
      simp only [waitLoop] at found ⊢
      split_ifs at found ⊢ with isSet
      · have bit := bit_of_and (by decide) isSet
        simp only [readStatus] at bit ⊢
        rw [config, bit, Bool.true_and, Bool.or_true]
      · exact ih (((quiet_readStatus env dev).config).trans config) found

theorem quiet_chkError (dev : CvpDev) : Quiet dev (chkError env dev).2 := by
  unfold chkError
  cases checks : env.chkcfg dev.conf.access with
  | true =>
      simp only [checks, if_true]
      exact (quiet_access env dev).trans (quiet_readStatus env _)
  | false =>
      simp only [checks, Bool.false_eq_true, if_false]
      exact quiet_access env dev

/-- A write of the mode register which leaves its bits. -/
theorem quiet_writeModeCtrl {val : BitVec 32} {dev : CvpDev}
    (cvpMode : val.getLsbD 0 = dev.cvpMode)
    (hipClkSel : val.getLsbD 1 = dev.hipClkSel) :
    Quiet dev (dev.writeModeCtrl val) := by
  refine ⟨cvpMode, hipClkSel, rfl, ?_, rfl, id, fun _ => id⟩
  simp only [writeModeCtrl, cvpMode, hipClkSel, Bool.not_and_self,
    Bool.and_not_self, Bool.or_false, Bool.not_false, Bool.true_or,
    Bool.and_true]

theorem withNumclks_low (val : BitVec 32) (numclks : Nat) {i : Nat}
    (low : i < 2) : (withNumclks val numclks).getLsbD i = val.getLsbD i := by
  have outside : modeCtrlNumclksMask.getLsbD i = false := by
    interval_cases i <;> rfl
  have above : (numclks <<< 8).testBit i = false := by
    rw [Nat.testBit_shiftLeft]
    simp only [Bool.and_eq_false_iff, decide_eq_false_iff_not]
    left
    omega
  have inside : i < 32 := by omega
  simp only [withNumclks, BitVec.getLsbD_or, BitVec.getLsbD_and,
    BitVec.getLsbD_not, BitVec.getLsbD_ofNat, outside, above, inside,
    decide_true, Bool.not_false, Bool.and_self, Bool.and_true,
    Bool.or_false, Bool.and_false]

theorem quiet_withNumclks (dev : CvpDev) (numclks : Nat) :
    Quiet dev (dev.writeModeCtrl (withNumclks dev.modeCtrl numclks)) :=
  quiet_writeModeCtrl (withNumclks_low _ _ (by decide))
    (withNumclks_low _ _ (by decide))

/-- Dummy words are no data while no transfer goes on. -/
theorem quiet_dummyWords (count : Nat) {dev : CvpDev}
    (idle : dev.startXfer = false) : Quiet dev (dummyWords env count dev) := by
  induction count generalizing dev with
  | zero => exact Quiet.refl dev
  | succ count ih =>
      have one : Quiet dev (dev.dummyWord env) := by
        refine ⟨rfl, rfl, rfl, ?_, ?_, id,
          fun version => agrees_stable version 0 _⟩
        · simp [dummyWord, idle]
        · simp [dummyWord, idle]
      exact one.trans (ih (one.startXfer.trans idle))

theorem quiet_switchClk {dev : CvpDev}
    (idle : version = .v1 → dev.startXfer = false) :
    Quiet dev (switchClk env version dev) := by
  cases version with
  | v1 =>
      have clocks := quiet_withNumclks dev 1
      exact clocks.trans
        (quiet_dummyWords env 244 (clocks.startXfer.trans (idle rfl)))
  | v2 => exact Quiet.refl dev

/-! ## Steps which are taken back -/

/-- What is taken back is taken back in order. -/
theorem kept_writeProgCtrl {val : BitVec 32} {dev : CvpDev}
    (stops : val.getLsbD 1 = false)
    (asks : val.getLsbD 0 = true → dev.config = true) :
    (dev.writeProgCtrl val).kept = dev.kept := by
  simp only [writeProgCtrl, stops]
  cases asked : val.getLsbD 0 with
  | true =>
      rw [asks asked]
      simp
  | false => simp

/-- The bits of a load, without those which are taken back. -/
structure Stopped (before after : CvpDev) : Prop where
  cvpMode : after.cvpMode = before.cvpMode
  hipClkSel : after.hipClkSel = before.hipClkSel
  config : after.config = false
  startXfer : after.startXfer = false
  kept : after.kept = before.kept

theorem Stopped.quiet {before between after : CvpDev}
    (stopped : Stopped before between) (quiet : Quiet between after) :
    Stopped before after where
  cvpMode := quiet.cvpMode.trans stopped.cvpMode
  hipClkSel := quiet.hipClkSel.trans stopped.hipClkSel
  config := quiet.config.trans stopped.config
  startXfer := quiet.startXfer.trans stopped.startXfer
  kept := quiet.kept.trans stopped.kept

/-- The transfer is stopped, and then the configuration is taken back. -/
theorem stopped_teardown (dev : CvpDev) :
    Stopped dev (alteraCvpTeardown env version dev).2 := by
  unfold alteraCvpTeardown
  dsimp only
  set first := dev.writeProgCtrl (dev.progCtrl &&& ~~~progCtrlStartXfer)
  have stops : first.startXfer = false :=
    (bit_clear _ (by decide)).trans (Bool.and_false _)
  have stays : first.config = dev.config :=
    (bit_clear _ (by decide)).trans (Bool.and_true _)
  have keptFirst : first.kept = dev.kept :=
    kept_writeProgCtrl stops fun asked => stays.symm.trans asked
  set second := first.writeProgCtrl (first.progCtrl &&& ~~~progCtrlConfig)
  have idle : second.startXfer = false :=
    (bit_clear _ (by decide)).trans ((Bool.and_true _).trans stops)
  have none : second.config = false :=
    (bit_clear _ (by decide)).trans (Bool.and_false _)
  have keptSecond : second.kept = first.kept :=
    kept_writeProgCtrl idle fun asked =>
      Bool.noConfusion (none.symm.trans asked)
  have stopped : Stopped dev second :=
    ⟨rfl, rfl, none, idle, keptSecond.trans keptFirst⟩
  have switched : Quiet second (switchClk env version second) :=
    quiet_switchClk env fun _ => idle
  exact (stopped.quiet switched).quiet (quiet_waitStatus env _ _ _ _)

/-! ## The operations -/

/-- Before step 2, no transfer goes on, or it is one of version 2. -/
structure Idle (version : Version) (dev : CvpDev) : Prop where
  kept : dev.kept = true
  startXfer : version = .v1 → dev.startXfer = false

theorem writeInitStatus_idle {env : SessionEnv} {info : CvpImageInfo}
    {dev : CvpDev}
    (full : info.partialReconfig = false) (kept : dev.kept = true)
    (notStale : ¬ Stale env version info dev) :
    (writeInitStatus env version dev).2.kept = true ∧
      ((writeInitStatus env version dev).1 = none →
        Idle version (writeInitStatus env version dev).2) := by
  have read : Quiet dev (dev.readStatus env).2 := quiet_readStatus env dev
  have keptRead := read.kept.trans kept
  unfold writeInitStatus
  dsimp only
  split_ifs with disabled isReady
  · exact ⟨keptRead, fun fine => by cases fine⟩
  · have stopped : Stopped (dev.readStatus env).2
        (alteraCvpTeardown env version (dev.readStatus env).2).2 :=
      stopped_teardown env _
    have keptStopped := stopped.kept.trans keptRead
    exact ⟨keptStopped, fun _ => ⟨keptStopped, fun _ => stopped.startXfer⟩⟩
  · refine ⟨keptRead, fun _ => ⟨keptRead, fun isV1 => ?_⟩⟩
    rw [read.startXfer]
    by_contra set
    refine notStale ⟨isV1, full, ?_, disabled, ?_⟩
    · exact Bool.eq_true_of_not_eq_false set
    · exact of_not_not isReady

/-- In the mode, while no transfer goes on. -/
structure Entered (dev : CvpDev) : Prop where
  kept : dev.kept = true
  cvpMode : dev.cvpMode = true
  hipClkSel : dev.hipClkSel = true
  startXfer : dev.startXfer = false

theorem Entered.quiet {before after : CvpDev} (entered : Entered before)
    (quiet : Quiet before after) : Entered after where
  kept := quiet.kept.trans entered.kept
  cvpMode := quiet.cvpMode.trans entered.cvpMode
  hipClkSel := quiet.hipClkSel.trans entered.hipClkSel
  startXfer := quiet.startXfer.trans entered.startXfer

/-- The clock is switched before the mode, and both stay while needed. -/
theorem kept_writeModeCtrl {val : BitVec 32} {dev : CvpDev}
    (enters : val.getLsbD 0 = true →
      dev.cvpMode = true ∨ dev.hipClkSel = true)
    (leaves : (dev.cvpMode = true → val.getLsbD 0 = true) ∧
        (dev.hipClkSel = true → val.getLsbD 1 = true) ∨
      dev.config = false ∧ dev.startXfer = false) :
    (dev.writeModeCtrl val).kept = dev.kept := by
  simp only [writeModeCtrl]
  revert enters leaves
  cases dev.cvpMode <;> cases dev.hipClkSel <;> cases val.getLsbD 0 <;>
    cases val.getLsbD 1 <;> simp +contextual

/-- Step 2 leaves the program register as it is. -/
theorem idle_modes {dev : CvpDev} (idle : Idle version dev) :
    let first := dev.writeModeCtrl (dev.modeCtrl ||| modeCtrlHipClkSel)
    let second := first.writeModeCtrl (first.modeCtrl ||| modeCtrlCvpMode)
    Idle version second ∧ second.cvpMode = true ∧
      second.hipClkSel = true := by
  intro first second
  have same : first.cvpMode = dev.cvpMode :=
    (bit_set _ (by decide)).trans (Bool.or_false _)
  have clock : first.hipClkSel = true :=
    (bit_set _ (by decide)).trans (Bool.or_true _)
  have mode : second.cvpMode = true :=
    (bit_set _ (by decide)).trans (Bool.or_true _)
  have still : second.hipClkSel = true :=
    (bit_set _ (by decide)).trans ((Bool.or_false _).trans clock)
  have keptFirst : first.kept = dev.kept :=
    kept_writeModeCtrl (fun entered => .inl (same.symm.trans entered))
      (.inl ⟨fun entered => same.trans entered, fun _ => clock⟩)
  have keptSecond : second.kept = first.kept :=
    kept_writeModeCtrl (fun _ => .inr clock)
      (.inl ⟨fun _ => mode, fun _ => still⟩)
  exact ⟨⟨(keptSecond.trans keptFirst).trans idle.kept, idle.startXfer⟩,
    mode, still⟩

theorem clearState_entered {dev : CvpDev} (idle : Idle version dev)
    (cvpMode : dev.cvpMode = true) (hipClkSel : dev.hipClkSel = true) :
    (clearState env version dev).2.kept = true ∧
      ((clearState env version dev).1 = none →
        Entered (clearState env version dev).2) := by
  cases version with
  | v1 =>
      exact ⟨idle.kept, fun _ =>
        ⟨idle.kept, cvpMode, hipClkSel, idle.startXfer rfl⟩⟩
  | v2 =>
      show (alteraCvpV2ClearState env .v2 dev).2.kept = true ∧
        ((alteraCvpV2ClearState env .v2 dev).1 = none →
          Entered (alteraCvpV2ClearState env .v2 dev).2)
      unfold alteraCvpV2ClearState
      cases read : env.progCtrlRead dev.conf.access with
      | some ret => exact ⟨idle.kept, fun fine => by cases fine⟩
      | none =>
          dsimp only
          cases written : env.progCtrlWrite (dev.access env).conf.access with
          | some ret => exact ⟨idle.kept, fun fine => by cases fine⟩
          | none =>
              dsimp only
              set before := dev.access env
              set cleared := before.writeProgCtrl
                (before.progCtrl &&& ~~~progCtrlMask)
              have startXfer : cleared.startXfer = false :=
                mask_clears before.progCtrl rfl
              have config : cleared.config = false :=
                mask_clears before.progCtrl rfl
              have kept : cleared.kept = before.kept :=
                kept_writeProgCtrl startXfer fun asked =>
                  Bool.noConfusion (config.symm.trans asked)
              have entered : Entered cleared :=
                ⟨kept.trans idle.kept, cvpMode, hipClkSel, startXfer⟩
              have answered := (entered.quiet (quiet_access env cleared)).quiet
                (quiet_waitStatus env statusCfgRdy 0 Version.v2.pollTimeUs _)
              exact ⟨answered.kept, fun _ => answered⟩

theorem writeInitMode_entered {dev : CvpDev} (idle : Idle version dev) :
    (writeInitMode env version dev).2.kept = true ∧
      ((writeInitMode env version dev).1 = none →
        Entered (writeInitMode env version dev).2) := by
  obtain ⟨still, cvpMode, hipClkSel⟩ := idle_modes idle
  unfold writeInitMode
  dsimp only at still cvpMode hipClkSel ⊢
  set entered := (dev.writeModeCtrl _).writeModeCtrl _
  have switched : Quiet entered (switchClk env version entered) :=
    quiet_switchClk env still.startXfer
  refine clearState_entered env ⟨switched.kept.trans still.kept, fun isV1 => ?_⟩
    (switched.cvpMode.trans cvpMode) (switched.hipClkSel.trans hipClkSel)
  exact switched.startXfer.trans (still.startXfer isV1)

/-- A configuration is asked for in the mode. -/
theorem kept_asks {val : BitVec 32} {dev : CvpDev}
    (stops : val.getLsbD 1 = false) (cvpMode : dev.cvpMode = true)
    (hipClkSel : dev.hipClkSel = true) (asks : val.getLsbD 0 = true) :
    (dev.writeProgCtrl val).kept = dev.kept := by
  simp only [writeProgCtrl, stops, cvpMode, hipClkSel, asks]
  simp

/-- The control block has answered, and no transfer goes on. -/
structure Answered (dev : CvpDev) : Prop extends Entered dev where
  config : dev.config = true
  ready : dev.ready = true

theorem Answered.quiet {before after : CvpDev} (answered : Answered before)
    (quiet : Quiet before after) : Answered after where
  toEntered := answered.toEntered.quiet quiet
  config := quiet.config.trans answered.config
  ready := quiet.ready answered.ready

theorem writeInitConfig_answered (version : Version) {dev : CvpDev}
    (entered : Entered dev) :
    (writeInitConfig env version dev).2.kept = true ∧
      ((writeInitConfig env version dev).1 = none →
        Answered (writeInitConfig env version dev).2 ∧
          ∀ other,
            Agrees other 0 (writeInitConfig env version dev).2.conf) := by
  unfold writeInitConfig
  dsimp only
  set reset := { dev with conf := dev.conf.writeInit }
  set asked := reset.writeProgCtrl (reset.progCtrl ||| progCtrlConfig)
  have startXfer : asked.startXfer = false :=
    (bit_set _ (by decide)).trans
      ((Bool.or_false _).trans entered.startXfer)
  have config : asked.config = true :=
    (bit_set _ (by decide)).trans (Bool.or_true _)
  have kept : asked.kept = dev.kept :=
    kept_asks startXfer entered.cvpMode entered.hipClkSel config
  have inMode : Entered asked :=
    ⟨kept.trans entered.kept, entered.cvpMode, entered.hipClkSel, startXfer⟩
  have agrees : ∀ other, Agrees other 0 asked.conf := fun other =>
    ⟨rfl, Nat.zero_le _, fun _ => Nat.le_refl _⟩
  have waited := quiet_waitStatus env statusCfgRdy statusCfgRdy
    version.pollTimeUs asked
  cases outcome : alteraCvpWaitStatus env statusCfgRdy statusCfgRdy
      version.pollTimeUs asked with
  | mk result after =>
      rw [outcome] at waited
      cases result with
      | some ret =>
          exact ⟨waited.kept.trans inMode.kept, fun fine => by cases fine⟩
      | none =>
          have stillAsked : after.config = true := waited.config.trans config
          have isReady : after.ready = true := by
            have ready := ready_of_waitLoop config (congrArg Prod.fst outcome)
            rwa [show waitLoop env _ _ _ asked = _ from outcome] at ready
          have answered : Answered after :=
            ⟨inMode.quiet waited, stillAsked, isReady⟩
          have switched : Quiet after (switchClk env version after) :=
            quiet_switchClk env fun _ => answered.startXfer
          have settled := switched.trans (quiet_chkError env _)
          have last := answered.quiet settled
          exact ⟨last.kept, fun _ => ⟨last, fun other =>
            settled.agrees other (waited.agrees other (agrees other))⟩⟩

/-- A transfer goes on, and the credits are known. -/
structure Loading (version : Version) (dev : CvpDev) : Prop where
  kept : dev.kept = true
  armed : dev.armed = true
  agrees : Agrees version 0 dev.conf

theorem Loading.quiet {before after : CvpDev}
    (loading : Loading version before) (quiet : Quiet before after) :
    Loading version after where
  kept := quiet.kept.trans loading.kept
  armed := by
    have armed := loading.armed
    simp only [CvpDev.armed, Bool.and_eq_true] at armed ⊢
    obtain ⟨⟨⟨⟨cvpMode, hipClkSel⟩, config⟩, startXfer⟩, ready⟩ := armed
    exact ⟨⟨⟨⟨quiet.cvpMode.trans cvpMode, quiet.hipClkSel.trans hipClkSel⟩,
      quiet.config.trans config⟩, quiet.startXfer.trans startXfer⟩,
      quiet.ready ready⟩
  agrees := quiet.agrees version loading.agrees

theorem writeInitStart_loading {dev : CvpDev} (answered : Answered dev)
    (agrees : Agrees version 0 dev.conf) :
    Loading version (writeInitStart version dev) ∧
      (writeInitStart version dev).received = [] := by
  unfold writeInitStart
  dsimp only
  set started := dev.writeProgCtrl (dev.progCtrl ||| progCtrlStartXfer)
    with isStarted
  have startXfer : started.startXfer = true :=
    (bit_set _ (by decide)).trans (Bool.or_true _)
  have config : started.config = true :=
    (bit_set _ (by decide)).trans ((Bool.or_false _).trans answered.config)
  have ready : started.ready = true := by
    show (dev.ready && dev.config && started.config) = true
    rw [answered.ready, answered.config, config]
    rfl
  have received : started.received = [] := by
    show (if !dev.startXfer && started.startXfer then [] else _) = []
    rw [answered.startXfer, startXfer]
    rfl
  have kept : started.kept = true := by
    show (dev.kept && (!(!dev.config && started.config) || _) &&
      (!(dev.config && !started.config) || _) &&
      (!(!dev.startXfer && started.startXfer) ||
        dev.config && started.config && dev.ready)) = true
    rw [answered.kept, answered.config, config, answered.ready]
    simp
  have armed : started.armed = true := by
    have cvpMode : started.cvpMode = true := answered.cvpMode
    have hipClkSel : started.hipClkSel = true := answered.hipClkSel
    rw [CvpDev.armed, cvpMode, hipClkSel, config, startXfer, ready]
    rfl
  have loading : Loading version started := ⟨kept, armed, agrees⟩
  cases version with
  | v1 =>
      have clocks := quiet_withNumclks started started.numclks
      exact ⟨loading.quiet clocks, clocks.received.trans received⟩
  | v2 => exact ⟨loading, received⟩

/-! ## What the operations of the manager leave -/

theorem writeInitTransfer_loading {dev : CvpDev} (entered : Entered dev) :
    (writeInitTransfer env version dev).2.kept = true ∧
      ((writeInitTransfer env version dev).1 = none →
        Loading version (writeInitTransfer env version dev).2 ∧
          (writeInitTransfer env version dev).2.received = []) := by
  have third := writeInitConfig_answered env version entered
  unfold writeInitTransfer
  cases config : writeInitConfig env version dev with
  | mk result answered =>
      rw [config] at third
      cases result with
      | some ret => exact ⟨third.1, fun fine => by cases fine⟩
      | none =>
          obtain ⟨isAnswered, agrees⟩ := third.2 rfl
          have started := writeInitStart_loading isAnswered (agrees version)
          exact ⟨started.1.kept, fun _ => started⟩

theorem writeInit_loading {info : CvpImageInfo} {dev : CvpDev}
    (kept : dev.kept = true) (notStale : ¬ Stale env version info dev) :
    (alteraCvpWriteInit env version info dev).2.kept = true ∧
      ((alteraCvpWriteInit env version info dev).1 = none →
        Loading version (alteraCvpWriteInit env version info dev).2 ∧
          (alteraCvpWriteInit env version info dev).2.received = []) := by
  unfold alteraCvpWriteInit
  cases full : info.partialReconfig with
  | true => exact ⟨kept, fun fine => by cases fine⟩
  | false =>
      rw [if_neg Bool.false_ne_true]
      set clocked := { dev with numclks := info.numclks }
      have same : ¬ Stale env version info clocked := fun stale =>
        notStale ⟨stale.isV1, stale.full, stale.startXfer, stale.enabled,
          stale.notReady⟩
      have keptClocked : clocked.kept = true := kept
      have first := writeInitStatus_idle full keptClocked same
      cases status : writeInitStatus env version clocked with
      | mk result read =>
          rw [status] at first
          cases result with
          | some ret => exact ⟨first.1, fun fine => by cases fine⟩
          | none =>
              have second := writeInitMode_entered env (first.2 rfl)
              dsimp only at second ⊢
              cases mode : writeInitMode env version read with
              | mk result inMode =>
                  rw [mode] at second
                  cases result with
                  | some ret => exact ⟨second.1, fun fine => by cases fine⟩
                  | none => exact writeInitTransfer_loading env (second.2 rfl)

theorem writeImage_loading (call : WriteCall) {dev : CvpDev}
    (loading : Loading version dev) :
    (writeImage env version call dev).2.kept = true ∧
      ((writeImage env version call dev).1 = none →
        Loading version (writeImage env version call dev).2 ∧
          (writeImage env version call dev).2.received =
            dev.received ++ imageWords call.buf) := by
  obtain ⟨throttled, agrees⟩ :=
    alteraCvpWrite_throttled env.toCvpEnv loading.agrees call
  have armed := loading.armed
  have startXfer : dev.startXfer = true := by
    simp only [CvpDev.armed, Bool.and_eq_true] at armed
    exact armed.1.2
  unfold writeImage
  dsimp only at throttled agrees ⊢
  set run := alteraCvpWrite env.toCvpEnv version call.memory call.count dev.conf
  have kept : (dev.kept && ((wordsOf run.events).isEmpty || dev.armed)) =
      true := by
    rw [loading.kept, armed, Bool.or_true]
    rfl
  refine ⟨kept, fun fine => ⟨⟨kept, armed, agrees⟩, ?_⟩⟩
  have written : run.result = .ok () := by
    cases result : run.result with
    | ok value => rfl
    | error ret =>
        rw [result] at fine
        cases fine
  rw [if_pos startXfer, throttled.words written]

theorem writeComplete_atRest (version : Version) {dev : CvpDev}
    (kept : dev.kept = true) :
    (alteraCvpWriteComplete env version dev).2.kept = true ∧
      ((alteraCvpWriteComplete env version dev).1 = none →
        (alteraCvpWriteComplete env version dev).2.atRest = true) := by
  unfold alteraCvpWriteComplete
  have stopped : Stopped dev (alteraCvpTeardown env version dev).2 :=
    stopped_teardown env dev
  cases outcome : alteraCvpTeardown env version dev with
  | mk result torn =>
      rw [outcome] at stopped
      cases result with
      | some ret =>
          exact ⟨stopped.kept.trans kept, fun fine => by cases fine⟩
      | none =>
          dsimp only
          split_ifs with failed
          · exact ⟨stopped.kept.trans kept, fun fine => by cases fine⟩
          · set seen := torn.access env
            set left := seen.writeModeCtrl
              (seen.modeCtrl &&& ~~~modeCtrlHipClkSel &&& ~~~modeCtrlCvpMode)
            have cvpMode : left.cvpMode = false :=
              (bit_clear _ (by decide)).trans (Bool.and_false _)
            have hipClkSel : left.hipClkSel = false :=
              (bit_clear _ (by decide)).trans ((Bool.and_true _).trans
                ((bit_clear _ (by decide)).trans (Bool.and_false _)))
            have keptLeft : left.kept = seen.kept :=
              kept_writeModeCtrl
                (fun entered => Bool.noConfusion (cvpMode.symm.trans entered))
                (.inr ⟨stopped.config, stopped.startXfer⟩)
            have waited := quiet_waitStatus env
              (statusPldClkInUse ||| statusUsermode)
              (statusPldClkInUse ||| statusUsermode) version.userTimeUs left
            refine ⟨waited.kept.trans
              ((keptLeft.trans stopped.kept).trans kept), fun _ => ?_⟩
            rw [CvpDev.atRest, waited.cvpMode, waited.hipClkSel,
              waited.config, waited.startXfer, cvpMode, hipClkSel,
              show left.config = false from stopped.config,
              show left.startXfer = false from stopped.startXfer]
            rfl

/-! ## A load which begins while a transfer goes on -/

theorem lost_dummyWords (count : Nat) {dev : CvpDev}
    (lost : dev.kept = false) : (dummyWords env count dev).kept = false := by
  induction count generalizing dev with
  | zero => exact lost
  | succ count ih =>
      refine ih ?_
      show (dev.kept && _) = false
      rw [lost, Bool.false_and]

theorem switchClk_v1 (dev : CvpDev) :
    switchClk env .v1 dev = dummyWords env 244
      (dev.writeModeCtrl (withNumclks dev.modeCtrl 1)) := by
  rw [switchClk, if_pos (show Version.v1.switchesClk = true from rfl),
    alteraCvpDummyWrite]

theorem clearState_v1 (dev : CvpDev) :
    clearState env .v1 dev = (none, dev) := rfl

theorem lost_switchClk {dev : CvpDev} (lost : dev.kept = false) :
    (switchClk env .v1 dev).kept = false := by
  rw [switchClk_v1]
  have clocks := quiet_withNumclks dev 1
  exact lost_dummyWords env 244 (clocks.kept.trans lost)

/-- The dummy words are taken for words of the image. -/
theorem lost_of_startXfer {count : Nat} (someWords : 0 < count)
    {dev : CvpDev} (startXfer : dev.startXfer = true) :
    (dummyWords env count dev).kept = false := by
  cases count with
  | zero => omega
  | succ count =>
      refine lost_dummyWords env count ?_
      show (dev.kept && !dev.startXfer) = false
      rw [startXfer, Bool.not_true, Bool.and_false]

theorem lost_writeProgCtrl (val : BitVec 32) {dev : CvpDev}
    (lost : dev.kept = false) : (dev.writeProgCtrl val).kept = false := by
  show (dev.kept && _ && _ && _) = false
  rw [lost, Bool.false_and, Bool.false_and, Bool.false_and]

/-- Step 3 of a load which finds a transfer -/
theorem lost_writeInitMode {dev : CvpDev} (startXfer : dev.startXfer = true) :
    writeInitMode env .v1 dev = (none, (writeInitMode env .v1 dev).2) ∧
      (writeInitMode env .v1 dev).2.kept = false := by
  unfold writeInitMode
  dsimp only
  rw [clearState_v1, switchClk_v1]
  refine ⟨rfl, ?_⟩
  set clocked := CvpDev.writeModeCtrl _ _
  have same : clocked.startXfer = true := startXfer
  exact lost_of_startXfer env (by decide) same

theorem lost_writeInitTransfer {dev : CvpDev} (lost : dev.kept = false) :
    (writeInitTransfer env .v1 dev).2.kept = false := by
  unfold writeInitTransfer writeInitConfig
  dsimp only
  set reset := { dev with conf := dev.conf.writeInit }
  set asked := reset.writeProgCtrl (reset.progCtrl ||| progCtrlConfig)
  have lostAsked : asked.kept = false := lost_writeProgCtrl _ lost
  have waited := quiet_waitStatus env statusCfgRdy statusCfgRdy
    Version.v1.pollTimeUs asked
  cases outcome : alteraCvpWaitStatus env statusCfgRdy statusCfgRdy
      Version.v1.pollTimeUs asked with
  | mk result after =>
      rw [outcome] at waited
      have lostAfter := waited.kept.trans lostAsked
      cases result with
      | some ret => exact lostAfter
      | none =>
          have checked := quiet_chkError env (switchClk env .v1 after)
          have lostChecked : (chkError env (switchClk env .v1 after)).2.kept =
              false :=
            checked.kept.trans (lost_switchClk env lostAfter)
          dsimp only
          cases last : chkError env (switchClk env .v1 after) with
          | mk result left =>
              rw [last] at lostChecked
              cases result with
              | some ret => exact lostChecked
              | none =>
                  have clocks := quiet_withNumclks
                    (left.writeProgCtrl (left.progCtrl ||| progCtrlStartXfer))
                    left.numclks
                  exact clocks.kept.trans (lost_writeProgCtrl _ lostChecked)

theorem writeInit_stale {info : CvpImageInfo} {dev : CvpDev}
    (stale : Stale env version info dev) :
    (alteraCvpWriteInit env version info dev).2.kept = false := by
  obtain ⟨rfl, full, startXfer, enabled, notReady⟩ := stale
  unfold alteraCvpWriteInit
  rw [full, if_neg Bool.false_ne_true]
  set clocked := { dev with numclks := info.numclks }
  have status : writeInitStatus env .v1 clocked =
      (none, (clocked.readStatus env).2) :=
    (if_neg enabled).trans (if_neg (not_not.mpr notReady))
  obtain ⟨mode, lost⟩ :=
    lost_writeInitMode env (show (clocked.readStatus env).2.startXfer = true
      from startXfer)
  rw [status]
  dsimp only
  rw [mode]
  exact lost_writeInitTransfer env lost

/-! ## Loads one after the other -/

/-- What is known between two acts of the core. -/
structure CvpMgr.Known (version : Version) (mgr : CvpMgr) : Prop where
  kept : mgr.dev.kept = true
  loading : mgr.state = .loading →
    Loading version mgr.dev ∧ mgr.dev.received = mgr.image
  atRest : mgr.state = .operating → mgr.dev.atRest = true

theorem CvpMgr.Known.safe {mgr : CvpMgr} (known : mgr.Known version) :
    mgr.Safe :=
  ⟨known.kept, fun isLoading => (known.loading isLoading).2, known.atRest⟩

theorem Known.failed {dev : CvpDev} {image : List (BitVec 32)}
    (kept : dev.kept = true) : CvpMgr.Known version ⟨.failed, dev, image⟩ where
  kept := kept
  loading := fun isLoading => by cases isLoading
  atRest := fun isOperating => by cases isOperating

theorem Known.loading {dev : CvpDev} {image : List (BitVec 32)}
    (loading : Loading version dev) (received : dev.received = image) :
    CvpMgr.Known version ⟨.loading, dev, image⟩ where
  kept := loading.kept
  loading := fun _ => ⟨loading, received⟩
  atRest := fun isOperating => by cases isOperating

theorem known_perform {mgr next : CvpMgr} {act : CvpAct}
    (known : mgr.Known version) (notStale : NotStale env version mgr act)
    (performed : mgr.perform env version act = some next) :
    next.Known version := by
  cases act with
  | writeInit info =>
      simp only [CvpMgr.perform] at performed
      split_ifs at performed with isLoading
      cases performed
      obtain ⟨kept, loading⟩ := writeInit_loading env known.kept notStale
      cases result : (alteraCvpWriteInit env version info mgr.dev).1 with
      | some ret => exact Known.failed kept
      | none =>
          obtain ⟨inited, received⟩ := loading result
          exact Known.loading inited received
  | write call =>
      simp only [CvpMgr.perform] at performed
      split_ifs at performed with isLoading
      cases performed
      obtain ⟨loading, received⟩ := known.loading (not_not.mp isLoading)
      obtain ⟨kept, written⟩ := writeImage_loading env call loading
      cases result : (writeImage env version call mgr.dev).1 with
      | some ret => exact Known.failed kept
      | none =>
          obtain ⟨still, more⟩ := written result
          exact Known.loading still (more.trans (by rw [received]))
  | writeComplete =>
      simp only [CvpMgr.perform] at performed
      split_ifs at performed with isLoading
      cases performed
      obtain ⟨kept, atRest⟩ := writeComplete_atRest env version known.kept
      cases result : (alteraCvpWriteComplete env version mgr.dev).1 with
      | some ret => exact Known.failed kept
      | none =>
          exact ⟨kept, fun isLoading => (by cases isLoading),
            fun _ => atRest result⟩
  | giveUp =>
      simp only [CvpMgr.perform] at performed
      split_ifs at performed with isLoading
      cases performed
      exact Known.failed known.kept

theorem lost_perform {mgr next : CvpMgr} {act : CvpAct}
    (stale : ¬ NotStale env version mgr act)
    (performed : mgr.perform env version act = some next) : ¬ next.Safe := by
  cases act with
  | writeInit info =>
      simp only [CvpMgr.perform] at performed
      split_ifs at performed with isLoading
      cases performed
      have lost := writeInit_stale env (not_not.mp stale)
      exact fun safe => Bool.noConfusion (lost.symm.trans safe.kept)
  | write call => exact absurd trivial stale
  | writeComplete => exact absurd trivial stale
  | giveUp => exact absurd trivial stale

/--
Whatever the device answers, the steps of the loads are taken in order, a
transfer is given nothing but the image, and a load which succeeds leaves
nothing set, if and only if no load of version 1 begins while a transfer which
was given up goes on and the control block is not ready.
-/
theorem cvpLoads_safe_iff {dev : CvpDev} (kept : dev.kept = true)
    {path : List (CvpAct × CvpMgr)}
    (isPath : IsPath
      (fun mgr act next => mgr.perform env version act = some next)
      ⟨.unknown, dev, []⟩ path) :
    Throughout CvpMgr.Safe ⟨.unknown, dev, []⟩ path ↔
      StepsMeet (NotStale env version) ⟨.unknown, dev, []⟩ path := by
  have initial : CvpMgr.Known version ⟨.unknown, dev, []⟩ :=
    ⟨kept, fun isLoading => (by cases isLoading),
      fun isOperating => (by cases isOperating)⟩
  refine throughout_iff_stepsMeet_of_strong (fun _ => CvpMgr.Known.safe)
    ?_ ?_ isPath initial
  · intro mgr act next known notStale performed
    exact known_perform env known notStale performed
  · intro mgr act next _ stale performed
    exact lost_perform env stale performed

/-- A device whose control block is ready once only. -/
def readyOnce : SessionEnv where
  toCvpEnv := { granting with
    status := fun number =>
      .ok (if number = 245 then statusCvpEn ||| statusCfgRdy
        else statusCvpEn) }
  progCtrlRead _ := none
  progCtrlWrite _ := none
  uncorErrStatus _ := 0

/-- A full image, not compressed. -/
def plainImage : CvpImageInfo := ⟨false, false, false⟩

def restingDev : CvpDev := ⟨⟨0, 0, 0, 0⟩, 0, 0, 0, false, [], true⟩

/-- A load is given up, and another one begins. -/
def givenUpRun : List CvpAct :=
  [.writeInit plainImage, .giveUp, .writeInit plainImage]

theorem cvpLoads_givenUp :
    let path := pathOf (orSame (CvpMgr.perform readyOnce .v1))
      ⟨.unknown, restingDev, []⟩ givenUpRun
    ¬ Throughout CvpMgr.Safe ⟨.unknown, restingDev, []⟩ path :=
  (cvpLoads_safe_iff readyOnce rfl
    (isPath_of_allTaken (by decide +kernel))).not.mpr
      (not_stepsMeet_of_enabledAlong (by decide +kernel))

end LinuxDfl.Fpga.Cvp

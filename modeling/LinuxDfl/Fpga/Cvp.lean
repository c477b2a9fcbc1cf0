import LinuxDfl.Kernel.Errno
import LinuxDfl.Lib.LittleEndian
import LinuxDfl.Lib.Traced

/-!
# Configuration via protocol

The `write` operation of the CvP manager, which sends an image in blocks to
the data register of the device.  A device of version 2 has room for some
blocks only: it grants blocks from time to time, and shows modulo 256 how many
it has granted since the start of the transfer.
-/

namespace LinuxDfl.Fpga.Cvp

open LinuxDfl.Kernel
open LinuxDfl.Lib.LittleEndian
open LinuxDfl.Lib.Traced
open LinuxDfl.Lib.Traced.Program

/-! ## The device -/

/-- `cvp_priv_v1` and `cvp_priv_v2` -/
inductive Version where
  | v1
  | v2
  deriving DecidableEq, Repr

/-- `block_size` of `struct cvp_priv` -/
def Version.blockSize : Version → Nat
  | .v1 => 4
  | .v2 => 4096

/-- There is a `wait_credit` in `struct cvp_priv`. -/
def Version.waitsForCredit : Version → Bool
  | .v1 => false
  | .v2 => true

/-- What the accesses to the device meet, by their number. -/
structure CvpEnv where
  /-- How many blocks the device grants before the access. -/
  grant : Nat → Nat
  /-- Whether the credit register can be read. -/
  creditRead : Nat → Option Errno
  /-- `VSE_CVP_STATUS`, if it can be read -/
  status : Nat → Except Errno (BitVec 32)
  /-- `altera_cvp_chkcfg`, which may be changed at any time -/
  chkcfg : Nat → Bool

/-- `struct altera_cvp_conf`, and the device behind it. -/
structure CvpConf where
  sentPackets : BitVec 32
  /-- The number of accesses so far. -/
  access : Nat
  /-- How many blocks the device has granted. -/
  granted : Nat
  /-- How many blocks it has been sent. -/
  sent : Nat
  deriving DecidableEq, Repr

/-- What is recorded of a transfer. -/
inductive Event where
  /-- A block is sent, when so many have been granted and sent before. -/
  | block (granted sent : Nat)
  /-- `write_data` -/
  | word (data : BitVec 32)
  deriving DecidableEq, Repr

abbrev CvpProgram := Program Event Errno CvpConf

/-- `altera_cvp_write_init`, as far as credits are concerned -/
def CvpConf.writeInit (conf : CvpConf) : CvpConf :=
  { conf with sentPackets := 0, granted := 0, sent := 0 }

/-- The device grants blocks, but not more than 255 ahead. -/
def CvpConf.next (env : CvpEnv) (conf : CvpConf) : CvpConf :=
  { conf with
    access := conf.access + 1
    granted := max conf.granted
      (min (conf.granted + env.grant conf.access) (conf.sent + 255)) }

/-- The next access to the device. -/
def access (env : CvpEnv) : CvpProgram Nat := do
  let conf ← read
  update (CvpConf.next env)
  pure conf.access

/-! ## Waiting for credit -/

/-- The read of `VSE_CVP_TX_CREDITS`. -/
def readTxCredits (env : CvpEnv) : CvpProgram (BitVec 8) := do
  let number ← access env
  match env.creditRead number with
  | some ret => fail ret
  | none =>
      let conf ← read
      pure (BitVec.ofNat 8 conf.granted)

/-- `altera_cvp_chk_error`, which returns `-EPROTO` for an error -/
def alteraCvpChkError (env : CvpEnv) : CvpProgram (Option Errno) := do
  let number ← access env
  match env.status number with
  | .error _ => pure (some (.other 71))
  | .ok val =>
      -- `VSE_CVP_STATUS_CFG_ERR`
      if val.getLsbD 19 then pure (some (.other 71)) else pure none

/-- One turn of the loop of `altera_cvp_v2_wait_for_credit`. -/
def creditTurn (env : CvpEnv) (next : CvpProgram Unit) : CvpProgram Unit := do
  let val ← readTxCredits env
  let conf ← read
  -- both are promoted to `int`
  if (val.toNat : Int) - (conf.sentPackets.setWidth 8).toNat ≠ 0 then pure ()
  else
    let ret ← alteraCvpChkError env
    match ret with
    | some _ => fail .eagain
    | none => next

/-- The loop of `altera_cvp_v2_wait_for_credit`. -/
def creditLoop (env : CvpEnv) : Nat → CvpProgram Unit
  | 0 => creditTurn env (fail .etimedout)
  | timeout + 1 => creditTurn env (creditLoop env timeout)

/-- `altera_cvp_v2_wait_for_credit` -/
def alteraCvpV2WaitForCredit (env : CvpEnv) : CvpProgram Unit :=
  creditLoop env (20000 / 10)

/-! ## Sending blocks -/

/-- `write_data` of `struct altera_cvp_conf` -/
def writeData (env : CvpEnv) (data : BitVec 32) : CvpProgram Unit := do
  let _ ← access env
  emit (.word data)

/-- Some bytes of the memory. -/
def bytesAt (memory : Nat → Byte) (start length : Nat) : List Byte :=
  (List.range length).map fun i => memory (start + i)

/-- The word at `data`, a pointer to words. -/
def wordAt (memory : Nat → Byte) (data : Nat) : BitVec 32 :=
  BitVec.ofNat 32 (ofBytes (bytesAt memory (4 * data) 4))

/-- The loop of `altera_cvp_send_block`. -/
def sendWords (env : CvpEnv) (memory : Nat → Byte) :
    Nat → Nat → CvpProgram Unit
  | _, 0 => pure ()
  | data, words + 1 => do
      writeData env (wordAt memory data)
      sendWords env memory (data + 1) words

/-- A block is on its way to the device. -/
def startBlock : CvpProgram Unit := do
  let conf ← read
  emit (.block conf.granted conf.sent)
  update fun conf => { conf with sent := conf.sent + 1 }

/-- `BIT(remainder * 8) - 1` -/
def trailingMask (remainder : Nat) : BitVec 32 :=
  BitVec.ofNat 32 (1 <<< (remainder * 8) - 1)

/-- `altera_cvp_send_block` -/
def alteraCvpSendBlock (env : CvpEnv) (memory : Nat → Byte)
    (data len : Nat) : CvpProgram Unit := do
  startBlock
  sendWords env memory data (len / 4)
  let remainder := len % 4
  if remainder ≠ 0 ∧ trailingMask remainder ≠ 0 then
    writeData env (wordAt memory (data + len / 4) &&& trailingMask remainder)
  else pure ()

/-- `conf->priv->wait_credit`, if there is one -/
def waitCredit (env : CvpEnv) (version : Version) : CvpProgram Unit :=
  if version.waitsForCredit then alteraCvpV2WaitForCredit env else pure ()

/-- Look for an error, if the debugging option is set. -/
def chkcfgError (env : CvpEnv) : CvpProgram Unit := do
  let number ← access env
  if env.chkcfg number then
    let status ← alteraCvpChkError env
    match status with
    | some ret => fail ret
    | none => pure ()
  else pure ()

/-- `conf->sent_packets++` -/
def countBlock : CvpProgram Unit :=
  update fun conf => { conf with sentPackets := conf.sentPackets + 1 }

/-- Send one block, and count it. -/
def oneBlock (env : CvpEnv) (version : Version) (memory : Nat → Byte)
    (data done len : Nat) : CvpProgram Unit := do
  waitCredit env version
  alteraCvpSendBlock env memory data len
  countBlock
  if (done + len) % 4096 = 0 then chkcfgError env else pure ()

theorem blockSize_pos (version : Version) : 0 < version.blockSize := by
  cases version <;> decide

/-- The loop of `altera_cvp_write`. -/
def writeLoop (env : CvpEnv) (version : Version) (memory : Nat → Byte)
    (data done remaining : Nat) : CvpProgram Unit :=
  if remaining = 0 then pure ()
  else do
    let len := min version.blockSize remaining
    oneBlock env version memory data done len
    writeLoop env version memory (data + len / 4) (done + len)
      (remaining - len)
termination_by remaining
decreasing_by
  have := blockSize_pos version
  omega

/-- `altera_cvp_write`, of `count` bytes from the start of the memory -/
def alteraCvpWrite (env : CvpEnv) (version : Version)
    (memory : Nat → Byte) (count : Nat) : CvpProgram Unit := do
  writeLoop env version memory 0 0 count
  chkcfgError env

/-- A call of the `write` operation. -/
structure WriteCall where
  /-- The buffer, and what lies behind it. -/
  memory : Nat → Byte
  count : Nat

def WriteCall.buf (call : WriteCall) : List Byte :=
  bytesAt call.memory 0 call.count

/-- Several calls, and what each does. -/
def writeCalls (env : CvpEnv) (version : Version) :
    List WriteCall → CvpConf →
      List (WriteCall × Run Event Errno CvpConf Unit)
  | [], _ => []
  | call :: rest, conf =>
      let run := alteraCvpWrite env version call.memory call.count conf
      (call, run) :: writeCalls env version rest run.state

end LinuxDfl.Fpga.Cvp

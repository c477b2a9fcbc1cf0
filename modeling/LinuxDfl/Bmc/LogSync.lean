import LinuxDfl.Kernel.Errno
import LinuxDfl.Lib.Population
import Mathlib.Data.BitVec

/-!
# The time synchronisation of the BMC log

The driver of the log writes the time to the board again and again: the
delayed work which does so arms itself, and is called directly when the
driver is probed and when the frequency is stored.  A log is modelled from
its probe to the release of its memory.  The thread of the device, which
probes, stores and removes one after the other, and the work take turns step
by step.
-/

namespace LinuxDfl.Bmc.LogSync

open LinuxDfl.Kernel
open LinuxDfl.Lib.Population

/-! ## Configurations -/

/-- `M10BMC_TIMESTAMP_FREQ`, in seconds -/
def m10bmcTimestampFreq : BitVec 32 := 60

/-- The sizes of `struct m10bmc_log_cfg` -/
structure M10bmcLogCfg where
  elSize : Int
  idSize : Int
  biSize : Int
  deriving DecidableEq, Repr

/-- `m10bmc_log_n6000_cfg` -/
def m10bmcLogN6000Cfg : M10bmcLogCfg := ⟨0x40000, 0x3000, 0x2000⟩

/-- The memories which the probe registers, in this order. -/
inductive Nvmem where
  | bmcEventLog
  | fpgaImageDirectory
  | bomInfo
  deriving DecidableEq, Repr

/-! ## Where the threads are -/

/-- What calls `m10bmc_log_time_sync` directly. -/
inductive Caller where
  | probe
  | store
  deriving DecidableEq, Repr

/-- Why the memory of a log is released. -/
inductive Exit where
  /-- `ida_simple_get` failed. -/
  | noId
  /-- The probe failed with the id in hand. -/
  | failed
  | removed
  deriving DecidableEq, Repr

/-- Where the thread of the device is. -/
inductive ProcPc where
  | kzalloc
  | idaSimpleGet
  | init
  | writeTime (caller : Caller)
  | schedule (caller : Caller)
  | nvmemRegister (nvmem : Nvmem)
  | errorExit
  | devmRelease (exit : Exit)
  /-- The device is bound, and no operation is under way. -/
  | bound
  | storeCancel
  | storeFlush
  | removeCancel
  | removeFlush
  /-- The probe has failed, or the device was removed. -/
  | gone
  deriving DecidableEq, Repr

/-- Where the work is. -/
inductive WorkPc where
  /-- It does not run. -/
  | idle
  | writeTime
  | readFreq
  | schedule (freqS : BitVec 32)
  deriving DecidableEq, Repr

/-- The frequency for which the work is about to be scheduled. -/
def WorkPc.scheduling : WorkPc → Option (BitVec 32)
  | schedule freqS => some freqS
  | _ => none

namespace ProcPc

/-- `cancel_delayed_work_sync` waits: the work cannot be queued. -/
def canceling : ProcPc → Bool
  | storeFlush | removeFlush => true
  | _ => false

/-- No operation is under way. -/
def betweenOps : ProcPc → Bool
  | kzalloc | bound | gone => true
  | _ => false

end ProcPc

/-! ## Logs -/

/-- `struct m10bmc_log`, with what was done with it. -/
structure M10bmcLog where
  logCfg : M10bmcLogCfg
  freqS : BitVec 32
  id : Option Nat
  /-- The delayed work is pending. -/
  pending : Bool
  pc : ProcPc
  work : WorkPc
  freed : Bool
  /-- What was written to the board, by register. -/
  written : List (Nat × BitVec 32)
  /-- The frequencies and the delays for which the work was scheduled. -/
  scheduled : List (BitVec 32 × Nat)
  /-- The calls of `ida_simple_remove`. -/
  idaRemoves : Nat
  deriving DecidableEq, Repr

/-- A log which is about to be probed. -/
def toProbe (cfg : M10bmcLogCfg) : M10bmcLog where
  logCfg := cfg
  freqS := 0
  id := none
  pending := false
  pc := .kzalloc
  work := .idle
  freed := false
  written := []
  scheduled := []
  idaRemoves := 0

/-- `M10BMC_N6000_TIME_LOW` -/
def timeLow : Nat := 0x178

/-- `M10BMC_N6000_TIME_HIGH` -/
def timeHigh : Nat := 0x17c

/-- The writes of `m10bmc_log_time_sync`, with what the first one returns. -/
def timeWrites (timeMs : BitVec 64) (high : Option Errno) :
    List (Nat × BitVec 32) :=
  match high with
  | none =>
      [(timeHigh, timeMs.extractLsb' 32 32), (timeLow, timeMs.extractLsb' 0 32)]
  | some _ => [(timeHigh, timeMs.extractLsb' 32 32)]

/-- `log->freq_s * HZ` -/
def delayOf (HZ : Nat) (freqS : BitVec 32) : Nat :=
  (freqS * BitVec.ofNat 32 HZ).toNat

namespace M10bmcLog

variable (HZ : Nat) (log : M10bmcLog)

/-- The work can be queued. -/
def queueable : Bool := !log.pending && !log.pc.canceling

/-- `schedule_delayed_work` for a frequency -/
def scheduleDelayedWork (freqS : BitVec 32) : M10bmcLog :=
  if log.queueable then
    { log with
      pending := true
      scheduled := log.scheduled ++ [(freqS, delayOf HZ freqS)] }
  else log

end M10bmcLog

/-! ## The thread of the device -/

/-- A step of the thread, with what the rest of the kernel returns to it. -/
inductive ProcAct where
  | kzalloc (ok : Bool)
  | idaSimpleGet (id : Option Nat)
  | init
  | writeTime (timeMs : BitVec 64) (high : Option Errno)
  | schedule
  | nvmemRegister (ret : Option Errno)
  | idaSimpleRemove
  | devmRelease
  /-- `time_sync_frequency_store`, with what `kstrtouint` makes of the text -/
  | store (freq : Except Errno (BitVec 32))
  | remove
  | cancel
  | flush

/-- The `if`s behind the image directory. -/
def fromBomInfo (cfg : M10bmcLogCfg) : ProcPc :=
  if 0 < cfg.biSize then .nvmemRegister .bomInfo else .bound

/-- The `if`s behind the event log. -/
def fromImageDirectory (cfg : M10bmcLogCfg) : ProcPc :=
  if 0 < cfg.idSize then .nvmemRegister .fpgaImageDirectory
  else fromBomInfo cfg

/-- The `if`s of the probe behind its initialisations. -/
def fromEventLog (cfg : M10bmcLogCfg) : ProcPc :=
  if 0 < cfg.elSize then .writeTime .probe else fromImageDirectory cfg

/-- Where the probe goes on once a memory is registered. -/
def Nvmem.next (cfg : M10bmcLogCfg) : Nvmem → ProcPc
  | bmcEventLog => fromImageDirectory cfg
  | fpgaImageDirectory => fromBomInfo cfg
  | bomInfo => .bound

/-- Where `m10bmc_log_time_sync` returns to. -/
def Caller.back : Caller → ProcPc
  | probe => .nvmemRegister .bmcEventLog
  | store => .bound

/-- The second `if` of `time_sync_frequency_store` -/
def resync (freqS : BitVec 32) : ProcPc :=
  if freqS = 0 then .bound else .writeTime .store

/-- A step of `m10bmc_log_probe`, of a store or of `m10bmc_log_remove` -/
def procStep (HZ : Nat) (log : M10bmcLog) (act : ProcAct) :
    Option M10bmcLog :=
  match log.pc, act with
  | .kzalloc, .kzalloc ok =>
      some { log with pc := if ok then .idaSimpleGet else .gone }
  | .idaSimpleGet, .idaSimpleGet none =>
      some { log with pc := .devmRelease .noId }
  | .idaSimpleGet, .idaSimpleGet (some id) =>
      some { log with id := some id, pc := .init }
  | .init, .init =>
      some { log with
        freqS := m10bmcTimestampFreq
        pc := fromEventLog log.logCfg }
  | .writeTime caller, .writeTime timeMs high =>
      some { log with
        written := log.written ++ timeWrites timeMs high
        pc := .schedule caller }
  | .schedule caller, .schedule =>
      some { log.scheduleDelayedWork HZ log.freqS with pc := caller.back }
  | .nvmemRegister _, .nvmemRegister (some _) =>
      some { log with pc := .errorExit }
  | .nvmemRegister nvmem, .nvmemRegister none =>
      some { log with pc := nvmem.next log.logCfg }
  | .errorExit, .idaSimpleRemove =>
      some { log with
        idaRemoves := log.idaRemoves + 1
        pc := .devmRelease .failed }
  | .devmRelease _, .devmRelease =>
      some { log with freed := true, pc := .gone }
  | .bound, .store (.error _) => some log
  | .bound, .store (.ok freq) =>
      some { log with
        freqS := freq
        -- only a frequency which was zero is known not to be scheduled
        pc := if log.freqS = 0 then resync freq else .storeCancel }
  | .storeCancel, .cancel =>
      some { log with pending := false, pc := .storeFlush }
  | .storeFlush, .flush =>
      if log.work = .idle then some { log with pc := resync log.freqS }
      else none
  | .bound, .remove =>
      some { log with idaRemoves := log.idaRemoves + 1, pc := .removeCancel }
  | .removeCancel, .cancel =>
      some { log with pending := false, pc := .removeFlush }
  | .removeFlush, .flush =>
      if log.work = .idle then some { log with pc := .devmRelease .removed }
      else none
  | _, _ => none

/-! ## The work -/

/-- A step of the work. -/
inductive WorkAct where
  /-- The work is due, and its worker takes it. -/
  | start
  | writeTime (timeMs : BitVec 64) (high : Option Errno)
  | readFreq
  | schedule

/-- A step of `m10bmc_log_time_sync` in the worker -/
def workStep (HZ : Nat) (log : M10bmcLog) (act : WorkAct) :
    Option M10bmcLog :=
  match log.work, act with
  | .idle, .start =>
      if log.pending then some { log with pending := false, work := .writeTime }
      else none
  | .writeTime, .writeTime timeMs high =>
      some { log with
        written := log.written ++ timeWrites timeMs high
        work := .readFreq }
  | .readFreq, .readFreq => some { log with work := .schedule log.freqS }
  | .schedule freqS, .schedule =>
      some { log.scheduleDelayedWork HZ freqS with work := .idle }
  | _, _ => none

/-- What happens to a log. -/
inductive LogAct where
  | proc (act : ProcAct)
  | work (act : WorkAct)

/-- A step of one of the threads. -/
def logStep (HZ : Nat) (log : M10bmcLog) : LogAct → Option M10bmcLog
  | .proc act => procStep HZ log act
  | .work act => workStep HZ log act

/-- A step of the driver, whose devices may be probed at any time. -/
def driverStep (HZ : Nat) (logs : List M10bmcLog)
    (label : Act M10bmcLogCfg LogAct) : Option (List M10bmcLog) :=
  act toProbe (logStep HZ) logs label

end LinuxDfl.Bmc.LogSync

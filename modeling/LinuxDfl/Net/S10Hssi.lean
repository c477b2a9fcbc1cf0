import LinuxDfl.Lib.Population
import LinuxDfl.Net.Hssi

/-!
# The polling of the S10 HSSI

The driver polls the link of its network device: a timer, which arms itself
again, schedules a work each second, and the work reads the link status.  A
device is modelled from its probe to the release of its driver data.  The
thread which probes and removes it, the timer and the work take turns step by
step.
-/

namespace LinuxDfl.Net.S10Hssi

open LinuxDfl.Kernel
open LinuxDfl.Net.Hssi
open LinuxDfl.Lib.Population

/-! ## Parameters of the link -/

/-- The registers of `struct s10hssi_ops_params` which probe and poll use. -/
structure S10hssiOpsParams where
  txClrOff : Nat
  rxClrOff : Nat
  linkOff : Nat
  linkMask : BitVec 32
  deriving DecidableEq, Repr

/-- `CAP_CONTAINS_PCS` -/
def capContainsPcs : Field := genmask 15 8

/-- `CAP_CONTAINS_FEC` -/
def capContainsFec : Field := genmask 23 16

/-- `CAP_RATE_10G` -/
def capRate10g : Nat := 2

/-- `CAP_RATE_100G` -/
def capRate100g : Nat := 32

/-- `s10hssi_params` -/
def s10hssiParams : S10hssiOpsParams where
  txClrOff := 0x1c00
  rxClrOff := 0x0c00
  linkOff := 0x2480
  linkMask := 3

/-- `intel_ll_100g_params`, with the link registers which the probe sets -/
def intelLl100gParams (fec : Bool) : S10hssiOpsParams where
  txClrOff := 0x845
  rxClrOff := 0x945
  linkOff := if fec then 0xd06 else 0x326
  linkMask := if fec then 16 else 1

/-! ## Devices -/

/-- `struct net_device` with its `struct s10hssi_netdata` -/
structure NetDevice where
  registered : Bool
  opsParams : Option S10hssiOpsParams
  linkStatus : BitVec 32
  carrier : Bool
  deriving DecidableEq, Repr

/-- What `priv->netdev` points to. -/
inductive NetdevPtr where
  | null
  | valid (netdev : NetDevice)
  | freed
  deriving DecidableEq, Repr

/-- What `devm_ioremap_resource` returns. -/
inductive MmioBase where
  | valid
  | null
  | errPtr (ret : Errno)
  deriving DecidableEq, Repr

/-- Why the driver data is released. -/
inductive Exit where
  /-- The probe returned an error. -/
  | failed
  | removed
  deriving DecidableEq, Repr

/-- Where the thread which probes and removes is. -/
inductive ProcPc where
  | kzalloc
  | ioremap
  | allocNetdev (base : MmioBase)
  | readq (base : MmioBase)
  /-- Behind the `devm_kmalloc` of a 100G device. -/
  | kmalloc (fec : Bool)
  | regmapInit
  | ethtoolReset (regmap : Regmap)
  | registerNetdev
  | carrierOff (ret : Option Errno)
  | modTimer (ret : Option Errno)
  | devmRelease (exit : Exit)
  | bound
  /-- The device is unregistered, and about to be freed. -/
  | freeNetdev
  | delTimer
  | gone (exit : Exit)
  /-- An error pointer was used. -/
  | oops
  deriving DecidableEq, Repr

/-- Where the timer function is. -/
inductive TimerPc where
  /-- It does not run. -/
  | idle
  | scheduleWork
  | modTimer
  deriving DecidableEq, Repr

/-- Where the work is. -/
inductive WorkPc where
  /-- It does not run. -/
  | idle
  | read
  | update (linkStatus : BitVec 32)
  deriving DecidableEq, Repr

/-- `struct s10hssi_drvdata`, with the threads around it. -/
structure S10hssi where
  netdev : NetdevPtr
  /-- The driver data is freed. -/
  freed : Bool
  /-- `poll_timer` is armed. -/
  armed : Bool
  /-- `poll_workq` is pending. -/
  pending : Bool
  pc : ProcPc
  timer : TimerPc
  work : WorkPc
  deriving DecidableEq, Repr

/-- A device which is about to be probed. -/
def toProbe : S10hssi where
  netdev := .null
  freed := false
  armed := false
  pending := false
  pc := .kzalloc
  timer := .idle
  work := .idle

namespace NetdevPtr

/-- A field of a device which is there is written. -/
def write (change : NetDevice → NetDevice) : NetdevPtr → NetdevPtr
  | valid netdev => .valid (change netdev)
  | null => .null
  | freed => .freed

end NetdevPtr

/-! ## Probe and removal -/

/-- A step of the thread, with what the rest of the kernel returns to it. -/
inductive ProcAct where
  | kzalloc (ok : Bool)
  | ioremap (base : MmioBase)
  | allocNetdev (ok : Bool)
  | readq (val : BitVec 64)
  | kmalloc (ok : Bool)
  | regmapInit (env : RegmapEnv)
  /-- `ethtool_reset`, whose error is only reported -/
  | ethtoolReset (ret : Option Errno)
  | registerNetdev (ret : Option Errno)
  | carrierOff
  | modTimer
  | devmRelease
  | unregisterNetdev
  | freeNetdev
  | delTimerSync

/-- What `alloc_netdev` makes. -/
def newNetdev : NetDevice := ⟨false, none, 0, true⟩

/-- The probe returns. -/
def probeReturns : Option Errno → ProcPc
  | none => .bound
  | some _ => .devmRelease .failed

/-- The `if`s on the rate, in a device whose registers are mapped. -/
def readCapability (dev : S10hssi) (val : BitVec 64) : S10hssi :=
  let pcsSpeed := capContainsPcs.get val
  if pcsSpeed = capRate10g then
    { dev with
      netdev := dev.netdev.write fun netdev =>
        { netdev with opsParams := some s10hssiParams }
      pc := .regmapInit }
  else if pcsSpeed = capRate100g then
    { dev with pc := .kmalloc (capContainsFec.get val ≠ 0) }
  else
    { dev with pc := probeReturns (some .einval) }

/-- A step of `s10hssi_mac_probe` or of `s10hssi_mac_remove` -/
def procStep (dev : S10hssi) (act : ProcAct) : Option S10hssi :=
  match dev.pc, act with
  | .kzalloc, .kzalloc ok =>
      some { dev with pc := if ok then .ioremap else .gone .failed }
  | .ioremap, .ioremap .null =>
      some { dev with pc := probeReturns (some .enomem) }
  | .ioremap, .ioremap base => some { dev with pc := .allocNetdev base }
  | .allocNetdev _, .allocNetdev false =>
      some { dev with pc := probeReturns (some .enomem) }
  | .allocNetdev base, .allocNetdev true =>
      some { dev with netdev := .valid newNetdev, pc := .readq base }
  | .readq .valid, .readq val => some (readCapability dev val)
  -- the error pointer passes the check for `NULL`
  | .readq _, .readq _ => some { dev with pc := .oops }
  | .kmalloc _, .kmalloc false =>
      some { dev with pc := probeReturns (some .enomem) }
  | .kmalloc fec, .kmalloc true =>
      some { dev with
        netdev := dev.netdev.write fun netdev =>
          { netdev with opsParams := some (intelLl100gParams fec) }
        pc := .regmapInit }
  | .regmapInit, .regmapInit env =>
      match devmRegmapInitIndirectRegister env with
      | .null => some { dev with pc := probeReturns (some .enomem) }
      | regmap => some { dev with pc := .ethtoolReset regmap }
  | .ethtoolReset .valid, .ethtoolReset _ =>
      some { dev with pc := .registerNetdev }
  | .ethtoolReset _, .ethtoolReset _ => some { dev with pc := .oops }
  | .registerNetdev, .registerNetdev ret =>
      some { dev with
        netdev := dev.netdev.write fun netdev =>
          { netdev with registered := ret.isNone }
        pc := .carrierOff ret }
  | .carrierOff ret, .carrierOff =>
      some { dev with
        netdev := dev.netdev.write fun netdev =>
          { netdev with carrier := false }
        pc := .modTimer ret }
  | .modTimer ret, .modTimer =>
      some { dev with armed := true, pc := probeReturns ret }
  | .devmRelease exit, .devmRelease =>
      some { dev with freed := true, pc := .gone exit }
  | .bound, .unregisterNetdev =>
      some { dev with
        netdev := dev.netdev.write fun netdev =>
          { netdev with registered := false }
        pc := .freeNetdev }
  -- `needs_free_netdev` is set
  | .freeNetdev, .freeNetdev =>
      some { dev with netdev := .freed, pc := .delTimer }
  | .delTimer, .delTimerSync =>
      if dev.timer = .idle then
        some { dev with armed := false, pc := .devmRelease .removed }
      else none
  | _, _ => none

/-! ## The timer and the work -/

/-- A step of the timer. -/
inductive TimerAct where
  | expire
  | scheduleWork
  | modTimer
  deriving DecidableEq, Repr

/-- A step of `poll_timerf` -/
def timerStep (dev : S10hssi) (act : TimerAct) : Option S10hssi :=
  match dev.timer, act with
  | .idle, .expire =>
      if dev.armed then some { dev with armed := false, timer := .scheduleWork }
      else none
  | .scheduleWork, .scheduleWork =>
      some { dev with pending := true, timer := .modTimer }
  | .modTimer, .modTimer => some { dev with armed := true, timer := .idle }
  | _, _ => none

/-- A step of the work. -/
inductive WorkAct where
  /-- A worker takes the work. -/
  | start
  /-- `regmap_read`, with the value if it is read -/
  | read (val : Option (BitVec 32))
  | update
  deriving DecidableEq, Repr

namespace NetDevice

/-- The link status which is read, zero if it cannot be read -/
def maskLink (netdev : NetDevice) (val : Option (BitVec 32)) : BitVec 32 :=
  match netdev.opsParams with
  | some opsParams => val.getD 0 &&& opsParams.linkMask
  | none => val.getD 0

/-- The `if` of `poll_work` -/
def updateLink (netdev : NetDevice) (linkStatus : BitVec 32) : NetDevice :=
  if linkStatus = netdev.linkStatus then netdev
  else
    { netdev with
      linkStatus := linkStatus
      carrier := netdev.opsParams.any fun opsParams =>
        linkStatus = opsParams.linkMask }

end NetDevice

/-- A step of `poll_work` -/
def workStep (dev : S10hssi) (act : WorkAct) : Option S10hssi :=
  match dev.work, act with
  | .idle, .start =>
      if dev.pending then some { dev with pending := false, work := .read }
      else none
  | .read, .read val =>
      match dev.netdev with
      | .valid netdev =>
          some { dev with work := .update (netdev.maskLink val) }
      | _ => some { dev with work := .update (val.getD 0) }
  | .update linkStatus, .update =>
      some { dev with
        netdev := dev.netdev.write fun netdev =>
          netdev.updateLink linkStatus
        work := .idle }
  | _, _ => none

/-- What happens to a device. -/
inductive HssiAct where
  | proc (act : ProcAct)
  | timer (act : TimerAct)
  | work (act : WorkAct)

/-- A step of one of the threads. -/
def hssiStep (dev : S10hssi) : HssiAct → Option S10hssi
  | .proc act => procStep dev act
  | .timer act => timerStep dev act
  | .work act => workStep dev act

/-- A step of the driver, whose devices may be probed at any time. -/
def driverStep (devs : List S10hssi) (label : Act Unit HssiAct) :
    Option (List S10hssi) :=
  act (fun _ => toProbe) hssiStep devs label

end LinuxDfl.Net.S10Hssi

import LinuxDfl.Kernel.Bitfield
import LinuxDfl.Kernel.Errno
import Mathlib.Logic.Function.Basic

/-!
# Network devices of the HSSI

The probe of the low latency 100G MAC sets one network device up for each
port: it allocates the device, makes three register maps, clears the
statistics, registers the device and attaches a phy to it.
-/

namespace LinuxDfl.Net.Hssi

open LinuxDfl.Kernel

/-! ## Register maps -/

/-- What making a register map meets. -/
structure RegmapEnv where
  /-- `devm_kzalloc` -/
  kzalloc : Bool
  /-- `devm_regmap_init` -/
  init : Option Errno
  deriving DecidableEq, Repr

/-- A pointer to a register map. -/
inductive Regmap where
  | valid
  | null
  | errPtr (ret : Errno)
  deriving DecidableEq, Repr

/-- `devm_regmap_init_indirect_register` -/
def devmRegmapInitIndirectRegister (env : RegmapEnv) : Regmap :=
  if !env.kzalloc then .null
  else
    match env.init with
    | none => .valid
    | some ret => .errPtr ret

/-- `enum n5010_hssi_regmap` -/
inductive RegmapType where
  | mac
  | fec
  | phy
  deriving DecidableEq, Repr

/-- Where a register map is, and `struct regmap_config` of it. -/
structure RegmapConfig where
  base : Nat
  name : String
  regBits : Nat
  valBits : Nat
  maxRegister : Nat
  deriving DecidableEq, Repr

/-- The register map of a port which `n5010_hssi_create_regmap` asks for. -/
def regmapConfig (port : Nat) : RegmapType → RegmapConfig
  | .mac =>
      { base := port * 0x10 + 0x28
        name := "n5010_hssi_mac" ++ toString port
        regBits := 32
        valBits := 32
        maxRegister := 0xbbf }
  | .fec =>
      { base := port * 0x10 + 0x68
        name := "n5010_hssi_fec" ++ toString port
        regBits := 32
        valBits := 8
        maxRegister := 0x29c }
  | .phy =>
      { base := port * 0x10 + 0xa8
        name := "n5010_hssi_phy" ++ toString port
        regBits := 32
        valBits := 8
        maxRegister := 0x40144 }

/-! ## Devices -/

/-- `struct net_device` -/
structure NetDevice where
  /-- `needs_free_netdev` -/
  needsFree : Bool
  registered : Bool
  /-- `phydev` is set. -/
  attached : Bool
  freed : Bool
  deriving DecidableEq, Repr

/-- `n5010_hssi_init_netdev`, on a new device -/
def n5010HssiInitNetdev : NetDevice where
  needsFree := true
  registered := false
  attached := false
  freed := false

/-- What the probe has done. -/
structure Drvdata where
  /-- `netdev` of `struct n5010_hssi_drvdata` -/
  netdev : Nat → Option NetDevice
  /-- The ports for which a fixed phy is registered. -/
  phy : Nat → Bool
  /-- A register map could not be made. -/
  regmapFailed : Bool
  /-- `unregister_netdev` was called on a device which was not registered. -/
  stray : Bool
  phyMasterRefs : Int
  phyDevRefs : Int

/-- Why a function does not return zero. -/
inductive Stop where
  | errno (ret : Errno)
  /-- An invalid pointer has been dereferenced. -/
  | oops
  deriving DecidableEq, Repr

abbrev Outcome := Except Stop Unit × Drvdata

namespace Drvdata

variable (priv : Drvdata)

def setNetdev (port : Nat) (netdev : Option NetDevice) : Drvdata :=
  { priv with netdev := Function.update priv.netdev port netdev }

def setPhy (port : Nat) (registered : Bool) : Drvdata :=
  { priv with phy := Function.update priv.phy port registered }

def noteRegmap (regmap : Regmap) : Drvdata :=
  { priv with regmapFailed := priv.regmapFailed || regmap ≠ .valid }

/--
`unregister_netdev`, which frees a device that needs it.  A device which was
never registered is left alone, with a warning.
-/
def unregisterNetdev (port : Nat) : Drvdata :=
  match priv.netdev port with
  | some netdev =>
      if netdev.registered then
        priv.setNetdev port
          (some { netdev with registered := false, freed := netdev.needsFree })
      else
        { priv with stray := true }
  | none => { priv with stray := true }

end Drvdata

/-! ## Ports -/

/-- What clearing one set of statistics meets, one register access each. -/
structure ClearEnv where
  writeOne : Option Errno
  writeZero : Option Errno
  poll : Option Errno
  deriving DecidableEq, Repr

/-- What setting a port up meets. -/
structure PortEnv where
  /-- `alloc_netdev` -/
  alloc : Bool
  regmap : RegmapConfig → RegmapEnv
  txClear : ClearEnv
  rxClear : ClearEnv
  /-- `register_netdev` -/
  register : Option Errno
  /-- `fixed_phy_register` -/
  fixedPhy : Option Errno
  /-- `devm_kzalloc` of the port of the phy -/
  kzalloc : Bool
  /-- `phy_connect_direct` -/
  connect : Option Errno

/-- `n5010_hssi_create_regmap` -/
def PortEnv.n5010HssiCreateRegmap (env : PortEnv) (port : Nat)
    (type : RegmapType) : Regmap :=
  devmRegmapInitIndirectRegister (env.regmap (regmapConfig port type))

/-- Clear statistics, and wait until they are cleared. -/
def ClearEnv.clear (env : ClearEnv) : Option Errno :=
  env.writeOne <|> env.writeZero <|> env.poll

/-- `ethtool_reset`; its test of the flags is always true -/
def ethtoolReset (env : PortEnv) (regmapMac : Regmap) : Option Stop :=
  match regmapMac with
  | .valid => (env.txClear.clear <|> env.rxClear.clear).map Stop.errno
  | .null | .errPtr _ => some .oops

/-- `n5010_phy_attach` -/
def n5010PhyAttach (env : PortEnv) (port : Nat) (priv : Drvdata) :
    Option Errno × Drvdata :=
  match env.fixedPhy with
  | some ret => (some ret, priv)
  | none =>
      let priv := priv.setPhy port true
      if !env.kzalloc then (some .enomem, priv)
      else
        match env.connect with
        | some ret => (some ret, priv.setPhy port false)
        | none =>
            (none, priv.setNetdev port ((priv.netdev port).map fun netdev =>
              { netdev with attached := true }))

/-- `n5010_phy_detach` -/
def n5010PhyDetach (port : Nat) (priv : Drvdata) : Drvdata :=
  (priv.setNetdev port ((priv.netdev port).map fun netdev =>
    { netdev with attached := false })).setPhy port false

/-- The label `err_unreg_netdev` of `n5010_hssi_create_netdev`. -/
def errUnregNetdev (port : Nat) (ret : Errno) (priv : Drvdata) : Outcome :=
  (.error (.errno ret), priv.unregisterNetdev port)

/-- Make the next register map of a port; only `NULL` counts as a failure. -/
def withRegmap (env : PortEnv) (port : Nat) (type : RegmapType) (priv : Drvdata)
    (next : Drvdata → Outcome) : Outcome :=
  let regmap := env.n5010HssiCreateRegmap port type
  let priv := priv.noteRegmap regmap
  if regmap = .null then errUnregNetdev port .enomem priv
  else next priv

/-- `n5010_hssi_create_netdev`, from the reset on -/
def startNetdev (env : PortEnv) (port : Nat) (priv : Drvdata) : Outcome :=
  match ethtoolReset env (env.n5010HssiCreateRegmap port .mac) with
  | some .oops => (.error .oops, priv)
  | some (.errno ret) => errUnregNetdev port ret priv
  | none =>
      match env.register with
      | some ret => errUnregNetdev port ret priv
      | none =>
          let priv := priv.setNetdev port
            ((priv.netdev port).map fun netdev =>
              { netdev with registered := true })
          match n5010PhyAttach env port priv with
          | (some ret, priv) => errUnregNetdev port ret priv
          | (none, priv) => (.ok (), priv)

/-- `n5010_hssi_create_netdev` -/
def n5010HssiCreateNetdev (env : PortEnv) (port : Nat) (priv : Drvdata) :
    Outcome :=
  if !env.alloc then (.error (.errno .enomem), priv.setNetdev port none)
  else
    withRegmap env port .mac (priv.setNetdev port (some n5010HssiInitNetdev))
      fun priv =>
    withRegmap env port .fec priv fun priv =>
    withRegmap env port .phy priv fun priv => startNetdev env port priv

/-! ## The probe -/

/-- `CAP_PORT_CNT` -/
def capPortCnt : Field := genmask 43 40

/-- What the probe meets. -/
structure ProbeEnv where
  /-- `bus_find_device` finds the SPI controller. -/
  phyMaster : Bool
  /-- `device_find_child` finds the phy. -/
  phyDev : Bool
  /-- `devm_ioremap_resource` -/
  ioremap : Option Errno
  /-- What is read at `CAPABILITY_OFFSET`. -/
  capability : BitVec 64
  /-- `devm_kzalloc` -/
  kzalloc : Bool
  port : Nat → PortEnv

def ProbeEnv.portCnt (env : ProbeEnv) : Nat :=
  capPortCnt.get env.capability

/-- The loop over the ports of `n5010_hssi_probe`. -/
def createNetdevs (env : Nat → PortEnv) : Nat → Nat → Drvdata → Outcome
  | 0, _, priv => (.ok (), priv)
  | left + 1, port, priv =>
      match n5010HssiCreateNetdev (env port) port priv with
      | (.error stop, priv) => (.error stop, priv)
      | (.ok (), priv) => createNetdevs env left (port + 1) priv

/-- `err_phy_master` of `n5010_hssi_probe` -/
def errPhyMaster (outcome : Outcome) : Outcome :=
  (outcome.1,
    { outcome.2 with phyMasterRefs := outcome.2.phyMasterRefs - 1 })

/-- `err_phy_dev` of `n5010_hssi_probe`, which is also where it ends well -/
def errPhyDev (outcome : Outcome) : Outcome :=
  errPhyMaster
    (outcome.1, { outcome.2 with phyDevRefs := outcome.2.phyDevRefs - 1 })

/-- The end of `n5010_hssi_probe`, which an oops does not come to. -/
def endProbe : Outcome → Outcome
  | (.error .oops, priv) => (.error .oops, priv)
  | outcome => errPhyDev outcome

/-- Nothing is allocated or registered yet. -/
def Drvdata.initial : Drvdata where
  netdev _ := none
  phy _ := false
  regmapFailed := false
  stray := false
  phyMasterRefs := 0
  phyDevRefs := 0

/-- `n5010_hssi_probe` -/
def n5010HssiProbe (env : ProbeEnv) : Outcome :=
  if !env.phyMaster then (.error (.errno (.other 517)), .initial)
  else
    let priv := { Drvdata.initial with phyMasterRefs := 1 }
    if !env.phyDev then
      errPhyMaster (.error (.errno (.other 517)), priv)
    else
      let priv := { priv with phyDevRefs := 1 }
      match env.ioremap with
      | some ret => errPhyDev (.error (.errno ret), priv)
      | none =>
          if !env.kzalloc then
            errPhyDev (.error (.errno .enomem), priv)
          else
            endProbe (createNetdevs env.port env.portCnt 0 priv)

/-- The loop of `n5010_hssi_remove`. -/
def removeNetdevs : Nat → Nat → Drvdata → Drvdata
  | 0, _, priv => priv
  | left + 1, port, priv =>
      removeNetdevs left (port + 1)
        ((n5010PhyDetach port priv).unregisterNetdev port)

/-- `n5010_hssi_remove` -/
def n5010HssiRemove (env : ProbeEnv) (priv : Drvdata) : Drvdata :=
  removeNetdevs env.portCnt 0 priv

end LinuxDfl.Net.Hssi

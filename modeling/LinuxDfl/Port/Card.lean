import Mathlib.Data.Finset.Option
import Mathlib.Data.Finset.Card
import LinuxDfl.Kernel.Bitfield
import LinuxDfl.Lib.SharedExclusive
import LinuxDfl.Port.FeatureDev

/-!
# A card: ports, their users and the SR-IOV configuration

The state of a card joins the container device with what surrounds it: the
files open on the ports' character devices, the FME `PORT_OFST` registers and
whether SR-IOV is enabled.  An operation is one complete call, since the
container device and each port are protected by mutexes.

`released` is a history variable.  It collects the ports whose last
successful release has not been followed by a successful assign.
-/

namespace LinuxDfl.Port

open LinuxDfl.Kernel
open LinuxDfl.Lib.SharedExclusive

/-! ## Port access modes -/

/-- `FME_PORT_OFST_ACC_CTRL` -/
def fmePortOfstAccCtrl : Field := bit 55

/-- `FME_PORT_OFST_ACC_PF` -/
def fmePortOfstAccPf : Nat := 0

/-- `FME_PORT_OFST_ACC_VF` -/
def fmePortOfstAccVf : Nat := 1

/-- The `FME_HDR_PORT_OFST(n)` registers of the FME header. -/
abbrev PortOfst := Int → BitVec 64

/-- `config_port_access_mode` -/
def configPortAccessMode (portOfst : PortOfst) (portId : Int) (isVf : Bool) :
    PortOfst :=
  fun n =>
    if n = portId then
      fmePortOfstAccCtrl.update (portOfst portId)
        (if isVf then fmePortOfstAccVf else fmePortOfstAccPf)
    else
      portOfst n

/-- Configure every port of the list without a platform device. -/
def configReleasedPorts (isVf : Bool) (portOfst : PortOfst) :
    List FeatureDevData → PortOfst
  | [] => portOfst
  | fdata :: rest =>
      if fdata.dev.isSome then
        configReleasedPorts isVf portOfst rest
      else
        configReleasedPorts isVf
          (configPortAccessMode portOfst fdata.id isVf) rest

/-- `dfl_fpga_cdev_config_ports_pf` -/
def dflFpgaCdevConfigPortsPf (cdev : DflFpgaCdev) (portOfst : PortOfst) :
    PortOfst :=
  configReleasedPorts false portOfst cdev.portDevList

/-- `dfl_fpga_cdev_config_ports_vf` -/
def dflFpgaCdevConfigPortsVf
    (cdev : DflFpgaCdev) (portOfst : PortOfst) (numVfs : Nat) :
    Option Errno × PortOfst :=
  let portCount := (cdev.portDevList.filter (·.dev.isNone)).length
  if portCount ≠ 0 ∧ cdev.releasedPortNum.toInt ≠ numVfs then
    (some .einval, portOfst)
  else
    (none, configReleasedPorts true portOfst cdev.portDevList)

/-! ## The card -/

/-- An open file of a port's character device. -/
structure OpenFile where
  port : Nat
  excl : Bool
  deriving DecidableEq, Repr

structure Card where
  cdev : DflFpgaCdev
  files : List OpenFile
  released : Finset Nat
  portOfst : PortOfst
  sriov : Bool

/-- The calls made on a card, with the answers of its surroundings. -/
inductive Op where
  /-- `afu_open` of the port at a position, with or without `O_EXCL` -/
  | afuOpen (port : Nat) (excl : Bool)
  /-- `afu_release` of an open file, by its position among the open files -/
  | afuRelease (file : Nat)
  | releasePort (portOps : Nat → Bool) (portId : Int)
  | assignPort (portOps : Nat → Bool) (env : RegisterEnv) (portId : Int)
  /-- `cci_pci_sriov_configure`; `enable` is what `pci_enable_sriov` returns -/
  | sriovConfigure (numVfs : Nat) (enable : Option Errno)

namespace Card

/-- `afu_open` -/
def afuOpen (card : Card) (port : Nat) (excl : Bool) : Option Errno × Card :=
  match card.cdev.portDevList[port]? with
  | none => (some .enxio, card)
  | some fdata =>
      match dflFeatureDevUseBegin fdata excl with
      | (some ret, _) => (some ret, card)
      | (none, fdata) =>
          (none, { card with
            cdev := card.cdev.setPort port fdata
            files := ⟨port, excl⟩ :: card.files })

/-- `afu_release`; the use count is all it shares with the other operations. -/
def afuRelease (card : Card) (file : Nat) : Option Errno × Card :=
  match card.files[file]? with
  | none => (some .ebadf, card)
  | some openFile =>
      match card.cdev.portDevList[openFile.port]? with
      | none => (some .enxio, card)
      | some fdata =>
          (none, { card with
            cdev :=
              card.cdev.setPort openFile.port (dflFeatureDevUseEnd fdata)
            files := card.files.eraseIdx file })

/-- The position at which a port id is found. -/
def findPort (card : Card) (portOps : Nat → Bool) (portId : Int) :
    Option Nat :=
  (dflFpgaCdevFindPortData portOps portId card.cdev.portDevList).1

def releasePort (card : Card) (portOps : Nat → Bool) (portId : Int) :
    Option Errno × Card :=
  match dflFpgaCdevReleasePort portOps card.cdev portId with
  | (some ret, cdev) => (some ret, { card with cdev := cdev })
  | (none, cdev) =>
      (none, { card with
        cdev := cdev
        released :=
          card.released ∪ (card.findPort portOps portId).toFinset })

def assignPort
    (card : Card) (portOps : Nat → Bool) (env : RegisterEnv)
    (portId : Int) : Option Errno × Card :=
  match dflFpgaCdevAssignPort portOps env card.cdev portId with
  | (some ret, cdev) => (some ret, { card with cdev := cdev })
  | (none, cdev) =>
      (none, { card with
        cdev := cdev
        released :=
          card.released \ (card.findPort portOps portId).toFinset })

/-- `cci_pci_sriov_configure` -/
def sriovConfigure (card : Card) (numVfs : Nat) (enable : Option Errno) :
    Option Errno × Card :=
  if numVfs = 0 then
    (none, { card with
      sriov := false
      portOfst := dflFpgaCdevConfigPortsPf card.cdev card.portOfst })
  else
    match dflFpgaCdevConfigPortsVf card.cdev card.portOfst numVfs with
    | (some ret, _) => (some ret, card)
    | (none, portOfst) =>
        match enable with
        | none => (none, { card with sriov := true, portOfst := portOfst })
        | some ret =>
            (some ret, { card with
              portOfst := dflFpgaCdevConfigPortsPf card.cdev portOfst })

/-- Perform one call. -/
def apply (card : Card) : Op → Option Errno × Card
  | .afuOpen port excl => card.afuOpen port excl
  | .afuRelease file => card.afuRelease file
  | .releasePort portOps portId => card.releasePort portOps portId
  | .assignPort portOps env portId => card.assignPort portOps env portId
  | .sriovConfigure numVfs enable => card.sriovConfigure numVfs enable

/-- One call leads from a card to the next. -/
def Step (card : Card) (op : Op) (next : Card) : Prop :=
  (card.apply op).2 = next

/-- Exclusive or shared holds of a port: its open files and its release. -/
def holders (card : Card) (port : Nat) : Holders :=
  ((card.files.filter (·.port = port)).map (·.excl) : List Bool) +
    (if port ∈ card.released then {true} else 0)

/-- A port of the card by its position. -/
def IsPort (card : Card) (port : Nat) (fdata : FeatureDevData) : Prop :=
  card.cdev.portDevList[port]? = some fdata

/-- A card whose ports have just been enumerated on the physical function. -/
structure Enumerated (card : Card) : Prop where
  registered :
    ∀ port fdata, card.IsPort port fdata →
      fdata.dev.isSome ∧ fdata.id = featureDevIdUnused ∧
        fdata.exclOpen = false ∧ fdata.openCount = 0
  no_files : card.files = []
  no_released : card.released = ∅ ∧ card.cdev.releasedPortNum = 0
  sriov_off : card.sriov = false

end Card

/-- A card with ports 0 and 1, as it is after enumeration. -/
def twoPortCard : Card where
  cdev :=
    { portDevList :=
        [⟨0, some 0, featureDevIdUnused, false, 0, [⟨some 0⟩]⟩,
          ⟨1, some 1, featureDevIdUnused, false, 0, [⟨some 1⟩]⟩]
      releasedPortNum := 0 }
  files := []
  released := ∅
  portOfst := fun _ => 0
  sriov := false

theorem twoPortCard_enumerated : twoPortCard.Enumerated where
  registered := by
    intro port fdata isPort
    rw [Card.IsPort, twoPortCard] at isPort
    rcases port with _ | _ | port <;> simp at isPort <;>
      simp [← isPort]
  no_files := rfl
  no_released := ⟨rfl, rfl⟩
  sriov_off := rfl

end LinuxDfl.Port

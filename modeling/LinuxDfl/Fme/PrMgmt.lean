import Mathlib.Data.Multiset.MapFold
import LinuxDfl.Fme.PartialReconfig
import LinuxDfl.Lib.Monitor

/-!
# The devices of partial reconfiguration

The FME creates platform devices for partial reconfiguration: one manager, and
for each implemented port a bridge, and a region which refers to the manager
and to the bridge.  Creation may fail at any point.  No device goes away while
another one refers to it, and after a failure or the removal none is left.
-/

namespace LinuxDfl.Fme.PrMgmt

open LinuxDfl.Kernel
open LinuxDfl.Lib.Monitor

/-! ## Platform devices -/

/--
The platform data of a device.  A device is known by the number of its
allocation.
-/
inductive PData where
  /-- `struct dfl_fme_mgr_pdata` -/
  | mgr
  /-- `struct dfl_fme_br_pdata` -/
  | br (portId : Nat)
  /-- `struct dfl_fme_region_pdata` -/
  | region (mgr br : Nat)
  deriving DecidableEq, Repr

structure PlatformDevice where
  ident : Nat
  pdata : PData
  deriving DecidableEq, Repr

/-- The devices to which the platform data refers. -/
def PlatformDevice.refs (pdev : PlatformDevice) : List Nat :=
  match pdev.pdata with
  | .region mgr br => [mgr, br]
  | .mgr | .br _ => []

/-- A call of the driver core. -/
inductive DevEvent where
  | alloc (pdev : PlatformDevice)
  | add (pdev : PlatformDevice)
  /-- `platform_device_put` of a device which could not be added -/
  | put (pdev : PlatformDevice)
  | unregister (pdev : PlatformDevice)
  deriving DecidableEq, Repr

/-- The driver core, with the calls so far. -/
structure DriverCore where
  next : Nat
  events : List DevEvent
  deriving DecidableEq, Repr

def DriverCore.call (core : DriverCore) (event : DevEvent) : DriverCore :=
  { core with events := core.events ++ [event] }

/-- What the creation of a device meets. -/
structure Creation where
  kzalloc : Bool
  platformDeviceAlloc : Bool
  platformDeviceAddData : Option Errno
  platformDeviceAdd : Option Errno
  deriving DecidableEq, Repr

/-- From `platform_device_alloc` on. -/
def createDevice (creation : Creation) (pdata : PData) (core : DriverCore) :
    Except Errno PlatformDevice × DriverCore :=
  if !creation.platformDeviceAlloc then
    (.error .enomem, core)
  else
    let pdev : PlatformDevice := ⟨core.next, pdata⟩
    let core := { core with next := core.next + 1 }.call (.alloc pdev)
    match creation.platformDeviceAddData with
    | some ret => (.error ret, core.call (.put pdev))
    | none =>
        match creation.platformDeviceAdd with
        | some ret => (.error ret, core.call (.put pdev))
        | none => (.ok pdev, core.call (.add pdev))

/-! ## `pr_mgmt_init` -/

/-- `FME_PORT_OFST_IMP` -/
def fmePortOfstImp : Field := bit 60

/-- `struct dfl_fme_region` -/
structure DflFmeRegion where
  region : PlatformDevice
  portId : Nat
  deriving DecidableEq, Repr

/-- `struct dfl_fme`; a bridge of the list is its platform device. -/
structure DflFme where
  mgr : Option PlatformDevice
  bridgeList : List PlatformDevice
  regionList : List DflFmeRegion
  core : DriverCore
  deriving DecidableEq, Repr

/-- What `pr_mgmt_init` reads, and what it meets. -/
structure PrMgmtEnv where
  /-- The feature has its registers mapped. -/
  ioaddr : Bool
  /-- `FME_HDR_CAP` -/
  fmeCap : BitVec 64
  /-- `FME_HDR_PORT_OFST` -/
  portOffset : Nat → BitVec 64
  mgr : Creation
  br : Nat → Creation
  region : Nat → Creation

/-- `dfl_fme_create_mgr` -/
def dflFmeCreateMgr (env : PrMgmtEnv) (core : DriverCore) :
    Except Errno PlatformDevice × DriverCore :=
  if !env.ioaddr then (.error .enodev, core)
  else createDevice env.mgr .mgr core

/-- `dfl_fme_create_bridge` -/
def dflFmeCreateBridge (creation : Creation) (portId : Nat)
    (core : DriverCore) : Except Errno PlatformDevice × DriverCore :=
  if !creation.kzalloc then (.error .enomem, core)
  else createDevice creation (.br portId) core

/-- `dfl_fme_create_region` -/
def dflFmeCreateRegion (creation : Creation) (mgr br : PlatformDevice)
    (portId : Nat) (core : DriverCore) :
    Except Errno DflFmeRegion × DriverCore :=
  if !creation.kzalloc then
    (.error .enomem, core)
  else
    let created := createDevice creation (.region mgr.ident br.ident) core
    (created.1.map fun region => ⟨region, portId⟩, created.2)

/-- `platform_device_unregister` of the devices of a list, in order. -/
def unregisterAll (pdevs : List PlatformDevice) (core : DriverCore) :
    DriverCore :=
  pdevs.foldl (fun core pdev => core.call (.unregister pdev)) core

/-- `dfl_fme_destroy_regions` -/
def dflFmeDestroyRegions (fme : DflFme) : DflFme :=
  { fme with
    regionList := []
    core := unregisterAll (fme.regionList.map (·.region)) fme.core }

/-- `dfl_fme_destroy_bridges` -/
def dflFmeDestroyBridges (fme : DflFme) : DflFme :=
  { fme with
    bridgeList := [], core := unregisterAll fme.bridgeList fme.core }

/-- `dfl_fme_destroy_mgr` -/
def dflFmeDestroyMgr (fme : DflFme) : DflFme :=
  { fme with core := unregisterAll fme.mgr.toList fme.core }

/-- `pr_mgmt_uinit`, and the label `destroy_region` of `pr_mgmt_init` -/
def prMgmtUinit (fme : DflFme) : DflFme :=
  dflFmeDestroyMgr (dflFmeDestroyBridges (dflFmeDestroyRegions fme))

/-- The port is implemented. -/
def PrMgmtEnv.implemented (env : PrMgmtEnv) (portId : Nat) : Bool :=
  env.portOffset portId &&& fmePortOfstImp.mask ≠ 0

/-- The loop of `pr_mgmt_init`, over the ports which are left. -/
def prMgmtLoop (env : PrMgmtEnv) (mgr : PlatformDevice) :
    List Nat → DflFme → Option Errno × DflFme
  | [], fme => (none, fme)
  | portId :: rest, fme =>
      if !env.implemented portId then
        prMgmtLoop env mgr rest fme
      else
        match dflFmeCreateBridge (env.br portId) portId fme.core with
        | (.error ret, core) => (some ret, { fme with core := core })
        | (.ok br, core) =>
            let fme := { fme with
              bridgeList := br :: fme.bridgeList, core := core }
            match dflFmeCreateRegion (env.region portId) mgr br portId
                fme.core with
            | (.error ret, core) => (some ret, { fme with core := core })
            | (.ok region, core) =>
                prMgmtLoop env mgr rest { fme with
                  regionList := region :: fme.regionList, core := core }

/-- `FIELD_GET(FME_CAP_NUM_PORTS, fme_cap)` -/
def PrMgmtEnv.numPorts (env : PrMgmtEnv) : Nat :=
  fmeCapNumPorts.get env.fmeCap

/-- `pr_mgmt_init` -/
def prMgmtInit (env : PrMgmtEnv) (fme : DflFme) : Option Errno × DflFme :=
  let fme := { fme with regionList := [], bridgeList := [] }
  match dflFmeCreateMgr env fme.core with
  | (.error _, core) => (some .enodev, { fme with core := core })
  | (.ok mgr, core) =>
      let fme := { fme with mgr := some mgr, core := core }
      match prMgmtLoop env mgr (List.range env.numPorts) fme with
      | (some ret, fme) => (some ret, prMgmtUinit fme)
      | (none, fme) => (none, fme)

/-- `dfl_fme_region_find_by_port_id` -/
def dflFmeRegionFindByPortId (fme : DflFme) (portId : Nat) :
    Option DflFmeRegion :=
  fme.regionList.find? fun region => region.portId = portId

/-! ## What the driver core allows -/

/--
The platform devices which are registered, and the one which is allocated and
not registered yet.
-/
structure Registry where
  devices : Multiset PlatformDevice
  fresh : Option PlatformDevice

namespace Registry

/--
A new device has a number of its own and refers to registered devices; a
device goes away once, and not before those which refer to it.
-/
def observe (registry : Registry) : DevEvent → Option Registry
  | .alloc pdev =>
      if registry.fresh = none ∧
          pdev.ident ∉ registry.devices.map (·.ident) ∧
          ∀ ref ∈ pdev.refs, ref ∈ registry.devices.map (·.ident) then
        some { registry with fresh := some pdev }
      else
        none
  | .add pdev =>
      if registry.fresh = some pdev then
        some ⟨pdev ::ₘ registry.devices, none⟩
      else
        none
  | .put pdev =>
      if registry.fresh = some pdev then
        some { registry with fresh := none }
      else
        none
  | .unregister pdev =>
      if pdev ∈ registry.devices ∧
          ∀ other ∈ registry.devices, pdev.ident ∉ other.refs then
        some { registry with devices := registry.devices.erase pdev }
      else
        none

/-- These devices are registered. -/
def of (devices : Multiset PlatformDevice) : Registry := ⟨devices, none⟩

end Registry

/-- The numbers of the devices, and of those they refer to, are in use. -/
def Below (next : Nat) (devices : Multiset PlatformDevice) : Prop :=
  ∀ pdev ∈ devices, pdev.ident < next ∧ ∀ ref ∈ pdev.refs, ref < next

theorem Below.mono {next later : Nat} {devices : Multiset PlatformDevice}
    (below : Below next devices) (grows : next ≤ later) :
    Below later devices := fun pdev member =>
  ⟨Nat.lt_of_lt_of_le (below pdev member).1 grows,
    fun ref refers => Nat.lt_of_lt_of_le ((below pdev member).2 ref refers)
      grows⟩

/-- What was called takes the registry from these devices to those. -/
def Calls (before after : DriverCore) (first last : Multiset PlatformDevice) :
    Prop :=
  Follows Registry.observe before.events after.events (.of first) (.of last)

theorem Calls.refl (core : DriverCore) (devices : Multiset PlatformDevice) :
    Calls core core devices devices := Follows.refl _ _

theorem Calls.trans {before between after : DriverCore}
    {first middle last : Multiset PlatformDevice}
    (front : Calls before between first middle)
    (back : Calls between after middle last) :
    Calls before after first last := Follows.trans front back

/-! ## Creating and destroying -/

/-- Nothing stops the device from being added once it is asked for. -/
def Creation.adds (creation : Creation) : Bool :=
  creation.platformDeviceAlloc && creation.platformDeviceAddData.isNone &&
    creation.platformDeviceAdd.isNone

/--
How a creation ends: a device is registered, or nothing is left of it.
-/
inductive Created {Value : Type} (created : Except Errno Value × DriverCore)
    (succeeds : Bool) (core : DriverCore)
    (devices : Multiset PlatformDevice) (pdata : PData)
    (result : PlatformDevice → Value) : Prop where
  | failed (ret : Errno) (isError : created.1 = .error ret)
      (fails : succeeds = false)
      (calls : Calls core created.2 devices devices)
      (grows : core.next ≤ created.2.next)
  | made (isOk : created.1 = .ok (result ⟨core.next, pdata⟩))
      (fine : succeeds = true)
      (calls : Calls core created.2 devices (⟨core.next, pdata⟩ ::ₘ devices))
      (grows : created.2.next = core.next + 1)

theorem created_device (creation : Creation) (pdata : PData)
    (core : DriverCore) {devices : Multiset PlatformDevice}
    (below : Below core.next devices)
    (refers : ∀ ref ∈ PlatformDevice.refs ⟨core.next, pdata⟩,
      ref ∈ devices.map (·.ident)) :
    Created (createDevice creation pdata core) creation.adds core devices
      pdata id := by
  let pdev : PlatformDevice := ⟨core.next, pdata⟩
  have unused : pdev.ident ∉ devices.map (·.ident) := by
    intro used
    obtain ⟨other, member, same⟩ := Multiset.mem_map.mp used
    exact absurd (below other member).1 (by rw [same]; exact Nat.lt_irrefl _)
  have alloc :
      Registry.observe (.of devices) (.alloc pdev) =
        some ⟨devices, some pdev⟩ := if_pos ⟨rfl, unused, refers⟩
  have dropped :
      Registry.observe ⟨devices, some pdev⟩ (.put pdev) =
        some (.of devices) := if_pos rfl
  have put :
      Calls core
        (({ core with next := core.next + 1 }.call (.alloc pdev)).call
          (.put pdev)) devices devices :=
    (Follows.event alloc core.events).trans (Follows.event dropped _)
  have added :
      Registry.observe ⟨devices, some pdev⟩ (.add pdev) =
        some (.of (pdev ::ₘ devices)) := if_pos rfl
  unfold createDevice Creation.adds
  cases creation.platformDeviceAlloc with
  | false => exact .failed _ rfl rfl (Calls.refl _ _) (Nat.le_refl _)
  | true =>
      cases creation.platformDeviceAddData with
      | some ret => exact .failed _ rfl rfl put (Nat.le_succ _)
      | none =>
          cases creation.platformDeviceAdd with
          | some ret => exact .failed _ rfl rfl put (Nat.le_succ _)
          | none =>
              exact .made rfl rfl
                ((Follows.event alloc core.events).trans
                  (Follows.event added _)) rfl

/-- Devices to which nothing refers are unregistered one after the other. -/
theorem calls_unregisterAll (pdevs : List PlatformDevice) (core : DriverCore)
    (rest : Multiset PlatformDevice)
    (free : ∀ pdev ∈ pdevs, ∀ other ∈ (pdevs : Multiset _) + rest,
      pdev.ident ∉ PlatformDevice.refs other) :
    Calls core (unregisterAll pdevs core) ((pdevs : Multiset _) + rest)
      rest := by
  induction pdevs generalizing core with
  | nil =>
      simp only [Multiset.coe_nil, Multiset.zero_add]
      exact Calls.refl _ _
  | cons pdev pdevs ih =>
      rw [← Multiset.cons_coe, Multiset.cons_add] at free ⊢
      have first :
          Registry.observe (.of (pdev ::ₘ ((pdevs : Multiset _) + rest)))
              (.unregister pdev) =
            some (.of ((pdevs : Multiset _) + rest)) := by
        rw [Registry.observe, if_pos]
        · simp [Registry.of]
        · exact ⟨Multiset.mem_cons_self _ _,
            fun other member => free pdev List.mem_cons_self other member⟩
      have gone :
          Calls core (core.call (.unregister pdev))
            (pdev ::ₘ ((pdevs : Multiset _) + rest))
            ((pdevs : Multiset _) + rest) := Follows.event first core.events
      refine gone.trans (ih (core.call (.unregister pdev)) ?_)
      intro other member device among
      exact free other (List.mem_cons_of_mem _ member) device
        (Multiset.mem_cons_of_mem among)

@[simp]
theorem unregisterAll_next (pdevs : List PlatformDevice) (core : DriverCore) :
    (unregisterAll pdevs core).next = core.next := by
  induction pdevs generalizing core with
  | nil => rfl
  | cons pdev pdevs ih => exact ih (core.call (.unregister pdev))

/-! ## What is built -/

/-- The devices of partial reconfiguration, and those of others. -/
def DflFme.devices (fme : DflFme) (mgr : PlatformDevice)
    (others : Multiset PlatformDevice) : Multiset PlatformDevice :=
  (fme.regionList.map (·.region) : Multiset _) +
    ((fme.bridgeList : Multiset _) + mgr ::ₘ others)

/--
What is known of the devices while they are created; those of others have
numbers below `low`.
-/
structure Built (mgr : PlatformDevice) (others : Multiset PlatformDevice)
    (low : Nat) (fme : DflFme) : Prop where
  others : Below low others
  isMgr : mgr.pdata = .mgr
  hasMgr : fme.mgr = some mgr
  mgr_ident : low ≤ mgr.ident ∧ mgr.ident < fme.core.next
  bridges : ∀ br ∈ fme.bridgeList,
    br.refs = [] ∧ low ≤ br.ident ∧ br.ident < fme.core.next
  /-- A region refers to the manager and to the bridge of its port. -/
  regions : ∀ region ∈ fme.regionList, ∃ br ∈ fme.bridgeList,
    br.pdata = .br region.portId ∧
      region.region.pdata = .region mgr.ident br.ident
  region_ident : ∀ region ∈ fme.regionList,
    low ≤ region.region.ident ∧ region.region.ident < fme.core.next ∧
      region.region.ident ≠ mgr.ident ∧
        ∀ br ∈ fme.bridgeList, region.region.ident ≠ br.ident

namespace Built

variable {mgr : PlatformDevice} {others : Multiset PlatformDevice}
  {low : Nat} {fme : DflFme}

theorem mgr_refs (built : Built mgr others low fme) : mgr.refs = [] := by
  rw [PlatformDevice.refs, built.isMgr]

/-- A region refers to nothing but the manager and a bridge. -/
theorem region_refs (built : Built mgr others low fme)
    {region : DflFmeRegion} (member : region ∈ fme.regionList) :
    ∀ ref ∈ region.region.refs, ref = mgr.ident ∨
      ∃ br ∈ fme.bridgeList, ref = br.ident := by
  obtain ⟨br, among, -, pdata⟩ := built.regions region member
  intro ref refers
  rw [PlatformDevice.refs, pdata] at refers
  simp only [List.mem_cons, List.not_mem_nil, or_false] at refers
  rcases refers with rfl | rfl
  · exact Or.inl rfl
  · exact Or.inr ⟨br, among, rfl⟩

theorem mem_devices {pdev : PlatformDevice} :
    pdev ∈ fme.devices mgr others ↔
      (∃ region ∈ fme.regionList, region.region = pdev) ∨
        pdev ∈ fme.bridgeList ∨ pdev = mgr ∨ pdev ∈ others := by
  simp only [DflFme.devices, Multiset.mem_add, Multiset.mem_coe,
    List.mem_map, Multiset.mem_cons]

theorem below (built : Built mgr others low fme) :
    Below fme.core.next (fme.devices mgr others) := by
  intro pdev member
  rcases mem_devices.mp member with ⟨region, isRegion, rfl⟩ | isBridge |
    rfl | isOther
  · refine ⟨(built.region_ident region isRegion).2.1, fun ref refers => ?_⟩
    rcases built.region_refs isRegion ref refers with rfl | ⟨br, among, rfl⟩
    · exact built.mgr_ident.2
    · exact (built.bridges br among).2.2
  · obtain ⟨noRefs, -, inUse⟩ := built.bridges pdev isBridge
    refine ⟨inUse, fun ref refers => ?_⟩
    rw [noRefs] at refers
    exact absurd refers List.not_mem_nil
  · refine ⟨built.mgr_ident.2, fun ref refers => ?_⟩
    rw [built.mgr_refs] at refers
    exact absurd refers List.not_mem_nil
  · have later : low ≤ fme.core.next :=
      Nat.le_of_lt (Nat.lt_of_le_of_lt built.mgr_ident.1 built.mgr_ident.2)
    exact built.others.mono later pdev isOther

/-- What others refer to is not of partial reconfiguration. -/
theorem not_mem_refs_others (built : Built mgr others low fme) {ident : Nat}
    (above : low ≤ ident) {other : PlatformDevice} (member : other ∈ others) :
    ident ∉ other.refs := fun refers =>
  absurd ((built.others other member).2 ident refers) (Nat.not_lt.mpr above)

/-- All devices of partial reconfiguration are unregistered. -/
theorem uinit (built : Built mgr others low fme) :
    Calls fme.core (prMgmtUinit fme).core (fme.devices mgr others)
      others := by
  have regions := calls_unregisterAll (fme.regionList.map (·.region))
    fme.core ((fme.bridgeList : Multiset _) + mgr ::ₘ others) (by
      intro pdev member other among
      obtain ⟨region, isRegion, rfl⟩ := List.mem_map.mp member
      obtain ⟨above, -, notMgr, notBridge⟩ := built.region_ident region isRegion
      rcases mem_devices.mp among with ⟨owner, isOwner, rfl⟩ | isBridge |
        rfl | isOther
      · intro refers
        rcases built.region_refs isOwner _ refers with same | ⟨br, isBr, same⟩
        · exact notMgr same
        · exact notBridge br isBr same
      · rw [(built.bridges other isBridge).1]
        exact List.not_mem_nil
      · rw [built.mgr_refs]
        exact List.not_mem_nil
      · exact built.not_mem_refs_others above isOther)
  have bridges := calls_unregisterAll fme.bridgeList
    (unregisterAll (fme.regionList.map (·.region)) fme.core)
    (mgr ::ₘ others) (by
      intro pdev member other among
      obtain ⟨-, above, -⟩ := built.bridges pdev member
      rcases Multiset.mem_add.mp among with isBridge | more
      · rw [(built.bridges other isBridge).1]
        exact List.not_mem_nil
      · rcases Multiset.mem_cons.mp more with rfl | isOther
        · rw [built.mgr_refs]
          exact List.not_mem_nil
        · exact built.not_mem_refs_others above isOther)
  have manager := calls_unregisterAll [mgr]
    (unregisterAll fme.bridgeList
      (unregisterAll (fme.regionList.map (·.region)) fme.core))
    others (by
      intro pdev member other among
      obtain rfl := List.mem_singleton.mp member
      rcases Multiset.mem_add.mp among with same | isOther
      · obtain rfl := List.mem_singleton.mp (Multiset.mem_coe.mp same)
        rw [built.mgr_refs]
        exact List.not_mem_nil
      · exact built.not_mem_refs_others built.mgr_ident.1 isOther)
  have all := regions.trans (bridges.trans manager)
  simp only [prMgmtUinit, dflFmeDestroyMgr, dflFmeDestroyBridges,
    dflFmeDestroyRegions, built.hasMgr]
  exact all

end Built

/-! ## The loop over the ports -/

/-- Nothing stops the creation. -/
def Creation.succeeds (creation : Creation) : Bool :=
  creation.kzalloc && creation.adds

theorem created_bridge (creation : Creation) (portId : Nat)
    (core : DriverCore) {devices : Multiset PlatformDevice}
    (below : Below core.next devices) :
    Created (dflFmeCreateBridge creation portId core) creation.succeeds core
      devices (.br portId) id := by
  unfold dflFmeCreateBridge Creation.succeeds
  cases creation.kzalloc with
  | false => exact .failed _ rfl rfl (Calls.refl _ _) (Nat.le_refl _)
  | true =>
      exact created_device creation (.br portId) core below
        fun ref refers => absurd refers List.not_mem_nil

theorem created_region (creation : Creation) (mgr br : PlatformDevice)
    (portId : Nat) (core : DriverCore) {devices : Multiset PlatformDevice}
    (below : Below core.next devices) (hasMgr : mgr ∈ devices)
    (hasBridge : br ∈ devices) :
    Created (dflFmeCreateRegion creation mgr br portId core)
      creation.succeeds core devices (.region mgr.ident br.ident)
      fun region => ⟨region, portId⟩ := by
  unfold dflFmeCreateRegion Creation.succeeds
  cases creation.kzalloc with
  | false => exact .failed _ rfl rfl (Calls.refl _ _) (Nat.le_refl _)
  | true =>
      have refers : ∀ ref ∈ PlatformDevice.refs
          ⟨core.next, .region mgr.ident br.ident⟩,
          ref ∈ devices.map (·.ident) := by
        intro ref refers
        simp only [PlatformDevice.refs, List.mem_cons, List.not_mem_nil,
          or_false] at refers
        rcases refers with rfl | rfl
        · exact Multiset.mem_map_of_mem _ hasMgr
        · exact Multiset.mem_map_of_mem _ hasBridge
      cases created_device creation (.region mgr.ident br.ident) core below
          refers with
      | failed ret isError fails calls grows =>
          exact .failed ret (by simp [isError, Except.map]) fails calls grows
      | made isOk fine calls grows =>
          exact .made (by simp [isOk, Except.map]) fine calls grows

/-- The bridge and the region of an implemented port can be created. -/
def PrMgmtEnv.portSucceeds (env : PrMgmtEnv) (portId : Nat) : Bool :=
  !env.implemented portId ||
    ((env.br portId).succeeds && (env.region portId).succeeds)

namespace Built

variable {mgr : PlatformDevice} {others : Multiset PlatformDevice}
  {low : Nat} {fme : DflFme}

theorem grows (built : Built mgr others low fme) {core : DriverCore}
    (later : fme.core.next ≤ core.next) :
    Built mgr others low { fme with core := core } where
  others := built.others
  isMgr := built.isMgr
  hasMgr := built.hasMgr
  mgr_ident := ⟨built.mgr_ident.1, Nat.lt_of_lt_of_le built.mgr_ident.2 later⟩
  bridges br member := by
    obtain ⟨refs, above, inUse⟩ := built.bridges br member
    exact ⟨refs, above, Nat.lt_of_lt_of_le inUse later⟩
  regions := built.regions
  region_ident region member := by
    obtain ⟨above, inUse, apart⟩ := built.region_ident region member
    exact ⟨above, Nat.lt_of_lt_of_le inUse later, apart⟩

/-- A bridge is added. -/
theorem bridge (built : Built mgr others low fme) (portId : Nat)
    {core : DriverCore} (next : core.next = fme.core.next + 1) :
    Built mgr others low { fme with
      bridgeList := ⟨fme.core.next, .br portId⟩ :: fme.bridgeList
      core := core } := by
  have later : Built mgr others low { fme with core := core } :=
    built.grows (by omega)
  have above : low ≤ fme.core.next :=
    Nat.le_of_lt (Nat.lt_of_le_of_lt built.mgr_ident.1 built.mgr_ident.2)
  refine ⟨built.others, built.isMgr, built.hasMgr, later.mgr_ident, ?_, ?_,
    ?_⟩
  · intro br member
    rcases List.mem_cons.mp member with rfl | old
    · exact ⟨rfl, above, by simp only; omega⟩
    · exact later.bridges br old
  · intro region member
    obtain ⟨br, among, kept⟩ := built.regions region member
    exact ⟨br, List.mem_cons_of_mem _ among, kept⟩
  · intro region member
    obtain ⟨above, inUse, notMgr, notBridge⟩ :=
      built.region_ident region member
    refine ⟨above, by simp only; omega, notMgr, fun br among => ?_⟩
    rcases List.mem_cons.mp among with rfl | old
    · exact Nat.ne_of_lt inUse
    · exact notBridge br old

/-- A region of the newest bridge is added. -/
theorem region {br : PlatformDevice} {bridges : List PlatformDevice}
    {portId : Nat} (built : Built mgr others low fme)
    (isBridge : fme.bridgeList = br :: bridges) (pdata : br.pdata = .br portId)
    {core : DriverCore} (next : core.next = fme.core.next + 1) :
    Built mgr others low { fme with
      regionList :=
        ⟨⟨fme.core.next, .region mgr.ident br.ident⟩, portId⟩ ::
          fme.regionList
      core := core } := by
  have later : Built mgr others low { fme with core := core } :=
    built.grows (by omega)
  have above : low ≤ fme.core.next :=
    Nat.le_of_lt (Nat.lt_of_le_of_lt built.mgr_ident.1 built.mgr_ident.2)
  refine ⟨built.others, built.isMgr, built.hasMgr, later.mgr_ident,
    later.bridges, ?_, ?_⟩
  · intro region member
    rcases List.mem_cons.mp member with rfl | old
    · exact ⟨br, by simp [isBridge], pdata, rfl⟩
    · exact built.regions region old
  · intro region member
    rcases List.mem_cons.mp member with rfl | old
    · refine ⟨above, by simp only; omega,
        Nat.ne_of_gt built.mgr_ident.2, fun other among => ?_⟩
      exact Nat.ne_of_gt (built.bridges other among).2.2
    · exact later.region_ident region old

end Built

/-- A new bridge or region is one device more. -/
theorem devices_bridge (fme : DflFme) (mgr br : PlatformDevice)
    (others : Multiset PlatformDevice) (core : DriverCore) :
    DflFme.devices { fme with bridgeList := br :: fme.bridgeList, core := core }
        mgr others =
      br ::ₘ fme.devices mgr others := by
  rw [DflFme.devices, DflFme.devices, ← Multiset.cons_coe,
    Multiset.cons_add, Multiset.add_cons]

theorem devices_region (fme : DflFme) (mgr : PlatformDevice)
    (region : DflFmeRegion) (others : Multiset PlatformDevice)
    (core : DriverCore) :
    DflFme.devices
        { fme with regionList := region :: fme.regionList, core := core }
        mgr others =
      region.region ::ₘ fme.devices mgr others := by
  simp only [DflFme.devices, List.map_cons, ← Multiset.cons_coe,
    Multiset.cons_add]

/-- What the loop has done when it is left. -/
structure LoopEnds (env : PrMgmtEnv) (mgr : PlatformDevice)
    (others : Multiset PlatformDevice) (low : Nat) (ports : List Nat)
    (before : DflFme) (ret : Option Errno) (after : DflFme) : Prop where
  built : Built mgr others low after
  calls : Calls before.core after.core (before.devices mgr others)
    (after.devices mgr others)
  succeeds : ret = none ↔ ∀ portId ∈ ports, env.portSucceeds portId = true
  regions : ret = none → after.regionList.map (·.portId) =
    (ports.filter env.implemented).reverse ++
      before.regionList.map (·.portId)
  bridges : ret = none → after.bridgeList.map (·.pdata) =
    ((ports.filter env.implemented).map PData.br).reverse ++
      before.bridgeList.map (·.pdata)

theorem prMgmtLoop_ends (env : PrMgmtEnv) {mgr : PlatformDevice}
    {others : Multiset PlatformDevice} {low : Nat} (ports : List Nat)
    {fme : DflFme} (built : Built mgr others low fme) :
    LoopEnds env mgr others low ports fme (prMgmtLoop env mgr ports fme).1
      (prMgmtLoop env mgr ports fme).2 := by
  induction ports generalizing fme with
  | nil =>
      exact ⟨built, Calls.refl _ _, by simp [prMgmtLoop], by simp [prMgmtLoop],
        by simp [prMgmtLoop]⟩
  | cons portId rest ih =>
      cases isImplemented : env.implemented portId with
      | false =>
          have onwards := ih built
          have skips : env.portSucceeds portId = true := by
            simp [PrMgmtEnv.portSucceeds, isImplemented]
          simp only [prMgmtLoop, isImplemented, Bool.not_false, if_true]
          refine ⟨onwards.built, onwards.calls, ?_, ?_, ?_⟩
          · rw [onwards.succeeds, List.forall_mem_cons]
            exact ⟨fun all => ⟨skips, all⟩, fun all => all.2⟩
          · simpa [isImplemented] using onwards.regions
          · simpa [isImplemented] using onwards.bridges
      | true =>
          have known : env.portSucceeds portId =
              ((env.br portId).succeeds && (env.region portId).succeeds) := by
            simp [PrMgmtEnv.portSucceeds, isImplemented]
          have bridge :=
            created_bridge (env.br portId) portId fme.core built.below
          simp only [prMgmtLoop, isImplemented, Bool.not_true,
            Bool.false_eq_true, if_false]
          rcases isBridge : dflFmeCreateBridge (env.br portId) portId fme.core
            with ⟨made, core⟩
          rw [isBridge] at bridge
          cases bridge with
          | failed ret isError fails calls grows =>
              obtain rfl : made = .error ret := isError
              refine ⟨built.grows grows, calls,
                iff_of_false (by simp) fun all => ?_, by simp, by simp⟩
              have fine := all portId List.mem_cons_self
              rw [known, fails] at fine
              cases fine
          | made isOk hasBridge bridgeCalls grows =>
              obtain rfl : made = .ok ⟨fme.core.next, .br portId⟩ := isOk
              have bridged := built.bridge portId grows
              have isDevices := devices_bridge fme mgr
                ⟨fme.core.next, .br portId⟩ others core
              have region := created_region (env.region portId) mgr
                ⟨fme.core.next, .br portId⟩ portId core bridged.below
                (by simp [Built.mem_devices]) (by simp [Built.mem_devices])
              dsimp only
              rcases isRegion : dflFmeCreateRegion (env.region portId) mgr
                ⟨fme.core.next, .br portId⟩ portId core with ⟨made, last⟩
              rw [isRegion] at region
              cases region with
              | failed ret isError fails calls grows =>
                  obtain rfl : made = .error ret := isError
                  rw [isDevices] at calls
                  refine ⟨bridged.grows grows, ?_,
                    iff_of_false (by simp) fun all => ?_, by simp, by simp⟩
                  · have added := bridgeCalls.trans calls
                    rwa [← devices_bridge fme mgr _ others last] at added
                  · have fine := all portId List.mem_cons_self
                    rw [known, fails, Bool.and_false] at fine
                    cases fine
              | made isOk hasRegion calls grows =>
                  obtain rfl : made =
                    .ok ⟨⟨core.next, .region mgr.ident fme.core.next⟩,
                      portId⟩ := isOk
                  have onwards := ih (bridged.region rfl rfl grows)
                  refine ⟨onwards.built, ?_, ?_, ?_, ?_⟩
                  · rw [isDevices] at calls
                    refine (bridgeCalls.trans calls).trans ?_
                    have later := onwards.calls
                    rw [devices_region] at later
                    rw [devices_bridge] at later
                    exact later
                  · refine onwards.succeeds.trans ?_
                    rw [List.forall_mem_cons, known, hasBridge, hasRegion]
                    exact ⟨fun all => ⟨rfl, all⟩, fun all => all.2⟩
                  · intro fine
                    rw [List.filter_cons_of_pos isImplemented,
                      List.reverse_cons, List.append_assoc]
                    exact onwards.regions fine
                  · intro fine
                    rw [List.filter_cons_of_pos isImplemented, List.map_cons,
                      List.reverse_cons, List.append_assoc]
                    exact onwards.bridges fine

/-! ## Attempts -/

/-- Everything which `pr_mgmt_init` creates can be created. -/
def PrMgmtEnv.succeeds (env : PrMgmtEnv) : Prop :=
  env.ioaddr = true ∧ env.mgr.adds = true ∧
    ∀ portId < env.numPorts, env.portSucceeds portId = true

/-- The ports which are implemented. -/
def PrMgmtEnv.ports (env : PrMgmtEnv) : List Nat :=
  (List.range env.numPorts).filter env.implemented

/--
The devices which are there for partial reconfiguration: one manager, and for
each implemented port one bridge, and one region between the two.
-/
structure Topology (env : PrMgmtEnv) (mgr : PlatformDevice) (fme : DflFme) :
    Prop where
  hasMgr : fme.mgr = some mgr
  isMgr : mgr.pdata = .mgr
  oneMgr : (fme.devices mgr 0).countP (fun pdev => pdev.pdata = .mgr) = 1
  bridges : fme.bridgeList.map (·.pdata) = (env.ports.map PData.br).reverse
  regions : fme.regionList.map (·.portId) = env.ports.reverse
  refers : ∀ region ∈ fme.regionList, ∃ br ∈ fme.bridgeList,
    br.pdata = .br region.portId ∧
      region.region.pdata = .region mgr.ident br.ident
  found : ∀ portId,
    if portId < env.numPorts ∧ env.implemented portId = true then
      ∃ region br, dflFmeRegionFindByPortId fme portId = some region ∧
        br ∈ fme.bridgeList ∧ br.pdata = .br portId ∧
          region.region.pdata = .region mgr.ident br.ident
    else
      dflFmeRegionFindByPortId fme portId = none

/-- What `pr_mgmt_init` leaves, and `pr_mgmt_uinit` after it. -/
structure InitEnds (env : PrMgmtEnv) (others : Multiset PlatformDevice)
    (before : DflFme) (ret : Option Errno) (after : DflFme) : Prop where
  succeeds : ret = none ↔ env.succeeds
  failed : ret ≠ none →
    Calls before.core after.core others others ∧ after.regionList = [] ∧
      after.bridgeList = []
  made : ret = none → ∃ mgr, Topology env mgr after ∧
    Calls before.core after.core others (after.devices mgr others) ∧
      Calls after.core (prMgmtUinit after).core (after.devices mgr others)
        others
  grows : before.core.next ≤ after.core.next

/-- Bridges and regions are no managers. -/
theorem oneMgr {mgr : PlatformDevice} {others : Multiset PlatformDevice}
    {low : Nat} {fme : DflFme} (built : Built mgr others low fme)
    {ports : List Nat}
    (bridges : fme.bridgeList.map (·.pdata) = ports.map PData.br) :
    (fme.devices mgr 0).countP (fun pdev => pdev.pdata = .mgr) = 1 := by
  have noRegion :
      Multiset.countP (fun pdev : PlatformDevice => pdev.pdata = .mgr)
        (fme.regionList.map (·.region) : List PlatformDevice) = 0 := by
    refine Multiset.countP_eq_zero.mpr fun pdev member isMgr => ?_
    obtain ⟨region, among, rfl⟩ := List.mem_map.mp (Multiset.mem_coe.mp member)
    obtain ⟨br, -, -, pdata⟩ := built.regions region among
    rw [pdata] at isMgr
    cases isMgr
  have noBridge :
      Multiset.countP (fun pdev : PlatformDevice => pdev.pdata = .mgr)
        fme.bridgeList = 0 := by
    refine Multiset.countP_eq_zero.mpr fun pdev member isMgr => ?_
    have pdata : pdev.pdata ∈ fme.bridgeList.map (·.pdata) :=
      List.mem_map_of_mem (Multiset.mem_coe.mp member)
    rw [bridges, isMgr] at pdata
    simp at pdata
  have alone :
      Multiset.countP (fun pdev : PlatformDevice => pdev.pdata = .mgr)
        (mgr ::ₘ 0) = 1 := by
    rw [Multiset.countP_cons_of_pos
      (p := fun pdev : PlatformDevice => pdev.pdata = .mgr) _ built.isMgr,
      Multiset.countP_zero]
  unfold DflFme.devices
  rw [Multiset.countP_add, Multiset.countP_add, noRegion, noBridge, alone]

/-- The list finds the region of each port it has. -/
theorem find_region {mgr : PlatformDevice} {others : Multiset PlatformDevice}
    {low : Nat} {fme : DflFme} (built : Built mgr others low fme)
    (ports : List Nat)
    (regions : fme.regionList.map (·.portId) = ports) (portId : Nat) :
    if portId ∈ ports then
      ∃ region br, dflFmeRegionFindByPortId fme portId = some region ∧
        br ∈ fme.bridgeList ∧ br.pdata = .br portId ∧
          region.region.pdata = .region mgr.ident br.ident
    else
      dflFmeRegionFindByPortId fme portId = none := by
  cases found : dflFmeRegionFindByPortId fme portId with
  | none =>
      rw [if_neg]
      intro member
      rw [← regions] at member
      obtain ⟨region, among, same⟩ := List.mem_map.mp member
      have differs := List.find?_eq_none.mp found region among
      exact differs (decide_eq_true same)
  | some region =>
      have among := List.mem_of_find?_eq_some found
      have matched := List.find?_some found
      have same : region.portId = portId := of_decide_eq_true matched
      rw [if_pos]
      · obtain ⟨br, isBridge, pdata, refers⟩ := built.regions region among
        rw [same] at pdata
        exact ⟨region, br, rfl, isBridge, pdata, refers⟩
      · rw [← regions, ← same]
        exact List.mem_map_of_mem among

theorem prMgmtInit_ends (env : PrMgmtEnv) (fme : DflFme)
    {others : Multiset PlatformDevice} (below : Below fme.core.next others) :
    InitEnds env others fme (prMgmtInit env fme).1 (prMgmtInit env fme).2 := by
  unfold prMgmtInit dflFmeCreateMgr
  cases ioaddr : env.ioaddr with
  | false =>
      refine ⟨iff_of_false (by simp) fun fine => ?_,
        fun _ => ⟨Calls.refl _ _, rfl, rfl⟩, by simp, Nat.le_refl _⟩
      exact absurd (ioaddr.symm.trans fine.1) (by decide)
  | true =>
      have manager := created_device env.mgr .mgr fme.core below
        fun ref refers => absurd refers List.not_mem_nil
      simp only [Bool.not_true, Bool.false_eq_true, if_false]
      rcases isMgr : createDevice env.mgr .mgr fme.core with ⟨made, core⟩
      rw [isMgr] at manager
      cases manager with
      | failed ret isError fails calls grows =>
          obtain rfl : made = .error ret := isError
          refine ⟨iff_of_false (by simp) fun fine => ?_,
            fun _ => ⟨calls, rfl, rfl⟩, by simp, grows⟩
          exact absurd (fails.symm.trans fine.2.1) (by decide)
      | made isOk fine calls grows =>
          obtain rfl : made = .ok ⟨fme.core.next, .mgr⟩ := isOk
          dsimp only at grows calls ⊢
          have built : Built ⟨fme.core.next, .mgr⟩ others fme.core.next
              { fme with
                regionList := [], bridgeList := []
                mgr := some ⟨fme.core.next, .mgr⟩, core := core } :=
            ⟨below, rfl, rfl, ⟨Nat.le_refl _, by simp only; omega⟩,
              fun br member => absurd member List.not_mem_nil,
              fun region member => absurd member List.not_mem_nil,
              fun region member => absurd member List.not_mem_nil⟩
          have ends := prMgmtLoop_ends env (List.range env.numPorts) built
          have start : Calls fme.core core others
              (DflFme.devices { fme with
                regionList := [], bridgeList := []
                mgr := some ⟨fme.core.next, .mgr⟩, core := core }
                ⟨fme.core.next, .mgr⟩ others) := by
            simpa [DflFme.devices] using calls
          have succeeds : env.succeeds ↔
              ∀ portId ∈ List.range env.numPorts,
                env.portSucceeds portId = true := by
            simp [PrMgmtEnv.succeeds, ioaddr, fine]
          rcases isLoop : prMgmtLoop env ⟨fme.core.next, .mgr⟩
            (List.range env.numPorts) { fme with
              regionList := [], bridgeList := []
              mgr := some ⟨fme.core.next, .mgr⟩, core := core }
            with ⟨_ | ret, last⟩
          · rw [isLoop] at ends
            have ident := ends.built.mgr_ident
            refine ⟨ends.succeeds.trans succeeds.symm, by simp,
              fun _ => ⟨_, ⟨ends.built.hasMgr, rfl, ?_, ?_, ?_,
                ends.built.regions, fun portId => ?_⟩,
                start.trans ends.calls, ends.built.uinit⟩,
              Nat.le_of_lt ident.2⟩
            · refine @oneMgr _ _ _ _ ends.built env.ports.reverse ?_
              simpa [PrMgmtEnv.ports] using ends.bridges rfl
            · simpa [PrMgmtEnv.ports] using ends.bridges rfl
            · simpa [PrMgmtEnv.ports] using ends.regions rfl
            · have found := find_region ends.built _ (ends.regions rfl) portId
              simpa using found
          · rw [isLoop] at ends
            have ident := ends.built.mgr_ident
            refine ⟨iff_of_false (by simp) fun all => ?_,
              fun _ => ⟨?_, rfl, rfl⟩, by simp, ?_⟩
            · exact absurd (ends.succeeds.mpr (succeeds.mp all)) (by simp)
            · exact start.trans (ends.calls.trans ends.built.uinit)
            · have same : (prMgmtUinit last).core.next = last.core.next := by
                simp [prMgmtUinit, dflFmeDestroyMgr, dflFmeDestroyBridges,
                  dflFmeDestroyRegions]
              dsimp only
              rw [same]
              exact Nat.le_of_lt ident.2

/-- The feature is initialised; once that has succeeded, it is removed. -/
def attempt (fme : DflFme) (env : PrMgmtEnv) : DflFme :=
  match prMgmtInit env fme with
  | (none, fme) => prMgmtUinit fme
  | (some _, fme) => fme

theorem attempt_calls (fme : DflFme) (env : PrMgmtEnv)
    {others : Multiset PlatformDevice} (below : Below fme.core.next others) :
    Calls fme.core (attempt fme env).core others others ∧
      fme.core.next ≤ (attempt fme env).core.next := by
  have ends := prMgmtInit_ends env fme below
  unfold attempt
  rcases isInit : prMgmtInit env fme with ⟨_ | ret, after⟩
  all_goals rw [isInit] at ends
  · obtain ⟨mgr, -, made, removed⟩ := ends.made rfl
    refine ⟨made.trans removed, ?_⟩
    have same : (prMgmtUinit after).core.next = after.core.next := by
      simp [prMgmtUinit, dflFmeDestroyMgr, dflFmeDestroyBridges,
        dflFmeDestroyRegions]
    rw [same]
    exact ends.grows
  · exact ⟨(ends.failed (by simp)).1, ends.grows⟩

theorem attempts_calls (envs : List PrMgmtEnv) (fme : DflFme)
    {others : Multiset PlatformDevice} (below : Below fme.core.next others) :
    Calls fme.core (envs.foldl attempt fme).core others others ∧
      fme.core.next ≤ (envs.foldl attempt fme).core.next := by
  induction envs generalizing fme with
  | nil => exact ⟨Calls.refl _ _, Nat.le_refl _⟩
  | cons env envs ih =>
      obtain ⟨calls, grows⟩ := attempt_calls fme env below
      obtain ⟨later, growsOn⟩ := ih (attempt fme env) (below.mono grows)
      exact ⟨calls.trans later, Nat.le_trans grows growsOn⟩

/--
Whatever has been attempted before and whatever an attempt meets: the driver
core allows all calls, so no device goes away before those which refer to it.
The attempt succeeds exactly if everything can be created; then each
implemented port, and no other, is found with its region between the manager
and its bridge.  After a failure, and after the removal, the devices are those
of others again.
-/
theorem prMgmt_devices (attempts : List PrMgmtEnv) (env : PrMgmtEnv)
    (fme : DflFme) (others : Multiset PlatformDevice)
    (below : Below fme.core.next others) :
    let before := attempts.foldl attempt fme
    let init := prMgmtInit env before
    Calls fme.core before.core others others ∧
      InitEnds env others before init.1 init.2 := by
  obtain ⟨calls, grows⟩ := attempts_calls attempts fme below
  exact ⟨calls, prMgmtInit_ends env _ (below.mono grows)⟩

/-- Nothing stops the creation of a device. -/
def fineCreation : Creation := ⟨true, true, none, none⟩

/-- An FME with three ports, the second of which is not implemented. -/
def threePorts (region : Nat → Creation) : PrMgmtEnv where
  ioaddr := true
  fmeCap := fmeCapNumPorts.prep 3
  portOffset portId := if portId = 1 then 0 else fmePortOfstImp.mask
  mgr := fineCreation
  br _ := fineCreation
  region := region

/-- The last region cannot be added at first. -/
theorem prMgmt_devices_threePorts :
    let fails : Nat → Creation := fun portId =>
      if portId = 2 then ⟨true, true, none, some .enomem⟩ else fineCreation
    let fme : DflFme := ⟨none, [], [], ⟨1, []⟩⟩
    let before := [threePorts fails].foldl attempt fme
    ∃ mgr, Topology (threePorts fun _ => fineCreation) mgr
      (prMgmtInit (threePorts fun _ => fineCreation) before).2 := by
  intro fails fme before
  obtain ⟨-, ends⟩ := prMgmt_devices [threePorts fails]
    (threePorts fun _ => fineCreation) fme {⟨0, .mgr⟩} (by
      intro pdev member
      obtain rfl := Multiset.mem_singleton.mp member
      exact ⟨Nat.one_pos, fun ref refers => absurd refers List.not_mem_nil⟩)
  obtain ⟨mgr, topology, -⟩ := ends.made (by decide)
  exact ⟨mgr, topology⟩

end LinuxDfl.Fme.PrMgmt

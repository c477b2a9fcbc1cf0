import LinuxDfl.Kernel.Errno

/-!
# Shared virtual addressing of a DFL device

A file of the device binds the process which uses it to the IOMMU, and keeps
the bond until it is told to drop it, it is closed or the device is deleted.
The memory of the device lives until the device is deleted and its last file
is closed.  What the IOMMU answers is a parameter of an operation.
-/

namespace LinuxDfl.Sva

open LinuxDfl.Kernel

/-! ## Data -/

/-- `struct dfl_sva_handle`, which is the private data of an open file -/
structure DflSvaHandle where
  file : Nat
  /-- What `iommu_sva_bind_device` has returned. -/
  svaHandle : Option Nat
  deriving DecidableEq, Repr

/-- `struct dfl_sva_dev` -/
structure DflSvaDev where
  pdev : Option Nat
  svaNext : List DflSvaHandle
  deriving DecidableEq, Repr

/-- A bond which a file has obtained. -/
structure SvaBond where
  file : Nat
  svaHandle : Nat
  deriving DecidableEq, Repr

/-- What happens to bonds, to the SVA feature and to the memory. -/
inductive SvaEvent where
  /-- `iommu_sva_bind_device` -/
  | bind (bond : SvaBond)
  /-- `iommu_sva_unbind_device` -/
  | unbind (bond : SvaBond)
  /-- `disable_iommu_sva_feature` -/
  | disableFeature
  /-- `kfree` of the device -/
  | freeDev
  deriving DecidableEq, Repr

/-- The bond which a file holds. -/
def DflSvaHandle.bond (handle : DflSvaHandle) : Option SvaBond :=
  handle.svaHandle.map fun svaHandle => ⟨handle.file, svaHandle⟩

/-- The bond is dropped if there is one. -/
def DflSvaHandle.drop (handle : DflSvaHandle) : List SvaEvent :=
  handle.bond.toList.map .unbind

/-- The handle of the file is overwritten. -/
def DflSvaDev.setHandle (dev : DflSvaDev) (handle : DflSvaHandle) :
    DflSvaDev :=
  { dev with
    svaNext := dev.svaNext.map fun other =>
      if other.file = handle.file then handle else other }

/-! ## File operations -/

/-- `dfl_pci_sva_open` -/
def dflPciSvaOpen (file : Nat) (kzalloc : Bool) (dev : DflSvaDev) :
    Option Errno × DflSvaDev :=
  match dev.pdev with
  | none => (some .ebusy, dev)
  | some _ =>
      if !kzalloc then (some .enomem, dev)
      else (none, { dev with svaNext := ⟨file, none⟩ :: dev.svaNext })

/-- The file has this handle, which no other file has. -/
def DflSvaDev.privateData (dev : DflSvaDev) (file : Nat) :
    Option DflSvaHandle :=
  dev.svaNext.find? fun handle => handle.file = file

/-- `dfl_pci_sva_release`; what is left of the device, unless it is freed -/
def dflPciSvaRelease (sva : DflSvaHandle) (dev : DflSvaDev) :
    Option DflSvaDev × List SvaEvent :=
  let rest := dev.svaNext.filter fun handle => handle.file ≠ sva.file
  if dev.pdev.isNone && rest.isEmpty then (none, sva.drop ++ [.freeDev])
  else (some { dev with svaNext := rest }, sva.drop)

/--
`ioctl_sva_bind_dev`, with what `iommu_sva_bind_device` returns: no bond, an
error or a bond.  The PASID which is returned is known by its bond.
-/
def ioctlSvaBindDev (currentMm : Bool)
    (bindDevice : Except Errno (Option Nat)) (dev : DflSvaDev)
    (sva : DflSvaHandle) : Except Errno Nat × DflSvaHandle × List SvaEvent :=
  match dev.pdev with
  | none => (.error .enodev, sva, [])
  | some _ =>
      if !currentMm then (.error .einval, sva, [])
      else
        match sva.svaHandle with
        | some handle => (.ok handle, sva, [])
        | none =>
            match bindDevice with
            | .error ret => (.error ret, sva, [])
            | .ok none => (.error .enodev, sva, [])
            | .ok (some handle) =>
                (.ok handle, { sva with svaHandle := some handle },
                  [.bind ⟨sva.file, handle⟩])

/-- `ioctl_sva_unbind_dev` -/
def ioctlSvaUnbindDev (dev : DflSvaDev) (sva : DflSvaHandle) :
    Except Errno Nat × DflSvaHandle × List SvaEvent :=
  match dev.pdev with
  | none => (.error .enodev, sva, [])
  | some _ => (.ok 0, { sva with svaHandle := none }, sva.drop)

/-- The commands of `dfl_pci_sva_ioctl`. -/
inductive SvaCmd where
  | getApiVersion
  | bindDev (currentMm : Bool) (bindDevice : Except Errno (Option Nat))
  | unbindDev
  | other (cmd : Nat)

/-- `DFL_FPGA_API_VERSION` -/
def dflFpgaApiVersion : Nat := 0

/--
`dfl_pci_sva_ioctl`.  There is no answer when an unknown command is reported
for a PCI device which is gone.
-/
def dflPciSvaIoctl (cmd : SvaCmd) (sva : DflSvaHandle) (dev : DflSvaDev) :
    Option (Except Errno Nat × DflSvaDev × List SvaEvent) :=
  match cmd with
  | .getApiVersion => some (.ok dflFpgaApiVersion, dev, [])
  | .bindDev currentMm bindDevice =>
      let (ret, sva, events) := ioctlSvaBindDev currentMm bindDevice dev sva
      some (ret, dev.setHandle sva, events)
  | .unbindDev =>
      let (ret, sva, events) := ioctlSvaUnbindDev dev sva
      some (ret, dev.setHandle sva, events)
  | .other _ =>
      match dev.pdev with
      | none => none
      | some _ => some (.error .einval, dev, [])

/-- `del_dfl_mdev`; what is left of the device, unless it is freed -/
def delDflMdev (dev : DflSvaDev) : Option DflSvaDev × List SvaEvent :=
  let events := dev.svaNext.flatMap DflSvaHandle.drop ++ [.disableFeature]
  if dev.svaNext.isEmpty then (none, events ++ [.freeDev])
  else
    (some
      { pdev := none
        svaNext := dev.svaNext.map fun sva => { sva with svaHandle := none } },
      events)

/-! ## Sequences of operations -/

/-- A device, its files and what has happened so far. -/
structure SvaSystem where
  /-- The memory of the device, until it is freed. -/
  dev : Option DflSvaDev
  /-- The PCI device has not been deleted. -/
  listed : Bool
  files : List Nat
  /-- The file which is opened next. -/
  nextFile : Nat
  events : List SvaEvent
  deriving DecidableEq, Repr

inductive SvaOp where
  | openFile (kzalloc : Bool)
  | ioctl (file : Nat) (cmd : SvaCmd)
  | release (file : Nat)
  | delDev

/--
One operation under the mutex of the device.  Files are opened as long as the
device has not been freed, and used while they are open; the PCI device is
deleted once.
-/
def SvaSystem.perform (system : SvaSystem) (op : SvaOp) :
    Option SvaSystem :=
  system.dev.bind fun dev =>
    match op with
    | .openFile kzalloc =>
        match dflPciSvaOpen system.nextFile kzalloc dev with
        | (some _, dev) => some { system with dev := some dev }
        | (none, dev) =>
            some
              { system with
                dev := some dev
                files := system.nextFile :: system.files
                nextFile := system.nextFile + 1 }
    | .ioctl file cmd =>
        if file ∈ system.files then do
          let sva ← dev.privateData file
          let (_, dev, events) ← dflPciSvaIoctl cmd sva dev
          return { system with
            dev := some dev
            events := system.events ++ events }
        else none
    | .release file =>
        if file ∈ system.files then do
          let sva ← dev.privateData file
          let (dev, events) := dflPciSvaRelease sva dev
          return { system with
            dev := dev
            files := system.files.filter fun other => other ≠ file
            events := system.events ++ events }
        else none
    | .delDev =>
        if system.listed then
          let (dev, events) := delDflMdev dev
          some
            { system with
              dev := dev
              listed := false
              events := system.events ++ events }
        else none

def SvaSystem.Step (system : SvaSystem) (op : SvaOp) (next : SvaSystem) :
    Prop :=
  system.perform op = some next

/-- The state after an operation. -/
def SvaSystem.apply (system : SvaSystem) (op : SvaOp) : SvaSystem :=
  (system.perform op).getD system

/-- The operation returns. -/
def SvaSystem.enabled (system : SvaSystem) (op : SvaOp) : Bool :=
  (system.perform op).isSome

theorem SvaSystem.step_apply {system : SvaSystem} {op : SvaOp}
    (enabled : system.enabled op = true) :
    system.Step op (system.apply op) := by
  obtain ⟨next, performs⟩ := Option.isSome_iff_exists.mp enabled
  unfold Step apply
  rw [performs]
  rfl

/-- A device which `dfl_pci_sva_add_dev` has just added. -/
def svaAdded (pdev : Nat) : SvaSystem :=
  ⟨some ⟨some pdev, []⟩, true, [], 0, []⟩

end LinuxDfl.Sva

import LinuxDfl.Sva.HandleLife
import LinuxDfl.Lib.Traced

/-!
# Files which outlive their SVA device

The operations of a device, access by access: its memory must not be touched
after it was freed, nor its PCI device be used once there is none.  As long as
neither happens, they do what the operations on whole devices do.
-/

namespace LinuxDfl.Sva.Access

open LinuxDfl.Kernel
open LinuxDfl.Lib.Traced
open LinuxDfl.Lib.Transition

/-! ## Accesses -/

/-- What an operation must not do. -/
inductive SvaFault where
  /-- The device is touched after `kfree`. -/
  | freed
  /-- `dev->pdev` is used while it is `NULL`. -/
  | noPdev
  deriving DecidableEq, Repr

/-- What is done to the memory of a device. -/
abbrev SvaProgram (Value : Type) :=
  Program SvaEvent SvaFault (Option DflSvaDev) Value

/-- The device is read. -/
def readDev : SvaProgram DflSvaDev := fun memory =>
  match memory with
  | none => ⟨[], .error .freed, none⟩
  | some dev => ⟨[], .ok dev, some dev⟩

/-- The device is written. -/
def writeDev (change : DflSvaDev → DflSvaDev) : SvaProgram Unit := do
  let dev ← readDev
  Program.update fun _ => some (change dev)

/-- The mutex or the misc device, which are in the memory, are used. -/
def touchDev : SvaProgram Unit := do
  let _ ← readDev
  return ()

/-- `kfree` of the device -/
def kfreeDev : SvaProgram Unit := do
  touchDev
  Program.emit .freeDev
  Program.update fun _ => none

/-- A PCI device is used, which is not `NULL`. -/
def usePdev : Option Nat → SvaProgram Unit
  | none => Program.fail .noPdev
  | some _ => pure ()

/-- `dev->pdev` is used. -/
def useDevPdev : SvaProgram Unit := do
  let dev ← readDev
  usePdev dev.pdev

/-- The private data of an open file. -/
def readHandle (file : Nat) : SvaProgram DflSvaHandle := do
  let dev ← readDev
  match dev.privateData file with
  | none => Program.fail .freed
  | some sva => return sva

/-- The bond of a handle is dropped. -/
def iommuSvaUnbindDevice (sva : DflSvaHandle) : SvaProgram Unit :=
  match sva.svaHandle with
  | none => pure ()
  | some handle => Program.emit (.unbind ⟨sva.file, handle⟩)

/-! ## Operations -/

/-- `dfl_pci_sva_open` -/
def dflPciSvaOpen (file : Nat) (kzalloc : Bool) :
    SvaProgram (Option Errno) := do
  touchDev
  let dev ← readDev
  match dev.pdev with
  | none =>
      touchDev
      return some .ebusy
  | some pdev =>
      if !kzalloc then
        touchDev
        return some .enomem
      else
        writeDev fun dev =>
          { dev with svaNext := ⟨file, none⟩ :: dev.svaNext }
        usePdev (some pdev)
        touchDev
        return none

/-- A device which was deleted is freed with its last file. -/
def freeUnused : SvaProgram Unit := do
  let dev ← readDev
  if dev.pdev.isNone && dev.svaNext.isEmpty then
    kfreeDev
  else
    touchDev

/-- The handle of a file is dropped, and the device with the last one. -/
def releaseHandle (sva : DflSvaHandle) : SvaProgram Unit := do
  if (← readDev).pdev.isSome then
    useDevPdev
  iommuSvaUnbindDevice sva
  writeDev fun dev =>
    { dev with
      svaNext := dev.svaNext.filter fun handle => handle.file ≠ sva.file }
  freeUnused

/-- `dfl_pci_sva_release` -/
def dflPciSvaRelease (file : Nat) : SvaProgram Unit := do
  touchDev
  let sva ← readHandle file
  releaseHandle sva

/-- `ioctl_sva_bind_dev`, with what `iommu_sva_bind_device` returns -/
def ioctlSvaBindDev (currentMm : Bool)
    (bindDevice : Except Errno (Option Nat)) (sva : DflSvaHandle) :
    SvaProgram (Except Errno Nat) := do
  let dev ← readDev
  if dev.pdev.isNone then
    return .error .enodev
  else if !currentMm then
    return .error .einval
  else
    match sva.svaHandle with
    | some handle => return .ok handle
    | none =>
        useDevPdev
        match bindDevice with
        | .error ret => return .error ret
        | .ok none => return .error .enodev
        | .ok (some handle) =>
            Program.emit (.bind ⟨sva.file, handle⟩)
            useDevPdev
            writeDev fun dev =>
              dev.setHandle { sva with svaHandle := some handle }
            return .ok handle

/-- `ioctl_sva_unbind_dev` -/
def ioctlSvaUnbindDev (sva : DflSvaHandle) :
    SvaProgram (Except Errno Nat) := do
  let dev ← readDev
  if dev.pdev.isNone then
    return .error .enodev
  else
    useDevPdev
    iommuSvaUnbindDevice sva
    writeDev fun dev => dev.setHandle { sva with svaHandle := none }
    return .ok 0

/-- The commands, under the mutex of the device. -/
def serveCmd (cmd : SvaCmd) (sva : DflSvaHandle) :
    SvaProgram (Except Errno Nat) :=
  match cmd with
  | .getApiVersion => return .ok dflFpgaApiVersion
  | .bindDev currentMm bindDevice =>
      ioctlSvaBindDev currentMm bindDevice sva
  | .unbindDev => ioctlSvaUnbindDev sva
  | .other _ => do
      -- the number of the command is reported for `dev->pdev`
      useDevPdev
      return .error .einval

/-- `dfl_pci_sva_ioctl` -/
def dflPciSvaIoctl (file : Nat) (cmd : SvaCmd) :
    SvaProgram (Except Errno Nat) := do
  touchDev
  let sva ← readHandle file
  let ret ← serveCmd cmd sva
  touchDev
  return ret

/-- Handles are unbound while the device is deleted. -/
def forceUnbind : List DflSvaHandle → SvaProgram Unit
  | [] => pure ()
  | sva :: rest => do
      if sva.svaHandle.isSome then
        useDevPdev
        iommuSvaUnbindDevice sva
        writeDev fun dev => dev.setHandle { sva with svaHandle := none }
      forceUnbind rest

/-- The feature is disabled, and the device freed unless a file is open. -/
def disableDev : SvaProgram Unit := do
  useDevPdev
  Program.emit .disableFeature
  writeDev fun dev => { dev with pdev := none }
  if (← readDev).svaNext.isEmpty then
    kfreeDev
  else
    touchDev

/-- `del_dfl_mdev` -/
def delDflMdev : SvaProgram Unit := do
  touchDev
  useDevPdev
  touchDev
  let dev ← readDev
  forceUnbind dev.svaNext
  disableDev

/-! ## What they do to a device which is there -/

theorem dflPciSvaOpen_run (file : Nat) (kzalloc : Bool) (dev : DflSvaDev) :
    dflPciSvaOpen file kzalloc (some dev) =
      ⟨[], .ok (Sva.dflPciSvaOpen file kzalloc dev).1,
        some (Sva.dflPciSvaOpen file kzalloc dev).2⟩ := by
  obtain ⟨pdev, svaNext⟩ := dev
  cases pdev with
  | none => rfl
  | some pdev => cases kzalloc <;> rfl

theorem touchDev_run (dev : DflSvaDev) :
    touchDev (some dev) = ⟨[], .ok (), some dev⟩ := rfl

theorem readHandle_run {dev : DflSvaDev} {file : Nat} {sva : DflSvaHandle}
    (finds : dev.privateData file = some sva) :
    readHandle file (some dev) = ⟨[], .ok sva, some dev⟩ := by
  unfold readHandle
  have reads : readDev (some dev) = ⟨[], .ok dev, some dev⟩ := rfl
  rw [bind_of_silent reads, finds]
  rfl

theorem freeUnused_run (dev : DflSvaDev) :
    freeUnused (some dev) =
      if dev.pdev.isNone && dev.svaNext.isEmpty then
        ⟨[.freeDev], .ok (), none⟩
      else ⟨[], .ok (), some dev⟩ := by
  have reads : readDev (some dev) = ⟨[], .ok dev, some dev⟩ := rfl
  unfold freeUnused
  rw [bind_of_silent reads]
  split <;> rfl

theorem releaseHandle_run (dev : DflSvaDev) (sva : DflSvaHandle) :
    releaseHandle sva (some dev) =
      ⟨(Sva.dflPciSvaRelease sva dev).2, .ok (),
        (Sva.dflPciSvaRelease sva dev).1⟩ := by
  obtain ⟨pdev, svaNext⟩ := dev
  obtain ⟨file, svaHandle⟩ := sva
  cases pdev with
  | some pdev => cases svaHandle <;> rfl
  | none =>
      have frees := freeUnused_run
        ⟨none, svaNext.filter fun handle => handle.file ≠ file⟩
      unfold Sva.dflPciSvaRelease
      cases svaHandle with
      | none =>
          refine Eq.trans frees ?_
          dsimp only
          split <;> rfl
      | some handle =>
          have unbinds : releaseHandle ⟨file, some handle⟩
              (some ⟨none, svaNext⟩) =
                ⟨.unbind ⟨file, handle⟩ :: (freeUnused (some _)).events,
                  (freeUnused (some _)).result,
                  (freeUnused (some _)).state⟩ := rfl
          rw [unbinds, frees]
          dsimp only
          split <;> rfl

theorem dflPciSvaRelease_run {dev : DflSvaDev} {file : Nat}
    {sva : DflSvaHandle} (finds : dev.privateData file = some sva) :
    dflPciSvaRelease file (some dev) =
      ⟨(Sva.dflPciSvaRelease sva dev).2, .ok (),
        (Sva.dflPciSvaRelease sva dev).1⟩ := by
  unfold dflPciSvaRelease
  rw [bind_of_silent (touchDev_run dev),
    bind_of_silent (readHandle_run finds), releaseHandle_run]

/-- A handle which is written as it is stays as it is. -/
theorem setHandle_self {dev : DflSvaDev} {file : Nat} {sva : DflSvaHandle}
    (finds : dev.privateData file = some sva)
    (distinct : (dev.svaNext.map DflSvaHandle.file).Nodup) :
    dev.setHandle sva = dev := by
  obtain ⟨-, before, after, split, others⟩ :=
    privateData_split finds distinct
  have same := setHandle_split split others rfl
  rw [← split] at same
  unfold DflSvaDev.setHandle at same ⊢
  dsimp only at same
  rw [same]

section Requests

variable {dev : DflSvaDev} {sva : DflSvaHandle}

theorem ioctlSvaBindDev_run (kept : dev.setHandle sva = dev)
    (currentMm : Bool) (bindDevice : Except Errno (Option Nat)) :
    ioctlSvaBindDev currentMm bindDevice sva (some dev) =
      ⟨(Sva.ioctlSvaBindDev currentMm bindDevice dev sva).2.2,
        .ok (Sva.ioctlSvaBindDev currentMm bindDevice dev sva).1,
        some (dev.setHandle
          (Sva.ioctlSvaBindDev currentMm bindDevice dev sva).2.1)⟩ := by
  have still : ∀ result : Except SvaFault (Except Errno Nat),
      (⟨[], result, some dev⟩ : Run SvaEvent SvaFault (Option DflSvaDev) _) =
        ⟨[], result, some (dev.setHandle sva)⟩ := by
    intro result
    rw [kept]
  obtain ⟨pdev, svaNext⟩ := dev
  obtain ⟨file, svaHandle⟩ := sva
  cases pdev with
  | none => exact still _
  | some pdev =>
      cases currentMm with
      | false => exact still _
      | true =>
          cases svaHandle with
          | some handle => exact still _
          | none =>
              rcases bindDevice with ret | - | handle
              · exact still _
              · exact still _
              · rfl

theorem ioctlSvaUnbindDev_run (kept : dev.setHandle sva = dev) :
    ioctlSvaUnbindDev sva (some dev) =
      ⟨(Sva.ioctlSvaUnbindDev dev sva).2.2,
        .ok (Sva.ioctlSvaUnbindDev dev sva).1,
        some (dev.setHandle (Sva.ioctlSvaUnbindDev dev sva).2.1)⟩ := by
  have still : ∀ result : Except SvaFault (Except Errno Nat),
      (⟨[], result, some dev⟩ : Run SvaEvent SvaFault (Option DflSvaDev) _) =
        ⟨[], result, some (dev.setHandle sva)⟩ := by
    intro result
    rw [kept]
  obtain ⟨pdev, svaNext⟩ := dev
  obtain ⟨file, svaHandle⟩ := sva
  cases pdev with
  | none => exact still _
  | some pdev => cases svaHandle <;> rfl

end Requests

/-- The commands do what they do to a whole device, or use no PCI device. -/
theorem serveCmd_run {dev : DflSvaDev} {sva : DflSvaHandle}
    (kept : dev.setHandle sva = dev) (cmd : SvaCmd) :
    serveCmd cmd sva (some dev) =
      match Sva.dflPciSvaIoctl cmd sva dev with
      | some (ret, next, events) => ⟨events, .ok ret, some next⟩
      | none => ⟨[], .error .noPdev, some dev⟩ := by
  cases cmd with
  | getApiVersion => rfl
  | bindDev currentMm bindDevice =>
      exact ioctlSvaBindDev_run kept currentMm bindDevice
  | unbindDev => exact ioctlSvaUnbindDev_run kept
  | other cmd =>
      obtain ⟨pdev, svaNext⟩ := dev
      cases pdev <;> rfl

theorem dflPciSvaIoctl_run {dev : DflSvaDev} {file : Nat}
    {sva : DflSvaHandle} (finds : dev.privateData file = some sva)
    (kept : dev.setHandle sva = dev) (cmd : SvaCmd) :
    dflPciSvaIoctl file cmd (some dev) =
      match Sva.dflPciSvaIoctl cmd sva dev with
      | some (ret, next, events) => ⟨events, .ok ret, some next⟩
      | none => ⟨[], .error .noPdev, some dev⟩ := by
  have serves := serveCmd_run kept cmd
  unfold dflPciSvaIoctl
  rw [bind_of_silent (touchDev_run dev),
    bind_of_silent (readHandle_run finds)]
  cases returns : Sva.dflPciSvaIoctl cmd sva dev with
  | none =>
      rw [returns] at serves
      rw [bind_of_error (congrArg Run.result serves), serves]
  | some outcome =>
      obtain ⟨ret, next, events⟩ := outcome
      rw [returns] at serves
      rw [bind_of_ok (congrArg Run.result serves), serves]
      exact congrArg (fun events => Run.mk events _ _)
        (List.append_nil events)

/-! ## Deletion -/

/-- One handle is unbound and the loop goes on. -/
theorem forceUnbind_cons {pdev : Nat} {sva : DflSvaHandle}
    {before after : List DflSvaHandle}
    (others : ∀ other ∈ before ++ after, other.file ≠ sva.file)
    (rest : List DflSvaHandle) :
    forceUnbind (sva :: rest) (some ⟨some pdev, before ++ sva :: after⟩) =
      let run := forceUnbind rest
        (some ⟨some pdev, before ++ ⟨sva.file, none⟩ :: after⟩)
      ⟨sva.drop ++ run.events, run.result, run.state⟩ := by
  obtain ⟨file, svaHandle⟩ := sva
  cases svaHandle with
  | none => rfl
  | some handle =>
      have cleared :
          (DflSvaDev.setHandle
            ⟨some pdev, before ++ ⟨file, some handle⟩ :: after⟩
            ⟨file, none⟩).svaNext = before ++ ⟨file, none⟩ :: after :=
        setHandle_split rfl others rfl
      have writes : forceUnbind (⟨file, some handle⟩ :: rest)
          (some ⟨some pdev, before ++ ⟨file, some handle⟩ :: after⟩) =
            let run := forceUnbind rest
              (some ⟨some pdev, (DflSvaDev.setHandle
                ⟨some pdev, before ++ ⟨file, some handle⟩ :: after⟩
                ⟨file, none⟩).svaNext⟩)
            ⟨.unbind ⟨file, handle⟩ :: run.events, run.result,
              run.state⟩ := rfl
      rw [writes, cleared]
      rfl

theorem forceUnbind_run (pdev : Nat) (before rest : List DflSvaHandle)
    (distinct : ((before ++ rest).map DflSvaHandle.file).Nodup) :
    forceUnbind rest (some ⟨some pdev, before ++ rest⟩) =
      ⟨rest.flatMap DflSvaHandle.drop, .ok (),
        some ⟨some pdev,
          before ++ rest.map fun sva => { sva with svaHandle := none }⟩⟩ := by
  induction rest generalizing before with
  | nil => rfl
  | cons sva rest ih =>
      have apart : ∀ other ∈ before ++ rest, other.file ≠ sva.file := by
        rw [List.map_append, List.map_cons] at distinct
        have split := List.nodup_middle.mp distinct
        rw [List.nodup_cons, ← List.map_append] at split
        intro other member same
        exact split.1 (List.mem_map.mpr ⟨other, member, same⟩)
      have later := ih (before ++ [⟨sva.file, none⟩]) (by
        rw [List.append_assoc, List.map_append] at *
        exact distinct)
      rw [List.append_assoc, List.append_assoc] at later
      rw [forceUnbind_cons apart]
      dsimp only
      rw [show before ++ ⟨sva.file, none⟩ :: rest =
        before ++ ([⟨sva.file, none⟩] ++ rest) from rfl, later]
      rfl

theorem disableDev_run (pdev : Nat) (svaNext : List DflSvaHandle) :
    disableDev (some ⟨some pdev, svaNext⟩) =
      if svaNext.isEmpty then
        ⟨[.disableFeature, .freeDev], .ok (), none⟩
      else ⟨[.disableFeature], .ok (), some ⟨none, svaNext⟩⟩ := by
  cases svaNext <;> rfl

theorem delDflMdev_run {pdev : Nat} {dev : DflSvaDev}
    (present : dev.pdev = some pdev)
    (distinct : (dev.svaNext.map DflSvaHandle.file).Nodup) :
    delDflMdev (some dev) =
      ⟨(Sva.delDflMdev dev).2, .ok (), (Sva.delDflMdev dev).1⟩ := by
  obtain ⟨_, svaNext⟩ := dev
  cases present
  have unbinds := forceUnbind_run pdev [] svaNext distinct
  have begins : delDflMdev (some ⟨some pdev, svaNext⟩) =
      (forceUnbind svaNext >>= fun _ => disableDev)
        (some ⟨some pdev, [] ++ svaNext⟩) := rfl
  rw [begins, bind_of_ok (congrArg Run.result unbinds), unbinds]
  dsimp only
  rw [disableDev_run, List.nil_append, List.isEmpty_map]
  unfold Sva.delDflMdev
  dsimp only
  cases svaNext with
  | nil => rfl
  | cons sva rest => rfl

/-! ## Sequences of operations -/

/--
What may happen to a device: it is opened while the misc core knows it, and
as long as another file keeps it; files are used while they are open, and the
PCI device is deleted once.
-/
def Issued (system : SvaSystem) : SvaOp → Prop
  | .openFile _ => system.listed = true ∨ system.files ≠ []
  | .ioctl file _ => file ∈ system.files
  | .release file => file ∈ system.files
  | .delDev => system.listed = true

instance (system : SvaSystem) (op : SvaOp) : Decidable (Issued system op) :=
  match op with
  | .openFile _ => inferInstanceAs (Decidable (_ ∨ _))
  | .ioctl file _ => inferInstanceAs (Decidable (file ∈ system.files))
  | .release file => inferInstanceAs (Decidable (file ∈ system.files))
  | .delDev => inferInstanceAs (Decidable (_ = true))

/-- What is left after an operation on the device, or what it must not do. -/
def access (system : SvaSystem) : SvaOp → Except SvaFault SvaSystem
  | .openFile kzalloc =>
      let run := dflPciSvaOpen system.nextFile kzalloc system.dev
      run.result.map fun ret =>
        { system with
          dev := run.state
          files :=
            if ret.isNone then system.nextFile :: system.files
            else system.files
          nextFile :=
            if ret.isNone then system.nextFile + 1 else system.nextFile
          events := system.events ++ run.events }
  | .ioctl file cmd =>
      let run := dflPciSvaIoctl file cmd system.dev
      run.result.map fun _ =>
        { system with
          dev := run.state
          events := system.events ++ run.events }
  | .release file =>
      let run := dflPciSvaRelease file system.dev
      run.result.map fun _ =>
        { system with
          dev := run.state
          files := system.files.filter fun other => other ≠ file
          events := system.events ++ run.events }
  | .delDev =>
      let run := delDflMdev system.dev
      run.result.map fun _ =>
        { system with
          dev := run.state
          listed := false
          events := system.events ++ run.events }

/-- A sequence of operations ends with the first which faults. -/
def Step (state : Except SvaFault SvaSystem) (op : SvaOp)
    (next : Except SvaFault SvaSystem) : Prop :=
  ∃ system, state = .ok system ∧ Issued system op ∧
    next = access system op

/-- No operation has faulted. -/
def Unfaulted (state : Except SvaFault SvaSystem) : Prop :=
  ∃ system, state = .ok system

/-- An unknown command is not given once the device has been deleted. -/
def CmdKnown (state : Except SvaFault SvaSystem) : SvaOp → Prop
  | .ioctl _ (.other _) => ∀ system, state = .ok system → system.listed = true
  | _ => True

/-! ## What an operation needs -/

/-- An operation which may happen finds the memory of the device. -/
theorem exists_memory {system : SvaSystem} (tended : Tended system)
    {op : SvaOp} (issued : Issued system op) :
    ∃ dev, system.dev = some dev := by
  cases tended.memory with
  | used memory needed pdev => exact ⟨_, memory⟩
  | freed memory gone closed =>
      have none : ∀ file, file ∉ system.files := by
        intro file
        rw [closed]
        exact List.not_mem_nil
      cases op with
      | openFile kzalloc =>
          rcases issued with listed | used
          · exact absurd (listed.symm.trans gone) (by decide)
          · exact absurd closed used
      | ioctl file cmd => exact absurd issued (none file)
      | release file => exact absurd issued (none file)
      | delDev => exact absurd (issued.symm.trans gone) (by decide)

/-- An open file has a handle. -/
theorem exists_handle {system : SvaSystem} (tended : Tended system)
    {dev : DflSvaDev} (memory : system.dev = some dev) {file : Nat}
    (isOpen : file ∈ system.files) :
    ∃ sva, dev.privateData file = some sva := by
  rw [← tended.files, SvaSystem.handles_of_memory memory] at isOpen
  obtain ⟨sva, member, isFile⟩ := List.mem_map.mp isOpen
  exact Option.isSome_iff_exists.mp
    (List.find?_isSome.mpr ⟨sva, member, decide_eq_true isFile⟩)

/-- The files of a device which is there are apart. -/
theorem distinct_handles {system : SvaSystem} (tended : Tended system)
    {dev : DflSvaDev} (memory : system.dev = some dev) :
    (dev.svaNext.map DflSvaHandle.file).Nodup := by
  have distinct := tended.distinct
  rw [← tended.files, SvaSystem.handles_of_memory memory] at distinct
  exact distinct

/--
Access by access, an operation does what it does to the whole device, unless
it uses a PCI device which is gone.
-/
theorem access_eq {system : SvaSystem} (tended : Tended system) {op : SvaOp}
    (issued : Issued system op) :
    access system op =
      match system.perform op with
      | some next => .ok next
      | none => .error .noPdev := by
  obtain ⟨dev, memory⟩ := exists_memory tended issued
  have distinct := distinct_handles tended memory
  cases op with
  | openFile kzalloc =>
      unfold access SvaSystem.perform
      dsimp only
      rw [memory, dflPciSvaOpen_run]
      dsimp only [Option.bind_some]
      rw [List.append_nil]
      rcases Sva.dflPciSvaOpen system.nextFile kzalloc dev with
        ⟨- | ret, next⟩
      · rfl
      · rfl
  | ioctl file cmd =>
      obtain ⟨sva, finds⟩ := exists_handle tended memory issued
      have runs :=
        dflPciSvaIoctl_run finds (setHandle_self finds distinct) cmd
      have isOpen : file ∈ system.files := issued
      unfold access SvaSystem.perform
      dsimp only
      rw [memory, runs]
      dsimp only [Option.bind_some]
      rw [if_pos isOpen, finds]
      simp only [Option.bind_eq_bind, Option.bind_some]
      cases Sva.dflPciSvaIoctl cmd sva dev with
      | none => rfl
      | some outcome => rfl
  | release file =>
      obtain ⟨sva, finds⟩ := exists_handle tended memory issued
      have isOpen : file ∈ system.files := issued
      unfold access SvaSystem.perform
      dsimp only
      rw [memory, dflPciSvaRelease_run finds]
      dsimp only [Option.bind_some]
      rw [if_pos isOpen, finds]
      rfl
  | delDev =>
      have listed : system.listed = true := issued
      obtain ⟨pdev, present⟩ := Option.isSome_iff_exists.mp
        ((tended.pdev memory).trans listed)
      unfold access SvaSystem.perform
      dsimp only
      rw [memory, delDflMdev_run present distinct]
      dsimp only [Option.bind_some]
      rw [if_pos listed]
      rfl

/-- A request does not return if it reports a number for no PCI device. -/
theorem dflPciSvaIoctl_eq_none_iff (cmd : SvaCmd) (sva : DflSvaHandle)
    (dev : DflSvaDev) :
    Sva.dflPciSvaIoctl cmd sva dev = none ↔
      dev.pdev = none ∧ ∃ number, cmd = .other number := by
  cases cmd with
  | getApiVersion => simp [Sva.dflPciSvaIoctl]
  | bindDev currentMm bindDevice => simp [Sva.dflPciSvaIoctl]
  | unbindDev => simp [Sva.dflPciSvaIoctl]
  | other number =>
      unfold Sva.dflPciSvaIoctl
      cases present : dev.pdev <;> simp

/-- Which operations on a device do not return. -/
theorem perform_eq_none_iff {system : SvaSystem} (tended : Tended system)
    {op : SvaOp} (issued : Issued system op) :
    system.perform op = none ↔
      system.listed = false ∧ ∃ file number, op = .ioctl file (.other number) := by
  obtain ⟨dev, memory⟩ := exists_memory tended issued
  have pdev := tended.pdev memory
  unfold SvaSystem.perform
  rw [memory, Option.bind_some]
  cases op with
  | openFile kzalloc =>
      dsimp only
      rcases Sva.dflPciSvaOpen system.nextFile kzalloc dev with
        ⟨- | ret, next⟩ <;> simp
  | ioctl file cmd =>
      obtain ⟨sva, finds⟩ := exists_handle tended memory issued
      have isOpen : file ∈ system.files := issued
      have gone : dev.pdev = none ↔ system.listed = false := by
        rw [← pdev, Option.isSome_eq_false_iff, Option.isNone_iff_eq_none]
      dsimp only
      rw [if_pos isOpen, finds]
      simp only [Option.bind_eq_bind, Option.bind_some]
      rw [← gone]
      constructor
      · intro fails
        cases returns : Sva.dflPciSvaIoctl cmd sva dev with
        | none =>
            obtain ⟨noPdev, number, rfl⟩ :=
              (dflPciSvaIoctl_eq_none_iff cmd sva dev).mp returns
            exact ⟨noPdev, file, number, rfl⟩
        | some outcome =>
            rw [returns] at fails
            cases fails
      · rintro ⟨noPdev, _, number, same⟩
        cases same
        rw [(dflPciSvaIoctl_eq_none_iff _ sva dev).mpr ⟨noPdev, number, rfl⟩]
        rfl
  | release file =>
      obtain ⟨sva, finds⟩ := exists_handle tended memory issued
      have isOpen : file ∈ system.files := issued
      dsimp only
      rw [if_pos isOpen, finds]
      simp
  | delDev =>
      have listed : system.listed = true := issued
      simp [listed]

/-! ## Runs -/

/-- As long as nothing has faulted, the device is looked after. -/
def TendedUnlessFaulted (state : Except SvaFault SvaSystem) : Prop :=
  ∀ system, state = .ok system → Tended system

theorem TendedUnlessFaulted.step {state next : Except SvaFault SvaSystem}
    {op : SvaOp} (tended : TendedUnlessFaulted state)
    (step : Step state op next) : TendedUnlessFaulted next := by
  obtain ⟨system, rfl, issued, moves⟩ := step
  rw [access_eq (tended system rfl) issued] at moves
  intro later isLater
  cases performs : system.perform op with
  | none =>
      rw [performs, isLater] at moves
      cases moves
  | some _ =>
      rw [performs, isLater] at moves
      cases moves
      exact (tended system rfl).step performs

/-- A step faults exactly if an unknown command finds no PCI device. -/
theorem unfaulted_iff_cmdKnown {state next : Except SvaFault SvaSystem}
    {op : SvaOp} (tended : TendedUnlessFaulted state)
    (step : Step state op next) : Unfaulted next ↔ CmdKnown state op := by
  obtain ⟨system, rfl, issued, moves⟩ := step
  have fails := perform_eq_none_iff (tended system rfl) issued
  rw [access_eq (tended system rfl) issued] at moves
  cases performs : system.perform op with
  | none =>
      obtain ⟨deleted, file, number, rfl⟩ := fails.mp performs
      rw [performs] at moves
      constructor
      · rintro ⟨later, isLater⟩
        rw [isLater] at moves
        cases moves
      · intro known
        exact absurd ((known system rfl).symm.trans deleted) (by decide)
  | some later =>
      rw [performs] at moves
      refine iff_of_true ⟨later, moves⟩ ?_
      cases op with
      | ioctl file cmd =>
          cases cmd with
          | other number =>
              intro _ same
              cases same
              by_contra deleted
              have none := fails.mpr
                ⟨Bool.eq_false_iff.mpr deleted, file, number, rfl⟩
              rw [performs] at none
              cases none
          | getApiVersion => trivial
          | bindDev currentMm bindDevice => trivial
          | unbindDev => trivial
      | openFile kzalloc => trivial
      | release file => trivial
      | delDev => trivial

/-- No operation touches a device which has been freed. -/
theorem never_freed (pdev : Nat)
    (path : List (SvaOp × Except SvaFault SvaSystem))
    (isPath : IsPath Step (.ok (svaAdded pdev)) path) :
    Throughout (fun state => state ≠ .error .freed) (.ok (svaAdded pdev))
      path := by
  have kept : Throughout
      (fun state => TendedUnlessFaulted state ∧ state ≠ .error .freed)
      (.ok (svaAdded pdev)) path := by
    refine throughout_of_invariant ?_ isPath ⟨?_, nofun⟩
    · rintro state op next ⟨tended, -⟩ step
      refine ⟨tended.step step, ?_⟩
      obtain ⟨system, rfl, issued, moves⟩ := step
      rw [access_eq (tended system rfl) issued] at moves
      rw [moves]
      cases system.perform op <;> nofun
    · intro system same
      cases same
      exact tended_added pdev
  exact kept.mono fun _ both => both.2

/--
Along every sequence of opens, requests, closes and a deletion of the device,
no operation uses a PCI device which is gone, or the device after it was
freed, if and only if no file gives an unknown command once the device has
been deleted.
-/
theorem outlives_iff_cmdKnown (pdev : Nat)
    (path : List (SvaOp × Except SvaFault SvaSystem))
    (isPath : IsPath Step (.ok (svaAdded pdev)) path) :
    Throughout Unfaulted (.ok (svaAdded pdev)) path ↔
      StepsMeet CmdKnown (.ok (svaAdded pdev)) path := by
  have tended : TendedUnlessFaulted (.ok (svaAdded pdev)) := by
    intro system same
    cases same
    exact tended_added pdev
  have preserved : ∀ state op next, TendedUnlessFaulted state →
      Step state op next → TendedUnlessFaulted next :=
    fun _ _ _ => TendedUnlessFaulted.step
  exact throughout_iff_stepsMeet TendedUnlessFaulted preserved
    (fun _ _ _ tended _ step => unfaulted_iff_cmdKnown tended step)
    isPath tended ⟨_, rfl⟩

/-- The state after an operation. -/
def apply (state : Except SvaFault SvaSystem) (op : SvaOp) :
    Except SvaFault SvaSystem :=
  state.bind fun system => access system op

/-- The operation may happen. -/
def enabled (state : Except SvaFault SvaSystem) (op : SvaOp) : Bool :=
  match state with
  | .ok system => decide (Issued system op)
  | .error _ => false

theorem step_apply {state : Except SvaFault SvaSystem} {op : SvaOp}
    (isEnabled : enabled state op = true) : Step state op (apply state op) := by
  cases state with
  | error fault => cases isEnabled
  | ok system => exact ⟨system, rfl, of_decide_eq_true isEnabled, rfl⟩

/-- The device is deleted under an open file, which then gives a command. -/
def deletedThen (cmd : SvaCmd) : List SvaOp :=
  [.openFile true, .delDev, .ioctl 0 cmd]

/-- The path along which this happens. -/
def deletedThenPath (cmd : SvaCmd) :
    List (SvaOp × Except SvaFault SvaSystem) :=
  pathOf apply (.ok (svaAdded 3)) (deletedThen cmd)

/-- A process is refused a bond by a device which is gone. -/
theorem bind_after_deletion :
    Throughout Unfaulted (.ok (svaAdded 3))
      (deletedThenPath (.bindDev true (.ok (some 5)))) := by
  apply (outlives_iff_cmdKnown 3 (deletedThenPath _) _).mpr
  · refine ⟨trivial, trivial, trivial, trivial⟩
  · apply isPath_of_enabledAlong fun _ _ => step_apply
    decide

/-- An unknown command is reported for a PCI device which is gone. -/
theorem unknown_command_after_deletion :
    ∃ path, IsPath Step (.ok (svaAdded 3)) path ∧
      ¬ Throughout Unfaulted (.ok (svaAdded 3)) path := by
  refine ⟨deletedThenPath (.other 0), ?_, ?_⟩
  · apply isPath_of_enabledAlong fun _ _ => step_apply
    decide
  · intro unfaulted
    obtain ⟨system, same⟩ := Throughout.final unfaulted
    have faults : (deletedThen (.other 0)).foldl apply (.ok (svaAdded 3)) =
        .error .noPdev := rfl
    rw [faults] at same
    cases same

end LinuxDfl.Sva.Access

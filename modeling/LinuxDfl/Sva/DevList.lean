import LinuxDfl.Sva.LockOrder
import Mathlib.Data.List.Nodup

/-!
# The list of SVA devices

Adding a PCI device enables two IOMMU features, allocates the device and
registers it with the misc core; deleting it undoes all three.  What the misc
core answers is dropped on the way, so that a device whose registration has
failed is listed all the same.
-/

namespace LinuxDfl.Sva

open LinuxDfl.Kernel
open LinuxDfl.Lib.Transition

/-! ## Data -/

/-- `vendor` and `device` of a PCI device -/
structure PciIds where
  vendor : BitVec 16
  device : BitVec 16
  deriving DecidableEq, Repr

/-- The devices of the module and the IOMMU features of the PCI devices. -/
structure SvaHost extends SvaModule where
  /-- `IOMMU_DEV_FEAT_IOPF` -/
  iopf : Nat → Bool
  /-- `IOMMU_DEV_FEAT_SVA` -/
  sva : Nat → Bool

/-- What adding a device meets. -/
structure AddAnswers where
  /-- `iommu_dev_enable_feature` of `IOMMU_DEV_FEAT_IOPF` -/
  iopf : Option Errno
  /-- `iommu_dev_enable_feature` of `IOMMU_DEV_FEAT_SVA` -/
  sva : Option Errno
  kzalloc : Bool
  miscRegister : Option Errno
  deriving DecidableEq, Repr

/-- `PCI_VENDOR_ID_INTEL` -/
def pciVendorIdIntel : BitVec 16 := 0x8086#16

/-- `PCIE_DEVICE_ID_INTEL_DFL` -/
def pcieDeviceIdIntelDfl : BitVec 16 := 0xbcce#16

/-- `PCIE_DEVICE_ID_INTEL_DFL_VF` -/
def pcieDeviceIdIntelDflVf : BitVec 16 := 0xbccf#16

/-- `is_dfl_device` -/
def isDflDevice (ids : PciIds) : Bool :=
  ids.vendor = pciVendorIdIntel &&
    (ids.device = pcieDeviceIdIntelDfl ||
      ids.device = pcieDeviceIdIntelDflVf)

/-! ## Operations -/

/-- `enable_iommu_sva_feature` -/
def enableIommuSvaFeature (answers : AddAnswers) (pdev : Nat)
    (host : SvaHost) : Option Errno × SvaHost :=
  match answers.iopf with
  | some ret => (some ret, host)
  | none =>
      let host := { host with iopf := Function.update host.iopf pdev true }
      match answers.sva with
      | some ret =>
          (some ret,
            { host with iopf := Function.update host.iopf pdev false })
      | none =>
          (none, { host with sva := Function.update host.sva pdev true })

/-- `disable_iommu_sva_feature` -/
def disableIommuSvaFeature (pdev : Nat) (host : SvaHost) : SvaHost :=
  { host with
    sva := Function.update host.sva pdev false
    iopf := Function.update host.iopf pdev false }

/-- `add_dfl_mdev`, which succeeds whatever `misc_register` answers -/
def addDflMdev (answers : AddAnswers) (cur : Nat) (host : SvaHost) :
    Option Errno × SvaHost :=
  match answers.miscRegister with
  | some _ => (none, host)
  | none => (none, { host with miscList := cur :: host.miscList })

/-- `dfl_pci_sva_add_dev` -/
def dflPciSvaAddDev (ids : Nat → PciIds) (pdev : Nat) (answers : AddAnswers)
    (host : SvaHost) : SvaHost :=
  if !isDflDevice (ids pdev) then host
  else if (host.find pdev).isSome then host
  else
    match enableIommuSvaFeature answers pdev host with
    | (some _, host) => host
    | (none, host) =>
        if !answers.kzalloc then disableIommuSvaFeature pdev host
        else
          let cur := host.nextDev
          let host :=
            { host with
              devs := Function.update host.devs cur (some ⟨some pdev, []⟩)
              nextDev := cur + 1 }
          match addDflMdev answers cur host with
          | (some _, host) =>
              disableIommuSvaFeature pdev
                { host with devs := Function.update host.devs cur none }
          | (none, host) =>
              { host with dflDevList := cur :: host.dflDevList }

/-- `del_dfl_mdev` of a device in the list, which is that of `pdev` -/
def delListedMdev (cur pdev : Nat) (host : SvaHost) : SvaHost :=
  disableIommuSvaFeature pdev
    { host with
      miscList := host.miscList.filter fun other => other ≠ cur
      devs := Function.update host.devs cur
        ((host.devs cur).bind fun dev => (delDflMdev dev).1) }

/-- `dfl_pci_sva_del_dev` -/
def dflPciSvaDelDev (ids : Nat → PciIds) (pdev : Nat) (host : SvaHost) :
    SvaHost :=
  if isDflDevice (ids pdev) then
    match host.find pdev with
    | none => host
    | some cur =>
        delListedMdev cur pdev
          { host with
            dflDevList := host.dflDevList.filter fun other => other ≠ cur }
  else host

/-! ## Sequences of operations -/

/-- What is done to a file of a device. -/
inductive FileOp where
  | openFile (kzalloc : Bool)
  | ioctl (file : Nat) (cmd : SvaCmd)
  | release (file : Nat)

inductive HostOp where
  | addDev (pdev : Nat) (answers : AddAnswers)
  | delDev (pdev : Nat)
  | file (cur : Nat) (op : FileOp)

/-- What is left of a device after a file operation which returns. -/
def fileChange (nextFile : Nat) (dev : DflSvaDev) :
    FileOp → Option (Option DflSvaDev)
  | .openFile kzalloc => some (some (dflPciSvaOpen nextFile kzalloc dev).2)
  | .ioctl file cmd => do
      let sva ← dev.privateData file
      let (_, dev, _) ← dflPciSvaIoctl cmd sva dev
      return some dev
  | .release file => do
      let sva ← dev.privateData file
      return (dflPciSvaRelease sva dev).1

/-- The state after an operation which returns. -/
def SvaHost.perform (ids : Nat → PciIds) (host : SvaHost) :
    HostOp → Option SvaHost
  | .addDev pdev answers => some (dflPciSvaAddDev ids pdev answers host)
  | .delDev pdev => some (dflPciSvaDelDev ids pdev host)
  | .file cur op => do
      let dev ← host.devs cur
      let dev ← fileChange host.nextFile dev op
      return { host with
        devs := Function.update host.devs cur dev
        nextFile := host.nextFile + 1 }

def SvaHost.Step (ids : Nat → PciIds) (host : SvaHost) (op : HostOp)
    (next : SvaHost) : Prop :=
  host.perform ids op = some next

/-- Nothing has been found, and no feature is enabled. -/
def hostInit : SvaHost := ⟨svaInit, fun _ => false, fun _ => false⟩

/-! ## What is to hold -/

/-- `cur->pdev`, for a device which has not been freed -/
def SvaHost.pdevOf (host : SvaHost) (cur : Nat) : Option Nat :=
  (host.devs cur).bind DflSvaDev.pdev

/-- The PCI devices of `dfl_dev_list`. -/
def SvaHost.pdevs (host : SvaHost) : List (Option Nat) :=
  host.dflDevList.map host.pdevOf

/-- The list has each device once which has its features and its file. -/
structure DevListSound (host : SvaHost) : Prop where
  once : host.pdevs.Nodup
  exactly : ∀ pdev, some pdev ∈ host.pdevs ↔
    (host.iopf pdev = true ∧ host.sva pdev = true) ∧
      ∃ cur ∈ host.miscList, host.pdevOf cur = some pdev

/-- Adding a device which is not in the list yet fails at some step. -/
def AddFails (ids : Nat → PciIds) (host : SvaHost) (pdev : Nat)
    (answers : AddAnswers) : Prop :=
  isDflDevice (ids pdev) = true ∧ some pdev ∉ host.pdevs ∧
    (answers.iopf ≠ none ∨ answers.sva ≠ none ∨ answers.kzalloc = false ∨
      answers.miscRegister ≠ none)

/-- A device which fails to be added has no features and no entry. -/
def FailedAddClean (ids : Nat → PciIds) (host : SvaHost) : HostOp → Prop
  | .addDev pdev answers =>
      AddFails ids host pdev answers →
        let next := dflPciSvaAddDev ids pdev answers host
        (next.iopf pdev = false ∧ next.sva pdev = false) ∧
          some pdev ∉ next.pdevs
  | _ => True

/-- Adding a device gets as far as the misc core. -/
def AddReaches (ids : Nat → PciIds) (host : SvaHost) (pdev : Nat)
    (answers : AddAnswers) : Prop :=
  isDflDevice (ids pdev) = true ∧ some pdev ∉ host.pdevs ∧
    answers.iopf = none ∧ answers.sva = none ∧ answers.kzalloc = true

instance (ids : Nat → PciIds) (host : SvaHost) (pdev : Nat)
    (answers : AddAnswers) : Decidable (AddReaches ids host pdev answers) :=
  inferInstanceAs (Decidable (_ ∧ _))

/-- The misc core registers a device when it is asked to. -/
def Registers (ids : Nat → PciIds) (host : SvaHost) : HostOp → Prop
  | .addDev pdev answers =>
      AddReaches ids host pdev answers → answers.miscRegister = none
  | _ => True

instance (ids : Nat → PciIds) (host : SvaHost) (op : HostOp) :
    Decidable (Registers ids host op) :=
  match op with
  | .addDev _ _ => inferInstanceAs (Decidable (_ → _))
  | .delDev _ => isTrue trivial
  | .file _ _ => isTrue trivial

/-! ## The invariant -/

/-- What each operation keeps, whatever the misc core answers. -/
structure HostKept (host : SvaHost) : Prop where
  present : none ∉ host.pdevs
  once : host.pdevs.Nodup
  below : ∀ cur ∈ host.dflDevList, cur < host.nextDev
  registered : ∀ cur ∈ host.miscList, cur ∈ host.dflDevList
  iopf : ∀ pdev, host.iopf pdev = true ↔ some pdev ∈ host.pdevs
  sva : ∀ pdev, host.sva pdev = true ↔ some pdev ∈ host.pdevs

theorem hostKept_init : HostKept hostInit where
  present := List.not_mem_nil
  once := List.nodup_nil
  below _ member := absurd member List.not_mem_nil
  registered _ member := absurd member List.not_mem_nil
  iopf _ := iff_of_false Bool.false_ne_true List.not_mem_nil
  sva _ := iff_of_false Bool.false_ne_true List.not_mem_nil

/-- Entries of one PCI device are one. -/
theorem HostKept.unique {host : SvaHost} (kept : HostKept host)
    {cur other : Nat} (listed : cur ∈ host.dflDevList)
    (alsoListed : other ∈ host.dflDevList)
    (same : host.pdevOf cur = host.pdevOf other) : cur = other :=
  List.inj_on_of_nodup_map kept.once listed alsoListed same

theorem find_eq_some {host : SvaHost} {pdev cur : Nat}
    (found : host.find pdev = some cur) :
    cur ∈ host.dflDevList ∧ host.pdevOf cur = some pdev := by
  have hit := List.find?_some found
  exact ⟨List.mem_of_find?_eq_some found, of_decide_eq_true hit⟩

theorem find_eq_none_iff {host : SvaHost} {pdev : Nat} :
    host.find pdev = none ↔ some pdev ∉ host.pdevs := by
  unfold SvaModule.find SvaHost.pdevs
  rw [List.find?_eq_none, List.mem_map]
  constructor
  · rintro none ⟨cur, listed, isPdev⟩
    exact none cur listed (decide_eq_true isPdev)
  · intro none cur listed isPdev
    exact none ⟨cur, listed, of_decide_eq_true isPdev⟩

/-- When everything in the list is registered, the list is as it should be. -/
theorem HostKept.sound_iff {host : SvaHost} (kept : HostKept host) :
    DevListSound host ↔ ∀ cur ∈ host.dflDevList, cur ∈ host.miscList := by
  constructor
  · intro sound cur listed
    have entry : host.pdevOf cur ∈ host.pdevs := List.mem_map_of_mem listed
    obtain ⟨pdev, isPdev⟩ := Option.ne_none_iff_exists'.mp
      fun none => kept.present (none ▸ entry)
    rw [isPdev] at entry
    obtain ⟨-, other, isRegistered, same⟩ := (sound.exactly pdev).mp entry
    have alsoListed := kept.registered other isRegistered
    rw [kept.unique listed alsoListed (isPdev.trans same.symm)]
    exact isRegistered
  · intro registered
    refine ⟨kept.once, fun pdev => ⟨?_, ?_⟩⟩
    · intro listed
      obtain ⟨cur, entry, isPdev⟩ := List.mem_map.mp listed
      exact ⟨⟨(kept.iopf pdev).mpr listed, (kept.sva pdev).mpr listed⟩,
        cur, registered cur entry, isPdev⟩
    · rintro ⟨⟨enabled, -⟩, -⟩
      exact (kept.iopf pdev).mp enabled

/-! ## Operations -/

/-- A device which has got as far as the misc core is listed. -/
def SvaHost.listed (host : SvaHost) (pdev : Nat) (registers : Bool) :
    SvaHost where
  dflDevList := host.nextDev :: host.dflDevList
  miscList :=
    if registers then host.nextDev :: host.miscList else host.miscList
  devs := Function.update host.devs host.nextDev (some ⟨some pdev, []⟩)
  nextDev := host.nextDev + 1
  nextFile := host.nextFile
  iopf := Function.update host.iopf pdev true
  sva := Function.update host.sva pdev true

/-- A feature which is enabled and disabled again is as before. -/
theorem update_back {feature : Nat → Bool} {pdev : Nat}
    (disabled : feature pdev = false) :
    Function.update (Function.update feature pdev true) pdev false =
      feature := by
  rw [Function.update_idem, ← disabled, Function.update_eq_self]

/-- Adding a device lists it, or changes nothing. -/
theorem HostKept.add_eq {host : SvaHost} (kept : HostKept host)
    (ids : Nat → PciIds) (pdev : Nat) (answers : AddAnswers) :
    dflPciSvaAddDev ids pdev answers host =
      if AddReaches ids host pdev answers then
        host.listed pdev answers.miscRegister.isNone
      else host := by
  unfold dflPciSvaAddDev
  by_cases isDfl : isDflDevice (ids pdev) = true
  swap
  · rw [if_pos (by simpa using isDfl),
      if_neg fun reaches : AddReaches _ _ _ _ => isDfl reaches.1]
  rw [if_neg (by simpa using isDfl)]
  cases found : host.find pdev with
  | some cur =>
      have already : ¬ AddReaches ids host pdev answers := by
        rintro ⟨-, fresh, -⟩
        rw [find_eq_none_iff.mpr fresh] at found
        cases found
      rw [if_pos (by rfl), if_neg already]
  | none =>
      have fresh := find_eq_none_iff.mp found
      have noIopf : host.iopf pdev = false :=
        Bool.eq_false_iff.mpr (mt (kept.iopf pdev).mp fresh)
      have noSva : host.sva pdev = false :=
        Bool.eq_false_iff.mpr (mt (kept.sva pdev).mp fresh)
      rw [if_neg (by decide)]
      obtain ⟨iopf, sva, kzalloc, register⟩ := answers
      cases iopf with
      | some ret =>
          rw [if_neg fun reaches : AddReaches _ _ _ _ =>
            Option.some_ne_none ret reaches.2.2.1]
          rfl
      | none =>
          cases sva with
          | some ret =>
              rw [if_neg fun reaches : AddReaches _ _ _ _ =>
                Option.some_ne_none ret reaches.2.2.2.1]
              unfold enableIommuSvaFeature
              dsimp only
              rw [update_back noIopf]
          | none =>
              cases kzalloc with
              | false =>
                  rw [if_neg fun reaches : AddReaches _ _ _ _ =>
                    Bool.false_ne_true reaches.2.2.2.2]
                  unfold enableIommuSvaFeature disableIommuSvaFeature
                  dsimp only
                  rw [update_back noIopf, update_back noSva]
                  rfl
              | true =>
                  have reaches : AddReaches ids host pdev
                      ⟨none, none, true, register⟩ :=
                    ⟨isDfl, fresh, rfl, rfl, rfl⟩
                  rw [if_pos reaches]
                  cases register <;> rfl

/-- The device which is listed has not been there before. -/
theorem HostKept.listed_pdevs {host : SvaHost} (kept : HostKept host)
    (pdev : Nat) (registers : Bool) :
    (host.listed pdev registers).pdevs = some pdev :: host.pdevs := by
  have new : (host.listed pdev registers).pdevOf host.nextDev =
      some pdev := by
    unfold SvaHost.pdevOf SvaHost.listed
    dsimp only
    rw [Function.update_self]
    rfl
  have old : host.dflDevList.map (host.listed pdev registers).pdevOf =
      host.dflDevList.map host.pdevOf := by
    apply List.map_congr_left
    intro cur listed
    unfold SvaHost.pdevOf SvaHost.listed
    dsimp only
    rw [Function.update_of_ne (Nat.ne_of_lt (kept.below cur listed))]
  show _ :: _ = _
  rw [new]
  exact congrArg _ old

theorem HostKept.listed {host : SvaHost} (kept : HostKept host) {pdev : Nat}
    (fresh : some pdev ∉ host.pdevs) (registers : Bool) :
    HostKept (host.listed pdev registers) := by
  have pdevs := kept.listed_pdevs pdev registers
  have feature : ∀ {enabled : Nat → Bool},
      (∀ other, enabled other = true ↔ some other ∈ host.pdevs) →
        ∀ other, Function.update enabled pdev true other = true ↔
          some other ∈ some pdev :: host.pdevs := by
    intro enabled exactly other
    rw [Function.update_apply, List.mem_cons, Option.some.injEq]
    by_cases same : other = pdev
    · simp [same]
    · simp [same, exactly]
  constructor
  case present =>
    rw [pdevs]
    exact List.not_mem_cons_of_ne_of_not_mem nofun kept.present
  case once =>
    rw [pdevs]
    exact List.nodup_cons.mpr ⟨fresh, kept.once⟩
  case below =>
    intro cur member
    rcases List.mem_cons.mp member with rfl | old
    · exact Nat.lt_succ_self _
    · exact Nat.lt_succ_of_lt (kept.below cur old)
  case registered =>
    intro cur member
    cases registers with
    | false => exact List.mem_cons_of_mem _ (kept.registered cur member)
    | true =>
        rcases List.mem_cons.mp member with rfl | old
        · exact List.mem_cons_self
        · exact List.mem_cons_of_mem _ (kept.registered cur old)
  case iopf =>
    rw [pdevs]
    exact feature kept.iopf
  case sva =>
    rw [pdevs]
    exact feature kept.sva

/-- The PCI device of the entry which is deleted is gone, the others stay. -/
theorem HostKept.unlisted_pdevs {host : SvaHost} (kept : HostKept host)
    {pdev cur : Nat} (found : host.find pdev = some cur) :
    (delListedMdev cur pdev
      { host with
        dflDevList := host.dflDevList.filter fun other => other ≠ cur }).pdevs =
      host.pdevs.filter fun other => other ≠ some pdev := by
  obtain ⟨listed, isPdev⟩ := find_eq_some found
  have others : ∀ other ∈ host.dflDevList,
      (decide (other ≠ cur)) = decide (host.pdevOf other ≠ some pdev) := by
    intro other alsoListed
    rw [decide_eq_decide, ← isPdev]
    exact not_congr ⟨congrArg _, kept.unique alsoListed listed⟩
  unfold SvaHost.pdevs
  rw [List.filter_map]
  show (host.dflDevList.filter _).map _ = _
  rw [List.filter_congr others]
  apply List.map_congr_left
  intro other member
  have apart : other ≠ cur := by
    rintro rfl
    have differs := of_decide_eq_true (List.mem_filter.mp member).2
    exact differs isPdev
  unfold SvaHost.pdevOf delListedMdev disableIommuSvaFeature
  dsimp only
  rw [Function.update_of_ne apart]

theorem HostKept.del {host : SvaHost} (kept : HostKept host)
    (ids : Nat → PciIds) (pdev : Nat) :
    HostKept (dflPciSvaDelDev ids pdev host) := by
  unfold dflPciSvaDelDev
  by_cases isDfl : isDflDevice (ids pdev) = true
  swap
  · rw [if_neg isDfl]
    exact kept
  rw [if_pos isDfl]
  cases found : host.find pdev with
  | none => exact kept
  | some cur =>
      have pdevs := kept.unlisted_pdevs found
      have feature : ∀ {enabled : Nat → Bool},
          (∀ other, enabled other = true ↔ some other ∈ host.pdevs) →
            ∀ other, Function.update enabled pdev false other = true ↔
              some other ∈ host.pdevs.filter fun entry =>
                entry ≠ some pdev := by
        intro enabled exactly other
        rw [Function.update_apply, List.mem_filter, decide_eq_true_iff]
        by_cases same : other = pdev
        · simp [same]
        · simp [same, exactly]
      constructor
      case present =>
        rw [pdevs]
        exact fun member => kept.present (List.mem_filter.mp member).1
      case once =>
        rw [pdevs]
        exact kept.once.filter _
      case below =>
        intro other member
        exact kept.below other (List.mem_filter.mp member).1
      case registered =>
        intro other member
        obtain ⟨isRegistered, apart⟩ := List.mem_filter.mp member
        exact List.mem_filter.mpr ⟨kept.registered other isRegistered, apart⟩
      case iopf =>
        rw [pdevs]
        exact feature kept.iopf
      case sva =>
        rw [pdevs]
        exact feature kept.sva

/-- A request which returns keeps the PCI device. -/
theorem dflPciSvaIoctl_pdev {cmd : SvaCmd} {sva : DflSvaHandle}
    {dev next : DflSvaDev} {ret : Except Errno Nat} {events : List SvaEvent}
    (returns : dflPciSvaIoctl cmd sva dev = some (ret, next, events)) :
    next.pdev = dev.pdev := by
  cases cmd with
  | getApiVersion =>
      cases returns
      rfl
  | bindDev currentMm bindDevice =>
      cases returns
      rfl
  | unbindDev =>
      cases returns
      rfl
  | other number =>
      unfold dflPciSvaIoctl at returns
      cases present : dev.pdev with
      | none =>
          simp only [present] at returns
          cases returns
      | some pdev =>
          simp only [present] at returns
          cases returns
          exact present

/-- A device which is freed had no PCI device left. -/
theorem dflPciSvaRelease_pdev (sva : DflSvaHandle) (dev : DflSvaDev) :
    (dflPciSvaRelease sva dev).1.bind DflSvaDev.pdev = dev.pdev := by
  unfold dflPciSvaRelease
  dsimp only
  split
  · next frees =>
      have gone := (Bool.and_eq_true_iff.mp frees).1
      exact (Option.isNone_iff_eq_none.mp gone).symm
  · rfl

/-- A file operation leaves the PCI device of its device alone. -/
theorem fileChange_pdev {nextFile : Nat} {dev : DflSvaDev} {op : FileOp}
    {left : Option DflSvaDev}
    (changes : fileChange nextFile dev op = some left) :
    left.bind DflSvaDev.pdev = dev.pdev := by
  cases op with
  | openFile kzalloc =>
      cases changes
      obtain ⟨pdev, svaNext⟩ := dev
      cases pdev <;> cases kzalloc <;> rfl
  | ioctl file cmd =>
      obtain ⟨sva, -, calls⟩ := Option.bind_eq_some_iff.mp changes
      obtain ⟨⟨ret, next, events⟩, returns, isLeft⟩ :=
        Option.bind_eq_some_iff.mp calls
      cases isLeft
      exact dflPciSvaIoctl_pdev returns
  | release file =>
      obtain ⟨sva, -, isLeft⟩ := Option.bind_eq_some_iff.mp changes
      cases isLeft
      exact dflPciSvaRelease_pdev sva dev

/-- A file operation leaves the list and what is in it alone. -/
theorem file_pdevOf {ids : Nat → PciIds} {host next : SvaHost} {cur : Nat}
    {op : FileOp} (performs : host.perform ids (.file cur op) = some next) :
    ∃ devs nextFile,
      next = { host with devs := devs, nextFile := nextFile } ∧
        next.pdevOf = host.pdevOf := by
  obtain ⟨dev, live, calls⟩ := Option.bind_eq_some_iff.mp performs
  obtain ⟨left, changes, isNext⟩ := Option.bind_eq_some_iff.mp calls
  cases isNext
  refine ⟨_, _, rfl, ?_⟩
  funext other
  unfold SvaHost.pdevOf
  dsimp only
  rw [Function.update_apply]
  by_cases same : other = cur
  · rw [if_pos same, same, live, fileChange_pdev changes, Option.bind_some]
  · rw [if_neg same]

/-! ## Steps -/

theorem HostKept.step {ids : Nat → PciIds} {host next : SvaHost}
    {op : HostOp} (kept : HostKept host) (step : host.Step ids op next) :
    HostKept next := by
  cases op with
  | addDev pdev answers =>
      cases step
      rw [kept.add_eq]
      split
      · next reaches => exact kept.listed reaches.2.1 _
      · exact kept
  | delDev pdev =>
      cases step
      exact kept.del ids pdev
  | file cur op =>
      obtain ⟨devs, nextFile, rfl, same⟩ := file_pdevOf step
      have pdevs : SvaHost.pdevs { host with
          devs := devs, nextFile := nextFile } = host.pdevs := by
        unfold SvaHost.pdevs
        rw [same]
      constructor
      case present =>
        rw [pdevs]
        exact kept.present
      case once =>
        rw [pdevs]
        exact kept.once
      case below => exact kept.below
      case registered => exact kept.registered
      case iopf =>
        rw [pdevs]
        exact kept.iopf
      case sva =>
        rw [pdevs]
        exact kept.sva

/-- Everything in the list is registered. -/
def AllRegistered (host : SvaHost) : Prop :=
  ∀ cur ∈ host.dflDevList, cur ∈ host.miscList

/-- A step keeps everything registered exactly if the misc core does. -/
theorem allRegistered_iff {ids : Nat → PciIds} {host next : SvaHost}
    {op : HostOp} (kept : HostKept host) (all : AllRegistered host)
    (step : host.Step ids op next) :
    AllRegistered next ↔ Registers ids host op := by
  cases op with
  | addDev pdev answers =>
      cases step
      rw [kept.add_eq]
      by_cases reaches : AddReaches ids host pdev answers
      swap
      · rw [if_neg reaches]
        exact iff_of_true all fun does => absurd does reaches
      rw [if_pos reaches]
      obtain ⟨iopf, sva, kzalloc, register⟩ := answers
      cases register with
      | none =>
          refine iff_of_true ?_ fun _ => rfl
          intro cur member
          rcases List.mem_cons.mp member with rfl | old
          · exact List.mem_cons_self
          · exact List.mem_cons_of_mem _ (all cur old)
      | some ret =>
          refine iff_of_false ?_ fun registers => nomatch registers reaches
          intro registered
          have new := registered host.nextDev List.mem_cons_self
          have old := kept.below _ (kept.registered _ new)
          exact absurd old (Nat.lt_irrefl _)
  | delDev pdev =>
      cases step
      refine iff_of_true ?_ trivial
      unfold dflPciSvaDelDev
      split
      · cases found : host.find pdev with
        | none => exact all
        | some cur =>
            intro other member
            obtain ⟨listed, apart⟩ := List.mem_filter.mp member
            exact List.mem_filter.mpr ⟨all other listed, apart⟩
      · exact all
  | file cur op =>
      obtain ⟨devs, nextFile, rfl, -⟩ := file_pdevOf step
      exact iff_of_true all trivial

/-- A failed add is clean exactly if it is not the misc core which fails. -/
theorem failedAddClean_iff {ids : Nat → PciIds} {host : SvaHost}
    {op : HostOp} (kept : HostKept host) :
    FailedAddClean ids host op ↔ Registers ids host op := by
  cases op with
  | addDev pdev answers =>
      unfold FailedAddClean Registers
      dsimp only
      rw [kept.add_eq]
      constructor
      · intro clean reaches
        by_contra refused
        have fails : AddFails ids host pdev answers :=
          ⟨reaches.1, reaches.2.1, Or.inr (Or.inr (Or.inr refused))⟩
        have unlisted := (clean fails).2
        rw [if_pos reaches, kept.listed_pdevs] at unlisted
        exact unlisted List.mem_cons_self
      · rintro registers ⟨isDfl, fresh, fails⟩
        have stops : ¬ AddReaches ids host pdev answers := by
          intro reaches
          have register := registers reaches
          obtain ⟨-, -, iopf, sva, kzalloc⟩ := reaches
          rcases fails with iopfFails | svaFails | noMemory | refused
          · exact iopfFails iopf
          · exact svaFails sva
          · exact Bool.false_ne_true (noMemory.symm.trans kzalloc)
          · exact refused register
        rw [if_neg stops]
        exact ⟨⟨Bool.eq_false_iff.mpr (mt (kept.iopf pdev).mp fresh),
          Bool.eq_false_iff.mpr (mt (kept.sva pdev).mp fresh)⟩, fresh⟩
  | delDev pdev => exact Iff.rfl
  | file cur op => exact Iff.rfl

/--
Along every sequence of devices which are added and deleted, and of file
operations: the list has each PCI device once which has both features enabled
and its file registered, and what fails to be added is left clean, if and only
if the misc core registers each device which it is asked to.
-/
theorem devList_sound_iff (ids : Nat → PciIds)
    (path : List (HostOp × SvaHost))
    (isPath : IsPath (SvaHost.Step ids) hostInit path) :
    (Throughout DevListSound hostInit path ∧
        StepsMeet (FailedAddClean ids) hostInit path) ↔
      StepsMeet (Registers ids) hostInit path := by
  have preserved : ∀ host op next, HostKept host →
      SvaHost.Step ids host op next → HostKept next :=
    fun _ _ _ => HostKept.step
  have agree : ∀ host op next, HostKept host →
      SvaHost.Step ids host op next →
        (FailedAddClean ids host op ↔ Registers ids host op) :=
    fun _ _ _ kept _ => failedAddClean_iff kept
  have exactly : ∀ host op next, HostKept host → DevListSound host →
      SvaHost.Step ids host op next →
        (DevListSound next ↔ Registers ids host op) := by
    intro host op next kept sound step
    rw [(kept.step step).sound_iff]
    exact allRegistered_iff kept (kept.sound_iff.mp sound) step
  have initial : DevListSound hostInit :=
    hostKept_init.sound_iff.mpr fun _ member =>
      absurd member List.not_mem_nil
  have clean :=
    stepsMeet_congr HostKept preserved agree isPath hostKept_init
  have sound := throughout_iff_stepsMeet HostKept preserved exactly isPath
    hostKept_init initial
  rw [sound, clean, and_self]

/-- The state after an operation. -/
def SvaHost.apply (ids : Nat → PciIds) (host : SvaHost) (op : HostOp) :
    SvaHost :=
  (host.perform ids op).getD host

theorem SvaHost.step_apply {ids : Nat → PciIds} {host : SvaHost}
    {op : HostOp} (returns : (host.perform ids op).isSome = true) :
    host.Step ids op (host.apply ids op) := by
  obtain ⟨next, performs⟩ := Option.isSome_iff_exists.mp returns
  unfold Step apply
  rw [performs]
  rfl

/-- All PCI devices are DFL devices. -/
def dflIds : Nat → PciIds :=
  fun _ => ⟨pciVendorIdIntel, pcieDeviceIdIntelDfl⟩

/-- Adding a device goes through, up to what the misc core answers. -/
def addMeets (miscRegister : Option Errno) : AddAnswers :=
  ⟨none, none, true, miscRegister⟩

/-- Two devices are added and opened, and one of them deleted. -/
def addedAndDeleted : List HostOp :=
  [.addDev 3 (addMeets none), .addDev 4 (addMeets none),
    .addDev 3 (addMeets none), .file 0 (.openFile true), .delDev 3]

theorem added_and_deleted :
    Throughout DevListSound hostInit
      (pathOf (SvaHost.apply dflIds) hostInit addedAndDeleted) := by
  refine ((devList_sound_iff dflIds _ ?_).mpr ?_).1
  · apply isPath_of_enabledAlong fun _ _ => SvaHost.step_apply
    decide
  · apply stepsMeet_of_enabledAlong
    decide

/-- A device is listed whose file has not been registered. -/
theorem unregistered_device_listed :
    ∃ path, IsPath (SvaHost.Step dflIds) hostInit path ∧
      ¬ Throughout DevListSound hostInit path := by
  refine ⟨pathOf (SvaHost.apply dflIds) hostInit
    [.addDev 3 (addMeets (some .enomem))], ?_, ?_⟩
  · apply isPath_of_enabledAlong fun _ _ => SvaHost.step_apply
    decide
  · intro sound
    obtain ⟨-, cur, registered, -⟩ :=
      ((Throughout.final sound).exactly 3).mp (by decide)
    exact absurd registered List.not_mem_nil

end LinuxDfl.Sva

import LinuxDfl.Dfl.DeviceData
import LinuxDfl.Lib.Items

/-!
# Initialising the features of a device

A feature device is bound: its features are initialised by the drivers which
match them, and devices are added for those which no driver has taken.  If
anything fails, all of it is undone.
-/

namespace LinuxDfl.Dfl.SubFeature

open LinuxDfl.Kernel
open LinuxDfl.Lib.Traced
open LinuxDfl.Lib.Traced.Program
open LinuxDfl.Lib.Items

/-! ## Drivers -/

/-- The two registers of a GUID. -/
abbrev Guid := BitVec 64 × BitVec 64

/-- `dfl_guid_is_valid` -/
def dflGuidIsValid (guid : Guid) : Bool :=
  guid ≠ (0, 0) && guid ≠ (BitVec.allOnes 64, BitVec.allOnes 64)

/-- `struct dfl_feature_id` -/
structure DflFeatureId where
  id : Nat
  guid : Guid
  deriving DecidableEq, Repr

/-- Which callbacks `struct dfl_feature_ops` has. -/
structure DflFeatureOps where
  init : Bool
  uinit : Bool
  deriving DecidableEq, Repr

/-- `struct dfl_feature_driver`; an array of them ends before `ops` is missing. -/
structure DflFeatureDriver where
  idTable : List DflFeatureId
  ops : DflFeatureOps
  deriving DecidableEq, Repr

/-- `dfl_feature_drv_match` -/
def dflFeatureDrvMatch (feature : DflFeature) (driver : DflFeatureDriver) :
    Bool :=
  (driver.idTable.takeWhile fun ids => ids.id ≠ 0 || dflGuidIsValid ids.guid).any
    fun ids => dflGuidIsValid feature.guid && ids.guid == feature.guid ||
      ids.id == feature.id

/-! ## State -/

/-- `struct dfl_device` -/
structure DflDevice where
  type : DflIdType
  featureId : Nat
  revision : Nat
  dfhVersion : Nat
  params : List (BitVec 64)
  paramSize : Nat
  guid : Guid
  mmioRes : Resource
  irqs : List Int
  deriving DecidableEq, Repr

/-- What binding a device changes in `struct dfl_feature`. -/
structure Binding where
  ioaddr : Option Resource
  ops : Option DflFeatureOps
  ddev : Option DflDevice
  deriving DecidableEq, Repr

/-- What happens to a feature. -/
inductive Step where
  /-- Its driver has initialised it. -/
  | initialized (ops : DflFeatureOps)
  /-- The `uinit` of its driver is called. -/
  | uinit
  | added (ddev : DflDevice)
  | unregistered (ddev : DflDevice)
  deriving DecidableEq, Repr

variable (external : Nat → Option Errno) (fdata : DflFeatureDevData)

/-- The features of the device, with how many calls which may fail were made. -/
abbrev Features := Family fdata.features.length Binding Nat

abbrev Bind (Value : Type) :=
  ItemProgram fdata.features.length Binding Nat Step Errno Value

abbrev Index := Fin fdata.features.length

/-- A call which may fail. -/
def call : Bind fdata Unit := do
  let calls ← modifyRest (· + 1)
  match external calls with
  | none => pure ()
  | some ret => fail ret

/-- An allocation. -/
def alloc : Bind fdata Unit := do
  let calls ← modifyRest (· + 1)
  match external calls with
  | none => pure ()
  | some _ => fail .enomem

/-- An allocation, if there is anything to allocate. -/
def allocSome (size : Nat) : Bind fdata Unit :=
  if size ≠ 0 then alloc external fdata else pure ()

/-- The resources of the platform device. -/
def pdevResources : List Resource := fdata.resources.take fdata.resourceNum

/-! ## Devices -/

/-- The device which `dfl_dev_add` sets up for a feature. -/
def dflDevice (feature : DflFeature) : DflDevice where
  type := fdata.type
  featureId := feature.id
  revision := feature.revision
  dfhVersion := feature.dfhVersion
  params := if feature.paramSize ≠ 0 then feature.params else []
  paramSize := feature.paramSize
  guid := if feature.dfhVersion = 1 then feature.guid else (0, 0)
  mmioRes := (pdevResources fdata).getD feature.resourceIndex.toNat default
  irqs := feature.irqs

/-- `dfl_dev_add` -/
def dflDevAdd (i : Index fdata) : Bind fdata DflDevice := do
  let feature := fdata.features.get i
  alloc external fdata
  -- `ida_alloc` and `dev_set_name`
  call external fdata
  call external fdata
  allocSome external fdata feature.paramSize
  -- `insert_resource`
  call external fdata
  allocSome external fdata feature.irqs.length
  -- `device_add`
  call external fdata
  note i (.added (dflDevice fdata feature))
  pure (dflDevice fdata feature)

/-- What `dfl_devs_remove` does to a feature. -/
def removeDevice (i : Index fdata) : Bind fdata Unit := do
  let feature ← get i
  match feature.ddev with
  | some ddev => do
      note i (.unregistered ddev)
      modify i fun feature => { feature with ddev := none }
  | none => pure ()

/-- `dfl_devs_remove` -/
def dflDevsRemove : Bind fdata Unit := forAll (removeDevice fdata)

/-- What `dfl_devs_add` does to a feature. -/
def addDevice (i : Index fdata) : Bind fdata Unit := do
  let feature ← get i
  if feature.ioaddr.isSome then
    pure ()
  else if feature.ddev.isSome then
    fail .eexist
  else
    let ddev ← dflDevAdd external fdata i
    modify i fun feature => { feature with ddev := some ddev }

/-- `dfl_devs_add` -/
def dflDevsAdd : Bind fdata Unit :=
  onFailure (forAll (addDevice external fdata)) (dflDevsRemove fdata)

/-! ## Features -/

/-- What `dfl_fpga_dev_feature_uinit` does to a feature. -/
def uinitFeature (i : Index fdata) : Bind fdata Unit := do
  let feature ← get i
  match feature.ops with
  | some ops => do
      (if ops.uinit then note i .uinit else pure ())
      modify i fun feature => { feature with ops := none }
  | none => pure ()

/-- `dfl_fpga_dev_feature_uinit` -/
def dflFpgaDevFeatureUinit : Bind fdata Unit := do
  dflDevsRemove fdata
  forAll (uinitFeature fdata)

/-- `devm_platform_ioremap_resource` -/
def devmPlatformIoremapResource (index : Int) : Bind fdata Resource :=
  if index < 0 then
    fail .einval
  else
    match (pdevResources fdata)[index.toNat]? with
    | none => fail .einval
    | some resource => do
        call external fdata
        pure resource

/-- The registers of a feature are mapped, unless this has been done already. -/
def mapFeature (i : Index fdata) : Bind fdata Unit := do
  let feature := fdata.features.get i
  if isHeaderFeature feature.id then
    pure ()
  else
    let base ← devmPlatformIoremapResource external fdata feature.resourceIndex
    modify i fun feature => { feature with ioaddr := some base }

/-- `dfl_feature_instance_init` -/
def dflFeatureInstanceInit (drv : DflFeatureDriver) (i : Index fdata) :
    Bind fdata Unit := do
  mapFeature external fdata i
  (if drv.ops.init then call external fdata else pure ())
  modify i fun feature => { feature with ops := some drv.ops }
  note i (.initialized drv.ops)

/-- What `dfl_fpga_dev_feature_init` does to a feature, for a driver. -/
def initFeature (drv : DflFeatureDriver) (i : Index fdata) :
    Bind fdata Unit :=
  if dflFeatureDrvMatch (fdata.features.get i) drv then
    dflFeatureInstanceInit external fdata drv i
  else
    pure ()

/-- The loop of `dfl_fpga_dev_feature_init`. -/
def initFeatures : List DflFeatureDriver → Bind fdata Unit
  | [] => pure ()
  | drv :: drvs => do
      forAll (initFeature external fdata drv)
      initFeatures drvs

/-- `dfl_fpga_dev_feature_init` -/
def dflFpgaDevFeatureInit (featureDrvs : List DflFeatureDriver) :
    Bind fdata Unit :=
  onFailure
    (do
      initFeatures external fdata featureDrvs
      dflDevsAdd external fdata)
    (dflFpgaDevFeatureUinit fdata)

/-! ## What is to hold -/

/-- What has happened to a feature for which everything has been undone. -/
inductive Undone : List Step → Prop where
  | untouched : Undone []
  | uninitialized (ops : DflFeatureOps) :
      Undone (.initialized ops :: if ops.uinit then [.uinit] else [])
  | removed (ddev : DflDevice) : Undone [.added ddev, .unregistered ddev]

/-- Everything has been undone. -/
structure RolledBack (steps : List Step) (feature : Binding) : Prop where
  steps : Undone steps
  ops : feature.ops = none
  ddev : feature.ddev = none

variable {fdata}

/-- The driver is for this feature. -/
def Matches (i : Index fdata) (drv : DflFeatureDriver) : Prop :=
  dflFeatureDrvMatch (fdata.features.get i) drv = true

/-- A header, whose registers are mapped without a driver. -/
def IsHeader (i : Index fdata) : Prop :=
  isHeaderFeature (fdata.features.get i).id

/-- What a feature has once the device is bound. -/
inductive Served (featureDrvs : List DflFeatureDriver) (i : Index fdata) :
    List Step → Binding → Prop where
  | initialized {drv : DflFeatureDriver} {ioaddr : Option Resource}
      (member : drv ∈ featureDrvs) (isFor : Matches i drv) :
      Served featureDrvs i [.initialized drv.ops] ⟨ioaddr, some drv.ops, none⟩
  | device {ioaddr : Option Resource}
      (unmatched : ∀ drv ∈ featureDrvs, ¬ Matches i drv) :
      Served featureDrvs i [.added (dflDevice fdata (fdata.features.get i))]
        ⟨ioaddr, none, some (dflDevice fdata (fdata.features.get i))⟩
  | header {ioaddr : Option Resource} (isHeader : IsHeader i)
      (unmatched : ∀ drv ∈ featureDrvs, ¬ Matches i drv) :
      Served featureDrvs i [] ⟨ioaddr, none, none⟩

/-- No feature is matched by two drivers. -/
def MatchOnce (fdata : DflFeatureDevData)
    (featureDrvs : List DflFeatureDriver) : Prop :=
  featureDrvs.Pairwise fun drv other =>
    ∀ i : Index fdata, ¬ (Matches i drv ∧ Matches i other)

/-- Exactly the headers have been mapped by the enumeration. -/
def MapsHeaders (fdata : DflFeatureDevData) : Prop :=
  ∀ i : Index fdata,
    (fdata.features.get i).ioaddr.isSome = true ↔ IsHeader i

instance (fdata : DflFeatureDevData) : Decidable (MapsHeaders fdata) :=
  inferInstanceAs (Decidable (∀ i : Index fdata,
    (fdata.features.get i).ioaddr.isSome = true ↔
      isHeaderFeature (fdata.features.get i).id))

/-- The features as an enumeration, or an earlier binding, leaves them. -/
inductive Reachable (featureDrvs : List DflFeatureDriver) :
    Features fdata → Prop where
  | enumerated (calls : Nat) :
      Reachable featureDrvs
        ⟨fun i => ⟨(fdata.features.get i).ioaddr, none, none⟩, calls⟩
  | failed {state : Features fdata} {ret : Errno}
      (reachable : Reachable featureDrvs state)
      (fails : (dflFpgaDevFeatureInit external fdata featureDrvs state).result =
        .error ret) :
      Reachable featureDrvs
        (dflFpgaDevFeatureInit external fdata featureDrvs state).state
  | unbound {state : Features fdata}
      (reachable : Reachable featureDrvs state)
      (returns : (dflFpgaDevFeatureInit external fdata featureDrvs state).result =
        .ok ()) :
      Reachable featureDrvs
        (dflFpgaDevFeatureUinit fdata
          (dflFpgaDevFeatureInit external fdata featureDrvs state).state).state

/-! ## One feature -/

section Views

variable {external}

/-- Registers are mapped for headers, and are not where no driver needs them. -/
structure Mapped (featureDrvs : List DflFeatureDriver) (i : Index fdata)
    (feature : Binding) : Prop where
  header : IsHeader i → feature.ioaddr.isSome = true
  other : ¬ IsHeader i → (∀ drv ∈ featureDrvs, ¬ Matches i drv) →
    feature.ioaddr = none

variable (featureDrvs : List DflFeatureDriver) (i : Index fdata)

/-- Nothing has been done so far. -/
structure Fresh (steps : List Step) (feature : Binding) : Prop where
  steps : steps = []
  ops : feature.ops = none
  ddev : feature.ddev = none
  mapped : Mapped featureDrvs i feature

/-- A driver has initialised the feature. -/
structure Driven (drv : DflFeatureDriver) (steps : List Step)
    (feature : Binding) : Prop where
  steps : steps = [.initialized drv.ops]
  ops : feature.ops = some drv.ops
  ddev : feature.ddev = none
  ioaddr : feature.ioaddr.isSome = true
  member : drv ∈ featureDrvs
  isFor : Matches i drv

/-- The feature may be initialised by its driver. -/
structure Prepared (steps : List Step) (feature : Binding) : Prop where
  fresh : Fresh featureDrvs i steps feature
  ioaddr : feature.ioaddr.isSome = true

/-- A device has been added for the feature. -/
structure Bound (steps : List Step) (feature : Binding) : Prop where
  steps : steps = [.added (dflDevice fdata (fdata.features.get i))]
  ops : feature.ops = none
  ddev : feature.ddev = some (dflDevice fdata (fdata.features.get i))
  mapped : Mapped featureDrvs i feature

/-- The device has been removed again. -/
structure Removed (steps : List Step) (feature : Binding) : Prop where
  steps : ∃ ddev, steps = [.added ddev, .unregistered ddev]
  ops : feature.ops = none
  ddev : feature.ddev = none
  mapped : Mapped featureDrvs i feature

/-- A feature which has no device. -/
def WithoutDevice : View Binding Step := fun steps feature =>
  Fresh featureDrvs i steps feature ∨
    (∃ drv, Driven featureDrvs i drv steps feature) ∨
    Removed featureDrvs i steps feature

/-- A feature at any time. -/
def Underway : View Binding Step := fun steps feature =>
  WithoutDevice featureDrvs i steps feature ∨
    Bound featureDrvs i steps feature

/-- The feature when it is known to which of these drivers it belongs. -/
def Ready (tried : List DflFeatureDriver) : View Binding Step :=
  fun steps feature =>
    (∃ drv ∈ tried, Driven featureDrvs i drv steps feature) ∨
      (∀ drv ∈ tried, ¬ Matches i drv) ∧ Fresh featureDrvs i steps feature

/-- Nothing is left of what has been done. -/
def Released : View Binding Step := fun steps feature =>
  RolledBack steps feature ∧ Mapped featureDrvs i feature

variable {featureDrvs i}

theorem Driven.mapped {drv : DflFeatureDriver} {steps : List Step}
    {feature : Binding} (driven : Driven featureDrvs i drv steps feature) :
    Mapped featureDrvs i feature where
  header _ := driven.ioaddr
  other _ unmatched := absurd driven.isFor (unmatched drv driven.member)

/-! ## Calls -/

theorem keeps_call (view : View Binding Step) :
    ItemTriple i view (call external fdata) (fun _ => view) view := by
  refine ItemTriple.bind ItemTriple.modifyRest fun calls => ?_
  cases external calls with
  | none => exact ItemTriple.ret fun _ _ => id
  | some ret => exact ItemTriple.fail fun _ _ => id

theorem keeps_alloc (view : View Binding Step) :
    ItemTriple i view (alloc external fdata) (fun _ => view) view := by
  refine ItemTriple.bind ItemTriple.modifyRest fun calls => ?_
  cases external calls with
  | none => exact ItemTriple.ret fun _ _ => id
  | some ret => exact ItemTriple.fail fun _ _ => id

theorem keeps_allocSome (view : View Binding Step) (size : Nat) :
    ItemTriple i view (allocSome external fdata size) (fun _ => view)
      view := by
  unfold allocSome
  split
  · exact keeps_alloc view
  · exact ItemTriple.ret fun _ _ => id

/-! ## Devices -/

/-- The device is added last, so that there is none if this fails. -/
theorem dflDevAdd_adds (view : View Binding Step) :
    ItemTriple i view (dflDevAdd external fdata i)
      (fun ddev steps feature =>
        (∃ before, view before feature ∧ steps = before ++ [.added ddev]) ∧
          ddev = dflDevice fdata (fdata.features.get i))
      view := by
  refine (keeps_alloc view).bind fun _ => ?_
  refine (keeps_call view).bind fun _ => (keeps_call view).bind fun _ => ?_
  refine (keeps_allocSome view _).bind fun _ => ?_
  refine (keeps_call view).bind fun _ => ?_
  refine (keeps_allocSome view _).bind fun _ => ?_
  refine (keeps_call view).bind fun _ => ?_
  exact ItemTriple.noteBind (ItemTriple.ret fun _ _ now => ⟨now, rfl⟩)

theorem removeDevice_removes :
    ItemTriple i (Underway featureDrvs i) (removeDevice fdata i)
      (fun _ => WithoutDevice featureDrvs i) fun _ _ => False := by
  refine ItemTriple.get fun seen => ?_
  cases found : seen.ddev with
  | none =>
      refine ItemTriple.ret fun steps feature now => ?_
      obtain ⟨without | bound, rfl⟩ := now
      · exact without
      · exact absurd (bound.ddev.symm.trans found) nofun
  | some ddev =>
      refine ItemTriple.noteBind (ItemTriple.modify fun steps feature now => ?_)
      obtain ⟨before, ⟨now, rfl⟩, rfl⟩ := now
      rcases now with (fresh | ⟨drv, driven⟩ | removed) | bound
      · exact absurd (fresh.ddev.symm.trans found) nofun
      · exact absurd (driven.ddev.symm.trans found) nofun
      · exact absurd (removed.ddev.symm.trans found) nofun
      · have same := Option.some.inj (bound.ddev.symm.trans found)
        refine .inr (.inr ⟨⟨ddev, ?_⟩, bound.ops, rfl, ?_⟩)
        · rw [bound.steps, same]
          rfl
        · exact ⟨bound.mapped.header, bound.mapped.other⟩

/-! ## Features -/

/-- The driver has been called, if it wants this. -/
structure Uninitialized (featureDrvs : List DflFeatureDriver)
    (i : Index fdata) (ops : DflFeatureOps) (steps : List Step)
    (feature : Binding) : Prop where
  steps : steps = .initialized ops :: if ops.uinit then [.uinit] else []
  ddev : feature.ddev = none
  mapped : Mapped featureDrvs i feature

theorem WithoutDevice.driven {steps : List Step} {feature : Binding}
    {ops : DflFeatureOps} (without : WithoutDevice featureDrvs i steps feature)
    (found : feature.ops = some ops) :
    ∃ drv, drv.ops = ops ∧ Driven featureDrvs i drv steps feature := by
  rcases without with fresh | ⟨drv, driven⟩ | removed
  · exact absurd (fresh.ops.symm.trans found) nofun
  · exact ⟨drv, Option.some.inj (driven.ops.symm.trans found), driven⟩
  · exact absurd (removed.ops.symm.trans found) nofun

theorem uinit_called {ops : DflFeatureOps} {seen : Binding}
    (found : seen.ops = some ops) :
    ItemTriple i
      (fun steps feature =>
        WithoutDevice featureDrvs i steps feature ∧ feature = seen)
      (if ops.uinit then note i .uinit else pure () : Bind fdata Unit)
      (fun _ => Uninitialized featureDrvs i ops) fun _ _ => False := by
  split
  · rename_i uinit
    refine ItemTriple.note fun steps feature now => ?_
    obtain ⟨without, rfl⟩ := now
    obtain ⟨drv, rfl, driven⟩ := without.driven found
    refine ⟨?_, driven.ddev, driven.mapped⟩
    rw [driven.steps, if_pos uinit]
    rfl
  · rename_i uinit
    refine ItemTriple.ret fun steps feature now => ?_
    obtain ⟨without, rfl⟩ := now
    obtain ⟨drv, rfl, driven⟩ := without.driven found
    refine ⟨?_, driven.ddev, driven.mapped⟩
    rw [driven.steps, if_neg uinit]

theorem uinitFeature_releases :
    ItemTriple i (WithoutDevice featureDrvs i) (uinitFeature fdata i)
      (fun _ => Released featureDrvs i) fun _ _ => False := by
  refine ItemTriple.get fun seen => ?_
  cases found : seen.ops with
  | none =>
      refine ItemTriple.ret fun steps feature now => ?_
      obtain ⟨fresh | ⟨drv, driven⟩ | removed, rfl⟩ := now
      · exact ⟨⟨fresh.steps ▸ .untouched, fresh.ops, fresh.ddev⟩, fresh.mapped⟩
      · exact absurd (driven.ops.symm.trans found) nofun
      · obtain ⟨ddev, isRemoved⟩ := removed.steps
        exact ⟨⟨isRemoved ▸ .removed ddev, removed.ops, removed.ddev⟩,
          removed.mapped⟩
  | some ops =>
      refine (uinit_called found).bind fun _ => ?_
      refine ItemTriple.modify fun steps feature now => ?_
      refine ⟨⟨?_, rfl, now.ddev⟩, now.mapped.header, now.mapped.other⟩
      rw [now.steps]
      exact .uninitialized ops

/-- Only registers which a driver needs are mapped. -/
theorem mapFeature_prepares {drv : DflFeatureDriver}
    (member : drv ∈ featureDrvs) (isFor : Matches i drv) :
    ItemTriple i (Fresh featureDrvs i) (mapFeature external fdata i)
      (fun _ => Prepared featureDrvs i) (Fresh featureDrvs i) := by
  unfold mapFeature
  dsimp only
  split
  · rename_i isHeader
    exact ItemTriple.ret fun steps feature fresh =>
      ⟨fresh, fresh.mapped.header isHeader⟩
  · have maps : ItemTriple i (Fresh featureDrvs i)
        (devmPlatformIoremapResource external fdata
          (fdata.features.get i).resourceIndex)
        (fun _ => Fresh featureDrvs i) (Fresh featureDrvs i) := by
      unfold devmPlatformIoremapResource
      split
      · exact ItemTriple.fail fun _ _ => id
      · split
        · exact ItemTriple.fail fun _ _ => id
        · exact (keeps_call _).bind fun _ => ItemTriple.ret fun _ _ => id
    refine maps.bind fun base => ItemTriple.modify fun steps feature fresh => ?_
    exact
      { fresh :=
          { steps := fresh.steps
            ops := fresh.ops
            ddev := fresh.ddev
            mapped :=
              { header := fun _ => rfl
                other := fun _ unmatched =>
                  absurd isFor (unmatched drv member) } }
        ioaddr := rfl }

theorem dflFeatureInstanceInit_initializes {drv : DflFeatureDriver}
    (member : drv ∈ featureDrvs) (isFor : Matches i drv) :
    ItemTriple i (Fresh featureDrvs i)
      (dflFeatureInstanceInit external fdata drv i)
      (fun _ => Driven featureDrvs i drv) (Fresh featureDrvs i) := by
  refine (mapFeature_prepares member isFor).bind fun _ => ?_
  have calls : ItemTriple i (Prepared featureDrvs i)
      (if drv.ops.init then call external fdata else pure ())
      (fun _ => Prepared featureDrvs i) (Fresh featureDrvs i) := by
    split
    · exact (keeps_call _).mono (fun _ _ => id) (fun _ _ _ => id)
        fun _ _ => Prepared.fresh
    · exact ItemTriple.ret fun _ _ => id
  refine calls.bind fun _ => ?_
  refine ItemTriple.modifyBind (ItemTriple.note fun steps feature now => ?_)
  obtain ⟨before, prepared, rfl⟩ := now
  exact
    { steps := by rw [prepared.fresh.steps]; rfl
      ops := rfl
      ddev := prepared.fresh.ddev
      ioaddr := prepared.ioaddr
      member := member
      isFor := isFor }

/-- Each driver takes the features which it matches. -/
theorem initFeature_ready {drv : DflFeatureDriver}
    {tried : List DflFeatureDriver} (member : drv ∈ featureDrvs)
    (once : ∀ other ∈ tried, ¬ (Matches i other ∧ Matches i drv)) :
    ItemTriple i (Ready featureDrvs i tried) (initFeature external fdata drv i)
      (fun _ => Ready featureDrvs i (tried ++ [drv]))
      (Underway featureDrvs i) := by
  unfold initFeature
  split
  · rename_i isFor
    have untried : ∀ other ∈ tried, ¬ Matches i other :=
      fun other inside matched => once other inside ⟨matched, isFor⟩
    refine (dflFeatureInstanceInit_initializes member isFor).mono ?_ ?_ ?_
    · intro steps feature ready
      rcases ready with ⟨other, inside, driven⟩ | ⟨-, fresh⟩
      · exact absurd driven.isFor (untried other inside)
      · exact fresh
    · intro _ steps feature driven
      exact .inl ⟨drv, List.mem_append_right _ (List.mem_singleton_self drv),
        driven⟩
    · exact fun steps feature fresh => .inl (.inl fresh)
  · rename_i unmatched
    refine ItemTriple.ret fun steps feature ready => ?_
    rcases ready with ⟨other, inside, driven⟩ | ⟨untried, fresh⟩
    · exact .inl ⟨other, List.mem_append_left _ inside, driven⟩
    · refine .inr ⟨fun other inside => ?_, fresh⟩
      rcases List.mem_append.mp inside with earlier | last
      · exact untried other earlier
      · rw [List.mem_singleton.mp last]
        exact unmatched

/-- The feature has what it is to have. -/
structure Complete (featureDrvs : List DflFeatureDriver) (i : Index fdata)
    (steps : List Step) (feature : Binding) : Prop where
  served : Served featureDrvs i steps feature
  underway : Underway featureDrvs i steps feature

theorem Driven.complete {drv : DflFeatureDriver} {steps : List Step}
    {feature : Binding} (driven : Driven featureDrvs i drv steps feature) :
    Complete featureDrvs i steps feature where
  served := by
    obtain ⟨ioaddr, ops, ddev⟩ := feature
    obtain ⟨rfl, rfl, rfl, -, member, isFor⟩ := driven
    exact .initialized member isFor
  underway := .inl (.inr (.inl ⟨drv, driven⟩))

theorem Fresh.complete {steps : List Step} {feature : Binding}
    (fresh : Fresh featureDrvs i steps feature)
    (unmatched : ∀ drv ∈ featureDrvs, ¬ Matches i drv)
    (mapped : feature.ioaddr.isSome = true) :
    Complete featureDrvs i steps feature where
  served := by
    have isHeader : IsHeader i := by
      by_contra other
      rw [fresh.mapped.other other unmatched] at mapped
      cases mapped
    obtain ⟨ioaddr, ops, ddev⟩ := feature
    obtain ⟨rfl, rfl, rfl, -⟩ := fresh
    exact .header isHeader unmatched
  underway := .inl (.inl fresh)

theorem Bound.complete {steps : List Step} {feature : Binding}
    (bound : Bound featureDrvs i steps feature)
    (unmatched : ∀ drv ∈ featureDrvs, ¬ Matches i drv) :
    Complete featureDrvs i steps feature where
  served := by
    obtain ⟨ioaddr, ops, ddev⟩ := feature
    obtain ⟨rfl, rfl, rfl, -⟩ := bound
    exact .device unmatched
  underway := .inr bound

theorem Ready.underway {tried : List DflFeatureDriver} {steps : List Step}
    {feature : Binding} (ready : Ready featureDrvs i tried steps feature) :
    Underway featureDrvs i steps feature := by
  rcases ready with ⟨drv, -, driven⟩ | ⟨-, fresh⟩
  · exact .inl (.inr (.inl ⟨drv, driven⟩))
  · exact .inl (.inl fresh)

/-- A device is added for a feature for which nothing has been mapped. -/
theorem addDevice_completes :
    ItemTriple i (Ready featureDrvs i featureDrvs) (addDevice external fdata i)
      (fun _ => Complete featureDrvs i) (Underway featureDrvs i) := by
  refine ItemTriple.get fun seen => ?_
  split
  · rename_i mapped
    refine ItemTriple.ret fun steps feature now => ?_
    obtain ⟨⟨drv, -, driven⟩ | ⟨unmatched, fresh⟩, rfl⟩ := now
    · exact driven.complete
    · exact fresh.complete unmatched mapped
  · rename_i unmapped
    split
    · exact ItemTriple.fail fun _ _ now => now.1.underway
    · have fresh : ∀ steps feature,
          Ready featureDrvs i featureDrvs steps feature ∧ feature = seen →
            Fresh featureDrvs i steps feature ∧
              ∀ drv ∈ featureDrvs, ¬ Matches i drv := by
        rintro steps feature ⟨⟨drv, -, driven⟩ | ⟨unmatched, fresh⟩, rfl⟩
        · exact absurd driven.ioaddr unmapped
        · exact ⟨fresh, unmatched⟩
      have adds : ItemTriple i (Fresh featureDrvs i)
          (dflDevAdd external fdata i)
          (fun ddev steps feature =>
            (∃ before, Fresh featureDrvs i before feature ∧
              steps = before ++ [.added ddev]) ∧
              ddev = dflDevice fdata (fdata.features.get i))
          (Underway featureDrvs i) :=
        (dflDevAdd_adds _).mono (fun _ _ => id) (fun _ _ _ => id)
          fun _ _ fresh => .inl (.inl fresh)
      refine ItemTriple.mono (ItemTriple.assume fun unmatched => ?_) fresh
        (fun _ _ _ => id) fun _ _ => id
      refine adds.bind fun ddev => ItemTriple.assume fun isDevice => ?_
      refine ItemTriple.modify fun steps feature now => ?_
      obtain ⟨before, fresh, rfl⟩ := now
      refine Bound.complete ?_ unmatched
      exact
        { steps := by rw [fresh.steps, isDevice]; rfl
          ops := fresh.ops
          ddev := by rw [isDevice]
          mapped := ⟨fresh.mapped.header, fresh.mapped.other⟩ }

/-! ## All features -/

theorem initFeatures_ready (tried drvs : List DflFeatureDriver)
    (once : MatchOnce fdata (tried ++ drvs)) (all : featureDrvs = tried ++ drvs) :
    Triple (Each fun i => Ready featureDrvs i tried)
      (initFeatures external fdata drvs)
      (fun _ => Each fun i => Ready featureDrvs i featureDrvs)
      (Each (Underway featureDrvs)) := by
  induction drvs generalizing tried with
  | nil =>
      rw [List.append_nil] at all
      rw [all]
      exact Triple.ret fun _ _ => id
  | cons drv rest ih =>
      have grouped : tried ++ drv :: rest = (tried ++ [drv]) ++ rest :=
        List.append_cons tried drv rest
      have member : drv ∈ featureDrvs := by
        rw [all]
        exact List.mem_append_right _ List.mem_cons_self
      have before (other : DflFeatureDriver) (inside : other ∈ tried)
          (i : Index fdata) : ¬ (Matches i other ∧ Matches i drv) :=
        (List.pairwise_append.mp once).2.2 other inside drv
          List.mem_cons_self i
      refine Triple.bind
        (forAll_rule
          (fun i => initFeature_ready member fun other inside =>
            before other inside i)
          (fun i _ _ => Ready.underway) fun i _ _ => Ready.underway) fun _ => ?_
      exact ih (tried ++ [drv]) (grouped ▸ once) (all.trans grouped)

theorem dflDevsRemove_removes
    {assertion : Assertion (Index fdata × Step) (Features fdata)} :
    Triple (Each (Underway featureDrvs)) (dflDevsRemove fdata)
      (fun _ => Each (WithoutDevice featureDrvs)) assertion :=
  forAll_total fun _ => removeDevice_removes

theorem dflFpgaDevFeatureUinit_releases
    {assertion : Assertion (Index fdata × Step) (Features fdata)} :
    Triple (Each (Underway featureDrvs)) (dflFpgaDevFeatureUinit fdata)
      (fun _ => Each (Released featureDrvs)) assertion :=
  Triple.bind dflDevsRemove_removes fun _ =>
    forAll_total fun _ => uinitFeature_releases

theorem dflDevsAdd_completes :
    Triple (Each fun i => Ready featureDrvs i featureDrvs)
      (dflDevsAdd external fdata) (fun _ => Each (Complete featureDrvs))
      (Each (Underway featureDrvs)) := by
  refine Triple.onFailure
    (forAll_rule (fun _ => addDevice_completes) (fun _ _ _ => Ready.underway)
      fun _ _ _ => Complete.underway) ?_
  exact dflDevsRemove_removes.mono (fun _ _ => id)
    (fun _ _ _ each => each.mono fun _ _ _ => Or.inl) fun _ _ => id

theorem dflFpgaDevFeatureInit_completes (once : MatchOnce fdata featureDrvs) :
    Triple (Each (Fresh featureDrvs))
      (dflFpgaDevFeatureInit external fdata featureDrvs)
      (fun _ => Each (Complete featureDrvs)) (Each (Released featureDrvs)) := by
  refine Triple.onFailure (Triple.of_pre
    (Triple.bind (initFeatures_ready [] featureDrvs once rfl) fun _ =>
      dflDevsAdd_completes) ?_) dflFpgaDevFeatureUinit_releases
  exact fun _ _ each => each.mono fun _ _ _ fresh =>
    .inr ⟨fun _ member => absurd member List.not_mem_nil, fresh⟩

end Views

/-! ## All bindings -/

section Bindings

variable {external} {featureDrvs : List DflFeatureDriver}

/-- Nothing is left of earlier bindings. -/
def Idle (featureDrvs : List DflFeatureDriver) (state : Features fdata) :
    Prop :=
  ∀ i, Fresh featureDrvs i [] (state.item i)

theorem Released.idle {past : List (Index fdata × Step)}
    {state : Features fdata} (released : Each (Released featureDrvs) past state) :
    Idle featureDrvs state := fun i =>
  { steps := rfl
    ops := (released i).1.ops
    ddev := (released i).1.ddev
    mapped := (released i).2 }

/-- A binding which fails is undone. -/
theorem Idle.failed {state : Features fdata} (idle : Idle featureDrvs state)
    (once : MatchOnce fdata featureDrvs) {ret : Errno}
    (fails : (dflFpgaDevFeatureInit external fdata featureDrvs state).result =
      .error ret) :
    Each (Released featureDrvs)
      (dflFpgaDevFeatureInit external fdata featureDrvs state).events
      (dflFpgaDevFeatureInit external fdata featureDrvs state).state := by
  have completes : Triple _ (dflFpgaDevFeatureInit external fdata featureDrvs)
      _ _ := dflFpgaDevFeatureInit_completes once
  have runs := completes [] state idle
  rw [fails] at runs
  exact runs

theorem Idle.bound {state : Features fdata} (idle : Idle featureDrvs state)
    (once : MatchOnce fdata featureDrvs)
    (returns : (dflFpgaDevFeatureInit external fdata featureDrvs state).result =
      .ok ()) :
    Each (Complete featureDrvs)
      (dflFpgaDevFeatureInit external fdata featureDrvs state).events
      (dflFpgaDevFeatureInit external fdata featureDrvs state).state :=
  (dflFpgaDevFeatureInit_completes once).run idle returns

/-- The end of a binding undoes it. -/
theorem Idle.unbound {state : Features fdata} (idle : Idle featureDrvs state)
    (once : MatchOnce fdata featureDrvs)
    (returns : (dflFpgaDevFeatureInit external fdata featureDrvs state).result =
      .ok ()) :
    Idle featureDrvs
      (dflFpgaDevFeatureUinit fdata
        (dflFpgaDevFeatureInit external fdata featureDrvs state).state).state := by
  have releases : Triple (Each (Underway featureDrvs))
      (dflFpgaDevFeatureUinit fdata) (fun _ => Each (Released featureDrvs))
      (Each (Released featureDrvs)) := dflFpgaDevFeatureUinit_releases
  have runs := releases _ _
    ((idle.bound once returns).mono fun _ _ _ => Complete.underway)
  split at runs
  · exact Released.idle runs
  · exact Released.idle runs

theorem Reachable.idle (headers : MapsHeaders fdata)
    (once : MatchOnce fdata featureDrvs) {state : Features fdata}
    (reachable : Reachable external featureDrvs state) :
    Idle featureDrvs state := by
  induction reachable with
  | enumerated calls =>
      refine fun i => ⟨rfl, rfl, rfl, (headers i).mpr, fun other _ => ?_⟩
      exact Option.not_isSome_iff_eq_none.mp (mt (headers i).mp other)
  | failed _ fails ih => exact Released.idle (ih.failed once fails)
  | unbound _ returns ih => exact ih.unbound once returns

/-- The header of a device, and a feature for which there is no driver. -/
def headerAndOther : DflFeatureDevData where
  type := .fme
  num := 2
  features :=
    [⟨featureIdFiuHeader, 0, -1, some ⟨0x1000, 0x1fff⟩, [], 0, 0, [], (0, 0)⟩,
      ⟨0x42, 0, 0, none, [], 0, 0, [], (0, 0)⟩]
  resourceNum := 1
  resources := [⟨0x2000, 0x2fff⟩, default]

/-- A driver for headers. -/
def headerDriver : DflFeatureDriver where
  idTable := [⟨featureIdFiuHeader, (0, 0)⟩]
  ops := ⟨true, true⟩

/-- A device whose only feature is its header. -/
def headerOnly : DflFeatureDevData where
  type := .privFeat
  num := 1
  features := [⟨featureIdFiuHeader, 0, -1, some ⟨0x1000, 0x1fff⟩, [], 0, 0, [],
    (0, 0)⟩]
  resourceNum := 0
  resources := [default]

end Bindings

/-! ## Enumerated devices -/

theorem filledFeatures_headers (platform : Platform)
    (finfos : List DflFeatureInfo) (resIdx : Nat) :
    ∀ feature ∈ filledFeatures platform resIdx finfos,
      feature.ioaddr.isSome = true ↔ isHeaderFeature feature.id := by
  induction finfos generalizing resIdx with
  | nil => exact fun _ member => absurd member List.not_mem_nil
  | cons finfo rest ih =>
      intro feature member
      rcases List.mem_cons.mp member with rfl | later
      · by_cases header : isHeaderFeature finfo.fid <;>
          simp [fillFeature, header]
      · exact ih _ feature later

/-- The data of every device which an enumeration commits is as it must be. -/
theorem enumerate_mapsHeaders (platform : Platform) (nrIrqs : Nat)
    (dfls : List DflFpgaEnumDfl) :
    ∀ entry ∈ (devicesOf
        (dflFpgaFeatureDevsEnumerate platform nrIrqs dfls).events).done,
      MapsHeaders entry.2 := by
  intro entry member i
  obtain ⟨binfo, -, data⟩ := enumerate_commits platform nrIrqs dfls entry member
  have inside : entry.2.features.get i ∈ entry.2.features := List.get_mem _ i
  have features : entry.2.features =
      filledFeatures platform 0 binfo.subFeatures ++
        List.replicate (binfo.featureNum - binfo.subFeatures.length)
          zeroFeature := by
    rw [data]
    rfl
  rw [IsHeader]
  generalize entry.2.features.get i = feature at inside ⊢
  rw [features] at inside
  rcases List.mem_append.mp inside with filled | unused
  · exact filledFeatures_headers platform _ 0 feature filled
  · rw [List.eq_of_mem_replicate unused]
    decide

end LinuxDfl.Dfl.SubFeature

import LinuxDfl.Dfl.Walk

/-!
# The data of committed devices

Which features the data of a device must describe, and when it does: the
counter of features is only reset by an FIU.
-/

namespace LinuxDfl.Dfl

open LinuxDfl.Kernel
open LinuxDfl.Lib.Traced
open LinuxDfl.Lib.Traced.Program

variable {platform : Platform}

/-! ## Devices -/

/-- A device, with what has been accepted for it since it was started. -/
structure Device where
  /-- The header of its FIU, if it has one. -/
  fiu : Option Int
  /-- The counter of features when the device was started. -/
  featureNum : Nat
  /-- How many features had then been accepted since the FIU before it. -/
  sinceFiu : Nat
  accepted : List DflFeatureInfo

/-- The devices of an enumeration. -/
structure Devices where
  current : Device
  /-- The devices which have been committed, with their data. -/
  done : List (Device × DflFeatureDevData)
  /-- How many features have been accepted since the last FIU. -/
  sinceFiu : Nat

/-- What an event says of the devices. -/
def Devices.record (devices : Devices) : Event → Devices
  | .started fiu featureNum =>
      { devices with
        current := ⟨fiu, featureNum, devices.sinceFiu, []⟩
        sinceFiu := if fiu = none then devices.sinceFiu else 0 }
  | .accepted finfo _ =>
      { devices with
        current :=
          { devices.current with
            accepted := devices.current.accepted ++ [finfo] }
        sinceFiu := devices.sinceFiu + 1 }
  | .committed fdata =>
      { devices with done := devices.done ++ [(devices.current, fdata)] }
  | _ => devices

/-- The devices of which these events tell. -/
def devicesOf (events : List Event) : Devices :=
  events.foldl Devices.record ⟨⟨none, 0, 0, []⟩, [], 0⟩

@[simp]
theorem devicesOf_append_singleton (past : List Event) (event : Event) :
    devicesOf (past ++ [event]) = (devicesOf past).record event := by
  simp [devicesOf]

/-! ## What the data of a device must be -/

/-- The slot of the data describes the feature. -/
structure Describes (platform : Platform) (fdata : DflFeatureDevData)
    (finfo : DflFeatureInfo) (feature : DflFeature) : Prop where
  id : feature.id = finfo.fid
  revision : feature.revision = finfo.revision
  dfhVersion : feature.dfhVersion = finfo.dfhVersion
  guid : finfo.dfhVersion = 1 → feature.guid = finfo.guid
  paramSize : feature.paramSize = finfo.paramSize
  params : feature.params = finfo.params
  irqs : feature.irqs =
    (List.range finfo.nrIrqs).map fun i =>
      platform.irqTable (Word.add 32 finfo.irqBase i)
  header : isHeaderFeature finfo.fid →
    feature.resourceIndex = -1 ∧ feature.ioaddr = some finfo.mmioRes
  resource : ¬ isHeaderFeature finfo.fid →
    ∃ index : Nat, feature.resourceIndex = index ∧
      index < fdata.resourceNum ∧
      fdata.resources[index]? = some finfo.mmioRes

/-- The data describes exactly these features. -/
structure CommittedAs (platform : Platform) (accepted : List DflFeatureInfo)
    (fdata : DflFeatureDevData) : Prop where
  num : fdata.num = accepted.length
  features : List.Forall₂ (Describes platform fdata) accepted fdata.features
  resourceNum :
    fdata.resourceNum =
      accepted.countP fun finfo => ¬ isHeaderFeature finfo.fid

@[simp]
theorem filledResources_cons_header {finfo : DflFeatureInfo}
    (header : isHeaderFeature finfo.fid) (rest : List DflFeatureInfo) :
    filledResources (finfo :: rest) = filledResources rest := by
  simp [filledResources, header]

@[simp]
theorem filledResources_cons_other {finfo : DflFeatureInfo}
    (other : ¬ isHeaderFeature finfo.fid) (rest : List DflFeatureInfo) :
    filledResources (finfo :: rest) =
      finfo.mmioRes :: filledResources rest := by
  simp [filledResources, other]

/-- Filled features describe what they are filled from. -/
theorem filledFeatures_describe (platform : Platform)
    (fdata : DflFeatureDevData)
    (finfos : List DflFeatureInfo) (resIdx : Nat)
    (designated :
      ∀ index resource, (filledResources finfos)[index]? = some resource →
        resIdx + index < fdata.resourceNum ∧
          fdata.resources[resIdx + index]? = some resource) :
    List.Forall₂ (Describes platform fdata) finfos
      (filledFeatures platform resIdx finfos) := by
  induction finfos generalizing resIdx with
  | nil => exact .nil
  | cons finfo rest induction =>
      by_cases header : isHeaderFeature finfo.fid
      · rw [filledFeatures, if_pos header]
        rw [filledResources_cons_header header] at designated
        refine .cons ?_ (induction resIdx designated)
        exact
          { id := rfl
            revision := rfl
            dfhVersion := rfl
            guid := fun version => if_pos version
            paramSize := rfl
            params := rfl
            irqs := rfl
            header := fun _ => ⟨if_pos header, if_pos header⟩
            resource := fun other => absurd header other }
      · rw [filledFeatures, if_neg header]
        rw [filledResources_cons_other header] at designated
        refine .cons ?_ (induction (resIdx + 1) fun index resource found => ?_)
        · exact
            { id := rfl
              revision := rfl
              dfhVersion := rfl
              guid := fun version => if_pos version
              paramSize := rfl
              params := rfl
              irqs := rfl
              header := fun isHeader => absurd isHeader header
              resource := fun _ =>
                ⟨resIdx, if_neg header, designated 0 _ rfl⟩ }
        · have behind := designated (index + 1) resource
            (by rwa [List.getElem?_cons_succ])
          rwa [Nat.add_right_comm]

/--
The build information of a device: behind what was left from before, and with
the counter where it was, it has what has been accepted.
-/
structure Building (device : Device) (binfo : BuildFeatureDevsInfo) :
    Prop where
  features : ∃ leftover, binfo.subFeatures = leftover ++ device.accepted ∧
    leftover.length ≤ device.featureNum
  featureNum : binfo.featureNum = device.featureNum + device.accepted.length
  /-- An FIU resets the counter, a private feature leaves it where it is. -/
  started : device.featureNum = if device.fiu = none then device.sinceFiu else 0

/-- The counter is off where a private feature starts behind features. -/
theorem Building.featureNum_eq_zero_iff {device : Device}
    {binfo : BuildFeatureDevsInfo} (building : Building device binfo) :
    device.featureNum = 0 ↔ (device.fiu = none → device.sinceFiu = 0) := by
  rw [building.started]
  split
  · rename_i noFiu
    exact ⟨fun zero _ => zero, fun zero => zero noFiu⟩
  · rename_i fiu
    exact ⟨fun _ noFiu => absurd noFiu fiu, fun _ => rfl⟩

/-- Data is right exactly for devices which were started at zero. -/
theorem Building.committedAs_iff {device : Device}
    {binfo : BuildFeatureDevsInfo} (building : Building device binfo) :
    CommittedAs platform device.accepted (featureDevData platform binfo) ↔
      device.featureNum = 0 := by
  obtain ⟨leftover, isFeatures, stale⟩ := building.features
  constructor
  · intro committed
    have num : binfo.featureNum = device.accepted.length := committed.num
    have counter := building.featureNum
    omega
  · intro zero
    have noLeftover : leftover = [] :=
      List.eq_nil_of_length_eq_zero (Nat.le_zero.mp (zero ▸ stale))
    have accepted : binfo.subFeatures = device.accepted := by
      rw [isFeatures, noLeftover, List.nil_append]
    have counter : binfo.featureNum = device.accepted.length := by
      rw [building.featureNum, zero, Nat.zero_add]
    have noSlots :
        List.replicate (binfo.featureNum - binfo.subFeatures.length)
          zeroFeature = [] := by
      rw [accepted, counter, Nat.sub_self, List.replicate_zero]
    refine ⟨counter, ?_, ?_⟩
    · have described :=
        filledFeatures_describe platform (featureDevData platform binfo)
          binfo.subFeatures 0 fun index resource found => ?_
      · have features :
            (featureDevData platform binfo).features =
              filledFeatures platform 0 binfo.subFeatures := by
          simp [featureDevData, noSlots]
        rw [features, ← accepted]
        exact described
      · obtain ⟨inside, -⟩ := List.getElem?_eq_some_iff.mp found
        rw [Nat.zero_add]
        exact ⟨inside, by
          rw [featureDevData, List.getElem?_append_left inside, found]⟩
    · rw [featureDevData, accepted, filledResources, List.length_map,
        List.countP_eq_length_filter]

/-! ## Every device of an enumeration -/

/-- Data which was committed for a device which was built so. -/
def CommittedFrom (platform : Platform)
    (entry : Device × DflFeatureDevData) : Prop :=
  ∃ binfo, Building entry.1 binfo ∧ entry.2 = featureDevData platform binfo

/-- Every committed device was built so. -/
def AllCommitted (platform : Platform) (past : List Event) : Prop :=
  ∀ entry ∈ (devicesOf past).done, CommittedFrom platform entry

/-- What an enumeration keeps of the devices. -/
structure Counted (platform : Platform) (past : List Event)
    (state : Enumeration) : Prop where
  done : AllCommitted platform past
  building : state.binfo.type ≠ .max →
    Building (devicesOf past).current state.binfo
  counter : state.binfo.subFeatures.length ≤ state.binfo.featureNum
  sinceFiu : state.binfo.featureNum = (devicesOf past).sinceFiu

theorem Counted.of_binfo {past : List Event} {state next : Enumeration}
    (binfo : next.binfo = state.binfo) (counted : Counted platform past state) :
    Counted platform past next := by
  refine ⟨counted.done, ?_, ?_, ?_⟩
  · rw [binfo]
    exact counted.building
  · rw [binfo]
    exact counted.counter
  · rw [binfo]
    exact counted.sinceFiu

theorem accepts_counted (ofst : Nat) :
    Accepts (Counted platform) ofst := by
  intro past state finfo placement counted _
  have counter := counted.counter
  refine ⟨?_, fun detected => ?_, ?_, ?_⟩
  · rw [AllCommitted, devicesOf_append_singleton]
    exact counted.done
  · have building := counted.building detected
    obtain ⟨leftover, features, stale⟩ := building.features
    rw [devicesOf_append_singleton]
    refine ⟨⟨leftover, ?_, stale⟩, ?_, building.started⟩
    · simp [Enumeration.accept, Enumeration.withBinfo, Devices.record,
        features]
    · simp [Enumeration.accept, Enumeration.withBinfo, Devices.record,
        building.featureNum, Nat.add_assoc]
  · simpa [Enumeration.accept, Enumeration.withBinfo] using counter
  · rw [devicesOf_append_singleton]
    exact congrArg Nat.succ counted.sinceFiu

/-- The device which is being built is committed. -/
theorem Counted.commit {past : List Event} {before next : Enumeration}
    (counted : Counted platform past before)
    (detected : before.binfo.type ≠ .max)
    (undetected : next.binfo.type = .max)
    (cleared : next.binfo.subFeatures = [])
    (unchanged : next.binfo.featureNum = before.binfo.featureNum) :
    Counted platform
      (past ++ [.committed (featureDevData platform before.binfo)]) next := by
  refine ⟨?_, fun stillDetected => absurd undetected stillDetected, ?_, ?_⟩
  · intro entry member
    rw [devicesOf_append_singleton] at member
    rcases List.mem_append.mp member with earlier | latest
    · exact counted.done entry earlier
    · rw [List.mem_singleton.mp latest]
      exact ⟨before.binfo, counted.building detected, rfl⟩
  · rw [cleared]
    exact Nat.zero_le _
  · rw [devicesOf_append_singleton, unchanged]
    exact counted.sinceFiu

/-- A device is started with nothing in it. -/
theorem building_begun (fiu : Int) (sinceFiu : Nat)
    (binfo : BuildFeatureDevsInfo) (type : DflIdType) :
    Building ⟨some fiu, 0, sinceFiu, []⟩ (binfo.begun type) :=
  ⟨⟨[], rfl, Nat.le_refl 0⟩, rfl, rfl⟩

/-- Events which are not about devices say nothing of them. -/
theorem devicesOf_append_plain {event : Event} (plain : event.Plain)
    (past : List Event) : devicesOf (past ++ [event]) = devicesOf past := by
  rw [devicesOf_append_singleton]
  cases event <;> first | rfl | exact absurd plain id

/-- A walk keeps what is said of the devices. -/
theorem counted_walk (platform : Platform) (limit : Nat) :
    PlainWalk platform limit (Counted platform) (AllCommitted platform) where
  event past state event plain counted := by
    have same := devicesOf_append_plain plain past
    refine ⟨?_, ?_, counted.counter, ?_⟩
    · rw [AllCommitted, same]
      exact counted.done
    · rw [same]
      exact counted.building
    · rw [same]
      exact counted.sinceFiu
  state _ _ _ binfo counted := counted.of_binfo binfo
  accepts := accepts_counted
  commits past before next counted detected binfo :=
    counted.commit detected (by rw [binfo]; rfl) (by rw [binfo]; rfl)
      (by rw [binfo]; rfl)
  switches position _ past before next counted detected binfo :=
    counted.commit detected (by rw [binfo]; rfl) (by rw [binfo]; rfl)
      (by rw [binfo]; rfl)
  begins past state type counted := by
    refine ⟨?_, fun _ => ?_, Nat.le_refl 0, ?_⟩
    · rw [AllCommitted, devicesOf_append_singleton]
      exact counted.done
    · rw [devicesOf_append_singleton]
      exact building_begun _ _ _ _
    · rw [devicesOf_append_singleton]
      rfl
  privates past state counted := by
    split
    · refine ⟨?_, fun _ => ?_, counted.counter, ?_⟩
      · rw [AllCommitted, devicesOf_append_singleton]
        exact counted.done
      · rw [devicesOf_append_singleton]
        exact ⟨⟨state.binfo.subFeatures, (List.append_nil _).symm,
          counted.counter⟩, rfl, counted.sinceFiu⟩
      · rw [devicesOf_append_singleton]
        exact counted.sinceFiu
    · rename_i detected
      rw [List.append_nil]
      have building := counted.building detected
      exact ⟨counted.done, fun _ =>
        ⟨building.features, building.featureNum, building.started⟩,
        counted.counter, counted.sinceFiu⟩
  safe _ _ := Counted.done

/-- The part keeps what is said of the devices. -/
abbrev KeepsCounted (platform : Platform) (program : Build Unit) : Prop :=
  Triple (Counted platform) program (fun _ => Counted platform)
    fun past _ => AllCommitted platform past

theorem keepsCounted_parseFeatureList (start len : Nat) :
    KeepsCounted platform (parseFeatureList platform start len) := by
  have walk := counted_walk platform (Word.add 64 start len)
  refine Triple.bind (walk.ofFails
    (walk.stable.buildInfoPrepare_prepares ?_)) fun _ =>
      Triple.bind (walk.parseFeatureListLoop _ _) fun _ => walk.commitDetected
  intro past before next counted _ binfo
  refine ⟨counted.done, ?_, ?_, ?_⟩
  · rw [binfo]
    exact fun detected =>
      ⟨(counted.building detected).features,
        (counted.building detected).featureNum,
        (counted.building detected).started⟩
  · rw [binfo]
    exact counted.counter
  · rw [binfo]
    exact counted.sinceFiu

theorem keepsCounted_parseFeatureLists (dfls : List DflFpgaEnumDfl) :
    KeepsCounted platform (parseFeatureLists platform dfls) := by
  induction dfls with
  | nil => exact Triple.ret fun _ _ => id
  | cons dfl rest induction =>
      exact Triple.bind (keepsCounted_parseFeatureList _ _) fun _ => induction

theorem counted_initial (nrIrqs : Nat) :
    Counted platform [] (initialEnumeration nrIrqs) where
  done := fun _ member => absurd member List.not_mem_nil
  building := fun detected => absurd rfl detected
  counter := Nat.le_refl 0
  sinceFiu := rfl

/-- Every device which an enumeration commits was built from what it counts. -/
theorem enumerate_commits (platform : Platform) (nrIrqs : Nat)
    (dfls : List DflFpgaEnumDfl) :
    AllCommitted platform
      (dflFpgaFeatureDevsEnumerate platform nrIrqs dfls).events := by
  have walk := counted_walk platform 0
  have enumerates :
      KeepsCounted platform
        (do
          alloc platform
          call platform
          alloc platform
          parseFeatureLists platform dfls) :=
    Triple.bind (walk.ofFails walk.stable.keeps_alloc) fun _ =>
      Triple.bind (walk.ofFails walk.stable.keeps_call) fun _ =>
        Triple.bind (walk.ofFails walk.stable.keeps_alloc) fun _ =>
          keepsCounted_parseFeatureLists dfls
  have commits :=
    enumerates.mono (fun _ _ => id) (fun _ _ _ => Counted.done) fun _ _ => id
  exact commits.always (counted_initial nrIrqs)

/--
Every device which an enumeration commits describes the features accepted for
it, exactly if every one of them was started with the counter at zero; which
says of the lists that no private feature starts a device behind features
accepted since the last FIU.
-/
theorem enumerate_data_iff (platform : Platform) (nrIrqs : Nat)
    (dfls : List DflFpgaEnumDfl) :
    let devices :=
      (devicesOf (dflFpgaFeatureDevsEnumerate platform nrIrqs dfls).events).done
    ((∀ entry ∈ devices, CommittedAs platform entry.1.accepted entry.2) ↔
        ∀ entry ∈ devices, entry.1.featureNum = 0) ∧
      ((∀ entry ∈ devices, entry.1.featureNum = 0) ↔
        ∀ entry ∈ devices, entry.1.fiu = none → entry.1.sinceFiu = 0) := by
  intro devices
  have built : ∀ entry ∈ devices, CommittedFrom platform entry :=
    enumerate_commits platform nrIrqs dfls
  refine ⟨forall₂_congr fun entry member => ?_,
    forall₂_congr fun entry member => ?_⟩
  · obtain ⟨binfo, building, data⟩ := built entry member
    rw [data]
    exact building.committedAs_iff
  · obtain ⟨binfo, building, -⟩ := built entry member
    exact building.featureNum_eq_zero_iff

/-- Two lists, each with one private feature of version 1 at its start. -/
def twoPrivateFeatures : Platform where
  mmio address :=
    if address = 0x1000 ∨ address = 0x2000 then 0x3010010000000042 else 0
  external _ := none
  irqTable _ := 0
  nrIrqsMax := 0
  beyond := 0
  fuel := 1

def twoLists : List DflFpgaEnumDfl :=
  [⟨0x1000, 0x1000, by decide, by decide⟩,
    ⟨0x2000, 0x1000, by decide, by decide⟩]

/-- The feature of the first device is counted into the second. -/
theorem second_device_counts_first :
    let run := dflFpgaFeatureDevsEnumerate twoPrivateFeatures 0 twoLists
    run.result = .ok () ∧
      ¬ ∀ entry ∈ (devicesOf run.events).done,
          CommittedAs twoPrivateFeatures entry.1.accepted entry.2 := by
  refine ⟨by decide, fun described => ?_⟩
  have second :
      (devicesOf
          (dflFpgaFeatureDevsEnumerate twoPrivateFeatures 0
            twoLists).events).done[1]?.map
          (fun entry => (entry.1.accepted.length, entry.2.num)) =
        some (1, 2) := by decide
  obtain ⟨entry, found, counts⟩ := Option.map_eq_some_iff.mp second
  have num := (described entry (List.mem_of_getElem? found)).num
  obtain ⟨accepted, counted⟩ := Prod.mk.inj counts
  omega

end LinuxDfl.Dfl

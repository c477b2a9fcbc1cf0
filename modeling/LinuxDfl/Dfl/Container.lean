import LinuxDfl.Dfl.Walk

/-!
# The container device of an enumeration

An enumeration changes the container device only where it commits a device,
so that the container is what the trace says of it.
-/

namespace LinuxDfl.Dfl

open LinuxDfl.Kernel
open LinuxDfl.Lib.Traced
open LinuxDfl.Lib.Traced.Program

/-- What an event does to the container device. -/
def DflFpgaCdev.record (cdev : DflFpgaCdev) : Event → DflFpgaCdev
  | .committed fdata => cdev.add fdata.type fdata
  | _ => cdev

/-- The container device of which these events tell. -/
def cdevOf (events : List Event) : DflFpgaCdev :=
  events.foldl DflFpgaCdev.record ⟨[], [], none⟩

@[simp]
theorem cdevOf_append_singleton (past : List Event) (event : Event) :
    cdevOf (past ++ [event]) = (cdevOf past).record event := by
  rw [cdevOf, List.foldl_append]
  rfl

/-- The container device is what the trace makes of it. -/
def Tracks {Value : Type} (program : Build Value) : Prop :=
  ∀ state, (program state).state.cdev =
    (program state).events.foldl DflFpgaCdev.record state.cdev

/-! ## Rules -/

section Rules

variable {Value Next : Type}

theorem Tracks.ret (value : Value) : Tracks (pure value) := fun _ => rfl

theorem Tracks.fail (failure : Failure) :
    Tracks (fail failure : Build Value) := fun _ => rfl

theorem Tracks.read : Tracks (read : Build Enumeration) := fun _ => rfl

theorem Tracks.emit {event : Event}
    (quiet : ∀ cdev : DflFpgaCdev, cdev.record event = cdev) :
    Tracks (emit event) := fun state => (quiet state.cdev).symm

theorem Tracks.update {change : Enumeration → Enumeration}
    (same : ∀ state, (change state).cdev = state.cdev) :
    Tracks (update change) := fun state => same state

theorem Tracks.bind {program : Build Value} {rest : Value → Build Next}
    (first : Tracks program) (others : ∀ value, Tracks (rest value)) :
    Tracks (program >>= rest) := by
  intro state
  cases result : (program state).result with
  | error failure =>
      rw [bind_of_error result]
      exact first state
  | ok value =>
      rw [bind_of_ok result, List.foldl_append, ← first state]
      exact others value _

/-- The container device is what these events have made of an earlier one. -/
def Recorded (cdev : DflFpgaCdev) : BuildAssertion :=
  fun past state => state.cdev = past.foldl DflFpgaCdev.record cdev

theorem Tracks.keeps {program : Build Value} (tracks : Tracks program)
    (cdev : DflFpgaCdev) : Keeps (Recorded cdev) program := by
  intro past state recorded
  have now : Recorded cdev (past ++ (program state).events)
      (program state).state := by
    rw [Recorded, List.foldl_append, ← recorded]
    exact tracks state
  cases (program state).result with
  | error failure => exact now
  | ok value => exact now

theorem tracks_of_keeps {program : Build Value}
    (keeps : ∀ cdev, Keeps (Recorded cdev) program) : Tracks program := by
  intro state
  have now := keeps state.cdev [] state rfl
  cases result : (program state).result with
  | error failure =>
      rw [result] at now
      exact now
  | ok value =>
      rw [result] at now
      exact now

end Rules

/-! ## Calls and registers -/

section Parts

variable {platform : Platform}

theorem tracks_answer : Tracks (answer platform) := by
  refine Tracks.read.bind fun state => ?_
  exact Tracks.bind (Tracks.update fun _ => rfl) fun _ => Tracks.ret _

theorem tracks_call : Tracks (call platform) := by
  refine tracks_answer.bind fun ret => ?_
  cases ret with
  | none => exact Tracks.ret _
  | some ret => exact Tracks.fail _

theorem tracks_alloc : Tracks (alloc platform) := by
  refine tracks_answer.bind fun ret => ?_
  cases ret with
  | none => exact Tracks.ret _
  | some ret => exact Tracks.fail _

theorem tracks_allocSome (size : Nat) : Tracks (allocSome platform size) := by
  unfold allocSome
  split
  · exact tracks_alloc
  · exact Tracks.ret _

theorem tracks_readq (address : Int) : Tracks (readq platform address) :=
  (Tracks.emit fun _ => rfl).bind fun _ => Tracks.ret _

theorem tracks_featureSizeLoop (dfhIoaddr limit : Int) (fuel ofst : Nat) :
    Tracks (featureSizeLoop platform dfhIoaddr limit fuel ofst) := by
  induction fuel generalizing ofst with
  | zero => exact Tracks.fail _
  | succ fuel ih =>
      refine (tracks_readq _).bind fun value => ?_
      dsimp only
      split_ifs
      · exact Tracks.ret _
      · exact Tracks.ret _
      · exact ih _
      · exact Tracks.ret _

theorem tracks_featureSize (dfhIoaddr limit : Int) (value : BitVec 64) :
    Tracks (featureSize platform dfhIoaddr limit value) := by
  unfold featureSize
  dsimp only
  split_ifs
  · exact Tracks.ret _
  · exact Tracks.ret _
  · exact tracks_featureSizeLoop _ _ _ _

theorem tracks_dfhGetParamSizeLoop (dfhBase : Int) (max fuel : Nat)
    (size : Int) :
    Tracks (dfhGetParamSizeLoop platform dfhBase max fuel size) := by
  induction fuel generalizing size with
  | zero => exact Tracks.fail _
  | succ fuel ih =>
      unfold dfhGetParamSizeLoop
      split_ifs
      · refine (tracks_readq _).bind fun value => ?_
        dsimp only
        split_ifs
        · exact Tracks.ret _
        · exact Tracks.ret _
        · exact ih _
      · exact Tracks.ret _

theorem tracks_dfhGetParamSize (dfhBase : Int) (max : Nat) :
    Tracks (dfhGetParamSize platform dfhBase max) := by
  refine (tracks_readq _).bind fun value => ?_
  split_ifs
  · exact Tracks.ret _
  · exact tracks_dfhGetParamSizeLoop _ _ _ _

theorem tracks_featureIrqs (base : Int) (type : DflIdType)
    (finfo : DflFeatureInfo) :
    Tracks (featureIrqs platform base type finfo) := by
  unfold featureIrqs
  split_ifs
  · split
    · exact (tracks_readq _).bind fun _ => Tracks.ret _
    · exact Tracks.ret _
  · split <;> exact Tracks.ret _
  · exact Tracks.ret _

theorem tracks_parseFeatureIrqs (ofst : Nat) (finfo : DflFeatureInfo) :
    Tracks (parseFeatureIrqs platform ofst finfo) := by
  refine Tracks.read.bind fun state => ?_
  refine (tracks_featureIrqs _ _ _).bind fun irqs => ?_
  dsimp only
  split_ifs
  · exact Tracks.ret _
  · exact Tracks.fail _
  · exact Tracks.fail _
  · exact Tracks.ret _

theorem tracks_memcpyFromio (source : Int) (count : Nat) :
    Tracks (memcpyFromio platform source count) := by
  induction count generalizing source with
  | zero => exact Tracks.ret _
  | succ count ih =>
      refine (tracks_readq _).bind fun value => ?_
      exact (ih _).bind fun rest => Tracks.ret _

/-! ## Features -/

theorem tracks_readHeader (ofst size fid : Nat) :
    Tracks (readHeader platform ofst size fid) := by
  refine Tracks.read.bind fun state => ?_
  refine (tracks_readq _).bind fun value => ?_
  refine (Tracks.emit fun _ => rfl).bind fun _ => ?_
  refine (Tracks.emit fun _ => rfl).bind fun _ => ?_
  refine Tracks.bind ?_ fun size => ?_
  · split
    · exact Tracks.ret _
    · exact tracks_featureSize _ _ _
  · split
    · exact Tracks.fail _
    · refine Tracks.bind ?_ fun psize => ?_
      · split
        · exact tracks_dfhGetParamSize _ _
        · exact Tracks.ret _
      · split
        · exact Tracks.fail _
        · exact Tracks.ret _

theorem tracks_acceptFeature (ofst : Nat) (finfo : DflFeatureInfo)
    (placement : Placement) :
    Tracks (acceptFeature platform ofst finfo placement) :=
  (tracks_parseFeatureIrqs _ _).bind fun _ =>
    (Tracks.update fun _ => rfl).bind fun _ => Tracks.emit fun _ => rfl

theorem tracks_createFeatureInstance (ofst size fid : Nat) :
    Tracks (createFeatureInstance platform ofst size fid) := by
  refine Tracks.bind ?_ fun header => ?_
  · split
    · exact tracks_readHeader _ _ _
    · exact Tracks.ret _
  refine Tracks.read.bind fun state => ?_
  dsimp only
  split
  · exact Tracks.fail _
  · refine tracks_alloc.bind fun _ => ?_
    refine (tracks_memcpyFromio _ _).bind fun params => ?_
    split
    · refine (tracks_readq _).bind fun addr => ?_
      refine (tracks_readq _).bind fun sizeGrp => ?_
      split
      · exact Tracks.ret _
      · refine (tracks_readq _).bind fun low => ?_
        refine (tracks_readq _).bind fun high => ?_
        exact tracks_acceptFeature _ _ _
    · exact tracks_acceptFeature _ _ _

/-! ## Committing a device -/

theorem tracks_fillFeatures (resIdx : Nat) (finfos : List DflFeatureInfo) :
    Tracks (fillFeatures platform resIdx finfos) := by
  induction finfos generalizing resIdx with
  | nil => exact Tracks.ret _
  | cons finfo rest ih =>
      refine (tracks_allocSome _).bind fun _ => ?_
      refine Tracks.bind ?_ fun _ => ?_
      · split
        · exact tracks_call
        · exact Tracks.ret _
      · exact (tracks_allocSome _).bind fun _ =>
          (ih _).bind fun _ => Tracks.ret _

theorem tracks_binfoCreateFeatureDevData :
    Tracks (binfoCreateFeatureDevData platform) := by
  refine Tracks.read.bind fun state => ?_
  dsimp only
  split
  · exact Tracks.fail _
  · refine tracks_alloc.bind fun _ => tracks_alloc.bind fun _ => ?_
    refine tracks_alloc.bind fun _ => tracks_call.bind fun _ => ?_
    refine tracks_call.bind fun _ => ?_
    refine (tracks_fillFeatures _ _).bind fun filled => ?_
    exact Tracks.bind (Tracks.update fun _ => rfl) fun _ => Tracks.ret _

theorem tracks_featureDevRegister : Tracks (featureDevRegister platform) :=
  tracks_alloc.bind fun _ => tracks_call.bind fun _ =>
    tracks_call.bind fun _ => tracks_call

/-- A device of this type is being built. -/
def HasType (type : DflIdType) : BuildAssertion :=
  fun _ state => state.binfo.type = type

theorem hasType_stable (type : DflIdType) :
    Stable (fun _ => True) (HasType type) where
  event _ _ _ _ := id
  state _ _ _ binfo _ holds := by
    rw [HasType, binfo]
    exact holds

/-- The device has the type which is being built. -/
theorem binfoCreateFeatureDevData_type (type : DflIdType) :
    Triple (HasType type) (binfoCreateFeatureDevData platform)
      (fun fdata past state => HasType type past state ∧ fdata.type = type)
      fun _ _ => True := by
  refine Triple.mono (hasType_stable type).binfoCreateFeatureDevData_clears
    (fun _ _ => id) ?_ fun _ _ _ => trivial
  rintro fdata past state ⟨before, same, -, -, binfo, rfl⟩
  refine ⟨?_, same⟩
  rw [HasType, binfo]
  exact same

theorem tracks_buildInfoCommitDev : Tracks (buildInfoCommitDev platform) := by
  refine tracks_of_keeps fun cdev => Triple.atState fun seen => ?_
  have creates : Triple
      (fun past state => Recorded cdev past state ∧ state = seen)
      (binfoCreateFeatureDevData platform)
      (fun fdata past state =>
        (Recorded cdev past state ∧ HasType seen.binfo.type past state) ∧
          fdata.type = seen.binfo.type)
      (Recorded cdev) :=
    Triple.mono
      ((tracks_binfoCreateFeatureDevData.keeps cdev).and
        (binfoCreateFeatureDevData_type seen.binfo.type))
      (fun _ _ holds => ⟨holds.1, holds.2 ▸ (rfl : HasType _ [] seen)⟩)
      (fun _ _ _ holds => ⟨⟨holds.1, holds.2.1⟩, holds.2.2⟩)
      fun _ _ => And.left
  refine Triple.bind creates fun fdata => Triple.assume fun type => ?_
  have registers : Keeps (HasType seen.binfo.type)
      (featureDevRegister platform) :=
    (hasType_stable seen.binfo.type).keeps_featureDevRegister
  refine Triple.bind
    (((tracks_featureDevRegister.keeps cdev).and registers).of_fails
      fun _ _ => And.left) fun _ => ?_
  refine Triple.updateBind (Triple.updateBind (Triple.emit ?_))
  rintro past state ⟨_, ⟨before, ⟨recorded, building⟩, rfl⟩, rfl⟩
  rw [Recorded, List.foldl_append, ← recorded]
  change before.cdev.add before.binfo.type fdata = before.cdev.add fdata.type _
  rw [building, type]

/-! ## The walk -/

theorem tracks_buildInfoPrepare (start len : Nat) :
    Tracks (buildInfoPrepare platform start len) := by
  refine tracks_answer.bind fun ret => ?_
  cases ret with
  | some ret => exact Tracks.fail _
  | none => exact tracks_alloc.bind fun _ => Tracks.update fun _ => rfl

theorem tracks_parseFeatureAfu (ofst : Nat) :
    Tracks (parseFeatureAfu platform ofst) := by
  refine Tracks.read.bind fun state => ?_
  split
  · exact Tracks.fail _
  · refine Tracks.read.bind fun state => ?_
    exact (tracks_readq _).bind fun value =>
      tracks_createFeatureInstance _ _ _
  · exact Tracks.ret _

theorem tracks_switchFiu (ofst : Nat) : Tracks (switchFiu platform ofst) := by
  refine Tracks.read.bind fun state => ?_
  split
  · exact tracks_buildInfoCommitDev.bind fun _ => tracks_buildInfoPrepare _ _
  · exact Tracks.ret _

theorem tracks_parseFeatureFiu (ofst : Nat) :
    Tracks (parseFeatureFiu platform ofst) := by
  refine (tracks_switchFiu ofst).bind fun _ => ?_
  refine Tracks.read.bind fun state => ?_
  refine (tracks_readq _).bind fun value => ?_
  refine (Tracks.emit fun _ => rfl).bind fun _ => ?_
  dsimp only
  split
  · exact Tracks.fail _
  · refine Tracks.bind (Tracks.update fun _ => rfl) fun _ => ?_
    refine (Tracks.emit fun _ => rfl).bind fun _ => ?_
    refine (tracks_createFeatureInstance _ _ _).bind fun _ => ?_
    refine (tracks_readq _).bind fun value => ?_
    refine (Tracks.emit fun _ => rfl).bind fun _ => ?_
    split
    · exact tracks_parseFeatureAfu _
    · exact Tracks.ret _

theorem tracks_startPrivate (type : DflIdType) (featureNum : Nat) :
    Tracks (startPrivate type featureNum) := by
  refine Tracks.bind ?_ fun _ => Tracks.update fun _ => rfl
  split
  · exact Tracks.emit fun _ => rfl
  · exact Tracks.ret _

theorem tracks_parseFeaturePrivate (ofst : Nat) :
    Tracks (parseFeaturePrivate platform ofst) := by
  refine Tracks.read.bind fun state => ?_
  refine (tracks_readq _).bind fun value => ?_
  refine (Tracks.emit fun _ => rfl).bind fun _ => ?_
  refine (Tracks.emit fun _ => rfl).bind fun _ => ?_
  dsimp only
  split
  · exact (tracks_readq _).bind fun _ => Tracks.fail _
  · refine Tracks.bind ?_ fun _ => tracks_createFeatureInstance _ _ _
    split
    · exact tracks_startPrivate _ _
    · exact Tracks.ret _

theorem tracks_parseFeature (ofst : Nat) :
    Tracks (parseFeature platform ofst) := by
  refine Tracks.read.bind fun state => ?_
  refine (Tracks.emit fun _ => rfl).bind fun _ => ?_
  refine Tracks.bind (Tracks.update fun _ => rfl) fun _ => ?_
  refine (tracks_readq _).bind fun value => ?_
  dsimp only
  split_ifs
  · exact tracks_parseFeatureAfu _
  · exact tracks_parseFeaturePrivate _
  · exact tracks_parseFeatureFiu _
  · exact Tracks.ret _

theorem tracks_parseFeatureListLoop (limit fuel start : Nat) :
    Tracks (parseFeatureListLoop platform limit fuel start) := by
  induction fuel generalizing start with
  | zero => exact Tracks.fail _
  | succ fuel ih =>
      unfold parseFeatureListLoop
      split_ifs
      · exact Tracks.fail _
      · refine Tracks.read.bind fun before => ?_
        refine (tracks_parseFeature _).bind fun _ => ?_
        refine Tracks.read.bind fun state => ?_
        refine (tracks_readq _).bind fun value => ?_
        dsimp only
        split_ifs
        · exact Tracks.ret _
        · exact ih _
      · exact Tracks.ret _

theorem tracks_parseFeatureList (start len : Nat) :
    Tracks (parseFeatureList platform start len) := by
  refine (tracks_buildInfoPrepare _ _).bind fun _ => ?_
  refine (tracks_parseFeatureListLoop _ _ _).bind fun _ => ?_
  refine Tracks.read.bind fun state => ?_
  split
  · exact tracks_buildInfoCommitDev
  · exact Tracks.ret _

theorem tracks_parseFeatureLists (dfls : List DflFpgaEnumDfl) :
    Tracks (parseFeatureLists platform dfls) := by
  induction dfls with
  | nil => exact Tracks.ret _
  | cons dfl rest ih => exact (tracks_parseFeatureList _ _).bind fun _ => ih

/-- The container device holds the devices which have been committed. -/
theorem enumerate_cdev (platform : Platform) (nrIrqs : Nat)
    (dfls : List DflFpgaEnumDfl) :
    (dflFpgaFeatureDevsEnumerate platform nrIrqs dfls).state.cdev =
      cdevOf (dflFpgaFeatureDevsEnumerate platform nrIrqs dfls).events := by
  have tracks : Tracks (do
      alloc platform
      call platform
      alloc platform
      parseFeatureLists platform dfls : Build Unit) :=
    tracks_alloc.bind fun _ => tracks_call.bind fun _ =>
      tracks_alloc.bind fun _ => tracks_parseFeatureLists dfls
  exact tracks (initialEnumeration nrIrqs)

end Parts

end LinuxDfl.Dfl

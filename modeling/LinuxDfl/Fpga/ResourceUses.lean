import LinuxDfl.Fpga.Region
import LinuxDfl.Lib.Balance
import LinuxDfl.Lib.Traced

/-!
# What programming a region takes and gives back

The same functions as in the models of bridges and regions, with a record of
every lock and reference they take or give back.  Without the record they do
what those models say.
-/

namespace LinuxDfl.Fpga.Uses

open LinuxDfl.Kernel
open LinuxDfl.Lib.Balance
open LinuxDfl.Lib.Traced
open LinuxDfl.Lib.Traced.Program

/-- What is taken and given back while a region is programmed. -/
inductive Resource (Bridge : Type) where
  /-- The reference to the region which `fpga_region_class_find` takes. -/
  | foundRegion
  | regionMutex
  | regionDevice
  | regionModule
  | mgrRefMutex
  | bridgeMutex (bridge : Bridge)
  | bridgeDevice (bridge : Bridge)
  | bridgeModule (bridge : Bridge)
  deriving DecidableEq, Repr

abbrev Event (Bridge : Type) := Resource Bridge × Use

abbrev UseProgram (Bridge Hw Target Value : Type) :=
  Program (Event Bridge) Errno (Programming Bridge Hw Target) Value

variable {Bridge Hw Target : Type}

/-! ## Records -/

/-- The outcome of a function which returns an error number or zero. -/
def ofRet : Option Errno → Except Errno Unit
  | none => .ok ()
  | some ret => .error ret

/-- What is returned of a program which returns an error number or zero. -/
def retOf : Except Errno Unit → Option Errno
  | .ok () => none
  | .error ret => some ret

/-- The program without its record. -/
def unrecorded (program : UseProgram Bridge Hw Target Unit) :
    ProgramStep Bridge Hw Target :=
  fun state => (retOf (program state).result, (program state).state)

/-- A step which takes nothing and gives nothing back. -/
def quiet (step : ProgramStep Bridge Hw Target) :
    UseProgram Bridge Hw Target Unit :=
  fun state => ⟨[], ofRet (step state).1, (step state).2⟩

theorem unrecorded_bind
    (first second : UseProgram Bridge Hw Target Unit)
    (state : Programming Bridge Hw Target) :
    unrecorded (first >>= fun _ => second) state =
      andThen (unrecorded first state) (unrecorded second) := by
  cases result : (first state).result with
  | error ret =>
      rw [unrecorded, bind_of_error result]
      simp only [andThen, unrecorded, result, retOf]
  | ok value =>
      rw [unrecorded, bind_of_ok result]
      simp only [andThen, unrecorded, result, retOf]

@[simp]
theorem unrecorded_quiet (step : ProgramStep Bridge Hw Target) :
    unrecorded (quiet step) = step := by
  funext state
  show (retOf (ofRet (step state).1), (step state).2) = step state
  rcases step state with ⟨_ | ret, next⟩ <;> rfl

theorem andThen_assoc {State : Type} (result : Option Errno × State)
    (second third : State → Option Errno × State) :
    andThen (andThen result second) third =
      andThen result fun state => andThen (second state) third := by
  rcases result with ⟨_ | ret, state⟩ <;> rfl

/-- What an ended program leaves when a cleanup follows. -/
theorem unrecorded_ensure
    (program cleanup : UseProgram Bridge Hw Target Unit)
    (state : Programming Bridge Hw Target) :
    unrecorded (ensure program cleanup) state =
      ((unrecorded program state).1,
        (cleanup (unrecorded program state).2).state) := rfl

theorem unrecorded_onFailure
    (program cleanup : UseProgram Bridge Hw Target Unit)
    (state : Programming Bridge Hw Target) :
    unrecorded (onFailure program cleanup) state =
      ((unrecorded program state).1,
        if (unrecorded program state).1 = none then
          (unrecorded program state).2
        else (cleanup (unrecorded program state).2).state) := by
  cases result : (program state).result with
  | error ret =>
      simp only [unrecorded, onFailure, ensure, result, retOf,
        reduceCtorEq, if_false]
  | ok value => simp only [unrecorded, onFailure, result, retOf, if_true]

section Uses

variable [DecidableEq Bridge]

def onRegion (change : Holds → Holds) (state : Programming Bridge Hw Target) :
    Programming Bridge Hw Target :=
  { state with
    region := { state.region with held := change state.region.held } }

def onMgr (change : FpgaManager Hw → FpgaManager Hw)
    (state : Programming Bridge Hw Target) : Programming Bridge Hw Target :=
  { state with mgr := change state.mgr }

def onBridge (bridge : Bridge) (change : FpgaBridge → FpgaBridge)
    (state : Programming Bridge Hw Target) : Programming Bridge Hw Target :=
  { state with
    bridges :=
      Function.update state.bridges bridge (change (state.bridges bridge)) }

def onHolds (change : Holds → Holds) (bridge : FpgaBridge) : FpgaBridge :=
  { bridge with held := change bridge.held }

/-- What taking a resource does to its count. -/
def Resource.hold :
    Resource Bridge → Programming Bridge Hw Target →
      Programming Bridge Hw Target
  | .foundRegion => onRegion Holds.getDevice
  | .regionMutex => onRegion Holds.lock
  | .regionDevice => onRegion Holds.getDevice
  | .regionModule => onRegion Holds.getModule
  | .mgrRefMutex => onMgr fun mgr => { mgr with refMutex := mgr.refMutex + 1 }
  | .bridgeMutex bridge => onBridge bridge (onHolds Holds.lock)
  | .bridgeDevice bridge => onBridge bridge (onHolds Holds.getDevice)
  | .bridgeModule bridge => onBridge bridge (onHolds Holds.getModule)

/-- What giving a resource back does to its count. -/
def Resource.drop :
    Resource Bridge → Programming Bridge Hw Target →
      Programming Bridge Hw Target
  | .foundRegion => onRegion Holds.putDevice
  | .regionMutex => onRegion Holds.unlock
  | .regionDevice => onRegion Holds.putDevice
  | .regionModule => onRegion Holds.modulePut
  | .mgrRefMutex => onMgr fun mgr => { mgr with refMutex := mgr.refMutex - 1 }
  | .bridgeMutex bridge => onBridge bridge (onHolds Holds.unlock)
  | .bridgeDevice bridge => onBridge bridge (onHolds Holds.putDevice)
  | .bridgeModule bridge => onBridge bridge (onHolds Holds.modulePut)

@[simp]
theorem hold_bridgeList
    (resource : Resource Bridge) (state : Programming Bridge Hw Target) :
    (resource.hold state).region.bridgeList = state.region.bridgeList := by
  cases resource <;> rfl

@[simp]
theorem drop_bridgeList
    (resource : Resource Bridge) (state : Programming Bridge Hw Target) :
    (resource.drop state).region.bridgeList = state.region.bridgeList := by
  cases resource <;> rfl

def take (resource : Resource Bridge) : UseProgram Bridge Hw Target Unit := do
  emit (resource, .take)
  update resource.hold

def give (resource : Resource Bridge) : UseProgram Bridge Hw Target Unit := do
  emit (resource, .give)
  update resource.drop

/-! ## Bridges -/

/-- `__fpga_bridge_get`; the caller has a reference to the device. -/
def fpgaBridgeGetLocked (env : BridgeGetEnv) (bridge : Bridge) :
    UseProgram Bridge Hw Target Unit := do
  let state ← read
  update (onBridge bridge fun found =>
    { found with info := state.region.info })
  if !env.trylock then do
    give (.bridgeDevice bridge)
    fail .ebusy
  else do
    take (.bridgeMutex bridge)
    if !env.tryModuleGet then do
      give (.bridgeMutex bridge)
      give (.bridgeDevice bridge)
      fail .enodev
    else
      take (.bridgeModule bridge)

/-- `fpga_bridge_get` -/
def fpgaBridgeGet (env : BridgeGetEnv) (bridge : Bridge) :
    UseProgram Bridge Hw Target Unit :=
  if !env.find then
    fail .enodev
  else do
    take (.bridgeDevice bridge)
    fpgaBridgeGetLocked env bridge

/-- `fpga_bridge_put` -/
def fpgaBridgePut (bridge : Bridge) : UseProgram Bridge Hw Target Unit := do
  update (onBridge bridge fun held => { held with info := none })
  give (.bridgeModule bridge)
  give (.bridgeMutex bridge)
  give (.bridgeDevice bridge)

/-- Change `bridge_list` of the region. -/
def onBridgeList (change : List Bridge → List Bridge)
    (state : Programming Bridge Hw Target) : Programming Bridge Hw Target :=
  { state with
    region :=
      { state.region with bridgeList := change state.region.bridgeList } }

/-- `fpga_bridge_get_to_list` -/
def fpgaBridgeGetToList (env : BridgeGetEnv) (bridge : Bridge) :
    UseProgram Bridge Hw Target Unit := do
  fpgaBridgeGet env bridge
  update (onBridgeList (bridge :: ·))

/-- The loop of `fpga_bridges_put`; each bridge is then the first of the list. -/
def fpgaBridgesPutLoop : List Bridge → UseProgram Bridge Hw Target Unit
  | [] => pure ()
  | bridge :: rest => do
      fpgaBridgePut bridge
      update (onBridgeList List.tail)
      fpgaBridgesPutLoop rest

/-- `fpga_bridges_put`, on the bridges of the region -/
def fpgaBridgesPut : UseProgram Bridge Hw Target Unit := do
  let state ← read
  fpgaBridgesPutLoop state.region.bridgeList

/-! ## Regions -/

/-- What `get_bridges` of a region does with its bridges. -/
inductive BridgeAction (Bridge : Type) where
  | getToList (env : BridgeGetEnv) (bridge : Bridge)
  | putAll
  deriving DecidableEq, Repr

def BridgeAction.run :
    BridgeAction Bridge → UseProgram Bridge Hw Target Unit
  | .getToList env bridge => fpgaBridgeGetToList env bridge
  | .putAll => fpgaBridgesPut

/--
What a `get_bridges` operation does, and what it returns in the end.  It may
go on when a bridge cannot be had, and fail when all could.
-/
structure GetBridges (Bridge : Type) where
  actions : List (BridgeAction Bridge)
  ret : Option Errno
  deriving DecidableEq, Repr

def runActions :
    List (BridgeAction Bridge) → UseProgram Bridge Hw Target Unit
  | [] => pure ()
  | action :: rest => do
      let _ ← attempt action.run
      runActions rest

/-- Return an error number or zero. -/
def returnRet (ret : Option Errno) : UseProgram Bridge Hw Target Unit :=
  fun state => ⟨[], ofRet ret, state⟩

def GetBridges.run (getBridges : GetBridges Bridge) :
    UseProgram Bridge Hw Target Unit := do
  runActions getBridges.actions
  returnRet getBridges.ret

/-- What a kind of regions brings along for programming. -/
structure RegionSteps (Bridge Hw Target : Type) where
  getBridges : Option (GetBridges Bridge)
  /-- What `fpga_bridge_enable` and `fpga_bridge_disable` do to a bridge. -/
  enableSet : Bridge → Bool → Target → Option Errno × Target
  /-- `fpga_mgr_load` -/
  load :
    FpgaManager Hw → Option FpgaImageInfo →
      Option Errno × FpgaManager Hw × Option FpgaImageInfo

/-- The operations of the region, without the record. -/
def RegionSteps.ops (steps : RegionSteps Bridge Hw Target) :
    RegionOps Bridge Hw Target where
  getBridges := steps.getBridges.map fun getBridges =>
    unrecorded getBridges.run
  enableSet := steps.enableSet
  load := steps.load

/-- `fpga_region_get` -/
def fpgaRegionGet (env : RegionEnv) : UseProgram Bridge Hw Target Unit :=
  if !env.trylock then
    fail .ebusy
  else do
    take .regionMutex
    take .regionDevice
    if !env.tryModuleGet then do
      give .regionDevice
      give .regionMutex
      fail .enodev
    else
      take .regionModule

/-- `fpga_region_put` -/
def fpgaRegionPut : UseProgram Bridge Hw Target Unit := do
  give .regionModule
  give .regionDevice
  give .regionMutex

/-- `fpga_mgr_lock` -/
def fpgaMgrLock (trylock : Bool) : UseProgram Bridge Hw Target Unit :=
  if trylock then take .mgrRefMutex else fail .ebusy

/-- `fpga_mgr_unlock` -/
def fpgaMgrUnlock : UseProgram Bridge Hw Target Unit := give .mgrRefMutex

/-- `if (region->get_bridges) fpga_bridges_put(...)` -/
def putGotBridges (steps : RegionSteps Bridge Hw Target) :
    UseProgram Bridge Hw Target Unit :=
  if steps.getBridges.isSome then fpgaBridgesPut else pure ()

def getBridgesStep (steps : RegionSteps Bridge Hw Target) :
    UseProgram Bridge Hw Target Unit :=
  match steps.getBridges with
  | some getBridges => getBridges.run
  | none => pure ()

/-- The steps between collecting the bridges and unlocking the manager. -/
def programBridged (steps : RegionSteps Bridge Hw Target) :
    UseProgram Bridge Hw Target Unit := do
  quiet (steps.ops.setStep false)
  quiet steps.ops.loadStep
  quiet (steps.ops.setStep true)

/-- `fpga_region_program_fpga`, while the region and the manager are held -/
def programLocked (steps : RegionSteps Bridge Hw Target) :
    UseProgram Bridge Hw Target Unit := do
  getBridgesStep steps
  onFailure (programBridged steps) (putGotBridges steps)

/-- `fpga_region_program_fpga`, while the region is held -/
def programHeld (env : RegionEnv) (steps : RegionSteps Bridge Hw Target) :
    UseProgram Bridge Hw Target Unit := do
  fpgaMgrLock env.mgrTrylock
  ensure (programLocked steps) fpgaMgrUnlock

/-- `fpga_region_program_fpga` -/
def fpgaRegionProgramFpga
    (env : RegionEnv) (steps : RegionSteps Bridge Hw Target) :
    UseProgram Bridge Hw Target Unit := do
  fpgaRegionGet env
  ensure (programHeld env steps) fpgaRegionPut

/-! ## Without the record -/

theorem unrecorded_programBridged (steps : RegionSteps Bridge Hw Target) :
    unrecorded (programBridged steps) = Fpga.programBridged steps.ops := by
  funext state
  unfold programBridged Fpga.programBridged
  rw [unrecorded_bind, andThen_assoc, unrecorded_quiet]
  congr 1
  funext between
  rw [unrecorded_bind, unrecorded_quiet, unrecorded_quiet]

theorem unrecorded_fpgaRegionGet
    (env : RegionEnv) (state : Programming Bridge Hw Target) :
    unrecorded (fpgaRegionGet env) state =
      ((Fpga.fpgaRegionGet env state.region).1,
        { state with region := (Fpga.fpgaRegionGet env state.region).2 }) := by
  obtain ⟨trylock, tryModuleGet, mgrTrylock⟩ := env
  cases trylock <;> cases tryModuleGet <;> rfl

theorem fpgaRegionPut_state (state : Programming Bridge Hw Target) :
    (fpgaRegionPut state).state =
      { state with region := Fpga.fpgaRegionPut state.region } := rfl

theorem unrecorded_fpgaMgrLock
    (trylock : Bool) (state : Programming Bridge Hw Target) :
    unrecorded (fpgaMgrLock trylock) state =
      ((Fpga.fpgaMgrLock trylock state.mgr).1,
        { state with mgr := (Fpga.fpgaMgrLock trylock state.mgr).2 }) := by
  cases trylock <;> rfl

theorem fpgaMgrUnlock_state (state : Programming Bridge Hw Target) :
    (fpgaMgrUnlock state).state =
      { state with mgr := Fpga.fpgaMgrUnlock state.mgr } := rfl

theorem onBridge_onBridge (bridge : Bridge)
    (first second : FpgaBridge → FpgaBridge)
    (state : Programming Bridge Hw Target) :
    onBridge bridge second (onBridge bridge first state) =
      onBridge bridge (fun found => second (first found)) state := by
  simp only [onBridge, Function.update_self, Function.update_idem]

/-- Without the record, a bridge is got as modelled. -/
theorem unrecorded_fpgaBridgeGet (env : BridgeGetEnv) (bridge : Bridge)
    (state : Programming Bridge Hw Target) :
    unrecorded (fpgaBridgeGet env bridge) state =
      ((Fpga.fpgaBridgeGet env state.region.info (state.bridges bridge)).1,
        onBridge bridge
          (fun found =>
            (Fpga.fpgaBridgeGet env state.region.info found).2) state) := by
  obtain ⟨find, trylock, tryModuleGet⟩ := env
  cases find with
  | false =>
      show (some Errno.enodev, state) =
        (some Errno.enodev, onBridge bridge (fun found => found) state)
      rw [onBridge, Function.update_eq_self]
  | true =>
      cases trylock with
      | false =>
          show (some Errno.ebusy, onBridge _ _ (onBridge _ _
            (onBridge _ _ state))) = _
          rw [onBridge_onBridge, onBridge_onBridge]
          rfl
      | true =>
          cases tryModuleGet with
          | false =>
              show (some Errno.enodev, onBridge _ _ (onBridge _ _
                (onBridge _ _ (onBridge _ _ (onBridge _ _ state))))) = _
              simp only [onBridge_onBridge]
              rfl
          | true =>
              show (none, onBridge _ _ (onBridge _ _
                (onBridge _ _ (onBridge _ _ state)))) = _
              simp only [onBridge_onBridge]
              rfl

theorem fpgaBridgePut_run
    (bridge : Bridge) (state : Programming Bridge Hw Target) :
    (fpgaBridgePut bridge state).result = .ok () ∧
      (fpgaBridgePut bridge state).state =
        onBridge bridge Fpga.fpgaBridgePut state := by
  refine ⟨rfl, ?_⟩
  show onBridge _ _ (onBridge _ _ (onBridge _ _ (onBridge _ _ state))) = _
  simp only [onBridge_onBridge]
  rfl

theorem fpgaBridgesPutLoop_run
    (bridges : List Bridge) (state : Programming Bridge Hw Target)
    (onList : state.region.bridgeList = bridges) :
    (fpgaBridgesPutLoop bridges state).result = .ok () ∧
      (fpgaBridgesPutLoop bridges state).state =
        { state with
          bridges := Fpga.fpgaBridgesPut bridges state.bridges
          region := { state.region with bridgeList := [] } } := by
  induction bridges generalizing state with
  | nil =>
      obtain ⟨⟨held, info, bridgeList⟩, mgr, bridges, target⟩ := state
      cases onList
      exact ⟨rfl, rfl⟩
  | cons bridge rest ih =>
      obtain ⟨puts, leaves⟩ := fpgaBridgePut_run bridge state
      rw [fpgaBridgesPutLoop, bind_of_ok puts, leaves]
      have next := ih (onBridgeList List.tail
        (onBridge bridge Fpga.fpgaBridgePut state)) (by
          show state.region.bridgeList.tail = rest
          rw [onList]
          rfl)
      refine ⟨next.1, next.2.trans ?_⟩
      have updated :
          Function.update state.bridges bridge
              (Fpga.fpgaBridgePut (state.bridges bridge)) =
            fun other =>
              if other = bridge then Fpga.fpgaBridgePut (state.bridges bridge)
              else state.bridges other := by
        funext other
        rw [Function.update_apply]
      show Programming.mk _ _ (Fpga.fpgaBridgesPut rest
        (Function.update state.bridges bridge _)) _ = _
      rw [updated]
      rfl

theorem fpgaBridgesPut_run (state : Programming Bridge Hw Target) :
    (fpgaBridgesPut state).result = .ok () ∧
      (fpgaBridgesPut state).state = state.putBridges :=
  fpgaBridgesPutLoop_run state.region.bridgeList state rfl

theorem putGotBridges_state (steps : RegionSteps Bridge Hw Target)
    (state : Programming Bridge Hw Target) :
    (putGotBridges steps state).state =
      if steps.ops.getBridges.isSome then state.putBridges else state := by
  unfold putGotBridges RegionSteps.ops
  cases steps.getBridges with
  | none => rfl
  | some getBridges => exact (fpgaBridgesPut_run state).2

theorem unrecorded_getBridgesStep (steps : RegionSteps Bridge Hw Target) :
    unrecorded (getBridgesStep steps) = steps.ops.getBridgesStep := by
  unfold getBridgesStep RegionOps.getBridgesStep RegionSteps.ops
  cases steps.getBridges <;> rfl

/-- Without the record, `fpga_region_program_fpga` is the modelled one. -/
theorem unrecorded_fpgaRegionProgramFpga
    (env : RegionEnv) (steps : RegionSteps Bridge Hw Target) :
    unrecorded (fpgaRegionProgramFpga env steps) =
      Fpga.fpgaRegionProgramFpga env steps.ops := by
  funext state
  unfold fpgaRegionProgramFpga Fpga.fpgaRegionProgramFpga
  rw [unrecorded_bind, unrecorded_fpgaRegionGet]
  rcases Fpga.fpgaRegionGet env state.region with ⟨_ | ret, region⟩
  swap
  · rfl
  show unrecorded (ensure (programHeld env steps) fpgaRegionPut) _ = _
  rw [unrecorded_ensure, fpgaRegionPut_state]
  unfold programHeld
  rw [unrecorded_bind, unrecorded_fpgaMgrLock]
  rcases Fpga.fpgaMgrLock env.mgrTrylock state.mgr
    with ⟨_ | ret, mgr⟩
  swap
  · rfl
  simp only [andThen]
  rw [unrecorded_ensure, fpgaMgrUnlock_state]
  unfold programLocked
  rw [unrecorded_bind, unrecorded_getBridgesStep]
  rcases steps.ops.getBridgesStep { state with mgr := mgr, region := region }
    with ⟨_ | ret, collected⟩
  swap
  · rfl
  simp only [andThen]
  rw [unrecorded_onFailure, unrecorded_programBridged]
  rcases Fpga.programBridged steps.ops collected with ⟨_ | ret, programmed⟩
  · rfl
  · simp only [reduceCtorEq, if_false, putGotBridges_state]
    by_cases gets : steps.ops.getBridges.isSome <;>
      simp only [gets, if_true, if_false, Bool.false_eq_true] <;> rfl

end Uses

end LinuxDfl.Fpga.Uses

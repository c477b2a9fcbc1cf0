import LinuxDfl.Fpga.Bridge

/-!
# FPGA regions

Programming a region takes the region and its manager for itself, collects
the bridges, disables them, loads the image and enables the bridges again.
-/

namespace LinuxDfl.Fpga

open LinuxDfl.Kernel

/-- `struct fpga_region` -/
structure FpgaRegion (Bridge : Type) where
  held : Holds
  info : Option FpgaImageInfo
  bridgeList : List Bridge
  deriving DecidableEq, Repr

/-- What a request for a region and its manager meets. -/
structure RegionEnv where
  /-- `mutex_trylock` on the region -/
  trylock : Bool
  tryModuleGet : Bool
  /-- `mutex_trylock` on the manager -/
  mgrTrylock : Bool
  deriving DecidableEq, Repr

variable {Bridge Hw Target : Type}

/-- `fpga_region_get` -/
def fpgaRegionGet (env : RegionEnv) (region : FpgaRegion Bridge) :
    Option Errno × FpgaRegion Bridge :=
  if !env.trylock then
    (some .ebusy, region)
  else
    let held := region.held.lock.getDevice
    if !env.tryModuleGet then
      (some .enodev, { region with held := held.putDevice.unlock })
    else
      (none, { region with held := held.getModule })

@[simp]
theorem fpgaRegionGet_succeeds_iff
    (env : RegionEnv) (region : FpgaRegion Bridge) :
    (fpgaRegionGet env region).1 = none ↔
      env.trylock = true ∧ env.tryModuleGet = true := by
  obtain ⟨trylock, tryModuleGet, mgrTrylock⟩ := env
  cases trylock <;> cases tryModuleGet <;> simp [fpgaRegionGet]

@[simp]
theorem fpgaRegionGet_info (env : RegionEnv) (region : FpgaRegion Bridge) :
    (fpgaRegionGet env region).2.info = region.info := by
  obtain ⟨trylock, tryModuleGet, mgrTrylock⟩ := env
  cases trylock <;> cases tryModuleGet <;> rfl

@[simp]
theorem fpgaRegionGet_bridgeList
    (env : RegionEnv) (region : FpgaRegion Bridge) :
    (fpgaRegionGet env region).2.bridgeList = region.bridgeList := by
  obtain ⟨trylock, tryModuleGet, mgrTrylock⟩ := env
  cases trylock <;> cases tryModuleGet <;> rfl

/-- `fpga_region_put` -/
def fpgaRegionPut (region : FpgaRegion Bridge) : FpgaRegion Bridge :=
  { region with held := region.held.modulePut.putDevice.unlock }

/--
What `fpga_region_program_fpga` works on.  `target` is what the bridges
enable and disable.
-/
structure Programming (Bridge Hw Target : Type) where
  region : FpgaRegion Bridge
  mgr : FpgaManager Hw
  bridges : Bridge → FpgaBridge
  target : Target

/-- A step of the programming which may fail. -/
abbrev ProgramStep (Bridge Hw Target : Type) :=
  Programming Bridge Hw Target →
    Option Errno × Programming Bridge Hw Target

/-- What a kind of regions brings along for programming. -/
structure RegionOps (Bridge Hw Target : Type) where
  /-- `get_bridges` of the region -/
  getBridges : Option (ProgramStep Bridge Hw Target)
  /-- What `fpga_bridge_enable` and `fpga_bridge_disable` do to a bridge. -/
  enableSet : Bridge → Bool → Target → Option Errno × Target
  /-- `fpga_mgr_load` -/
  load :
    FpgaManager Hw → Option FpgaImageInfo →
      Option Errno × FpgaManager Hw × Option FpgaImageInfo

namespace RegionOps

variable (ops : RegionOps Bridge Hw Target)

def getBridgesStep : ProgramStep Bridge Hw Target :=
  match ops.getBridges with
  | some getBridges => getBridges
  | none => fun state => (none, state)

/-- `fpga_bridges_disable` and `fpga_bridges_enable` -/
def setStep (enable : Bool) : ProgramStep Bridge Hw Target := fun state =>
  let set :=
    fpgaBridgesSet ops.enableSet enable state.region.bridgeList state.target
  (set.1, { state with target := set.2 })

def loadStep : ProgramStep Bridge Hw Target := fun state =>
  let loaded := ops.load state.mgr state.region.info
  (loaded.1, { state with
    mgr := loaded.2.1, region := { state.region with info := loaded.2.2 } })

end RegionOps

namespace Programming

variable (state : Programming Bridge Hw Target)

/-- `fpga_mgr_unlock` and `fpga_region_put` -/
def release : Programming Bridge Hw Target :=
  { state with
    mgr := fpgaMgrUnlock state.mgr, region := fpgaRegionPut state.region }

/-- `fpga_bridges_put` on the bridges of the region -/
def putBridges [DecidableEq Bridge] : Programming Bridge Hw Target :=
  { state with
    bridges := fpgaBridgesPut state.region.bridgeList state.bridges
    region := { state.region with bridgeList := [] } }

end Programming

/-- The steps of the programming once the bridges are collected. -/
def programBridged
    (ops : RegionOps Bridge Hw Target) : ProgramStep Bridge Hw Target :=
  fun state =>
    andThen (andThen (ops.setStep false state) ops.loadStep)
      (ops.setStep true)

/-- `fpga_region_program_fpga` -/
def fpgaRegionProgramFpga [DecidableEq Bridge]
    (env : RegionEnv) (ops : RegionOps Bridge Hw Target) :
    ProgramStep Bridge Hw Target := fun state =>
  match fpgaRegionGet env state.region with
  | (some ret, region) => (some ret, { state with region := region })
  | (none, region) =>
      match fpgaMgrLock env.mgrTrylock state.mgr with
      | (some ret, mgr) =>
          (some ret,
            { state with mgr := mgr, region := fpgaRegionPut region })
      | (none, mgr) =>
          match ops.getBridgesStep
              { state with mgr := mgr, region := region } with
          | (some ret, state) => (some ret, state.release)
          | (none, state) =>
              match programBridged ops state with
              | (none, state) => (none, state.release)
              | (some ret, state) =>
                  if ops.getBridges.isSome then
                    (some ret, state.putBridges.release)
                  else
                    (some ret, state.release)

/-- Once everything is collected, the outcome is that of the programming. -/
theorem fpgaRegionProgramFpga_of_collected [DecidableEq Bridge]
    {env : RegionEnv} {ops : RegionOps Bridge Hw Target}
    {state ready : Programming Bridge Hw Target}
    {region : FpgaRegion Bridge} {mgr : FpgaManager Hw}
    (gotRegion : fpgaRegionGet env state.region = (none, region))
    (lockedMgr : fpgaMgrLock env.mgrTrylock state.mgr = (none, mgr))
    (collected :
      ops.getBridgesStep { state with mgr := mgr, region := region } =
        (none, ready)) :
    (fpgaRegionProgramFpga env ops state).1 =
        (programBridged ops ready).1 ∧
      (fpgaRegionProgramFpga env ops state).2.target =
        (programBridged ops ready).2.target := by
  simp only [fpgaRegionProgramFpga, gotRegion, lockedMgr, collected]
  rcases programBridged ops ready with ⟨_ | ret, done⟩
  · exact ⟨rfl, rfl⟩
  · cases ops.getBridges <;> exact ⟨rfl, rfl⟩

end LinuxDfl.Fpga

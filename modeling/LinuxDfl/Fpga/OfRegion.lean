import LinuxDfl.Fpga.Region
import Mathlib.Logic.Function.Basic

/-!
# Regions of the device tree

A device tree overlay which is applied to a region may ask for the region to
be programmed.  The notification before the overlay is applied parses it,
collects the bridges and programs the region; the notification after it is
removed gives everything back.
-/

namespace LinuxDfl.Fpga.OfRegion

open LinuxDfl.Kernel

/-! ## Data -/

/-- What the properties of an overlay say; `none` for one which is missing. -/
structure Overlay (Node : Type) where
  /-- `firmware-name` of every `fpga-region` which the overlay adds -/
  childRegions : List (Option String)
  partialFpgaConfig : Bool
  externalFpgaConfig : Bool
  encryptedFpgaConfig : Bool
  firmwareName : Option String
  regionUnfreezeTimeoutUs : Option (BitVec 32)
  regionFreezeTimeoutUs : Option (BitVec 32)
  configCompleteTimeoutUs : Option (BitVec 32)
  /-- `fpga-bridges`, by the nodes it refers to -/
  fpgaBridges : List Node
  deriving DecidableEq, Repr

/-- The overlay directs the region to program an image. -/
def Overlay.hasImage {Node : Type} (overlay : Overlay Node) : Bool :=
  overlay.firmwareName.isSome

/-- `struct fpga_image_info`, as an overlay fills it in. -/
structure OverlayInfo (Node : Type) where
  info : FpgaImageInfo
  overlay : Overlay Node
  /-- `FPGA_MGR_EXTERNAL_CONFIG` is set in `flags`. -/
  externalConfig : Bool
  /-- `FPGA_MGR_ENCRYPTED_BITSTREAM` is set in `flags`. -/
  encryptedBitstream : Bool
  firmwareName : Option String
  enableTimeoutUs : BitVec 32
  disableTimeoutUs : BitVec 32
  configCompleteTimeoutUs : BitVec 32

/-- The part of the live tree which a region looks at. -/
structure Site (Node : Type) where
  parent : Node
  fpgaBridges : List Node

/-- What the requests for the bridges meet, each time one is asked for. -/
structure BridgesEnv where
  parent : BridgeGetEnv
  listed : Nat → BridgeGetEnv

/-- What a notification before an overlay is applied meets. -/
structure PreApplyEnv (Node Hw Target : Type) where
  /-- `devm_kzalloc` of `fpga_image_info_alloc` -/
  alloc : Bool
  /-- `devm_kstrdup` -/
  kstrdup : Bool
  region : RegionEnv
  bridges : BridgesEnv
  enableSet : Node → Bool → Target → Option Errno × Target
  /-- `fpga_mgr_load` -/
  load :
    FpgaManager Hw → FpgaImageInfo →
      Option Errno × FpgaManager Hw × FpgaImageInfo

/--
An overlay which was accepted and is not removed.  The bridges are those
which were collected for it.
-/
structure Applied (Node : Type) where
  overlay : Overlay Node
  bridges : List Node
  deriving DecidableEq, Repr

/-- A region, the image infos allocated for it, and the overlays applied. -/
structure State (Node Hw Target : Type) where
  programming : Programming Node Hw Target
  /-- How many image infos have been allocated; they are numbered. -/
  allocs : Nat
  /-- The image infos which have been freed. -/
  frees : List Nat
  applied : List (Applied Node)

variable {Node Hw Target : Type}

/-- `region->info` -/
def State.info (state : State Node Hw Target) : Option FpgaImageInfo :=
  state.programming.region.info

def withInfo (state : Programming Node Hw Target)
    (info : Option FpgaImageInfo) : Programming Node Hw Target :=
  { state with region := { state.region with info := info } }

/-! ## Image infos -/

/-- `fpga_image_info_alloc` -/
def fpgaImageInfoAlloc (alloc : Bool) (state : State Node Hw Target) :
    Option Nat × State Node Hw Target :=
  let region := state.programming.region
  let programming := { state.programming with
    region := { region with held := region.held.getDevice } }
  if !alloc then
    (none, { state with programming := { programming with
      region := { region with held := region.held.getDevice.putDevice } } })
  else
    (some state.allocs,
      { state with programming := programming, allocs := state.allocs + 1 })

/-- `fpga_image_info_free` -/
def fpgaImageInfoFree (info : Option Nat) (state : State Node Hw Target) :
    State Node Hw Target :=
  match info with
  | none => state
  | some ident =>
      let region := state.programming.region
      { state with
        programming := { state.programming with
          region := { region with held := region.held.putDevice } }
        frees := ident :: state.frees }

/-- `child_regions_with_firmware` -/
def childRegionsWithFirmware (overlay : Overlay Node) : Option Errno :=
  if overlay.childRegions.any Option.isSome then some .einval else none

/-- What the properties of the overlay make of a new image info. -/
def readOverlay (ident : Nat) (overlay : Overlay Node) :
    OverlayInfo Node where
  info :=
    { ident := ident
      partialReconfig := overlay.partialFpgaConfig
      regionId := 0
      headerSize := 0
      dataSize := 0
      buf := [] }
  overlay := overlay
  externalConfig := overlay.externalFpgaConfig
  encryptedBitstream := overlay.encryptedFpgaConfig
  firmwareName := overlay.firmwareName
  enableTimeoutUs := overlay.regionUnfreezeTimeoutUs.getD 0
  disableTimeoutUs := overlay.regionFreezeTimeoutUs.getD 0
  configCompleteTimeoutUs := overlay.configCompleteTimeoutUs.getD 0

/--
`of_fpga_region_parse_ov`, which returns an error, `NULL` or an image info
-/
def ofFpgaRegionParseOv (overlay : Overlay Node) (alloc kstrdup : Bool)
    (state : State Node Hw Target) :
    Except Errno (Option (OverlayInfo Node)) × State Node Hw Target :=
  if state.info.isSome then (.error .einval, state)
  else
    match childRegionsWithFirmware overlay with
    | some ret => (.error ret, state)
    | none =>
        match fpgaImageInfoAlloc alloc state with
        | (none, state) => (.error .enomem, state)
        | (some ident, state) =>
            let info := readOverlay ident overlay
            if overlay.firmwareName.isSome && !kstrdup then
              (.error .enomem, state)
            else if info.firmwareName.isNone then
              (.ok none, fpgaImageInfoFree (some ident) state)
            else if info.externalConfig then
              (.error .einval, fpgaImageInfoFree (some ident) state)
            else
              (.ok (some info), state)

/-! ## Bridges -/

section Bridges

variable [DecidableEq Node]

/--
`of_fpga_bridge_get_to_list`.  A bridge which the region has already cannot
be locked once more.
-/
def ofFpgaBridgeGetToList (env : BridgeGetEnv) (np : Node) :
    ProgramStep Node Hw Target := fun state =>
  let bridge := state.bridges np
  let free := bridge.held.mutex = 0
  let got := fpgaBridgeGet { env with trylock := env.trylock && free }
    state.region.info bridge
  let state := { state with bridges := Function.update state.bridges np got.2 }
  match got.1 with
  | some ret => (some ret, state)
  | none =>
      (none, { state with region := { state.region with
        bridgeList := np :: state.region.bridgeList } })

/-- The loop of `of_fpga_region_get_bridges`. -/
def getListed (env : Nat → BridgeGetEnv) (parentBr : Option Node) :
    Nat → List Node → ProgramStep Node Hw Target
  | _, [], state => (none, state)
  | i, br :: rest, state =>
      if parentBr = some br then
        getListed env parentBr (i + 1) rest state
      else
        match ofFpgaBridgeGetToList (env i) br state with
        | (some .ebusy, state) => (some .ebusy, state.putBridges)
        | (_, state) => getListed env parentBr (i + 1) rest state

/-- The overlay's list of bridges, or else that of the region. -/
def Site.listFor (site : Site Node) (overlay : Overlay Node) : List Node :=
  if overlay.fpgaBridges.isEmpty then site.fpgaBridges
  else overlay.fpgaBridges

/-- `of_fpga_region_get_bridges` -/
def ofFpgaRegionGetBridges (site : Site Node) (overlay : Overlay Node)
    (env : BridgesEnv) : ProgramStep Node Hw Target := fun state =>
  match ofFpgaBridgeGetToList env.parent site.parent state with
  | (some .ebusy, state) => (some .ebusy, state)
  | (some _, state) =>
      getListed env.listed none 0 (site.listFor overlay) state
  | (none, state) =>
      getListed env.listed (some site.parent) 0 (site.listFor overlay) state

/-- Nobody else has the bridge, and its driver is there. -/
def grants (env : BridgeGetEnv) : Bool :=
  env.find && env.trylock && env.tryModuleGet

/-- The bridges in a list which can be had, without the parent. -/
def grantedFrom (env : Nat → BridgeGetEnv) (parentBr : Option Node)
    (i : Nat) (list : List Node) : List Node :=
  ((list.zipIdx i).filter fun entry =>
    parentBr ≠ some entry.1 && grants (env entry.2)).map Prod.fst

/-- What an overlay asks for: the parent and the bridges of the list. -/
def bridgesFor (site : Site Node) (overlay : Overlay Node)
    (env : BridgesEnv) : List Node :=
  let parentBr :=
    if grants env.parent then some site.parent else none
  parentBr.toList ++ grantedFrom env.listed parentBr 0 (site.listFor overlay)

/-! ## Notifications -/

/-- What programming an overlay runs through. -/
def overlayOps (site : Site Node) (overlay : Overlay Node)
    (env : PreApplyEnv Node Hw Target) : RegionOps Node Hw Target where
  getBridges := some (ofFpgaRegionGetBridges site overlay env.bridges)
  enableSet := env.enableSet
  load mgr
    | none => (some .einval, mgr, none)
    | some info =>
        let loaded := env.load mgr info
        -- the manager changes what the info says, not which one it is
        (loaded.1, loaded.2.1, some { loaded.2.2 with ident := info.ident })

/-- The end of `of_fpga_region_notify_pre_apply`: an error rejects. -/
def finishPreApply (ident : Nat) (state : State Node Hw Target) :
    Option Errno × Programming Node Hw Target →
      Option Errno × State Node Hw Target
  | (none, programming) => (none, { state with programming := programming })
  | (some ret, programming) =>
      let state :=
        fpgaImageInfoFree (some ident) { state with programming := programming }
      (some ret,
        { state with programming := withInfo state.programming none })

/-- `of_fpga_region_notify_pre_apply` -/
def ofFpgaRegionNotifyPreApply (site : Site Node) (overlay : Overlay Node)
    (env : PreApplyEnv Node Hw Target) (state : State Node Hw Target) :
    Option Errno × State Node Hw Target :=
  match ofFpgaRegionParseOv overlay env.alloc env.kstrdup state with
  | (.error ret, state) => (some ret, state)
  | (.ok none, state) => (none, state)
  | (.ok (some parsed), state) =>
      if state.info.isSome then (some .einval, state)
      else
        finishPreApply parsed.info.ident state
          (fpgaRegionProgramFpga env.region (overlayOps site parsed.overlay env)
            (withInfo state.programming (some parsed.info)))

/-- `of_fpga_region_notify_post_remove` -/
def ofFpgaRegionNotifyPostRemove
    (enableSet : Node → Bool → Target → Option Errno × Target)
    (state : State Node Hw Target) : State Node Hw Target :=
  let programming := state.programming
  let disabled :=
    fpgaBridgesSet enableSet false programming.region.bridgeList
      programming.target
  let programming := { programming with target := disabled.2 }
  let state := fpgaImageInfoFree (state.info.map FpgaImageInfo.ident)
    { state with programming := programming.putBridges }
  { state with programming := withInfo state.programming none }

inductive Notification (Node Hw Target : Type) where
  | preApply (overlay : Overlay Node) (env : PreApplyEnv Node Hw Target)
  | postRemove (removed : Applied Node)
      (enableSet : Node → Bool → Target → Option Errno × Target)

/-- An overlay which has just been accepted. -/
def Applied.of (site : Site Node) (overlay : Overlay Node)
    (env : BridgesEnv) : Applied Node where
  overlay := overlay
  bridges := if overlay.hasImage then bridgesFor site overlay env else []

/-- What a notification does, and which overlays are applied after it. -/
def notify (site : Site Node) (state : State Node Hw Target) :
    Notification Node Hw Target → State Node Hw Target
  | .preApply overlay env =>
      match ofFpgaRegionNotifyPreApply site overlay env state with
      | (some _, state) => state
      | (none, state) =>
          { state with
            applied := .of site overlay env.bridges :: state.applied }
  | .postRemove removed enableSet =>
      let state := ofFpgaRegionNotifyPostRemove enableSet state
      { state with applied := state.applied.erase removed }

/-- Only an overlay which is applied can be removed. -/
def Notification.possible (state : State Node Hw Target) :
    Notification Node Hw Target → Prop
  | .preApply _ _ => True
  | .postRemove removed _ => removed ∈ state.applied

/-- A notification of the region at `site`. -/
def Notified (site : Site Node) (state : State Node Hw Target)
    (notification : Notification Node Hw Target)
    (next : State Node Hw Target) : Prop :=
  notification.possible state ∧ notify site state notification = next

end Bridges

/-- A region which has just been registered; nobody holds anything yet. -/
def registered (mgr : FpgaManager Hw) (target : Target)
    (infos : Node → Option FpgaImageInfo) : State Node Hw Target where
  programming :=
    { region := { held := ⟨0, 0, 0⟩, info := none, bridgeList := [] }
      mgr := mgr
      bridges := fun np => { info := infos np, held := ⟨0, 0, 0⟩ }
      target := target }
  allocs := 0
  frees := []
  applied := []

end LinuxDfl.Fpga.OfRegion

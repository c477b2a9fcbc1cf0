import LinuxDfl.Fme.PartialReconfig
import LinuxDfl.Fpga.ResourceOwed

/-!
# The balance of partial reconfiguration

Whatever the steps of a request meet, it gives back each lock and each
reference which it takes, once.  The bridges of a region may outlast
`fpga_region_program_fpga`, but not the request.
-/

namespace LinuxDfl.Fme.Uses

open LinuxDfl.Kernel
open LinuxDfl.Fpga
open LinuxDfl.Fpga.Uses
open LinuxDfl.Lib.Balance
open LinuxDfl.Lib.Traced
open LinuxDfl.Lib.Traced.Program

variable {Region Bridge Hw Target : Type} [DecidableEq Bridge]

/-! ## Requests -/

/-- What a request for partial reconfiguration meets. -/
structure PrRequest (Region Bridge Hw Target : Type) where
  /-- What `fme_pr` returns if it ends before it has found a region. -/
  refused : Option Errno
  region : Region
  info : FpgaImageInfo
  env : RegionEnv
  steps : RegionSteps Bridge Hw Target

/-- `region->info = info` -/
def setInfo (info : FpgaImageInfo) (state : Programming Bridge Hw Target) :
    Programming Bridge Hw Target :=
  { state with region := { state.region with info := some info } }

/-- What a request does once the region has been programmed. -/
def fmePrCleanup (steps : RegionSteps Bridge Hw Target) :
    UseProgram Bridge Hw Target Unit := do
  putGotBridges steps
  give .foundRegion

/-- `fme_pr`, from the region on -/
def fmePrProgram (request : PrRequest Region Bridge Hw Target) :
    UseProgram Bridge Hw Target Unit := do
  take .foundRegion
  update (setInfo request.info)
  ensure (fpgaRegionProgramFpga request.env request.steps)
    (fmePrCleanup request.steps)

/-- `fme_pr` -/
def fmePr (request : PrRequest Region Bridge Hw Target) :
    UseProgram Bridge Hw Target Unit :=
  match request.refused with
  | some ret => fail ret
  | none => fmePrProgram request

/-- The regions of an FME, and what programming them works on. -/
structure Regions (Region Bridge Hw Target : Type) where
  regions : Region → FpgaRegion Bridge
  mgr : FpgaManager Hw
  bridges : Bridge → FpgaBridge
  target : Target

/-- Regions as `fpga_region_register_full` leaves them, without bridges. -/
def Regions.registered
    (held : Region → Holds) (mgr : FpgaManager Hw)
    (bridges : Bridge → FpgaBridge) (target : Target) :
    Regions Region Bridge Hw Target where
  regions region := ⟨held region, none, []⟩
  mgr := mgr
  bridges := bridges
  target := target

def Regions.programming
    (fme : Regions Region Bridge Hw Target) (region : Region) :
    Programming Bridge Hw Target :=
  ⟨fme.regions region, fme.mgr, fme.bridges, fme.target⟩

/-- The regions after a request which has the lock of the FME. -/
def Regions.after [DecidableEq Region]
    (fme : Regions Region Bridge Hw Target)
    (request : PrRequest Region Bridge Hw Target) :
    Regions Region Bridge Hw Target :=
  let done := (fmePr request (fme.programming request.region)).state
  { regions := Function.update fme.regions request.region done.region
    mgr := done.mgr
    bridges := done.bridges
    target := done.target }

/-! ## Without the record -/

/-- What `fpga_bridge_get` returns. -/
def bridgeGetRet (env : BridgeGetEnv) : Option Errno :=
  if !env.find then some .enodev
  else if !env.trylock then some .ebusy
  else if !env.tryModuleGet then some .enodev
  else none

/-- `fme_region_get_bridges` -/
def fmeRegionGetBridges (env : BridgeGetEnv) (portId : Nat) :
    GetBridges Nat where
  actions := [.getToList env portId]
  ret := bridgeGetRet env

/-- What the region of a port brings along for programming. -/
def fmeRegionSteps (attempt : Attempt) (portId : Nat) :
    RegionSteps Nat Unit (Nat → FmePort) where
  getBridges := some (fmeRegionGetBridges attempt.bridgeEnv portId)
  enableSet := (fmeRegionOps attempt portId).enableSet
  load := (fmeRegionOps attempt portId).load

theorem bridgeGetRet_eq (env : BridgeGetEnv) (info : Option FpgaImageInfo)
    (bridge : FpgaBridge) :
    (Fpga.fpgaBridgeGet env info bridge).1 = bridgeGetRet env := by
  obtain ⟨find, trylock, tryModuleGet⟩ := env
  cases find <;> cases trylock <;> cases tryModuleGet <;> rfl

/-- What `get_bridges` leaves when it asks for one bridge. -/
theorem getBridges_single {Hw Target : Type} (env : BridgeGetEnv)
    (portId : Nat) (state : Programming Nat Hw Target) :
    unrecorded (fmeRegionGetBridges env portId).run state =
      (bridgeGetRet env,
        (unrecorded (fpgaBridgeGetToList env portId) state).2) := by
  show (retOf (ofRet (bridgeGetRet env)), _) = _
  cases bridgeGetRet env <;> rfl

/-- Without the record, the bridge of a port is collected as modelled. -/
theorem fmeRegionSteps_ops (attempt : Attempt) (portId : Nat) :
    (fmeRegionSteps attempt portId).ops = fmeRegionOps attempt portId := by
  have same :
      unrecorded (fmeRegionGetBridges attempt.bridgeEnv portId).run =
        (fmeRegionOps attempt portId).getBridgesStep := by
    funext state
    rw [getBridges_single]
    unfold fpgaBridgeGetToList
    rw [unrecorded_bind, unrecorded_fpgaBridgeGet]
    simp only [RegionOps.getBridgesStep, fmeRegionOps, bridgeGetRet_eq]
    cases bridgeGetRet attempt.bridgeEnv <;> rfl
  unfold RegionSteps.ops fmeRegionSteps
  simp only [Option.map_some, same]
  rfl

/-- A request to the region of a port. -/
def requestOf (attempt : Attempt) (ident : Nat) :
    PrRequest Nat Nat Unit (Nat → FmePort) where
  refused := none
  region := attempt.portPr.portId
  info := attempt.imageInfo ident
  env := attempt.regionEnv
  steps := fmeRegionSteps attempt attempt.portPr.portId

theorem fmePrCleanup_state (attempt : Attempt) (portId : Nat)
    (state : Programming Nat Unit (Nat → FmePort)) :
    (fmePrCleanup (fmeRegionSteps attempt portId) state).state =
      Resource.foundRegion.drop state.putBridges := by
  have puts : putGotBridges (fmeRegionSteps attempt portId) =
      Uses.fpgaBridgesPut := rfl
  obtain ⟨returns, leaves⟩ := fpgaBridgesPut_run state
  unfold fmePrCleanup
  rw [puts, bind_of_ok returns, leaves]
  rfl

theorem unrecorded_fmePr (attempt : Attempt) (ident : Nat)
    (state : Programming Nat Unit (Nat → FmePort)) :
    unrecorded (fmePr (requestOf attempt ident)) state =
      (let programmed :=
        Fpga.fpgaRegionProgramFpga attempt.regionEnv
          (fmeRegionOps attempt attempt.portPr.portId)
          (setInfo (attempt.imageInfo ident)
            (Resource.foundRegion.hold state))
      (programmed.1,
        Resource.foundRegion.drop programmed.2.putBridges)) := by
  have steps := fmeRegionSteps_ops attempt attempt.portPr.portId
  show unrecorded
    (ensure
      (Uses.fpgaRegionProgramFpga attempt.regionEnv
        (fmeRegionSteps attempt attempt.portPr.portId))
      (fmePrCleanup (fmeRegionSteps attempt attempt.portPr.portId)))
    (setInfo (attempt.imageInfo ident) (Resource.foundRegion.hold state)) = _
  rw [unrecorded_ensure, unrecorded_fpgaRegionProgramFpga, steps,
    fmePrCleanup_state]

/-- Without the record, a request does what the modelled one does. -/
theorem fmePrProgram_unrecorded
    (attempt : Attempt) (ident : Nat) (fme : DflFme)
    (region : FpgaRegion Nat) :
    Fme.fmePrProgram attempt ident fme region =
      (let fme := fme.imageInfoFree region.info
      let ran := unrecorded (fmePr (requestOf attempt ident))
        ⟨region, fme.mgr, fme.bridges, fme.ports⟩
      (ran.1,
        { fme with
          regions := Function.update fme.regions attempt.portPr.portId
            (some ran.2.region)
          mgr := ran.2.mgr
          bridges := ran.2.bridges
          ports := ran.2.target })) := by
  simp only [unrecorded_fmePr]
  rfl

/-! ## The balance of a request -/

theorem fmePrProgram_owes (request : PrRequest Region Bridge Hw Target) :
    Triple (Owing [] (owed false false false []))
      (fmePrProgram request)
      (fun _ => Owing [] (owed false false false []))
      (Owing [] (owed false false false [])) := by
  have gives :
      Triple (Owing [] (owed true false false []))
        (give .foundRegion : UseProgram Bridge Hw Target Unit)
        (fun _ => Owing [] (owed false false false []))
        (Owing [] (owed false false false [])) := by
    rw [owed_found]
    exact give_owes _
  have cleans :
      Triple (HoldingIf request.steps.GetsBridges true false false)
        (fmePrCleanup request.steps)
        (fun _ => Owing [] (owed false false false []))
        (Owing [] (owed false false false [])) := by
    refine Triple.bind (Triple.mono ?_ (fun _ _ => id) (fun _ _ _ => id)
      fun _ _ => id) fun _ => gives
    unfold putGotBridges
    by_cases gets : request.steps.getBridges.isSome = true
    · rw [if_pos gets]
      exact fpgaBridgesPut_owes.of_pre fun _ _ => And.left
    · rw [if_neg gets]
      refine Triple.ret fun past state holds => ?_
      obtain ⟨holding, empty | has⟩ := holds
      · unfold Holding at holding
        rw [empty] at holding
        exact ⟨empty, holding⟩
      · exact absurd has gets
  refine Triple.bind (take_owes _) fun _ => ?_
  refine Triple.bind (update_owes fun _ => rfl) fun _ => ?_
  rw [← owed_found]
  refine Triple.ensure
    (fpgaRegionProgramFpga_owes request.env request.steps)
    (fun _ => cleans) (cleans.of_pre fun past state => HoldingIf.mono ?_)
  rintro ⟨-, -, -, getBridges, gets, -⟩
  show request.steps.getBridges.isSome = true
  rw [gets]
  rfl

theorem fmePr_owes (request : PrRequest Region Bridge Hw Target) :
    Triple (Owing [] (owed false false false []))
      (fmePr request)
      (fun _ => Owing [] (owed false false false []))
      (Owing [] (owed false false false [])) := by
  unfold fmePr
  cases request.refused with
  | some ret => exact Triple.fail fun _ _ => id
  | none => exact fmePrProgram_owes request

/--
How often a request asks for a resource: once for the region and for the
manager, and as often as `get_bridges` does for what belongs to a bridge.
-/
def PrRequest.asks (request : PrRequest Region Bridge Hw Target) :
    Resource Bridge → Nat
  | .foundRegion => 1
  | .regionMutex => 1
  | .regionDevice => 1
  | .regionModule => 1
  | .mgrRefMutex => 1
  | .bridgeMutex bridge => request.steps.asks (.bridgeMutex bridge)
  | .bridgeDevice bridge => request.steps.asks (.bridgeDevice bridge)
  | .bridgeModule bridge => request.steps.asks (.bridgeModule bridge)

theorem fmePr_takes (request : PrRequest Region Bridge Hw Target) :
    TakesAtMost request.asks (fmePr request) := by
  have cleans : TakesAtMost (fun _ => 0) (fmePrCleanup request.steps) :=
    (putGotBridges_takes request.steps).bindNone fun _ => give_takes _
  have programs :=
    (fpgaRegionProgramFpga_takes request.env request.steps).ensure cleans
  have all : TakesAtMost _ (fmePrProgram request) :=
    (take_takes _).bind fun _ => (update_takes _).noneBind fun _ => programs
  unfold fmePr
  cases request.refused with
  | some ret => exact fail_takes _
  | none =>
      refine all.mono fun resource => ?_
      cases resource <;>
        simp [PrRequest.asks, more, asksRegion, steps_asks_region]

/-- `fpga_region_program_fpga`, where the request calls it -/
def PrRequest.programs (request : PrRequest Region Bridge Hw Target)
    (state : Programming Bridge Hw Target) :
    Run (Event Bridge) Errno (Programming Bridge Hw Target) Unit :=
  fpgaRegionProgramFpga request.env request.steps
    (setInfo request.info (Resource.foundRegion.hold state))

/-- Something of the bridge is held when `fpga_region_program_fpga` returns. -/
def PrRequest.Outlasts (request : PrRequest Region Bridge Hw Target)
    (state : Programming Bridge Hw Target) (bridge : Bridge) : Prop :=
  ¬ Settled (usesOf (.bridgeMutex bridge) (request.programs state).events) ∨
    ¬ Settled
      (usesOf (.bridgeDevice bridge) (request.programs state).events) ∨
    ¬ Settled (usesOf (.bridgeModule bridge) (request.programs state).events)

/-- What belongs to the region and to the manager. -/
def ofRegion : List (Resource Bridge) :=
  [.mgrRefMutex, .regionModule, .regionDevice, .regionMutex, .foundRegion]

/-- A request takes and gives back in balance. -/
structure PrRequest.Balanced (request : PrRequest Region Bridge Hw Target)
    (state : Programming Bridge Hw Target) : Prop where
  /-- What is taken is given back after it, and nothing else is. -/
  settled :
    ∀ resource, Settled (usesOf resource (fmePr request state).events)
  /-- Nothing is taken more often than it is asked for. -/
  asked :
    ∀ resource,
      taken (usesOf resource (fmePr request state).events) ≤
        request.asks resource
  /-- What is asked for once is used once or not at all. -/
  once :
    ∀ resource, request.asks resource ≤ 1 →
      usesOf resource (fmePr request state).events = [] ∨
        Once (usesOf resource (fmePr request state).events)
  /-- A request which succeeds has used the region and the manager. -/
  succeeded :
    (fmePr request state).result = .ok () →
      ∀ resource ∈ ofRegion,
        Once (usesOf resource (fmePr request state).events)
  /-- It has used what belongs to the bridges which have been got. -/
  collected :
    (fmePr request state).result = .ok () →
      ∀ bridge ∈ request.steps.got, ∀ resource ∈ ofBridge bridge,
        usesOf resource (fmePr request state).events ≠ [] ∧
          (request.asks resource = 1 →
            Once (usesOf resource (fmePr request state).events))
  /-- When bridges are still held after the programming. -/
  outlasting :
    ∀ bridge, request.Outlasts state bridge →
      (request.programs state).result = .ok () ∨
        FailsPartWay request.env request.steps
  emptied : (fmePr request state).state.region.bridgeList = []

/-- What a request which succeeds has taken. -/
theorem fmePr_took (request : PrRequest Region Bridge Hw Target) :
    Triple (Took []) (fmePr request)
      (fun _ => Took (tookBridges request.steps.got ofRegion))
      fun _ _ => True := by
  unfold fmePr
  cases request.refused with
  | some ret => exact Triple.fail fun _ _ _ => trivial
  | none =>
      refine Triple.bind (took_take _ _) fun _ => ?_
      refine Triple.bind (took_kept _ _) fun _ => ?_
      refine Triple.ensure ?_ (fun _ => took_kept_failing _ _)
        (anything_kept _)
      refine Triple.bind (fpgaRegionGet_took _ _) fun _ => ?_
      exact Triple.ensure (programHeld_took _ _ _)
        (fun _ => took_kept_failing _ _) (anything_kept _)

/-! ## Every request is balanced -/

/-- Bridges which outlast the programming are on the list of the region. -/
theorem outlasting_of_empty (request : PrRequest Region Bridge Hw Target)
    (state : Programming Bridge Hw Target)
    (empty : state.region.bridgeList = []) (bridge : Bridge)
    (outlasts : request.Outlasts state bridge) :
    (request.programs state).result = .ok () ∨
      FailsPartWay request.env request.steps := by
  have starts : Owing [] (owed false false false []) []
      (setInfo request.info (Resource.foundRegion.hold state)) :=
    ⟨empty, fun resource => by rw [owed_none]; rfl⟩
  have runs :=
    fpgaRegionProgramFpga_owes request.env request.steps [] _ starts
  cases result : (request.programs state).result with
  | ok value => exact Or.inl rfl
  | error ret =>
      right
      unfold PrRequest.programs at result
      rw [result] at runs
      obtain ⟨holding, none | failed⟩ := runs
      · have settled : ∀ resource,
            Settled (usesOf resource (request.programs state).events) := by
          unfold Holding at holding
          rw [none, owed_none] at holding
          exact holding.settled
        rcases outlasts with held | held | held
        · exact absurd (settled _) held
        · exact absurd (settled _) held
        · exact absurd (settled _) held
      · exact failed

/-- A request to a region without bridges is balanced. -/
theorem balanced_of_empty (request : PrRequest Region Bridge Hw Target)
    (state : Programming Bridge Hw Target)
    (empty : state.region.bridgeList = []) :
    request.Balanced state := by
  have starts : Owing [] (owed false false false []) [] state :=
    ⟨empty, fun resource => by rw [owed_none]; rfl⟩
  have ends : Owing [] (owed false false false [])
      (fmePr request state).events (fmePr request state).state := by
    have runs := fmePr_owes request [] state starts
    cases result : (fmePr request state).result <;>
      · rw [result] at runs
        exact runs
  have settled : ∀ resource,
      Settled (usesOf resource (fmePr request state).events) := by
    have owes := ends.2
    rw [owed_none] at owes
    exact owes.settled
  have once : ∀ resource, request.asks resource ≤ 1 →
      usesOf resource (fmePr request state).events = [] ∨
        Once (usesOf resource (fmePr request state).events) := by
    intro resource few
    have taken := fmePr_takes request state resource
    exact settled_once (settled resource) (taken.trans few)
  have took (returns : (fmePr request state).result = .ok ()) :
      Took (tookBridges request.steps.got ofRegion)
        (fmePr request state).events (fmePr request state).state :=
    (fmePr_took request).run
      (fun _ member => absurd member List.not_mem_nil) returns
  constructor
  case settled => exact settled
  case asked => exact fmePr_takes request state
  case once => exact once
  case succeeded =>
    intro returns resource member
    have took := took returns resource (List.mem_append_right _ member)
    have few : request.asks resource ≤ 1 := by
      simp only [ofRegion, List.mem_cons, List.not_mem_nil, or_false]
        at member
      rcases member with rfl | rfl | rfl | rfl | rfl <;> exact Nat.le_refl 1
    rcases once resource few with unused | used
    · exact absurd unused (usesOf_ne_nil took)
    · exact used
  case collected =>
    intro returns bridge got resource belongs
    have used := usesOf_ne_nil (took returns resource
      (List.mem_append_left _ (List.mem_flatMap.mpr ⟨bridge, got, belongs⟩)))
    refine ⟨used, fun single => ?_⟩
    exact (once resource (Nat.le_of_eq single)).resolve_left used
  case outlasting => exact outlasting_of_empty request state empty
  case emptied => exact ends.1

section Requests

variable [DecidableEq Region]

theorem after_empty (fme : Regions Region Bridge Hw Target)
    (request : PrRequest Region Bridge Hw Target)
    (empty : ∀ region, (fme.regions region).bridgeList = [])
    (region : Region) :
    ((fme.after request).regions region).bridgeList = [] := by
  show (Function.update fme.regions request.region _ region).bridgeList = []
  by_cases same : region = request.region
  · subst same
    rw [Function.update_self]
    exact (balanced_of_empty request _ (empty request.region)).emptied
  · rw [Function.update_of_ne same]
    exact empty region

theorem requests_empty (requests : List (PrRequest Region Bridge Hw Target))
    (fme : Regions Region Bridge Hw Target)
    (empty : ∀ region, (fme.regions region).bridgeList = []) :
    ∀ region,
      ((requests.foldl Regions.after fme).regions region).bridgeList =
        [] := by
  induction requests generalizing fme with
  | nil => exact empty
  | cons request rest ih =>
      exact ih (fme.after request) (after_empty fme request empty)

/--
After any requests to the regions of an FME, one at a time, the next request
is balanced, whatever its steps meet and however many bridges it asks for.
-/
theorem requests_balanced
    (held : Region → Holds) (mgr : FpgaManager Hw)
    (bridges : Bridge → FpgaBridge) (target : Target)
    (requests : List (PrRequest Region Bridge Hw Target))
    (request : PrRequest Region Bridge Hw Target) :
    request.Balanced
      ((requests.foldl Regions.after
        (Regions.registered held mgr bridges target)).programming
          request.region) :=
  balanced_of_empty request _
    (requests_empty requests _ (fun _ => rfl) request.region)

end Requests

end LinuxDfl.Fme.Uses

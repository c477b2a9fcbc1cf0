import LinuxDfl.Fpga.ResourceUses

/-!
# What programming a region owes

Whatever the steps of `fpga_region_program_fpga` meet, it gives back the
region and the manager.  What it still owes in the end are the bridges on
the list of the region.
-/

namespace LinuxDfl.Fpga.Uses

open LinuxDfl.Kernel
open LinuxDfl.Lib.Balance
open LinuxDfl.Lib.Traced
open LinuxDfl.Lib.Traced.Program

variable {Bridge Hw Target : Type} [DecidableEq Bridge]

/-! ## What is owed on the way -/

/--
What is owed while the bridges of the list are held, and with them the found
region, the region itself or the manager.
-/
def owed (found region mgr : Bool) (bridges : List Bridge) :
    Resource Bridge → Nat
  | .foundRegion => found.toNat
  | .regionMutex => region.toNat
  | .regionDevice => region.toNat
  | .regionModule => region.toNat
  | .mgrRefMutex => mgr.toNat
  | .bridgeMutex bridge => bridges.count bridge
  | .bridgeDevice bridge => bridges.count bridge
  | .bridgeModule bridge => bridges.count bridge

theorem owed_found (region mgr : Bool) (bridges : List Bridge) :
    owed true region mgr bridges =
      more .foundRegion (owed false region mgr bridges) := by
  funext resource
  cases resource <;> rfl

theorem owed_region (found mgr : Bool) (bridges : List Bridge) :
    owed found true mgr bridges =
      more .regionModule (more .regionDevice (more .regionMutex
        (owed found false mgr bridges))) := by
  funext resource
  cases resource <;> rfl

theorem owed_mgr (found region : Bool) (bridges : List Bridge) :
    owed found region true bridges =
      more .mgrRefMutex (owed found region false bridges) := by
  funext resource
  cases resource <;> rfl

theorem owed_bridge
    (found region mgr : Bool) (bridge : Bridge) (bridges : List Bridge) :
    owed found region mgr (bridge :: bridges) =
      more (.bridgeModule bridge) (more (.bridgeMutex bridge)
        (more (.bridgeDevice bridge) (owed found region mgr bridges))) := by
  funext resource
  cases resource <;>
    simp [owed, more, List.count_cons, apply_ite]

theorem owed_none : owed false false false ([] : List Bridge) = fun _ => 0 := by
  funext resource
  cases resource <;> rfl

/-- The bridges are on the list, and the resources are owed. -/
def Owing (bridges : List Bridge) (owing : Resource Bridge → Nat) :
    Assertion (Event Bridge) (Programming Bridge Hw Target) :=
  fun past state => state.region.bridgeList = bridges ∧ Owes owing past

/-- What is owed goes with the list of the region. -/
def Holding (found region mgr : Bool) :
    Assertion (Event Bridge) (Programming Bridge Hw Target) :=
  fun past state =>
    Owes (owed found region mgr state.region.bridgeList) past

section Steps

variable {bridges : List Bridge} {owing : Resource Bridge → Nat}
  {fails : Assertion (Event Bridge) (Programming Bridge Hw Target)}

theorem take_owes (resource : Resource Bridge) :
    Triple (Owing bridges owing)
      (take resource : UseProgram Bridge Hw Target Unit)
      (fun _ => Owing bridges (more resource owing)) fails := by
  intro past state holds
  obtain ⟨onList, owes⟩ := holds
  show Owing bridges (more resource owing) (past ++ [(resource, .take)])
    (resource.hold state)
  exact ⟨(hold_bridgeList resource state).trans onList, owes.take resource⟩

theorem give_owes (resource : Resource Bridge) :
    Triple (Owing bridges (more resource owing))
      (give resource : UseProgram Bridge Hw Target Unit)
      (fun _ => Owing bridges owing) fails := by
  intro past state holds
  obtain ⟨onList, owes⟩ := holds
  show Owing bridges owing (past ++ [(resource, .give)])
    (resource.drop state)
  exact ⟨(drop_bridgeList resource state).trans onList, owes.give⟩

theorem update_owes
    {change : Programming Bridge Hw Target → Programming Bridge Hw Target}
    (keeps : ∀ state, (change state).region.bridgeList =
      state.region.bridgeList) :
    Triple (Owing bridges owing)
      (update change : UseProgram Bridge Hw Target Unit)
      (fun _ => Owing bridges owing) fails :=
  Triple.update fun _ state holds => ⟨(keeps state).trans holds.1, holds.2⟩

theorem updateList_owes (change : List Bridge → List Bridge) :
    Triple (Owing bridges owing)
      (update (onBridgeList change) : UseProgram Bridge Hw Target Unit)
      (fun _ => Owing (change bridges) owing) fails :=
  Triple.update fun _ _ holds => ⟨congrArg change holds.1, holds.2⟩

end Steps

variable {found region mgr : Bool}

/-- What holds with the list at hand holds with the one in the region. -/
theorem Owing.holding {bridges : List Bridge} {past : List (Event Bridge)}
    {state : Programming Bridge Hw Target}
    (owing : Owing bridges (owed found region mgr bridges) past state) :
    Holding found region mgr past state := by
  obtain ⟨onList, owes⟩ := owing
  unfold Holding
  rw [onList]
  exact owes

/-- A program may be treated with the list at hand. -/
theorem holding_of_lists
    {program : UseProgram Bridge Hw Target Unit}
    {post : Unit → Assertion (Event Bridge) (Programming Bridge Hw Target)}
    {fails : Assertion (Event Bridge) (Programming Bridge Hw Target)}
    (holds :
      ∀ bridges, Triple (Owing bridges (owed found region mgr bridges))
        program post fails) :
    Triple (Holding found region mgr) program post fails :=
  fun past state initial =>
    holds state.region.bridgeList past state ⟨rfl, initial⟩

/-! ## Bridges -/

theorem fpgaBridgeGetLocked_owes
    (env : BridgeGetEnv) (bridge : Bridge) (bridges : List Bridge) :
    Triple
      (Owing bridges
        (more (.bridgeDevice bridge) (owed found region mgr bridges)))
      (fpgaBridgeGetLocked env bridge : UseProgram Bridge Hw Target Unit)
      (fun _ => Owing bridges (owed found region mgr (bridge :: bridges)))
      (Owing bridges (owed found region mgr bridges)) := by
  refine Triple.anyState fun seen => ?_
  refine Triple.bind (update_owes fun _ => rfl) fun _ => ?_
  by_cases locks : env.trylock = true
  · simp only [locks, Bool.not_true, Bool.false_eq_true, if_false]
    refine Triple.bind (take_owes _) fun _ => ?_
    by_cases gets : env.tryModuleGet = true
    · simp only [gets, Bool.not_true, Bool.false_eq_true, if_false]
      rw [owed_bridge]
      exact take_owes _
    · simp only [gets, Bool.not_false, if_true]
      refine Triple.bind (give_owes _) fun _ => ?_
      refine Triple.bind (give_owes _) fun _ => ?_
      exact Triple.fail fun _ _ => id
  · simp only [locks, Bool.not_false, if_true]
    refine Triple.bind (give_owes _) fun _ => ?_
    exact Triple.fail fun _ _ => id

theorem fpgaBridgeGet_owes
    (env : BridgeGetEnv) (bridge : Bridge) (bridges : List Bridge) :
    Triple (Owing bridges (owed found region mgr bridges))
      (fpgaBridgeGet env bridge : UseProgram Bridge Hw Target Unit)
      (fun _ => Owing bridges (owed found region mgr (bridge :: bridges)))
      (Owing bridges (owed found region mgr bridges)) := by
  unfold fpgaBridgeGet
  by_cases finds : env.find = true
  · simp only [finds, Bool.not_true, Bool.false_eq_true, if_false]
    exact Triple.bind (take_owes _) fun _ =>
      fpgaBridgeGetLocked_owes env bridge bridges
  · simp only [finds, Bool.not_false, if_true]
    exact Triple.fail fun _ _ => id

theorem fpgaBridgeGetToList_owes (env : BridgeGetEnv) (bridge : Bridge) :
    Triple (Holding found region mgr)
      (fpgaBridgeGetToList env bridge : UseProgram Bridge Hw Target Unit)
      (fun _ => Holding found region mgr) (Holding found region mgr) := by
  refine holding_of_lists fun bridges => ?_
  refine Triple.bind
    ((fpgaBridgeGet_owes env bridge bridges).of_fails fun _ _ =>
      Owing.holding) fun _ => ?_
  exact (updateList_owes _).mono (fun _ _ => id)
    (fun _ _ _ => Owing.holding) fun _ _ => id

theorem fpgaBridgePut_owes (bridge : Bridge) (rest : List Bridge)
    {bridges : List Bridge}
    {fails : Assertion (Event Bridge) (Programming Bridge Hw Target)} :
    Triple (Owing bridges (owed found region mgr (bridge :: rest)))
      (fpgaBridgePut bridge : UseProgram Bridge Hw Target Unit)
      (fun _ => Owing bridges (owed found region mgr rest)) fails := by
  rw [owed_bridge]
  refine Triple.bind (update_owes fun _ => rfl) fun _ => ?_
  refine Triple.bind (give_owes _) fun _ => ?_
  refine Triple.bind (give_owes _) fun _ => ?_
  exact give_owes _

theorem fpgaBridgesPutLoop_owes (bridges : List Bridge)
    {fails : Assertion (Event Bridge) (Programming Bridge Hw Target)} :
    Triple (Owing bridges (owed found region mgr bridges))
      (fpgaBridgesPutLoop bridges : UseProgram Bridge Hw Target Unit)
      (fun _ => Owing [] (owed found region mgr [])) fails := by
  induction bridges with
  | nil => exact Triple.ret fun _ _ => id
  | cons bridge rest ih =>
      refine Triple.bind (fpgaBridgePut_owes bridge rest) fun _ => ?_
      exact Triple.bind (updateList_owes List.tail) fun _ => ih

/-- All bridges are given back. -/
theorem fpgaBridgesPut_owes
    {fails : Assertion (Event Bridge) (Programming Bridge Hw Target)} :
    Triple (Holding found region mgr)
      (fpgaBridgesPut : UseProgram Bridge Hw Target Unit)
      (fun _ => Owing [] (owed found region mgr [])) fails := by
  refine Triple.withState fun seen => ?_
  refine (fpgaBridgesPutLoop_owes seen.region.bridgeList).of_pre
    fun past state holds => ?_
  obtain ⟨holding, same⟩ := holds
  cases same
  exact ⟨rfl, holding⟩

/-! ## `get_bridges` -/

theorem bridgeAction_owes (action : BridgeAction Bridge) :
    Triple (Holding found region mgr)
      (action.run : UseProgram Bridge Hw Target Unit)
      (fun _ => Holding found region mgr) (Holding found region mgr) := by
  cases action with
  | getToList env bridge => exact fpgaBridgeGetToList_owes env bridge
  | putAll =>
      exact fpgaBridgesPut_owes.mono (fun _ _ => id)
        (fun _ _ _ => Owing.holding) fun _ _ => id

theorem runActions_owes (actions : List (BridgeAction Bridge))
    {fails : Assertion (Event Bridge) (Programming Bridge Hw Target)} :
    Triple (Holding found region mgr)
      (runActions actions : UseProgram Bridge Hw Target Unit)
      (fun _ => Holding found region mgr) fails := by
  induction actions with
  | nil => exact Triple.ret fun _ _ => id
  | cons action rest ih =>
      exact Triple.bind (Triple.attempt (bridgeAction_owes action))
        fun _ => ih

theorem returnRet_owes (ret : Option Errno) :
    Triple (Holding found region mgr)
      (returnRet ret : UseProgram Bridge Hw Target Unit)
      (fun _ => Holding found region mgr)
      (fun past state => Holding found region mgr past state ∧
        ret ≠ none) := by
  intro past state holding
  cases ret with
  | none => exact (List.append_nil past).symm ▸ holding
  | some ret =>
      exact ⟨(List.append_nil past).symm ▸ holding, Option.some_ne_none ret⟩

/-- A `get_bridges` which fails leaves the bridges it has got on the list. -/
theorem getBridges_owes (getBridges : GetBridges Bridge) :
    Triple (Holding found region mgr)
      (getBridges.run : UseProgram Bridge Hw Target Unit)
      (fun _ => Holding found region mgr)
      (fun past state => Holding found region mgr past state ∧
        getBridges.ret ≠ none) :=
  Triple.bind (runActions_owes getBridges.actions) fun _ =>
    returnRet_owes getBridges.ret

/-! ## The region -/

section Programming

variable {bridges : List Bridge} {owing : Resource Bridge → Nat}

theorem quiet_owes (step : ProgramStep Bridge Hw Target)
    (keeps : ∀ state, (step state).2.region.bridgeList =
      state.region.bridgeList) :
    Triple (Owing bridges owing) (quiet step)
      (fun _ => Owing bridges owing) (Owing bridges owing) := by
  intro past state holds
  obtain ⟨onList, owes⟩ := holds
  have kept : Owing bridges owing (past ++ (quiet step state).events)
      (quiet step state).state :=
    ⟨(keeps state).trans onList, (List.append_nil past).symm ▸ owes⟩
  cases (quiet step state).result <;> exact kept

theorem programBridged_owes (steps : RegionSteps Bridge Hw Target) :
    Triple (Owing bridges owing) (programBridged steps)
      (fun _ => Owing bridges owing) (Owing bridges owing) := by
  refine Triple.bind (quiet_owes _ fun _ => rfl) fun _ => ?_
  refine Triple.bind (quiet_owes _ fun _ => rfl) fun _ => ?_
  exact quiet_owes _ fun _ => rfl

end Programming

/-- Bridges may still be held, but only under a condition. -/
def HoldingIf (condition : Prop) (found region mgr : Bool) :
    Assertion (Event Bridge) (Programming Bridge Hw Target) :=
  fun past state => Holding found region mgr past state ∧
    (state.region.bridgeList = [] ∨ condition)

/-- A program which leaves the list alone may be treated at each list. -/
theorem holdingIf_of_lists {condition : Prop} {found' region' mgr' : Bool}
    {program : UseProgram Bridge Hw Target Unit}
    (holds :
      ∀ bridges, Triple (Owing bridges (owed found region mgr bridges))
        program (fun _ => Owing bridges (owed found' region' mgr' bridges))
        (Owing bridges (owed found' region' mgr' bridges))) :
    Triple (HoldingIf condition found region mgr) program
      (fun _ => HoldingIf condition found' region' mgr')
      (HoldingIf condition found' region' mgr') := by
  intro past state initial
  obtain ⟨holding, few⟩ := initial
  have runs := holds state.region.bridgeList past state ⟨rfl, holding⟩
  cases result : (program state).result with
  | error ret =>
      rw [result] at runs
      exact ⟨runs.holding, runs.1.symm ▸ few⟩
  | ok value =>
      rw [result] at runs
      exact ⟨runs.holding, runs.1.symm ▸ few⟩

theorem HoldingIf.mono {condition weaker : Prop}
    (implies : condition → weaker) {past : List (Event Bridge)}
    {state : Programming Bridge Hw Target}
    (holds : HoldingIf condition found region mgr past state) :
    HoldingIf weaker found region mgr past state :=
  ⟨holds.1, holds.2.imp_right implies⟩

theorem Owing.holdingIf {condition : Prop} {past : List (Event Bridge)}
    {state : Programming Bridge Hw Target}
    (owing : Owing [] (owed found region mgr []) past state) :
    HoldingIf condition found region mgr past state :=
  ⟨owing.holding, Or.inl owing.1⟩

/-- `get_bridges` returns an error. -/
def RegionSteps.GetBridgesFails (steps : RegionSteps Bridge Hw Target) :
    Prop :=
  ∃ getBridges, steps.getBridges = some getBridges ∧ getBridges.ret ≠ none

/-- The region has a `get_bridges` operation. -/
def RegionSteps.GetsBridges (steps : RegionSteps Bridge Hw Target) : Prop :=
  steps.getBridges.isSome = true

theorem programLocked_owes (steps : RegionSteps Bridge Hw Target) :
    Triple (Owing [] (owed found region mgr []))
      (programLocked steps)
      (fun _ => HoldingIf steps.GetsBridges found region mgr)
      (HoldingIf steps.GetBridgesFails found region mgr) := by
  cases gets : steps.getBridges with
  | none =>
      have nothing : programLocked steps =
          (pure () >>= fun _ =>
            onFailure (programBridged steps) (pure ())) := by
        unfold programLocked getBridgesStep putGotBridges
        rw [gets]
        rfl
      have starts :
          Triple (Owing [] (owed found region mgr []))
            (pure () : UseProgram Bridge Hw Target Unit)
            (fun _ => Owing [] (owed found region mgr []))
            (HoldingIf steps.GetBridgesFails found region mgr) :=
        Triple.ret fun _ _ => id
      rw [nothing]
      refine Triple.bind starts fun _ => ?_
      refine Triple.onFailure
        ((programBridged_owes steps).mono (fun _ _ => id)
          (fun _ _ _ => Owing.holdingIf) fun _ _ => id) ?_
      exact Triple.ret fun _ _ => Owing.holdingIf
  | some getBridges =>
      have puts : programLocked steps =
          (getBridges.run >>= fun _ =>
            onFailure (programBridged steps) fpgaBridgesPut) := by
        unfold programLocked getBridgesStep putGotBridges
        rw [gets]
        rfl
      have has : steps.GetsBridges := by
        rw [RegionSteps.GetsBridges, gets]
        rfl
      rw [puts]
      refine Triple.bind
        ((getBridges_owes getBridges).mono (fun _ _ => Owing.holding)
          (fun _ _ _ => id) fun past state failed => ?_) fun _ => ?_
      · exact ⟨failed.1, Or.inr ⟨getBridges, gets, failed.2⟩⟩
      · have programs :
            Triple (Holding found region mgr) (programBridged steps)
              (fun _ => HoldingIf steps.GetsBridges found region mgr)
              (Holding found region mgr) := by
          refine holding_of_lists fun bridges => ?_
          exact (programBridged_owes steps).mono (fun _ _ => id)
            (fun _ _ _ owing => ⟨owing.holding, Or.inr has⟩)
            fun _ _ => Owing.holding
        refine Triple.onFailure programs ?_
        exact fpgaBridgesPut_owes.mono (fun _ _ => id)
          (fun _ _ _ => Owing.holdingIf) fun _ _ => id

theorem fpgaMgrUnlock_owes {condition : Prop} :
    Triple (HoldingIf condition found region true)
      (fpgaMgrUnlock : UseProgram Bridge Hw Target Unit)
      (fun _ => HoldingIf condition found region false)
      (HoldingIf condition found region false) := by
  refine holdingIf_of_lists fun bridges => ?_
  rw [owed_mgr]
  exact give_owes _

theorem programHeld_owes
    (env : RegionEnv) (steps : RegionSteps Bridge Hw Target) :
    Triple (Owing [] (owed found region false []))
      (programHeld env steps)
      (fun _ => HoldingIf steps.GetsBridges found region false)
      (HoldingIf (env.mgrTrylock = true ∧ steps.GetBridgesFails) found region
        false) := by
  unfold programHeld fpgaMgrLock
  by_cases locks : env.mgrTrylock = true
  · simp only [locks, if_true, true_and]
    refine Triple.bind (take_owes _) fun _ => ?_
    rw [← owed_mgr]
    exact Triple.ensure (programLocked_owes steps)
      (fun _ => fpgaMgrUnlock_owes) fpgaMgrUnlock_owes
  · rw [if_neg locks]
    have refused :
        Triple (Owing [] (owed found region false []))
          (fail .ebusy : UseProgram Bridge Hw Target Unit)
          (fun _ _ _ => False)
          (HoldingIf (env.mgrTrylock = true ∧ steps.GetBridgesFails) found
            region false) :=
      Triple.fail fun _ _ => Owing.holdingIf
    refine Triple.bind refused fun _ => ?_
    exact fun _ _ absurd => absurd.elim

theorem fpgaRegionPut_owes {condition : Prop} :
    Triple (HoldingIf condition found true mgr)
      (fpgaRegionPut : UseProgram Bridge Hw Target Unit)
      (fun _ => HoldingIf condition found false mgr)
      (HoldingIf condition found false mgr) := by
  refine holdingIf_of_lists fun bridges => ?_
  rw [owed_region]
  refine Triple.bind (give_owes _) fun _ => ?_
  refine Triple.bind (give_owes _) fun _ => ?_
  exact give_owes _

theorem fpgaRegionGet_owes (env : RegionEnv) (bridges : List Bridge) :
    Triple (Owing bridges (owed found false mgr bridges))
      (fpgaRegionGet env : UseProgram Bridge Hw Target Unit)
      (fun _ past state =>
        Owing bridges (owed found true mgr bridges) past state ∧
          env.trylock = true ∧ env.tryModuleGet = true)
      (Owing bridges (owed found false mgr bridges)) := by
  unfold fpgaRegionGet
  by_cases locks : env.trylock = true
  · simp only [locks, Bool.not_true, Bool.false_eq_true, if_false]
    refine Triple.bind (take_owes _) fun _ => ?_
    refine Triple.bind (take_owes _) fun _ => ?_
    by_cases gets : env.tryModuleGet = true
    · simp only [gets, Bool.not_true, Bool.false_eq_true, if_false]
      rw [owed_region]
      exact (take_owes _).mono (fun _ _ => id)
        (fun _ _ _ owing => ⟨owing, trivial, trivial⟩) fun _ _ => id
    · simp only [gets, Bool.not_false, if_true]
      refine Triple.bind (give_owes _) fun _ => ?_
      refine Triple.bind (give_owes _) fun _ => ?_
      exact Triple.fail fun _ _ => id
  · simp only [locks, Bool.not_false, if_true]
    exact Triple.fail fun _ _ => id

/-- `get_bridges` is reached, and fails. -/
def FailsPartWay (env : RegionEnv) (steps : RegionSteps Bridge Hw Target) :
    Prop :=
  env.trylock = true ∧ env.tryModuleGet = true ∧ env.mgrTrylock = true ∧
    steps.GetBridgesFails

/--
`fpga_region_program_fpga` gives back the region and the manager.  It keeps
bridges only when it succeeds, or when `get_bridges` has failed.
-/
theorem fpgaRegionProgramFpga_owes
    (env : RegionEnv) (steps : RegionSteps Bridge Hw Target) :
    Triple (Owing [] (owed found false false []))
      (fpgaRegionProgramFpga env steps)
      (fun _ => HoldingIf steps.GetsBridges found false false)
      (HoldingIf (FailsPartWay env steps) found false false) := by
  refine Triple.bind
    ((fpgaRegionGet_owes env []).of_fails fun _ _ => Owing.holdingIf)
    fun _ => ?_
  refine Triple.assume fun got => ?_
  refine Triple.ensure
    ((programHeld_owes env steps).of_fails fun _ _ =>
      HoldingIf.mono fun failed => ?_)
    (fun _ => fpgaRegionPut_owes) fpgaRegionPut_owes
  exact ⟨got.1, got.2, failed⟩

/-! ## How often a resource is taken -/

/-- The resources of the bridge, once each. -/
def asksFor (bridge : Bridge) : Resource Bridge → Nat
  | .bridgeMutex other => if bridge = other then 1 else 0
  | .bridgeDevice other => if bridge = other then 1 else 0
  | .bridgeModule other => if bridge = other then 1 else 0
  | _ => 0

def BridgeAction.asks : BridgeAction Bridge → Resource Bridge → Nat
  | .getToList _ bridge => asksFor bridge
  | .putAll => fun _ => 0

/-- How often the actions ask for what belongs to a bridge. -/
def asksOf : List (BridgeAction Bridge) → Resource Bridge → Nat
  | [], _ => 0
  | action :: rest, resource => action.asks resource + asksOf rest resource

def RegionSteps.asks (steps : RegionSteps Bridge Hw Target) :
    Resource Bridge → Nat :=
  match steps.getBridges with
  | some getBridges => asksOf getBridges.actions
  | none => fun _ => 0

section Takes

variable {bound : Resource Bridge → Nat}

theorem take_takes (resource : Resource Bridge) :
    TakesAtMost (more resource fun _ => 0)
      (take resource : UseProgram Bridge Hw Target Unit) := by
  intro state other
  show taken (usesOf other [(resource, Use.take)]) ≤ _
  rw [taken_take]

theorem give_takes (resource : Resource Bridge) :
    TakesAtMost bound (give resource : UseProgram Bridge Hw Target Unit) := by
  intro state other
  show taken (usesOf other [(resource, Use.give)]) ≤ _
  rw [taken_give]
  exact Nat.zero_le _

theorem fail_takes (ret : Errno) :
    TakesAtMost bound (fail ret : UseProgram Bridge Hw Target Unit) :=
  takesAtMost_silent fun _ => rfl

theorem update_takes
    (change : Programming Bridge Hw Target → Programming Bridge Hw Target) :
    TakesAtMost bound (update change : UseProgram Bridge Hw Target Unit) :=
  takesAtMost_silent fun _ => rfl

end Takes

theorem asksFor_eq (bridge : Bridge) :
    asksFor bridge =
      fun resource => more (.bridgeDevice bridge) (fun _ => 0) resource +
        (more (.bridgeMutex bridge) (fun _ => 0) resource +
          more (.bridgeModule bridge) (fun _ => 0) resource) := by
  funext resource
  cases resource <;> simp [asksFor, more]

theorem fpgaBridgeGetLocked_takes (env : BridgeGetEnv) (bridge : Bridge) :
    TakesAtMost
      (fun resource => more (.bridgeMutex bridge) (fun _ => 0) resource +
        more (.bridgeModule bridge) (fun _ => 0) resource)
      (fpgaBridgeGetLocked env bridge :
        UseProgram Bridge Hw Target Unit) := by
  refine (takesAtMost_silent fun _ => rfl).noneBind fun seen => ?_
  refine (update_takes _).noneBind fun _ => ?_
  by_cases locks : env.trylock = true
  · simp only [locks, Bool.not_true, Bool.false_eq_true, if_false]
    refine (take_takes _).bind fun _ => ?_
    by_cases gets : env.tryModuleGet = true
    · simp only [gets, Bool.not_true, Bool.false_eq_true, if_false]
      exact take_takes _
    · simp only [gets, Bool.not_false, if_true]
      refine (give_takes _).noneBind fun _ => ?_
      exact (give_takes _).noneBind fun _ => fail_takes _
  · simp only [locks, Bool.not_false, if_true]
    exact (give_takes _).noneBind fun _ => fail_takes _

theorem fpgaBridgeGet_takes (env : BridgeGetEnv) (bridge : Bridge) :
    TakesAtMost (asksFor bridge)
      (fpgaBridgeGet env bridge : UseProgram Bridge Hw Target Unit) := by
  unfold fpgaBridgeGet
  by_cases finds : env.find = true
  · simp only [finds, Bool.not_true, Bool.false_eq_true, if_false]
    rw [asksFor_eq]
    exact (take_takes _).bind fun _ => fpgaBridgeGetLocked_takes env bridge
  · simp only [finds, Bool.not_false, if_true]
    exact fail_takes _

theorem fpgaBridgesPutLoop_takes (bridges : List Bridge) :
    TakesAtMost (fun _ => 0)
      (fpgaBridgesPutLoop bridges : UseProgram Bridge Hw Target Unit) := by
  induction bridges with
  | nil => exact takesAtMost_silent fun _ => rfl
  | cons bridge rest ih =>
      have puts : TakesAtMost (fun _ => 0)
          (fpgaBridgePut bridge : UseProgram Bridge Hw Target Unit) := by
        refine (update_takes _).noneBind fun _ => ?_
        refine (give_takes _).noneBind fun _ => ?_
        exact (give_takes _).noneBind fun _ => give_takes _
      refine puts.noneBind fun _ => ?_
      exact (update_takes _).noneBind fun _ => ih

theorem fpgaBridgesPut_takes :
    TakesAtMost (fun _ => 0)
      (fpgaBridgesPut : UseProgram Bridge Hw Target Unit) := by
  have reads : TakesAtMost (fun _ => 0)
      (read : UseProgram Bridge Hw Target (Programming Bridge Hw Target)) :=
    takesAtMost_silent fun _ => rfl
  exact reads.noneBind fun seen =>
    fpgaBridgesPutLoop_takes seen.region.bridgeList

theorem bridgeAction_takes (action : BridgeAction Bridge) :
    TakesAtMost action.asks
      (action.run : UseProgram Bridge Hw Target Unit) := by
  cases action with
  | getToList env bridge =>
      exact (fpgaBridgeGet_takes env bridge).bindNone fun _ =>
        update_takes _
  | putAll => exact fpgaBridgesPut_takes

theorem runActions_takes (actions : List (BridgeAction Bridge)) :
    TakesAtMost (asksOf actions)
      (runActions actions : UseProgram Bridge Hw Target Unit) := by
  induction actions with
  | nil => exact takesAtMost_silent fun _ => rfl
  | cons action rest ih =>
      exact (bridgeAction_takes action).attempt.bind fun _ => ih

theorem getBridgesStep_takes (steps : RegionSteps Bridge Hw Target) :
    TakesAtMost steps.asks (getBridgesStep steps) := by
  unfold getBridgesStep RegionSteps.asks
  cases steps.getBridges with
  | none => exact takesAtMost_silent fun _ => rfl
  | some getBridges =>
      exact (runActions_takes getBridges.actions).bindNone fun _ =>
        takesAtMost_silent fun _ => rfl

theorem putGotBridges_takes (steps : RegionSteps Bridge Hw Target) :
    TakesAtMost (fun _ => 0) (putGotBridges steps) := by
  unfold putGotBridges
  by_cases gets : steps.getBridges.isSome = true
  · rw [if_pos gets]
    exact fpgaBridgesPut_takes
  · rw [if_neg gets]
    exact takesAtMost_silent fun _ => rfl

theorem programLocked_takes (steps : RegionSteps Bridge Hw Target) :
    TakesAtMost steps.asks (programLocked steps) := by
  have programs : TakesAtMost (fun _ => 0) (programBridged steps) := by
    refine TakesAtMost.noneBind (takesAtMost_silent fun _ => rfl) fun _ => ?_
    refine TakesAtMost.noneBind (takesAtMost_silent fun _ => rfl) fun _ => ?_
    exact takesAtMost_silent fun _ => rfl
  exact (getBridgesStep_takes steps).bindNone fun _ =>
    programs.onFailure (putGotBridges_takes steps)

/-- `get_bridges` asks for nothing but what belongs to bridges. -/
theorem steps_asks_region (steps : RegionSteps Bridge Hw Target) :
    steps.asks .foundRegion = 0 ∧ steps.asks .regionMutex = 0 ∧
      steps.asks .regionDevice = 0 ∧ steps.asks .regionModule = 0 ∧
        steps.asks .mgrRefMutex = 0 := by
  have none : ∀ actions : List (BridgeAction Bridge),
      asksOf actions .foundRegion = 0 ∧ asksOf actions .regionMutex = 0 ∧
        asksOf actions .regionDevice = 0 ∧
          asksOf actions .regionModule = 0 ∧
            asksOf actions .mgrRefMutex = 0 := by
    intro actions
    induction actions with
    | nil => exact ⟨rfl, rfl, rfl, rfl, rfl⟩
    | cons action rest ih =>
        cases action <;>
          simpa only [asksOf, BridgeAction.asks, asksFor, Nat.zero_add]
            using ih
  unfold RegionSteps.asks
  cases steps.getBridges with
  | none => exact ⟨rfl, rfl, rfl, rfl, rfl⟩
  | some getBridges => exact none getBridges.actions

/-- What programming takes at most: the manager once, the bridges as asked. -/
theorem programHeld_takes
    (env : RegionEnv) (steps : RegionSteps Bridge Hw Target) :
    TakesAtMost
      (fun resource => more .mgrRefMutex (fun _ => 0) resource +
        steps.asks resource)
      (programHeld env steps) := by
  have locks : TakesAtMost (more .mgrRefMutex fun _ => 0)
      (fpgaMgrLock env.mgrTrylock :
        UseProgram Bridge Hw Target Unit) := by
    unfold fpgaMgrLock
    by_cases trylock : env.mgrTrylock = true
    · rw [if_pos trylock]
      exact take_takes _
    · rw [if_neg trylock]
      exact fail_takes _
  exact locks.bind fun _ => (programLocked_takes steps).ensure (give_takes _)

/-- The resources of the region, once each. -/
def asksRegion : Resource Bridge → Nat
  | .regionMutex => 1
  | .regionDevice => 1
  | .regionModule => 1
  | _ => 0

theorem fpgaRegionGet_takes (env : RegionEnv) :
    TakesAtMost asksRegion
      (fpgaRegionGet env : UseProgram Bridge Hw Target Unit) := by
  have bound : (asksRegion : Resource Bridge → Nat) =
      fun resource => more .regionMutex (fun _ => 0) resource +
        (more .regionDevice (fun _ => 0) resource +
          more .regionModule (fun _ => 0) resource) := by
    funext resource
    cases resource <;> rfl
  unfold fpgaRegionGet
  by_cases locks : env.trylock = true
  · simp only [locks, Bool.not_true, Bool.false_eq_true, if_false]
    rw [bound]
    refine (take_takes _).bind fun _ => (take_takes _).bind fun _ => ?_
    by_cases gets : env.tryModuleGet = true
    · simp only [gets, Bool.not_true, Bool.false_eq_true, if_false]
      exact take_takes _
    · simp only [gets, Bool.not_false, if_true]
      refine (give_takes _).noneBind fun _ => ?_
      exact (give_takes _).noneBind fun _ => fail_takes _
  · simp only [locks, Bool.not_false, if_true]
    exact fail_takes _

theorem fpgaRegionProgramFpga_takes
    (env : RegionEnv) (steps : RegionSteps Bridge Hw Target) :
    TakesAtMost
      (fun resource => asksRegion resource +
        (more .mgrRefMutex (fun _ => 0) resource + steps.asks resource))
      (fpgaRegionProgramFpga env steps) := by
  have puts : TakesAtMost (fun _ => 0)
      (fpgaRegionPut : UseProgram Bridge Hw Target Unit) := by
    refine (give_takes _).noneBind fun _ => ?_
    exact (give_takes _).noneBind fun _ => give_takes _
  exact (fpgaRegionGet_takes env).bind fun _ =>
    (programHeld_takes env steps).ensure puts

/-! ## What a run which succeeds has taken -/

/-- The resources have been taken. -/
def Took (resources : List (Resource Bridge)) :
    Assertion (Event Bridge) (Programming Bridge Hw Target) :=
  fun past _ => ∀ resource ∈ resources, (resource, Use.take) ∈ past

omit [DecidableEq Bridge] in
theorem took_kept (resources : List (Resource Bridge))
    (program : UseProgram Bridge Hw Target Unit) :
    Triple (Took resources) program (fun _ => Took resources)
      fun _ _ => True :=
  (Triple.extends fun _ _ took resource member =>
    List.mem_append_left _ (took resource member)).of_fails
      fun _ _ _ => trivial

omit [DecidableEq Bridge] in
/-- What has been taken stays so, whatever is done behind it. -/
theorem took_kept_failing (resources : List (Resource Bridge))
    (cleanup : UseProgram Bridge Hw Target Unit) :
    Triple (Took resources) cleanup (fun _ => Took resources)
      (Took resources) :=
  Triple.extends fun _ _ took resource member =>
    List.mem_append_left _ (took resource member)

omit [DecidableEq Bridge] in
theorem anything_kept (cleanup : UseProgram Bridge Hw Target Unit) :
    Triple (fun _ _ => True) cleanup (fun _ _ _ => True) fun _ _ => True :=
  Triple.extends fun _ _ => id

omit [DecidableEq Bridge] in
theorem took_update (resources : List (Resource Bridge))
    (change : Programming Bridge Hw Target → Programming Bridge Hw Target)
    {fails : Assertion (Event Bridge) (Programming Bridge Hw Target)} :
    Triple (Took resources) (update change : UseProgram Bridge Hw Target Unit)
      (fun _ => Took resources) fails :=
  Triple.update fun _ _ => id

theorem took_take (resources : List (Resource Bridge))
    (resource : Resource Bridge)
    {fails : Assertion (Event Bridge) (Programming Bridge Hw Target)} :
    Triple (Took resources) (take resource : UseProgram Bridge Hw Target Unit)
      (fun _ => Took (resource :: resources)) fails := by
  intro past state took
  show Took (resource :: resources) (past ++ [(resource, .take)]) _
  intro other member
  rcases List.mem_cons.mp member with same | earlier
  · rw [same]
    exact List.mem_append_right _ (List.mem_singleton.mpr rfl)
  · exact List.mem_append_left _ (took other earlier)

theorem fpgaRegionGet_took (env : RegionEnv)
    (resources : List (Resource Bridge)) :
    Triple (Took resources)
      (fpgaRegionGet env : UseProgram Bridge Hw Target Unit)
      (fun _ => Took
        (.regionModule :: .regionDevice :: .regionMutex :: resources))
      fun _ _ => True := by
  have fails (ret : Errno) (earlier later : List (Resource Bridge)) :
      Triple (Took earlier) (fail ret : UseProgram Bridge Hw Target Unit)
        (fun _ => Took later) fun _ _ => True :=
    Triple.fail fun _ _ _ => trivial
  unfold fpgaRegionGet
  by_cases locks : env.trylock = true
  · simp only [locks, Bool.not_true, Bool.false_eq_true, if_false]
    refine Triple.bind (took_take _ _) fun _ => ?_
    refine Triple.bind (took_take _ _) fun _ => ?_
    by_cases gets : env.tryModuleGet = true
    · simp only [gets, Bool.not_true, Bool.false_eq_true, if_false]
      exact took_take _ _
    · simp only [gets, Bool.not_false, if_true]
      refine Triple.bind (took_kept _ _) fun _ => ?_
      exact Triple.bind (took_kept _ _) fun _ => fails _ _ _
  · simp only [locks, Bool.not_false, if_true]
    exact fails _ _ _

/-- What belongs to a bridge. -/
def ofBridge (bridge : Bridge) : List (Resource Bridge) :=
  [.bridgeModule bridge, .bridgeMutex bridge, .bridgeDevice bridge]

/-- The bridge which is got by the action. -/
def BridgeAction.got : BridgeAction Bridge → List Bridge
  | .getToList env bridge =>
      if env.find && env.trylock && env.tryModuleGet then [bridge] else []
  | .putAll => []

/-- The bridges which `get_bridges` gets. -/
def RegionSteps.got (steps : RegionSteps Bridge Hw Target) : List Bridge :=
  match steps.getBridges with
  | some getBridges => getBridges.actions.flatMap BridgeAction.got
  | none => []

/-- What has been taken once the bridges have been got. -/
def tookBridges (bridges : List Bridge) (resources : List (Resource Bridge)) :
    List (Resource Bridge) :=
  bridges.flatMap ofBridge ++ resources

/-- An action takes what belongs to the bridge which it gets. -/
theorem bridgeAction_took (action : BridgeAction Bridge)
    (resources : List (Resource Bridge)) :
    Triple (Took resources)
      (action.run : UseProgram Bridge Hw Target Unit)
      (fun _ => Took (tookBridges action.got resources))
      (Took (tookBridges action.got resources)) := by
  have kept : Triple (Took resources)
      (action.run : UseProgram Bridge Hw Target Unit)
      (fun _ => Took resources) (Took resources) := took_kept_failing _ _
  cases action with
  | putAll => exact kept
  | getToList env bridge =>
      obtain ⟨find, trylock, tryModuleGet⟩ := env
      cases find
      case false => exact kept
      cases trylock
      case false => exact kept
      cases tryModuleGet
      case false => exact kept
      have gets : Triple (Took resources)
          (fpgaBridgeGet ⟨true, true, true⟩ bridge :
            UseProgram Bridge Hw Target Unit)
          (fun _ => Took (tookBridges [bridge] resources))
          (Took (tookBridges [bridge] resources)) := by
        refine Triple.bind (took_take _ _) fun _ => ?_
        refine Triple.anyState fun seen => ?_
        refine Triple.bind (took_update _ _) fun _ => ?_
        exact Triple.bind (took_take _ _) fun _ => took_take _ _
      exact Triple.bind gets fun _ => took_update _ _

theorem runActions_took (actions : List (BridgeAction Bridge))
    (resources : List (Resource Bridge)) :
    Triple (Took resources)
      (runActions actions : UseProgram Bridge Hw Target Unit)
      (fun _ => Took (tookBridges (actions.flatMap BridgeAction.got) resources))
      fun _ _ => True := by
  induction actions generalizing resources with
  | nil => exact Triple.ret fun _ _ => id
  | cons action rest ih =>
      refine Triple.bind (bridgeAction_took action resources).attempt
        fun _ => ?_
      refine (ih _).mono (fun _ _ => id) ?_ fun _ _ => id
      intro _ past state took resource member
      refine took resource ?_
      simp only [tookBridges, List.flatMap_cons, List.flatMap_append,
        List.mem_append] at member ⊢
      tauto

theorem getBridgesStep_took (steps : RegionSteps Bridge Hw Target)
    (resources : List (Resource Bridge)) :
    Triple (Took resources) (getBridgesStep steps)
      (fun _ => Took (tookBridges steps.got resources)) fun _ _ => True := by
  unfold getBridgesStep RegionSteps.got
  cases steps.getBridges with
  | none => exact took_kept _ _
  | some getBridges =>
      exact Triple.bind (runActions_took getBridges.actions resources)
        fun _ => took_kept _ _

/-- Programming which succeeds has taken the manager and the bridges. -/
theorem programHeld_took (env : RegionEnv)
    (steps : RegionSteps Bridge Hw Target)
    (resources : List (Resource Bridge)) :
    Triple (Took resources) (programHeld env steps)
      (fun _ => Took (tookBridges steps.got (.mgrRefMutex :: resources)))
      fun _ _ => True := by
  unfold programHeld fpgaMgrLock
  by_cases locks : env.mgrTrylock = true
  · rw [if_pos locks]
    refine Triple.bind (took_take _ _) fun _ => ?_
    refine Triple.ensure ?_ (fun _ => took_kept_failing _ _)
      (anything_kept _)
    refine Triple.bind (getBridgesStep_took steps _) fun _ => ?_
    exact took_kept _ _
  · rw [if_neg locks]
    have refused :
        Triple (Took resources)
          (fail .ebusy : UseProgram Bridge Hw Target Unit)
          (fun _ _ _ => False) fun _ _ => True :=
      Triple.fail fun _ _ _ => trivial
    exact Triple.bind refused fun _ _ _ absurd => absurd.elim

end LinuxDfl.Fpga.Uses

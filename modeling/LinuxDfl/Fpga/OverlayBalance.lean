import LinuxDfl.Fpga.OfRegion
import LinuxDfl.Lib.Transition

/-!
# What overlays hold

While an overlay with an image is applied, its image info and its bridges are
held, and nothing is held otherwise.  Two kinds of notifications break this:
one which cannot copy the name of the firmware, and the removal of an overlay
without an image while another has the region.
-/

namespace LinuxDfl.Fpga.OfRegion

open LinuxDfl.Kernel
open LinuxDfl.Lib.Transition

variable {Node Hw Target : Type} [DecidableEq Node]

/-! ## Bridges -/

/-- The region holds the bridges of its list, once each, and no others. -/
structure HoldsListed (state : Programming Node Hw Target) : Prop where
  nodup : state.region.bridgeList.Nodup
  held : ∀ np, (state.bridges np).held =
    if np ∈ state.region.bridgeList then ⟨1, 1, 1⟩ else ⟨0, 0, 0⟩

/-- What is held depends on the list and the bridges only. -/
theorem HoldsListed.congr {state other : Programming Node Hw Target}
    (holds : HoldsListed state)
    (list : other.region.bridgeList = state.region.bridgeList)
    (bridges : ∀ np, (other.bridges np).held = (state.bridges np).held) :
    HoldsListed other where
  nodup := by
    rw [list]
    exact holds.nodup
  held np := by
    rw [bridges, list]
    exact holds.held np

/-- A request for a bridge which is not held changes nothing if it fails. -/
theorem fpgaBridgeGet_held (env : BridgeGetEnv) (info : Option FpgaImageInfo)
    (bridge : FpgaBridge) :
    (fpgaBridgeGet env info bridge).2.held =
      if grants env then bridge.held.getDevice.lock.getModule
      else bridge.held := by
  obtain ⟨find, trylock, tryModuleGet⟩ := env
  cases find <;> cases trylock <;> cases tryModuleGet <;>
    simp [fpgaBridgeGet, fpgaBridgeGetLocked, grants, Holds.getDevice,
      Holds.putDevice, Holds.lock, Holds.unlock]

theorem fpgaBridgeGet_isOk (env : BridgeGetEnv)
    (info : Option FpgaImageInfo) (bridge : FpgaBridge) :
    (fpgaBridgeGet env info bridge).1 = none ↔ grants env = true := by
  rw [fpgaBridgeGet_succeeds_iff, grants, Bool.and_eq_true,
    Bool.and_eq_true, and_assoc]

theorem fpgaBridgeGet_isBusy (env : BridgeGetEnv)
    (info : Option FpgaImageInfo) (bridge : FpgaBridge)
    (found : env.find = true) (locked : env.trylock = false) :
    (fpgaBridgeGet env info bridge).1 = some .ebusy := by
  simp [fpgaBridgeGet, fpgaBridgeGetLocked, found, locked]

theorem fpgaBridgeGet_info (env : BridgeGetEnv) (info : Option FpgaImageInfo)
    (bridge : FpgaBridge) :
    (fpgaBridgeGet env info bridge).2.info = bridge.info ∨
      (fpgaBridgeGet env info bridge).2.info = info := by
  obtain ⟨find, trylock, tryModuleGet⟩ := env
  cases find <;> cases trylock <;> cases tryModuleGet <;>
    simp [fpgaBridgeGet, fpgaBridgeGetLocked]

/--
Each bridge has the image info which it had, or none since it was put, or that
of the region: also if it was in use by others.
-/
def InfosFrom (state last : Programming Node Hw Target) : Prop :=
  ∀ np, (last.bridges np).info = (state.bridges np).info ∨
    (last.bridges np).info = none ∨
      (last.bridges np).info = state.region.info

omit [DecidableEq Node] in
theorem InfosFrom.of_eq {state last : Programming Node Hw Target}
    (bridges : last.bridges = state.bridges) : InfosFrom state last :=
  fun np => .inl (by rw [bridges])

omit [DecidableEq Node] in
theorem InfosFrom.trans {state middle last : Programming Node Hw Target}
    (start : InfosFrom state middle)
    (info : middle.region.info = state.region.info)
    (rest : InfosFrom middle last) : InfosFrom state last := by
  intro np
  rcases rest np with same | put | asked
  · rw [same]
    exact start np
  · exact .inr (.inl put)
  · exact .inr (.inr (asked.trans info))

/-- A bridge which is asked for has its own info or that of the region. -/
theorem infosFrom_update {state last : Programming Node Hw Target}
    {np : Node} {bridge : FpgaBridge}
    (bridges : last.bridges = Function.update state.bridges np bridge)
    (asked : bridge.info = (state.bridges np).info ∨
      bridge.info = state.region.info) : InfosFrom state last := by
  intro other
  rw [bridges]
  by_cases same : other = np
  · subst same
    rw [Function.update_self]
    exact asked.imp_right .inr
  · rw [Function.update_of_ne same]
    exact .inl rfl

/-- What a request of a region leaves. -/
structure Requested (state last : Programming Node Hw Target)
    (got : List Node) : Prop where
  infos : InfosFrom state last
  info : last.region.info = state.region.info
  list : last.region.bridgeList = got.reverse ++ state.region.bridgeList
  holds : HoldsListed last

theorem Requested.trans {state middle last : Programming Node Hw Target}
    {first second : List Node} (start : Requested state middle first)
    (rest : Requested middle last second) :
    Requested state last (first ++ second) where
  infos := start.infos.trans start.info rest.infos
  info := rest.info.trans start.info
  list := by rw [rest.list, start.list, List.reverse_append, List.append_assoc]
  holds := rest.holds

/-- What a request does to the bridges, whatever it returns. -/
theorem HoldsListed.update {state : Programming Node Hw Target}
    (holds : HoldsListed state) {np : Node} {bridge : FpgaBridge}
    (kept : bridge.held = (state.bridges np).held) :
    HoldsListed
      { state with bridges := Function.update state.bridges np bridge } :=
  holds.congr rfl fun other => by
    show (Function.update state.bridges np bridge other).held = _
    by_cases same : other = np
    · subst same
      rw [Function.update_self, kept]
    · rw [Function.update_of_ne same]

/-- A bridge which was not held is added to the list. -/
theorem HoldsListed.add {state : Programming Node Hw Target}
    (holds : HoldsListed state) {np : Node} {bridge : FpgaBridge}
    (free : (state.bridges np).held.mutex = 0)
    (got : bridge.held = (state.bridges np).held.getDevice.lock.getModule) :
    HoldsListed
      { state with
        bridges := Function.update state.bridges np bridge
        region := { state.region with
          bridgeList := np :: state.region.bridgeList } } := by
  have notHeld : np ∉ state.region.bridgeList := by
    intro member
    rw [holds.held, if_pos member] at free
    exact absurd free (by decide)
  refine ⟨List.nodup_cons.mpr ⟨notHeld, holds.nodup⟩, fun other => ?_⟩
  show (Function.update state.bridges np bridge other).held =
    if other ∈ np :: state.region.bridgeList then _ else _
  by_cases same : other = np
  · subst same
    rw [Function.update_self, got, holds.held, if_neg notHeld,
      if_pos List.mem_cons_self]
    rfl
  · rw [Function.update_of_ne same, holds.held]
    simp only [List.mem_cons, same, false_or]

/-- A bridge is got, or the request for it has changed nothing held. -/
theorem ofFpgaBridgeGetToList_spec (env : BridgeGetEnv) (np : Node)
    {state : Programming Node Hw Target} (holds : HoldsListed state) :
    (∀ last, ofFpgaBridgeGetToList env np state = (none, last) →
      grants env = true ∧ Requested state last [np]) ∧
    ∀ ret last, ofFpgaBridgeGetToList env np state = (some ret, last) →
      Requested state last [] ∧ (ret ≠ .ebusy → grants env = false) := by
  rw [ofFpgaBridgeGetToList]
  dsimp only
  generalize isFree : decide ((state.bridges np).held.mutex = 0) = free
  generalize isTried :
    ({ env with trylock := env.trylock && free } : BridgeGetEnv) = tried
  have held :=
    fpgaBridgeGet_held tried state.region.info (state.bridges np)
  have asked :=
    fpgaBridgeGet_info tried state.region.info (state.bridges np)
  have isOk :=
    fpgaBridgeGet_isOk tried state.region.info (state.bridges np)
  have isBusy :=
    fpgaBridgeGet_isBusy tried state.region.info (state.bridges np)
  have granted_iff :
      grants tried = true ↔ grants env = true ∧ free = true := by
    subst isTried
    simp only [grants, Bool.and_eq_true]
    tauto
  rcases got : fpgaBridgeGet tried state.region.info (state.bridges np)
    with ⟨_ | error, bridge⟩
  · rw [got] at held isOk asked
    have granted := isOk.mp rfl
    rw [if_pos granted] at held
    obtain ⟨granted, rfl⟩ := granted_iff.mp granted
    refine ⟨fun last run => ?_, fun ret last run => ?_⟩
    · obtain ⟨-, rfl⟩ := Prod.mk.inj run
      exact ⟨granted, infosFrom_update rfl asked, rfl, rfl,
        holds.add (of_decide_eq_true isFree) held⟩
    · exact nomatch (Prod.mk.inj run).1
  · rw [got] at held isOk isBusy asked
    have refused : ¬ grants tried = true :=
      fun granted => nomatch isOk.mpr granted
    rw [if_neg refused] at held
    refine ⟨fun last run => (nomatch (Prod.mk.inj run).1),
      fun ret last run => ?_⟩
    obtain ⟨same, rfl⟩ := Prod.mk.inj run
    obtain rfl := Option.some.inj same
    refine ⟨⟨infosFrom_update rfl asked, rfl, rfl, holds.update held⟩,
      fun other => ?_⟩
    -- only a bridge which the region has already is granted and refused
    by_contra granted
    have granted : grants env = true := Bool.eq_true_of_not_eq_false granted
    have isHeld : free = false :=
      Bool.eq_false_iff.mpr fun isFree =>
        refused (granted_iff.mpr ⟨granted, isFree⟩)
    have found : tried.find = true := by
      simp only [grants, Bool.and_eq_true] at granted
      rw [← isTried]
      exact granted.1.1
    have locked : tried.trylock = false := by
      rw [← isTried, isHeld, Bool.and_false]
    have busy := isBusy found locked
    exact other (Option.some.inj busy)

/-- The bridges of a list are put: they are not held any more. -/
theorem fpgaBridgesPut_held (list : List Node) (nodup : list.Nodup)
    (bridges : Node → FpgaBridge) (np : Node) :
    (fpgaBridgesPut list bridges np).held =
      if np ∈ list then (bridges np).held.modulePut.unlock.putDevice
      else (bridges np).held := by
  induction list generalizing bridges with
  | nil => rfl
  | cons bridge rest ih =>
      obtain ⟨notIn, nodup⟩ := List.nodup_cons.mp nodup
      rw [fpgaBridgesPut, ih nodup]
      by_cases same : np = bridge
      · subst same
        rw [if_neg notIn, if_pos rfl, if_pos List.mem_cons_self]
        rfl
      · rw [if_neg same]
        simp only [List.mem_cons, same, false_or]

/-- A bridge which is put has no info any more. -/
theorem fpgaBridgesPut_info (list : List Node) (bridges : Node → FpgaBridge)
    (np : Node) :
    (fpgaBridgesPut list bridges np).info = (bridges np).info ∨
      (fpgaBridgesPut list bridges np).info = none := by
  induction list generalizing bridges with
  | nil => exact .inl rfl
  | cons bridge rest ih =>
      rw [fpgaBridgesPut]
      refine (ih _).elim (fun kept => ?_) .inr
      rw [kept]
      by_cases same : np = bridge
      · rw [if_pos same]
        exact .inr rfl
      · rw [if_neg same]
        exact .inl rfl

theorem InfosFrom.put {state last : Programming Node Hw Target}
    (start : InfosFrom state last) : InfosFrom state last.putBridges := by
  intro np
  rcases fpgaBridgesPut_info last.region.bridgeList last.bridges np with
    kept | put
  · have same : (last.putBridges.bridges np).info = (last.bridges np).info :=
      kept
    rw [same]
    exact start np
  · exact .inr (.inl put)

/-- Nothing is held after the bridges have been put. -/
theorem HoldsListed.putBridges {state : Programming Node Hw Target}
    (holds : HoldsListed state) : HoldsListed state.putBridges where
  nodup := List.nodup_nil
  held np := by
    show (fpgaBridgesPut state.region.bridgeList state.bridges np).held = _
    rw [fpgaBridgesPut_held _ holds.nodup, holds.held]
    by_cases member : np ∈ state.region.bridgeList
    · rw [if_pos member, if_pos member]
      rfl
    · rw [if_neg member, if_neg member]
      rfl

/-- What a failed request for all bridges leaves. -/
structure Released (state last : Programming Node Hw Target) : Prop where
  infos : InfosFrom state last
  info : last.region.info = state.region.info
  list : last.region.bridgeList = []
  holds : HoldsListed last

theorem Requested.released {state middle last : Programming Node Hw Target}
    {got : List Node} (start : Requested state middle got)
    (rest : Released middle last) : Released state last where
  infos := start.infos.trans start.info rest.infos
  info := rest.info.trans start.info
  list := rest.list
  holds := rest.holds

theorem Requested.put {state last : Programming Node Hw Target}
    {got : List Node} (start : Requested state last got) :
    Released state last.putBridges where
  infos := start.infos.put
  info := start.info
  list := rfl
  holds := start.holds.putBridges

theorem grantedFrom_cons (env : Nat → BridgeGetEnv) (parentBr : Option Node)
    (i : Nat) (br : Node) (rest : List Node) :
    grantedFrom env parentBr i (br :: rest) =
      (if parentBr ≠ some br ∧ grants (env i) = true then [br] else []) ++
        grantedFrom env parentBr (i + 1) rest := by
  rw [grantedFrom, grantedFrom, List.zipIdx_cons, List.filter_cons]
  by_cases wanted : parentBr ≠ some br ∧ grants (env i) = true
  · rw [if_pos wanted, if_pos (by simpa using wanted)]
    rfl
  · rw [if_neg wanted, if_neg (by simpa using wanted)]
    rfl

/-- The loop goes on behind a bridge which cannot be had and is not in use. -/
theorem getListed_of_skipped {env : Nat → BridgeGetEnv}
    {parentBr : Option Node} {br : Node} {rest : List Node} {i : Nat}
    {state next : Programming Node Hw Target} {ret : Errno}
    (other : parentBr ≠ some br)
    (got : ofFpgaBridgeGetToList (env i) br state = (some ret, next))
    (notBusy : ret ≠ .ebusy) :
    getListed env parentBr i (br :: rest) state =
      getListed env parentBr (i + 1) rest next := by
  rw [getListed, if_neg other, got]
  cases ret <;> first | rfl | exact absurd rfl notBusy

/-- The loop gets what it can have of the list, or gives everything back. -/
theorem getListed_spec (env : Nat → BridgeGetEnv) (parentBr : Option Node)
    (list : List Node) (i : Nat) (state : Programming Node Hw Target)
    (holds : HoldsListed state) :
    (∀ last, getListed env parentBr i list state = (none, last) →
      Requested state last (grantedFrom env parentBr i list)) ∧
    ∀ ret last, getListed env parentBr i list state = (some ret, last) →
      Released state last := by
  induction list generalizing i state with
  | nil =>
      constructor
      · intro last run
        cases run
        exact ⟨.of_eq rfl, rfl, rfl, holds⟩
      · intro ret last run
        cases run
  | cons br rest ih =>
      rw [grantedFrom_cons]
      by_cases isParent : parentBr = some br
      · rw [getListed, if_pos isParent,
          if_neg (fun wanted => wanted.1 isParent)]
        exact ih (i + 1) state holds
      have spec := ofFpgaBridgeGetToList_spec (env i) br holds
      rcases got : ofFpgaBridgeGetToList (env i) br state with ⟨_ | ret, next⟩
      · -- the bridge is added to the list
        obtain ⟨granted, added⟩ := spec.1 next got
        rw [getListed, if_neg isParent, got, if_pos ⟨isParent, granted⟩]
        obtain ⟨ok, failed⟩ := ih (i + 1) next added.holds
        exact ⟨fun last run => added.trans (ok last run),
          fun ret last run => added.released (failed ret last run)⟩
      · obtain ⟨kept, refused⟩ := spec.2 ret next got
        by_cases busy : ret = .ebusy
        · -- a bridge in use ends the loop
          subst busy
          rw [getListed, if_neg isParent, got]
          constructor
          · intro last run
            cases run
          · intro ret last run
            cases run
            exact kept.put
        · have skipped := refused busy
          rw [getListed_of_skipped isParent got busy,
            if_neg (by simp [skipped])]
          obtain ⟨ok, failed⟩ := ih (i + 1) next kept.holds
          constructor
          · intro last run
            exact kept.trans (ok last run)
          · intro again last run
            exact kept.released (failed again last run)

theorem ofFpgaRegionGetBridges_spec (site : Site Node)
    (overlay : Overlay Node) (env : BridgesEnv)
    {state : Programming Node Hw Target} (holds : HoldsListed state)
    (empty : state.region.bridgeList = []) :
    (∀ last, ofFpgaRegionGetBridges site overlay env state = (none, last) →
      Requested state last (bridgesFor site overlay env)) ∧
    ∀ ret last,
      ofFpgaRegionGetBridges site overlay env state = (some ret, last) →
        Released state last := by
  have spec := ofFpgaBridgeGetToList_spec env.parent site.parent holds
  rw [ofFpgaRegionGetBridges, bridgesFor]
  rcases got : ofFpgaBridgeGetToList env.parent site.parent state
    with ⟨_ | ret, next⟩
  · obtain ⟨granted, added⟩ := spec.1 next got
    rw [if_pos granted]
    obtain ⟨ok, failed⟩ :=
      getListed_spec env.listed (some site.parent) (site.listFor overlay) 0
        next added.holds
    exact ⟨fun last run => added.trans (ok last run),
      fun ret last run => added.released (failed ret last run)⟩
  · obtain ⟨kept, refused⟩ := spec.2 ret next got
    by_cases busy : ret = .ebusy
    · subst busy
      constructor
      · intro last run
        cases run
      · intro ret last run
        cases run
        exact ⟨kept.infos, kept.info, kept.list.trans empty, kept.holds⟩
    · rw [refused busy, if_neg Bool.false_ne_true]
      obtain ⟨ok, failed⟩ :=
        getListed_spec env.listed none (site.listFor overlay) 0 next kept.holds
      cases ret
      case ebusy => exact absurd rfl busy
      all_goals
        exact ⟨fun last run => kept.trans (ok last run),
          fun ret last run => kept.released (failed ret last run)⟩

/-! ## Programming -/

/-- What is held, and for which image info, is as it was. -/
structure SameHolds (state last : Programming Node Hw Target) : Prop where
  list : last.region.bridgeList = state.region.bridgeList
  bridges : last.bridges = state.bridges
  ident : last.region.info.map FpgaImageInfo.ident =
    state.region.info.map FpgaImageInfo.ident

omit [DecidableEq Node] in
theorem SameHolds.trans {state middle last : Programming Node Hw Target}
    (start : SameHolds state middle) (rest : SameHolds middle last) :
    SameHolds state last where
  list := rest.list.trans start.list
  bridges := rest.bridges.trans start.bridges
  ident := rest.ident.trans start.ident

theorem SameHolds.holdsListed {state last : Programming Node Hw Target}
    (same : SameHolds state last) (holds : HoldsListed state) :
    HoldsListed last :=
  holds.congr same.list fun np => by rw [same.bridges]

omit [DecidableEq Node] in
theorem SameHolds.andThen {state : Programming Node Hw Target}
    {result : Option Errno × Programming Node Hw Target}
    {next : ProgramStep Node Hw Target} (first : SameHolds state result.2)
    (rest : ∀ middle, SameHolds middle (next middle).2) :
    SameHolds state (Fpga.andThen result next).2 := by
  rcases result with ⟨_ | ret, middle⟩
  · exact first.trans (rest middle)
  · exact first

omit [DecidableEq Node] in
theorem release_sameHolds (state : Programming Node Hw Target) :
    SameHolds state state.release :=
  ⟨rfl, rfl, rfl⟩

theorem programBridged_sameHolds (site : Site Node) (overlay : Overlay Node)
    (env : PreApplyEnv Node Hw Target) (state : Programming Node Hw Target) :
    SameHolds state
      (programBridged (overlayOps site overlay env) state).2 := by
  have set (enable : Bool) (state : Programming Node Hw Target) :
      SameHolds state
        ((overlayOps site overlay env).setStep enable state).2 :=
    ⟨rfl, rfl, rfl⟩
  have load (state : Programming Node Hw Target) :
      SameHolds state ((overlayOps site overlay env).loadStep state).2 := by
    refine ⟨rfl, rfl, ?_⟩
    rw [RegionOps.loadStep]
    cases state.region.info <;> rfl
  exact ((set false state).andThen load).andThen (set true)

/-- What programming a region for an overlay leaves. -/
theorem fpgaRegionProgramFpga_spec (site : Site Node)
    (overlay : Overlay Node) (env : PreApplyEnv Node Hw Target)
    {state : Programming Node Hw Target} (holds : HoldsListed state)
    (empty : state.region.bridgeList = []) :
    let programmed :=
      fpgaRegionProgramFpga env.region (overlayOps site overlay env) state
    HoldsListed programmed.2 ∧ InfosFrom state programmed.2 ∧
      (programmed.1 = none →
        programmed.2.region.bridgeList =
            (bridgesFor site overlay env.bridges).reverse ∧
          programmed.2.region.info.map FpgaImageInfo.ident =
            state.region.info.map FpgaImageInfo.ident) ∧
      (programmed.1 ≠ none → programmed.2.region.bridgeList = []) := by
  have keptRegion := fpgaRegionGet_bridgeList env.region state.region
  have keptInfo := fpgaRegionGet_info env.region state.region
  rw [fpgaRegionProgramFpga]
  rcases gotRegion : fpgaRegionGet env.region state.region
    with ⟨_ | ret, region⟩ <;> rw [gotRegion] at keptRegion keptInfo
  case some =>
    exact ⟨holds.congr keptRegion fun _ => rfl, .of_eq rfl,
      (fun ok => by cases ok), fun _ => keptRegion.trans empty⟩
  rcases fpgaMgrLock env.region.mgrTrylock state.mgr with ⟨_ | ret, mgr⟩
  case some =>
    exact ⟨holds.congr keptRegion fun _ => rfl, .of_eq rfl,
      (fun ok => by cases ok), fun _ => keptRegion.trans empty⟩
  let taken : Programming Node Hw Target :=
    { state with mgr := mgr, region := region }
  have takenHolds : HoldsListed taken := holds.congr keptRegion fun _ => rfl
  have fromTaken {ready done : Programming Node Hw Target}
      (start : InfosFrom taken ready) (bridges : done.bridges = ready.bridges) :
      InfosFrom state done := by
    intro np
    rw [bridges]
    exact (start np).imp_right (Or.imp_right fun asked =>
      asked.trans keptInfo)
  have collect := ofFpgaRegionGetBridges_spec site overlay env.bridges
    takenHolds (keptRegion.trans empty)
  dsimp only
  rcases got : (overlayOps site overlay env).getBridgesStep
      { state with mgr := mgr, region := region }
    with ⟨_ | ret, ready⟩
  · have requested := collect.1 ready got
    have list := requested.list.trans
      (congrArg _ (keptRegion.trans empty)) |>.trans (List.append_nil _)
    have same := programBridged_sameHolds site overlay env ready
    dsimp only
    rcases bridged : programBridged (overlayOps site overlay env) ready
      with ⟨_ | ret, done⟩ <;> rw [bridged] at same
    · refine ⟨(release_sameHolds done).holdsListed
          (same.holdsListed requested.holds),
        fromTaken requested.infos same.bridges,
        fun _ => ⟨?_, ?_⟩, fun failed => absurd rfl failed⟩
      · exact same.list.trans list
      · refine same.ident.trans ?_
        rw [requested.info, ← keptInfo]
    · exact ⟨(release_sameHolds done.putBridges).holdsListed
          (same.holdsListed requested.holds).putBridges,
        (fromTaken requested.infos same.bridges).put,
        (fun ok => by cases ok), fun _ => rfl⟩
  · have released := collect.2 ret ready got
    exact ⟨(release_sameHolds ready).holdsListed released.holds,
      fromTaken released.infos rfl, (fun ok => by cases ok),
      fun _ => released.list⟩

/-! ## One notification -/

/-- The current image info, by its number. -/
def State.current (state : State Node Hw Target) : Option Nat :=
  state.info.map FpgaImageInfo.ident

omit [DecidableEq Node] in
theorem State.current_eq_none {state : State Node Hw Target}
    (info : state.info = none) : state.current = none := by
  rw [State.current, info]
  rfl

/-- What a notification leaves to be balanced. -/
structure Became (last : State Node Hw Target) (current : Option Nat)
    (allocs : Nat) (frees : List Nat) (list : List Node) : Prop where
  current : last.current = current
  allocs : last.allocs = allocs
  frees : last.frees = frees
  list : last.programming.region.bridgeList = list
  holds : HoldsListed last.programming

/-- Nothing is in the list while no image is programmed. -/
structure Consistent (state : State Node Hw Target) : Prop where
  holds : HoldsListed state.programming
  empty : state.info = none → state.programming.region.bridgeList = []

/-- The name of the firmware is there, and cannot be copied. -/
structure Leaks (overlay : Overlay Node)
    (env : PreApplyEnv Node Hw Target) (state : State Node Hw Target) :
    Prop where
  info : state.info = none
  children : childRegionsWithFirmware overlay = none
  alloc : env.alloc = true
  hasImage : overlay.hasImage = true
  kstrdup : env.kstrdup = false

/--
A bridge has the info which it had, or none since it was put; or it was in use
by others, and is left with the info of the overlay, which has been freed.
-/
def InfosLeft (state last : State Node Hw Target) : Prop :=
  ∀ np, (last.programming.bridges np).info =
      (state.programming.bridges np).info ∨
    (last.programming.bridges np).info = none ∨
      (last.programming.bridges np).info.map FpgaImageInfo.ident =
          some state.allocs ∧
        state.allocs ∈ last.frees

/-- What may come of a notification before an overlay is applied. -/
inductive PreApplied (site : Site Node) (overlay : Overlay Node)
    (env : PreApplyEnv Node Hw Target) (state : State Node Hw Target) :
    Option Errno × State Node Hw Target → Prop where
  | untouched (ret : Errno) (last : State Node Hw Target)
      (sound : ¬ Leaks overlay env state) (info : last.info = state.info)
      (applied : last.applied = state.applied) (infos : InfosLeft state last)
      (became : Became last state.current state.allocs state.frees
        state.programming.region.bridgeList) :
      PreApplied site overlay env state (some ret, last)
  | leaked (ret : Errno) (last : State Node Hw Target)
      (leaks : Leaks overlay env state)
      (applied : last.applied = state.applied) (infos : InfosLeft state last)
      (became : Became last none (state.allocs + 1) state.frees []) :
      PreApplied site overlay env state (some ret, last)
  | freed (ret : Errno) (last : State Node Hw Target)
      (sound : ¬ Leaks overlay env state) (info : state.info = none)
      (applied : last.applied = state.applied) (infos : InfosLeft state last)
      (became : Became last none (state.allocs + 1)
        (state.allocs :: state.frees) []) :
      PreApplied site overlay env state (some ret, last)
  | withoutImage (last : State Node Hw Target)
      (noImage : overlay.hasImage = false) (info : state.info = none)
      (applied : last.applied = state.applied)
      (became : Became last none (state.allocs + 1)
        (state.allocs :: state.frees) []) :
      PreApplied site overlay env state (none, last)
  | programmed (last : State Node Hw Target)
      (sound : ¬ Leaks overlay env state)
      (hasImage : overlay.hasImage = true) (info : state.info = none)
      (applied : last.applied = state.applied)
      (became : Became last (some state.allocs) (state.allocs + 1)
        state.frees (bridgesFor site overlay env.bridges).reverse) :
      PreApplied site overlay env state (none, last)

/-- The region with one more image info. -/
def State.allocated (state : State Node Hw Target) : State Node Hw Target :=
  (fpgaImageInfoAlloc true state).2

omit [DecidableEq Node] in
/-- What comes of an overlay once there is an image info for it. -/
theorem ofFpgaRegionParseOv_of_alloc {overlay : Overlay Node}
    {state : State Node Hw Target} (info : state.info = none)
    (children : childRegionsWithFirmware overlay = none) (kstrdup : Bool) :
    ofFpgaRegionParseOv overlay true kstrdup state =
      if overlay.hasImage = false then
        (.ok none, fpgaImageInfoFree (some state.allocs) state.allocated)
      else if kstrdup = false then
        (.error .enomem, state.allocated)
      else if overlay.externalFpgaConfig = true then
        (.error .einval,
          fpgaImageInfoFree (some state.allocs) state.allocated)
      else
        (.ok (some (readOverlay state.allocs overlay)), state.allocated) := by
  have hasImage : overlay.hasImage = overlay.firmwareName.isSome := rfl
  have named : (readOverlay state.allocs overlay).firmwareName =
    overlay.firmwareName := rfl
  have external : (readOverlay state.allocs overlay).externalConfig =
    overlay.externalFpgaConfig := rfl
  have alloc : fpgaImageInfoAlloc true state =
    (some state.allocs, state.allocated) := rfl
  rw [ofFpgaRegionParseOv, info, children, hasImage, alloc]
  dsimp only
  rw [named, external]
  cases overlay.firmwareName <;> cases kstrdup <;> rfl

theorem ofFpgaRegionNotifyPreApply_cases (site : Site Node)
    (overlay : Overlay Node) (env : PreApplyEnv Node Hw Target)
    {state : State Node Hw Target} (consistent : Consistent state) :
    PreApplied site overlay env state
      (ofFpgaRegionNotifyPreApply site overlay env state) := by
  have untouched (last : State Node Hw Target)
      (bridges : last.programming.bridges = state.programming.bridges) :
      InfosLeft state last := fun np => .inl (by rw [bridges])
  rw [ofFpgaRegionNotifyPreApply]
  cases info : state.info with
  | some current =>
      rw [ofFpgaRegionParseOv, info]
      exact .untouched _ _ (fun leaks => nomatch info.symm.trans leaks.info)
        rfl rfl (untouched _ rfl) ⟨rfl, rfl, rfl, rfl, consistent.holds⟩
  | none =>
  have empty := consistent.empty info
  have noCurrent : state.current = none := State.current_eq_none info
  have kept : HoldsListed state.allocated.programming :=
    consistent.holds.congr rfl fun _ => rfl
  have given : Became (fpgaImageInfoFree (some state.allocs) state.allocated)
      none (state.allocs + 1) (state.allocs :: state.frees) [] :=
    ⟨noCurrent, rfl, rfl, empty, consistent.holds.congr rfl fun _ => rfl⟩
  cases children : childRegionsWithFirmware overlay with
  | some ret =>
      rw [ofFpgaRegionParseOv, info, children]
      exact .untouched _ _
        (fun leaks => nomatch children.symm.trans leaks.children) rfl rfl
        (untouched _ rfl) ⟨rfl, rfl, rfl, rfl, consistent.holds⟩
  | none =>
  cases alloc : env.alloc with
  | false =>
      rw [ofFpgaRegionParseOv, info, children]
      exact .untouched _ _ (fun leaks => nomatch alloc.symm.trans leaks.alloc)
        rfl rfl (untouched _ rfl)
        ⟨rfl, rfl, rfl, rfl, consistent.holds.congr rfl fun _ => rfl⟩
  | true =>
  rw [ofFpgaRegionParseOv_of_alloc info children]
  cases hasImage : overlay.hasImage with
  | false => exact .withoutImage _ hasImage info rfl given
  | true =>
  cases kstrdup : env.kstrdup with
  | false =>
      exact .leaked _ _ ⟨info, children, alloc, hasImage, kstrdup⟩ rfl
        (untouched _ rfl) ⟨noCurrent, rfl, rfl, empty, kept⟩
  | true =>
  have sound : ¬ Leaks overlay env state :=
    fun leaks => nomatch kstrdup.symm.trans leaks.kstrdup
  cases external : overlay.externalFpgaConfig with
  | true => exact .freed _ _ sound info rfl (untouched _ rfl) given
  | false =>
  -- the region is programmed with the image info
  have notYet : state.allocated.info = none := info
  let asked := withInfo state.allocated.programming
    (some (readOverlay state.allocs overlay).info)
  have askedHolds : HoldsListed asked := kept.congr rfl fun _ => rfl
  have spec := fpgaRegionProgramFpga_spec site overlay env askedHolds empty
  simp only [Bool.true_eq_false, Bool.false_eq_true, if_false, notYet,
    Option.isSome_none]
  change PreApplied site overlay env state
    (finishPreApply state.allocs state.allocated
      (fpgaRegionProgramFpga env.region (overlayOps site overlay env) asked))
  dsimp only at spec
  generalize fpgaRegionProgramFpga env.region (overlayOps site overlay env)
    asked = programmed at spec ⊢
  obtain ⟨_ | ret, programming⟩ := programmed
  · obtain ⟨holds, -, ok, -⟩ := spec
    obtain ⟨list, ident⟩ := ok rfl
    exact .programmed _ sound hasImage info rfl ⟨ident, rfl, rfl, list, holds⟩
  · obtain ⟨holds, infos, -, failed⟩ := spec
    have list := failed nofun
    have left (np : Node) :
        (programming.bridges np).info = (state.programming.bridges np).info ∨
          (programming.bridges np).info = none ∨
          (programming.bridges np).info.map FpgaImageInfo.ident =
              some state.allocs ∧
            state.allocs ∈ state.allocs :: state.frees := by
      refine (infos np).imp_right (Or.imp_right fun current => ?_)
      exact ⟨congrArg (Option.map FpgaImageInfo.ident) current,
        List.mem_cons_self⟩
    exact .freed _ _ sound info rfl left
      ⟨rfl, rfl, rfl, list, holds.congr rfl fun _ => rfl⟩

theorem ofFpgaRegionNotifyPostRemove_became
    (enableSet : Node → Bool → Target → Option Errno × Target)
    {state : State Node Hw Target} (consistent : Consistent state) :
    Became (ofFpgaRegionNotifyPostRemove enableSet state) none state.allocs
      (state.current.toList ++ state.frees) [] := by
  have put : HoldsListed state.programming.putBridges :=
    consistent.holds.putBridges
  rw [ofFpgaRegionNotifyPostRemove]
  change Became _ none state.allocs
    ((state.info.map FpgaImageInfo.ident).toList ++ state.frees) []
  cases state.info with
  | none => exact ⟨rfl, rfl, rfl, rfl, put.congr rfl fun _ => rfl⟩
  | some info => exact ⟨rfl, rfl, rfl, rfl, put.congr rfl fun _ => rfl⟩

theorem ofFpgaRegionNotifyPostRemove_applied
    (enableSet : Node → Bool → Target → Option Errno × Target)
    (state : State Node Hw Target) :
    (ofFpgaRegionNotifyPostRemove enableSet state).applied =
      state.applied := by
  rw [ofFpgaRegionNotifyPostRemove]
  cases state.info <;> rfl

/-! ## Any sequence of notifications -/

theorem Became.info_eq_none {last : State Node Hw Target} {allocs : Nat}
    {frees : List Nat} {list : List Node}
    (became : Became last none allocs frees list) : last.info = none :=
  Option.map_eq_none_iff.mp became.current

theorem Notified.consistent {site : Site Node}
    {state next : State Node Hw Target}
    {notification : Notification Node Hw Target}
    (consistent : Consistent state)
    (step : Notified site state notification next) : Consistent next := by
  obtain ⟨-, rfl⟩ := step
  cases notification with
  | preApply overlay env =>
      have cases := ofFpgaRegionNotifyPreApply_cases site overlay env consistent
      rw [notify]
      generalize ofFpgaRegionNotifyPreApply site overlay env state = result
        at cases
      cases cases with
      | untouched ret last sound info applied infos became =>
          exact ⟨became.holds, fun noInfo => became.list.trans
            (consistent.empty (info.symm.trans noInfo))⟩
      | leaked ret last leaks applied infos became =>
          exact ⟨became.holds, fun _ => became.list⟩
      | freed ret last sound info applied infos became =>
          exact ⟨became.holds, fun _ => became.list⟩
      | withoutImage last noImage info applied became =>
          exact ⟨became.holds, fun _ => became.list⟩
      | programmed last sound hasImage info applied became =>
          refine ⟨became.holds, fun noInfo => ?_⟩
          have current := became.current
          rw [State.current, show last.info = none from noInfo] at current
          cases current
  | postRemove removed enableSet =>
      have became := ofFpgaRegionNotifyPostRemove_became enableSet consistent
      exact ⟨became.holds, fun _ => became.list⟩

/-- The bridges of the overlays which are applied. -/
def State.wanted (state : State Node Hw Target) : List Node :=
  state.applied.flatMap Applied.bridges

/-- What is allocated and held is what the overlays applied need. -/
structure Balanced (state : State Node Hw Target) : Prop where
  /-- An image info is freed once, or it is the current one. -/
  freed : ∀ ident < state.allocs,
    state.frees.count ident = if state.current = some ident then 0 else 1
  /-- Nothing else is freed. -/
  allocated : ∀ ident ∈ state.frees, ident < state.allocs
  info : state.info.isSome ↔
    ∃ overlay ∈ state.applied, overlay.overlay.hasImage = true
  list : ∀ np, np ∈ state.programming.region.bridgeList ↔ np ∈ state.wanted
  held : ∀ np, (state.programming.bridges np).held =
    if np ∈ state.wanted then ⟨1, 1, 1⟩ else ⟨0, 0, 0⟩

/--
A rejected overlay leaves the image info as it was, and the bridges but for
their infos.
-/
def rejectionKeeps (site : Site Node) (state : State Node Hw Target) :
    Notification Node Hw Target → Prop
  | .preApply overlay env =>
      let result := ofFpgaRegionNotifyPreApply site overlay env state
      result.1 ≠ none →
        result.2.info = state.info ∧
        result.2.programming.region.bridgeList =
          state.programming.region.bridgeList ∧
        (∀ np, (result.2.programming.bridges np).held =
          (state.programming.bridges np).held) ∧
        InfosLeft state result.2
  | .postRemove _ _ => True

/-- The notification can copy the name, or gives back its own. -/
def Notification.sound (state : State Node Hw Target) :
    Notification Node Hw Target → Prop
  | .preApply overlay env => ¬ Leaks overlay env state
  | .postRemove removed _ =>
      removed.overlay.hasImage = true ∨ state.info = none

theorem Consistent.rejectionKeeps {state : State Node Hw Target}
    (consistent : Consistent state) (site : Site Node)
    (notification : Notification Node Hw Target) :
    OfRegion.rejectionKeeps site state notification := by
  cases notification with
  | postRemove removed enableSet => trivial
  | preApply overlay env =>
      have cases := ofFpgaRegionNotifyPreApply_cases site overlay env consistent
      have kept {last : State Node Hw Target} {current : Option Nat}
          {allocs : Nat} {frees : List Nat}
          (became : Became last current allocs frees
            state.programming.region.bridgeList) (np : Node) :
          (last.programming.bridges np).held =
            (state.programming.bridges np).held := by
        rw [became.holds.held, consistent.holds.held, became.list]
      have emptied {last : State Node Hw Target} {allocs : Nat}
          {frees : List Nat} (info : state.info = none)
          (infos : InfosLeft state last)
          (became : Became last none allocs frees []) :
          last.info = state.info ∧
            last.programming.region.bridgeList =
              state.programming.region.bridgeList ∧
            (∀ np, (last.programming.bridges np).held =
              (state.programming.bridges np).held) ∧ InfosLeft state last := by
        rw [← consistent.empty info] at became
        exact ⟨became.info_eq_none.trans info.symm, became.list, kept became,
          infos⟩
      rw [OfRegion.rejectionKeeps]
      generalize ofFpgaRegionNotifyPreApply site overlay env state = result
        at cases
      cases cases with
      | untouched ret last sound info applied infos became =>
          exact fun _ => ⟨info, became.list, kept became, infos⟩
      | leaked ret last leaks applied infos became =>
          exact fun _ => emptied leaks.info infos became
      | freed ret last sound info applied infos became =>
          exact fun _ => emptied info infos became
      | withoutImage last noImage info applied became =>
          exact fun rejected => absurd rfl rejected
      | programmed last sound hasImage info applied became =>
          exact fun rejected => absurd rfl rejected

/-! ## The image infos -/

/-- Every image info is freed once, but for the current one. -/
structure Ledger (current : Option Nat) (allocs : Nat) (frees : List Nat) :
    Prop where
  freed : ∀ ident < allocs,
    frees.count ident = if current = some ident then 0 else 1
  allocated : ∀ ident ∈ frees, ident < allocs
  current : ∀ ident, current = some ident → ident < allocs

namespace Ledger

variable {allocs : Nat} {frees : List Nat}

/-- The next image info is not freed yet. -/
theorem count_next {current : Option Nat}
    (ledger : Ledger current allocs frees) : frees.count allocs = 0 :=
  List.count_eq_zero.mpr fun member =>
    absurd (ledger.allocated allocs member) (Nat.lt_irrefl allocs)

theorem alloc (ledger : Ledger none allocs frees) :
    Ledger (some allocs) (allocs + 1) frees where
  freed ident below := by
    rcases Nat.lt_succ_iff_lt_or_eq.mp below with old | rfl
    · rw [ledger.freed ident old, if_neg nofun,
        if_neg fun same => Nat.ne_of_gt old (Option.some.inj same)]
    · rw [ledger.count_next, if_pos rfl]
  allocated ident member := Nat.lt_succ_of_lt (ledger.allocated ident member)
  current ident same := by
    cases same
    exact Nat.lt_succ_self allocs

theorem free {ident : Nat} (ledger : Ledger (some ident) allocs frees) :
    Ledger none allocs (ident :: frees) where
  freed other below := by
    have count := ledger.freed other below
    rw [if_neg nofun, List.count_cons, count]
    by_cases same : ident = other
    · rw [if_pos (congrArg some same), if_pos (beq_iff_eq.mpr same)]
    · rw [if_neg fun equal => same (Option.some.inj equal),
        if_neg fun equal => same (beq_iff_eq.mp equal)]
  allocated other member := by
    rcases List.mem_cons.mp member with rfl | member
    · exact ledger.current other rfl
    · exact ledger.allocated other member
  current := nofun

/-- An image info which is neither freed nor current is lost. -/
theorem lost (ledger : Ledger none allocs frees) :
    ¬ ∀ ident < allocs + 1,
      frees.count ident = if none = some ident then 0 else 1 := by
  intro freed
  have count := freed allocs (Nat.lt_succ_self allocs)
  rw [ledger.count_next, if_neg nofun] at count
  exact nomatch count

end Ledger

/-! ## Balance -/

/-- No image is programmed, and no overlay asks for one. -/
structure Idle (state : State Node Hw Target) : Prop where
  info : state.info = none
  applied : ∀ other ∈ state.applied,
    other.overlay.hasImage = false ∧ other.bridges = []

/-- The image of one overlay is programmed; no other asks for one. -/
structure Programmed (state : State Node Hw Target) (image : Applied Node) :
    Prop where
  member : image ∈ state.applied
  hasImage : image.overlay.hasImage = true
  info : state.info.isSome = true
  list : state.programming.region.bridgeList = image.bridges.reverse
  others : ∀ other ∈ state.applied.erase image,
    other.overlay.hasImage = false ∧ other.bridges = []

/-- What holds as long as all notifications are sound. -/
structure Settled (state : State Node Hw Target) : Prop where
  consistent : Consistent state
  ledger : Ledger state.current state.allocs state.frees
  applied : Idle state ∨ ∃ image, Programmed state image

omit [DecidableEq Node] in
theorem Idle.wanted {state : State Node Hw Target} (idle : Idle state)
    (np : Node) : np ∉ state.wanted := by
  intro member
  obtain ⟨other, applied, member⟩ := List.mem_flatMap.mp member
  rw [(idle.applied other applied).2] at member
  cases member

theorem Programmed.mem_wanted {state : State Node Hw Target}
    {image : Applied Node} (programmed : Programmed state image) (np : Node) :
    np ∈ state.wanted ↔ np ∈ image.bridges := by
  rw [State.wanted, List.mem_flatMap]
  constructor
  · rintro ⟨other, applied, member⟩
    by_cases same : other = image
    · rwa [same] at member
    · have others := programmed.others other
        ((List.mem_erase_of_ne same).mpr applied)
      rw [others.2] at member
      cases member
  · exact fun member => ⟨image, programmed.member, member⟩

theorem Settled.mem_list {state : State Node Hw Target}
    (settled : Settled state) (np : Node) :
    np ∈ state.programming.region.bridgeList ↔ np ∈ state.wanted := by
  rcases settled.applied with idle | ⟨image, programmed⟩
  · rw [settled.consistent.empty idle.info]
    exact iff_of_false List.not_mem_nil (idle.wanted np)
  · rw [programmed.list, List.mem_reverse, programmed.mem_wanted]

theorem Settled.balanced {state : State Node Hw Target}
    (settled : Settled state) : Balanced state where
  freed := settled.ledger.freed
  allocated := settled.ledger.allocated
  info := by
    rcases settled.applied with idle | ⟨image, programmed⟩
    · rw [idle.info]
      refine iff_of_false nofun ?_
      rintro ⟨other, applied, hasImage⟩
      rw [(idle.applied other applied).1] at hasImage
      cases hasImage
    · exact iff_of_true programmed.info
        ⟨image, programmed.member, programmed.hasImage⟩
  list := settled.mem_list
  held np := by
    rw [settled.consistent.holds.held]
    exact if_congr (settled.mem_list np) rfl rfl

/-- Without a current image info there is no image. -/
theorem Settled.idle {state : State Node Hw Target}
    (settled : Settled state) (info : state.info = none) : Idle state := by
  rcases settled.applied with idle | ⟨image, programmed⟩
  · exact idle
  · have isSome := programmed.info
    rw [info] at isSome
    cases isSome

omit [DecidableEq Node] in
theorem Idle.of_applied {state last : State Node Hw Target}
    (idle : Idle state) (info : last.info = none)
    (applied : ∀ other ∈ last.applied, other ∈ state.applied ∨
      other.overlay.hasImage = false ∧ other.bridges = []) : Idle last where
  info := info
  applied other member :=
    (applied other member).elim (idle.applied other) id

theorem Ledger.of_became {last : State Node Hw Target}
    {current : Option Nat} {allocs : Nat} {frees : List Nat}
    {list : List Node} (became : Became last current allocs frees list)
    (ledger : Ledger current allocs frees) :
    Ledger last.current last.allocs last.frees := by
  rw [became.current, became.allocs, became.frees]
  exact ledger

/-- The list of overlays is apart from what is allocated and held. -/
theorem Became.withApplied {last : State Node Hw Target}
    {current : Option Nat} {allocs : Nat} {frees : List Nat}
    {list : List Node} (became : Became last current allocs frees list)
    (applied : List (Applied Node)) :
    Became { last with applied := applied } current allocs frees list :=
  ⟨became.current, became.allocs, became.frees, became.list, became.holds⟩

/-- An overlay which leaks nothing keeps everything settled. -/
theorem Settled.preApply {site : Site Node} {state : State Node Hw Target}
    {overlay : Overlay Node} {env : PreApplyEnv Node Hw Target}
    (settled : Settled state) (sound : ¬ Leaks overlay env state)
    (consistent : Consistent (notify site state (.preApply overlay env))) :
    Settled (notify site state (.preApply overlay env)) := by
  have cases := ofFpgaRegionNotifyPreApply_cases site overlay env
    settled.consistent
  rw [notify] at consistent ⊢
  generalize ofFpgaRegionNotifyPreApply site overlay env state = result
    at cases consistent
  cases cases with
  | untouched ret last _ info applied infos became =>
      refine ⟨consistent, settled.ledger.of_became became, ?_⟩
      refine settled.applied.imp (fun idle => ?_) ?_
      · exact idle.of_applied (info.trans idle.info)
          fun other member => .inl (applied ▸ member)
      · rintro ⟨image, programmed⟩
        exact ⟨image, applied ▸ programmed.member, programmed.hasImage,
          (congrArg Option.isSome info).trans programmed.info,
          became.list.trans programmed.list,
          applied ▸ programmed.others⟩
  | leaked ret last leaks applied infos became => exact absurd leaks sound
  | freed ret last _ info applied infos became =>
      have ledger := settled.ledger
      rw [State.current_eq_none info] at ledger
      refine ⟨consistent, ledger.alloc.free.of_became became, .inl ?_⟩
      exact (settled.idle info).of_applied became.info_eq_none
        fun other member => .inl (applied ▸ member)
  | withoutImage last noImage info applied became =>
      have ledger := settled.ledger
      rw [State.current_eq_none info] at ledger
      refine ⟨consistent,
        ledger.alloc.free.of_became (became.withApplied _), .inl ?_⟩
      refine (settled.idle info).of_applied became.info_eq_none ?_
      intro other member
      rcases List.mem_cons.mp member with rfl | member
      · exact .inr ⟨noImage, by rw [Applied.of, noImage]; rfl⟩
      · exact .inl (applied ▸ member)
  | programmed last _ hasImage info applied became =>
      have ledger := settled.ledger
      rw [State.current_eq_none info] at ledger
      refine ⟨consistent, ledger.alloc.of_became (became.withApplied _),
        .inr ?_⟩
      refine ⟨.of site overlay env.bridges, List.mem_cons_self, hasImage,
        ?_, ?_, ?_⟩
      · have isSome := congrArg Option.isSome became.current
        rwa [State.current, Option.isSome_map] at isSome
      · refine became.list.trans ?_
        rw [Applied.of, if_pos hasImage]
      · intro other member
        rw [List.erase_cons_head, applied] at member
        exact (settled.idle info).applied other member

/-- The removal of the overlay with the image keeps everything settled. -/
theorem Settled.postRemove {site : Site Node} {state : State Node Hw Target}
    {removed : Applied Node}
    {enableSet : Node → Bool → Target → Option Errno × Target}
    (settled : Settled state) (possible : removed ∈ state.applied)
    (sound : removed.overlay.hasImage = true ∨ state.info = none)
    (consistent :
      Consistent (notify site state (.postRemove removed enableSet))) :
    Settled (notify site state (.postRemove removed enableSet)) := by
  have became := ofFpgaRegionNotifyPostRemove_became enableSet
    settled.consistent
  have applied :=
    ofFpgaRegionNotifyPostRemove_applied enableSet state
  have remains (other : Applied Node)
      (member : other ∈ (notify site state
        (.postRemove removed enableSet)).applied) :
      other ∈ state.applied.erase removed := by
    rw [← applied]
    exact member
  have ledger := settled.ledger
  rcases settled.applied with idle | ⟨image, programmed⟩
  · rw [State.current_eq_none idle.info] at ledger became
    refine ⟨consistent, ledger.of_became (became.withApplied _), .inl ?_⟩
    exact idle.of_applied became.info_eq_none fun other member =>
      .inl (List.mem_of_mem_erase (remains other member))
  · -- the overlay with the image is the one which is removed
    have same : removed = image := by
      rcases sound with hasImage | info
      · by_contra other
        have noImage := programmed.others removed
          ((List.mem_erase_of_ne other).mpr possible)
        exact nomatch hasImage.symm.trans noImage.1
      · have isSome := programmed.info
        rw [info] at isSome
        cases isSome
    subst same
    obtain ⟨info, current⟩ := Option.isSome_iff_exists.mp programmed.info
    rw [State.current, current] at ledger became
    refine ⟨consistent, ledger.free.of_became (became.withApplied _),
      .inl ?_⟩
    exact ⟨became.info_eq_none, fun other member =>
      programmed.others other (remains other member)⟩

/-- A sound notification keeps everything settled. -/
theorem Settled.step {site : Site Node} {state next : State Node Hw Target}
    {notification : Notification Node Hw Target} (settled : Settled state)
    (sound : notification.sound state)
    (step : Notified site state notification next) : Settled next := by
  have consistent := step.consistent settled.consistent
  obtain ⟨possible, rfl⟩ := step
  cases notification with
  | preApply overlay env => exact settled.preApply sound consistent
  | postRemove removed enableSet =>
      exact settled.postRemove possible sound consistent

/-- A notification which is not sound leaves something unbalanced. -/
theorem Settled.lost {site : Site Node} {state next : State Node Hw Target}
    {notification : Notification Node Hw Target} (settled : Settled state)
    (unsound : ¬ notification.sound state)
    (step : Notified site state notification next) : ¬ Balanced next := by
  obtain ⟨possible, rfl⟩ := step
  intro balanced
  cases notification with
  | preApply overlay env =>
      have leaks : Leaks overlay env state := not_not.mp unsound
      have cases := ofFpgaRegionNotifyPreApply_cases site overlay env
        settled.consistent
      rw [notify] at balanced
      generalize ofFpgaRegionNotifyPreApply site overlay env state = result
        at cases balanced
      cases cases with
      | untouched _ _ sound | freed _ _ sound | programmed _ sound =>
          exact sound leaks
      | withoutImage last noImage info applied became =>
          exact nomatch noImage.symm.trans leaks.hasImage
      | leaked ret last _ applied infos became =>
          have ledger := settled.ledger
          rw [State.current, leaks.info] at ledger
          have freed := balanced.freed
          simp only [became.current, became.allocs, became.frees] at freed
          exact ledger.lost freed
  | postRemove removed enableSet =>
      obtain ⟨noImage, current⟩ := not_or.mp unsound
      have became := ofFpgaRegionNotifyPostRemove_became enableSet
        settled.consistent
      have applied := ofFpgaRegionNotifyPostRemove_applied enableSet state
      rcases settled.applied with idle | ⟨image, programmed⟩
      · exact current idle.info
      · -- the image is still wanted
        have other : image ≠ removed := fun same =>
          noImage (same ▸ programmed.hasImage)
        have remains : image ∈
            (notify site state (.postRemove removed enableSet)).applied := by
          rw [notify, applied]
          exact (List.mem_erase_of_ne other).mpr programmed.member
        have isSome :=
          balanced.info.mpr ⟨image, remains, programmed.hasImage⟩
        have noInfo : (notify site state
            (.postRemove removed enableSet)).info = none :=
          became.info_eq_none
        rw [noInfo] at isSome
        cases isSome

omit [DecidableEq Node] in
theorem registered_settled [DecidableEq Node] (mgr : FpgaManager Hw)
    (target : Target) (infos : Node → Option FpgaImageInfo) :
    Settled (registered mgr target infos) where
  consistent := ⟨⟨List.nodup_nil, fun _ => rfl⟩, fun _ => rfl⟩
  ledger := ⟨nofun, nofun, nofun⟩
  applied := .inl ⟨rfl, nofun⟩

def plainOverlay : Overlay Nat where
  childRegions := []
  partialFpgaConfig := false
  externalFpgaConfig := false
  encryptedFpgaConfig := false
  firmwareName := none
  regionUnfreezeTimeoutUs := none
  regionFreezeTimeoutUs := none
  configCompleteTimeoutUs := none
  fpgaBridges := []

def imageOverlay : Overlay Nat :=
  { plainOverlay with firmwareName := some "soc.rbf", fpgaBridges := [1] }

/-- Nothing fails but the copy of the name, if it is to. -/
def granting (kstrdup : Bool) : PreApplyEnv Nat Unit Unit where
  alloc := true
  kstrdup := kstrdup
  region := ⟨true, true, true⟩
  bridges := ⟨⟨false, true, true⟩, fun _ => ⟨true, true, true⟩⟩
  enableSet _ _ target := (none, target)
  load mgr info := (none, mgr, info)

def soc : Site Nat := ⟨0, []⟩

def socRegion : State Nat Unit Unit :=
  registered ⟨0, .unknown, ()⟩ () fun _ => none

/-- Both overlays are applied, and then one of them is removed. -/
def bothApplied (removed : Applied Nat) :
    List (Notification Nat Unit Unit × State Nat Unit Unit) :=
  pathOf (notify soc) socRegion
    [.preApply plainOverlay (granting true),
      .preApply imageOverlay (granting true),
      .postRemove removed fun _ _ target => (none, target)]

theorem bothApplied_isPath (removed : Applied Nat)
    (applied : removed ∈ [⟨imageOverlay, [1]⟩, ⟨plainOverlay, []⟩]) :
    IsPath (Notified soc) socRegion (bothApplied removed) :=
  ⟨⟨trivial, rfl⟩, ⟨trivial, rfl⟩, ⟨applied, rfl⟩, trivial⟩

end LinuxDfl.Fpga.OfRegion

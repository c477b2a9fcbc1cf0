import LinuxDfl.Lib.Modules
import LinuxDfl.Lib.Transition

/-!
# The operations of ports

A port driver registers operations in a global list, where other features find
them by the name of the port device.  Whoever finds them keeps the module of
the driver in place: `dfl_fpga_check_port_id` for one call, a bridge of the
FME until it is removed.
-/

namespace LinuxDfl.Dfl.PortRegistry

open LinuxDfl.Lib.Modules
open LinuxDfl.Lib.Transition

variable {Name : Type}

/-- `struct dfl_fpga_port_ops`, and which of its functions there are. -/
structure PortOps (Name : Type) where
  name : Name
  getId : Bool
  enableSet : Bool

/-- `struct fme_br_priv`, of a bridge which may have been removed. -/
structure FmeBrPriv where
  /-- The module of `port_ops` -/
  portOps : Option Nat
  /-- The module whose `enable_set` runs. -/
  running : Option Nat
  removed : Bool
  deriving DecidableEq

/-- The port drivers and those who use their operations. -/
structure Registry (Name : Type) where
  modules : List (Module (PortOps Name))
  /-- `dfl_port_ops_list` -/
  portOpsList : List Nat
  /-- The modules whose `get_id` runs for `dfl_fpga_check_port_id`. -/
  gettingId : List Nat
  bridges : List FmeBrPriv

namespace Registry

/-- The life of a module, if there is one of the number. -/
def life (registry : Registry Name) (index : Nat) : Option Life :=
  lifeOf registry.modules index

/-- The operations of a module are such. -/
def provides (registry : Registry Name) (index : Nat)
    (what : PortOps Name → Bool) : Bool :=
  registry.modules[index]?.any fun entry => what entry.info

/-- `dfl_fpga_port_ops_get`, and the modules with the reference taken -/
def dflFpgaPortOpsGet [DecidableEq Name] (registry : Registry Name)
    (pdevName : Name) :
    Option (Nat × List (Module (PortOps Name))) :=
  match registry.portOpsList.find? fun ops =>
      registry.provides ops fun info => info.name = pdevName with
  | none => none
  | some ops => (tryGet registry.modules ops).map fun modules => (ops, modules)

/-- `dfl_fpga_port_ops_put`, if there are operations -/
def dflFpgaPortOpsPut (registry : Registry Name) :
    Option Nat → List (Module (PortOps Name))
  | none => registry.modules
  | some ops => put registry.modules ops

end Registry

/-- What port drivers and users do, one at a time under the mutex. -/
inductive Act (Name : Type) where
  /-- `afu_init`, up to `platform_driver_register` -/
  | afuInit (ops : PortOps Name)
  /-- `platform_driver_register` has returned, and so does `afu_init`. -/
  | driverRegister (index : Nat) (registered : Bool)
  /-- The module is asked to be unloaded. -/
  | rmmod (index : Nat)
  | afuExit (index : Nat)
  /-- The code of the module is freed. -/
  | free (index : Nat)
  /-- `dfl_fpga_check_port_id` of a port with no known id. -/
  | checkPortId (pdevName : Name)
  /-- `get_id` has returned. -/
  | gotId (ops : Nat)
  | fmeBrProbe
  /-- `fme_bridge_enable_set` with the port already found. -/
  | enableSet (bridge : Nat) (pdevName : Name)
  /-- `enable_set` of the port has returned. -/
  | enableReturns (bridge : Nat)
  | fmeBrRemove (bridge : Nat)

namespace Registry

section Acts

variable [DecidableEq Name]

/-- `fme_bridge_enable_set`, up to the call of the port -/
def fmeBridgeEnableSet (registry : Registry Name) (bridge : Nat)
    (priv : FmeBrPriv) (pdevName : Name) : Registry Name :=
  match priv.portOps with
  | some ops =>
      { registry with
        bridges := registry.bridges.set bridge
          { priv with running := some ops } }
  | none =>
      match registry.dflFpgaPortOpsGet pdevName with
      | none => registry
      | some (ops, modules) =>
          if registry.provides ops PortOps.enableSet then
            { registry with
              modules
              bridges := registry.bridges.set bridge
                { priv with portOps := some ops, running := some ops } }
          -- the reference is not given back
          else { registry with modules }

/-- `dfl_fpga_check_port_id`, up to the call of the port -/
def dflFpgaCheckPortId (registry : Registry Name) (pdevName : Name) :
    Registry Name :=
  match registry.dflFpgaPortOpsGet pdevName with
  | none => registry
  | some (ops, modules) =>
      if registry.provides ops PortOps.getId then
        { registry with modules, gettingId := ops :: registry.gettingId }
      -- the reference is not given back
      else { registry with modules }

/-- The registry after an act, if the act is possible. -/
def perform (registry : Registry Name) : Act Name → Option (Registry Name)
  | .afuInit ops =>
      some { registry with
        modules := load registry.modules ops
        portOpsList := registry.portOpsList ++ [registry.modules.length] }
  | .driverRegister index registered =>
      if registry.life index ≠ some .coming then none
      else if registered then
        some { registry with modules := setLife registry.modules index .live }
      else
        some { registry with
          modules := setLife registry.modules index .failed
          portOpsList := registry.portOpsList.erase index }
  | .rmmod index =>
      if registry.life index = some .live ∧
          registry.modules[index]?.any (fun entry => entry.refs = 0) then
        some { registry with modules := setLife registry.modules index .going }
      else none
  | .afuExit index =>
      if registry.life index ≠ some .going then none
      else
        some { registry with portOpsList := registry.portOpsList.erase index }
  | .free index =>
      if registry.life index = some .failed ∨
          registry.life index = some .going ∧
            index ∉ registry.portOpsList then
        some { registry with modules := setLife registry.modules index .gone }
      else none
  | .checkPortId pdevName => some (registry.dflFpgaCheckPortId pdevName)
  | .gotId ops =>
      if ops ∈ registry.gettingId then
        some { registry with
          modules := registry.dflFpgaPortOpsPut (some ops)
          gettingId := registry.gettingId.erase ops }
      else none
  | .fmeBrProbe =>
      some { registry with
        bridges := registry.bridges ++ [⟨none, none, false⟩] }
  | .enableSet bridge pdevName =>
      match registry.bridges[bridge]? with
      | none => none
      | some priv =>
          if priv.removed || priv.running.isSome then none
          else some (registry.fmeBridgeEnableSet bridge priv pdevName)
  | .enableReturns bridge =>
      match registry.bridges[bridge]? with
      | none => none
      | some priv =>
          some { registry with
            bridges := registry.bridges.set bridge
              { priv with running := none } }
  | .fmeBrRemove bridge =>
      match registry.bridges[bridge]? with
      | none => none
      | some priv =>
          if priv.removed then none
          else
            some { registry with
              modules := registry.dflFpgaPortOpsPut priv.portOps
              bridges := registry.bridges.set bridge
                { priv with portOps := none, removed := true } }

end Acts

/-! ## What is asked of the registry -/

/-- The modules which are held in place, as often as they are. -/
def holders (registry : Registry Name) : List Nat :=
  registry.gettingId ++ registry.bridges.filterMap FmeBrPriv.portOps

/--
The references are those of the users, whose modules are there; what a bridge
runs is kept by the bridge; and the list leads to no module which is gone.
-/
structure Safe (registry : Registry Name) : Prop where
  held : Held registry.modules registry.holders
  covered : ∀ priv ∈ registry.bridges, ∀ ops ∈ priv.running,
    priv.portOps = some ops
  listed : ∀ index ∈ registry.portOpsList, Present registry.modules index

/--
A module which failed to initialise is freed when nobody has taken its
operations, a bridge is removed while it is not in use, and the operations
which are found have the function they are looked up for.
-/
def Orderly [DecidableEq Name] (registry : Registry Name) : Act Name → Prop
  | .free index => ∀ entry ∈ registry.modules[index]?,
      entry.life = .failed → entry.refs = 0
  | .fmeBrRemove bridge => ∀ priv ∈ registry.bridges[bridge]?,
      priv.running = none
  | .checkPortId pdevName => ∀ got ∈ registry.dflFpgaPortOpsGet pdevName,
      registry.provides got.1 PortOps.getId = true
  | .enableSet bridge pdevName => ∀ priv ∈ registry.bridges[bridge]?,
      priv.portOps = none →
        ∀ got ∈ registry.dflFpgaPortOpsGet pdevName,
          registry.provides got.1 PortOps.enableSet = true
  | _ => True

/-- No module, and no user -/
def empty : Registry Name := ⟨[], [], [], []⟩

/-- What is known between the acts. -/
structure Known (registry : Registry Name) : Prop extends
    registry.Safe where
  released : Released registry.modules
  once : registry.portOpsList.Nodup
  /-- A module which is in the list has not failed. -/
  fine : ∀ index ∈ registry.portOpsList,
    registry.life index ≠ some .failed

/-! ## One act at a time -/

variable {registry next : Registry Name}

/-- What a bridge keeps can be told apart from the rest. -/
theorem filterMap_set {Value Kept : Type} (keeps : Value → Option Kept)
    {values : List Value} {index : Nat} {old : Value}
    (found : values[index]? = some old) :
    ∃ others, (values.filterMap keeps).Perm ((keeps old).toList ++ others) ∧
      ∀ new, ((values.set index new).filterMap keeps).Perm
        ((keeps new).toList ++ others) := by
  induction values generalizing index with
  | nil => cases found
  | cons head rest ih =>
      have split : ∀ (value : Value) (others : List Value),
          (value :: others).filterMap keeps =
            (keeps value).toList ++ others.filterMap keeps := by
        intro value others
        rw [List.filterMap_cons]
        cases keeps value <;> rfl
      cases index with
      | zero =>
          cases found
          refine ⟨rest.filterMap keeps, ?_, fun new => ?_⟩
          · rw [split]
          · rw [List.set_cons_zero, split]
      | succ index =>
          obtain ⟨others, before, after⟩ := ih found
          refine ⟨(keeps head).toList ++ others, ?_, fun new => ?_⟩
          · rw [split]
            exact (before.append_left _).trans
              (List.perm_append_comm_assoc _ _ _)
          · rw [List.set_cons_succ, split]
            exact ((after new).append_left _).trans
              (List.perm_append_comm_assoc _ _ _)

/-- Acts which leave the list and the lives as they are. -/
theorem Known.of_lives {modules : List (Module (PortOps Name))}
    {gettingId : List Nat} {bridges : List FmeBrPriv}
    (known : registry.Known)
    (lives : ∀ index, lifeOf modules index = lifeOf registry.modules index)
    (released : Released modules)
    (held : Held modules (gettingId ++ bridges.filterMap FmeBrPriv.portOps))
    (covered : ∀ priv ∈ bridges, ∀ ops ∈ priv.running,
      priv.portOps = some ops) :
    Known { registry with modules, gettingId, bridges } where
  held := held
  covered := covered
  listed := fun index member =>
    (known.listed index member).of_lifeOf (lives index)
  released := released
  once := known.once
  fine := by
    intro index member failed
    exact known.fine index member ((lives index).symm.trans failed)

/-- A module which begins its life is listed. -/
theorem Known.afuInit (known : registry.Known) (ops : PortOps Name) :
    Known { registry with
      modules := load registry.modules ops
      portOpsList := registry.portOpsList ++ [registry.modules.length] } where
  held := known.held.load ops
  covered := known.covered
  listed := by
    intro index member
    rcases List.mem_append.mp member with old | new
    · exact (known.listed index old).load ops
    · rw [List.mem_singleton.mp new]
      exact ⟨.coming, lifeOf_load_new _ _, by decide⟩
  released := known.released.load ops
  once := by
    refine List.nodup_append.mpr
      ⟨known.once, List.pairwise_singleton _ _, fun index old other new => ?_⟩
    rintro rfl
    rw [List.mem_singleton.mp new] at old
    obtain ⟨life, isLife, -⟩ := known.listed _ old
    obtain ⟨entry, inside, -⟩ := exists_of_lifeOf isLife
    rw [List.getElem?_eq_none (Nat.le_refl _)] at inside
    cases inside
  fine := by
    intro index member
    rcases List.mem_append.mp member with old | new
    · obtain ⟨life, isLife, -⟩ := known.listed index old
      show lifeOf _ _ ≠ _
      rw [lifeOf_load isLife ops, ← isLife]
      exact known.fine index old
    · rw [List.mem_singleton.mp new]
      show lifeOf _ _ ≠ _
      rw [lifeOf_load_new]
      decide

/-- The life of a module which stays goes on. -/
theorem Known.withLife {index : Nat} {life : Life} {list : List Nat}
    (known : registry.Known)
    (sublist : list.Sublist registry.portOpsList)
    (stays : life ≠ .gone) (failed : life = .failed → index ∉ list)
    (unheld : life = .going → ∀ entry ∈ registry.modules[index]?,
      entry.refs = 0) :
    Known { registry with
      modules := setLife registry.modules index life
      portOpsList := list } where
  held := known.held.setLife stays
  covered := known.covered
  listed := fun other member =>
    (known.listed other (sublist.subset member)).setLife fun _ => stays
  released := known.released.setLife unheld
  once := known.once.sublist sublist
  fine := by
    intro other member
    obtain ⟨before, isLife, -⟩ := known.listed other (sublist.subset member)
    show lifeOf _ _ ≠ _
    rw [lifeOf_setLife isLife]
    split_ifs with same
    · subst same
      intro isFailed
      exact failed (Option.some.inj isFailed) member
    · rw [← isLife]
      exact known.fine other (sublist.subset member)

/-- Operations are taken from the list. -/
theorem Known.unlist {list : List Nat} (known : registry.Known)
    (sublist : list.Sublist registry.portOpsList) :
    Known { registry with portOpsList := list } where
  held := known.held
  covered := known.covered
  listed := fun index member => known.listed index (sublist.subset member)
  released := known.released
  once := known.once.sublist sublist
  fine := fun index member => known.fine index (sublist.subset member)

/-- A module is freed when it is neither listed nor held. -/
theorem Known.unload {index : Nat} {entry : Module (PortOps Name)}
    (known : registry.Known) (unlisted : index ∉ registry.portOpsList)
    (found : registry.modules[index]? = some entry) (none : entry.refs = 0) :
    Known { registry with
      modules := setLife registry.modules index .gone } where
  held := known.held.free found none
  covered := known.covered
  listed := by
    intro other member
    refine (known.listed other member).setLife ?_
    rintro rfl
    exact absurd member unlisted
  released := known.released.setLife fun isGoing => by cases isGoing
  once := known.once
  fine := by
    intro other member
    show lifeOf _ _ ≠ _
    have distinct : index ≠ other := by
      rintro rfl
      exact unlisted member
    rw [lifeOf_setLife_other distinct]
    exact known.fine other member

theorem Known.gotId {ops : Nat} (known : registry.Known)
    (runs : ops ∈ registry.gettingId) :
    Known { registry with
      modules := registry.dflFpgaPortOpsPut (some ops)
      gettingId := registry.gettingId.erase ops } := by
  have given := known.held.put (List.mem_append_left _ runs)
  rw [holders, List.erase_append_left _ runs] at given
  exact known.of_lives (lifeOf_put registry.modules ops) known.released.put
    given known.covered

theorem Known.fmeBrProbe (known : registry.Known) :
    Known { registry with
      bridges := registry.bridges ++ [⟨none, none, false⟩] } := by
  refine known.of_lives (fun _ => rfl) known.released ?_ ?_
  · rw [List.filterMap_append]
    simpa [holders] using known.held
  · intro priv member ops runs
    rcases List.mem_append.mp member with old | new
    · exact known.covered priv old ops runs
    · rw [List.mem_singleton.mp new] at runs
      cases runs

/-- What a bridge runs is covered when the other bridges are. -/
theorem Known.covered_set {bridge : Nat} {priv : FmeBrPriv}
    (known : registry.Known)
    (covers : ∀ ops ∈ priv.running, priv.portOps = some ops) :
    ∀ other ∈ registry.bridges.set bridge priv,
      ∀ ops ∈ other.running, other.portOps = some ops := by
  intro other member
  rcases List.mem_or_eq_of_mem_set member with old | rfl
  · exact known.covered other old
  · exact covers

/-- A bridge which keeps the operations it has. -/
theorem Known.setRunning {bridge : Nat} {priv : FmeBrPriv}
    {running : Option Nat} (known : registry.Known)
    (found : registry.bridges[bridge]? = some priv)
    (covers : ∀ ops ∈ running, priv.portOps = some ops) :
    Known { registry with
      bridges := registry.bridges.set bridge { priv with running } } := by
  refine known.of_lives (fun _ => rfl) known.released ?_
    (known.covered_set covers)
  obtain ⟨others, before, after⟩ := filterMap_set FmeBrPriv.portOps found
  refine known.held.perm ?_
  exact (before.trans (after { priv with running }).symm).append_left _

theorem Known.fmeBrRemove {bridge : Nat} {priv : FmeBrPriv}
    (known : registry.Known) (found : registry.bridges[bridge]? = some priv)
    (idle : priv.running = none) :
    Known { registry with
      modules := registry.dflFpgaPortOpsPut priv.portOps
      bridges := registry.bridges.set bridge
        { priv with portOps := none, removed := true } } := by
  obtain ⟨others, before, after⟩ := filterMap_set FmeBrPriv.portOps found
  have without := after { priv with portOps := none, removed := true }
  have covers : ∀ ops ∈ priv.running, none = some ops := by
    rw [idle]
    intro ops runs
    cases runs
  cases has : priv.portOps with
  | none =>
      rw [has] at before
      refine known.of_lives (fun _ => rfl) known.released ?_
        (known.covered_set covers)
      exact known.held.perm ((before.trans without.symm).append_left _)
  | some ops =>
      rw [has] at before
      refine known.of_lives (lifeOf_put registry.modules ops)
        known.released.put ?_ (known.covered_set covers)
      have listed := known.held.perm
        ((before.append_left _).trans List.perm_middle)
      have given := listed.put List.mem_cons_self
      rw [List.erase_cons_head] at given
      exact given.perm (without.symm.append_left _)

/-- There is nothing to know before the first module. -/
theorem known_empty : Known (empty : Registry Name) where
  held := by
    refine ⟨fun _ _ found => ?_, fun _ member => ?_⟩
    · cases found
    · cases member
  covered := fun _ member => by cases member
  listed := fun _ member => by cases member
  released := fun _ _ found => by cases found
  once := List.nodup_nil
  fine := fun _ member => by cases member

section Lookups

variable [DecidableEq Name]

theorem portOpsGet_eq_some {pdevName : Name}
    {got : Nat × List (Module (PortOps Name))}
    (found : registry.dflFpgaPortOpsGet pdevName = some got) :
    tryGet registry.modules got.1 = some got.2 := by
  unfold dflFpgaPortOpsGet at found
  cases search : registry.portOpsList.find? fun ops =>
      registry.provides ops fun info => info.name = pdevName with
  | none =>
      rw [search] at found
      cases found
  | some ops =>
      rw [search] at found
      obtain ⟨modules, taken, rfl⟩ := Option.map_eq_some_iff.mp found
      exact taken

theorem Known.checkPortId {pdevName : Name} (known : registry.Known)
    (orderly : registry.Orderly (.checkPortId pdevName)) :
    Known (registry.dflFpgaCheckPortId pdevName) := by
  unfold dflFpgaCheckPortId
  cases search : registry.dflFpgaPortOpsGet pdevName with
  | none => exact known
  | some got =>
      obtain ⟨ops, modules⟩ := got
      have taken := portOpsGet_eq_some search
      have there : registry.provides ops PortOps.getId = true :=
        orderly _ search
      dsimp only
      rw [if_pos there]
      exact known.of_lives (lifeOf_tryGet taken) (known.released.tryGet taken)
        (known.held.tryGet taken) known.covered

theorem Known.enableSet {bridge : Nat} {priv : FmeBrPriv} {pdevName : Name}
    (known : registry.Known) (found : registry.bridges[bridge]? = some priv)
    (orderly : registry.Orderly (.enableSet bridge pdevName)) :
    Known (registry.fmeBridgeEnableSet bridge priv pdevName) := by
  obtain ⟨portOps, running, removed⟩ := priv
  unfold fmeBridgeEnableSet
  cases portOps with
  | some ops => exact known.setRunning found fun other runs => runs
  | none =>
      dsimp only
      cases search : registry.dflFpgaPortOpsGet pdevName with
      | none => exact known
      | some got =>
          obtain ⟨ops, modules⟩ := got
          have taken := portOpsGet_eq_some search
          have there : registry.provides ops PortOps.enableSet = true :=
            orderly _ found rfl _ search
          dsimp only
          rw [if_pos there]
          refine known.of_lives (lifeOf_tryGet taken)
            (known.released.tryGet taken) ?_
            (known.covered_set fun other runs => runs)
          obtain ⟨others, before, after⟩ :=
            filterMap_set FmeBrPriv.portOps found
          refine (known.held.tryGet taken).perm ?_
          refine List.perm_middle.symm.trans (List.Perm.append_left _ ?_)
          exact (before.cons ops).trans
            (after ⟨some ops, some ops, removed⟩).symm

theorem known_perform {act : Act Name} (known : registry.Known)
    (orderly : registry.Orderly act)
    (performed : registry.perform act = some next) : next.Known := by
  cases act with
  | afuInit ops =>
      cases performed
      exact known.afuInit ops
  | driverRegister index registered =>
      simp only [perform] at performed
      split_ifs at performed with coming isRegistered
      · cases performed
        exact known.withLife (List.Sublist.refl _) (by decide)
          (fun isFailed => by cases isFailed) (fun isGoing => by cases isGoing)
      · cases performed
        exact known.withLife List.erase_sublist (by decide)
          (fun _ => known.once.not_mem_erase) (fun isGoing => by cases isGoing)
  | rmmod index =>
      simp only [perform] at performed
      split_ifs at performed with idle
      cases performed
      refine known.withLife (List.Sublist.refl _) (by decide)
        (fun isFailed => by cases isFailed) (fun _ entry found => ?_)
      have unheld := idle.2
      rw [found] at unheld
      simpa using unheld
  | afuExit index =>
      simp only [perform] at performed
      split_ifs at performed with isGoing
      cases performed
      exact known.unlist List.erase_sublist
  | free index =>
      simp only [perform] at performed
      split_ifs at performed with isOver
      cases performed
      rcases isOver with isFailed | ⟨isGoing, unlisted⟩
      · obtain ⟨entry, found, failed⟩ := exists_of_lifeOf isFailed
        have unlisted : index ∉ registry.portOpsList := fun member =>
          known.fine index member isFailed
        exact known.unload unlisted found (orderly entry found failed)
      · obtain ⟨entry, found, going⟩ := exists_of_lifeOf isGoing
        exact known.unload unlisted found
          (known.released index entry found going)
  | checkPortId pdevName =>
      cases performed
      exact known.checkPortId orderly
  | gotId ops =>
      simp only [perform] at performed
      split_ifs at performed with runs
      cases performed
      exact known.gotId runs
  | fmeBrProbe =>
      cases performed
      exact known.fmeBrProbe
  | enableSet bridge pdevName =>
      simp only [perform] at performed
      cases found : registry.bridges[bridge]? with
      | none =>
          rw [found] at performed
          cases performed
      | some priv =>
          rw [found] at performed
          dsimp only at performed
          split_ifs at performed with inUse
          cases performed
          exact known.enableSet found orderly
  | enableReturns bridge =>
      simp only [perform] at performed
      cases found : registry.bridges[bridge]? with
      | none =>
          rw [found] at performed
          cases performed
      | some priv =>
          rw [found] at performed
          cases performed
          exact known.setRunning found fun ops runs => by cases runs
  | fmeBrRemove bridge =>
      simp only [perform] at performed
      cases found : registry.bridges[bridge]? with
      | none =>
          rw [found] at performed
          cases performed
      | some priv =>
          rw [found] at performed
          dsimp only at performed
          split_ifs at performed with removed
          cases performed
          exact known.fmeBrRemove found (orderly priv found)

theorem lost_perform {act : Act Name} (known : registry.Known)
    (disorderly : ¬ registry.Orderly act)
    (performed : registry.perform act = some next) : ¬ next.Safe := by
  intro safe
  cases act with
  | free index =>
      simp only [Orderly] at disorderly
      push Not at disorderly
      obtain ⟨entry, found, -, some⟩ := disorderly
      simp only [perform] at performed
      split_ifs at performed with isOver
      cases performed
      exact not_held_free known.held found some safe.held
  | fmeBrRemove bridge =>
      simp only [Orderly] at disorderly
      push Not at disorderly
      obtain ⟨priv, found, inUse⟩ := disorderly
      obtain ⟨ops, runs⟩ := Option.ne_none_iff_exists'.mp inUse
      simp only [perform] at performed
      rw [show registry.bridges[bridge]? = some priv from found] at performed
      dsimp only at performed
      split_ifs at performed with removed
      cases performed
      obtain ⟨inside, -⟩ := List.getElem?_eq_some_iff.mp found
      have covered := safe.covered _ (List.mem_set inside _) ops runs
      cases covered
  | checkPortId pdevName =>
      simp only [Orderly] at disorderly
      push Not at disorderly
      obtain ⟨⟨ops, modules⟩, found, missing⟩ := disorderly
      cases performed
      have taken := portOpsGet_eq_some found
      have held := safe.held
      unfold dflFpgaCheckPortId at held
      rw [show registry.dflFpgaPortOpsGet pdevName = some (ops, modules)
        from found] at held
      dsimp only at held
      rw [if_neg missing] at held
      exact not_held_tryGet known.held taken held
  | enableSet bridge pdevName =>
      simp only [Orderly] at disorderly
      push Not at disorderly
      obtain ⟨priv, foundPriv, has, ⟨ops, modules⟩, found, missing⟩ :=
        disorderly
      simp only [perform] at performed
      rw [show registry.bridges[bridge]? = some priv from foundPriv]
        at performed
      dsimp only at performed
      split_ifs at performed with inUse
      cases performed
      have taken := portOpsGet_eq_some found
      have held := safe.held
      unfold fmeBridgeEnableSet at held
      rw [has] at held
      dsimp only at held
      rw [show registry.dflFpgaPortOpsGet pdevName = some (ops, modules)
        from found] at held
      dsimp only at held
      rw [if_neg missing] at held
      exact not_held_tryGet known.held taken held
  | _ => exact disorderly trivial

/--
In every run of loading and unloading port drivers, of looking up their
operations and of using and removing bridges, whatever is called or kept is
code which is there, the references are exactly those of the users and no
module in the list is gone, if and only if every act of the run is orderly.
-/
theorem portRegistry_safe_iff
    {path : List (Act Name × Registry Name)}
    (isPath : IsPath
      (fun registry act next => registry.perform act = some next)
      empty path) :
    Throughout Safe empty path ↔
      StepsMeet (fun registry act => registry.Orderly act) empty path := by
  refine throughout_iff_stepsMeet_of_strong (fun _ known => known.toSafe)
    ?_ ?_ isPath known_empty
  · intro registry act next known orderly performed
    exact known_perform known orderly performed
  · intro registry act next known disorderly performed
    exact lost_perform known disorderly performed

end Lookups

/-! ## A driver which cannot be registered -/

instance Orderly.decide [DecidableEq Name] (registry : Registry Name) :
    ∀ act, Decidable (registry.Orderly act)
  | .free _ => inferInstanceAs (Decidable (∀ _ ∈ _, _ → _))
  | .fmeBrRemove _ => inferInstanceAs (Decidable (∀ _ ∈ _, _))
  | .checkPortId _ => inferInstanceAs (Decidable (∀ _ ∈ _, _))
  | .enableSet _ _ => inferInstanceAs (Decidable (∀ _ ∈ _, _ → ∀ _ ∈ _, _))
  | .afuInit _ | .driverRegister _ _ | .rmmod _ | .afuExit _ | .gotId _
  | .fmeBrProbe | .enableReturns _ => isTrue trivial

/-- A bridge takes the operations while the driver is being registered. -/
def takenTooEarly : List (Act Unit) :=
  [.fmeBrProbe, .afuInit ⟨(), true, true⟩, .enableSet 0 (),
    .enableReturns 0, .driverRegister 0 false, .free 0]

theorem takenTooEarly_not_safe :
    ¬ Throughout Safe empty
      (pathOf (orSame perform) (empty : Registry Unit) takenTooEarly) :=
  (portRegistry_safe_iff (isPath_of_allTaken (by decide))).not.mpr
    (not_stepsMeet_of_enabledAlong (by decide))

end Registry

end LinuxDfl.Dfl.PortRegistry

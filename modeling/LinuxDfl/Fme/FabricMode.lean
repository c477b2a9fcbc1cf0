import LinuxDfl.Fme.Perf
import LinuxDfl.Lib.Transition
import Mathlib.Data.List.Perm.Basic

/-!
# The working mode of the fabric counters

Fabric events are initialised and destroyed under a lock, and read without
it, in any order of their accesses to the control register.  The counters
work for the whole fabric or for one port, as the control register says.
-/

namespace LinuxDfl.Fme.Perf

open LinuxDfl.Kernel
open LinuxDfl.Lib.Transition

/-- `FAB_PORT_FILTER_DISABLE` -/
def fabPortFilterDisable : Nat := 0
/-- `FAB_PORT_FILTER_ENABLE` -/
def fabPortFilterEnable : Nat := 1

/-! ## The mode -/

/-- The `fab_port_id` which `fme_perf_setup_hardware` finds. -/
def fmePerfSetupHardware (v : BitVec 64) : BitVec 32 :=
  if fabPortFilter.get v = fabPortFilterDisable then
    fmePortidRoot
  else
    BitVec.ofNat 32 (fabPortId.get v)

/-- What `fabric_event_init` writes to change the mode. -/
def fabModeCtrl (portid : BitVec 32) (v : BitVec 64) : BitVec 64 :=
  let v := v &&& ~~~(fabPortFilter.mask ||| fabPortId.mask)
  if isPortidRoot portid then
    v ||| fabPortFilter.prep fabPortFilterDisable
  else
    let v := v ||| fabPortFilter.prep fabPortFilterEnable
    v ||| fabPortId.prep portid.toNat

/-- The control register says that the counters work for `portid`. -/
def FabMode (portid : BitVec 32) (ctrl : BitVec 64) : Prop :=
  if portid = fmePortidRoot then
    fabPortFilter.get ctrl = fabPortFilterDisable
  else
    fabPortFilter.get ctrl = fabPortFilterEnable ∧
      fabPortId.get ctrl = portid.toNat

/-- The mode fields of the two values are the same. -/
def SameMode (v ctrl : BitVec 64) : Prop :=
  fabPortFilter.get v = fabPortFilter.get ctrl ∧
    fabPortId.get v = fabPortId.get ctrl

theorem FabMode.of_same {portid : BitVec 32} {v ctrl : BitVec 64}
    (mode : FabMode portid ctrl) (same : SameMode v ctrl) :
    FabMode portid v := by
  rw [FabMode] at mode ⊢
  rwa [same.1, same.2]

theorem fabMode_setupHardware (ctrl : BitVec 64) :
    FabMode (fmePerfSetupHardware ctrl) ctrl := by
  have filterBit : fabPortFilter.get ctrl < 2 := fabPortFilter.get_lt ctrl
  have port : fabPortId.get ctrl < 4 := fabPortId.get_lt ctrl
  rw [fmePerfSetupHardware]
  split
  · rename_i disabled
    rw [FabMode, if_pos rfl]
    exact disabled
  · rename_i enabled
    have notRoot :
        BitVec.ofNat 32 (fabPortId.get ctrl) ≠ fmePortidRoot := by
      intro root
      have asNat : (BitVec.ofNat 32 (fabPortId.get ctrl)).toNat = 255 := by
        rw [root]
        rfl
      rw [BitVec.toNat_ofNat] at asNat
      omega
    have filtered : fabPortFilter.get ctrl ≠ 0 := enabled
    rw [FabMode, if_neg notRoot, BitVec.toNat_ofNat, fabPortFilterEnable]
    omega

theorem fabModeCtrl_mode {portid : BitVec 32} {v : BitVec 64}
    (allowed : isPortidRootOrPort portid = true) :
    FabMode portid (fabModeCtrl portid v) := by
  by_cases root : portid = fmePortidRoot
  · have isRoot : isPortidRoot portid = true := beq_iff_eq.mpr root
    have noPort : fabPortId.prep 0 = 0#64 := by decide
    have written :
        fabModeCtrl portid v =
          fabPortId.update (fabPortFilter.update v fabPortFilterDisable)
            0 := by
      rw [← Field.clear_both_of_disjoint _ _ (by decide), noPort,
        BitVec.or_zero, fabModeCtrl, if_pos isRoot]
    rw [FabMode, if_pos root, written,
      Field.get_update_of_disjoint _ _ (by decide),
      Field.get_update _ (by decide)]
    rfl
  · have notRoot : ¬ isPortidRoot portid = true := by
      rwa [isPortidRoot, beq_iff_eq]
    have port : portid < 1#32 := by
      rw [isPortidRootOrPort, Bool.or_eq_true] at allowed
      exact of_decide_eq_true (allowed.resolve_left notRoot)
    have written :
        fabModeCtrl portid v =
          fabPortId.update (fabPortFilter.update v fabPortFilterEnable)
            portid.toNat := by
      rw [← Field.clear_both_of_disjoint _ _ (by decide), fabModeCtrl,
        if_neg notRoot]
    rw [FabMode, if_neg root, written]
    constructor
    · rw [Field.get_update_of_disjoint _ _ (by decide),
        Field.get_update _ (by decide)]
      rfl
    · rw [Field.get_update _ (by decide)]
      exact Nat.mod_eq_of_lt (Nat.lt_trans port (by decide))

/-- A reader selects its event without a change of the mode. -/
theorem sameMode_update (v : BitVec 64) (event : Nat) :
    SameMode (fabCtrlEvnt.update v event) v :=
  ⟨Field.get_update_of_disjoint _ _ (by decide) v event,
    Field.get_update_of_disjoint _ _ (by decide) v event⟩

/-! ## The interleaving -/

/-- A fabric event which is supported by the feature. -/
structure FabEvent (id : BitVec 16) where
  event : BitVec 32
  portid : BitVec 32
  supported : isFabricEventSupported id event portid = true
  deriving DecidableEq

variable {id : BitVec 16}

/-- How far the owner of `fab_lock` has come. -/
inductive FabOwner (id : BitVec 16) where
  | none
  /-- `fabric_event_init` has taken the lock. -/
  | check (event : FabEvent id)
  | readCtrl (event : FabEvent id)
  | writeCtrl (event : FabEvent id) (v : BitVec 64)
  /-- `fabric_event_init` is at its label `exit`. -/
  | exit (event : FabEvent id) (ret : Option Errno)
  /-- `fabric_event_destroy` has taken the lock. -/
  | decrement
  | destroyed

/-- How far the reader has come in `fabric_read_event_counter`. -/
inductive FabReader (id : BitVec 16) where
  | none
  | readCtrl (event : FabEvent id)
  | writeCtrl (event : FabEvent id) (v : BitVec 64)
  | readCntr (event : FabEvent id)

/-- The fabric counters, and who is at work on them. -/
structure Fabric (id : BitVec 16) where
  fabUsers : BitVec 32
  fabPortId : BitVec 32
  /-- `FAB_CTRL` -/
  fabCtrl : BitVec 64
  owner : FabOwner id
  reader : FabReader id
  /-- The live events which are not being read. -/
  idle : List (FabEvent id)

/-- The event which is being read. -/
def FabReader.event : FabReader id → Option (FabEvent id)
  | .none => Option.none
  | .readCtrl event | .writeCtrl event _ | .readCntr event => some event

/-- The events which have been initialised and not destroyed. -/
def Fabric.live (fabric : Fabric id) : List (FabEvent id) :=
  fabric.reader.event.toList ++ fabric.idle

/-- What happens next. -/
inductive FabAction (id : BitVec 16) where
  /-- `fabric_event_init` is called, and takes the lock if it gets so far. -/
  | init (event portid : BitVec 32)
  /-- `fabric_event_destroy` takes the lock. -/
  | destroy (event : FabEvent id)
  /-- The owner of the lock goes on. -/
  | owner
  /-- `fabric_read_event_counter` is called. -/
  | read (event : FabEvent id)
  /-- The reader goes on. -/
  | reader
  /-- The reader reads the counter once more. -/
  | readCntr

/-- `fabric_event_init` after it has taken the lock. -/
def Fabric.checkMode (fabric : Fabric id) (event : FabEvent id) :
    Fabric id :=
  if fabric.fabUsers ≠ 0#32 ∧ fabric.fabPortId ≠ event.portid then
    { fabric with owner := .exit event (some .eopnotsupp) }
  else
    let fabric := { fabric with fabUsers := fabric.fabUsers + 1#32 }
    if fabric.fabPortId = event.portid then
      { fabric with owner := .exit event Option.none }
    else
      { fabric with fabPortId := event.portid, owner := .readCtrl event }

/-- The owner of the lock goes on to its next access. -/
def Fabric.ownerStep (fabric : Fabric id) : Fabric id :=
  match fabric.owner with
  | .none => fabric
  | .check event => fabric.checkMode event
  | .readCtrl event =>
      let v := fabModeCtrl event.portid fabric.fabCtrl
      { fabric with owner := .writeCtrl event v }
  | .writeCtrl event v =>
      { fabric with fabCtrl := v, owner := .exit event Option.none }
  | .exit event Option.none =>
      { fabric with owner := .none, idle := event :: fabric.idle }
  | .exit _ (some _) => { fabric with owner := .none }
  | .decrement =>
      { fabric with fabUsers := fabric.fabUsers - 1#32, owner := .destroyed }
  | .destroyed => { fabric with owner := .none }

/-- The reader goes on to its next access. -/
def Fabric.readerStep (fabric : Fabric id) : Fabric id :=
  match fabric.reader with
  | .none => fabric
  | .readCtrl event =>
      let v := fabCtrlEvnt.update fabric.fabCtrl event.event.toNat
      { fabric with reader := .writeCtrl event v }
  | .writeCtrl event v =>
      { fabric with fabCtrl := v, reader := .readCntr event }
  | .readCntr event =>
      { fabric with reader := .none, idle := event :: fabric.idle }

/-- One access, or the begin or the end of a call. -/
def Fabric.Step (fabric : Fabric id) (action : FabAction id)
    (next : Fabric id) : Prop :=
  match action with
  | .init event portid =>
      if supported : isFabricEventSupported id event portid = true then
        fabric.owner = .none ∧
          next = { fabric with owner := .check ⟨event, portid, supported⟩ }
      else
        next = fabric
  | .destroy event =>
      fabric.owner = .none ∧ event ∈ fabric.idle ∧
        next = { fabric with
          owner := .decrement
          idle := fabric.idle.erase event }
  | .owner => next = fabric.ownerStep
  | .read event =>
      fabric.reader = .none ∧ event ∈ fabric.idle ∧
        next = { fabric with
          reader := .readCtrl event
          idle := fabric.idle.erase event }
  | .reader => next = fabric.readerStep
  | .readCntr =>
      ∃ event, fabric.reader = .readCntr event ∧ next = fabric

/-- The fabric counters when they have been set up. -/
def setUpFabric (id : BitVec 16) (ctrl : BitVec 64) : Fabric id where
  fabUsers := 0#32
  fabPortId := fmePerfSetupHardware ctrl
  fabCtrl := ctrl
  owner := .none
  reader := .none
  idle := []

/-! ## The property -/

/--
While nobody owns the lock, the users are the live events, these are all for
the port of the mode, and the control register has this mode; a reader never
writes another mode back.
-/
structure Fabric.Sound (fabric : Fabric id) : Prop where
  users : fabric.owner = .none →
    fabric.fabUsers.toNat = fabric.live.length
  ports : fabric.owner = .none →
    ∀ event ∈ fabric.live, event.portid = fabric.fabPortId
  mode : fabric.owner = .none → FabMode fabric.fabPortId fabric.fabCtrl
  kept : ∀ event v, fabric.reader = .writeCtrl event v →
    SameMode v fabric.fabCtrl

/-! ## The invariant -/

/-- The owner changes the mode. -/
@[simp]
def FabOwner.Changes : FabOwner id → Prop
  | .readCtrl _ | .writeCtrl _ _ => True
  | _ => False

/-- The event for which the owner has counted a user. -/
@[simp]
def FabOwner.entering : FabOwner id → Option (FabEvent id)
  | .readCtrl event | .writeCtrl event _ | .exit event Option.none =>
      some event
  | _ => Option.none

/-- The owner has yet to count off a user. -/
@[simp]
def FabOwner.leaving : FabOwner id → Nat
  | .decrement => 1
  | _ => 0

/-- What holds at every point of every call. -/
structure Fabric.Inv (fabric : Fabric id) : Prop where
  users : fabric.fabUsers =
    BitVec.ofNat 32
      (fabric.live.length + fabric.owner.entering.toList.length +
        fabric.owner.leaving)
  limit : fabric.live.length + fabric.owner.leaving < 2 ^ 32
  ports : ∀ event ∈ fabric.live ++ fabric.owner.entering.toList,
    event.portid = fabric.fabPortId
  mode : ¬ fabric.owner.Changes → FabMode fabric.fabPortId fabric.fabCtrl
  alone : fabric.owner.Changes → fabric.live = []
  written : ∀ event v, fabric.owner = .writeCtrl event v →
    FabMode fabric.fabPortId v
  kept : ∀ event v, fabric.reader = .writeCtrl event v →
    SameMode v fabric.fabCtrl

/-- What is known when the owner has come so far. -/
theorem Fabric.Inv.ownedBy {fabric : Fabric id} {owner : FabOwner id}
    (inv : fabric.Inv) (owned : fabric.owner = owner) :
    fabric.fabUsers =
        BitVec.ofNat 32
          (fabric.live.length + owner.entering.toList.length +
            owner.leaving) ∧
      fabric.live.length + owner.leaving < 2 ^ 32 ∧
      (∀ event ∈ fabric.live ++ owner.entering.toList,
        event.portid = fabric.fabPortId) ∧
      (¬ owner.Changes → FabMode fabric.fabPortId fabric.fabCtrl) ∧
      (owner.Changes → fabric.live = []) := by
  subst owned
  exact ⟨inv.users, inv.limit, inv.ports, inv.mode, inv.alone⟩

theorem Fabric.Inv.sound {fabric : Fabric id} (inv : fabric.Inv) :
    fabric.Sound where
  users free := by
    obtain ⟨users, limit, -⟩ := inv.ownedBy free
    rw [users, BitVec.toNat_ofNat]
    exact Nat.mod_eq_of_lt limit
  ports free event isLive :=
    inv.ports event (List.mem_append_left _ isLive)
  mode free := by
    obtain ⟨-, -, -, mode, -⟩ := inv.ownedBy free
    exact mode not_false
  kept := inv.kept

theorem inv_setUpFabric (id : BitVec 16) (ctrl : BitVec 64) :
    (setUpFabric id ctrl).Inv where
  users := rfl
  limit := Nat.two_pow_pos 32
  ports event isLive := absurd isLive (List.not_mem_nil)
  mode _ := fabMode_setupHardware ctrl
  alone changes := changes.elim
  written event v impossible := by cases impossible
  kept event v impossible := by cases impossible

theorem FabEvent.isPortidRootOrPort (event : FabEvent id) :
    isPortidRootOrPort event.portid = true := by
  by_contra refused
  have rejected :
      event.event > fabEvntMax ∨ ¬ Perf.isPortidRootOrPort event.portid :=
    .inr refused
  have supported := event.supported
  rw [isFabricEventSupported, if_pos rejected] at supported
  cases supported

/-! ### The reader -/

/-- The invariant does not depend on which of the live events is read. -/
theorem Fabric.Inv.of_live_perm {fabric next : Fabric id}
    (inv : fabric.Inv) (users : next.fabUsers = fabric.fabUsers)
    (portid : next.fabPortId = fabric.fabPortId)
    (owner : next.owner = fabric.owner)
    (same : SameMode next.fabCtrl fabric.fabCtrl)
    (live : next.live.Perm fabric.live)
    (kept : ∀ event v, next.reader = .writeCtrl event v →
      SameMode v next.fabCtrl) : next.Inv where
  users := by
    rw [users, owner, live.length_eq]
    exact inv.users
  limit := by
    rw [owner, live.length_eq]
    exact inv.limit
  ports := by
    intro event isLive
    rw [portid]
    rw [owner] at isLive
    exact inv.ports event ((live.append_right _).mem_iff.mp isLive)
  mode := by
    intro unchanged
    rw [owner] at unchanged
    rw [portid]
    exact (inv.mode unchanged).of_same same
  alone := by
    intro changes
    rw [owner] at changes
    exact List.perm_nil.mp (inv.alone changes ▸ live)
  written := by
    intro event v writes
    rw [owner] at writes
    rw [portid]
    exact inv.written event v writes
  kept := kept

theorem Fabric.Inv.read {fabric : Fabric id} {event : FabEvent id}
    (inv : fabric.Inv) (free : fabric.reader = .none)
    (isIdle : event ∈ fabric.idle) :
    Fabric.Inv { fabric with
      reader := .readCtrl event
      idle := fabric.idle.erase event } := by
  have live : fabric.live = fabric.idle := by
    rw [Fabric.live, free]
    rfl
  refine inv.of_live_perm rfl rfl rfl ⟨rfl, rfl⟩ ?_ ?_
  · rw [live]
    exact (List.perm_cons_erase isIdle).symm
  · intro event v impossible
    cases impossible

theorem Fabric.Inv.readerStep {fabric : Fabric id} (inv : fabric.Inv) :
    fabric.readerStep.Inv := by
  have same : SameMode fabric.fabCtrl fabric.fabCtrl := ⟨rfl, rfl⟩
  cases reads : fabric.reader with
  | none =>
      rw [Fabric.readerStep, reads]
      exact inv
  | readCtrl event =>
      rw [Fabric.readerStep, reads]
      refine inv.of_live_perm rfl rfl rfl same ?_ ?_
      · simp [Fabric.live, reads, FabReader.event]
      · rintro _ _ ⟨⟩
        exact sameMode_update _ _
  | writeCtrl event v =>
      rw [Fabric.readerStep, reads]
      refine inv.of_live_perm rfl rfl rfl (inv.kept event v reads) ?_ ?_
      · simp [Fabric.live, reads, FabReader.event]
      · intro event v impossible
        cases impossible
  | readCntr event =>
      rw [Fabric.readerStep, reads]
      refine inv.of_live_perm rfl rfl rfl same ?_ ?_
      · simp [Fabric.live, reads, FabReader.event]
      · intro event v impossible
        cases impossible

/-! ### The owner of the lock -/

/-- What is to be shown while the mode is not changed. -/
theorem Fabric.Inv.of_unchanging {next : Fabric id}
    (unchanging : ¬ next.owner.Changes)
    (users : next.fabUsers =
      BitVec.ofNat 32
        (next.live.length + next.owner.entering.toList.length +
          next.owner.leaving))
    (limit : next.live.length + next.owner.leaving < 2 ^ 32)
    (ports : ∀ event ∈ next.live ++ next.owner.entering.toList,
      event.portid = next.fabPortId)
    (mode : FabMode next.fabPortId next.fabCtrl)
    (kept : ∀ event v, next.reader = .writeCtrl event v →
      SameMode v next.fabCtrl) : next.Inv where
  users := users
  limit := limit
  ports := ports
  mode _ := mode
  alone changes := absurd changes unchanging
  written := by
    intro event v writes
    rw [writes] at unchanging
    exact absurd trivial unchanging
  kept := kept

theorem Fabric.Inv.init {fabric : Fabric id} (inv : fabric.Inv)
    (free : fabric.owner = .none) (event : FabEvent id) :
    Fabric.Inv { fabric with owner := .check event } := by
  obtain ⟨users, limit, ports, mode, -⟩ := inv.ownedBy free
  exact .of_unchanging not_false users limit ports (mode not_false) inv.kept

theorem Fabric.Inv.destroy {fabric : Fabric id} {event : FabEvent id}
    (inv : fabric.Inv) (free : fabric.owner = .none)
    (isIdle : event ∈ fabric.idle) :
    Fabric.Inv { fabric with
      owner := .decrement
      idle := fabric.idle.erase event } := by
  obtain ⟨users, limit, ports, mode, -⟩ := inv.ownedBy free
  have live : fabric.live.Perm
      (event :: (fabric.reader.event.toList ++ fabric.idle.erase event)) :=
    ((List.perm_cons_erase isIdle).append_left _).trans List.perm_middle
  have length := live.length_eq
  refine .of_unchanging not_false ?_ ?_ ?_ (mode not_false) inv.kept
  · exact users.trans (congrArg _ length)
  · rw [length] at limit
    exact limit
  · intro other isLive
    refine ports other (List.mem_append_left _ (live.mem_iff.mpr ?_))
    rcases List.mem_append.mp isLive with remains | impossible
    · exact List.mem_cons_of_mem _ remains
    · cases impossible

/-- A mode is changed only while there is no live event. -/
theorem Fabric.Inv.live_eq_nil {fabric : Fabric id} {event : FabEvent id}
    (inv : fabric.Inv) (owner : fabric.owner = .check event)
    (unused : fabric.fabUsers = 0#32) : fabric.live = [] := by
  obtain ⟨users, limit, -⟩ := inv.ownedBy owner
  have none : (BitVec.ofNat 32 fabric.live.length).toNat = 0 := by
    have same : fabric.fabUsers = BitVec.ofNat 32 fabric.live.length := users
    rw [← same, unused]
    rfl
  rw [BitVec.toNat_ofNat] at none
  exact List.eq_nil_of_length_eq_zero
    ((Nat.mod_eq_of_lt limit).symm.trans none)

theorem Fabric.Inv.checkMode {fabric : Fabric id} {event : FabEvent id}
    (inv : fabric.Inv) (owner : fabric.owner = .check event) :
    (fabric.checkMode event).Inv := by
  obtain ⟨users, limit, ports, mode, -⟩ := inv.ownedBy owner
  have more : fabric.fabUsers + 1#32 =
      BitVec.ofNat 32 (fabric.live.length + 1) := by
    have same : fabric.fabUsers = BitVec.ofNat 32 fabric.live.length := users
    rw [same, BitVec.ofNat_add]
  rw [Fabric.checkMode]
  split
  · -- another mode is in use
    exact .of_unchanging not_false users limit ports (mode not_false) inv.kept
  rename_i allowed
  dsimp only
  split
  · -- the mode matches
    rename_i matching
    refine .of_unchanging not_false more limit ?_ (mode not_false) inv.kept
    intro other isLive
    rcases List.mem_append.mp isLive with before | entering
    · exact ports other (List.mem_append_left _ before)
    · rw [List.mem_singleton.mp entering]
      exact matching.symm
  · -- the mode is changed
    rename_i differs
    have unused : fabric.fabUsers = 0#32 := by
      by_contra used
      exact allowed ⟨used, differs⟩
    have none : fabric.live = [] := inv.live_eq_nil owner unused
    exact {
      users := more
      limit := limit
      ports := by
        intro other isLive
        rcases List.mem_append.mp isLive with before | entering
        · have absent : other ∈ fabric.live := before
          rw [none] at absent
          cases absent
        · rw [List.mem_singleton.mp entering]
      mode := fun unchanged => absurd trivial unchanged
      alone := fun _ => none
      written := by rintro _ _ ⟨⟩
      kept := inv.kept }

theorem Fabric.Inv.readCtrl {fabric : Fabric id} {event : FabEvent id}
    (inv : fabric.Inv) (owner : fabric.owner = .readCtrl event) :
    Fabric.Inv { fabric with
      owner :=
        .writeCtrl event (fabModeCtrl event.portid fabric.fabCtrl) } := by
  obtain ⟨users, limit, ports, -, alone⟩ := inv.ownedBy owner
  have port : event.portid = fabric.fabPortId :=
    ports event (List.mem_append_right _ (List.mem_singleton_self event))
  exact {
    users := users
    limit := limit
    ports := ports
    mode := fun unchanged => absurd trivial unchanged
    alone := alone
    written := by
      rintro _ _ ⟨⟩
      rw [← port]
      exact fabModeCtrl_mode event.isPortidRootOrPort
    kept := inv.kept }

theorem Fabric.Inv.writeCtrl {fabric : Fabric id} {event : FabEvent id}
    {v : BitVec 64} (inv : fabric.Inv)
    (owner : fabric.owner = .writeCtrl event v) :
    Fabric.Inv { fabric with
      fabCtrl := v
      owner := .exit event Option.none } := by
  obtain ⟨users, limit, ports, -, alone⟩ := inv.ownedBy owner
  have mode := inv.written event v owner
  refine .of_unchanging not_false users limit ports mode ?_
  -- nothing is live, so there is no reader
  intro other value writes
  have none : fabric.live = [] := alone trivial
  have reads : fabric.reader = .writeCtrl other value := writes
  rw [Fabric.live, reads] at none
  cases none

/-- The event is live when `fabric_event_init` returns. -/
theorem Fabric.Inv.exit {fabric : Fabric id} {event : FabEvent id}
    (inv : fabric.Inv) (owner : fabric.owner = .exit event Option.none)
    (limited : fabric.ownerStep.live.length < 2 ^ 32) :
    fabric.ownerStep.Inv := by
  obtain ⟨users, -, ports, mode, -⟩ := inv.ownedBy owner
  have live : fabric.ownerStep.live.Perm (event :: fabric.live) := by
    rw [Fabric.ownerStep, owner]
    exact List.perm_middle
  have length := live.length_eq
  rw [Fabric.ownerStep, owner] at live length limited ⊢
  refine .of_unchanging not_false ?_ limited ?_ (mode not_false) inv.kept
  · exact users.trans (congrArg _ length.symm)
  · intro other isLive
    rcases List.mem_append.mp isLive with isLive | impossible
    · rcases List.mem_cons.mp (live.mem_iff.mp isLive) with rfl | before
      · exact ports other
          (List.mem_append_right _ (List.mem_singleton_self _))
      · exact ports other (List.mem_append_left _ before)
    · cases impossible

theorem Fabric.Inv.decrement {fabric : Fabric id}
    (inv : fabric.Inv) (owner : fabric.owner = .decrement) :
    Fabric.Inv { fabric with
      fabUsers := fabric.fabUsers - 1#32
      owner := .destroyed } := by
  obtain ⟨users, limit, ports, mode, -⟩ := inv.ownedBy owner
  have fewer : fabric.fabUsers - 1#32 =
      BitVec.ofNat 32 fabric.live.length := by
    rw [users, BitVec.ofNat_add]
    exact BitVec.add_sub_cancel _ _
  exact .of_unchanging not_false fewer (Nat.lt_of_succ_lt limit) ports
    (mode not_false) inv.kept

/-- The lock is given back. -/
theorem Fabric.Inv.unlock {fabric : Fabric id} (inv : fabric.Inv)
    (owner : (∃ event code, fabric.owner = .exit event (some code)) ∨
      fabric.owner = .destroyed) :
    Fabric.Inv { fabric with owner := .none } := by
  rcases owner with ⟨event, code, owner⟩ | owner
  all_goals
    obtain ⟨users, limit, ports, mode, -⟩ := inv.ownedBy owner
    exact .of_unchanging not_false users limit ports (mode not_false)
      inv.kept

theorem Fabric.Inv.ownerStep {fabric : Fabric id} (inv : fabric.Inv)
    (limited : fabric.ownerStep.live.length < 2 ^ 32) :
    fabric.ownerStep.Inv := by
  cases owner : fabric.owner with
  | none =>
      rw [Fabric.ownerStep, owner]
      exact inv
  | check event =>
      rw [Fabric.ownerStep, owner]
      exact inv.checkMode owner
  | readCtrl event =>
      rw [Fabric.ownerStep, owner]
      exact inv.readCtrl owner
  | writeCtrl event v =>
      rw [Fabric.ownerStep, owner]
      exact inv.writeCtrl owner
  | exit event ret =>
      cases ret with
      | none => exact inv.exit owner limited
      | some code =>
          rw [Fabric.ownerStep, owner]
          exact inv.unlock (.inl ⟨event, code, owner⟩)
  | decrement =>
      rw [Fabric.ownerStep, owner]
      exact inv.decrement owner
  | destroyed =>
      rw [Fabric.ownerStep, owner]
      exact inv.unlock (.inr owner)

/-- Every step keeps the invariant while the users do not overflow. -/
theorem Fabric.Inv.step {fabric next : Fabric id} {action : FabAction id}
    (inv : fabric.Inv) (limited : next.live.length < 2 ^ 32)
    (step : fabric.Step action next) : next.Inv := by
  cases action with
  | init event portid =>
      rw [Fabric.Step] at step
      split at step
      · obtain ⟨free, rfl⟩ := step
        exact inv.init free _
      · rw [step]
        exact inv
  | destroy event =>
      obtain ⟨free, isIdle, rfl⟩ := step
      exact inv.destroy free isIdle
  | owner =>
      rw [Fabric.Step] at step
      rw [step] at limited ⊢
      exact inv.ownerStep limited
  | read event =>
      obtain ⟨free, isIdle, rfl⟩ := step
      exact inv.read free isIdle
  | reader =>
      rw [Fabric.Step] at step
      rw [step]
      exact inv.readerStep
  | readCntr =>
      obtain ⟨event, reads, rfl⟩ := step
      exact inv

/--
As long as fewer than `2 ^ 32` fabric events are live, the users, the ports
and the mode are sound in every interleaving, and no reader undoes a change
of the mode.
-/
theorem fabric_mode_sound (id : BitVec 16) (ctrl : BitVec 64)
    (path : List (FabAction id × Fabric id))
    (isPath : IsPath Fabric.Step (setUpFabric id ctrl) path)
    (limited : Throughout (fun fabric => fabric.live.length < 2 ^ 32)
      (setUpFabric id ctrl) path) :
    Throughout Fabric.Sound (setUpFabric id ctrl) path :=
  (throughout_of_limit
    (fun _ _ _ inv limited step => Fabric.Inv.step inv limited step)
    isPath limited (inv_setUpFabric id ctrl)).mono fun _ inv => inv.sound

/-! ## Too many users -/

/-- The reads of the first PCIe link, for the whole fabric. -/
def rootEvent : FabEvent featureIdGlobalIperf where
  event := 0#32
  portid := fmePortidRoot
  supported := by decide

/-- The fabric counters with so many live events, which nobody reads. -/
def crowded (users : Nat) : Fabric featureIdGlobalIperf where
  fabUsers := BitVec.ofNat 32 users
  fabPortId := fmePortidRoot
  fabCtrl := 0#64
  owner := .none
  reader := .none
  idle := List.replicate users rootEvent

/-- One more event is initialised. -/
def enter (users : Nat) :
    List (FabAction featureIdGlobalIperf × Fabric featureIdGlobalIperf) :=
  let counted := BitVec.ofNat 32 users + 1#32
  [(.init 0#32 fmePortidRoot,
      { crowded users with owner := .check rootEvent }),
    (.owner,
      { crowded users with
        fabUsers := counted
        owner := .exit rootEvent Option.none }),
    (.owner, crowded (users + 1))]

/-- So many events are initialised one after the other. -/
def crowd : Nat → Nat →
    List (FabAction featureIdGlobalIperf × Fabric featureIdGlobalIperf)
  | _, 0 => []
  | users, more + 1 => enter users ++ crowd (users + 1) more

theorem setUpFabric_zero :
    setUpFabric featureIdGlobalIperf 0#64 = crowded 0 := rfl

theorem checkMode_crowded (users : Nat) :
    Fabric.checkMode { crowded users with owner := .check rootEvent }
        rootEvent =
      { crowded users with
        fabUsers := BitVec.ofNat 32 users + 1#32
        owner := .exit rootEvent Option.none } := by
  rw [Fabric.checkMode, if_neg (fun conflict => conflict.2 rfl)]
  exact if_pos rfl

theorem isPath_enter_append {users : Nat}
    {rest : List (FabAction featureIdGlobalIperf ×
      Fabric featureIdGlobalIperf)}
    (isPath : IsPath Fabric.Step (crowded (users + 1)) rest) :
    IsPath Fabric.Step (crowded users) (enter users ++ rest) := by
  refine ⟨?_, (checkMode_crowded users).symm, ?_, isPath⟩
  · have supported :
        isFabricEventSupported featureIdGlobalIperf 0#32 fmePortidRoot =
          true := rootEvent.supported
    rw [Fabric.Step, dif_pos supported]
    exact ⟨rfl, rfl⟩
  · rw [Fabric.Step, crowded, BitVec.ofNat_add]
    rfl

theorem isPath_crowd (users more : Nat) :
    IsPath Fabric.Step (crowded users) (crowd users more) := by
  induction more generalizing users with
  | zero => trivial
  | succ more ih => exact isPath_enter_append (ih (users + 1))

theorem sound_of_throughout_crowd {users more : Nat}
    (sound :
      Throughout Fabric.Sound (crowded users) (crowd users more)) :
    (crowded (users + more)).Sound := by
  induction more generalizing users with
  | zero => exact sound.1
  | succ more ih =>
      simp only [crowd, enter, List.cons_append, List.nil_append,
        throughout_cons] at sound
      have later : users + (more + 1) = users + 1 + more := by omega
      rw [later]
      exact ih sound.2.2.2

/-- With `2 ^ 32` live events, the counters have no user. -/
theorem fabric_users_overflow :
    IsPath Fabric.Step (setUpFabric featureIdGlobalIperf 0#64)
        (crowd 0 (2 ^ 32)) ∧
      ¬ Throughout Fabric.Sound (setUpFabric featureIdGlobalIperf 0#64)
        (crowd 0 (2 ^ 32)) := by
  rw [setUpFabric_zero]
  refine ⟨isPath_crowd 0 _, fun sound => ?_⟩
  have users := (sound_of_throughout_crowd sound).users rfl
  have live : (crowded (0 + 2 ^ 32)).live.length = 0 + 2 ^ 32 :=
    List.length_replicate
  rw [live] at users
  have below := (crowded (0 + 2 ^ 32)).fabUsers.isLt
  omega

/-- One event for the whole fabric is initialised. -/
theorem fabric_mode_sound_entered :
    Throughout Fabric.Sound (setUpFabric featureIdGlobalIperf 0#64)
      (crowd 0 1) :=
  fabric_mode_sound featureIdGlobalIperf 0#64 (crowd 0 1)
    (isPath_crowd 0 1) (by
      rw [setUpFabric_zero]
      simp [crowd, enter, crowded, Fabric.live, FabReader.event])

end LinuxDfl.Fme.Perf

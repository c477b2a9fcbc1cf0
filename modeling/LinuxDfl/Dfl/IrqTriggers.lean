import LinuxDfl.Kernel.Errno
import LinuxDfl.Lib.Slots
import LinuxDfl.Lib.Transition

/-!
# The triggers of interrupts

The user may have the interrupts of a feature signalled to event
descriptors.  Each context of an interrupt holds a reference to the event, a
name and the interrupt itself while it is bound; what is taken and given back
is recorded.
-/

namespace LinuxDfl.Dfl.IrqTriggers

open LinuxDfl.Kernel
open LinuxDfl.Lib.Balance
open LinuxDfl.Lib.Slots
open LinuxDfl.Lib.Transition

/-! ## The contexts -/

/-- `struct eventfd_ctx *` -/
abbrev EventfdCtx := Nat

/-- The interrupts of a `struct dfl_feature`, each with a number of its own. -/
structure DflFeature where
  nrIrqs : BitVec 32
  /-- `irq_ctx[].irq` -/
  irq : Nat → Int
  distinct : Set.InjOn irq {idx | idx < nrIrqs.toNat}

/-- `struct dfl_feature_irq_ctx`, apart from `irq` which does not change -/
structure IrqCtx where
  name : Option Nat
  trigger : Option EventfdCtx
  deriving DecidableEq, Repr

/-- What a context holds. -/
inductive Resource where
  /-- The interrupt, requested with this trigger. -/
  | irq (irq : Int) (trigger : EventfdCtx)
  /-- A reference to the event. -/
  | eventfd (trigger : EventfdCtx)
  | name (name : Nat)
  deriving DecidableEq, Repr

/-- The contexts of a feature, and what has been taken and given back. -/
structure IrqState where
  irqCtx : Nat → IrqCtx
  events : List (Resource × Use)

namespace IrqState

variable (state : IrqState)

def take (resource : Resource) : IrqState :=
  { state with events := state.events ++ [(resource, .take)] }

def give (resource : Resource) : IrqState :=
  { state with events := state.events ++ [(resource, .give)] }

def setTrigger (idx : Nat) (trigger : Option EventfdCtx) : IrqState :=
  { state with
    irqCtx := Function.update state.irqCtx idx
      { state.irqCtx idx with trigger := trigger } }

def setName (idx : Nat) (name : Option Nat) : IrqState :=
  { state with
    irqCtx := Function.update state.irqCtx idx
      { state.irqCtx idx with name := name } }

/-- `kfree` of the name of a context -/
def kfreeName (idx : Nat) : IrqState :=
  match (state.irqCtx idx).name with
  | none => state
  | some name => state.give (.name name)

end IrqState

/-- The contexts which `devm_kcalloc` has given. -/
def initialState : IrqState := ⟨fun _ => ⟨none, none⟩, []⟩

/-! ## Setting triggers -/

/-- What the kernel answers when a trigger is bound. -/
structure SetAnswer where
  kasprintf : Option Nat
  eventfdCtxFdget : Except Errno EventfdCtx
  requestIrq : Option Errno

/-- The first part of `do_set_irq_trigger`, which unbinds a trigger. -/
def unbind (feature : DflFeature) (idx : Nat) (state : IrqState) :
    IrqState :=
  match (state.irqCtx idx).trigger with
  | none => state
  | some trigger =>
      let state := state.give (.irq (feature.irq idx) trigger)
      let state := state.kfreeName idx
      let state := state.give (.eventfd trigger)
      state.setTrigger idx none

/-- The other part of `do_set_irq_trigger`, for a descriptor. -/
def bind (feature : DflFeature) (idx : Nat) (answer : SetAnswer)
    (state : IrqState) : Option Errno × IrqState :=
  match answer.kasprintf with
  | none => (some .enomem, state.setName idx none)
  | some name =>
      let state := (state.take (.name name)).setName idx (some name)
      match answer.eventfdCtxFdget with
      | .error ret => (some ret, state.kfreeName idx)
      | .ok trigger =>
          let state := state.take (.eventfd trigger)
          match answer.requestIrq with
          | none =>
              let state := state.take (.irq (feature.irq idx) trigger)
              (none, state.setTrigger idx (some trigger))
          | some ret =>
              (some ret, (state.give (.eventfd trigger)).kfreeName idx)

/-- `do_set_irq_trigger` -/
def doSetIrqTrigger (feature : DflFeature) (idx : Nat) (fd : Int)
    (answer : SetAnswer) (state : IrqState) : Option Errno × IrqState :=
  let state := unbind feature idx state
  if fd < 0 then (none, state) else bind feature idx answer state

/--
The loop of `dfl_fpga_set_irq_triggers` over the contexts before `i` when one
has failed, with the highest first.
-/
def rollback (feature : DflFeature) (start : Nat)
    (answers : Nat → SetAnswer) : Nat → IrqState → IrqState
  | 0, state => state
  | i + 1, state =>
      rollback feature start answers i
        (doSetIrqTrigger feature (start + i) (-1) (answers i) state).2

/-- `fds ? fds[i] : -1` -/
def fdAt (fds : Option (Nat → Int)) (i : Nat) : Int :=
  match fds with
  | none => -1
  | some fds => fds i

/-- The loop of `dfl_fpga_set_irq_triggers`, from `i` on -/
def setLoop (feature : DflFeature) (start : Nat) (fds : Option (Nat → Int))
    (answers : Nat → SetAnswer) :
    Nat → Nat → IrqState → Option Errno × IrqState
  | 0, _, state => (none, state)
  | left + 1, i, state =>
      match doSetIrqTrigger feature (start + i) (fdAt fds i) (answers i)
          state with
      | (none, state) => setLoop feature start fds answers left (i + 1) state
      | (some ret, state) =>
          (some ret, rollback feature start answers i state)

/-- `dfl_fpga_set_irq_triggers` -/
def dflFpgaSetIrqTriggers (feature : DflFeature) (start count : BitVec 32)
    (fds : Option (Nat → Int)) (answers : Nat → SetAnswer)
    (state : IrqState) : Option Errno × IrqState :=
  if start + count < start then (some .einval, state)
  else if start + count > feature.nrIrqs then (some .einval, state)
  else setLoop feature start.toNat fds answers count.toNat 0 state

/-- `struct dfl_fpga_irq_set` -/
structure DflFpgaIrqSet where
  start : BitVec 32
  count : BitVec 32

/-- `dfl_feature_ioctl_set_irq`, given what is copied from the user -/
def dflFeatureIoctlSetIrq (feature : DflFeature)
    (hdr : Option DflFpgaIrqSet) (fds : Except Errno (Nat → Int))
    (answers : Nat → SetAnswer) (state : IrqState) :
    Option Errno × IrqState :=
  if feature.nrIrqs = 0 then (some .enoent, state)
  else
    match hdr with
    | none => (some .efault, state)
    | some hdr =>
        if hdr.count = 0 ∨ hdr.start + hdr.count > feature.nrIrqs ∨
            hdr.start + hdr.count < hdr.start then
          (some .einval, state)
        else
          match fds with
          | .error ret => (some ret, state)
          | .ok fds =>
              dflFpgaSetIrqTriggers feature hdr.start hdr.count (some fds)
                answers state

/-! ## Calls -/

/-- A call which sets triggers, with what it meets. -/
inductive IrqCall where
  | triggers (start count : BitVec 32) (fds : Option (Nat → Int))
      (answers : Nat → SetAnswer)
  | ioctl (hdr : Option DflFpgaIrqSet) (fds : Except Errno (Nat → Int))
      (answers : Nat → SetAnswer)

/-- What a call returns, and the state behind it. -/
def IrqCall.run (feature : DflFeature) (state : IrqState) :
    IrqCall → Option Errno × IrqState
  | .triggers start count fds answers =>
      dflFpgaSetIrqTriggers feature start count fds answers state
  | .ioctl hdr fds answers =>
      dflFeatureIoctlSetIrq feature hdr fds answers state

/-- The state behind a call. -/
def IrqCall.apply (feature : DflFeature) (state : IrqState)
    (call : IrqCall) : IrqState :=
  (call.run feature state).2

/-- The contexts which a call is about. -/
def IrqCall.range : IrqCall → Nat × Nat
  | .triggers start count _ _ => (start.toNat, count.toNat)
  | .ioctl none _ _ => (0, 0)
  | .ioctl (some hdr) _ _ => (hdr.start.toNat, hdr.count.toNat)

/-! ## What is asked of them -/

/-- How often a resource is owed; there is no answer if too often given. -/
def IrqState.owed (state : IrqState) (resource : Resource) : Option Nat :=
  owedFrom 0 (usesOf resource state.events)

/-- What is taken is held by the contexts with a trigger, and only by them. -/
structure TriggersSound (feature : DflFeature) (state : IrqState) : Prop where
  /-- A context has this trigger iff its interrupt is requested with it. -/
  requested : ∀ idx < feature.nrIrqs.toNat, ∀ trigger,
    ((state.irqCtx idx).trigger = some trigger ↔
      state.owed (.irq (feature.irq idx) trigger) = some 1) ∧
    ((state.irqCtx idx).trigger ≠ some trigger ↔
      state.owed (.irq (feature.irq idx) trigger) = some 0)
  references : ∀ trigger,
    state.owed (.eventfd trigger) =
      some ((List.range feature.nrIrqs.toNat).countP fun idx =>
        (state.irqCtx idx).trigger = some trigger)
  names : ∀ name,
    state.owed (.name name) =
      some ((List.range feature.nrIrqs.toNat).countP fun idx =>
        (state.irqCtx idx).trigger ≠ none ∧
          (state.irqCtx idx).name = some name)

/-- Only interrupts of these contexts are requested in between. -/
def RequestsOnly (feature : DflFeature) (inside : Nat → Prop)
    (state next : IrqState) : Prop :=
  ∃ events, next.events = state.events ++ events ∧
    ∀ irq trigger, (Resource.irq irq trigger, Use.take) ∈ events →
      ∃ idx, inside idx ∧ feature.irq idx = irq

/--
A call leaves contexts outside of its range as they were.  If it fails, those
which it has tried to bind have no trigger, and the rest are as they were.
-/
structure CallSound (feature : DflFeature) (state : IrqState)
    (call : IrqCall) : Prop where
  outside : ∀ idx,
    ¬ (call.range.1 ≤ idx ∧ idx < call.range.1 + call.range.2) →
      (call.apply feature state).irqCtx idx = state.irqCtx idx
  failed : (call.run feature state).1 ≠ none →
    ∃ tried ≤ call.range.2,
      (∀ idx, call.range.1 ≤ idx → idx < call.range.1 + tried →
        ((call.apply feature state).irqCtx idx).trigger = none) ∧
      (∀ idx, ¬ (call.range.1 ≤ idx ∧ idx < call.range.1 + tried) →
        (call.apply feature state).irqCtx idx = state.irqCtx idx) ∧
      RequestsOnly feature
        (fun idx => call.range.1 ≤ idx ∧ idx < call.range.1 + tried)
        state (call.apply feature state)

/-! ## Fields -/

namespace IrqState

variable (state : IrqState) (resource : Resource) (idx : Nat)

@[simp]
theorem take_irqCtx : (state.take resource).irqCtx = state.irqCtx := rfl

@[simp]
theorem give_irqCtx : (state.give resource).irqCtx = state.irqCtx := rfl

@[simp]
theorem kfreeName_irqCtx : (state.kfreeName idx).irqCtx = state.irqCtx := by
  unfold kfreeName
  cases (state.irqCtx idx).name <;> rfl

@[simp]
theorem take_events :
    (state.take resource).events = state.events ++ [(resource, .take)] :=
  rfl

@[simp]
theorem give_events :
    (state.give resource).events = state.events ++ [(resource, .give)] :=
  rfl

@[simp]
theorem setTrigger_events (trigger : Option EventfdCtx) :
    (state.setTrigger idx trigger).events = state.events := rfl

@[simp]
theorem setName_events (name : Option Nat) :
    (state.setName idx name).events = state.events := rfl

theorem kfreeName_of_some {name : Nat}
    (named : (state.irqCtx idx).name = some name) :
    state.kfreeName idx = state.give (.name name) := by
  simp only [kfreeName, named]

end IrqState

/-! ## What the contexts hold -/

/-- What a context holds while it has a trigger. -/
def IrqCtx.held (irq : Int) (ctx : IrqCtx) : List Resource :=
  match ctx.trigger with
  | none => []
  | some trigger =>
      .irq irq trigger :: .eventfd trigger ::
        (ctx.name.map Resource.name).toList

theorem IrqCtx.held_of_none {irq : Int} {ctx : IrqCtx}
    (free : ctx.trigger = none) : ctx.held irq = [] := by
  rw [IrqCtx.held, free]

/-- What each of the contexts holds. -/
def ctxHolds (feature : DflFeature) (irqCtx : Nat → IrqCtx) (idx : Nat) :
    List Resource :=
  (irqCtx idx).held (feature.irq idx)

/-- What is taken is held by the contexts. -/
def Kept (feature : DflFeature) (state : IrqState) : Prop :=
  Holds (heldIn feature.nrIrqs.toNat (ctxHolds feature state.irqCtx))
    state.events

/-- What is held apart from one context. -/
def besides (feature : DflFeature) (state : IrqState) (idx : Nat) :
    List Resource :=
  heldBeside feature.nrIrqs.toNat (ctxHolds feature state.irqCtx) idx

variable {feature : DflFeature} {state next : IrqState} {idx : Nat}

/-- The other contexts are as they were. -/
def OthersKeep (idx : Nat) (state next : IrqState) : Prop :=
  ∀ other, other ≠ idx → next.irqCtx other = state.irqCtx other

theorem Kept.split (kept : Kept feature state)
    (inside : idx < feature.nrIrqs.toNat) :
    Holds ((state.irqCtx idx).held (feature.irq idx) ++
      besides feature state idx) state.events :=
  Holds.perm kept (heldIn_perm inside)

theorem kept_of_split (inside : idx < feature.nrIrqs.toNat)
    (others : OthersKeep idx state next)
    (holds : Holds ((next.irqCtx idx).held (feature.irq idx) ++
      besides feature state idx) next.events) :
    Kept feature next := by
  have same : besides feature next idx = besides feature state idx := by
    apply heldBeside_congr
    intro beside different
    rw [ctxHolds, ctxHolds, others beside different]
  rw [← same] at holds
  have split : (heldIn feature.nrIrqs.toNat
      (ctxHolds feature next.irqCtx)).Perm
        ((next.irqCtx idx).held (feature.irq idx) ++
          besides feature next idx) := heldIn_perm inside
  exact holds.perm split.symm

theorem initialState_kept (feature : DflFeature) :
    Kept feature initialState := by
  have nothing : heldIn feature.nrIrqs.toNat
      (ctxHolds feature initialState.irqCtx) = [] := heldIn_empty _
  unfold Kept
  rw [nothing]
  exact holds_nil

/-! ## What is requested -/

theorem RequestsOnly.refl (feature : DflFeature) (inside : Nat → Prop)
    (state : IrqState) : RequestsOnly feature inside state state :=
  ⟨[], (List.append_nil _).symm, fun _ _ member =>
    absurd member List.not_mem_nil⟩

theorem RequestsOnly.trans {inside : Nat → Prop} {between : IrqState}
    (first : RequestsOnly feature inside state between)
    (second : RequestsOnly feature inside between next) :
    RequestsOnly feature inside state next := by
  obtain ⟨early, earlyEvents, earlyInside⟩ := first
  obtain ⟨late, lateEvents, lateInside⟩ := second
  refine ⟨early ++ late, ?_, fun irq trigger member => ?_⟩
  · rw [lateEvents, earlyEvents, List.append_assoc]
  · rcases List.mem_append.mp member with member | member
    · exact earlyInside irq trigger member
    · exact lateInside irq trigger member

theorem RequestsOnly.mono {inside wider : Nat → Prop}
    (requests : RequestsOnly feature inside state next)
    (implies : ∀ idx, inside idx → wider idx) :
    RequestsOnly feature wider state next := by
  obtain ⟨events, appended, only⟩ := requests
  refine ⟨events, appended, fun irq trigger member => ?_⟩
  obtain ⟨idx, within, same⟩ := only irq trigger member
  exact ⟨idx, implies idx within, same⟩

/-! ## Setting one trigger -/

/-- A context is unbound: what it held is given back. -/
structure Unbinds (feature : DflFeature) (idx : Nat)
    (state next : IrqState) : Prop where
  others : OthersKeep idx state next
  free : (next.irqCtx idx).trigger = none
  kept : idx < feature.nrIrqs.toNat → Kept feature state →
    Kept feature next
  requests : RequestsOnly feature (fun _ => False) state next

/-- What the context holds is given back, the name before the reference. -/
theorem unbind_events (feature : DflFeature) {trigger : EventfdCtx}
    (bound : (state.irqCtx idx).trigger = some trigger) :
    ∃ given : List Resource,
      given.Perm ((state.irqCtx idx).held (feature.irq idx)) ∧
        (unbind feature idx state).events =
          state.events ++ given.map fun resource => (resource, .give) := by
  cases named : (state.irqCtx idx).name with
  | none =>
      refine ⟨[.irq (feature.irq idx) trigger, .eventfd trigger], ?_, ?_⟩
      · simp [IrqCtx.held, bound, named]
      · simp [unbind, bound, IrqState.kfreeName, named]
  | some name =>
      refine ⟨[.irq (feature.irq idx) trigger, .name name, .eventfd trigger],
        ?_, ?_⟩
      · simp only [IrqCtx.held, bound, named, Option.map_some,
          Option.toList_some]
        exact (List.Perm.swap _ _ _).cons _
      · simp [unbind, bound, IrqState.kfreeName, named]

theorem unbind_unbinds (feature : DflFeature) (idx : Nat)
    (state : IrqState) :
    Unbinds feature idx state (unbind feature idx state) := by
  cases bound : (state.irqCtx idx).trigger with
  | none =>
      have same : unbind feature idx state = state := by
        simp only [unbind, bound]
      rw [same]
      exact ⟨fun _ _ => rfl, bound, fun _ kept => kept,
        RequestsOnly.refl _ _ _⟩
  | some trigger =>
      have others : OthersKeep idx state (unbind feature idx state) := by
        intro other different
        simp [unbind, bound, IrqState.setTrigger, different]
      have free : ((unbind feature idx state).irqCtx idx).trigger = none := by
        simp [unbind, bound, IrqState.setTrigger]
      obtain ⟨given, holds, events⟩ := unbind_events feature bound
      refine ⟨others, free, ?_, ?_⟩
      · intro inside kept
        apply kept_of_split inside others
        rw [IrqCtx.held_of_none free, List.nil_append, events]
        have held := (kept.split inside).perm (holds.symm.append_right _)
        exact held.giveBack
      · refine ⟨_, events, ?_⟩
        intro irq other member
        simp at member

/-- A context without a trigger is bound, or stays without one. -/
structure Binds (feature : DflFeature) (idx : Nat) (state : IrqState)
    (ret : Option Errno) (next : IrqState) : Prop where
  others : OthersKeep idx state next
  failed : ret ≠ none → (next.irqCtx idx).trigger = none
  kept : idx < feature.nrIrqs.toNat → Kept feature state →
    Kept feature next
  requests : RequestsOnly feature (fun other => other = idx) state next

/-- A failure gives back what it has taken. -/
theorem binds_of_settled {ret : Errno}
    (unbound : (state.irqCtx idx).trigger = none)
    (others : OthersKeep idx state next)
    (free : (next.irqCtx idx).trigger = none)
    (settled : ∀ held, Holds held state.events → Holds held next.events)
    (requests : RequestsOnly feature (fun other => other = idx) state next) :
    Binds feature idx state (some ret) next where
  others := others
  failed _ := free
  kept inside kept := by
    have holds := kept.split inside
    rw [IrqCtx.held_of_none unbound] at holds
    apply kept_of_split inside others
    rw [IrqCtx.held_of_none free]
    exact settled _ holds
  requests := requests

section Bind

variable {name : Nat} {trigger : EventfdCtx}

/-- The state when a name has been allocated and stored. -/
def named (idx name : Nat) (state : IrqState) : IrqState :=
  (state.take (.name name)).setName idx (some name)

theorem named_name : ((named idx name state).irqCtx idx).name = some name := by
  simp [named, IrqState.setName]

theorem named_trigger (unbound : (state.irqCtx idx).trigger = none) :
    ((named idx name state).irqCtx idx).trigger = none := by
  simpa [named, IrqState.setName] using unbound

theorem othersKeep_named : OthersKeep idx state (named idx name state) := by
  intro other different
  simp [named, IrqState.setName, different]

@[simp]
theorem named_events :
    (named idx name state).events = state.events ++ [(.name name, .take)] :=
  rfl

/-- There is no memory for the name. -/
theorem binds_nameless (unbound : (state.irqCtx idx).trigger = none) :
    Binds feature idx state (some .enomem) (state.setName idx none) := by
  apply binds_of_settled unbound
  · intro other different
    simp [IrqState.setName, different]
  · simpa [IrqState.setName] using unbound
  · exact fun _ holds => holds
  · exact RequestsOnly.refl _ _ _

/-- The descriptor is not one of an event. -/
theorem binds_not_found (ret : Errno)
    (unbound : (state.irqCtx idx).trigger = none) :
    Binds feature idx state (some ret)
      ((named idx name state).kfreeName idx) := by
  rw [IrqState.kfreeName_of_some _ idx named_name]
  refine binds_of_settled unbound othersKeep_named (named_trigger unbound)
    ?_ ?_
  · intro held holds
    exact (holds.take (.name name)).give
  · exact ⟨[(.name name, .take), (.name name, .give)], by simp, by simp⟩

/-- The interrupt is not given. -/
theorem binds_not_requested (ret : Errno)
    (unbound : (state.irqCtx idx).trigger = none) :
    Binds feature idx state (some ret)
      ((((named idx name state).take (.eventfd trigger)).give
        (.eventfd trigger)).kfreeName idx) := by
  have isNamed : ((((named idx name state).take (.eventfd trigger)).give
      (.eventfd trigger)).irqCtx idx).name = some name := named_name
  rw [IrqState.kfreeName_of_some _ idx isNamed]
  refine binds_of_settled unbound othersKeep_named (named_trigger unbound)
    ?_ ?_
  · intro held holds
    exact ((holds.take (.name name)).take (.eventfd trigger)).give.give
  · exact ⟨[(.name name, .take), (.eventfd trigger, .take),
      (.eventfd trigger, .give), (.name name, .give)], by simp, by simp⟩

/-- The interrupt is requested with the trigger. -/
theorem binds_requested (unbound : (state.irqCtx idx).trigger = none) :
    Binds feature idx state none
      ((((named idx name state).take (.eventfd trigger)).take
        (.irq (feature.irq idx) trigger)).setTrigger idx (some trigger)) := by
  let next :=
    (((named idx name state).take (.eventfd trigger)).take
      (.irq (feature.irq idx) trigger)).setTrigger idx (some trigger)
  have others : OthersKeep idx state next := by
    intro other different
    simpa [next, IrqState.setTrigger, different] using
      othersKeep_named other different
  have heldNow : (next.irqCtx idx).held (feature.irq idx) =
      [.irq (feature.irq idx) trigger, .eventfd trigger, .name name] := by
    simp [next, IrqState.setTrigger, IrqCtx.held, named_name]
  refine ⟨others, fun fails => absurd rfl fails, ?_, ?_⟩
  · intro inside kept
    have holds := kept.split inside
    rw [IrqCtx.held_of_none unbound, List.nil_append] at holds
    apply kept_of_split inside others
    rw [heldNow]
    exact ((holds.take (.name name)).take (.eventfd trigger)).take
      (.irq (feature.irq idx) trigger)
  · refine ⟨[(.name name, .take), (.eventfd trigger, .take),
      (.irq (feature.irq idx) trigger, .take)], by simp, ?_⟩
    intro irq other member
    have same : irq = feature.irq idx := by
      simp at member
      exact member.1
    exact ⟨idx, rfl, same.symm⟩

end Bind

theorem bind_binds (feature : DflFeature) (idx : Nat) (answer : SetAnswer)
    (state : IrqState) (unbound : (state.irqCtx idx).trigger = none) :
    Binds feature idx state (bind feature idx answer state).1
      (bind feature idx answer state).2 := by
  obtain ⟨kasprintf, fdget, requestIrq⟩ := answer
  cases kasprintf with
  | none => exact binds_nameless unbound
  | some name =>
      cases fdget with
      | error ret => exact binds_not_found ret unbound
      | ok trigger =>
          cases requestIrq with
          | some ret => exact binds_not_requested ret unbound
          | none => exact binds_requested unbound

theorem doSetIrqTrigger_binds (feature : DflFeature) (idx : Nat) (fd : Int)
    (answer : SetAnswer) (state : IrqState) :
    Binds feature idx state
      (doSetIrqTrigger feature idx fd answer state).1
      (doSetIrqTrigger feature idx fd answer state).2 := by
  have unbinds := unbind_unbinds feature idx state
  unfold doSetIrqTrigger
  dsimp only
  split_ifs with negative
  · exact ⟨unbinds.others, fun _ => unbinds.free, unbinds.kept,
      unbinds.requests.mono fun _ never => never.elim⟩
  · have binds := bind_binds feature idx answer _ unbinds.free
    refine ⟨fun other different => ?_, binds.failed, ?_, ?_⟩
    · rw [binds.others other different, unbinds.others other different]
    · exact fun inside kept => binds.kept inside (unbinds.kept inside kept)
    · exact (unbinds.requests.mono fun _ never => never.elim).trans
        binds.requests

/-- A negative descriptor unbinds. -/
theorem doSetIrqTrigger_unbinds (feature : DflFeature) (idx : Nat)
    (answer : SetAnswer) (state : IrqState) :
    Unbinds feature idx state
      (doSetIrqTrigger feature idx (-1) answer state).2 :=
  unbind_unbinds feature idx state

/-! ## The loops -/

/-- A stretch of contexts. -/
def Within (first count idx : Nat) : Prop :=
  first ≤ idx ∧ idx < first + count

theorem not_within_zero (first idx : Nat) : ¬ Within first 0 idx :=
  fun within => absurd within.2 (Nat.not_lt.mpr within.1)

/-- The last context of a longer stretch. -/
theorem within_succ {first count idx : Nat} :
    Within first (count + 1) idx ↔
      Within first count idx ∨ idx = first + count := by
  unfold Within
  omega

/-- The first context of a longer stretch. -/
theorem within_succ_first {first count idx : Nat} :
    Within first (count + 1) idx ↔
      idx = first ∨ Within (first + 1) count idx := by
  unfold Within
  omega

theorem not_within_last (first count : Nat) :
    ¬ Within first count (first + count) :=
  fun within => absurd within.2 (Nat.lt_irrefl _)

theorem Within.mono {first count more idx : Nat}
    (within : Within first count idx) (le : count ≤ more) :
    Within first more idx :=
  ⟨within.1, Nat.lt_of_lt_of_le within.2 (Nat.add_le_add_left le first)⟩

/-- The contexts which have been bound before are unbound. -/
structure RollsBack (feature : DflFeature) (start i : Nat)
    (state next : IrqState) : Prop where
  free : ∀ idx, Within start i idx → (next.irqCtx idx).trigger = none
  others : ∀ idx, ¬ Within start i idx →
    next.irqCtx idx = state.irqCtx idx
  kept : start + i ≤ feature.nrIrqs.toNat → Kept feature state →
    Kept feature next
  requests : RequestsOnly feature (fun _ => False) state next

theorem rollback_rollsBack (feature : DflFeature) (start : Nat)
    (answers : Nat → SetAnswer) (i : Nat) (state : IrqState) :
    RollsBack feature start i state
      (rollback feature start answers i state) := by
  induction i generalizing state with
  | zero =>
      exact ⟨fun idx within => absurd within (not_within_zero start idx),
        fun _ _ => rfl, fun _ kept => kept, RequestsOnly.refl _ _ _⟩
  | succ i ih =>
      have unbinds :=
        doSetIrqTrigger_unbinds feature (start + i) (answers i) state
      have later := ih
        (doSetIrqTrigger feature (start + i) (-1) (answers i) state).2
      refine ⟨?_, ?_, ?_, unbinds.requests.trans later.requests⟩
      · intro idx within
        rcases within_succ.mp within with earlier | rfl
        · exact later.free idx earlier
        · rw [rollback, later.others _ (not_within_last start i)]
          exact unbinds.free
      · intro idx beyond
        have apart : ¬ Within start i idx :=
          fun earlier => beyond (within_succ.mpr (.inl earlier))
        have different : idx ≠ start + i :=
          fun last => beyond (within_succ.mpr (.inr last))
        rw [rollback, later.others idx apart, unbinds.others idx different]
      · intro inside kept
        have kept := unbinds.kept (Nat.lt_of_succ_le inside) kept
        exact later.kept (Nat.le_of_succ_le inside) kept

/-- What the loop has done which set triggers from `i` on. -/
structure Sets (feature : DflFeature) (start left i : Nat)
    (state : IrqState) (ret : Option Errno) (next : IrqState) : Prop where
  kept : start + i + left ≤ feature.nrIrqs.toNat → Kept feature state →
    Kept feature next
  done : ret = none → ∀ idx, ¬ Within (start + i) left idx →
    next.irqCtx idx = state.irqCtx idx
  failed : ret ≠ none → ∃ tried ≤ i + left, i ≤ tried ∧
    (∀ idx, Within start tried idx → (next.irqCtx idx).trigger = none) ∧
    (∀ idx, ¬ Within start tried idx →
      next.irqCtx idx = state.irqCtx idx) ∧
    RequestsOnly feature (Within start tried) state next

/-- A context has been set, and the rest of the loop follows. -/
theorem Sets.behind {start left i : Nat} {between : IrqState}
    {ret : Option Errno}
    (binds : Binds feature (start + i) state none between)
    (later : Sets feature start left (i + 1) between ret next) :
    Sets feature start (left + 1) i state ret next where
  kept inside kept :=
    later.kept (by omega) (binds.kept (by omega) kept)
  done fine idx beyond := by
    have apart : ¬ Within (start + (i + 1)) left idx :=
      fun within => beyond (within_succ_first.mpr (.inr within))
    have different : idx ≠ start + i :=
      fun first => beyond (within_succ_first.mpr (.inl first))
    exact (later.done fine idx apart).trans (binds.others idx different)
  failed fails := by
    obtain ⟨tried, most, least, free, others, requests⟩ := later.failed fails
    have among : Within start tried (start + i) :=
      (within_succ.mpr (.inr rfl)).mono least
    refine ⟨tried, by omega, by omega, free, ?_, ?_⟩
    · intro idx beyond
      have different : idx ≠ start + i := by
        rintro rfl
        exact beyond among
      exact (others idx beyond).trans (binds.others idx different)
    · refine (binds.requests.mono fun idx same => ?_).trans requests
      rw [same]
      exact among

/-- A context could not be set, and those before it are unbound. -/
theorem Sets.failing {start left i : Nat} {between : IrqState} {ret : Errno}
    (binds : Binds feature (start + i) state (some ret) between)
    (back : RollsBack feature start i between next) :
    Sets feature start (left + 1) i state (some ret) next where
  kept inside kept := back.kept (by omega) (binds.kept (by omega) kept)
  done fine := nomatch fine
  failed _ := by
    have free := binds.failed (by simp)
    refine ⟨i + 1, by omega, by omega, ?_, ?_, ?_⟩
    · intro idx within
      rcases within_succ.mp within with earlier | rfl
      · exact back.free idx earlier
      · rw [back.others _ (not_within_last start i)]
        exact free
    · intro idx beyond
      have apart : ¬ Within start i idx :=
        fun earlier => beyond (within_succ.mpr (.inl earlier))
      have different : idx ≠ start + i :=
        fun last => beyond (within_succ.mpr (.inr last))
      exact (back.others idx apart).trans (binds.others idx different)
    · refine (binds.requests.mono fun idx same => ?_).trans
        (back.requests.mono fun _ never => never.elim)
      rw [same]
      exact within_succ.mpr (.inr rfl)

theorem setLoop_sets (feature : DflFeature) (start : Nat)
    (fds : Option (Nat → Int)) (answers : Nat → SetAnswer) (left i : Nat)
    (state : IrqState) :
    Sets feature start left i state
      (setLoop feature start fds answers left i state).1
      (setLoop feature start fds answers left i state).2 := by
  induction left generalizing i state with
  | zero =>
      exact ⟨fun _ kept => kept, fun _ _ _ => rfl,
        fun fails => absurd rfl fails⟩
  | succ left ih =>
      have binds := doSetIrqTrigger_binds feature (start + i) (fdAt fds i)
        (answers i) state
      rcases set : doSetIrqTrigger feature (start + i) (fdAt fds i)
        (answers i) state with ⟨ret, between⟩
      rw [set] at binds
      cases ret with
      | none =>
          simp only [setLoop, set]
          exact .behind binds (ih (i + 1) between)
      | some ret =>
          simp only [setLoop, set]
          exact .failing binds
            (rollback_rollsBack feature start answers i between)

/-! ## Calls -/

/-- What a call does to the contexts of a range. -/
structure Confines (feature : DflFeature) (start count : Nat)
    (state : IrqState) (ret : Option Errno) (next : IrqState) : Prop where
  kept : Kept feature state → Kept feature next
  outside : ∀ idx, ¬ Within start count idx →
    next.irqCtx idx = state.irqCtx idx
  failed : ret ≠ none → ∃ tried ≤ count,
    (∀ idx, Within start tried idx → (next.irqCtx idx).trigger = none) ∧
    (∀ idx, ¬ Within start tried idx →
      next.irqCtx idx = state.irqCtx idx) ∧
    RequestsOnly feature (Within start tried) state next

/-- A call which is refused changes nothing. -/
theorem confines_refused (feature : DflFeature) (start count : Nat)
    (state : IrqState) (ret : Option Errno) :
    Confines feature start count state ret state where
  kept kept := kept
  outside _ _ := rfl
  failed _ := by
    exact ⟨0, Nat.zero_le _,
      fun idx within => absurd within (not_within_zero start idx),
      fun _ _ => rfl, RequestsOnly.refl _ _ _⟩

theorem dflFpgaSetIrqTriggers_confines (feature : DflFeature)
    (start count : BitVec 32) (fds : Option (Nat → Int))
    (answers : Nat → SetAnswer) (state : IrqState) :
    Confines feature start.toNat count.toNat state
      (dflFpgaSetIrqTriggers feature start count fds answers state).1
      (dflFpgaSetIrqTriggers feature start count fds answers state).2 := by
  unfold dflFpgaSetIrqTriggers
  split_ifs with overflow exceeds
  · exact confines_refused _ _ _ _ _
  · exact confines_refused _ _ _ _ _
  · have sets :=
      setLoop_sets feature start.toNat fds answers count.toNat 0 state
    have inside : start.toNat + 0 + count.toNat ≤ feature.nrIrqs.toNat := by
      bv_omega
    refine ⟨sets.kept inside, fun idx beyond => ?_, fun fails => ?_⟩
    · by_cases fine : (setLoop feature start.toNat fds answers count.toNat 0
          state).1 = none
      · exact sets.done fine idx beyond
      · obtain ⟨tried, most, -, -, others, -⟩ := sets.failed fine
        apply others
        rw [Nat.zero_add] at most
        exact fun within => beyond (within.mono most)
    · obtain ⟨tried, most, -, rest⟩ := sets.failed fails
      exact ⟨tried, by omega, rest⟩

theorem run_confines (feature : DflFeature) (state : IrqState)
    (call : IrqCall) :
    Confines feature call.range.1 call.range.2 state
      (call.run feature state).1 (call.apply feature state) := by
  cases call with
  | triggers start count fds answers =>
      exact dflFpgaSetIrqTriggers_confines feature start count fds answers
        state
  | ioctl hdr fds answers =>
      unfold IrqCall.apply IrqCall.run dflFeatureIoctlSetIrq
      dsimp only
      split_ifs with none
      · exact confines_refused _ _ _ _ _
      · cases hdr with
        | none => exact confines_refused _ _ _ _ _
        | some hdr =>
            dsimp only
            split_ifs with refused
            · exact confines_refused _ _ _ _ _
            · cases fds with
              | error ret => exact confines_refused _ _ _ _ _
              | ok fds =>
                  exact dflFpgaSetIrqTriggers_confines feature hdr.start
                    hdr.count (some fds) answers state

theorem run_callSound (feature : DflFeature) (state : IrqState)
    (call : IrqCall) : CallSound feature state call where
  outside := (run_confines feature state call).outside
  failed fails := by
    obtain ⟨tried, most, free, others, requests⟩ :=
      (run_confines feature state call).failed fails
    exact ⟨tried, most, fun idx first last => free idx ⟨first, last⟩, others,
      requests⟩

/-! ## What is held by whom -/

theorem IrqCtx.held_nodup (irq : Int) (ctx : IrqCtx) :
    (ctx.held irq).Nodup := by
  obtain ⟨name, trigger⟩ := ctx
  cases trigger with
  | none => exact List.nodup_nil
  | some trigger => cases name <;> simp [IrqCtx.held]

theorem IrqCtx.irq_mem_held {irq other : Int} {ctx : IrqCtx}
    {trigger : EventfdCtx} :
    Resource.irq other trigger ∈ ctx.held irq ↔
      other = irq ∧ ctx.trigger = some trigger := by
  obtain ⟨name, bound⟩ := ctx
  cases bound with
  | none => simp [IrqCtx.held]
  | some bound => cases name <;> simp [IrqCtx.held, eq_comm]

theorem IrqCtx.eventfd_mem_held {irq : Int} {ctx : IrqCtx}
    {trigger : EventfdCtx} :
    Resource.eventfd trigger ∈ ctx.held irq ↔
      ctx.trigger = some trigger := by
  obtain ⟨name, bound⟩ := ctx
  cases bound with
  | none => simp [IrqCtx.held]
  | some bound => cases name <;> simp [IrqCtx.held, eq_comm]

theorem IrqCtx.name_mem_held {irq : Int} {ctx : IrqCtx} {name : Nat} :
    Resource.name name ∈ ctx.held irq ↔
      ctx.trigger ≠ none ∧ ctx.name = some name := by
  obtain ⟨named, bound⟩ := ctx
  cases bound with
  | none => simp [IrqCtx.held]
  | some bound => cases named <;> simp [IrqCtx.held, eq_comm]

/-- A resource is owed as often as there are contexts which hold it. -/
theorem Kept.owed (kept : Kept feature state) (resource : Resource) :
    state.owed resource =
      some ((List.range feature.nrIrqs.toNat).countP fun idx =>
        resource ∈ ctxHolds feature state.irqCtx idx) := by
  have once (idx : Nat) : (ctxHolds feature state.irqCtx idx).Nodup :=
    IrqCtx.held_nodup _ _
  rw [← count_heldIn once]
  exact kept resource

theorem Kept.sound (kept : Kept feature state) :
    TriggersSound feature state where
  requested := by
    intro idx inside trigger
    have owed := kept.owed (.irq (feature.irq idx) trigger)
    rw [countP_range_unique inside ?_] at owed
    · by_cases bound : (state.irqCtx idx).trigger = some trigger
      · have member : Resource.irq (feature.irq idx) trigger ∈
            ctxHolds feature state.irqCtx idx :=
          IrqCtx.irq_mem_held.mpr ⟨rfl, bound⟩
        rw [owed]
        simp [member, bound]
      · have apart : Resource.irq (feature.irq idx) trigger ∉
            ctxHolds feature state.irqCtx idx :=
          fun member => bound (IrqCtx.irq_mem_held.mp member).2
        rw [owed]
        simp [apart, bound]
    · intro other below member
      have same := (IrqCtx.irq_mem_held.mp (of_decide_eq_true member)).1
      exact feature.distinct below inside same.symm
  references := by
    intro trigger
    rw [kept.owed]
    simp only [ctxHolds, IrqCtx.eventfd_mem_held]
  names := by
    intro name
    rw [kept.owed]
    simp only [ctxHolds, IrqCtx.name_mem_held]

/--
Along every sequence of calls, whatever fails in them: a context has a trigger
if and only if its interrupt is requested with it, all references and names
are held by contexts with a trigger, and each call keeps to its range and
leaves no trigger behind when it fails.
-/
theorem irq_triggers_sound (feature : DflFeature) (calls : List IrqCall) :
    let path := pathOf (IrqCall.apply feature) initialState calls
    Throughout (TriggersSound feature) initialState path ∧
      StepsMeet (CallSound feature) initialState path := by
  intro path
  have throughout : Throughout (Kept feature) initialState path := by
    refine throughout_of_invariant ?_
      (isPath_pathOf (IrqCall.apply feature) initialState calls)
      (initialState_kept feature)
    rintro source call target kept rfl
    exact (run_confines feature source call).kept kept
  constructor
  · exact throughout.mono fun _ kept => kept.sound
  · exact throughout.stepsMeet fun state _ call =>
      run_callSound feature state call

/-- A feature with three interrupts. -/
def threeInterrupts : DflFeature where
  nrIrqs := 3
  irq idx := 33 + idx
  distinct := fun first _ second _ same => by
    simp only [add_right_inj, Nat.cast_inj] at same
    exact same

/--
All three interrupts get a trigger; then the last two are to get others, and
the last one cannot be requested.
-/
def boundThenRefused : List IrqCall :=
  [.ioctl (some ⟨0, 3⟩) (.ok fun i => i) fun i => ⟨some i, .ok i, none⟩,
    .triggers 1 2 (some fun i => i) fun i =>
      ⟨some (3 + i), .ok (3 + i), if i = 1 then some .ebusy else none⟩]

theorem threeInterrupts_sound :
    let path :=
      pathOf (IrqCall.apply threeInterrupts) initialState boundThenRefused
    Throughout (TriggersSound threeInterrupts) initialState path ∧
      StepsMeet (CallSound threeInterrupts) initialState path ∧
      path.map (fun entry =>
          (List.range 3).map fun idx => (entry.2.irqCtx idx).trigger) =
        [[some 0, some 1, some 2], [some 0, none, none]] := by
  intro path
  obtain ⟨throughout, meets⟩ :=
    irq_triggers_sound threeInterrupts boundThenRefused
  exact ⟨throughout, meets, rfl⟩

end LinuxDfl.Dfl.IrqTriggers

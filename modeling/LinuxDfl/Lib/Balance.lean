import LinuxDfl.Lib.Traced

/-!
# Taking and giving back

The uses which a trace makes of its resources.  A resource is owed as often
as it has been taken and not given back; it is settled when nothing is owed
and nothing has been given back which was not taken before.
-/

namespace LinuxDfl.Lib.Balance

/-- A resource is taken, or given back. -/
inductive Use where
  | take
  | give
  deriving DecidableEq, Repr

variable {Resource : Type} [DecidableEq Resource]

/-- What a trace does to one resource, in order. -/
def usesOf (resource : Resource) (events : List (Resource × Use)) :
    List Use :=
  (events.filter fun event => event.1 = resource).map Prod.snd

@[simp]
theorem usesOf_nil (resource : Resource) : usesOf resource [] = [] := rfl

theorem usesOf_append
    (resource : Resource) (first rest : List (Resource × Use)) :
    usesOf resource (first ++ rest) =
      usesOf resource first ++ usesOf resource rest := by
  simp only [usesOf, List.filter_append, List.map_append]

theorem usesOf_singleton (resource other : Resource) (use : Use) :
    usesOf resource [(other, use)] =
      if other = resource then [use] else [] := by
  by_cases same : other = resource <;> simp [usesOf, same]

/-- A resource which is used somewhere has uses. -/
theorem usesOf_ne_nil {resource : Resource} {use : Use}
    {events : List (Resource × Use)} (member : (resource, use) ∈ events) :
    usesOf resource events ≠ [] := by
  intro none
  have kept : use ∈ usesOf resource events :=
    List.mem_map_of_mem (List.mem_filter.mpr ⟨member, decide_eq_true rfl⟩)
  rw [none] at kept
  exact absurd kept List.not_mem_nil

/--
How often a resource is owed after some uses, when it is owed `owed` times
before them.  There is no answer if it is given back while it is not owed.
-/
def owedFrom : Nat → List Use → Option Nat
  | owed, [] => some owed
  | owed, .take :: rest => owedFrom (owed + 1) rest
  | 0, .give :: _ => none
  | owed + 1, .give :: rest => owedFrom owed rest

theorem owedFrom_append (owed : Nat) (first rest : List Use) :
    owedFrom owed (first ++ rest) =
      (owedFrom owed first).bind fun between => owedFrom between rest := by
  induction first generalizing owed with
  | nil => rfl
  | cons use uses ih =>
      cases use with
      | take => exact ih (owed + 1)
      | give =>
          cases owed with
          | zero => rfl
          | succ owed => exact ih owed

/-- Every taking is matched by a giving back which comes after it. -/
def Settled (uses : List Use) : Prop := owedFrom 0 uses = some 0

instance (uses : List Use) : Decidable (Settled uses) :=
  inferInstanceAs (Decidable (_ = _))

/-- How often a resource is taken. -/
def taken (uses : List Use) : Nat := uses.count .take

theorem taken_append (first rest : List Use) :
    taken (first ++ rest) = taken first + taken rest :=
  List.count_append

/-- What is taken and given back, once each and in this order. -/
def Once (uses : List Use) : Prop := uses = [.take, .give]

/-- What is never taken cannot be given back either. -/
theorem settled_untaken {uses : List Use}
    (settled : Settled uses) (untaken : taken uses = 0) : uses = [] := by
  cases uses with
  | nil => rfl
  | cons use rest =>
      cases use with
      | take => simp [taken] at untaken
      | give => cases settled

theorem owedFrom_one_untaken {uses : List Use}
    (settles : owedFrom 1 uses = some 0) (untaken : taken uses = 0) :
    uses = [.give] := by
  cases uses with
  | nil => cases settles
  | cons use rest =>
      cases use with
      | take => simp [taken] at untaken
      | give =>
          have rest_nil : rest = [] :=
            settled_untaken settles (by simpa [taken] using untaken)
          rw [rest_nil]

/-- What is settled and taken at most once is used once or not at all. -/
theorem settled_once {uses : List Use}
    (settled : Settled uses) (few : taken uses ≤ 1) :
    uses = [] ∨ Once uses := by
  cases uses with
  | nil => exact Or.inl rfl
  | cons use rest =>
      cases use with
      | give => cases settled
      | take =>
          have untaken : taken rest = 0 := by
            simpa [taken] using few
          right
          show _ = _
          rw [owedFrom_one_untaken settled untaken]

/-! ## What a trace owes -/

/-- Every resource is owed as often as `owed` says. -/
def Owes (owed : Resource → Nat) (events : List (Resource × Use)) : Prop :=
  ∀ resource, owedFrom 0 (usesOf resource events) = some (owed resource)

/-- One more of a resource. -/
def more (resource : Resource) (owed : Resource → Nat) : Resource → Nat :=
  fun other => if resource = other then owed other + 1 else owed other

theorem owes_nil : Owes (fun _ : Resource => 0) [] := fun _ => rfl

theorem Owes.take {owed : Resource → Nat} {events : List (Resource × Use)}
    (owes : Owes owed events) (resource : Resource) :
    Owes (more resource owed) (events ++ [(resource, .take)]) := by
  intro other
  rw [usesOf_append, usesOf_singleton, owedFrom_append, owes other]
  by_cases same : resource = other
  · rw [if_pos same]
    simp only [more, if_pos same]
    rfl
  · rw [if_neg same]
    simp only [more, if_neg same]
    rfl

theorem Owes.give {owed : Resource → Nat} {events : List (Resource × Use)}
    {resource : Resource} (owes : Owes (more resource owed) events) :
    Owes owed (events ++ [(resource, .give)]) := by
  intro other
  rw [usesOf_append, usesOf_singleton, owedFrom_append, owes other]
  by_cases same : resource = other
  · rw [if_pos same]
    simp only [more, if_pos same]
    rfl
  · rw [if_neg same]
    simp only [more, if_neg same]
    rfl

theorem Owes.settled {events : List (Resource × Use)}
    (owes : Owes (fun _ => 0) events) (resource : Resource) :
    Settled (usesOf resource events) :=
  owes resource

/-! ## What a trace holds -/

/-- What is owed is what the list says, each as often as it is there. -/
def Holds (held : List Resource) (events : List (Resource × Use)) : Prop :=
  Owes (fun resource => held.count resource) events

theorem holds_nil : Holds ([] : List Resource) [] := owes_nil

theorem more_count (resource : Resource) (held : List Resource) :
    more resource (fun other => held.count other) =
      fun other => (resource :: held).count other := by
  funext other
  rw [List.count_cons, more]
  by_cases same : resource = other
  · rw [if_pos same, if_pos (beq_iff_eq.mpr same)]
  · rw [if_neg same, if_neg (mt beq_iff_eq.mp same), Nat.add_zero]

theorem Holds.take {held : List Resource}
    {events : List (Resource × Use)} (holds : Holds held events)
    (resource : Resource) :
    Holds (resource :: held) (events ++ [(resource, .take)]) := by
  have owes := Owes.take holds resource
  rw [more_count] at owes
  exact owes

theorem Holds.give {resource : Resource} {held : List Resource}
    {events : List (Resource × Use)}
    (holds : Holds (resource :: held) events) :
    Holds held (events ++ [(resource, .give)]) := by
  unfold Holds at holds
  rw [← more_count] at holds
  exact Owes.give holds

theorem Holds.perm {held other : List Resource}
    {events : List (Resource × Use)} (holds : Holds held events)
    (same : held.Perm other) : Holds other events := by
  intro resource
  have equal : held.count resource = other.count resource :=
    same.count_eq resource
  exact (holds resource).trans (congrArg some equal)

/-- What is held may be given back, one after the other. -/
theorem Holds.giveBack {given held : List Resource}
    {events : List (Resource × Use)} (holds : Holds (given ++ held) events) :
    Holds held (events ++ given.map fun resource => (resource, .give)) := by
  induction given generalizing events with
  | nil =>
      rw [List.map_nil, List.append_nil]
      exact holds
  | cons resource rest ih =>
      have later := ih holds.give
      rw [List.append_assoc] at later
      exact later

theorem Holds.giveAll {held : List Resource}
    {events : List (Resource × Use)} (holds : Holds held events) :
    Holds [] (events ++ held.map fun resource => (resource, .give)) := by
  rw [← List.append_nil held] at holds
  exact holds.giveBack

theorem Holds.settled {events : List (Resource × Use)}
    (holds : Holds [] events) (resource : Resource) :
    Settled (usesOf resource events) := holds resource

/-- Nothing is held if every resource is settled. -/
theorem Holds.eq_nil {held : List Resource}
    {events : List (Resource × Use)} (holds : Holds held events)
    (settled : ∀ resource, Settled (usesOf resource events)) : held = [] := by
  rw [List.eq_nil_iff_forall_not_mem]
  intro resource member
  have none : some (held.count resource) = some 0 :=
    (holds resource).symm.trans (settled resource)
  exact absurd (List.count_pos_iff.mpr member)
    (Nat.not_lt.mpr (Nat.le_of_eq (Option.some.inj none)))

/--
What is held after some events, when `held` is held before them.  There is no
answer if something is given back which is not held.
-/
def heldAfter : List Resource → List (Resource × Use) → Option (List Resource)
  | held, [] => some held
  | held, (resource, .take) :: rest => heldAfter (resource :: held) rest
  | held, (resource, .give) :: rest =>
      if resource ∈ held then heldAfter (held.erase resource) rest else none

theorem Holds.after {held next : List Resource}
    {past events : List (Resource × Use)} (holds : Holds held past)
    (runs : heldAfter held events = some next) :
    Holds next (past ++ events) := by
  induction events generalizing held past with
  | nil =>
      cases runs
      rw [List.append_nil]
      exact holds
  | cons event rest ih =>
      rw [List.append_cons]
      obtain ⟨resource, use⟩ := event
      cases use with
      | take => exact ih (holds.take resource) runs
      | give =>
          rw [heldAfter] at runs
          by_cases member : resource ∈ held
          · rw [if_pos member] at runs
            exact ih (holds.perm (List.perm_cons_erase member)).give runs
          · rw [if_neg member] at runs
            cases runs

/-- Events of others do not use a resource. -/
theorem usesOf_eq_nil {resource : Resource} {events : List (Resource × Use)}
    (others : ∀ event ∈ events, event.1 ≠ resource) :
    usesOf resource events = [] := by
  have none : events.filter (fun event => event.1 = resource) = [] := by
    rw [List.filter_eq_nil_iff]
    intro event member
    rw [decide_eq_true_eq]
    exact others event member
  rw [usesOf, none, List.map_nil]

theorem taken_take (resource other : Resource) :
    taken (usesOf other [(resource, Use.take)]) =
      more resource (fun _ => 0) other := by
  rw [usesOf_singleton, more]
  by_cases same : resource = other <;> simp only [same, if_true, if_false] <;>
    rfl

theorem taken_give (resource other : Resource) :
    taken (usesOf other [(resource, Use.give)]) = 0 := by
  rw [usesOf_singleton]
  by_cases same : resource = other <;> simp only [same, if_true, if_false] <;>
    rfl

/-! ## How often a program takes -/

section Programs

open LinuxDfl.Lib.Traced
open LinuxDfl.Lib.Traced.Program

variable {Failure State Value Next : Type}

/-- Each run of the program takes a resource at most so often. -/
def TakesAtMost (bound : Resource → Nat)
    (program : Program (Resource × Use) Failure State Value) : Prop :=
  ∀ state resource,
    taken (usesOf resource (program state).events) ≤ bound resource

variable {bound more' : Resource → Nat}
  {program : Program (Resource × Use) Failure State Value}

theorem TakesAtMost.mono (few : TakesAtMost bound program)
    (below : ∀ resource, bound resource ≤ more' resource) :
    TakesAtMost more' program :=
  fun state resource => Nat.le_trans (few state resource) (below resource)

theorem takesAtMost_silent (silent : ∀ state, (program state).events = []) :
    TakesAtMost bound program := by
  intro state resource
  rw [silent state]
  exact Nat.zero_le _

theorem TakesAtMost.bind
    {rest : Value → Program (Resource × Use) Failure State Next}
    (first : TakesAtMost bound program)
    (others : ∀ value, TakesAtMost more' (rest value)) :
    TakesAtMost (fun resource => bound resource + more' resource)
      (program >>= rest) := by
  intro state resource
  cases result : (program state).result with
  | error failure =>
      rw [bind_of_error result]
      exact Nat.le_trans (first state resource) (Nat.le_add_right _ _)
  | ok value =>
      rw [bind_of_ok result, usesOf_append, taken_append]
      exact Nat.add_le_add (first state resource) (others value _ resource)

/-- A program may go on with one which takes nothing. -/
theorem TakesAtMost.bindNone
    {rest : Value → Program (Resource × Use) Failure State Next}
    (first : TakesAtMost bound program)
    (others : ∀ value, TakesAtMost (fun _ => 0) (rest value)) :
    TakesAtMost bound (program >>= rest) :=
  (first.bind others).mono fun _ => Nat.le_refl _

/-- A program may start with one which takes nothing. -/
theorem TakesAtMost.noneBind
    {rest : Value → Program (Resource × Use) Failure State Next}
    (first : TakesAtMost (fun _ => 0) program)
    (others : ∀ value, TakesAtMost bound (rest value)) :
    TakesAtMost bound (program >>= rest) :=
  (first.bind others).mono fun resource =>
    Nat.le_of_eq (Nat.zero_add (bound resource))

theorem TakesAtMost.attempt (few : TakesAtMost bound program) :
    TakesAtMost bound (Program.attempt program) := few

theorem TakesAtMost.ensure
    {cleanup : Program (Resource × Use) Failure State Unit}
    (few : TakesAtMost bound program)
    (none : TakesAtMost (fun _ => 0) cleanup) :
    TakesAtMost bound (Program.ensure program cleanup) := by
  intro state resource
  show taken (usesOf resource (_ ++ _)) ≤ _
  rw [usesOf_append, taken_append]
  exact Nat.add_le_add (few state resource) (none _ resource)

theorem TakesAtMost.onFailure
    {cleanup : Program (Resource × Use) Failure State Unit}
    (few : TakesAtMost bound program)
    (none : TakesAtMost (fun _ => 0) cleanup) :
    TakesAtMost bound (Program.onFailure program cleanup) := by
  intro state resource
  have cleaned := few.ensure none state resource
  unfold Program.onFailure
  cases (program state).result with
  | error failure => exact cleaned
  | ok value => exact few state resource

end Programs

end LinuxDfl.Lib.Balance

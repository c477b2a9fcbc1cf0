import Mathlib.Data.List.Basic

/-!
# Labelled paths of a transition relation

A path lists the labels of a finite run together with the states they lead
to.  This file supplies the invariant rule for paths, and an exactness rule:
when a property is kept by precisely those steps which meet a guard, the
property holds throughout a path if and only if every step of the path meets
the guard.
-/

namespace LinuxDfl.Lib.Transition

variable {State Label : Type*}

/-- `IsPath step source path` says that `path` runs along `step` from `source`. -/
def IsPath (step : State → Label → State → Prop) :
    State → List (Label × State) → Prop
  | _, [] => True
  | source, (label, target) :: rest =>
      step source label target ∧ IsPath step target rest

/-- The property holds at the source and at every state of the path. -/
def Throughout (property : State → Prop)
    (source : State) (path : List (Label × State)) : Prop :=
  property source ∧ ∀ entry ∈ path, property entry.2

/-- Every step of the path is taken from a state which meets the guard. -/
def StepsMeet (guard : State → Label → Prop) :
    State → List (Label × State) → Prop
  | _, [] => True
  | source, (label, target) :: rest =>
      guard source label ∧ StepsMeet guard target rest

@[simp]
theorem isPath_nil (step : State → Label → State → Prop) (source : State) :
    IsPath step source [] := trivial

@[simp]
theorem isPath_cons (step : State → Label → State → Prop)
    (source target : State) (label : Label)
    (rest : List (Label × State)) :
    IsPath step source ((label, target) :: rest) ↔
      step source label target ∧ IsPath step target rest := Iff.rfl

@[simp]
theorem stepsMeet_nil (guard : State → Label → Prop) (source : State) :
    StepsMeet guard source [] := trivial

@[simp]
theorem stepsMeet_cons (guard : State → Label → Prop)
    (source target : State) (label : Label)
    (rest : List (Label × State)) :
    StepsMeet guard source ((label, target) :: rest) ↔
      guard source label ∧ StepsMeet guard target rest := Iff.rfl

@[simp]
theorem throughout_nil (property : State → Prop) (source : State) :
    Throughout property source ([] : List (Label × State)) ↔
      property source := by
  simp [Throughout]

@[simp]
theorem throughout_cons (property : State → Prop)
    (source target : State) (label : Label)
    (rest : List (Label × State)) :
    Throughout property source ((label, target) :: rest) ↔
      property source ∧ Throughout property target rest := by
  simp [Throughout]

theorem Throughout.mono
    {weaker stronger : State → Prop}
    {source : State} {path : List (Label × State)}
    (implies : ∀ state, stronger state → weaker state)
    (holds : Throughout stronger source path) :
    Throughout weaker source path :=
  ⟨implies source holds.1,
    fun entry member => implies entry.2 (holds.2 entry member)⟩

theorem Throughout.and {first second : State → Prop}
    {source : State} {path : List (Label × State)}
    (holds : Throughout first source path)
    (also : Throughout second source path) :
    Throughout (fun state => first state ∧ second state) source path :=
  ⟨⟨holds.1, also.1⟩,
    fun entry member => ⟨holds.2 entry member, also.2 entry member⟩⟩

/--
The invariant rule: a property which every guarded step keeps holds
throughout every path whose steps all meet the guard.
-/
theorem throughout_of_stepsMeet
    {step : State → Label → State → Prop}
    {guard : State → Label → Prop}
    {property : State → Prop}
    (preserved :
      ∀ source label target,
        property source → guard source label →
          step source label target → property target)
    {source : State} {path : List (Label × State)}
    (isPath : IsPath step source path)
    (initial : property source)
    (meets : StepsMeet guard source path) :
    Throughout property source path := by
  induction path generalizing source with
  | nil => simpa using initial
  | cons entry rest ih =>
      obtain ⟨label, target⟩ := entry
      rw [throughout_cons]
      have next : property target :=
        preserved source label target initial meets.1 isPath.1
      exact ⟨initial, ih isPath.2 next meets.2⟩

theorem StepsMeet.mono {weaker stronger : State → Label → Prop}
    {source : State} {path : List (Label × State)}
    (implies : ∀ state label, stronger state label → weaker state label)
    (meets : StepsMeet stronger source path) :
    StepsMeet weaker source path := by
  induction path generalizing source with
  | nil => trivial
  | cons entry rest ih =>
      obtain ⟨label, target⟩ := entry
      exact ⟨implies source label meets.1, ih meets.2⟩

/-- A guard which follows from what holds throughout a path is met on it. -/
theorem Throughout.stepsMeet
    {property : State → Prop} {guard : State → Label → Prop}
    {source : State} {path : List (Label × State)}
    (holds : Throughout property source path)
    (implies : ∀ state, property state → ∀ label, guard state label) :
    StepsMeet guard source path := by
  induction path generalizing source with
  | nil => trivial
  | cons entry rest ih =>
      obtain ⟨label, target⟩ := entry
      rw [throughout_cons] at holds
      exact ⟨implies source holds.1 label, ih holds.2⟩

/-- A path whose steps meet a guard runs along the guarded steps. -/
theorem IsPath.guarded
    {step : State → Label → State → Prop}
    {guard : State → Label → Prop}
    {source : State} {path : List (Label × State)}
    (isPath : IsPath step source path) (meets : StepsMeet guard source path) :
    IsPath (fun state label next => guard state label ∧ step state label next)
      source path := by
  induction path generalizing source with
  | nil => trivial
  | cons entry rest ih =>
      obtain ⟨label, target⟩ := entry
      exact ⟨⟨meets.1, isPath.1⟩, ih isPath.2 meets.2⟩

/-- Guards which agree under an invariant are met by the same paths. -/
theorem stepsMeet_congr
    {step : State → Label → State → Prop}
    {guard other : State → Label → Prop} (invariant : State → Prop)
    (preserved :
      ∀ source label target,
        invariant source → step source label target → invariant target)
    (agree :
      ∀ source label target,
        invariant source → step source label target →
          (guard source label ↔ other source label))
    {source : State} {path : List (Label × State)}
    (isPath : IsPath step source path) (holds : invariant source) :
    StepsMeet guard source path ↔ StepsMeet other source path := by
  induction path generalizing source with
  | nil => exact Iff.rfl
  | cons entry rest ih =>
      obtain ⟨label, target⟩ := entry
      rw [stepsMeet_cons, stepsMeet_cons,
        agree source label target holds isPath.1,
        ih isPath.2 (preserved source label target holds isPath.1)]

/-- The unguarded invariant rule. -/
theorem throughout_of_invariant
    {step : State → Label → State → Prop}
    {property : State → Prop}
    (preserved :
      ∀ source label target,
        property source → step source label target → property target)
    {source : State} {path : List (Label × State)}
    (isPath : IsPath step source path)
    (initial : property source) :
    Throughout property source path := by
  induction path generalizing source with
  | nil => simpa using initial
  | cons entry rest ih =>
      obtain ⟨label, target⟩ := entry
      rw [throughout_cons]
      exact ⟨initial,
        ih isPath.2 (preserved source label target initial isPath.1)⟩

/--
The invariant rule within a limit: the property is kept by the steps which
stay within the limit, and the path never leaves it.
-/
theorem throughout_of_limit
    {step : State → Label → State → Prop}
    {property limit : State → Prop}
    (preserved :
      ∀ source label target,
        property source → limit target →
          step source label target → property target)
    {source : State} {path : List (Label × State)}
    (isPath : IsPath step source path)
    (limited : Throughout limit source path)
    (initial : property source) :
    Throughout property source path := by
  induction path generalizing source with
  | nil => simpa using initial
  | cons entry rest ih =>
      obtain ⟨label, target⟩ := entry
      rw [throughout_cons] at limited ⊢
      have next : property target :=
        preserved source label target initial limited.2.1 isPath.1
      exact ⟨initial, ih isPath.2 limited.2 next⟩

/--
The exactness rule.  `invariant` is kept by every step; under it, a step from
a state with the property keeps the property exactly when it meets the guard.
-/
theorem throughout_iff_stepsMeet
    {step : State → Label → State → Prop}
    {guard : State → Label → Prop}
    (invariant : State → Prop) {property : State → Prop}
    (preserved :
      ∀ source label target,
        invariant source → step source label target → invariant target)
    (exact :
      ∀ source label target,
        invariant source → property source → step source label target →
          (property target ↔ guard source label))
    {source : State} {path : List (Label × State)}
    (isPath : IsPath step source path)
    (holds : invariant source)
    (initial : property source) :
    Throughout property source path ↔ StepsMeet guard source path := by
  induction path generalizing source with
  | nil => simpa using initial
  | cons entry rest ih =>
      obtain ⟨label, target⟩ := entry
      have kept := preserved source label target holds isPath.1
      have keeps := exact source label target holds initial isPath.1
      rw [throughout_cons, stepsMeet_cons]
      constructor
      · rintro ⟨-, along⟩
        exact ⟨keeps.mp along.1, (ih isPath.2 kept along.1).mp along⟩
      · rintro ⟨meets, along⟩
        have next := keeps.mpr meets
        exact ⟨initial, (ih isPath.2 kept next).mpr along⟩

/--
The exactness rule for a property which is weaker than what is known.  As
long as the guard is met, `strong` holds; the first step which does not meet
the guard loses the property.
-/
theorem throughout_iff_stepsMeet_of_strong
    {step : State → Label → State → Prop}
    {guard : State → Label → Prop} {strong property : State → Prop}
    (implies : ∀ state, strong state → property state)
    (kept :
      ∀ source label target,
        strong source → guard source label →
          step source label target → strong target)
    (lost :
      ∀ source label target,
        strong source → ¬ guard source label →
          step source label target → ¬ property target)
    {source : State} {path : List (Label × State)}
    (isPath : IsPath step source path)
    (initial : strong source) :
    Throughout property source path ↔ StepsMeet guard source path := by
  induction path generalizing source with
  | nil => simpa using implies source initial
  | cons entry rest ih =>
      obtain ⟨label, target⟩ := entry
      rw [throughout_cons, stepsMeet_cons]
      by_cases meets : guard source label
      · have next := kept source label target initial meets isPath.1
        rw [ih isPath.2 next]
        exact and_congr_left fun _ =>
          iff_of_true (implies source initial) meets
      · have gone := lost source label target initial meets isPath.1
        constructor
        · rintro ⟨-, along⟩
          exact absurd along.1 gone
        · rintro ⟨met, -⟩
          exact absurd met meets

/--
The exactness rule for a property of states together with one of steps: under
the invariant, a step from a state with the property keeps it, and is as it
should be, exactly when it meets the guard.
-/
theorem throughout_and_stepsMeet_iff
    {step : State → Label → State → Prop}
    {guard sound : State → Label → Prop}
    (invariant : State → Prop) {property : State → Prop}
    (preserved :
      ∀ source label target,
        invariant source → step source label target → invariant target)
    (exact :
      ∀ source label target,
        invariant source → property source → step source label target →
          (property target ∧ sound source label ↔ guard source label))
    {source : State} {path : List (Label × State)}
    (isPath : IsPath step source path)
    (holds : invariant source)
    (initial : property source) :
    Throughout property source path ∧ StepsMeet sound source path ↔
      StepsMeet guard source path := by
  induction path generalizing source with
  | nil => simpa using initial
  | cons entry rest ih =>
      obtain ⟨label, target⟩ := entry
      have kept := preserved source label target holds isPath.1
      have keeps := exact source label target holds initial isPath.1
      rw [throughout_cons, stepsMeet_cons, stepsMeet_cons]
      constructor
      · rintro ⟨⟨-, along⟩, first, onwards⟩
        exact ⟨keeps.mp ⟨along.1, first⟩,
          (ih isPath.2 kept along.1).mp ⟨along, onwards⟩⟩
      · rintro ⟨meets, onwards⟩
        obtain ⟨next, first⟩ := keeps.mpr meets
        obtain ⟨along, later⟩ := (ih isPath.2 kept next).mpr onwards
        exact ⟨⟨initial, along⟩, first, later⟩

/-! ## What stays as it is -/

/--
Once a step of the path is an event, what is seen of the state stays as it is
behind that step.
-/
def FixedAfter {View : Type*} (event : State → Label → State → Prop)
    (view : State → View) : State → List (Label × State) → Prop
  | _, [] => True
  | source, (label, target) :: rest =>
      (event source label target →
        ∀ entry ∈ rest, view entry.2 = view target) ∧
      FixedAfter event view target rest

instance FixedAfter.decide {View : Type*} [DecidableEq View]
    (event : State → Label → State → Prop)
    [∀ source label target, Decidable (event source label target)]
    (view : State → View) :
    ∀ source path, Decidable (FixedAfter event view source path)
  | _, [] => isTrue trivial
  | _, (_, target) :: rest =>
      have := FixedAfter.decide event view target rest
      inferInstanceAs (Decidable (_ ∧ _))

/-- What no step from a quiet state changes stays as it is. -/
theorem view_eq_of_quiet {View : Type*} {view : State → View}
    {step : State → Label → State → Prop} {quiet : State → Prop}
    (kept :
      ∀ source label target, quiet source → step source label target →
        quiet target ∧ view target = view source)
    {source : State} {path : List (Label × State)}
    (isPath : IsPath step source path) (isQuiet : quiet source) :
    ∀ entry ∈ path, view entry.2 = view source := by
  induction path generalizing source with
  | nil => exact fun _ member => nomatch member
  | cons entry rest ih =>
      obtain ⟨label, target⟩ := entry
      obtain ⟨next, same⟩ := kept source label target isQuiet isPath.1
      intro entry member
      rcases List.mem_cons.mp member with rfl | member
      · exact same
      · exact (ih isPath.2 next entry member).trans same

/-- An event which leaves a quiet state fixes what is seen. -/
theorem fixedAfter_of_quiet {View : Type*} {view : State → View}
    {step event : State → Label → State → Prop} {quiet : State → Prop}
    (kept :
      ∀ source label target, quiet source → step source label target →
        quiet target ∧ view target = view source)
    (invariant : State → Prop)
    (preserved :
      ∀ source label target,
        invariant source → step source label target → invariant target)
    (quiets :
      ∀ source label target, invariant source → step source label target →
        event source label target → quiet target)
    {source : State} {path : List (Label × State)}
    (isPath : IsPath step source path) (holds : invariant source) :
    FixedAfter event view source path := by
  induction path generalizing source with
  | nil => trivial
  | cons entry rest ih =>
      obtain ⟨label, target⟩ := entry
      have next := preserved source label target holds isPath.1
      refine ⟨fun occurs => ?_, ih isPath.2 next⟩
      exact view_eq_of_quiet kept isPath.2
        (quiets source label target holds isPath.1 occurs)

/-! ## Steps which are counted -/

/--
Every step of the path meets a guard which may look at how often an event has
occurred before it.
-/
def StepsMeetCounting (event : State → Label → Prop)
    (guard : Nat → State → Label → Prop) :
    Nat → State → List (Label × State) → Prop
  | _, _, [] => True
  | count, source, (label, target) :: rest =>
      guard count source label ∧
        (event source label →
          StepsMeetCounting event guard (count + 1) target rest) ∧
        (¬ event source label →
          StepsMeetCounting event guard count target rest)

/--
A guard on states may be replaced by one on the number of earlier events,
when the states of the path keep track of that number.
-/
theorem stepsMeet_iff_stepsMeetCounting
    {step : State → Label → State → Prop}
    {event guard : State → Label → Prop}
    {counted : Nat → State → Label → Prop}
    (tracks : Nat → State → Prop)
    (occurs :
      ∀ count source label target,
        tracks count source → step source label target →
          event source label → tracks (count + 1) target)
    (keeps :
      ∀ count source label target,
        tracks count source → step source label target →
          ¬ event source label → tracks count target)
    (exact :
      ∀ count source label,
        tracks count source →
          (guard source label ↔ counted count source label))
    {count : Nat} {source : State} {path : List (Label × State)}
    (isPath : IsPath step source path)
    (initial : tracks count source) :
    StepsMeet guard source path ↔
      StepsMeetCounting event counted count source path := by
  induction path generalizing count source with
  | nil => exact Iff.rfl
  | cons entry rest ih =>
      obtain ⟨label, target⟩ := entry
      obtain ⟨isStep, isRest⟩ := isPath
      have first := exact count source label initial
      rw [stepsMeet_cons, StepsMeetCounting, first]
      refine and_congr_right fun _ => ?_
      by_cases occurred : event source label
      · have next := occurs count source label target initial isStep occurred
        simp only [ih isRest next, occurred, not_true_eq_false,
          true_implies, false_implies, and_true]
      · have next := keeps count source label target initial isStep occurred
        simp only [ih isRest next, occurred, not_false_eq_true,
          true_implies, false_implies, true_and]

/-- How many steps of the path have a label which counts. -/
def countSteps (counts : Label → Bool) (path : List (Label × State)) : Nat :=
  path.countP fun entry => counts entry.1

/--
A measure which each step lowers that counts, and which no step raises, is an
upper bound on the number of steps which count.
-/
theorem countSteps_le {step : State → Label → State → Prop}
    (counts : Label → Bool) (invariant : State → Prop)
    (measure : State → Nat)
    (preserved :
      ∀ source label target,
        invariant source → step source label target → invariant target)
    (lowers :
      ∀ source label target,
        invariant source → step source label target →
          measure target + (counts label).toNat ≤ measure source)
    {source : State} {path : List (Label × State)}
    (isPath : IsPath step source path) (holds : invariant source) :
    countSteps counts path ≤ measure source := by
  induction path generalizing source with
  | nil => exact Nat.zero_le _
  | cons entry rest ih =>
      obtain ⟨label, target⟩ := entry
      have lower := lowers source label target holds isPath.1
      have onwards :=
        ih isPath.2 (preserved source label target holds isPath.1)
      have first : countSteps counts ((label, target) :: rest) =
          countSteps counts rest + (counts label).toNat := by
        rw [countSteps, List.countP_cons]
        cases counts label <;> rfl
      omega

/-! ## Deterministic steps -/

/-- The path along which `apply` takes the labels one after the other. -/
def pathOf (apply : State → Label → State) :
    State → List Label → List (Label × State)
  | _, [] => []
  | source, label :: rest =>
      (label, apply source label) :: pathOf apply (apply source label) rest

theorem isPath_pathOf
    (apply : State → Label → State) (source : State) (labels : List Label) :
    IsPath (fun state label next => apply state label = next) source
      (pathOf apply source labels) := by
  induction labels generalizing source with
  | nil => trivial
  | cons label rest ih => exact ⟨rfl, ih (apply source label)⟩

/-- Each label is enabled when it is its turn. -/
def enabledAlong (apply : State → Label → State)
    (enabled : State → Label → Bool) : State → List Label → Bool
  | _, [] => true
  | source, label :: rest =>
      enabled source label &&
        enabledAlong apply enabled (apply source label) rest

theorem isPath_of_enabledAlong {step : State → Label → State → Prop}
    {apply : State → Label → State} {enabled : State → Label → Bool}
    (steps :
      ∀ state label, enabled state label = true →
        step state label (apply state label))
    {source : State} {labels : List Label}
    (along : enabledAlong apply enabled source labels = true) :
    IsPath step source (pathOf apply source labels) := by
  induction labels generalizing source with
  | nil => trivial
  | cons label rest ih =>
      obtain ⟨first, onwards⟩ := Bool.and_eq_true_iff.mp along
      exact ⟨steps source label first, ih onwards⟩

/-- A guard which can be decided, along the labels. -/
theorem stepsMeet_of_enabledAlong {guard : State → Label → Prop}
    [∀ state label, Decidable (guard state label)]
    {apply : State → Label → State} {source : State} {labels : List Label}
    (along : enabledAlong apply
      (fun state label => decide (guard state label)) source labels = true) :
    StepsMeet guard source (pathOf apply source labels) := by
  induction labels generalizing source with
  | nil => trivial
  | cons label rest ih =>
      obtain ⟨first, onwards⟩ := Bool.and_eq_true_iff.mp along
      exact ⟨of_decide_eq_true first, ih onwards⟩

/-- A guard which one of the steps does not meet. -/
theorem not_stepsMeet_of_enabledAlong {guard : State → Label → Prop}
    [∀ state label, Decidable (guard state label)]
    {apply : State → Label → State} {source : State} {labels : List Label}
    (along : enabledAlong apply
      (fun state label => decide (guard state label)) source labels = false) :
    ¬ StepsMeet guard source (pathOf apply source labels) := by
  induction labels generalizing source with
  | nil => cases along
  | cons label rest ih =>
      rintro ⟨first, onwards⟩
      rw [enabledAlong, decide_eq_true first, Bool.true_and] at along
      exact ih along onwards

/-! ## Partial steps -/

/-- The next state, which is the same where the label cannot be taken. -/
def orSame (perform : State → Label → Option State) (state : State)
    (label : Label) : State :=
  (perform state label).getD state

/-- All labels can be taken when it is their turn. -/
def allTaken (perform : State → Label → Option State) (source : State)
    (labels : List Label) : Bool :=
  enabledAlong (orSame perform)
    (fun state label => (perform state label).isSome) source labels

theorem isPath_of_allTaken {perform : State → Label → Option State}
    {source : State} {labels : List Label}
    (taken : allTaken perform source labels = true) :
    IsPath (fun state label next => perform state label = some next) source
      (pathOf (orSame perform) source labels) := by
  refine isPath_of_enabledAlong (fun state label enabled => ?_) taken
  obtain ⟨next, performed⟩ := Option.isSome_iff_exists.mp enabled
  rw [orSame, performed]
  rfl

/-- What holds throughout such a path holds in its last state. -/
theorem Throughout.final
    {apply : State → Label → State} {property : State → Prop}
    {source : State} {labels : List Label}
    (holds : Throughout property source (pathOf apply source labels)) :
    property (labels.foldl apply source) := by
  induction labels generalizing source with
  | nil => exact holds.1
  | cons label rest ih =>
      rw [pathOf, throughout_cons] at holds
      exact ih holds.2

end LinuxDfl.Lib.Transition

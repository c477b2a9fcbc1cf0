import LinuxDfl.Lib.Transition

/-!
# Populations of parties

A population is a list of parties which share nothing.  At any time a new
party may join, and any party may take a step of its own.  What is kept by
the steps of one party is kept by the steps of the population, and a guard
which is exact for one party is exact for all of them.
-/

namespace LinuxDfl.Lib.Population

open LinuxDfl.Lib.Transition

variable {Start State Label : Type*}

/-- What happens to a population. -/
inductive Act (Start Label : Type*) where
  | join (start : Start)
  /-- The party of the index takes a step. -/
  | move (index : Nat) (label : Label)
  deriving DecidableEq, Repr

/-- The first party takes the steps. -/
def byFirst (labels : List Label) : List (Act Start Label) :=
  labels.map (.move 0)

section Steps

variable (fresh : Start → State) (perform : State → Label → Option State)

/-- The population after an act, if the act is possible. -/
def act (parties : List State) : Act Start Label → Option (List State)
  | .join start => some (parties ++ [fresh start])
  | .move index label => do
      let party ← parties[index]?
      let next ← perform party label
      return parties.set index next

/-- The party which moves meets the guard. -/
def MoverMeets (guard : State → Label → Prop) (parties : List State) :
    Act Start Label → Prop
  | .join _ => True
  | .move index label => ∀ party ∈ parties[index]?, guard party label

instance MoverMeets.decide (guard : State → Label → Prop)
    [∀ state label, Decidable (guard state label)] (parties : List State) :
    ∀ label : Act Start Label, Decidable (MoverMeets guard parties label)
  | .join _ => isTrue trivial
  | .move index _ => Option.decidableForallMem parties[index]?

/-- Every party has the property. -/
def EachParty (property : State → Prop) (parties : List State) : Prop :=
  ∀ party ∈ parties, property party

/-- What an act does: a party joins, or a party steps. -/
inductive Acts (parties : List State) :
    Act Start Label → List State → Prop where
  | join (start : Start) :
      Acts parties (.join start) (parties ++ [fresh start])
  | move (index : Nat) (label : Label) (party next : State)
      (found : parties[index]? = some party)
      (steps : perform party label = some next) :
      Acts parties (.move index label) (parties.set index next)

end Steps

variable {fresh : Start → State} {perform : State → Label → Option State}
variable {parties later : List State}

theorem acts_of_act {label : Act Start Label}
    (acted : act fresh perform parties label = some later) :
    Acts fresh perform parties label later := by
  cases label with
  | join start =>
      rw [← Option.some.inj acted]
      exact .join start
  | move index label =>
      obtain ⟨party, found, rest⟩ := Option.bind_eq_some_iff.mp acted
      obtain ⟨next, steps, set⟩ := Option.bind_eq_some_iff.mp rest
      rw [← Option.some.inj set]
      exact .move index label party next found steps

theorem eachParty_nil (property : State → Prop) : EachParty property [] :=
  fun _ member => nomatch member

theorem EachParty.mono {stronger weaker : State → Prop}
    (implies : ∀ state, stronger state → weaker state)
    (each : EachParty stronger parties) : EachParty weaker parties :=
  fun party member => implies party (each party member)

theorem EachParty.append {property : State → Prop} {party : State}
    (each : EachParty property parties) (holds : property party) :
    EachParty property (parties ++ [party]) := by
  intro other member
  rcases List.mem_append.mp member with member | member
  · exact each other member
  · rwa [List.mem_singleton.mp member]

theorem EachParty.set {property : State → Prop} {next : State}
    (each : EachParty property parties) (index : Nat)
    (holds : property next) : EachParty property (parties.set index next) := by
  intro other member
  rcases List.mem_or_eq_of_mem_set member with member | rfl
  · exact each other member
  · exact holds

/-- A party which has moved is in the population. -/
theorem mem_set_of_found {index : Nat} {party : State} (next : State)
    (found : parties[index]? = some party) :
    next ∈ parties.set index next := by
  obtain ⟨inside, -⟩ := List.getElem?_eq_some_iff.mp found
  exact List.mem_set inside next

/-- The invariant rule for populations, with no guard. -/
theorem throughout_eachParty_of_invariant {property : State → Prop}
    (starts : ∀ start, property (fresh start))
    (preserved :
      ∀ source label target,
        property source → perform source label = some target →
          property target)
    {path : List (Act Start Label × List State)}
    (isPath : IsPath
      (fun parties label later =>
        act fresh perform parties label = some later) [] path) :
    Throughout (EachParty property) [] path := by
  refine throughout_of_invariant ?_ isPath (eachParty_nil property)
  intro source label target each acted
  cases acts_of_act acted with
  | join start => exact each.append (starts start)
  | move index label party next found steps =>
      have before := each party (List.mem_of_getElem? found)
      exact each.set index (preserved party label next before steps)

/--
The exactness rule for populations: where a party keeps what is known of it
as long as it meets the guard, and loses the property once it does not, all
parties have the property throughout a run if and only if every move of the
run meets the guard.
-/
theorem throughout_eachParty_iff
    {guard : State → Label → Prop} {strong property : State → Prop}
    (starts : ∀ start, strong (fresh start))
    (implies : ∀ state, strong state → property state)
    (kept :
      ∀ source label target,
        strong source → guard source label →
          perform source label = some target → strong target)
    (lost :
      ∀ source label target,
        strong source → ¬ guard source label →
          perform source label = some target → ¬ property target)
    {path : List (Act Start Label × List State)}
    (isPath : IsPath
      (fun parties label later =>
        act fresh perform parties label = some later) [] path) :
    Throughout (EachParty property) [] path ↔
      StepsMeet (MoverMeets guard) [] path := by
  have eachImplies : ∀ states, EachParty strong states →
      EachParty property states :=
    fun _ each => each.mono implies
  refine throughout_iff_stepsMeet_of_strong eachImplies ?_ ?_ isPath
    (eachParty_nil strong)
  · intro source label target each meets acted
    cases acts_of_act acted with
    | join start => exact each.append (starts start)
    | move index label party next found steps =>
        have before := each party (List.mem_of_getElem? found)
        exact each.set index
          (kept party label next before (meets party found) steps)
  · intro source label target each misses acted holds
    cases acts_of_act acted with
    | join start => exact misses trivial
    | move index label party next found steps =>
        refine misses fun mover foundMover => ?_
        by_contra unguarded
        obtain rfl : party = mover := Option.some.inj (found.symm.trans foundMover)
        have before := each party (List.mem_of_getElem? found)
        exact lost party label next before unguarded steps
          (holds next (mem_set_of_found next found))

end LinuxDfl.Lib.Population

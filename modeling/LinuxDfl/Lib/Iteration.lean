import Mathlib.Data.Set.Finite.Basic
import Mathlib.Data.Set.Finite.Range

/-!
# Partial iterations

A function which need not have a value is applied over and over.  Among
finitely many states this ends unless it comes back to a state.
-/

namespace LinuxDfl.Lib.Iteration

variable {State : Type} {next : State → Option State}

/-- The state after this many steps, if there are as many. -/
def after (next : State → Option State) : Nat → State → Option State
  | 0, state => some state
  | count + 1, state => (next state).bind (after next count)

@[simp]
theorem after_zero (state : State) : after next 0 state = some state := rfl

theorem after_succ (count : Nat) (state : State) :
    after next (count + 1) state = (next state).bind (after next count) :=
  rfl

theorem after_add (first rest : Nat) (state : State) :
    after next (first + rest) state =
      (after next first state).bind (after next rest) := by
  induction first generalizing state with
  | zero => rw [Nat.zero_add, after_zero, Option.bind_some]
  | succ first ih =>
      rw [Nat.succ_add, after_succ, after_succ, Option.bind_assoc]
      exact congrArg (Option.bind (next state)) (funext ih)

/-- So many states hold, from this one on, as far as there are as many. -/
def HoldsFor (holds : State → Prop) (next : State → Option State)
    (count : Nat) (state : State) : Prop :=
  ∀ before < count, ∀ met, after next before state = some met → holds met

@[simp]
theorem holdsFor_zero {holds : State → Prop} (state : State) :
    HoldsFor holds next 0 state :=
  fun before impossible => absurd impossible (Nat.not_lt_zero before)

theorem holdsFor_succ {holds : State → Prop} {count : Nat} {state : State} :
    HoldsFor holds next (count + 1) state ↔
      holds state ∧
        ∀ target, next state = some target →
          HoldsFor holds next count target := by
  constructor
  · intro all
    refine ⟨all 0 (Nat.succ_pos count) state rfl,
      fun target steps before less met reaches => ?_⟩
    refine all (before + 1) (Nat.succ_lt_succ less) met ?_
    rw [after_succ, steps, Option.bind_some, reaches]
  · rintro ⟨first, rest⟩ before less met reaches
    cases before with
    | zero => exact Option.some.inj reaches ▸ first
    | succ before =>
        rw [after_succ] at reaches
        obtain ⟨target, steps, continues⟩ :=
          Option.bind_eq_some_iff.mp reaches
        exact rest target steps before (Nat.lt_of_succ_lt_succ less) met
          continues

/-- There are no more than finitely many steps. -/
def Ends (next : State → Option State) (state : State) : Prop :=
  ∃ count, after next count state = none

/-- An iteration ends if each step lowers a measure. -/
theorem ends_of_measure {holds : State → Prop} (measure : State → Nat)
    (step : ∀ state target, holds state → next state = some target →
      holds target ∧ measure target < measure state)
    {state : State} (initial : holds state) : Ends next state := by
  induction bound : measure state using Nat.strong_induction_on
    generalizing state with
  | _ size ih =>
      cases moves : next state with
      | none => exact ⟨1, by rw [after_succ, moves, Option.bind_none]⟩
      | some target =>
          obtain ⟨kept, lower⟩ := step state target initial moves
          obtain ⟨count, ended⟩ := ih _ (bound ▸ lower) kept rfl
          exact ⟨count + 1, by rw [after_succ, moves, Option.bind_some, ended]⟩

/-- Some state is met again after some steps. -/
def ComesBack (next : State → Option State) (state : State) : Prop :=
  ∃ early late met, early < late ∧ after next early state = some met ∧
    after next late state = some met

/-- What holds of a state, and is kept by each step, holds after all steps. -/
theorem after_induction {holds : State → Prop}
    (step : ∀ state target, holds state → next state = some target →
      holds target)
    {count : Nat} {state target : State} (initial : holds state)
    (reaches : after next count state = some target) : holds target := by
  induction count generalizing state with
  | zero => exact Option.some.inj reaches ▸ initial
  | succ count ih =>
      rw [after_succ] at reaches
      obtain ⟨between, steps, continues⟩ :=
        Option.bind_eq_some_iff.mp reaches
      exact ih (step state between initial steps) continues

theorem after_none_of_le {few many : Nat} (le : few ≤ many) {state : State}
    (ended : after next few state = none) : after next many state = none := by
  obtain ⟨more, rfl⟩ := Nat.exists_eq_add_of_le le
  rw [after_add, ended, Option.bind_none]

/-- Steps which lead back to their start can be repeated. -/
theorem after_mul {period : Nat} {state : State}
    (back : after next period state = some state) (times : Nat) :
    after next (times * period) state = some state := by
  induction times with
  | zero => rw [Nat.zero_mul, after_zero]
  | succ times ih =>
      rw [Nat.succ_mul, after_add, ih, Option.bind_some, back]

/-- An iteration which comes back to a state does not end. -/
theorem ComesBack.not_ends {state : State} (back : ComesBack next state) :
    ¬ Ends next state := by
  obtain ⟨early, late, met, less, first, again⟩ := back
  rintro ⟨count, ended⟩
  obtain ⟨period, rfl⟩ := Nat.exists_eq_add_of_lt less
  have cycle : after next (period + 1) met = some met := by
    rw [Nat.add_assoc, after_add, first, Option.bind_some] at again
    exact again
  have goesOn : after next (early + count * (period + 1)) state = some met := by
    rw [after_add, first, Option.bind_some, after_mul cycle]
  have enough : count ≤ early + count * (period + 1) :=
    Nat.le_add_left_of_le (Nat.le_mul_of_pos_right count (Nat.succ_pos period))
  rw [after_none_of_le enough ended] at goesOn
  cases goesOn

/-- Among finitely many states, an iteration ends or comes back. -/
theorem ends_iff_not_comesBack {inside : Set State} (finite : inside.Finite)
    {state : State} (initial : state ∈ inside)
    (step : ∀ source target, source ∈ inside → next source = some target →
      target ∈ inside) :
    Ends next state ↔ ¬ ComesBack next state := by
  refine ⟨fun ends back => back.not_ends ends, fun never => ?_⟩
  by_contra endless
  have goesOn (count : Nat) : ∃ met, after next count state = some met :=
    Option.ne_none_iff_exists'.mp fun ended => endless ⟨count, ended⟩
  choose met reaches using goesOn
  have infinite : inside.Infinite := by
    refine Set.infinite_of_injective_forall_mem (f := met) ?_ fun count =>
      after_induction step initial (reaches count)
    intro first second same
    by_contra different
    rcases Nat.lt_or_gt_of_ne different with less | greater
    · exact never
        ⟨first, second, met first, less, reaches first, same ▸ reaches second⟩
    · exact never
        ⟨second, first, met second, greater, reaches second,
          same ▸ reaches first⟩
  exact infinite finite

end LinuxDfl.Lib.Iteration

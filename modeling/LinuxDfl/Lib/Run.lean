import LinuxDfl.Lib.Transition
import Mathlib.Data.List.GetD
import Mathlib.Data.Set.Finite.Lattice
import Mathlib.Order.Interval.Finset.Nat
import Mathlib.Order.Interval.Set.Basic
import Mathlib.Order.WellFounded

/-!
# Endless runs of a transition relation

An endless run gives a state and a label for each point of time.  This file
supplies the invariant rule for such runs and a rule by which something occurs
only finitely often.  A run can also be built from a list of labels which ends
in a state from which one label can be taken forever.
-/

namespace LinuxDfl.Lib.Run

open LinuxDfl.Lib.Transition

variable {State Label : Type*}

/-- Each step of the run is one of the relation. -/
def IsRun (step : State → Label → State → Prop) (states : Nat → State)
    (labels : Nat → Label) : Prop :=
  ∀ time, step (states time) (labels time) (states (time + 1))

/-- What holds at first, and is kept by each step, holds at any time. -/
theorem IsRun.invariant {step : State → Label → State → Prop}
    {states : Nat → State} {labels : Nat → Label}
    (isRun : IsRun step states labels) {holds : State → Prop}
    (kept : ∀ source label target,
      holds source → step source label target → holds target)
    {start : Nat} (initial : holds (states start)) {time : Nat}
    (later : start ≤ time) : holds (states time) := by
  induction time, later using Nat.le_induction with
  | base => exact initial
  | succ time _ ih => exact kept _ _ _ ih (isRun time)

/-! ## What occurs finitely often -/

/--
A measure which no step raises from some time on is only finitely often
lowered.
-/
theorem finite_of_measure {occurs : Nat → Prop} (measure : Nat → Nat)
    (start : Nat)
    (falls : ∀ time, start ≤ time → measure (time + 1) ≤ measure time)
    (lowers : ∀ time, start ≤ time → occurs time →
      measure (time + 1) < measure time) :
    {time | occurs time}.Finite := by
  -- the measure is least at some time, and does not change afterwards
  obtain ⟨least, after, isLeast⟩ : ∃ least, start ≤ least ∧
      ∀ time, start ≤ time → measure least ≤ measure time := by
    obtain ⟨value, ⟨least, after, rfl⟩, isLeast⟩ :=
      WellFounded.has_min (wellFounded_lt (α := Nat))
        {value | ∃ time, start ≤ time ∧ measure time = value}
        ⟨_, start, le_rfl, rfl⟩
    exact ⟨least, after, fun time later =>
      Nat.le_of_not_lt (isLeast _ ⟨time, later, rfl⟩)⟩
  have most {time : Nat} (later : least ≤ time) :
      measure time ≤ measure least := by
    induction time, later using Nat.le_induction with
    | base => exact le_rfl
    | succ time later ih => exact (falls time (after.trans later)).trans ih
  refine (Set.finite_lt_nat least).subset fun time occurred => ?_
  by_contra late
  have later : least ≤ time := Nat.le_of_not_lt late
  have lower := lowers time (after.trans later) occurred
  have bound := isLeast (time + 1) (after.trans (later.trans (Nat.le_succ _)))
  exact absurd (lower.trans_le (most later)) (Nat.not_lt.mpr bound)

/-- The same within one phase of the run, which does not come back. -/
theorem finite_of_measure_within {phase : Nat → Nat} {occurs : Nat → Prop}
    (onwards : ∀ time, phase time ≤ phase (time + 1)) (measure : Nat → Nat)
    {now : Nat} (start : Nat)
    (falls : ∀ time, start ≤ time → phase time = now →
      phase (time + 1) = now → measure (time + 1) ≤ measure time)
    (lowers : ∀ time, start ≤ time → phase time = now → occurs time →
      phase (time + 1) = now ∧ measure (time + 1) < measure time) :
    {time | phase time = now ∧ occurs time}.Finite := by
  by_cases reached : ∃ first, start ≤ first ∧ phase first = now
  case neg =>
    refine (Set.finite_lt_nat start).subset fun time occurred => ?_
    by_contra late
    exact reached ⟨time, Nat.le_of_not_lt late, occurred.1⟩
  case pos =>
    obtain ⟨first, after, atFirst⟩ := reached
    have grows {time : Nat} (later : first ≤ time) : now ≤ phase time := by
      induction time, later using Nat.le_induction with
      | base => exact atFirst.ge
      | succ time _ ih => exact ih.trans (onwards time)
    refine finite_of_measure
      (fun time => if phase time = now then measure time else 0) first
      (fun time later => ?_) fun time later occurred => ?_
    · by_cases next : phase (time + 1) = now
      · have current : phase time = now :=
          Nat.le_antisymm (next ▸ onwards time) (grows later)
        simp only [next, current, if_true]
        exact falls time (after.trans later) current next
      · simp only [next, if_false, Nat.zero_le]
    · obtain ⟨next, lower⟩ :=
        lowers time (after.trans later) occurred.1 occurred.2
      simp only [next, occurred.1, if_true]
      exact lower

/-- What occurs finitely often does not occur from some time on. -/
theorem exists_never_after {occurs : Nat → Prop}
    (finite : {time | occurs time}.Finite) :
    ∃ start, ∀ time, start ≤ time → ¬ occurs time := by
  obtain ⟨bound, most⟩ := finite.bddAbove
  refine ⟨bound + 1, fun time later occurred => ?_⟩
  exact absurd (most occurred) (Nat.not_le_of_lt later)

/-! ## Building a run -/

/-- The states through which the labels lead. -/
def runOf (apply : State → Label → State) (source : State)
    (labels : Nat → Label) : Nat → State
  | 0 => source
  | time + 1 => apply (runOf apply source labels time) (labels time)

theorem runOf_succ (apply : State → Label → State) (source : State)
    (labels : Nat → Label) (time : Nat) :
    runOf apply source labels (time + 1) =
      runOf apply (apply source (labels 0)) (fun later => labels (later + 1))
        time := by
  induction time with
  | zero => rfl
  | succ time ih => rw [runOf, ih, runOf]

/-- The labels of a list, and then those of a sequence. -/
def thenForever (labels : List Label) (later : Nat → Label) (time : Nat) :
    Label :=
  labels.getD time (later (time - labels.length))

theorem thenForever_add (labels : List Label) (later : Nat → Label)
    (time : Nat) :
    thenForever labels later (labels.length + time) = later time := by
  rw [thenForever, List.getD_eq_default _ _ (Nat.le_add_right _ _),
    Nat.add_sub_cancel_left]

theorem thenForever_succ (first : Label) (labels : List Label)
    (later : Nat → Label) (time : Nat) :
    thenForever (first :: labels) later (time + 1) =
      thenForever labels later time := by
  rw [thenForever, List.length_cons, Nat.add_sub_add_right,
    List.getD_cons_succ, thenForever]

/-- Behind the list, the run goes on from where the list leads. -/
theorem runOf_thenForever (apply : State → Label → State) (source : State)
    (labels : List Label) (later : Nat → Label) (time : Nat) :
    runOf apply source (thenForever labels later) (labels.length + time) =
      runOf apply (labels.foldl apply source) later time := by
  induction labels generalizing source with
  | nil =>
      rw [List.length_nil, Nat.zero_add]
      rfl
  | cons first labels ih =>
      rw [List.length_cons, Nat.add_right_comm, runOf_succ, List.foldl_cons,
        ← ih]
      simp only [thenForever_succ]
      rfl

section Partial

variable {perform : State → Label → Option State} {later : Nat → Label}
  {endless : Nat → State → Prop}

theorem orSame_endless
    (goesOn : ∀ time state, endless time state →
      ∃ next, perform state (later time) = some next ∧
        endless (time + 1) next)
    {time : Nat} {state : State} (holds : endless time state) :
    perform state (later time) = some (orSame perform state (later time)) ∧
      endless (time + 1) (orSame perform state (later time)) := by
  obtain ⟨next, performed, onwards⟩ := goesOn time state holds
  rw [orSame, performed]
  exact ⟨rfl, onwards⟩

theorem endless_runOf
    (goesOn : ∀ time state, endless time state →
      ∃ next, perform state (later time) = some next ∧
        endless (time + 1) next)
    {source : State} (initial : endless 0 source) (time : Nat) :
    endless time (runOf (orSame perform) source later time) := by
  induction time with
  | zero => exact initial
  | succ time ih =>
      rw [runOf]
      exact (orSame_endless goesOn ih).2

/-- Labels which can be taken, and then a sequence which can be, forever. -/
theorem isRun_runOf
    (goesOn : ∀ time state, endless time state →
      ∃ next, perform state (later time) = some next ∧
        endless (time + 1) next)
    {source : State} {labels : List Label}
    (taken : allTaken perform source labels = true)
    (last : endless 0 (labels.foldl (orSame perform) source)) :
    IsRun (fun state label next => perform state label = some next)
      (runOf (orSame perform) source (thenForever labels later))
      (thenForever labels later) := by
  induction labels generalizing source with
  | nil =>
      intro time
      have holds := endless_runOf goesOn last time
      exact (orSame_endless goesOn holds).1
  | cons first labels ih =>
      obtain ⟨enabled, onwards⟩ := Bool.and_eq_true_iff.mp taken
      intro time
      cases time with
      | zero =>
          obtain ⟨next, performed⟩ := Option.isSome_iff_exists.mp enabled
          have moved : orSame perform source first = next := by
            rw [orSame, performed, Option.getD_some]
          exact performed.trans (congrArg some moved.symm)
      | succ time =>
          have step := ih onwards last time
          rw [runOf_succ, runOf_succ]
          simp only [thenForever_succ]
          exact step

end Partial

end LinuxDfl.Lib.Run

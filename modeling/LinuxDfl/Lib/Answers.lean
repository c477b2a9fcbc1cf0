import Mathlib.Data.List.Basic

/-!
# Machines which answer

A machine changes its state and gives an answer at each operation.  Two
machines cannot be told apart by their answers if related states answer alike
and stay related.
-/

namespace LinuxDfl.Lib.Answers

variable {State Abstract Op Answer : Type*}

/-- The answers to a list of operations. -/
def answers (perform : State → Op → Answer × State) :
    State → List Op → List Answer
  | _, [] => []
  | state, op :: ops =>
      (perform state op).1 :: answers perform (perform state op).2 ops

/-- One operation is answered alike, and the states stay related. -/
def Agree (perform : State → Op → Answer × State)
    (plain : Abstract → Op → Answer × Abstract)
    (related : State → Abstract → Prop) (op : Op) : Prop :=
  ∀ state abstract, related state abstract →
    (perform state op).1 = (plain abstract op).1 ∧
      related (perform state op).2 (plain abstract op).2

theorem answers_eq {perform : State → Op → Answer × State}
    {plain : Abstract → Op → Answer × Abstract}
    {related : State → Abstract → Prop} {ops : List Op}
    (agree : ∀ op ∈ ops, Agree perform plain related op) {state : State}
    {abstract : Abstract} (initial : related state abstract) :
    answers perform state ops = answers plain abstract ops := by
  induction ops generalizing state abstract with
  | nil => rfl
  | cons op ops ih =>
      obtain ⟨same, later⟩ :=
        agree op List.mem_cons_self state abstract initial
      have rest :=
        ih (fun op member => agree op (List.mem_cons_of_mem _ member)) later
      simp only [answers, same, rest]

end LinuxDfl.Lib.Answers

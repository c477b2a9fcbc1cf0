import Mathlib.Data.List.Basic

/-!
# Flow control by credit

A sender is granted credit from time to time and uses it up by what it sends.
A new grant replaces what is left of the one before.
-/

namespace LinuxDfl.Lib.Credit

/-- What an event means to the flow control. -/
inductive Flow where
  | grant (credit : Nat)
  | use
  | other
  deriving DecidableEq, Repr

variable {Event : Type*} (flow : Event → Flow)

/-- The credit which is left behind some events. -/
@[simp]
def left : Nat → List Event → Nat
  | credit, [] => credit
  | credit, event :: rest =>
      match flow event with
      | .grant new => left new rest
      | .use => left (credit - 1) rest
      | .other => left credit rest

/-- Nothing is sent without credit. -/
@[simp]
def Within : Nat → List Event → Prop
  | _, [] => True
  | credit, event :: rest =>
      match flow event with
      | .grant new => Within new rest
      | .use => 0 < credit ∧ Within (credit - 1) rest
      | .other => Within credit rest

/-- How often credit is used. -/
def uses (events : List Event) : Nat :=
  events.countP fun event => flow event = .use

variable {flow}

@[simp]
theorem left_nil (credit : Nat) : left flow credit [] = credit := rfl

@[simp]
theorem within_nil (credit : Nat) : Within flow credit [] := trivial

theorem left_append (credit : Nat) (first second : List Event) :
    left flow credit (first ++ second) =
      left flow (left flow credit first) second := by
  induction first generalizing credit with
  | nil => rfl
  | cons event rest ih =>
      simp only [List.cons_append, left]
      cases flow event with
      | grant new => exact ih new
      | use => exact ih (credit - 1)
      | other => exact ih credit

theorem within_append (credit : Nat) (first second : List Event) :
    Within flow credit (first ++ second) ↔
      Within flow credit first ∧
        Within flow (left flow credit first) second := by
  induction first generalizing credit with
  | nil => simp
  | cons event rest ih =>
      simp only [List.cons_append, Within, left]
      cases flow event with
      | grant new => exact ih new
      | use => simp only [ih, and_assoc]
      | other => exact ih credit

/-- Without a new grant, no more is used than there is. -/
theorem uses_le {credit : Nat} {events : List Event}
    (within : Within flow credit events)
    (noGrant : ∀ event ∈ events, ∀ new, flow event ≠ .grant new) :
    uses flow events ≤ credit := by
  induction events generalizing credit with
  | nil => exact Nat.zero_le credit
  | cons event rest ih =>
      have later : ∀ other ∈ rest, ∀ new, flow other ≠ .grant new :=
        fun other member => noGrant other (List.mem_cons_of_mem _ member)
      have here := noGrant event List.mem_cons_self
      unfold uses at ih ⊢
      rw [List.countP_cons]
      cases meaning : flow event with
      | grant new => exact absurd meaning (here new)
      | use =>
          simp only [Within, meaning] at within
          have rests := ih within.2 later
          simp only [decide_true, if_true]
          omega
      | other =>
          simp only [Within, meaning] at within
          have rests := ih within later
          simpa using rests

/-- Behind the last grant, what is left of it is what has not been used. -/
theorem left_eq_sub {credit : Nat} {events : List Event}
    (noGrant : ∀ event ∈ events, ∀ new, flow event ≠ .grant new) :
    left flow credit events = credit - uses flow events := by
  induction events generalizing credit with
  | nil => rfl
  | cons event rest ih =>
      have later : ∀ other ∈ rest, ∀ new, flow other ≠ .grant new :=
        fun other member => noGrant other (List.mem_cons_of_mem _ member)
      have here := noGrant event List.mem_cons_self
      unfold uses at ih ⊢
      rw [List.countP_cons]
      cases meaning : flow event with
      | grant new => exact absurd meaning (here new)
      | use =>
          simp only [left, meaning, decide_true, if_true]
          rw [ih later, Nat.sub_sub, Nat.add_comm]
      | other =>
          simp only [left, meaning]
          rw [ih later]
          rfl

/-- Between two grants, no more is used than the first has granted. -/
theorem uses_le_of_grant {credit new : Nat}
    {before between after : List Event} {event : Event}
    (within : Within flow credit (before ++ event :: (between ++ after)))
    (grants : flow event = .grant new)
    (noGrant : ∀ other ∈ between, ∀ more, flow other ≠ .grant more) :
    uses flow between ≤ new := by
  rw [within_append] at within
  have behind := within.2
  simp only [Within, grants] at behind
  rw [within_append] at behind
  exact uses_le behind.1 noGrant

end LinuxDfl.Lib.Credit

import Mathlib.Data.List.Basic

/-!
# Histories of events

A history lists events in the order in which they happened.  It is allowed
when every event of it was allowed by the events before it.
-/

namespace LinuxDfl.Lib.History

variable {Event : Type*}

/-- Every event of the history was allowed by the events before it. -/
def Everywhere (allowed : List Event → Event → Prop)
    (history : List Event) : Prop :=
  ∀ before event after, history = before ++ event :: after →
    allowed before event

@[simp]
theorem everywhere_nil (allowed : List Event → Event → Prop) :
    Everywhere allowed [] := by
  intro before event after split
  exact absurd split.symm (by simp)

/-- A history grows by one event at a time. -/
@[simp]
theorem everywhere_append_singleton
    (allowed : List Event → Event → Prop)
    (history : List Event) (event : Event) :
    Everywhere allowed (history ++ [event]) ↔
      Everywhere allowed history ∧ allowed history event := by
  constructor
  · intro all
    refine ⟨fun before old after split => ?_, ?_⟩
    · exact all before old (after ++ [event]) (by simp [split])
    · exact all history event [] rfl
  · rintro ⟨old, new⟩ before current after split
    rcases List.eq_nil_or_concat after with rfl | ⟨init, last, rfl⟩
    · obtain ⟨rfl, same⟩ := List.append_inj' split rfl
      obtain rfl : event = current := by simpa using same
      exact new
    · have grouped :
          history ++ [event] = (before ++ current :: init) ++ [last] := by
        simp [split]
      obtain ⟨same, -⟩ := List.append_inj' grouped rfl
      exact old before current init same

end LinuxDfl.Lib.History

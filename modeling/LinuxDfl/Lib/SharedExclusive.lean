import Mathlib.Data.Multiset.Basic
import Mathlib.Data.Multiset.AddSub

/-!
# Shared and exclusive holders

A resource is held by a finite multiset of holders, each of which is shared
(`false`) or exclusive (`true`).  An exclusive holder tolerates no other one.
This file describes the multiset abstractly, and the usual representation by
a counter and a flag: the counter is the number of holders, and the flag says
whether one of them is exclusive.
-/

namespace LinuxDfl.Lib.SharedExclusive

/-- The holders of one resource; `true` marks an exclusive one. -/
abbrev Holders := Multiset Bool

/-- An exclusive holder is the only one. -/
def Compatible (holders : Holders) : Prop :=
  true ∈ holders → holders = {true}

/-- A new holder may join: nobody is exclusive, and an exclusive one is alone. -/
def CanJoin (holders : Holders) (exclusive : Bool) : Prop :=
  true ∉ holders ∧ (exclusive = true → holders = 0)

/-- A counter and a flag represent the holders. -/
structure Represents (count : Int) (flag : Bool) (holders : Holders) :
    Prop where
  count_eq : count = holders.card
  flag_iff : flag = true ↔ true ∈ holders

theorem compatible_zero : Compatible 0 := by
  simp [Compatible]

theorem represents_zero : Represents 0 false 0 :=
  ⟨by simp, by simp⟩

/-- Joining when it is allowed keeps the holders compatible. -/
theorem Compatible.join
    {holders : Holders} {exclusive : Bool}
    (allowed : CanJoin holders exclusive) :
    Compatible (exclusive ::ₘ holders) := by
  intro member
  obtain ⟨noExclusive, alone⟩ := allowed
  cases exclusive with
  | false =>
      have old : true ∈ holders := by simpa using member
      exact absurd old noExclusive
  | true => rw [alone rfl]; rfl

/-- Once a compatible holder has left, no exclusive holder remains. -/
theorem Compatible.not_exclusive_of_leave
    {holders : Holders} {exclusive : Bool}
    (compatible : Compatible (exclusive ::ₘ holders)) :
    true ∉ holders := by
  intro member
  have whole : exclusive ::ₘ holders = {true} :=
    compatible (Multiset.mem_cons_of_mem member)
  have card : (exclusive ::ₘ holders).card = 1 := by rw [whole]; rfl
  have empty : holders = 0 := by
    rw [Multiset.card_cons] at card
    exact Multiset.card_eq_zero.mp (by omega)
  simp [empty] at member

/-- Any holder may leave. -/
theorem Compatible.leave
    {holders : Holders} {exclusive : Bool}
    (compatible : Compatible (exclusive ::ₘ holders)) :
    Compatible holders :=
  fun member => absurd member compatible.not_exclusive_of_leave

theorem Represents.count_eq_zero_iff
    {count : Int} {flag : Bool} {holders : Holders}
    (represents : Represents count flag holders) :
    count = 0 ↔ holders = 0 := by
  rw [represents.count_eq, ← Multiset.card_eq_zero]
  omega

theorem Represents.count_pos_of_cons
    {count : Int} {flag : Bool} {holders : Holders} {exclusive : Bool}
    (represents : Represents count flag (exclusive ::ₘ holders)) :
    0 < count := by
  rw [represents.count_eq, Multiset.card_cons]
  omega

/-- Joining counts one more holder, and records whether it is exclusive. -/
theorem Represents.join
    {count : Int} {flag exclusive : Bool} {holders : Holders}
    (represents : Represents count flag holders)
    (allowed : CanJoin holders exclusive) :
    Represents (count + 1) (exclusive || flag) (exclusive ::ₘ holders) where
  count_eq := by
    rw [represents.count_eq, Multiset.card_cons]
    omega
  flag_iff := by
    have noFlag : flag = false := by
      have := allowed.1
      rw [← represents.flag_iff] at this
      simpa using this
    cases exclusive <;> simp [noFlag, allowed.1]

/-- Leaving counts one holder less, and clears the flag. -/
theorem Represents.leave
    {count : Int} {flag exclusive : Bool} {holders : Holders}
    (represents : Represents count flag (exclusive ::ₘ holders))
    (compatible : Compatible (exclusive ::ₘ holders)) :
    Represents (count - 1) false holders where
  count_eq := by
    rw [represents.count_eq, Multiset.card_cons]
    omega
  flag_iff := by
    simp [compatible.not_exclusive_of_leave]

end LinuxDfl.Lib.SharedExclusive

import LinuxDfl.Lib.Balance
import Mathlib.Data.List.Count
import Mathlib.Data.List.Range
import Mathlib.Data.List.Nodup

/-!
# Numbered slots which hold resources

A number of slots, each of which holds some resources.  What is held by all of
them, and what becomes of it when one slot is filled anew.
-/

namespace LinuxDfl.Lib.Slots

open LinuxDfl.Lib.Balance

variable {Resource : Type}

/-- What the slots hold together. -/
def heldIn (count : Nat) (holds : Nat → List Resource) : List Resource :=
  (List.range count).flatMap holds

/-- What the slots hold apart from one. -/
def heldBeside (count : Nat) (holds : Nat → List Resource) (slot : Nat) :
    List Resource :=
  ((List.range count).erase slot).flatMap holds

variable {count slot : Nat} {holds : Nat → List Resource}

/-- One slot may be told apart. -/
theorem heldIn_perm (inside : slot < count) :
    (heldIn count holds).Perm (holds slot ++ heldBeside count holds slot) := by
  have split : (List.range count).Perm
      (slot :: (List.range count).erase slot) :=
    List.perm_cons_erase (List.mem_range.mpr inside)
  exact split.flatMap_right holds

/-- The other slots do not see what becomes of one. -/
theorem heldBeside_congr {other : Nat → List Resource}
    (same : ∀ beside, beside ≠ slot → other beside = holds beside) :
    heldBeside count other slot = heldBeside count holds slot := by
  apply List.flatMap_congr
  intro beside member
  apply same
  rintro rfl
  exact List.Nodup.not_mem_erase List.nodup_range member

theorem heldIn_empty (count : Nat) :
    heldIn count (fun _ => ([] : List Resource)) = [] := by
  simp [heldIn]

variable [DecidableEq Resource]

/-- A resource is held as often as there are slots which hold it. -/
theorem count_heldIn (once : ∀ slot, (holds slot).Nodup)
    (resource : Resource) :
    (heldIn count holds).count resource =
      (List.range count).countP fun slot => resource ∈ holds slot := by
  unfold heldIn
  induction List.range count with
  | nil => rfl
  | cons slot rest ih =>
      rw [List.flatMap_cons, List.count_append, ih, List.countP_cons,
        Nat.add_comm]
      congr 1
      by_cases member : resource ∈ holds slot
      · simp [member, List.count_eq_one_of_mem (once slot) member]
      · simp [member, List.count_eq_zero_of_not_mem member]

/-- What only one slot may hold, is held once if that slot holds it. -/
theorem countP_range_unique {holding : Nat → Bool} (inside : slot < count)
    (unique : ∀ other < count, holding other = true → other = slot) :
    (List.range count).countP holding = (holding slot).toNat := by
  cases here : holding slot with
  | false =>
      refine List.countP_eq_zero.mpr fun other member => ?_
      intro there
      have same := unique other (List.mem_range.mp member) there
      rw [same, here] at there
      cases there
  | true =>
      have asEqual : (List.range count).countP holding =
          (List.range count).count slot := by
        refine List.countP_congr fun other member => ?_
        constructor
        · intro there
          exact beq_iff_eq.mpr
            (unique other (List.mem_range.mp member) there)
        · intro same
          rw [beq_iff_eq.mp same]
          exact here
      rw [asEqual]
      exact List.count_eq_one_of_mem List.nodup_range
        (List.mem_range.mpr inside)

end LinuxDfl.Lib.Slots

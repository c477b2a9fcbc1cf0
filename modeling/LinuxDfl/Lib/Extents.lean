import Mathlib.Data.List.Pairwise
import Mathlib.Data.List.Perm.Basic
import Mathlib.Order.Lattice

/-!
# Half-open extents

Runs of addresses which are given by their start and their size, and families
of extents which share no address.
-/

namespace LinuxDfl.Lib.Extents

/-- The addresses from `start` on, `size` many. -/
structure Extent where
  start : Nat
  size : Nat
  deriving DecidableEq, Repr

namespace Extent

def limit (extent : Extent) : Nat := extent.start + extent.size

/-- The address lies in the extent. -/
def Covers (extent : Extent) (address : Nat) : Prop :=
  extent.start ≤ address ∧ address < extent.limit

/-- The inner extent begins and ends in the outer one. -/
def Within (inner outer : Extent) : Prop :=
  outer.start ≤ inner.start ∧ inner.limit ≤ outer.limit

instance (inner outer : Extent) : Decidable (inner.Within outer) :=
  inferInstanceAs (Decidable (_ ∧ _))

/-- An extent lies in another if it is empty, or else begins and ends there. -/
theorem covered_iff {inner outer : Extent} :
    (∀ address, inner.Covers address → outer.Covers address) ↔
      inner.size = 0 ∨ inner.Within outer := by
  unfold Covers Within limit
  constructor
  · intro covered
    by_contra neither
    obtain ⟨nonempty, outside⟩ := not_or.mp neither
    have first := covered inner.start (by omega)
    have last := covered (inner.start + inner.size - 1) (by omega)
    omega
  · rintro (empty | ⟨begins, ends⟩) address ⟨above, below⟩ <;> omega

/-- The extents share no address. -/
def Apart (first second : Extent) : Prop :=
  ∀ address, first.Covers address → ¬ second.Covers address

theorem Apart.symm {first second : Extent} (apart : first.Apart second) :
    second.Apart first :=
  fun address inSecond inFirst => apart address inFirst inSecond

/-- What ends before the other begins shares no address with it. -/
theorem apart_of_limit_le {first second : Extent}
    (before : first.limit ≤ second.start) : first.Apart second := by
  intro address inFirst inSecond
  have below := inFirst.2
  have above := inSecond.1
  omega

/-- An extent which is not empty lies in at most one of two. -/
theorem Within.not_apart {inner first second : Extent}
    (inFirst : inner.Within first) (inSecond : inner.Within second)
    (nonempty : inner.size ≠ 0) : ¬ first.Apart second := by
  intro apart
  unfold Within limit at inFirst inSecond
  refine apart inner.start ?_ ?_ <;>
    · unfold Covers limit
      omega

end Extent

/-! ## Families -/

section Family

variable {Value : Type} {extent : Value → Extent}

/-- No two values of the list share an address. -/
def PairwiseApart (extent : Value → Extent) (values : List Value) : Prop :=
  values.Pairwise fun first second => (extent first).Apart (extent second)

theorem PairwiseApart.of_ne {values : List Value}
    (apart : PairwiseApart extent values) {first second : Value}
    (isFirst : first ∈ values) (isSecond : second ∈ values)
    (different : first ≠ second) : (extent first).Apart (extent second) := by
  have symmetric :
      Std.Symm fun first second => (extent first).Apart (extent second) :=
    ⟨fun _ _ => Extent.Apart.symm⟩
  exact List.Pairwise.forall apart isFirst isSecond different

/-- At most one value holds an extent which is not empty. -/
theorem PairwiseApart.unique {values : List Value}
    (apart : PairwiseApart extent values) {inner : Extent}
    (nonempty : inner.size ≠ 0) {first second : Value}
    (isFirst : first ∈ values) (isSecond : second ∈ values)
    (inFirst : inner.Within (extent first))
    (inSecond : inner.Within (extent second)) : first = second := by
  by_contra different
  exact inFirst.not_apart inSecond nonempty
    (apart.of_ne isFirst isSecond different)

theorem PairwiseApart.perm {values others : List Value}
    (apart : PairwiseApart extent values) (perm : values.Perm others) :
    PairwiseApart extent others :=
  (perm.pairwise_iff Extent.Apart.symm).mp apart

end Family

end LinuxDfl.Lib.Extents

import Mathlib.Order.Lattice
import Mathlib.Data.List.Pairwise
import Mathlib.Data.List.Perm.Basic
import Mathlib.Data.List.InsertIdx
import Mathlib.Data.List.Nodup

/-!
# Search trees which are rebalanced by others

A binary tree in which values are searched for and linked by walking down
from the root.  A walk may stop early at a value which is hit.  Rebalancing
and erasing are left to a library of which only the effect on the order of
the values is known.
-/

namespace LinuxDfl.Lib.SearchTree

inductive Color where
  | red
  | black
  deriving DecidableEq, Repr

/-- A tree whose nodes have a color for the library which rebalances it. -/
inductive RbTree (Value : Type) where
  | nil
  | node (color : Color) (left : RbTree Value) (value : Value)
      (right : RbTree Value)
  deriving Repr

/-- Where a walk turns at a value. -/
inductive Turn where
  | left
  | right
  | stop
  deriving DecidableEq, Repr

variable {Value Key : Type}

namespace RbTree

/-- The values of the tree from left to right. -/
def inorder : RbTree Value → List Value
  | nil => []
  | node _ left value right => left.inorder ++ value :: right.inorder

@[simp]
theorem inorder_nil : (nil : RbTree Value).inorder = [] := rfl

@[simp]
theorem inorder_node (color : Color) (left : RbTree Value) (value : Value)
    (right : RbTree Value) :
    (node color left value right).inorder =
      left.inorder ++ value :: right.inorder := rfl

/-- A tree without values is empty. -/
theorem eq_nil_of_inorder {tree : RbTree Value} (none : tree.inorder = []) :
    tree = nil := by
  cases tree with
  | nil => rfl
  | node color left value right =>
      exact absurd none (List.append_ne_nil_of_right_ne_nil _ (by simp))

/--
Walk down from the root, and link the value where the walk leaves the tree.
There is no answer if the walk hits a value or stops at one.
-/
def link (hit : Value → Bool) (turn : Value → Turn) (value : Value) :
    RbTree Value → Option (RbTree Value)
  | nil => some (node .red nil value nil)
  | node color left this right =>
      if hit this then
        none
      else
        match turn this with
        | .left =>
            (left.link hit turn value).map fun left =>
              node color left this right
        | .right =>
            (right.link hit turn value).map fun right =>
              node color left this right
        | .stop => none

/-- The first value which the walk hits, and its place in the order. -/
def find (hit : Value → Bool) (turn : Value → Turn) :
    RbTree Value → Option (Nat × Value)
  | nil => none
  | node _ left this right =>
      if hit this then
        some (left.inorder.length, this)
      else
        match turn this with
        | .left => left.find hit turn
        | .right =>
            (right.find hit turn).map fun found =>
              (left.inorder.length + 1 + found.1, found.2)
        | .stop => none

/-- The values which a walk meets when it hits none of them. -/
def visited (turn : Value → Turn) : RbTree Value → List Value
  | nil => []
  | node _ left this right =>
      this ::
        match turn this with
        | .left => left.visited turn
        | .right => right.visited turn
        | .stop => []

/-! ## Links -/

/-- The value is linked somewhere in the order. -/
theorem link_inorder {hit : Value → Bool} {turn : Value → Turn}
    {value : Value} {tree linked : RbTree Value}
    (links : tree.link hit turn value = some linked) :
    ∃ before after, tree.inorder = before ++ after ∧
      linked.inorder = before ++ value :: after := by
  induction tree generalizing linked with
  | nil =>
      cases links
      exact ⟨[], [], rfl, rfl⟩
  | node color left this right ihLeft ihRight =>
      rw [link] at links
      by_cases hits : hit this = true
      · rw [if_pos hits] at links
        cases links
      · rw [if_neg hits] at links
        cases turns : turn this with
        | stop =>
            simp only [turns] at links
            cases links
        | left =>
            simp only [turns] at links
            obtain ⟨child, linksChild, rfl⟩ :=
              Option.map_eq_some_iff.mp links
            obtain ⟨before, after, order, placed⟩ := ihLeft linksChild
            refine ⟨before, after ++ this :: right.inorder, ?_, ?_⟩
            · rw [inorder_node, order, List.append_assoc]
            · rw [inorder_node, placed, List.append_assoc,
                List.cons_append]
        | right =>
            simp only [turns] at links
            obtain ⟨child, linksChild, rfl⟩ :=
              Option.map_eq_some_iff.mp links
            obtain ⟨before, after, order, placed⟩ := ihRight linksChild
            refine ⟨left.inorder ++ this :: before, after, ?_, ?_⟩
            · rw [inorder_node, order, List.append_assoc,
                List.cons_append]
            · rw [inorder_node, placed, List.append_assoc,
                List.cons_append]

/-- A walk which hits no value and stops at none links the value. -/
theorem link_isSome {hit : Value → Bool} {turn : Value → Turn}
    (value : Value) {tree : RbTree Value}
    (passes : ∀ other ∈ tree.inorder,
      hit other = false ∧ turn other ≠ .stop) :
    ∃ linked, tree.link hit turn value = some linked := by
  induction tree with
  | nil => exact ⟨_, rfl⟩
  | node color left this right ihLeft ihRight =>
      rw [inorder_node] at passes
      have here := passes this (List.mem_append_right _ List.mem_cons_self)
      rw [link, if_neg (by rw [here.1]; decide)]
      cases turns : turn this with
      | stop => exact absurd turns here.2
      | left =>
          obtain ⟨linked, links⟩ := ihLeft fun other isLeft =>
            passes other (List.mem_append_left _ isLeft)
          exact ⟨_, by rw [links]; rfl⟩
      | right =>
          obtain ⟨linked, links⟩ := ihRight fun other isRight =>
            passes other
              (List.mem_append_right _ (List.mem_cons_of_mem _ isRight))
          exact ⟨_, by rw [links]; rfl⟩

theorem link_perm {hit : Value → Bool} {turn : Value → Turn}
    {value : Value} {tree linked : RbTree Value}
    (links : tree.link hit turn value = some linked) :
    linked.inorder.Perm (value :: tree.inorder) := by
  obtain ⟨before, after, order, placed⟩ := link_inorder links
  rw [order, placed]
  exact List.perm_middle

/-! ## Walks -/

/-- A walk finds the first hit among the values which it visits. -/
theorem find_value (hit : Value → Bool) (turn : Value → Turn)
    (tree : RbTree Value) :
    (tree.find hit turn).map Prod.snd = (tree.visited turn).find? hit := by
  induction tree with
  | nil => rfl
  | node color left this right ihLeft ihRight =>
      rw [find, visited]
      by_cases hits : hit this = true
      · rw [if_pos hits, List.find?_cons_of_pos hits]
        rfl
      · rw [if_neg hits, List.find?_cons_of_neg hits]
        cases turn this with
        | stop => rfl
        | left => exact ihLeft
        | right =>
            rw [← ihRight, Option.map_map]
            rfl

/-- What is found is at its place in the order. -/
theorem find_place {hit : Value → Bool} {turn : Value → Turn}
    {tree : RbTree Value} {place : Nat} {value : Value}
    (finds : tree.find hit turn = some (place, value)) :
    tree.inorder[place]? = some value := by
  induction tree generalizing place with
  | nil => cases finds
  | node color left this right ihLeft ihRight =>
      rw [find] at finds
      rw [inorder_node]
      by_cases hits : hit this = true
      · rw [if_pos hits] at finds
        cases finds
        rw [List.getElem?_append_right (Nat.le_refl _), Nat.sub_self]
        rfl
      · rw [if_neg hits] at finds
        cases turns : turn this with
        | stop =>
            simp only [turns] at finds
            cases finds
        | left =>
            simp only [turns] at finds
            have inLeft := ihLeft finds
            have bound : place < left.inorder.length :=
              (List.getElem?_eq_some_iff.mp inLeft).1
            rw [List.getElem?_append_left bound, inLeft]
        | right =>
            simp only [turns] at finds
            obtain ⟨⟨within, found⟩, findsRight, same⟩ :=
              Option.map_eq_some_iff.mp finds
            cases same
            have beyond : left.inorder.length + 1 + within -
                left.inorder.length = within + 1 := by omega
            rw [List.getElem?_append_right (by omega), beyond,
              List.getElem?_cons_succ]
            exact ihRight findsRight

/-- What is found is in the tree, and was hit. -/
theorem find_hit {hit : Value → Bool} {turn : Value → Turn}
    {tree : RbTree Value} {value : Value}
    (finds : (tree.find hit turn).map Prod.snd = some value) :
    value ∈ tree.inorder ∧ hit value = true := by
  obtain ⟨⟨place, found⟩, atPlace, rfl⟩ := Option.map_eq_some_iff.mp finds
  rw [find_value] at finds
  exact ⟨List.mem_of_getElem? (find_place atPlace), List.find?_some finds⟩

end RbTree

/-! ## Trees which are ordered by a key -/

section Sorted

variable [LinearOrder Key] {key : Value → Key}

/-- The values of the tree have increasing keys. -/
def Sorted (key : Value → Key) (tree : RbTree Value) : Prop :=
  tree.inorder.Pairwise fun first second => key first < key second

/-- The way to a key. -/
def turnTo (key : Value → Key) (goal : Key) (value : Value) : Turn :=
  if goal < key value then .left
  else if key value < goal then .right
  else .stop

theorem turnTo_left {goal : Key} {value : Value} :
    turnTo key goal value = .left ↔ goal < key value := by
  unfold turnTo
  split_ifs with below above
  · exact iff_of_true rfl below
  · exact iff_of_false (by decide) below
  · exact iff_of_false (by decide) below

theorem turnTo_right {goal : Key} {value : Value} :
    turnTo key goal value = .right ↔ key value < goal := by
  unfold turnTo
  split_ifs with below above
  · exact iff_of_false (by decide) (lt_asymm below)
  · exact iff_of_true rfl above
  · exact iff_of_false (by decide) above

theorem sorted_nil : Sorted key (.nil : RbTree Value) := List.Pairwise.nil

theorem sorted_node {color : Color} {left : RbTree Value} {value : Value}
    {right : RbTree Value} :
    Sorted key (.node color left value right) ↔
      Sorted key left ∧ Sorted key right ∧
        (∀ below ∈ left.inorder, key below < key value) ∧
          ∀ above ∈ right.inorder, key value < key above := by
  unfold Sorted
  rw [RbTree.inorder_node, List.pairwise_append, List.pairwise_cons]
  constructor
  · rintro ⟨sortedLeft, ⟨above, sortedRight⟩, across⟩
    exact ⟨sortedLeft, sortedRight,
      fun below isBelow => across below isBelow value List.mem_cons_self,
      above⟩
  · rintro ⟨sortedLeft, sortedRight, below, above⟩
    refine ⟨sortedLeft, ⟨above, sortedRight⟩, ?_⟩
    intro first inLeft second member
    rcases List.mem_cons.mp member with rfl | inRight
    · exact below first inLeft
    · exact lt_trans (below first inLeft) (above second inRight)

/-- A value which is linked on the way to its key keeps the tree sorted. -/
theorem Sorted.link {hit : Value → Bool} {value : Value}
    {tree linked : RbTree Value} (sorted : Sorted key tree)
    (links : tree.link hit (turnTo key (key value)) value = some linked) :
    Sorted key linked := by
  induction tree generalizing linked with
  | nil =>
      cases links
      exact List.pairwise_singleton _ _
  | node color left this right ihLeft ihRight =>
      obtain ⟨sortedLeft, sortedRight, below, above⟩ :=
        sorted_node.mp sorted
      rw [RbTree.link] at links
      by_cases hits : hit this = true
      · rw [if_pos hits] at links
        cases links
      · rw [if_neg hits] at links
        cases turns : turnTo key (key value) this with
        | stop =>
            simp only [turns] at links
            cases links
        | left =>
            simp only [turns] at links
            obtain ⟨child, linksChild, rfl⟩ :=
              Option.map_eq_some_iff.mp links
            refine sorted_node.mpr
              ⟨ihLeft sortedLeft linksChild, sortedRight, ?_, above⟩
            intro member inChild
            have linkedMember :=
              (RbTree.link_perm linksChild).mem_iff.mp inChild
            rcases List.mem_cons.mp linkedMember with rfl | inLeft
            · exact turnTo_left.mp turns
            · exact below member inLeft
        | right =>
            simp only [turns] at links
            obtain ⟨child, linksChild, rfl⟩ :=
              Option.map_eq_some_iff.mp links
            refine sorted_node.mpr
              ⟨sortedLeft, ihRight sortedRight linksChild, below, ?_⟩
            intro member inChild
            have linkedMember :=
              (RbTree.link_perm linksChild).mem_iff.mp inChild
            rcases List.mem_cons.mp linkedMember with rfl | inRight
            · exact turnTo_right.mp turns
            · exact above member inRight

/-- At this value the walk turns to where the sought value has to be. -/
def TurnsTowards (key : Value → Key) (turn : Value → Turn)
    (sought value : Value) : Prop :=
  match turn value with
  | .left => key sought < key value
  | .right => key value < key sought
  | .stop => False

/-- A walk visits the value towards which it turns everywhere else. -/
theorem Sorted.mem_visited_of_turns {turn : Value → Turn}
    {tree : RbTree Value} (sorted : Sorted key tree) {sought : Value}
    (member : sought ∈ tree.inorder)
    (turns :
      ∀ value ∈ tree.inorder, value ≠ sought →
        TurnsTowards key turn sought value) :
    sought ∈ tree.visited turn := by
  induction tree with
  | nil => exact absurd member List.not_mem_nil
  | node color left this right ihLeft ihRight =>
      obtain ⟨sortedLeft, sortedRight, below, above⟩ :=
        sorted_node.mp sorted
      rw [RbTree.visited, List.mem_cons]
      rw [RbTree.inorder_node] at member turns
      by_cases isHere : sought = this
      · exact .inl isHere
      right
      have here := turns this
        (List.mem_append_right _ List.mem_cons_self) (Ne.symm isHere)
      have inLeft (value : Value) (isLeft : value ∈ left.inorder) :=
        turns value (List.mem_append_left _ isLeft)
      have inRight (value : Value) (isRight : value ∈ right.inorder) :=
        turns value (List.mem_append_right _ (List.mem_cons_of_mem _ isRight))
      rcases List.mem_append.mp member with isLeft | isOther
      · unfold TurnsTowards at here
        have smaller := below sought isLeft
        cases turns : turn this with
        | left => exact ihLeft sortedLeft isLeft inLeft
        | right =>
            rw [turns] at here
            exact absurd here (lt_asymm smaller)
        | stop =>
            rw [turns] at here
            exact here.elim
      · have isRight := (List.mem_cons.mp isOther).resolve_left isHere
        unfold TurnsTowards at here
        have larger := above sought isRight
        cases turns : turn this with
        | left =>
            rw [turns] at here
            exact absurd here (lt_asymm larger)
        | right => exact ihRight sortedRight isRight inRight
        | stop =>
            rw [turns] at here
            exact here.elim

/-- The way to the key of a value leads to the value. -/
theorem Sorted.mem_visited {tree : RbTree Value} (sorted : Sorted key tree)
    {value : Value} (member : value ∈ tree.inorder) :
    value ∈ tree.visited (turnTo key (key value)) := by
  refine sorted.mem_visited_of_turns member fun other isOther different => ?_
  have distinct : key other ≠ key value := by
    have symmetric :
        Std.Symm fun first second : Value => key first ≠ key second :=
      ⟨fun _ _ => Ne.symm⟩
    have keys : tree.inorder.Pairwise fun first second =>
        key first ≠ key second := List.Pairwise.imp ne_of_lt sorted
    exact keys.forall isOther member different
  unfold TurnsTowards
  cases turns : turnTo key (key value) other with
  | left => exact turnTo_left.mp turns
  | right => exact turnTo_right.mp turns
  | stop =>
      unfold turnTo at turns
      split_ifs at turns with below above
      exact distinct (le_antisymm (not_lt.mp below) (not_lt.mp above))

/--
A walk which turns towards every value that it should hit finds exactly the one
that there is.
-/
theorem Sorted.find_iff {hit : Value → Bool} {turn : Value → Turn}
    {tree : RbTree Value} (sorted : Sorted key tree)
    (turns :
      ∀ sought ∈ tree.inorder, hit sought = true →
        ∀ value ∈ tree.inorder, value ≠ sought →
          hit value = false ∧ TurnsTowards key turn sought value)
    (value : Value) :
    (tree.find hit turn).map Prod.snd = some value ↔
      value ∈ tree.inorder ∧ hit value = true := by
  refine ⟨RbTree.find_hit, fun ⟨member, hits⟩ => ?_⟩
  have visits : value ∈ tree.visited turn :=
    sorted.mem_visited_of_turns member fun other isOther different =>
      (turns value member hits other isOther different).2
  obtain ⟨found, visited⟩ :=
    Option.isSome_iff_exists.mp (List.find?_isSome.mpr ⟨value, visits, hits⟩)
  have finds : (tree.find hit turn).map Prod.snd = some found :=
    (RbTree.find_value hit turn tree).trans visited
  obtain ⟨inTree, isHit⟩ := RbTree.find_hit finds
  rw [finds]
  by_contra different
  have misses := turns value member hits found inTree
    fun same => different (congrArg some same)
  rw [isHit] at misses
  exact absurd misses.1 (by decide)

/-- The way to a key ends at the value which has it. -/
theorem visited_pairwise (goal : Key) (tree : RbTree Value) :
    (tree.visited (turnTo key goal)).Pairwise
      fun first _ => key first ≠ goal := by
  induction tree with
  | nil => exact List.Pairwise.nil
  | node color left this right ihLeft ihRight =>
      rw [RbTree.visited, List.pairwise_cons]
      cases turns : turnTo key goal this with
      | stop =>
          refine ⟨?_, List.Pairwise.nil⟩
          intro later isLater
          exact absurd isLater List.not_mem_nil
      | left =>
          exact ⟨fun _ _ => ne_of_gt (turnTo_left.mp turns), ihLeft⟩
      | right =>
          exact ⟨fun _ _ => ne_of_lt (turnTo_right.mp turns), ihRight⟩

end Sorted

/-! ## The library which rebalances -/

/--
What `rb_insert_color` and `rb_erase` do to a tree: the first keeps the order
of the values, the second takes the value at a place out of it.
-/
structure Balancing (Value : Type) where
  insertColor : RbTree Value → RbTree Value
  inorder_insertColor :
    ∀ tree, (insertColor tree).inorder = tree.inorder
  erase : RbTree Value → Nat → RbTree Value
  inorder_erase :
    ∀ tree place, (erase tree place).inorder = tree.inorder.eraseIdx place

namespace Balancing

variable (ops : Balancing Value)

/-- Erase the first value as long as there is one; what has been erased. -/
def drain (ops : Balancing Value) :
    Nat → RbTree Value → List Value × RbTree Value
  | 0, tree => ([], tree)
  | fuel + 1, tree =>
      match tree.inorder with
      | [] => ([], tree)
      | first :: _ =>
          let (later, rest) := drain ops fuel (ops.erase tree 0)
          (first :: later, rest)

/-- A tree can be drained, and its values come out in order. -/
theorem drain_all (tree : RbTree Value) :
    ops.drain tree.inorder.length tree = (tree.inorder, .nil) := by
  induction order : tree.inorder generalizing tree with
  | nil =>
      rw [RbTree.eq_nil_of_inorder order]
      rfl
  | cons first rest ih =>
      have erased : (ops.erase tree 0).inorder = rest := by
        rw [ops.inorder_erase, order]
        rfl
      rw [List.length_cons, drain, order]
      dsimp only
      rw [ih (ops.erase tree 0) erased]

/-- Erasing what has been found takes it out of the values. -/
theorem erase_perm {tree : RbTree Value} {place : Nat} {value : Value}
    (placed : tree.inorder[place]? = some value) :
    tree.inorder.Perm (value :: (ops.erase tree place).inorder) := by
  obtain ⟨bound, same⟩ := List.getElem?_eq_some_iff.mp placed
  rw [ops.inorder_erase, ← same]
  have within : place ≤ (tree.inorder.eraseIdx place).length := by
    rw [List.length_eraseIdx_of_lt bound]
    omega
  have restored := List.perm_insertIdx tree.inorder[place]
    (tree.inorder.eraseIdx place) within
  rw [List.insertIdx_eraseIdx_getElem bound] at restored
  exact restored

theorem sorted_insertColor [LinearOrder Key] {key : Value → Key}
    {tree : RbTree Value} (sorted : Sorted key tree) :
    Sorted key (ops.insertColor tree) := by
  unfold Sorted
  rw [ops.inorder_insertColor]
  exact sorted

theorem sorted_erase [LinearOrder Key] {key : Value → Key}
    {tree : RbTree Value} (sorted : Sorted key tree) (place : Nat) :
    Sorted key (ops.erase tree place) := by
  unfold Sorted
  rw [ops.inorder_erase]
  exact sorted.sublist (List.eraseIdx_sublist _ _)

end Balancing

/-- A tree whose values all stand to the right of each other. -/
def RbTree.ofList : List Value → RbTree Value
  | [] => .nil
  | first :: rest => .node .black .nil first (ofList rest)

theorem RbTree.inorder_ofList (values : List Value) :
    (ofList values).inorder = values := by
  induction values with
  | nil => rfl
  | cons first rest ih =>
      rw [ofList, inorder_node, ih]
      rfl

/-- A library which does not rebalance. -/
def unbalanced (Value : Type) : Balancing Value where
  insertColor := id
  inorder_insertColor _ := rfl
  erase tree place := .ofList (tree.inorder.eraseIdx place)
  inorder_erase _ _ := RbTree.inorder_ofList _

end LinuxDfl.Lib.SearchTree

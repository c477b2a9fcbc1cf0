import Mathlib.Data.List.FinRange
import Mathlib.Data.List.Nodup
import Mathlib.Logic.Function.Basic
import LinuxDfl.Lib.Traced

/-!
# Programs over items

Programs over a fixed number of items, which treat one item after the other.
What a program says of its item holds whatever is said of the others.
-/

namespace LinuxDfl.Lib.Items

open LinuxDfl.Lib.Traced
open LinuxDfl.Lib.Traced.Program

/-- The items, and what else there is. -/
structure Family (n : Nat) (Item Rest : Type) where
  item : Fin n → Item
  rest : Rest

variable {n : Nat} {Item Rest Step Failure Value Next : Type}

/-- What has happened to an item, in order. -/
def history (i : Fin n) (events : List (Fin n × Step)) : List Step :=
  (events.filter fun event => event.1 = i).map Prod.snd

@[simp]
theorem history_nil (i : Fin n) :
    history i ([] : List (Fin n × Step)) = [] := rfl

theorem history_append (i : Fin n) (first rest : List (Fin n × Step)) :
    history i (first ++ rest) = history i first ++ history i rest := by
  rw [history, List.filter_append, List.map_append]
  rfl

theorem history_self (i : Fin n) (step : Step) :
    history i [(i, step)] = [step] := by
  simp [history]

theorem history_other {i j : Fin n} (other : i ≠ j) (step : Step) :
    history j [(i, step)] = [] := by
  simp [history, other]

/-! ## Programs -/

abbrev ItemProgram (n : Nat) (Item Rest Step Failure Value : Type) :=
  Program (Fin n × Step) Failure (Family n Item Rest) Value

/-- The item. -/
def get (i : Fin n) : ItemProgram n Item Rest Step Failure Item := do
  let state ← read
  pure (state.item i)

/-- Change the item. -/
def modify (i : Fin n) (change : Item → Item) :
    ItemProgram n Item Rest Step Failure Unit :=
  update fun state =>
    { state with
      item := Function.update state.item i (change (state.item i)) }

/-- Record what happens to the item. -/
def note (i : Fin n) (step : Step) :
    ItemProgram n Item Rest Step Failure Unit :=
  emit (i, step)

/-- Change what is not an item, and return what it was. -/
def modifyRest (change : Rest → Rest) :
    ItemProgram n Item Rest Step Failure Rest := do
  let state ← read
  update fun state => { state with rest := change state.rest }
  pure state.rest

/-- Treat these items, one after the other. -/
def forEach (body : Fin n → ItemProgram n Item Rest Step Failure Unit) :
    List (Fin n) → ItemProgram n Item Rest Step Failure Unit
  | [] => pure ()
  | i :: items => do
      body i
      forEach body items

/-- Treat all items. -/
def forAll (body : Fin n → ItemProgram n Item Rest Step Failure Unit) :
    ItemProgram n Item Rest Step Failure Unit :=
  forEach body (List.finRange n)

/-! ## What is said of items -/

/-- What is said of one item and of its history. -/
abbrev View (Item Step : Type) := List Step → Item → Prop

/-- What is said of each item. -/
def Each (views : Fin n → View Item Step) :
    Assertion (Fin n × Step) (Family n Item Rest) :=
  fun past state => ∀ i, views i (history i past) (state.item i)

theorem Each.mono {views weaker : Fin n → View Item Step}
    (implies : ∀ i steps item, views i steps item → weaker i steps item)
    {past : List (Fin n × Step)} {state : Family n Item Rest}
    (each : Each views past state) : Each weaker past state :=
  fun i => implies i _ _ (each i)

/-- What is said of the item of a program. -/
def ItemTriple (i : Fin n) (pre : View Item Step)
    (program : ItemProgram n Item Rest Step Failure Value)
    (post : Value → View Item Step) (fails : View Item Step) : Prop :=
  ∀ views : Fin n → View Item Step,
    Triple (Each (Function.update views i pre)) program
      (fun value => Each (Function.update views i (post value)))
      (Each (Function.update views i fails))

/-- Another view of the item, at the same place. -/
theorem each_update {views : Fin n → View Item Step} {i : Fin n}
    {view weaker : View Item Step}
    {past more : List (Fin n × Step)} {state next : Family n Item Rest}
    (each : Each (Function.update views i view) past state)
    (others : ∀ j, j ≠ i →
      history j more = [] ∧ next.item j = state.item j)
    (here : view (history i past) (state.item i) →
      weaker (history i past ++ history i more) (next.item i)) :
    Each (Function.update views i weaker) (past ++ more) next := by
  intro j
  have now := each j
  rw [history_append]
  by_cases same : j = i
  · subst same
    rw [Function.update_self] at now ⊢
    exact here now
  · obtain ⟨quiet, kept⟩ := others j same
    rw [Function.update_of_ne same] at now ⊢
    rw [quiet, List.append_nil, kept]
    exact now

section Rules

variable {i : Fin n} {pre : View Item Step}
  {post : Value → View Item Step} {fails : View Item Step}

theorem ItemTriple.ret {value : Value}
    (holds : ∀ steps item, pre steps item → post value steps item) :
    ItemTriple i pre
      (pure value : ItemProgram n Item Rest Step Failure Value) post fails := by
  intro views
  refine Triple.ret fun past state each => ?_
  rw [← List.append_nil past]
  refine each_update each (fun _ _ => ⟨rfl, rfl⟩) fun now => ?_
  rw [history_nil, List.append_nil]
  exact holds _ _ now

theorem ItemTriple.fail {failure : Failure}
    (holds : ∀ steps item, pre steps item → fails steps item) :
    ItemTriple i pre
      (fail failure : ItemProgram n Item Rest Step Failure Value) post
      fails := by
  intro views
  refine Triple.fail fun past state each => ?_
  rw [← List.append_nil past]
  refine each_update each (fun _ _ => ⟨rfl, rfl⟩) fun now => ?_
  rw [history_nil, List.append_nil]
  exact holds _ _ now

theorem ItemTriple.bind
    {program : ItemProgram n Item Rest Step Failure Value}
    {rest : Value → ItemProgram n Item Rest Step Failure Next}
    {after : Next → View Item Step}
    (first : ItemTriple i pre program post fails)
    (others : ∀ value, ItemTriple i (post value) (rest value) after fails) :
    ItemTriple i pre (program >>= rest) after fails :=
  fun views => Triple.bind (first views) fun value => others value views

theorem ItemTriple.note {step : Step} {post : Unit → View Item Step}
    (holds : ∀ steps item, pre steps item → post () (steps ++ [step]) item) :
    ItemTriple i pre
      (note i step : ItemProgram n Item Rest Step Failure Unit) post fails := by
  intro views
  refine Triple.emit fun past state each => ?_
  refine each_update each
    (fun j other => ⟨history_other (Ne.symm other) step, rfl⟩) fun now => ?_
  rw [history_self]
  exact holds _ _ now

theorem ItemTriple.modify {change : Item → Item}
    {post : Unit → View Item Step}
    (holds : ∀ steps item, pre steps item → post () steps (change item)) :
    ItemTriple i pre
      (modify i change : ItemProgram n Item Rest Step Failure Unit) post
      fails := by
  intro views
  refine Triple.update fun past state each => ?_
  rw [← List.append_nil past]
  refine each_update each
    (fun j other => ⟨rfl, Function.update_of_ne other _ _⟩) fun now => ?_
  rw [history_nil, List.append_nil]
  change post () _ (Function.update state.item i (change (state.item i)) i)
  rw [Function.update_self]
  exact holds _ _ now

/-- What happens to the item may be carried along. -/
theorem ItemTriple.noteBind {step : Step}
    {rest : Unit → ItemProgram n Item Rest Step Failure Value}
    (next : ItemTriple i
      (fun steps item => ∃ before, pre before item ∧ steps = before ++ [step])
      (rest ()) post fails) :
    ItemTriple i pre (Items.note i step >>= rest) post fails :=
  ItemTriple.bind (ItemTriple.note fun steps _ now => ⟨steps, now, rfl⟩)
    fun _ => next

/-- A change of the item may be carried along. -/
theorem ItemTriple.modifyBind {change : Item → Item}
    {rest : Unit → ItemProgram n Item Rest Step Failure Value}
    (next : ItemTriple i
      (fun steps item => ∃ before, pre steps before ∧ item = change before)
      (rest ()) post fails) :
    ItemTriple i pre (Items.modify i change >>= rest) post fails :=
  ItemTriple.bind (ItemTriple.modify fun _ item now => ⟨item, now, rfl⟩)
    fun _ => next

/-- A program which looks at its item may be treated at each item. -/
theorem ItemTriple.get
    {rest : Item → ItemProgram n Item Rest Step Failure Value}
    (holds : ∀ seen,
      ItemTriple i (fun steps item => pre steps item ∧ item = seen)
        (rest seen) post fails) :
    ItemTriple i pre (get i >>= rest) post fails := by
  intro views past state each
  refine holds (state.item i) views past state ?_
  rw [← List.append_nil past]
  refine each_update each (fun _ _ => ⟨rfl, rfl⟩) fun now => ?_
  rw [history_nil, List.append_nil]
  exact ⟨now, rfl⟩

/-- What is not an item is of no importance. -/
theorem ItemTriple.modifyRest {change : Rest → Rest} :
    ItemTriple i pre
      (modifyRest change : ItemProgram n Item Rest Step Failure Rest)
      (fun _ => pre) fails := by
  intro views
  refine Triple.anyState fun seen => ?_
  exact Triple.bind (Triple.update fun _ _ each => each) fun _ =>
    Triple.ret fun _ _ => id

theorem ItemTriple.mono
    {program : ItemProgram n Item Rest Step Failure Value}
    {pre' : View Item Step} {post' : Value → View Item Step}
    {fails' : View Item Step}
    (triple : ItemTriple i pre' program post' fails')
    (before : ∀ steps item, pre steps item → pre' steps item)
    (after : ∀ value steps item, post' value steps item →
      post value steps item)
    (failing : ∀ steps item, fails' steps item → fails steps item) :
    ItemTriple i pre program post fails := by
  have lift {view weaker : View Item Step} (views : Fin n → View Item Step)
      (implies : ∀ steps item, view steps item → weaker steps item)
      (past : List (Fin n × Step)) (state : Family n Item Rest)
      (each : Each (Function.update views i view) past state) :
      Each (Function.update views i weaker) past state := by
    refine each.mono fun j steps item now => ?_
    by_cases same : j = i
    · subst same
      rw [Function.update_self] at now ⊢
      exact implies steps item now
    · rw [Function.update_of_ne same] at now ⊢
      exact now
  intro views
  exact (triple views).mono (lift views before)
    (fun value => lift views (after value)) (lift views failing)

/-- A fact of the precondition may be assumed. -/
theorem ItemTriple.assume
    {program : ItemProgram n Item Rest Step Failure Value} {fact : Prop}
    (holds : fact → ItemTriple i pre program post fails) :
    ItemTriple i (fun steps item => pre steps item ∧ fact) program post
      fails := by
  intro views past state each
  have now := each i
  rw [Function.update_self] at now
  refine holds now.2 views past state ?_
  rw [← List.append_nil past]
  refine each_update each (fun _ _ => ⟨rfl, rfl⟩) fun now => ?_
  rw [history_nil, List.append_nil]
  exact now.1

end Rules

/-! ## Loops -/

section Loops

variable {body : Fin n → ItemProgram n Item Rest Step Failure Unit}
  {before after fails : Fin n → View Item Step}

/-- A loop has failed at one item; it has treated others, or it has not. -/
def Torn (before after fails : Fin n → View Item Step) :
    Assertion (Fin n × Step) (Family n Item Rest) :=
  fun past state => ∃ i, fails i (history i past) (state.item i) ∧
    ∀ j, j ≠ i → before j (history j past) (state.item j) ∨
      after j (history j past) (state.item j)

theorem forEach_rule {items : List (Fin n)} (distinct : items.Nodup)
    (steps : ∀ i,
      ItemTriple i (before i) (body i) (fun _ => after i) (fails i)) :
    Triple (Each fun i => if i ∈ items then before i else after i)
      (forEach body items) (fun _ => Each after)
      (Torn before after fails) := by
  induction items with
  | nil =>
      refine Triple.ret fun past state each => each.mono fun i steps item now => ?_
      rwa [if_neg List.not_mem_nil] at now
  | cons i rest ih =>
      obtain ⟨fresh, distinct⟩ := List.nodup_cons.mp distinct
      have here := (steps i) fun j => if j ∈ rest then before j else after j
      refine Triple.bind (here.mono ?_ ?_ ?_) fun _ => ih distinct
      · refine fun past state each => each.mono fun j steps item now => ?_
        by_cases same : j = i
        · subst same
          rw [if_pos List.mem_cons_self] at now
          rwa [Function.update_self]
        · rw [Function.update_of_ne same]
          simp only [List.mem_cons, same, false_or] at now
          exact now
      · refine fun _ past state each => each.mono fun j steps item now => ?_
        by_cases same : j = i
        · subst same
          rw [Function.update_self] at now
          rwa [if_neg fresh]
        · rwa [Function.update_of_ne same] at now
      · refine fun past state each => ⟨i, ?_, fun j other => ?_⟩
        · have now := each i
          rwa [Function.update_self] at now
        · have now := each j
          rw [Function.update_of_ne other] at now
          split at now
          · exact .inl now
          · exact .inr now

theorem forAll_torn
    (steps : ∀ i,
      ItemTriple i (before i) (body i) (fun _ => after i) (fails i)) :
    Triple (Each before) (forAll body) (fun _ => Each after)
      (Torn before after fails) :=
  (forEach_rule (List.nodup_finRange n) steps).of_pre
    fun past state each => each.mono fun i steps item now => by
      rwa [if_pos (List.mem_finRange i)]

/-- Every item comes from `before` to `after`. -/
theorem forAll_rule {weak : Fin n → View Item Step}
    (steps : ∀ i,
      ItemTriple i (before i) (body i) (fun _ => after i) (weak i))
    (early : ∀ i steps item, before i steps item → weak i steps item)
    (late : ∀ i steps item, after i steps item → weak i steps item) :
    Triple (Each before) (forAll body) (fun _ => Each after)
      (Each weak) := by
  refine (forAll_torn steps).of_fails fun past state torn j => ?_
  obtain ⟨i, here, others⟩ := torn
  by_cases same : j = i
  · rw [same]
    exact here
  · rcases others j same with now | now
    · exact early j _ _ now
    · exact late j _ _ now

/-- A loop which does not fail. -/
theorem forAll_total
    {assertion : Assertion (Fin n × Step) (Family n Item Rest)}
    (steps : ∀ i,
      ItemTriple i (before i) (body i) (fun _ => after i) fun _ _ => False) :
    Triple (Each before) (forAll body) (fun _ => Each after) assertion :=
  (forAll_torn steps).of_fails fun _ _ torn => torn.elim fun _ now => now.1.elim

end Loops

end LinuxDfl.Lib.Items

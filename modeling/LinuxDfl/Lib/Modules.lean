import Mathlib.Data.List.Basic
import Mathlib.Data.List.Count

/-!
# Modules which are held in place

A table of modules, each with the number of references to it.  Whoever calls
into a module holds it, as often as it has taken a reference; a module is
unloaded only when nobody has one.  This file supplies what each operation on
the table does to the agreement of the numbers with the holders.
-/

namespace LinuxDfl.Lib.Modules

variable {Info : Type*}

/-- The life of a module. -/
inductive Life where
  /-- Its initialisation runs. -/
  | coming
  | live
  /-- It is being unloaded. -/
  | going
  /-- Its initialisation has failed. -/
  | failed
  /-- Its code is not there any more. -/
  | gone
  deriving DecidableEq, Repr

/-- References may be taken. -/
def Life.isLive : Life → Bool
  | .coming | .live => true
  | .going | .failed | .gone => false

structure Module (Info : Type*) where
  info : Info
  life : Life
  refs : Nat

/-- A module is loaded, and its initialisation begins. -/
def load (modules : List (Module Info)) (info : Info) : List (Module Info) :=
  modules ++ [⟨info, .coming, 0⟩]

/-- A reference is taken, unless the module is not live. -/
def tryGet (modules : List (Module Info)) (index : Nat) :
    Option (List (Module Info)) :=
  match modules[index]? with
  | none => none
  | some entry =>
      if entry.life.isLive then
        some (modules.set index { entry with refs := entry.refs + 1 })
      else none

/-- A reference is given back. -/
def put (modules : List (Module Info)) (index : Nat) : List (Module Info) :=
  match modules[index]? with
  | none => modules
  | some entry => modules.set index { entry with refs := entry.refs - 1 }

/-- The life of a module goes on. -/
def setLife (modules : List (Module Info)) (index : Nat) (life : Life) :
    List (Module Info) :=
  match modules[index]? with
  | none => modules
  | some entry => modules.set index { entry with life }

/-- The life of the module of a number, if there is one. -/
def lifeOf (modules : List (Module Info)) (index : Nat) : Option Life :=
  modules[index]?.map Module.life

/-- The code of the module is there. -/
def Present (modules : List (Module Info)) (index : Nat) : Prop :=
  ∃ life, lifeOf modules index = some life ∧ life ≠ .gone

/-- The references are those of the holders, whose modules are there. -/
structure Held (modules : List (Module Info)) (holders : List Nat) :
    Prop where
  counted : ∀ index entry, modules[index]? = some entry →
    entry.refs = holders.count index
  present : ∀ index ∈ holders, Present modules index

/-- Nobody has a reference to a module which is being unloaded. -/
def Released (modules : List (Module Info)) : Prop :=
  ∀ (index : Nat) (entry : Module Info), modules[index]? = some entry →
    entry.life = .going → entry.refs = 0

variable {modules later : List (Module Info)} {holders : List Nat}
variable {index : Nat} {entry : Module Info}

/-! ## One entry of the table -/

theorem getElem?_set_cases {other : Nat} {next found : Module Info}
    (here : (modules.set index next)[other]? = some found) :
    other = index ∧ found = next ∨
      other ≠ index ∧ modules[other]? = some found := by
  by_cases same : index = other
  · subst same
    rw [List.getElem?_set_self'] at here
    obtain ⟨-, -, rfl⟩ := Option.map_eq_some_iff.mp here
    exact .inl ⟨rfl, rfl⟩
  · rw [List.getElem?_set_ne same] at here
    exact .inr ⟨Ne.symm same, here⟩

theorem getElem?_set_of_found {next : Module Info}
    (found : modules[index]? = some entry) :
    (modules.set index next)[index]? = some next := by
  obtain ⟨inside, -⟩ := List.getElem?_eq_some_iff.mp found
  exact List.getElem?_set_self inside

theorem getElem?_load_cases {info : Info}
    (found : (load modules info)[index]? = some entry) :
    modules[index]? = some entry ∨
      index = modules.length ∧ entry = ⟨info, .coming, 0⟩ := by
  by_cases inside : index < modules.length
  · rw [load, List.getElem?_append_left inside] at found
    exact .inl found
  · rw [load, List.getElem?_append_right (Nat.le_of_not_lt inside)] at found
    obtain ⟨short, isNew⟩ := List.getElem?_eq_some_iff.mp found
    rw [List.length_singleton] at short
    have zero : index - modules.length = 0 := by omega
    refine .inr ⟨by omega, ?_⟩
    rw [← isNew]
    simp only [zero, List.getElem_cons_zero]

/-- What a reference is taken of was live before. -/
theorem tryGet_eq_some (got : tryGet modules index = some later) :
    ∃ entry, modules[index]? = some entry ∧ entry.life.isLive = true ∧
      later = modules.set index { entry with refs := entry.refs + 1 } := by
  unfold tryGet at got
  cases found : modules[index]? with
  | none =>
      rw [found] at got
      cases got
  | some entry =>
      rw [found] at got
      dsimp only at got
      split_ifs at got with isLive
      exact ⟨entry, rfl, isLive, (Option.some.inj got).symm⟩

/-! ## The lives of the modules -/

theorem exists_of_lifeOf {life : Life}
    (isLife : lifeOf modules index = some life) :
    ∃ entry, modules[index]? = some entry ∧ entry.life = life :=
  Option.map_eq_some_iff.mp isLife

theorem lifeOf_load {life : Life} (isLife : lifeOf modules index = some life)
    (info : Info) : lifeOf (load modules info) index = some life := by
  obtain ⟨entry, found, rfl⟩ := exists_of_lifeOf isLife
  obtain ⟨inside, -⟩ := List.getElem?_eq_some_iff.mp found
  rw [lifeOf, load, List.getElem?_append_left inside, found]
  rfl

theorem lifeOf_load_new (modules : List (Module Info)) (info : Info) :
    lifeOf (load modules info) modules.length = some .coming := by
  rw [lifeOf, load, List.getElem?_concat_length]
  rfl

/-- An entry with the same life changes no life. -/
theorem lifeOf_set_same {next : Module Info}
    (found : modules[index]? = some entry) (same : next.life = entry.life)
    (other : Nat) : lifeOf (modules.set index next) other =
      lifeOf modules other := by
  unfold lifeOf
  by_cases here : index = other
  · subst here
    rw [getElem?_set_of_found found, found, Option.map_some, Option.map_some,
      same]
  · rw [List.getElem?_set_ne here]

theorem lifeOf_tryGet (got : tryGet modules index = some later)
    (other : Nat) : lifeOf later other = lifeOf modules other := by
  obtain ⟨entry, found, -, rfl⟩ := tryGet_eq_some got
  refine lifeOf_set_same found ?_ other
  rfl

theorem lifeOf_put (modules : List (Module Info)) (index other : Nat) :
    lifeOf (put modules index) other = lifeOf modules other := by
  unfold put
  cases found : modules[index]? with
  | none => rfl
  | some entry =>
      refine lifeOf_set_same found ?_ other
      rfl

theorem lifeOf_setLife_other {life : Life} {other : Nat}
    (distinct : index ≠ other) :
    lifeOf (setLife modules index life) other = lifeOf modules other := by
  unfold setLife lifeOf
  cases modules[index]? with
  | none => rfl
  | some entry =>
      dsimp only
      rw [List.getElem?_set_ne distinct]

/-- A module whose life goes on is at the place it is set to. -/
theorem lifeOf_setLife {life before : Life} {other : Nat}
    (isLife : lifeOf modules other = some before) :
    lifeOf (setLife modules index life) other =
      some (if index = other then life else before) := by
  split_ifs with same
  · subst same
    obtain ⟨entry, found, rfl⟩ := exists_of_lifeOf isLife
    unfold setLife lifeOf
    rw [found]
    dsimp only
    rw [getElem?_set_of_found found]
    rfl
  · rw [lifeOf_setLife_other same, isLife]

theorem Present.of_lifeOf {other : Nat} (present : Present modules other)
    (same : lifeOf later other = lifeOf modules other) :
    Present later other := by
  obtain ⟨life, isLife, isThere⟩ := present
  exact ⟨life, same.trans isLife, isThere⟩

theorem Present.load (present : Present modules index) (info : Info) :
    Present (load modules info) index := by
  obtain ⟨life, isLife, isThere⟩ := present
  exact ⟨life, lifeOf_load isLife info, isThere⟩

/-- A module stays there while a life goes on. -/
theorem Present.setLife {life : Life} {other : Nat}
    (present : Present modules other)
    (stays : index = other → life ≠ .gone) :
    Present (setLife modules index life) other := by
  obtain ⟨before, isLife, isThere⟩ := present
  refine ⟨_, lifeOf_setLife isLife, ?_⟩
  split_ifs with same
  · exact stays same
  · exact isThere

/-! ## The holders -/

theorem Held.perm {others : List Nat} (held : Held modules holders)
    (perm : holders.Perm others) : Held modules others where
  counted := fun index entry found =>
    (held.counted index entry found).trans (perm.count_eq index)
  present := fun index member =>
    held.present index (perm.mem_iff.mpr member)

theorem Held.load (held : Held modules holders) (info : Info) :
    Held (load modules info) holders where
  counted := by
    intro index entry found
    rcases getElem?_load_cases found with old | ⟨rfl, rfl⟩
    · exact held.counted index entry old
    · refine (List.count_eq_zero_of_not_mem fun member => ?_).symm
      obtain ⟨life, isLife, -⟩ := held.present _ member
      obtain ⟨entry, inside, -⟩ := exists_of_lifeOf isLife
      rw [List.getElem?_eq_none (Nat.le_refl _)] at inside
      cases inside
  present := fun index member => (held.present index member).load info

/-- Whoever takes a reference becomes a holder. -/
theorem Held.tryGet (held : Held modules holders)
    (got : tryGet modules index = some later) :
    Held later (index :: holders) := by
  have lives := lifeOf_tryGet got
  obtain ⟨entry, found, isLive, rfl⟩ := tryGet_eq_some got
  constructor
  · intro other next here
    rcases getElem?_set_cases here with ⟨rfl, rfl⟩ | ⟨distinct, old⟩
    · rw [List.count_cons_self, held.counted _ entry found]
    · rw [List.count_cons_of_ne (Ne.symm distinct)]
      exact held.counted other next old
  · intro other member
    rcases List.mem_cons.mp member with rfl | member
    · refine ⟨entry.life, (lives _).trans ?_, ?_⟩
      · rw [lifeOf, found]
        rfl
      · intro isGone
        rw [isGone] at isLive
        cases isLive
    · exact (held.present other member).of_lifeOf (lives other)

/-- Whoever gives a reference back is a holder less. -/
theorem Held.put (held : Held modules holders) (holds : index ∈ holders) :
    Held (put modules index) (holders.erase index) := by
  constructor
  · intro other next here
    obtain ⟨life, isLife, -⟩ := held.present index holds
    obtain ⟨entry, found, -⟩ := exists_of_lifeOf isLife
    rw [Modules.put, found] at here
    rcases getElem?_set_cases here with ⟨rfl, rfl⟩ | ⟨distinct, old⟩
    · rw [List.count_erase_self, held.counted _ entry found]
    · rw [List.count_erase_of_ne distinct]
      exact held.counted other next old
  · intro other member
    exact (held.present other (List.mem_of_mem_erase member)).of_lifeOf
      (lifeOf_put modules index other)

/-- The life of a module is no reference to it. -/
theorem counted_setLife {life : Life} {next : Module Info} {other : Nat}
    (held : Held modules holders)
    (here : (setLife modules index life)[other]? = some next) :
    next.refs = holders.count other := by
  unfold setLife at here
  cases found : modules[index]? with
  | none =>
      rw [found] at here
      exact held.counted other next here
  | some entry =>
      rw [found] at here
      rcases getElem?_set_cases here with ⟨rfl, rfl⟩ | ⟨-, old⟩
      · exact held.counted _ entry found
      · exact held.counted other next old

/-- A module which stays may be at any place of its life. -/
theorem Held.setLife {life : Life} (held : Held modules holders)
    (stays : life ≠ .gone) : Held (setLife modules index life) holders where
  counted := fun _ _ => counted_setLife held
  present := fun other member =>
    (held.present other member).setLife fun _ => stays

/-- A module which nobody holds may be unloaded. -/
theorem Held.free (held : Held modules holders)
    (found : modules[index]? = some entry) (none : entry.refs = 0) :
    Held (Modules.setLife modules index .gone) holders where
  counted := fun _ _ => counted_setLife held
  present := by
    intro other member
    refine (held.present other member).setLife ?_
    rintro rfl
    have unheld := held.counted index entry found
    rw [none] at unheld
    exact absurd member (List.count_eq_zero.mp unheld.symm)

/-- A module which somebody holds may not. -/
theorem not_held_free (held : Held modules holders)
    (found : modules[index]? = some entry) (some : entry.refs ≠ 0) :
    ¬ Held (setLife modules index .gone) holders := by
  intro after
  have holds : index ∈ holders := by
    refine List.count_pos_iff.mp (Nat.pos_of_ne_zero ?_)
    rw [← held.counted index entry found]
    exact some
  obtain ⟨life, isLife, isThere⟩ := after.present index holds
  have before : lifeOf modules index = .some entry.life := by
    rw [lifeOf, found]
    rfl
  rw [lifeOf_setLife before, if_pos rfl] at isLife
  exact isThere (Option.some.inj isLife).symm

/-- A reference which nobody keeps is never given back. -/
theorem not_held_tryGet (held : Held modules holders)
    (got : tryGet modules index = some later) : ¬ Held later holders := by
  obtain ⟨entry, found, -, rfl⟩ := tryGet_eq_some got
  intro after
  have more := after.counted index _ (getElem?_set_of_found found)
  rw [← held.counted index entry found] at more
  exact absurd more (Nat.succ_ne_self _)

/-! ## Modules which are being unloaded -/

theorem Released.load (released : Released modules) (info : Info) :
    Released (load modules info) := by
  intro index entry found isGoing
  rcases getElem?_load_cases found with old | ⟨-, rfl⟩
  · exact released index entry old isGoing
  · cases isGoing

/-- A module which is being unloaded gives no reference away. -/
theorem Released.tryGet (released : Released modules)
    (got : tryGet modules index = some later) : Released later := by
  obtain ⟨entry, found, isLive, rfl⟩ := tryGet_eq_some got
  intro other next here isGoing
  rcases getElem?_set_cases here with ⟨rfl, rfl⟩ | ⟨-, old⟩
  · rw [show entry.life = .going from isGoing] at isLive
    cases isLive
  · exact released other next old isGoing

theorem Released.put (released : Released modules) :
    Released (put modules index) := by
  unfold Modules.put
  cases found : modules[index]? with
  | none => exact released
  | some entry =>
      intro other next here isGoing
      rcases getElem?_set_cases here with ⟨rfl, rfl⟩ | ⟨-, old⟩
      · show entry.refs - 1 = 0
        rw [released _ entry found isGoing]
      · exact released other next old isGoing

/-- Unloading begins when nobody has a reference. -/
theorem Released.setLife {life : Life} (released : Released modules)
    (unheld : life = .going → ∀ entry ∈ modules[index]?, entry.refs = 0) :
    Released (setLife modules index life) := by
  unfold Modules.setLife
  cases found : modules[index]? with
  | none => exact released
  | some entry =>
      intro other next here isGoing
      rcases getElem?_set_cases here with ⟨rfl, rfl⟩ | ⟨-, old⟩
      · exact unheld isGoing entry found
      · exact released other next old isGoing

end LinuxDfl.Lib.Modules

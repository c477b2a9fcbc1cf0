import Mathlib.Logic.Relation
import Mathlib.Logic.Function.Basic
import Mathlib.Order.Lattice

/-!
# Threads which take locks

Any number of threads run operations which take locks, give them back and
change shared data in between.  A thread waits for another one which owns the
lock it is about to take.  A discipline on what is owned at each point of the
code is kept along every run; locks which are taken in the order of a rank
exclude a circular wait.
-/

namespace LinuxDfl.Lib.Locking

/-- What is left of an operation. -/
inductive Code (Lock Shared : Type) where
  | done
  | lock (mutex : Lock) (rest : Code Lock Shared)
  | unlock (mutex : Lock) (rest : Code Lock Shared)
  /-- Shared data is changed; how to go on depends on what it was. -/
  | update (change : Shared → Shared) (rest : Shared → Code Lock Shared)

/-- The shared data, the owners of the locks and what threads have to do. -/
structure System (Lock Shared : Type) where
  shared : Shared
  owner : Lock → Option Nat
  code : Nat → Code Lock Shared

/-- A thread starts an operation, or goes on with it. -/
inductive Action (Op : Type) where
  | start (thread : Nat) (op : Op)
  | advance (thread : Nat)

variable {Lock Shared Op : Type}

/-- The code is about to take a lock. -/
@[simp]
def Code.isLock : Code Lock Shared → Bool
  | .lock _ _ => true
  | _ => false

namespace System

/-! ## Circular waits -/

/-- The thread is about to take a lock which the other one owns. -/
def WaitsFor (system : System Lock Shared) (thread other : Nat) : Prop :=
  ∃ mutex rest, system.code thread = .lock mutex rest ∧
    system.owner mutex = some other

/-- A thread waits for itself, possibly through others. -/
def CircularWait (system : System Lock Shared) : Prop :=
  ∃ thread, Relation.TransGen system.WaitsFor thread thread

/-- Whoever waits takes a lock above all which he owns. -/
def Rises {Rank : Type} [LT Rank] (rank : Lock → Rank)
    (system : System Lock Shared) : Prop :=
  ∀ thread mutex rest, system.code thread = .lock mutex rest →
    ∀ other, system.owner other = some thread → rank other < rank mutex

/-- Locks which are taken in the order of a rank exclude a circular wait. -/
theorem Rises.not_circularWait {Rank : Type} [LinearOrder Rank]
    {rank : Lock → Rank} {system : System Lock Shared}
    (rises : Rises rank system) : ¬ system.CircularWait := by
  -- Along a chain of waits, the locks which are waited for rise.
  have along : ∀ first last, Relation.TransGen system.WaitsFor first last →
      ∀ mutex rest, system.code first = .lock mutex rest →
        ∀ other tail, system.code last = .lock other tail →
          rank mutex < rank other := by
    intro first last chain mutex rest firstLock
    induction chain with
    | single waits =>
        intro other tail lastLock
        obtain ⟨lock, later, isLock, owns⟩ := waits
        rw [firstLock] at isLock
        cases isLock
        exact rises _ _ _ lastLock _ owns
    | tail _ waits ih =>
        intro other tail lastLock
        obtain ⟨lock, later, isLock, owns⟩ := waits
        exact lt_trans (ih lock later isLock)
          (rises _ _ _ lastLock _ owns)
  rintro ⟨thread, chain⟩
  obtain ⟨next, ⟨mutex, rest, isLock, -⟩, -⟩ :=
    Relation.TransGen.head'_iff.mp chain
  exact lt_irrefl _ (along thread thread chain mutex rest isLock
    mutex rest isLock)

/-! ## Actions -/

/-- The thread goes on with the code. -/
def goOn (system : System Lock Shared) (thread : Nat)
    (rest : Code Lock Shared) : System Lock Shared :=
  { system with code := Function.update system.code thread rest }

@[simp]
theorem goOn_owner (system : System Lock Shared) (thread : Nat)
    (rest : Code Lock Shared) :
    (system.goOn thread rest).owner = system.owner := rfl

@[simp]
theorem goOn_code_self (system : System Lock Shared) (thread : Nat)
    (rest : Code Lock Shared) :
    (system.goOn thread rest).code thread = rest :=
  Function.update_self _ _ _

theorem goOn_code_of_ne (system : System Lock Shared) {thread other : Nat}
    (rest : Code Lock Shared) (distinct : other ≠ thread) :
    (system.goOn thread rest).code other = system.code other :=
  Function.update_of_ne distinct _ _

variable [DecidableEq Lock]

/-- The lock has the owner. -/
def own (system : System Lock Shared) (mutex : Lock)
    (owner : Option Nat) : System Lock Shared :=
  { system with owner := Function.update system.owner mutex owner }

@[simp]
theorem own_code (system : System Lock Shared) (mutex : Lock)
    (owner : Option Nat) :
    (system.own mutex owner).code = system.code := rfl

@[simp]
theorem own_owner_self (system : System Lock Shared) (mutex : Lock)
    (owner : Option Nat) :
    (system.own mutex owner).owner mutex = owner :=
  Function.update_self _ _ _

theorem own_owner_of_ne (system : System Lock Shared) {mutex other : Lock}
    (owner : Option Nat) (distinct : other ≠ mutex) :
    (system.own mutex owner).owner other = system.owner other :=
  Function.update_of_ne distinct _ _

/-- A thread goes on with its operation, unless the lock is not free. -/
def perform (program : Op → Code Lock Shared)
    (system : System Lock Shared) :
    Action Op → Option (System Lock Shared)
  | .start thread op =>
      match system.code thread with
      | .done => some (system.goOn thread (program op))
      | _ => none
  | .advance thread =>
      match system.code thread with
      | .done => none
      | .lock mutex rest =>
          if system.owner mutex = none then
            some ((system.own mutex (some thread)).goOn thread rest)
          else none
      | .unlock mutex rest =>
          if system.owner mutex = some thread then
            some ((system.own mutex none).goOn thread rest)
          else none
      | .update change rest =>
          some
            ({ system with shared := change system.shared }.goOn thread
              (rest system.shared))

def Step (program : Op → Code Lock Shared) (system : System Lock Shared)
    (action : Action Op) (next : System Lock Shared) : Prop :=
  system.perform program action = some next

/-- Nobody does anything yet. -/
def idle (shared : Shared) : System Lock Shared :=
  ⟨shared, fun _ => none, fun _ => .done⟩

/-! ## Steps -/

/-- The ways in which a step is taken. -/
inductive StepCase (program : Op → Code Lock Shared)
    (system next : System Lock Shared) : Action Op → Prop where
  | start {thread : Nat} {op : Op} (rests : system.code thread = .done)
      (goes : next = system.goOn thread (program op)) :
      StepCase program system next (.start thread op)
  | lock {thread : Nat} {mutex : Lock} {rest : Code Lock Shared}
      (point : system.code thread = .lock mutex rest)
      (free : system.owner mutex = none)
      (goes : next =
        (system.own mutex (some thread)).goOn thread rest) :
      StepCase program system next (.advance thread)
  | unlock {thread : Nat} {mutex : Lock} {rest : Code Lock Shared}
      (point : system.code thread = .unlock mutex rest)
      (owns : system.owner mutex = some thread)
      (goes : next = (system.own mutex none).goOn thread rest) :
      StepCase program system next (.advance thread)
  | update {thread : Nat} {change : Shared → Shared}
      {rest : Shared → Code Lock Shared}
      (point : system.code thread = .update change rest)
      (goes : next =
        { system with shared := change system.shared }.goOn thread
          (rest system.shared)) :
      StepCase program system next (.advance thread)

theorem step_cases {program : Op → Code Lock Shared}
    {system next : System Lock Shared} {action : Action Op}
    (step : system.Step program action next) :
    StepCase program system next action := by
  unfold Step perform at step
  cases action with
  | start thread op =>
      dsimp only at step
      split at step
      · rename_i rests
        exact .start rests (Option.some.inj step).symm
      · cases step
  | advance thread =>
      dsimp only at step
      split at step
      · cases step
      · rename_i mutex rest point
        rw [Option.ite_none_right_eq_some] at step
        exact .lock point step.1 (Option.some.inj step.2).symm
      · rename_i mutex rest point
        rw [Option.ite_none_right_eq_some] at step
        exact .unlock point step.1 (Option.some.inj step.2).symm
      · rename_i change rest point
        exact .update point (Option.some.inj step).symm

/-- The state after an action. -/
def apply (program : Op → Code Lock Shared) (system : System Lock Shared)
    (action : Action Op) : System Lock Shared :=
  (system.perform program action).getD system

/-- The action can be taken. -/
def enabled (program : Op → Code Lock Shared) (system : System Lock Shared)
    (action : Action Op) : Bool :=
  (system.perform program action).isSome

theorem step_apply {program : Op → Code Lock Shared}
    {system : System Lock Shared} {action : Action Op}
    (enabled : system.enabled program action = true) :
    system.Step program action (system.apply program action) := by
  obtain ⟨next, performs⟩ := Option.isSome_iff_exists.mp enabled
  unfold Step apply
  rw [performs]
  rfl

/-! ## What threads own -/

/--
At each point of the code, with the locks which are owned there, last taken
first.
-/
@[simp]
def Follows (point : List Lock → Code Lock Shared → Prop) :
    List Lock → Code Lock Shared → Prop
  | held, .done => held = [] ∧ point held .done
  | held, .lock mutex rest =>
      point held (.lock mutex rest) ∧ Follows point (mutex :: held) rest
  | held, .unlock mutex rest =>
      point held (.unlock mutex rest) ∧
        Follows point (held.filter fun other => other ≠ mutex) rest
  | held, .update change rest =>
      point held (.update change rest) ∧
        ∀ shared, Follows point held (rest shared)

variable {point : List Lock → Code Lock Shared → Prop}

theorem Follows.here {held : List Lock} {code : Code Lock Shared}
    (follows : Follows point held code) : point held code := by
  cases code with
  | done => exact follows.2
  | lock mutex rest => exact follows.1
  | unlock mutex rest => exact follows.1
  | update change rest => exact follows.1

/-- The thread owns the locks of the list, and keeps to the discipline. -/
def Keeps (point : List Lock → Code Lock Shared → Prop)
    (system : System Lock Shared) (thread : Nat) : Prop :=
  ∃ held, (∀ mutex, mutex ∈ held ↔ system.owner mutex = some thread) ∧
    Follows point held (system.code thread)

/-- All threads keep to the discipline. -/
def Disciplined (point : List Lock → Code Lock Shared → Prop)
    (system : System Lock Shared) : Prop :=
  ∀ thread, Keeps point system thread

theorem disciplined_idle (here : point [] .done) (shared : Shared) :
    Disciplined point (idle shared) := by
  intro thread
  refine ⟨[], ?_, rfl, here⟩
  intro mutex
  constructor
  · intro member
    exact absurd member List.not_mem_nil
  · intro owns
    cases owns

/-- Threads keep to the discipline of the operations which they start. -/
theorem Disciplined.step {program : Op → Code Lock Shared}
    (starts : ∀ op, Follows point [] (program op))
    {system next : System Lock Shared} {action : Action Op}
    (disciplined : Disciplined point system)
    (step : system.Step program action next) :
    Disciplined point next := by
  intro other
  obtain ⟨held, owned, follows⟩ := disciplined other
  cases step_cases step with
  | @start thread op rests goes =>
      subst goes
      by_cases same : other = thread
      · subst same
        rw [rests] at follows
        refine ⟨held, owned, ?_⟩
        rw [goOn_code_self, follows.1]
        exact starts op
      · refine ⟨held, owned, ?_⟩
        rw [goOn_code_of_ne _ _ same]
        exact follows
  | @lock thread mutex rest isPoint free goes =>
      subst goes
      by_cases same : other = thread
      · subst same
        rw [isPoint] at follows
        refine ⟨mutex :: held, ?_, ?_⟩
        · intro lock
          rw [List.mem_cons, goOn_owner]
          by_cases taken : lock = mutex
          · subst taken
            rw [own_owner_self]
            exact iff_of_true (Or.inl rfl) rfl
          · rw [own_owner_of_ne _ _ taken, ← owned lock]
            exact or_iff_right taken
        · rw [goOn_code_self]
          exact follows.2
      · refine ⟨held, ?_, ?_⟩
        · intro lock
          rw [goOn_owner]
          by_cases taken : lock = mutex
          · subst taken
            rw [own_owner_self, owned lock, free]
            refine iff_of_false (fun owns => by cases owns) ?_
            intro owns
            exact same (Option.some.inj owns).symm
          · rw [own_owner_of_ne _ _ taken]
            exact owned lock
        · rw [goOn_code_of_ne _ _ same]
          exact follows
  | @unlock thread mutex rest isPoint owns goes =>
      subst goes
      by_cases same : other = thread
      · subst same
        rw [isPoint] at follows
        refine ⟨held.filter fun lock => lock ≠ mutex, ?_, ?_⟩
        · intro lock
          rw [List.mem_filter, decide_eq_true_eq, goOn_owner]
          by_cases given : lock = mutex
          · subst given
            rw [own_owner_self]
            exact iff_of_false (fun both => both.2 rfl)
              (fun none => by cases none)
          · rw [own_owner_of_ne _ _ given, ← owned lock]
            exact and_iff_left given
        · rw [goOn_code_self]
          exact follows.2
      · refine ⟨held, ?_, ?_⟩
        · intro lock
          rw [goOn_owner]
          by_cases given : lock = mutex
          · subst given
            rw [own_owner_self, owned lock, owns]
            refine iff_of_false ?_ (fun none => by cases none)
            intro mine
            exact same (Option.some.inj mine).symm
          · rw [own_owner_of_ne _ _ given]
            exact owned lock
        · rw [goOn_code_of_ne _ _ same]
          exact follows
  | @update thread change rest isPoint goes =>
      subst goes
      refine ⟨held, owned, ?_⟩
      by_cases same : other = thread
      · subst same
        rw [isPoint] at follows
        rw [goOn_code_self]
        exact follows.2 system.shared
      · rw [goOn_code_of_ne _ _ same]
        exact follows

end System

end LinuxDfl.Lib.Locking

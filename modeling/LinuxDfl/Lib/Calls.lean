import LinuxDfl.Lib.Sections
import Mathlib.Data.List.Basic

/-!
# Calls which are told of

Threads call operations one after the other, and the shared data tells of what
has been done for them.  What it tells of a thread is what its calls stand
for: all of it when the last call has returned, and all but for some of the
last call before.
-/

namespace LinuxDfl.Lib.Locking

variable {Lock Shared Op Event Entry : Type}

/-- A system, and the calls which each thread has made. -/
structure RecordedCalls (Lock Shared Op : Type) where
  system : System Lock Shared
  calls : Nat → List Op

namespace RecordedCalls

variable [DecidableEq Lock]

/-- An action of the system; the code of a call knows its thread. -/
def perform (program : Nat → Op → Code Lock Shared)
    (recorded : RecordedCalls Lock Shared Op) :
    Action Op → Option (RecordedCalls Lock Shared Op)
  | .start thread op =>
      (recorded.system.perform (program thread) (.start thread op)).map
        fun next =>
          ⟨next, Function.update recorded.calls thread
            (recorded.calls thread ++ [op])⟩
  | .advance thread =>
      (recorded.system.perform (program thread) (.advance thread)).map
        fun next => ⟨next, recorded.calls⟩

def Step (program : Nat → Op → Code Lock Shared)
    (recorded : RecordedCalls Lock Shared Op) (action : Action Op)
    (next : RecordedCalls Lock Shared Op) : Prop :=
  recorded.perform program action = some next

/-- No call has been made yet. -/
def idle (shared : Shared) : RecordedCalls Lock Shared Op :=
  ⟨System.idle shared, fun _ => []⟩

theorem Step.system {program : Nat → Op → Code Lock Shared}
    {recorded next : RecordedCalls Lock Shared Op} {action : Action Op}
    (step : recorded.Step program action next) :
    ∃ thread, recorded.system.Step (program thread) action next.system := by
  cases action with
  | start thread op =>
      obtain ⟨system, performed, rfl⟩ := Option.map_eq_some_iff.mp step
      exact ⟨thread, performed⟩
  | advance thread =>
      obtain ⟨system, performed, rfl⟩ := Option.map_eq_some_iff.mp step
      exact ⟨thread, performed⟩

/-- What a lock protects is protected, whoever calls. -/
theorem protects_throughout {protection : Protection Shared} {mutex : Lock}
    {program : Nat → Op → Code Lock Shared}
    (starts : ∀ thread op shared,
      Sound protection mutex false (program thread op) shared)
    {recorded : RecordedCalls Lock Shared Op}
    {path : List (Action Op × RecordedCalls Lock Shared Op)}
    (isPath : Transition.IsPath (Step program) recorded path)
    (initial : Protects protection mutex recorded.system) :
    Transition.Throughout
      (fun recorded => Protects protection mutex recorded.system)
      recorded path := by
  refine Transition.throughout_of_invariant ?_ isPath initial
  intro source action target protects step
  obtain ⟨thread, stepped⟩ := Step.system step
  exact protects.step (starts thread) stepped

end RecordedCalls

/-! ## What is told -/

/-- What a log of many threads tells of one of them. -/
def entriesOf (entry : Event → Option Entry) (log : List (Nat × Event))
    (thread : Nat) : List Entry :=
  (log.filter fun told => told.1 = thread).filterMap fun told => entry told.2

theorem entriesOf_append_self (entry : Event → Option Entry)
    (log : List (Nat × Event)) (thread : Nat) (added : List Event) :
    entriesOf entry (log ++ added.map (Prod.mk thread)) thread =
      entriesOf entry log thread ++ added.filterMap entry := by
  simp [entriesOf, List.filter_map, List.filterMap_map, Function.comp_def]

theorem entriesOf_append_of_ne (entry : Event → Option Entry)
    (log : List (Nat × Event)) {thread other : Nat}
    (distinct : other ≠ thread) (added : List Event) :
    entriesOf entry (log ++ added.map (Prod.mk thread)) other =
      entriesOf entry log other := by
  simp [entriesOf, List.filter_map, Function.comp_def, distinct.symm]

section

variable (log : Shared → List (Nat × Event)) (entry : Event → Option Entry)

/-- What the code has still to tell of its thread, whatever others tell. -/
def Owes (thread : Nat) : List Entry → Code Lock Shared → Prop
  | owed, .done => owed = []
  | owed, .lock _ rest => Owes thread owed rest
  | owed, .unlock _ rest => Owes thread owed rest
  | owed, .update change rest =>
      ∀ shared, ∃ (added : List Event) (later : List Entry),
        log (change shared) = log shared ++ added.map (Prod.mk thread) ∧
          owed = added.filterMap entry ++ later ∧
            Owes thread later (rest shared)

variable {log entry}

/-- Data is changed, and nothing told. -/
theorem Owes.quiet {thread : Nat} {owed : List Entry}
    {change : Shared → Shared} {rest : Shared → Code Lock Shared}
    (same : ∀ shared, log (change shared) = log shared)
    (owes : ∀ shared, Owes log entry thread owed (rest shared)) :
    Owes log entry thread owed (.update change rest) :=
  fun shared => ⟨[], owed, by simp [same], rfl, owes shared⟩

/-- An event is told, which the calls stand for or not. -/
theorem Owes.event {thread : Nat} {owed : List Entry}
    {change : Shared → Shared} {rest : Shared → Code Lock Shared}
    (event : Shared → Event)
    (tells : ∀ shared,
      log (change shared) = log shared ++ [(thread, event shared)])
    (owes : ∀ shared, ∃ later,
      owed = (entry (event shared)).toList ++ later ∧
        Owes log entry thread later (rest shared)) :
    Owes log entry thread owed (.update change rest) := by
  intro shared
  obtain ⟨later, isOwed, onwards⟩ := owes shared
  refine ⟨[event shared], later, tells shared, ?_, onwards⟩
  rw [isOwed]
  cases isEntry : entry (event shared) <;> simp [isEntry]

variable (log entry) (asks : Op → List Entry)

/-- What is told of a thread is what its calls stand for. -/
structure Tells (recorded : RecordedCalls Lock Shared Op) (thread : Nat) :
    Prop where
  told : entriesOf entry (log recorded.system.shared) thread <+:
    (recorded.calls thread).flatMap asks
  /-- Only of the last call some may be missing. -/
  earlier : (recorded.calls thread).dropLast.flatMap asks <+:
    entriesOf entry (log recorded.system.shared) thread
  returned : recorded.system.code thread = .done →
    entriesOf entry (log recorded.system.shared) thread =
      (recorded.calls thread).flatMap asks

/-- The code of a thread tells what is missing. -/
structure Owing (recorded : RecordedCalls Lock Shared Op) (thread : Nat) :
    Prop where
  owed : ∃ owed, (recorded.calls thread).flatMap asks =
    entriesOf entry (log recorded.system.shared) thread ++ owed ∧
      Owes log entry thread owed (recorded.system.code thread)
  earlier : (recorded.calls thread).dropLast.flatMap asks <+:
    entriesOf entry (log recorded.system.shared) thread

variable {log entry asks}
variable {recorded next : RecordedCalls Lock Shared Op} {thread : Nat}

theorem Owing.tells (owing : Owing log entry asks recorded thread) :
    Tells log entry asks recorded thread := by
  obtain ⟨owed, isAll, owes⟩ := owing.owed
  refine ⟨⟨owed, isAll.symm⟩, owing.earlier, fun returned => ?_⟩
  rw [returned] at owes
  rw [isAll, owes, List.append_nil]

theorem owing_idle {shared : Shared} (empty : log shared = [])
    (thread : Nat) :
    Owing log entry asks
      (RecordedCalls.idle shared : RecordedCalls Lock Shared Op) thread :=
  ⟨⟨[], by simp [RecordedCalls.idle, System.idle, entriesOf, empty], rfl⟩,
    by simp [RecordedCalls.idle]⟩

/-- Nothing is told. -/
theorem none_owed (owed : List Entry) :
    owed = ([] : List Event).filterMap entry ++ owed := rfl

/-- The thread goes on with its code, and tells of itself only. -/
theorem Owing.goOn (owing : ∀ thread, Owing log entry asks recorded thread)
    {added : List Event} {owed later : List Entry}
    (calls : next.calls = recorded.calls)
    (logs : log next.system.shared =
      log recorded.system.shared ++ added.map (Prod.mk thread))
    (isAll : (recorded.calls thread).flatMap asks =
      entriesOf entry (log recorded.system.shared) thread ++ owed)
    (isOwed : owed = added.filterMap entry ++ later)
    (owes : Owes log entry thread later (next.system.code thread))
    (others : ∀ other, other ≠ thread →
      next.system.code other = recorded.system.code other)
    (other : Nat) : Owing log entry asks next other := by
  by_cases same : other = thread
  · subst same
    refine ⟨⟨later, ?_, owes⟩, ?_⟩
    · rw [calls, logs, entriesOf_append_self, isAll, isOwed,
        List.append_assoc]
    · rw [calls, logs, entriesOf_append_self]
      exact (owing other).earlier.trans (List.prefix_append _ _)
  · obtain ⟨⟨owed, isOwed, kept⟩, earlier⟩ := owing other
    refine ⟨⟨owed, ?_, ?_⟩, ?_⟩
    · rw [calls, logs, entriesOf_append_of_ne _ _ same, isOwed]
    · rw [others other same]
      exact kept
    · rw [calls, logs, entriesOf_append_of_ne _ _ same]
      exact earlier

variable [DecidableEq Lock]

/-- Every step of code which owes what its calls stand for. -/
theorem Owing.step {program : Nat → Op → Code Lock Shared}
    (starts : ∀ thread op,
      Owes log entry thread (asks op) (program thread op))
    (owing : ∀ thread, Owing log entry asks recorded thread)
    {action : Action Op} (step : recorded.Step program action next)
    (other : Nat) : Owing log entry asks next other := by
  cases action with
  | start thread op =>
      obtain ⟨system, performed, rfl⟩ := Option.map_eq_some_iff.mp step
      cases System.step_cases performed with
      | start rests goes =>
          subst goes
          obtain ⟨⟨owed, isOwed, owes⟩, earlier⟩ := owing other
          by_cases same : other = thread
          · subst same
            -- The calls before have been told of.
            rw [rests] at owes
            rw [owes, List.append_nil] at isOwed
            refine ⟨⟨asks op, ?_, ?_⟩, ?_⟩
            · simp [isOwed, System.goOn]
            · rw [System.goOn_code_self]
              exact starts other op
            · simp [isOwed, System.goOn]
          · have calls : Function.update recorded.calls thread
                (recorded.calls thread ++ [op]) other =
                  recorded.calls other := Function.update_of_ne same _ _
            refine ⟨⟨owed, ?_, ?_⟩, ?_⟩
            · dsimp only
              rw [calls]
              exact isOwed
            · rw [System.goOn_code_of_ne _ _ same]
              exact owes
            · dsimp only
              rw [calls]
              exact earlier
  | advance thread =>
      obtain ⟨system, performed, rfl⟩ := Option.map_eq_some_iff.mp step
      obtain ⟨owed, isOwed, owes⟩ := (owing thread).owed
      cases System.step_cases performed with
      | lock point free goes =>
          subst goes
          rw [point] at owes
          refine Owing.goOn owing ?_ ?_ isOwed (none_owed owed) ?_ ?_ other
          · rfl
          · exact (List.append_nil _).symm
          · rw [System.goOn_code_self]
            exact owes
          · exact fun other same => System.goOn_code_of_ne _ _ same
      | unlock point owns goes =>
          subst goes
          rw [point] at owes
          refine Owing.goOn owing ?_ ?_ isOwed (none_owed owed) ?_ ?_ other
          · rfl
          · exact (List.append_nil _).symm
          · rw [System.goOn_code_self]
            exact owes
          · exact fun other same => System.goOn_code_of_ne _ _ same
      | update point goes =>
          subst goes
          rw [point] at owes
          obtain ⟨added, later, logs, isLater, onwards⟩ :=
            owes recorded.system.shared
          refine Owing.goOn owing ?_ ?_ isOwed isLater ?_ ?_ other
          · rfl
          · exact logs
          · rw [System.goOn_code_self]
            exact onwards
          · exact fun other same => System.goOn_code_of_ne _ _ same

variable (log)

theorem owing_throughout {program : Nat → Op → Code Lock Shared}
    (starts : ∀ thread op,
      Owes log entry thread (asks op) (program thread op))
    {path : List (Action Op × RecordedCalls Lock Shared Op)}
    (isPath : Transition.IsPath (RecordedCalls.Step program) recorded path)
    (initial : ∀ thread, Owing log entry asks recorded thread) :
    Transition.Throughout
      (fun recorded => ∀ thread, Owing log entry asks recorded thread)
      recorded path :=
  Transition.throughout_of_invariant
    (fun _ _ _ owing step => Owing.step starts owing step) isPath initial

end

end LinuxDfl.Lib.Locking

import Mathlib.Data.List.Basic

/-!
# Monitors

A monitor reads a trace event by event.  It has no next state where the trace
breaks the protocol which the monitor stands for.  What a program adds to a
trace is described by the states of the monitor in front of it and behind it.
-/

namespace LinuxDfl.Lib.Monitor

variable {State Event : Type*}

/-- The state behind a trace, if the trace keeps to the protocol. -/
def run (observe : State → Event → Option State) :
    State → List Event → Option State
  | state, [] => some state
  | state, event :: rest =>
      (observe state event).bind fun next => run observe next rest

variable {observe : State → Event → Option State}

@[simp]
theorem run_nil (state : State) : run observe state [] = some state := rfl

theorem run_append (state : State) (first rest : List Event) :
    run observe state (first ++ rest) =
      (run observe state first).bind fun next => run observe next rest := by
  induction first generalizing state with
  | nil => rfl
  | cons event first ih =>
      cases step : observe state event with
      | none => simp only [List.cons_append, run, step, Option.bind_none]
      | some next =>
          simp only [List.cons_append, run, step, Option.bind_some]
          exact ih next

/-- A relation to the events so far which each step keeps. -/
theorem run_induction (relation : State → List Event → Prop)
    (kept :
      ∀ state event next before, relation state before →
        observe state event = some next → relation next (before ++ [event]))
    {state last : State} {trace : List Event} (before : List Event)
    (initial : relation state before)
    (runs : run observe state trace = some last) :
    relation last (before ++ trace) := by
  induction trace generalizing state before with
  | nil =>
      cases runs
      simpa using initial
  | cons event rest ih =>
      rw [run, Option.bind_eq_some_iff] at runs
      obtain ⟨next, step, onwards⟩ := runs
      have later :=
        ih (before ++ [event]) (kept state event next before initial step)
          onwards
      simpa using later

variable (observe) in
/--
What is behind the first trace in the second one takes the monitor from one
state to another.
-/
def Follows (before after : List Event) (first last : State) : Prop :=
  ∃ added, after = before ++ added ∧ run observe first added = some last

@[simp]
theorem Follows.refl (trace : List Event) (state : State) :
    Follows observe trace trace state state :=
  ⟨[], by simp, rfl⟩

theorem Follows.trans {before between after : List Event}
    {first middle last : State}
    (front : Follows observe before between first middle)
    (back : Follows observe between after middle last) :
    Follows observe before after first last := by
  obtain ⟨added, rfl, runs⟩ := front
  obtain ⟨more, rfl, onwards⟩ := back
  refine ⟨added ++ more, by simp, ?_⟩
  rw [run_append, runs]
  exact onwards

theorem Follows.event {event : Event} {first last : State}
    (step : observe first event = some last) (trace : List Event) :
    Follows observe trace (trace ++ [event]) first last :=
  ⟨[event], rfl, by simp [run, step]⟩

end LinuxDfl.Lib.Monitor

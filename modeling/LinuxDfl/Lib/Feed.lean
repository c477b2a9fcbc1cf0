import Mathlib.Data.List.Basic

/-!
# Machines fed with a stream

A machine which takes one symbol after the other, and may give an output with
each.
-/

namespace LinuxDfl.Lib.Feed

variable {State Input Output : Type*}

/-- The state after a sequence of symbols, and the outputs on the way. -/
def feed (step : State → Input → State × Option Output) :
    State → List Input → State × List Output
  | state, [] => (state, [])
  | state, input :: rest =>
      let next := step state input
      let fed := feed step next.1 rest
      (fed.1, next.2.toList ++ fed.2)

@[simp]
theorem feed_nil (step : State → Input → State × Option Output)
    (state : State) : feed step state [] = (state, []) := rfl

theorem feed_cons (step : State → Input → State × Option Output)
    (state : State) (input : Input) (rest : List Input) :
    feed step state (input :: rest) =
      ((feed step (step state input).1 rest).1,
        (step state input).2.toList ++
          (feed step (step state input).1 rest).2) := rfl

/-- A sequence may be cut anywhere. -/
theorem feed_append (step : State → Input → State × Option Output)
    (state : State) (left right : List Input) :
    feed step state (left ++ right) =
      ((feed step (feed step state left).1 right).1,
        (feed step state left).2 ++
          (feed step (feed step state left).1 right).2) := by
  induction left generalizing state with
  | nil => rfl
  | cons input rest ih =>
      rw [List.cons_append, feed_cons, ih, feed_cons, List.append_assoc]

end LinuxDfl.Lib.Feed

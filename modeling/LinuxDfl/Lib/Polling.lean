import Mathlib.Order.Basic

/-!
# Loops which wait

A loop which decides at the end of each turn whether it goes on, and a poll
with a time limit, which reads once more when time is up.
-/

namespace LinuxDfl.Lib.Polling

/-- The last turn of the loop from a turn on, if there is fuel enough. -/
def lastTurn (goesOn : Nat → Bool) : Nat → Nat → Option Nat
  | 0, _ => none
  | fuel + 1, turn =>
      if goesOn turn then lastTurn goesOn fuel (turn + 1) else some turn

variable {goesOn : Nat → Bool}

theorem lastTurn_eq_some_iff {fuel first last : Nat} :
    lastTurn goesOn fuel first = some last ↔
      first ≤ last ∧ last < first + fuel ∧ goesOn last = false ∧
        ∀ turn, first ≤ turn → turn < last → goesOn turn = true := by
  induction fuel generalizing first with
  | zero =>
      constructor
      · intro none
        cases none
      · rintro ⟨from_first, inside, -⟩
        exact absurd inside (Nat.not_lt.mpr from_first)
  | succ fuel ih =>
      cases here : goesOn first with
      | false =>
          simp only [lastTurn, here, Bool.false_eq_true, if_false,
            Option.some.injEq]
          constructor
          · rintro rfl
            refine ⟨Nat.le_refl _, by omega, here, fun turn above below => ?_⟩
            exact absurd below (Nat.not_lt.mpr above)
          · rintro ⟨above, -, -, before⟩
            by_contra different
            have on := before first (Nat.le_refl _) (by omega)
            rw [here] at on
            cases on
      | true =>
          simp only [lastTurn, here, if_true, ih]
          constructor
          · rintro ⟨above, inside, ends, before⟩
            refine ⟨by omega, by omega, ends, fun turn above below => ?_⟩
            rcases Nat.eq_or_lt_of_le above with rfl | later
            · exact here
            · exact before turn later below
          · rintro ⟨above, inside, ends, before⟩
            have later : first ≠ last := by
              rintro rfl
              rw [here] at ends
              cases ends
            exact ⟨by omega, by omega, ends,
              fun turn above => before turn (by omega)⟩

/-- The loop ends at the latest with a turn after which it does not go on. -/
theorem exists_lastTurn {fuel first turn : Nat} (above : first ≤ turn)
    (enough : turn < first + fuel) (ends : goesOn turn = false) :
    ∃ last, lastTurn goesOn fuel first = some last := by
  induction fuel generalizing first with
  | zero => exact absurd enough (Nat.not_lt.mpr above)
  | succ fuel ih =>
      cases here : goesOn first with
      | false => exact ⟨first, by simp [lastTurn, here]⟩
      | true =>
          have later : first ≠ turn := by
            rintro rfl
            rw [here] at ends
            cases ends
          obtain ⟨last, reached⟩ :=
            ih (Nat.lt_of_le_of_ne above later) (by omega)
          exact ⟨last, by simpa [lastTurn, here] using reached⟩

/-! ## Polls with a time limit -/

/--
The last read of a poll.  Behind a read which is not an answer the clock is
looked at; when time is up there is one more read.
-/
def lastRead (done late : Nat → Bool) (fuel : Nat) : Option Nat :=
  (lastTurn (fun read => !done read && !late read) fuel 0).map fun read =>
    if done read then read else read + 1

variable {done late : Nat → Bool}

/-- The reads of a poll come before an answer, and before time is up. -/
theorem lastRead_spec {fuel last : Nat}
    (polled : lastRead done late fuel = some last) :
    (∀ read < last, done read = false) ∧
      ∀ read, read + 1 < last → late read = false := by
  obtain ⟨turn, turned, rfl⟩ := Option.map_eq_some_iff.mp polled
  obtain ⟨-, -, ends, before⟩ := lastTurn_eq_some_iff.mp turned
  have waits : ∀ read < turn, done read = false ∧ late read = false := by
    intro read below
    simpa using before read (Nat.zero_le read) below
  cases isDone : done turn with
  | true =>
      simp only [if_true]
      exact ⟨fun read below => (waits read below).1,
        fun read below => (waits read (Nat.lt_of_succ_lt below)).2⟩
  | false =>
      simp only [Bool.false_eq_true, if_false]
      refine ⟨fun read below => ?_, fun read below => ?_⟩
      · rcases Nat.eq_or_lt_of_le (Nat.le_of_lt_succ below) with rfl | earlier
        · exact isDone
        · exact (waits read earlier).1
      · exact (waits read (Nat.lt_of_succ_lt_succ below)).2

/-- A poll ends once time is up. -/
theorem exists_lastRead {fuel read : Nat} (isLate : late read = true)
    (enough : read < fuel) : ∃ last, lastRead done late fuel = some last := by
  have ends : (!done read && !late read) = false := by
    simp [isLate]
  have inside : read < 0 + fuel := by
    rwa [Nat.zero_add]
  obtain ⟨turn, turned⟩ :
      ∃ turn, lastTurn (fun read => !done read && !late read) fuel 0 =
        some turn :=
    exists_lastTurn (Nat.zero_le read) inside ends
  exact ⟨_, Option.map_eq_some_iff.mpr ⟨turn, turned, rfl⟩⟩

end LinuxDfl.Lib.Polling

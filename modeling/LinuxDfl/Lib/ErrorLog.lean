import LinuxDfl.Lib.Monitor
import Mathlib.Logic.Function.Basic

/-!
# Errors which are acknowledged

Registers collect errors until somebody acknowledges them by writing back what
was read.  The log of what happens to such registers is read by a monitor,
which knows the errors that are pending: a read shows all of them.  Errors are
compared with those that are pending before they are acknowledged; exactly
what is found there is acknowledged then, whatever is raised in between.
-/

namespace LinuxDfl.Lib.ErrorLog

variable {Reg : Type} {width : Nat}

/-- What happens to a register. -/
inductive Event (Reg : Type) (width : Nat) where
  | raised (reg : Reg) (errors : BitVec width)
  | shown (reg : Reg) (errors : BitVec width)
  /-- What is to be acknowledged is compared with what there is. -/
  | compared (reg : Reg) (errors : BitVec width)
  | acknowledged (reg : Reg) (errors : BitVec width)
  deriving DecidableEq, Repr

/-- What is known of the registers. -/
structure Watch (Reg : Type) (width : Nat) where
  pending : Reg → BitVec width
  /-- Errors which have been found, and have to be acknowledged. -/
  due : Option (Reg × BitVec width)

/-- All of these errors are pending. -/
def Covers (pending errors : BitVec width) : Prop :=
  pending &&& errors = errors

instance (pending errors : BitVec width) : Decidable (Covers pending errors) :=
  inferInstanceAs (Decidable (_ = _))

theorem covers_refl (pending : BitVec width) : Covers pending pending :=
  BitVec.and_self

theorem Covers.or {pending errors : BitVec width}
    (covers : Covers pending errors) (more : BitVec width) :
    Covers (pending ||| more) errors := by
  apply BitVec.eq_of_getLsbD_eq
  intro i _
  have here : (pending.getLsbD i && errors.getLsbD i) = errors.getLsbD i := by
    rw [← BitVec.getLsbD_and, covers]
  rw [BitVec.getLsbD_and, BitVec.getLsbD_or]
  revert here
  cases pending.getLsbD i <;> cases errors.getLsbD i <;>
    cases more.getLsbD i <;> decide

variable [DecidableEq Reg]

/-- What is known behind an event. -/
def observe (watch : Watch Reg width) :
    Event Reg width → Option (Watch Reg width)
  | .raised reg errors =>
      some { watch with
        pending :=
          Function.update watch.pending reg (watch.pending reg ||| errors) }
  | .shown reg errors => if errors = watch.pending reg then some watch else none
  | .compared reg errors =>
      if watch.due = none then
        some { watch with
          due := if errors = watch.pending reg then some (reg, errors)
            else none }
      else none
  | .acknowledged reg errors =>
      if watch.due = some (reg, errors) ∧ Covers (watch.pending reg) errors then
        some
          ⟨Function.update watch.pending reg (watch.pending reg &&& ~~~errors),
            none⟩
      else none

/-- What others than the one who acknowledges add to the log. -/
def Event.Quiet : Event Reg width → Prop
  | .raised _ _ => True
  | .shown _ _ => True
  | .compared _ _ => False
  | .acknowledged _ _ => False

variable {watch next : Watch Reg width}

/-- Errors do not vanish by themselves. -/
theorem covers_of_quiet {event : Event Reg width} (quiet : event.Quiet)
    (observes : observe watch event = some next) {reg : Reg}
    {errors : BitVec width} (covers : Covers (watch.pending reg) errors) :
    Covers (next.pending reg) errors := by
  cases event with
  | raised raised more =>
      cases observes
      by_cases same : reg = raised
      · subst same
        dsimp only
        rw [Function.update_self]
        exact covers.or more
      · dsimp only
        rw [Function.update_of_ne same]
        exact covers
  | shown shown value =>
      rw [observe, Option.ite_none_right_eq_some] at observes
      obtain ⟨-, ⟨⟩⟩ := observes
      exact covers
  | compared _ _ => cases quiet
  | acknowledged _ _ => cases quiet

theorem covers_of_run {added : List (Event Reg width)}
    (quiet : ∀ event ∈ added, event.Quiet)
    (runs : Monitor.run observe watch added = some next) {reg : Reg}
    {errors : BitVec width} (covers : Covers (watch.pending reg) errors) :
    Covers (next.pending reg) errors := by
  induction added generalizing watch with
  | nil =>
      cases runs
      exact covers
  | cons event rest ih =>
      rw [Monitor.run, Option.bind_eq_some_iff] at runs
      obtain ⟨between, observes, onwards⟩ := runs
      exact ih (fun other member => quiet other (.tail _ member)) onwards
        (covers_of_quiet (quiet event (.head _)) observes covers)

end LinuxDfl.Lib.ErrorLog

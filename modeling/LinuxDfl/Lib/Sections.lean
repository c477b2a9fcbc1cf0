import LinuxDfl.Lib.Locking
import LinuxDfl.Lib.Transition

/-!
# Data which a lock protects

Data is at rest whenever its lock is free.  The owner of the lock may change it
in any way, as long as it is at rest again when the lock is given back.
Whoever does not own the lock may meddle with it at any time, but only in ways
which are known beforehand.  Code which is sound in this sense keeps the data
as it should be in every interleaving.
-/

namespace LinuxDfl.Lib.Locking

variable {Lock Shared Op : Type}

/-- What is known of the data. -/
structure Protection (Shared : Type) where
  /-- At any time. -/
  Always : Shared → Prop
  /-- While the lock is free. -/
  AtRest : Shared → Prop
  /-- What may be done without the lock. -/
  Meddles : Shared → Shared → Prop
  refl : ∀ shared, Meddles shared shared
  trans : ∀ {first second third}, Meddles first second →
    Meddles second third → Meddles first third
  always : ∀ {shared next}, Meddles shared next → Always shared → Always next
  rests : ∀ {shared next}, Meddles shared next → AtRest shared → AtRest next

/-- What the code makes of the data when nobody comes between. -/
def Code.alone : Code Lock Shared → Shared → Shared
  | .done, shared => shared
  | .lock _ rest, shared => rest.alone shared
  | .unlock _ rest, shared => rest.alone shared
  | .update change rest, shared => (rest shared).alone (change shared)

variable {protection : Protection Shared} {mutex : Lock}

/--
The code is sound from these data on, for a thread which owns the lock or does
not.  Without the lock the data is not looked at, since it may be anything by
the time the thread goes on.
-/
def Sound (protection : Protection Shared) (mutex : Lock) :
    Bool → Code Lock Shared → Shared → Prop
  | owns, .done, _ => owns = false
  | owns, .lock other rest, _ =>
      owns = false ∧ other = mutex ∧
        ∀ now, protection.Always now → protection.AtRest now →
          Sound protection mutex true rest now
  | owns, .unlock other rest, shared =>
      owns = true ∧ other = mutex ∧ protection.AtRest shared ∧
        ∀ now, Sound protection mutex false rest now
  | true, .update change rest, shared =>
      ∀ now, protection.Meddles shared now → protection.Always now →
        protection.Always (change now) ∧
          Sound protection mutex true (rest now) (change now)
  | false, .update change rest, _ =>
      ∀ now, protection.Always now →
        protection.Meddles now (change now) ∧
          ∀ later, Sound protection mutex false (rest now) later

/-- Without the lock, the data is not looked at. -/
theorem Sound.anywhere {code : Code Lock Shared} {shared : Shared}
    (sound : Sound protection mutex false code shared) (other : Shared) :
    Sound protection mutex false code other := by
  cases code with
  | done => exact sound
  | lock _ _ => exact sound
  | unlock _ _ => exact absurd sound.1 Bool.false_ne_true
  | update _ _ => exact sound

/-- Code stays sound when others meddle with the data. -/
theorem Sound.meddled {owns : Bool} {code : Code Lock Shared}
    {shared next : Shared} (sound : Sound protection mutex owns code shared)
    (meddles : protection.Meddles shared next) :
    Sound protection mutex owns code next := by
  cases owns with
  | false => exact sound.anywhere next
  | true =>
      cases code with
      | done => exact sound
      | lock _ _ => exact sound
      | unlock _ _ =>
          obtain ⟨owner, isMutex, atRest, rest⟩ := sound
          exact ⟨owner, isMutex, protection.rests meddles atRest, rest⟩
      | update _ _ =>
          exact fun now later =>
            sound now (protection.trans meddles later)

/-- The data of a system is protected. -/
structure Protects (protection : Protection Shared) (mutex : Lock)
    (system : System Lock Shared) : Prop where
  always : protection.Always system.shared
  atRest : system.owner mutex = none → protection.AtRest system.shared
  sound : ∀ thread,
    Sound protection mutex (decide (system.owner mutex = some thread))
      (system.code thread) system.shared

theorem protects_idle (protection : Protection Shared) {shared : Shared}
    (always : protection.Always shared) (atRest : protection.AtRest shared) :
    Protects protection mutex (System.idle shared) :=
  ⟨always, fun _ => atRest, fun _ => rfl⟩

section

variable {system : System Lock Shared}
  (protects : Protects protection mutex system)

include protects

/-- A thread which does not own the lock, and its code. -/
theorem Protects.outside {thread : Nat}
    (outside : system.owner mutex ≠ some thread) :
    Sound protection mutex false (system.code thread) system.shared := by
  simpa only [outside, decide_false] using protects.sound thread

/-- The owner of the lock, and its code. -/
theorem Protects.inside {thread : Nat}
    (inside : system.owner mutex = some thread) :
    Sound protection mutex true (system.code thread) system.shared := by
  simpa only [inside, decide_true] using protects.sound thread

end

/-- What others know of their code is kept when they do not own the lock. -/
theorem sound_goOn {system : System Lock Shared} {thread : Nat}
    {code : Code Lock Shared} {owns : Nat → Bool} {shared : Shared}
    (own : Sound protection mutex (owns thread) code shared)
    (others : ∀ other, other ≠ thread →
      Sound protection mutex (owns other) (system.code other) shared)
    (other : Nat) :
    Sound protection mutex (owns other)
      ((system.goOn thread code).code other) shared := by
  by_cases same : other = thread
  · subst same
    rw [System.goOn_code_self]
    exact own
  · rw [System.goOn_code_of_ne _ _ same]
    exact others other same

variable [DecidableEq Lock]

/-- Every step of code which is sound keeps the data protected. -/
theorem Protects.step {program : Op → Code Lock Shared}
    (starts : ∀ op shared, Sound protection mutex false (program op) shared)
    {system next : System Lock Shared} {action : Action Op}
    (protects : Protects protection mutex system)
    (step : system.Step program action next) :
    Protects protection mutex next := by
  cases System.step_cases step with
  | @start thread op rests goes =>
      subst goes
      have outside : system.owner mutex ≠ some thread := by
        intro owns
        have inside := protects.inside owns
        rw [rests] at inside
        exact Bool.false_ne_true inside.symm
      refine ⟨protects.always, protects.atRest, ?_⟩
      refine sound_goOn ?_ fun other _ => protects.sound other
      rw [System.goOn_owner, decide_eq_false outside]
      exact starts op _
  | @lock thread taken rest point free goes =>
      subst goes
      have here := protects.sound thread
      rw [point] at here
      obtain ⟨-, rfl, inside⟩ := here
      have owner : ∀ other, (((system.own taken (some thread)).goOn thread
          rest).owner taken = some other) = (thread = other) := by
        intro other
        rw [System.goOn_owner, System.own_owner_self, Option.some.injEq]
      refine ⟨protects.always, fun isFree => ?_, ?_⟩
      · rw [System.goOn_owner, System.own_owner_self] at isFree
        cases isFree
      · simp only [owner]
        refine sound_goOn ?_ fun other distinct => ?_
        · rw [decide_eq_true rfl]
          exact inside _ protects.always (protects.atRest free)
        · rw [decide_eq_false (Ne.symm distinct)]
          refine protects.outside fun owns => ?_
          rw [free] at owns
          cases owns
  | @unlock thread given rest point owns goes =>
      subst goes
      have here := protects.sound thread
      rw [point] at here
      obtain ⟨-, rfl, atRest, outside⟩ := here
      have owner : ∀ other, (((system.own given none).goOn thread
          rest).owner given = some other) = False := by
        intro other
        rw [System.goOn_owner, System.own_owner_self]
        exact eq_false fun isOwner => by cases isOwner
      refine ⟨protects.always, fun _ => atRest, ?_⟩
      simp only [owner, decide_false]
      refine sound_goOn (outside _) fun other distinct => ?_
      refine protects.outside fun isOwner => distinct ?_
      exact Option.some.inj (isOwner.symm.trans owns)
  | @update thread change rest point goes =>
      subst goes
      by_cases owns : system.owner mutex = some thread
      · have inside := protects.inside owns
        rw [point] at inside
        obtain ⟨always, onwards⟩ :=
          inside _ (protection.refl _) protects.always
        refine ⟨always, fun isFree => ?_, ?_⟩
        · rw [System.goOn_owner, owns] at isFree
          cases isFree
        · refine sound_goOn ?_ fun other distinct => ?_
          · rw [System.goOn_owner, decide_eq_true owns]
            exact onwards
          · have outside : system.owner mutex ≠ some other :=
              fun isOwner =>
                distinct (Option.some.inj (isOwner.symm.trans owns))
            rw [System.goOn_owner, decide_eq_false outside]
            exact (protects.outside outside).anywhere _
      · have outside := protects.outside owns
        rw [point] at outside
        obtain ⟨meddles, onwards⟩ := outside _ protects.always
        refine ⟨protection.always meddles protects.always,
          fun isFree => protection.rests meddles (protects.atRest isFree), ?_⟩
        refine sound_goOn ?_ fun other _ =>
          (protects.sound other).meddled meddles
        rw [System.goOn_owner, decide_eq_false owns]
        exact onwards _

end LinuxDfl.Lib.Locking

import LinuxDfl.Kernel.Bitfield
import LinuxDfl.Lib.Calls
import LinuxDfl.Lib.ErrorLog

/-!
# The global errors of an FME

The files in `errors` show the error registers of an FME.  Errors are cleared
by writing back what a file shows.  While a register is cleared, its errors
are masked; all of this happens under the lock of the feature device, and the
hardware raises errors in between.
-/

namespace LinuxDfl.Fme.GlobalErrors

open LinuxDfl.Kernel
open LinuxDfl.Lib
open LinuxDfl.Lib.Locking
open LinuxDfl.Lib.ErrorLog
open LinuxDfl.Lib.Transition

/-! ## Registers -/

/-- The registers of errors, each of which has a mask. -/
inductive FmeErrorReg where
  | pcie0Error
  | pcie1Error
  | fmeError
  | rasNonfatError
  | rasCatfatError
  deriving DecidableEq, Repr

/-- `MBP_ERROR` -/
def mbpError : BitVec 64 := 1 <<< 6

/-- `ERROR_MASK` -/
def errorMask : BitVec 64 := BitVec.allOnes 64

/-- `INJECT_ERROR_MASK` -/
def injectErrorMask : Field := genmask 2 0

/-- The registers of the feature, and what has happened to them. -/
structure FmeErrors where
  error : FmeErrorReg → BitVec 64
  mask : FmeErrorReg → BitVec 64
  rasErrorInject : BitVec 64
  /-- By which thread. -/
  log : List (Nat × Event FmeErrorReg 64)
  /-- What has been stored in `inject_errors`. -/
  injected : List (Nat × BitVec 8)

namespace FmeErrors

/-- Something is added to the log. -/
def record (thread : Nat) (event : Event FmeErrorReg 64)
    (errors : FmeErrors) : FmeErrors :=
  { errors with log := errors.log ++ [(thread, event)] }

/-- A read of an error register. -/
def readError (thread : Nat) (reg : FmeErrorReg) (errors : FmeErrors) :
    FmeErrors :=
  errors.record thread (.shown reg (errors.error reg))

/-- A read of an error register which is compared with a value. -/
def compareError (thread : Nat) (reg : FmeErrorReg) (val : BitVec 64)
    (errors : FmeErrors) : FmeErrors :=
  errors.record thread (.compared reg val)

/-- A write to an error register, which clears the errors that are written. -/
def writeError (thread : Nat) (reg : FmeErrorReg) (v : BitVec 64)
    (errors : FmeErrors) : FmeErrors :=
  { errors with
    error := Function.update errors.error reg
      (errors.error reg &&& ~~~v) }.record thread (.acknowledged reg v)

/-- A write to the mask of an error register. -/
def writeMask (reg : FmeErrorReg) (v : BitVec 64) (errors : FmeErrors) :
    FmeErrors :=
  { errors with mask := Function.update errors.mask reg v }

/-- A write to `RAS_ERROR_INJECT`, for a store of the value. -/
def writeInject (thread : Nat) (injectError : BitVec 8) (v : BitVec 64)
    (errors : FmeErrors) : FmeErrors :=
  { errors with
    rasErrorInject := v
    injected := errors.injected ++ [(thread, injectError)] }

/-- The hardware raises errors. -/
def raise (thread : Nat) (reg : FmeErrorReg) (raised : BitVec 64)
    (errors : FmeErrors) : FmeErrors :=
  { errors with
    error := Function.update errors.error reg
      (errors.error reg ||| raised) }.record thread (.raised reg raised)

end FmeErrors

open FmeErrors

/-! ## Operations -/

/-- The code of a thread, under the lock of the feature device. -/
abbrev FmeCode := Code Unit FmeErrors

section

variable (thread : Nat)

/-- The files with a lock show the register as it is. -/
def errorsShow (reg : FmeErrorReg) : FmeCode :=
  .lock () <| .update (readError thread reg) fun _ => .unlock () .done

/-- The stores, but for the mask which they leave. -/
def errorsStore (reg : FmeErrorReg) (unmasked val : BitVec 64) : FmeCode :=
  .lock () <|
    .update (writeMask reg errorMask) fun _ =>
    .update (compareError thread reg val) fun errors =>
    let v := errors.error reg
    if val = v then
      .update (writeError thread reg v) fun _ =>
      .update (writeMask reg unmasked) fun _ =>
      .unlock () .done
    else
      .update (writeMask reg unmasked) fun _ =>
      .unlock () .done

/-- `pcie0_errors_show` -/
def pcie0ErrorsShow : FmeCode := errorsShow thread .pcie0Error

/-- `pcie0_errors_store`, with the answer of `kstrtou64` -/
def pcie0ErrorsStore : Option (BitVec 64) → FmeCode
  | none => .done
  | some val => errorsStore thread .pcie0Error 0 val

/-- `pcie1_errors_show` -/
def pcie1ErrorsShow : FmeCode := errorsShow thread .pcie1Error

/-- `pcie1_errors_store`, with the answer of `kstrtou64` -/
def pcie1ErrorsStore : Option (BitVec 64) → FmeCode
  | none => .done
  | some val => errorsStore thread .pcie1Error 0 val

/-- `nonfatal_errors_show`, which takes no lock -/
def nonfatalErrorsShow : FmeCode :=
  .update (readError thread .rasNonfatError) fun _ => .done

/-- `catfatal_errors_show`, which takes no lock -/
def catfatalErrorsShow : FmeCode :=
  .update (readError thread .rasCatfatError) fun _ => .done

/-- `inject_errors_store`, with the answer of `kstrtou8` -/
def injectErrorsStore : Option (BitVec 8) → FmeCode
  | none => .done
  | some injectError =>
      if injectError.setWidth 64 &&& ~~~injectErrorMask.mask ≠ 0 then .done
      else
        .lock () <|
          .update id fun errors =>
          .update
            (writeInject thread injectError
              (injectErrorMask.update errors.rasErrorInject
                injectError.toNat)) fun _ =>
          .unlock () .done

/-- `fme_errors_show` -/
def fmeErrorsShow : FmeCode := errorsShow thread .fmeError

/-- `fme_errors_store`, with the answer of `kstrtou64` -/
def fmeErrorsStore (revision : BitVec 8) : Option (BitVec 64) → FmeCode
  | none => .done
  | some val =>
      errorsStore thread .fmeError (if revision ≠ 0#8 then 0 else mbpError) val

end

/-- `fme_err_mask` -/
def fmeErrMask (revision : BitVec 8) (mask : Bool) : FmeCode :=
  .lock () <|
    .update
      (if revision ≠ 0#8 then
        writeMask .fmeError (if mask then errorMask else 0)
      else writeMask .fmeError (if mask then errorMask else mbpError)) fun _ =>
    .update (writeMask .pcie0Error (if mask then errorMask else 0)) fun _ =>
    .update (writeMask .pcie1Error (if mask then errorMask else 0)) fun _ =>
    .update (writeMask .rasNonfatError (if mask then errorMask else 0)) fun _ =>
    .update (writeMask .rasCatfatError (if mask then errorMask else 0)) fun _ =>
    .unlock () .done

/-- What may happen while the files are there. -/
inductive FmeErrorOp where
  | pcie0Show
  | pcie0Store (val : Option (BitVec 64))
  | pcie1Show
  | pcie1Store (val : Option (BitVec 64))
  | nonfatalShow
  | catfatalShow
  | injectStore (injectError : Option (BitVec 8))
  | fmeShow
  | fmeStore (val : Option (BitVec 64))
  | raise (reg : FmeErrorReg) (raised : BitVec 64)

/-- The code of a thread. -/
def FmeErrorOp.code (revision : BitVec 8) (thread : Nat) : FmeErrorOp → FmeCode
  | .pcie0Show => pcie0ErrorsShow thread
  | .pcie0Store val => pcie0ErrorsStore thread val
  | .pcie1Show => pcie1ErrorsShow thread
  | .pcie1Store val => pcie1ErrorsStore thread val
  | .nonfatalShow => nonfatalErrorsShow thread
  | .catfatalShow => catfatalErrorsShow thread
  | .injectStore injectError => injectErrorsStore thread injectError
  | .fmeShow => fmeErrorsShow thread
  | .fmeStore val => fmeErrorsStore thread revision val
  | .raise reg raised =>
      .update (FmeErrors.raise thread reg raised) fun _ => .done

/-! ## What calls ask for -/

/-- What is done to an error register. -/
inductive ErrorRequest where
  | raise (reg : FmeErrorReg) (raised : BitVec 64)
  | show (reg : FmeErrorReg)
  | acknowledge (reg : FmeErrorReg) (val : BitVec 64)
  deriving DecidableEq, Repr

/-- Every request has one event. -/
def requestOf : Event FmeErrorReg 64 → Option ErrorRequest
  | .raised reg errors => some (.raise reg errors)
  | .shown reg _ => some (.show reg)
  | .compared reg errors => some (.acknowledge reg errors)
  | .acknowledged _ _ => none

/-- A value which cannot be read asks for nothing. -/
def FmeErrorOp.asks : FmeErrorOp → List ErrorRequest
  | .pcie0Show => [.show .pcie0Error]
  | .pcie0Store val => (val.map (.acknowledge .pcie0Error)).toList
  | .pcie1Show => [.show .pcie1Error]
  | .pcie1Store val => (val.map (.acknowledge .pcie1Error)).toList
  | .nonfatalShow => [.show .rasNonfatError]
  | .catfatalShow => [.show .rasCatfatError]
  | .injectStore _ => []
  | .fmeShow => [.show .fmeError]
  | .fmeStore val => (val.map (.acknowledge .fmeError)).toList
  | .raise reg raised => [.raise reg raised]

/-- What is to be injected; there are three bits for it. -/
def FmeErrorOp.injects : FmeErrorOp → List (BitVec 8)
  | .injectStore injectError =>
      (injectError.filter fun injectError => injectError ≤ 7#8).toList
  | _ => []

/-! ## Masks -/

/-- The mask of a register which nobody clears. -/
def restingMask (revision : BitVec 8) (reg : FmeErrorReg) : BitVec 64 :=
  if reg = .fmeError ∧ revision = 0#8 then mbpError else 0

/-- Errors are not masked. -/
def Unmasked (revision : BitVec 8) (errors : FmeErrors) : Prop :=
  ∀ reg, errors.mask reg = restingMask revision reg

/-- `fme_global_err_init` leaves no error masked. -/
theorem unmasked_fmeErrMask (revision : BitVec 8) (errors : FmeErrors) :
    Unmasked revision ((fmeErrMask revision false).alone errors) := by
  intro reg
  by_cases zero : revision = 0#8 <;> cases reg <;>
    simp [fmeErrMask, Code.alone, writeMask, restingMask, zero]

/-- `fme_global_err_uinit` masks all errors. -/
theorem masked_fmeErrMask (revision : BitVec 8) (errors : FmeErrors)
    (reg : FmeErrorReg) :
    ((fmeErrMask revision true).alone errors).mask reg = errorMask := by
  by_cases zero : revision = 0#8 <;> cases reg <;>
    simp [fmeErrMask, Code.alone, writeMask, zero]

/-! ## What holds at any time -/

/-- The injections one after the other, from the value of the register on. -/
def injectAll (v : BitVec 64) (injected : List (BitVec 8)) : BitVec 64 :=
  injected.foldl
    (fun v injectError => injectErrorMask.update v injectError.toNat) v

theorem injectAll_append (v : BitVec 64) (injected : List (BitVec 8))
    (injectError : BitVec 8) :
    injectAll v (injected ++ [injectError]) =
      injectErrorMask.update (injectAll v injected) injectError.toNat := by
  rw [injectAll, List.foldl_append]
  rfl

/-- The events, of whatever thread. -/
def FmeErrors.events (errors : FmeErrors) : List (Event FmeErrorReg 64) :=
  errors.log.map Prod.snd

/--
The registers show the errors which are pending, while these have to be
acknowledged.
-/
def Replays (start : FmeErrors) (due : Option (FmeErrorReg × BitVec 64))
    (errors : FmeErrors) : Prop :=
  Monitor.run observe ⟨start.error, none⟩ errors.events =
    some ⟨errors.error, due⟩

/--
The registers show the errors which are pending, masks are those at rest or
mask everything, and no injection is lost.
-/
structure Sane (revision : BitVec 8) (start errors : FmeErrors) : Prop where
  replays : ∃ due, Replays start due errors
  masks : ∀ reg,
    errors.mask reg = restingMask revision reg ∨ errors.mask reg = errorMask
  inject : errors.rasErrorInject =
    injectAll start.rasErrorInject (errors.injected.map Prod.snd)

/-- What the hardware does, and files which take no lock. -/
structure Meddles (errors next : FmeErrors) : Prop where
  mask : next.mask = errors.mask
  rasErrorInject : next.rasErrorInject = errors.rasErrorInject
  injected : next.injected = errors.injected
  events : ∃ added : List (Event FmeErrorReg 64),
    (∀ event ∈ added, event.Quiet) ∧
      next.events = errors.events ++ added ∧
        ∀ due, Monitor.run observe ⟨errors.error, due⟩ added =
          some ⟨next.error, due⟩

theorem Meddles.refl (errors : FmeErrors) : Meddles errors errors :=
  ⟨rfl, rfl, rfl, [], by simp, by simp, fun _ => rfl⟩

theorem Meddles.trans {first second third : FmeErrors}
    (front : Meddles first second) (back : Meddles second third) :
    Meddles first third := by
  obtain ⟨added, quiet, isLog, runs⟩ := front.events
  obtain ⟨more, still, isMore, onwards⟩ := back.events
  refine ⟨back.mask.trans front.mask,
    back.rasErrorInject.trans front.rasErrorInject,
    back.injected.trans front.injected, added ++ more, ?_, ?_, fun due => ?_⟩
  · intro event member
    exact (List.mem_append.mp member).elim (quiet event) (still event)
  · rw [isMore, isLog, List.append_assoc]
  · rw [Monitor.run_append, runs]
    exact onwards due

/-- An event which the lock is not needed for. -/
theorem Meddles.of_event {errors next : FmeErrors}
    (event : Event FmeErrorReg 64) (quiet : event.Quiet)
    (observes : ∀ due,
      observe ⟨errors.error, due⟩ event = some ⟨next.error, due⟩)
    (mask : next.mask = errors.mask)
    (rasErrorInject : next.rasErrorInject = errors.rasErrorInject)
    (injected : next.injected = errors.injected)
    (events : next.events = errors.events ++ [event]) :
    Meddles errors next := by
  refine ⟨mask, rasErrorInject, injected, [event], ?_, events, fun due => ?_⟩
  · intro other member
    rw [List.mem_singleton.mp member]
    exact quiet
  · simp [Monitor.run, observes]

@[simp]
theorem events_record (thread : Nat) (event : Event FmeErrorReg 64)
    (errors : FmeErrors) :
    (errors.record thread event).events = errors.events ++ [event] :=
  List.map_append

theorem meddles_readError (thread : Nat) (reg : FmeErrorReg)
    (errors : FmeErrors) : Meddles errors (readError thread reg errors) :=
  .of_event (.shown reg (errors.error reg)) trivial (fun _ => if_pos rfl)
    rfl rfl rfl (events_record _ _ _)

theorem meddles_raise (thread : Nat) (reg : FmeErrorReg)
    (raised : BitVec 64) (errors : FmeErrors) :
    Meddles errors (errors.raise thread reg raised) :=
  .of_event (.raised reg raised) trivial (fun _ => rfl) rfl rfl rfl
    (events_record _ _ _)

variable {revision : BitVec 8} {start errors next : FmeErrors}
variable {due : Option (FmeErrorReg × BitVec 64)}

theorem Replays.meddled (replays : Replays start due errors)
    (meddles : Meddles errors next) : Replays start due next := by
  obtain ⟨added, -, isLog, runs⟩ := meddles.events
  rw [Replays, isLog, Monitor.run_append, replays]
  exact runs due

theorem Sane.meddled (meddles : Meddles errors next)
    (sane : Sane revision start errors) : Sane revision start next := by
  obtain ⟨due, replays⟩ := sane.replays
  refine ⟨⟨due, replays.meddled meddles⟩, ?_, ?_⟩
  · rw [meddles.mask]
    exact sane.masks
  · rw [meddles.rasErrorInject, meddles.injected]
    exact sane.inject

/-- No error is masked, and none has to be acknowledged. -/
structure AtRest (revision : BitVec 8) (start errors : FmeErrors) : Prop where
  replays : Replays start none errors
  unmasked : Unmasked revision errors

theorem AtRest.meddled (meddles : Meddles errors next)
    (atRest : AtRest revision start errors) :
    AtRest revision start next := by
  refine ⟨atRest.replays.meddled meddles, ?_⟩
  rw [Unmasked, meddles.mask]
  exact atRest.unmasked

/-- What the lock of the feature device protects. -/
def fdataLock (revision : BitVec 8) (start : FmeErrors) :
    Protection FmeErrors where
  Always := Sane revision start
  AtRest := AtRest revision start
  Meddles := Meddles
  refl := Meddles.refl
  trans := Meddles.trans
  always := Sane.meddled
  rests := AtRest.meddled

/-! ## What the operations keep -/

/-- An event of the code which holds the lock. -/
theorem Replays.record (replays : Replays start due errors)
    {event : Event FmeErrorReg 64} {error : FmeErrorReg → BitVec 64}
    {left : Option (FmeErrorReg × BitVec 64)} (thread : Nat)
    (observes : observe ⟨errors.error, due⟩ event = some ⟨error, left⟩) :
    Replays start left
      ({ errors with error := error }.record thread event) := by
  have before : { errors with error := error }.events = errors.events := rfl
  rw [Replays, events_record, before, Monitor.run_append, replays]
  simp [Monitor.run, observes, FmeErrors.record]

/-- What is found has to be acknowledged. -/
theorem Replays.compareError (replays : Replays start none errors)
    (thread : Nat) (reg : FmeErrorReg) (val : BitVec 64) :
    Replays start (if val = errors.error reg then some (reg, val) else none)
      (errors.compareError thread reg val) := by
  refine replays.record thread ?_
  rw [observe]
  exact if_pos rfl

theorem Replays.writeError {reg : FmeErrorReg} {v : BitVec 64}
    (replays : Replays start (some (reg, v)) errors)
    (covers : Covers (errors.error reg) v) (thread : Nat) :
    Replays start none (errors.writeError thread reg v) :=
  replays.record thread (if_pos ⟨rfl, covers⟩)

/-- What the code which holds the lock does to an error register. -/
theorem Sane.of_replays (sane : Sane revision start errors)
    (replays : Replays start due next) (mask : next.mask = errors.mask)
    (rasErrorInject : next.rasErrorInject = errors.rasErrorInject)
    (injected : next.injected = errors.injected) :
    Sane revision start next := by
  refine ⟨⟨due, replays⟩, ?_, ?_⟩
  · rw [mask]
    exact sane.masks
  · rw [rasErrorInject, injected]
    exact sane.inject

theorem Sane.writeMask (sane : Sane revision start errors)
    (reg : FmeErrorReg) {v : BitVec 64}
    (isMask : v = restingMask revision reg ∨ v = errorMask) :
    Sane revision start (errors.writeMask reg v) := by
  refine ⟨sane.replays, fun other => ?_, sane.inject⟩
  by_cases same : other = reg
  · subst same
    simpa [FmeErrors.writeMask] using isMask
  · simpa [FmeErrors.writeMask, same] using sane.masks other

theorem Sane.writeInject (sane : Sane revision start errors)
    (thread : Nat) (injectError : BitVec 8) :
    Sane revision start
      (errors.writeInject thread injectError
        (injectErrorMask.update errors.rasErrorInject
          injectError.toNat)) := by
  refine ⟨sane.replays, sane.masks, ?_⟩
  show _ = injectAll start.rasErrorInject
    ((errors.injected ++ [(thread, injectError)]).map Prod.snd)
  rw [List.map_append, List.map_singleton, injectAll_append, ← sane.inject]
  rfl

/-- All other registers are not masked. -/
def UnmaskedBut (revision : BitVec 8) (reg : FmeErrorReg)
    (errors : FmeErrors) : Prop :=
  ∀ other, other ≠ reg → errors.mask other = restingMask revision other

theorem UnmaskedBut.meddled {reg : FmeErrorReg}
    (unmasked : UnmaskedBut revision reg errors)
    (meddles : Meddles errors next) : UnmaskedBut revision reg next := by
  rw [UnmaskedBut, meddles.mask]
  exact unmasked

theorem UnmaskedBut.writeMask {reg : FmeErrorReg}
    (unmasked : UnmaskedBut revision reg errors) (v : BitVec 64) :
    UnmaskedBut revision reg (errors.writeMask reg v) := by
  intro other distinct
  simpa [FmeErrors.writeMask, distinct] using unmasked other distinct

/-- The mask is put back. -/
theorem UnmaskedBut.unmask {reg : FmeErrorReg}
    (unmasked : UnmaskedBut revision reg errors) :
    Unmasked revision
      (errors.writeMask reg (restingMask revision reg)) := by
  intro other
  by_cases same : other = reg
  · subst same
    simp [FmeErrors.writeMask]
  · simpa [FmeErrors.writeMask, same] using unmasked other same

section

variable (revision) (start) (thread : Nat)

/-- The end of every store. -/
theorem sound_unmask {reg : FmeErrorReg}
    (replays : Replays start none errors)
    (unmasked : UnmaskedBut revision reg errors) :
    Sound (fdataLock revision start) () true
      (.update (writeMask reg (restingMask revision reg)) fun _ =>
        .unlock () .done) errors := by
  intro now meddles sane
  have still : Replays start none now := replays.meddled meddles
  have rests : AtRest revision start
      (now.writeMask reg (restingMask revision reg)) :=
    ⟨still, (unmasked.meddled meddles).unmask⟩
  exact ⟨Sane.writeMask sane reg (.inl rfl), rfl, rfl, rests, fun _ => rfl⟩

theorem sound_errorsStore (reg : FmeErrorReg) (val : BitVec 64) :
    Sound (fdataLock revision start) () false
      (errorsStore thread reg (restingMask revision reg) val) errors := by
  refine ⟨rfl, rfl, fun first _ atRest => ?_⟩
  intro second meddles sane
  have begun : AtRest revision start second :=
    AtRest.meddled meddles atRest
  have unmasked : UnmaskedBut revision reg (second.writeMask reg errorMask) :=
    UnmaskedBut.writeMask (fun other _ => begun.unmasked other) _
  have masked : Replays start none (second.writeMask reg errorMask) :=
    begun.replays
  refine ⟨Sane.writeMask sane reg (.inr rfl), ?_⟩
  intro third meddles sane
  have found := (masked.meddled meddles).compareError thread reg val
  have still : UnmaskedBut revision reg (third.compareError thread reg val) :=
    (unmasked.meddled meddles : UnmaskedBut revision reg third)
  refine ⟨Sane.of_replays sane found rfl rfl rfl, ?_⟩
  dsimp only
  by_cases same : val = third.error reg
  · rw [if_pos same] at found ⊢
    intro fourth meddles sane
    obtain ⟨added, quiet, -, runs⟩ := meddles.events
    -- Only errors are added since they have been compared.
    have covers : Covers (fourth.error reg) val := by
      refine covers_of_run quiet (runs none) (?_ : Covers (third.error reg) val)
      rw [same]
      exact covers_refl _
    have left : UnmaskedBut revision reg (fourth.writeError thread reg val) :=
      (still.meddled meddles : UnmaskedBut revision reg fourth)
    have answered := (found.meddled meddles).writeError covers thread
    rw [← same]
    exact ⟨Sane.of_replays sane answered rfl rfl rfl,
      sound_unmask revision start answered left⟩
  · rw [if_neg same] at found ⊢
    exact sound_unmask revision start found still

theorem sound_errorsShow (reg : FmeErrorReg) :
    Sound (fdataLock revision start) () false (errorsShow thread reg)
      errors := by
  refine ⟨rfl, rfl, fun first _ atRest => ?_⟩
  intro second meddles sane
  have reads := meddles_readError thread reg second
  refine ⟨sane.meddled reads, rfl, rfl, ?_, fun _ => rfl⟩
  exact (fdataLock revision start).rests reads
    ((fdataLock revision start).rests meddles atRest)

theorem sound_injectErrorsStore (injectError : Option (BitVec 8)) :
    Sound (fdataLock revision start) () false
      (injectErrorsStore thread injectError) errors := by
  cases injectError with
  | none => rfl
  | some injectError =>
      dsimp only [injectErrorsStore]
      split_ifs with invalid
      · rfl
      · refine ⟨rfl, rfl, fun first _ atRest => ?_⟩
        intro second meddles sane
        refine ⟨sane, fun third later kept => ?_⟩
        -- What has been read is still there.
        have same : second.rasErrorInject = third.rasErrorInject :=
          later.rasErrorInject.symm
        rw [same]
        have rests : AtRest revision start third :=
          AtRest.meddled later (AtRest.meddled meddles atRest)
        exact ⟨Sane.writeInject kept thread injectError, rfl, rfl,
          ⟨rests.replays, rests.unmasked⟩, fun _ => rfl⟩

/-- The hardware, and files which take no lock. -/
theorem sound_of_meddles {change : FmeErrors → FmeErrors}
    (meddles : ∀ errors, Meddles errors (change errors)) :
    Sound (fdataLock revision start) () false
      (.update change fun _ => .done) errors :=
  fun now _ => ⟨meddles now, fun _ => rfl⟩

theorem sound_code (op : FmeErrorOp) (errors : FmeErrors) :
    Sound (fdataLock revision start) () false (op.code revision thread)
      errors := by
  cases op with
  | pcie0Show => exact sound_errorsShow revision start thread _
  | pcie0Store val =>
      cases val with
      | none => rfl
      | some val =>
          exact sound_errorsStore revision start thread .pcie0Error val
  | pcie1Show => exact sound_errorsShow revision start thread _
  | pcie1Store val =>
      cases val with
      | none => rfl
      | some val =>
          exact sound_errorsStore revision start thread .pcie1Error val
  | nonfatalShow =>
      exact sound_of_meddles revision start (meddles_readError thread _)
  | catfatalShow =>
      exact sound_of_meddles revision start (meddles_readError thread _)
  | injectStore injectError =>
      exact sound_injectErrorsStore revision start thread injectError
  | fmeShow => exact sound_errorsShow revision start thread _
  | fmeStore val =>
      cases val with
      | none => rfl
      | some val =>
          have resting : restingMask revision .fmeError =
              if revision ≠ 0#8 then 0 else mbpError := by
            by_cases zero : revision = 0#8 <;> simp [restingMask, zero]
          show Sound _ _ _ (errorsStore thread .fmeError _ val) _
          rw [← resting]
          exact sound_errorsStore revision start thread .fmeError val
  | raise reg raised =>
      exact sound_of_meddles revision start (meddles_raise thread reg raised)

end

/-! ## What the operations tell -/

section

variable (thread : Nat)

/-- What is told of error registers, and what is still to be told. -/
abbrev OwesRequests : List ErrorRequest → FmeCode → Prop :=
  Owes FmeErrors.log requestOf thread

/-- What is injected, and what is still to be injected. -/
abbrev OwesInjections : List (BitVec 8) → FmeCode → Prop :=
  Owes FmeErrors.injected some thread

theorem owes_readError (reg : FmeErrorReg) {rest : FmeErrors → FmeCode}
    (nothing : ∀ errors, OwesRequests thread [] (rest errors)) :
    OwesRequests thread [.show reg]
      (.update (readError thread reg) rest) :=
  Owes.event (fun errors => .shown reg (errors.error reg)) (fun _ => rfl)
    fun errors => ⟨[], rfl, nothing errors⟩

theorem owes_errorsStore (reg : FmeErrorReg) (unmasked val : BitVec 64) :
    OwesRequests thread [.acknowledge reg val]
      (errorsStore thread reg unmasked val) := by
  refine Owes.quiet (fun _ => rfl) fun _ => ?_
  refine Owes.event (fun _ => .compared reg val) (fun _ => rfl)
    fun errors => ⟨[], rfl, ?_⟩
  have unmasks : OwesRequests thread []
      (.update (writeMask reg unmasked) fun _ => .unlock () .done) :=
    Owes.quiet (fun _ => rfl) fun _ => rfl
  dsimp only
  split_ifs with same
  · exact Owes.event (fun _ => .acknowledged reg (errors.error reg))
      (fun _ => rfl) fun _ => ⟨[], rfl, unmasks⟩
  · exact unmasks

theorem owes_requests (revision : BitVec 8) (op : FmeErrorOp) :
    OwesRequests thread op.asks (op.code revision thread) := by
  cases op with
  | pcie0Show => exact owes_readError thread _ fun _ => rfl
  | pcie0Store val =>
      cases val with
      | none => rfl
      | some val => exact owes_errorsStore thread _ _ val
  | pcie1Show => exact owes_readError thread _ fun _ => rfl
  | pcie1Store val =>
      cases val with
      | none => rfl
      | some val => exact owes_errorsStore thread _ _ val
  | nonfatalShow => exact owes_readError thread _ fun _ => rfl
  | catfatalShow => exact owes_readError thread _ fun _ => rfl
  | injectStore injectError =>
      cases injectError with
      | none => rfl
      | some injectError =>
          show OwesRequests thread []
            (injectErrorsStore thread (some injectError))
          dsimp only [injectErrorsStore]
          split_ifs with invalid
          · rfl
          · exact Owes.quiet (fun _ => rfl) fun _ =>
              Owes.quiet (fun _ => rfl) fun _ => rfl
  | fmeShow => exact owes_readError thread _ fun _ => rfl
  | fmeStore val =>
      cases val with
      | none => rfl
      | some val => exact owes_errorsStore thread _ _ val
  | raise reg raised =>
      exact Owes.event (fun _ => .raised reg raised) (fun _ => rfl)
        fun _ => ⟨[], rfl, rfl⟩

theorem injectRefused_iff (injectError : BitVec 8) :
    injectError.setWidth 64 &&& ~~~injectErrorMask.mask ≠ 0 ↔
      ¬ injectError ≤ 7#8 := by
  revert injectError
  decide

theorem owes_injections (revision : BitVec 8) (op : FmeErrorOp) :
    OwesInjections thread op.injects (op.code revision thread) := by
  have shows : ∀ reg, OwesInjections thread [] (errorsShow thread reg) :=
    fun reg => Owes.quiet (fun _ => rfl) fun _ => rfl
  have stores : ∀ reg unmasked val,
      OwesInjections thread [] (errorsStore thread reg unmasked val) := by
    intro reg unmasked val
    refine Owes.quiet (fun _ => rfl) fun _ => ?_
    refine Owes.quiet (fun _ => rfl) fun errors => ?_
    have unmasks : OwesInjections thread []
        (.update (writeMask reg unmasked) fun _ => .unlock () .done) :=
      Owes.quiet (fun _ => rfl) fun _ => rfl
    dsimp only
    split_ifs with same
    · exact Owes.quiet (fun _ => rfl) fun _ => unmasks
    · exact unmasks
  cases op with
  | pcie0Show => exact shows _
  | pcie0Store val =>
      cases val with
      | none => rfl
      | some val => exact stores _ _ val
  | pcie1Show => exact shows _
  | pcie1Store val =>
      cases val with
      | none => rfl
      | some val => exact stores _ _ val
  | nonfatalShow => exact Owes.quiet (fun _ => rfl) fun _ => rfl
  | catfatalShow => exact Owes.quiet (fun _ => rfl) fun _ => rfl
  | injectStore injectError =>
      cases injectError with
      | none => rfl
      | some injectError =>
          show OwesInjections thread
            (Option.filter _ (some injectError)).toList
            (injectErrorsStore thread (some injectError))
          dsimp only [injectErrorsStore]
          simp only [injectRefused_iff, Option.filter_some]
          by_cases small : injectError ≤ 7#8
          · rw [if_neg (not_not.mpr small), decide_eq_true small, if_pos rfl]
            refine Owes.quiet (fun _ => rfl) fun errors => ?_
            exact Owes.event (fun _ => injectError) (fun _ => rfl)
              fun _ => ⟨[], rfl, rfl⟩
          · rw [if_pos small, decide_eq_false small, if_neg (by decide)]
            rfl
  | fmeShow => exact shows _
  | fmeStore val =>
      cases val with
      | none => rfl
      | some val => exact stores _ _ val
  | raise reg raised => exact Owes.quiet (fun _ => rfl) fun _ => rfl

end

/-! ## Runs -/

/-- The feature after its initialisation, with the registers of power on. -/
def initialised (revision : BitVec 8) (error mask : FmeErrorReg → BitVec 64)
    (rasErrorInject : BitVec 64) : FmeErrors :=
  (fmeErrMask revision false).alone ⟨error, mask, rasErrorInject, [], []⟩

theorem untouched_initialised (revision : BitVec 8)
    (error mask : FmeErrorReg → BitVec 64) (rasErrorInject : BitVec 64) :
    (initialised revision error mask rasErrorInject).log = [] ∧
      (initialised revision error mask rasErrorInject).injected = [] := by
  by_cases zero : revision = 0#8 <;>
    simp [initialised, fmeErrMask, Code.alone, writeMask, zero]

theorem atRest_initialised (revision : BitVec 8)
    (error mask : FmeErrorReg → BitVec 64) (rasErrorInject : BitVec 64) :
    AtRest revision (initialised revision error mask rasErrorInject)
      (initialised revision error mask rasErrorInject) := by
  refine ⟨?_, unmasked_fmeErrMask revision _⟩
  rw [Replays, FmeErrors.events,
    (untouched_initialised revision error mask rasErrorInject).1]
  rfl

theorem sane_initialised (revision : BitVec 8)
    (error mask : FmeErrorReg → BitVec 64) (rasErrorInject : BitVec 64) :
    Sane revision (initialised revision error mask rasErrorInject)
      (initialised revision error mask rasErrorInject) := by
  have atRest := atRest_initialised revision error mask rasErrorInject
  refine ⟨⟨none, atRest.replays⟩, fun reg => .inl (atRest.unmasked reg), ?_⟩
  rw [(untouched_initialised revision error mask rasErrorInject).2]
  rfl

/--
The log of the registers is that of errors which are shown as they are, and
acknowledged by whom they have been compared for; no error is masked and none
has to be acknowledged but by the owner of the lock; no injection is lost; and
all of this is what the calls have asked for.
-/
structure Settled (revision : BitVec 8) (start : FmeErrors)
    (recorded : RecordedCalls Unit FmeErrors FmeErrorOp) : Prop where
  replays : ∃ due, Replays start due recorded.system.shared
  answered : recorded.system.owner () = none →
    Replays start none recorded.system.shared
  unmasked : recorded.system.owner () = none →
    Unmasked revision recorded.system.shared
  masks : ∀ reg,
    recorded.system.shared.mask reg = restingMask revision reg ∨
      recorded.system.shared.mask reg = errorMask
  inject : recorded.system.shared.rasErrorInject =
    injectAll start.rasErrorInject
      (recorded.system.shared.injected.map Prod.snd)
  requests : ∀ thread,
    Tells FmeErrors.log requestOf FmeErrorOp.asks recorded thread
  injections : ∀ thread,
    Tells FmeErrors.injected some FmeErrorOp.injects recorded thread

/-- Whoever reads and clears errors, and whenever more of them are raised. -/
theorem fmeErrors_settled (revision : BitVec 8)
    (error mask : FmeErrorReg → BitVec 64) (rasErrorInject : BitVec 64)
    {path : List (Action FmeErrorOp × RecordedCalls Unit FmeErrors FmeErrorOp)}
    (isPath : IsPath (RecordedCalls.Step (FmeErrorOp.code revision))
      (RecordedCalls.idle (initialised revision error mask rasErrorInject))
      path) :
    Throughout
      (Settled revision (initialised revision error mask rasErrorInject))
      (RecordedCalls.idle (initialised revision error mask rasErrorInject))
      path := by
  have sane := sane_initialised revision error mask rasErrorInject
  have rests := atRest_initialised revision error mask rasErrorInject
  have untouched := untouched_initialised revision error mask rasErrorInject
  have protects := RecordedCalls.protects_throughout
    (fun thread op _ => sound_code revision _ thread op _) isPath
    (protects_idle (fdataLock revision _) sane rests)
  have requests := owing_throughout FmeErrors.log
    (fun thread op => owes_requests thread revision op) isPath
    (owing_idle untouched.1)
  have injections := owing_throughout FmeErrors.injected
    (fun thread op => owes_injections thread revision op) isPath
    (owing_idle untouched.2)
  refine (protects.and (requests.and injections)).mono ?_
  rintro recorded ⟨protects, requests, injections⟩
  have now : Sane revision _ recorded.system.shared := protects.always
  exact ⟨now.replays, fun free => (protects.atRest free).replays,
    fun free => (protects.atRest free).unmasked, now.masks, now.inject,
    fun thread => (requests thread).tells,
    fun thread => (injections thread).tells⟩

/--
Two threads clear the same errors, and another error is raised between the
read and the write of the first one; the second one is refused.
-/
def clearedTwice : List (Action FmeErrorOp) :=
  [.start 2 (.raise .fmeError 5), .advance 2,
    .start 0 (.fmeStore (some 5)), .start 1 (.fmeStore (some 5))] ++
    List.replicate 3 (.advance 0) ++
    [.start 2 (.raise .fmeError 2), .advance 2] ++
    List.replicate 3 (.advance 0) ++ List.replicate 5 (.advance 1)

theorem clearedTwice_settled :
    Throughout (Settled 1 (initialised 1 (fun _ => 0) (fun _ => 0) 0))
      (RecordedCalls.idle (initialised 1 (fun _ => 0) (fun _ => 0) 0))
      (pathOf (orSame (RecordedCalls.perform (FmeErrorOp.code 1)))
        (RecordedCalls.idle (initialised 1 (fun _ => 0) (fun _ => 0) 0))
        clearedTwice) :=
  fmeErrors_settled 1 (fun _ => 0) (fun _ => 0) 0
    (isPath_of_allTaken (by decide))

end LinuxDfl.Fme.GlobalErrors

import LinuxDfl.Net.S10Hssi

/-!
# How long the S10 HSSI is polled

Neither the timer nor the work outlives the driver data and the network
device, and a failed probe leaves nothing behind, as long as no probe fails
once its network device is allocated, and no device is removed while its link
is being polled.
-/

namespace LinuxDfl.Net.S10Hssi

open LinuxDfl.Net.Hssi
open LinuxDfl.Lib.Population
open LinuxDfl.Lib.Transition

/-! ## Steps of the thread -/

namespace ProcPc

/-- The probe has no network device yet. -/
def early : ProcPc → Bool
  | kzalloc | ioremap | allocNetdev _ => true
  | _ => false

/-- The probe sets its network device up. -/
def settingUp : ProcPc → Bool
  | readq _ | kmalloc _ | regmapInit | ethtoolReset _ | registerNetdev
  | carrierOff _ | modTimer _ => true
  | _ => false

end ProcPc

/-- Memory is freed in the step. -/
def ProcAct.frees : ProcAct → Bool
  | devmRelease | freeNetdev => true
  | _ => false

/-- The steps of the thread. -/
inductive ProcMoves (dev : S10hssi) : ProcAct → S10hssi → Prop where
  | noData (here : dev.pc = .kzalloc) :
      ProcMoves dev (.kzalloc false) { dev with pc := .gone .failed }
  | early (act : ProcAct) (pc : ProcPc) (keeps : act.frees = false)
      (here : dev.pc.early = true) (there : pc.early = true) :
      ProcMoves dev act { dev with pc := pc }
  | earlyFails (act : ProcAct) (keeps : act.frees = false)
      (here : dev.pc.early = true) :
      ProcMoves dev act { dev with pc := .devmRelease .failed }
  | alloc (base : MmioBase) (here : dev.pc = .allocNetdev base) :
      ProcMoves dev (.allocNetdev true)
        { dev with netdev := .valid newNetdev, pc := .readq base }
  | setup (act : ProcAct) (change : NetDevice → NetDevice) (pc : ProcPc)
      (keeps : act.frees = false) (here : dev.pc.settingUp = true)
      (there : pc.settingUp = true) :
      ProcMoves dev act
        { dev with netdev := dev.netdev.write change, pc := pc }
  | setupFails (act : ProcAct) (keeps : act.frees = false)
      (here : dev.pc.settingUp = true) :
      ProcMoves dev act { dev with pc := .devmRelease .failed }
  | oops (act : ProcAct) (keeps : act.frees = false)
      (here : dev.pc.settingUp = true) :
      ProcMoves dev act { dev with pc := .oops }
  | modTimer (ret : Option Kernel.Errno) (here : dev.pc = .modTimer ret) :
      ProcMoves dev .modTimer { dev with armed := true, pc := probeReturns ret }
  | release (exit : Exit) (here : dev.pc = .devmRelease exit) :
      ProcMoves dev .devmRelease { dev with freed := true, pc := .gone exit }
  | unregister (change : NetDevice → NetDevice) (here : dev.pc = .bound) :
      ProcMoves dev .unregisterNetdev
        { dev with netdev := dev.netdev.write change, pc := .freeNetdev }
  | freeNetdev (here : dev.pc = .freeNetdev) :
      ProcMoves dev .freeNetdev { dev with netdev := .freed, pc := .delTimer }
  | delTimer (here : dev.pc = .delTimer) (waited : dev.timer = .idle) :
      ProcMoves dev .delTimerSync
        { dev with armed := false, pc := .devmRelease .removed }

@[simp]
theorem NetdevPtr.write_id (netdev : NetdevPtr) :
    netdev.write (fun same => same) = netdev := by
  cases netdev <;> rfl

/-- A step which does not write to the device. -/
theorem ProcMoves.setup_same {dev : S10hssi} (act : ProcAct) (pc : ProcPc)
    (keeps : act.frees = false) (here : dev.pc.settingUp = true)
    (there : pc.settingUp = true) :
    ProcMoves dev act { dev with pc := pc } := by
  have moves := ProcMoves.setup act (fun same => same) pc keeps here there
  rwa [NetdevPtr.write_id] at moves

theorem procMoves_readCapability {dev : S10hssi} (val : BitVec 64)
    (here : dev.pc.settingUp = true) :
    ProcMoves dev (.readq val) (readCapability dev val) := by
  unfold readCapability
  dsimp only
  split
  · exact .setup _ _ _ rfl here rfl
  · split
    · exact .setup_same _ _ rfl here rfl
    · exact .setupFails _ rfl here

theorem procMoves_of_procStep {dev next : S10hssi} {act : ProcAct}
    (steps : procStep dev act = some next) : ProcMoves dev act next := by
  unfold procStep at steps
  split at steps
  case h_1 ok here =>
    obtain rfl := Option.some.inj steps
    cases ok with
    | true => exact .early _ _ rfl (by rw [here]; rfl) rfl
    | false => exact .noData here
  case h_2 here =>
    obtain rfl := Option.some.inj steps
    exact .earlyFails _ rfl (by rw [here]; rfl)
  case h_3 here =>
    obtain rfl := Option.some.inj steps
    exact .early _ _ rfl (by rw [here]; rfl) rfl
  case h_4 here =>
    obtain rfl := Option.some.inj steps
    exact .earlyFails _ rfl (by rw [here]; rfl)
  case h_5 here =>
    obtain rfl := Option.some.inj steps
    exact .alloc _ here
  case h_6 here =>
    obtain rfl := Option.some.inj steps
    exact procMoves_readCapability _ (by rw [here]; rfl)
  case h_7 here =>
    obtain rfl := Option.some.inj steps
    exact .oops _ rfl (by rw [here]; rfl)
  case h_8 here =>
    obtain rfl := Option.some.inj steps
    exact .setupFails _ rfl (by rw [here]; rfl)
  case h_9 here =>
    obtain rfl := Option.some.inj steps
    exact .setup _ _ _ rfl (by rw [here]; rfl) rfl
  case h_10 here =>
    split at steps
    · obtain rfl := Option.some.inj steps
      exact .setupFails _ rfl (by rw [here]; rfl)
    · obtain rfl := Option.some.inj steps
      exact .setup_same _ _ rfl (by rw [here]; rfl) rfl
  case h_11 here =>
    obtain rfl := Option.some.inj steps
    exact .setup_same _ _ rfl (by rw [here]; rfl) rfl
  case h_12 here =>
    obtain rfl := Option.some.inj steps
    exact .oops _ rfl (by rw [here]; rfl)
  case h_13 here =>
    obtain rfl := Option.some.inj steps
    exact .setup _ _ _ rfl (by rw [here]; rfl) rfl
  case h_14 here =>
    obtain rfl := Option.some.inj steps
    exact .setup _ _ _ rfl (by rw [here]; rfl) rfl
  case h_15 here =>
    obtain rfl := Option.some.inj steps
    exact .modTimer _ here
  case h_16 here =>
    obtain rfl := Option.some.inj steps
    exact .release _ here
  case h_17 here =>
    obtain rfl := Option.some.inj steps
    exact .unregister _ here
  case h_18 here =>
    obtain rfl := Option.some.inj steps
    exact .freeNetdev here
  case h_19 here =>
    split at steps
    case isTrue waited =>
      obtain rfl := Option.some.inj steps
      exact .delTimer here waited
    case isFalse => cases steps
  case h_20 => cases steps

/-! ## Steps of the timer and of the work -/

/-- The steps of the timer. -/
inductive TimerMoves (dev : S10hssi) : TimerAct → S10hssi → Prop where
  | expire (here : dev.timer = .idle) (due : dev.armed = true) :
      TimerMoves dev .expire { dev with armed := false, timer := .scheduleWork }
  | scheduleWork (here : dev.timer = .scheduleWork) :
      TimerMoves dev .scheduleWork { dev with pending := true, timer := .modTimer }
  | modTimer (here : dev.timer = .modTimer) :
      TimerMoves dev .modTimer { dev with armed := true, timer := .idle }

theorem timerMoves_of_timerStep {dev next : S10hssi} {act : TimerAct}
    (steps : timerStep dev act = some next) : TimerMoves dev act next := by
  unfold timerStep at steps
  split at steps
  case h_1 here =>
    split at steps
    case isTrue due => exact Option.some.inj steps ▸ .expire here due
    case isFalse => cases steps
  case h_2 here => exact Option.some.inj steps ▸ .scheduleWork here
  case h_3 here => exact Option.some.inj steps ▸ .modTimer here
  case h_4 => cases steps

/-- The steps of the work. -/
inductive WorkMoves (dev : S10hssi) : WorkAct → S10hssi → Prop where
  | start (here : dev.work = .idle) (due : dev.pending = true) :
      WorkMoves dev .start { dev with pending := false, work := .read }
  | read (val : Option (BitVec 32)) (linkStatus : BitVec 32)
      (here : dev.work = .read) :
      WorkMoves dev (.read val) { dev with work := .update linkStatus }
  | update (linkStatus : BitVec 32) (change : NetDevice → NetDevice)
      (here : dev.work = .update linkStatus) :
      WorkMoves dev .update
        { dev with netdev := dev.netdev.write change, work := .idle }

theorem workMoves_of_workStep {dev next : S10hssi} {act : WorkAct}
    (steps : workStep dev act = some next) : WorkMoves dev act next := by
  unfold workStep at steps
  split at steps
  case h_1 here =>
    split at steps
    case isTrue due => exact Option.some.inj steps ▸ .start here due
    case isFalse => cases steps
  case h_2 here =>
    split at steps <;> exact Option.some.inj steps ▸ .read _ _ here
  case h_3 here => exact Option.some.inj steps ▸ .update _ _ here
  case h_4 => cases steps

/-! ## What is known of a device -/

/-- Nothing is armed, pending or running. -/
structure Quiet (armed pending : Bool) (timer : TimerPc) (work : WorkPc) :
    Prop where
  armed : armed = false
  pending : pending = false
  timer : timer = .idle
  work : work = .idle

namespace NetdevPtr

/-- The network device is allocated. -/
def isValid : NetdevPtr → Bool
  | valid _ => true
  | null | freed => false

@[simp]
theorem isValid_write (netdev : NetdevPtr) (change : NetDevice → NetDevice) :
    (netdev.write change).isValid = netdev.isValid := by
  cases netdev <;> rfl

@[simp]
theorem write_eq_null_iff (netdev : NetdevPtr)
    (change : NetDevice → NetDevice) :
    netdev.write change = .null ↔ netdev = .null := by
  cases netdev <;> simp [write]

@[simp]
theorem write_eq_freed_iff (netdev : NetdevPtr)
    (change : NetDevice → NetDevice) :
    netdev.write change = .freed ↔ netdev = .freed := by
  cases netdev <;> simp [write]

theorem ne_freed_of_isValid {netdev : NetdevPtr}
    (valid : netdev.isValid = true) : netdev ≠ .freed := by
  rintro rfl
  cases valid

theorem ne_null_of_isValid {netdev : NetdevPtr}
    (valid : netdev.isValid = true) : netdev ≠ .null := by
  rintro rfl
  cases valid

theorem isValid_iff {netdev : NetdevPtr} :
    netdev.isValid = true ↔ netdev ≠ .null ∧ netdev ≠ .freed := by
  cases netdev <;> simp [isValid]

end NetdevPtr

section Places

variable (netdev : NetdevPtr) (armed pending : Bool) (timer : TimerPc)
variable (work : WorkPc)

/-- What is known by the place of the thread. -/
def KnownAt : ProcPc → Prop
  | .kzalloc | .ioremap | .allocNetdev _ | .gone .failed =>
      Quiet armed pending timer work ∧ netdev = .null
  | .readq _ | .kmalloc _ | .regmapInit | .ethtoolReset _ | .registerNetdev
  | .carrierOff _ | .modTimer _ =>
      Quiet armed pending timer work ∧ netdev.isValid = true
  | .bound | .freeNetdev => netdev.isValid = true
  | .delTimer =>
      netdev = .freed ∧ pending = false ∧ timer = .idle ∧ work = .idle
  | .devmRelease .failed =>
      netdev ≠ .freed ∧ (netdev = .null → Quiet armed pending timer work)
  | .devmRelease .removed | .gone .removed | .oops =>
      Quiet armed pending timer work

variable {netdev armed pending timer work} {pc : ProcPc}

theorem knownAt_iff_of_early (early : pc.early = true) :
    KnownAt netdev armed pending timer work pc ↔
      Quiet armed pending timer work ∧ netdev = .null := by
  cases pc <;> first | exact Iff.rfl | cases early

theorem knownAt_iff_of_settingUp (settingUp : pc.settingUp = true) :
    KnownAt netdev armed pending timer work pc ↔
      Quiet armed pending timer work ∧ netdev.isValid = true := by
  cases pc <;> first | exact Iff.rfl | cases settingUp

/-- Where the thread is while something is armed, pending or running. -/
inductive Busy (netdev : NetdevPtr) (pending : Bool) (timer : TimerPc)
    (work : WorkPc) : ProcPc → Prop where
  | bound (valid : netdev.isValid = true) : Busy netdev pending timer work .bound
  | freeNetdev (valid : netdev.isValid = true) :
      Busy netdev pending timer work .freeNetdev
  | failed (valid : netdev.isValid = true) :
      Busy netdev pending timer work (.devmRelease .failed)
  | delTimer (rest : pending = false ∧ timer = .idle ∧ work = .idle) :
      Busy netdev pending timer work .delTimer

theorem KnownAt.busy (known : KnownAt netdev armed pending timer work pc)
    (notQuiet : ¬ Quiet armed pending timer work) :
    Busy netdev pending timer work pc := by
  cases pc with
  | bound => exact .bound known
  | freeNetdev => exact .freeNetdev known
  | delTimer => exact .delTimer known.2
  | devmRelease exit =>
      cases exit with
      | removed => exact absurd known notQuiet
      | failed =>
          exact .failed (NetdevPtr.isValid_iff.mpr
            ⟨fun null => notQuiet (known.2 null), known.1⟩)
  | gone exit =>
      cases exit with
      | removed => exact absurd known notQuiet
      | failed => exact absurd known.1 notQuiet
  | oops => exact absurd known notQuiet
  | _ => exact absurd known.1 notQuiet

/-- What runs is there as long as the network device is. -/
theorem KnownAt.running
    (known : KnownAt netdev armed pending timer work pc)
    (runs : timer ≠ .idle ∨ work ≠ .idle) :
    netdev ≠ .freed ∧ ∀ exit, pc ≠ .gone exit := by
  have notQuiet : ¬ Quiet armed pending timer work := fun quiet =>
    runs.elim (· quiet.timer) (· quiet.work)
  cases known.busy notQuiet with
  | bound valid => exact ⟨NetdevPtr.ne_freed_of_isValid valid, nofun⟩
  | freeNetdev valid => exact ⟨NetdevPtr.ne_freed_of_isValid valid, nofun⟩
  | failed valid => exact ⟨NetdevPtr.ne_freed_of_isValid valid, nofun⟩
  | delTimer rest => exact absurd runs (by simp [rest])

/-- Unless all is quiet, nothing is known of the timer and of the work. -/
theorem KnownAt.stir
    (known : KnownAt netdev armed pending timer work pc)
    (notQuiet : ¬ Quiet armed pending timer work) (before : pc ≠ .delTimer)
    (armed' pending' : Bool) (timer' : TimerPc) (work' : WorkPc) :
    KnownAt netdev armed' pending' timer' work' pc := by
  cases known.busy notQuiet with
  | bound valid => exact valid
  | freeNetdev valid => exact valid
  | failed valid =>
      exact ⟨NetdevPtr.ne_freed_of_isValid valid,
        fun null => absurd null (NetdevPtr.ne_null_of_isValid valid)⟩
  | delTimer => exact absurd rfl before

theorem KnownAt.write
    (known : KnownAt netdev armed pending timer work pc)
    (change : NetDevice → NetDevice) :
    KnownAt (netdev.write change) armed pending timer work pc := by
  unfold KnownAt at known ⊢
  split <;> simpa using known

end Places

/-- What is known of a device while nothing has gone wrong. -/
structure Known (dev : S10hssi) : Prop where
  place : KnownAt dev.netdev dev.armed dev.pending dev.timer dev.work dev.pc
  freed : dev.freed = true → ∃ exit, dev.pc = .gone exit

/-- What is asked of a device. -/
structure Sound (dev : S10hssi) : Prop where
  /-- Neither the timer nor the work runs once something is freed. -/
  alive :
    dev.timer ≠ .idle ∨ dev.work ≠ .idle →
      dev.freed = false ∧ dev.netdev ≠ .freed
  /-- A failed probe leaves nothing behind. -/
  undone :
    dev.pc = .gone .failed →
      dev.armed = false ∧ dev.pending = false ∧ dev.netdev.isValid = false

/-- The device is sound, also if a worker takes its work now. -/
def SoundOnward (dev : S10hssi) : Prop :=
  Sound dev ∧ ∀ next, workStep dev .start = some next → Sound next

/-- Something which is used, or may be, loses its memory or its owner. -/
def spoils (dev : S10hssi) : HssiAct → Bool
  -- a failed probe is past the allocation of its network device
  | .proc .devmRelease =>
      dev.pc = .devmRelease .failed && decide (dev.netdev ≠ .null)
  -- the link is being polled when the network device is freed
  | .proc .freeNetdev =>
      dev.timer ≠ .idle || dev.work ≠ .idle || dev.pending
  -- the timer expires before it is deleted
  | .timer .expire => dev.pc = .delTimer
  | _ => false

/-- The condition on the steps of a device. -/
def Meets (dev : S10hssi) (act : HssiAct) : Prop := spoils dev act = false

instance (dev : S10hssi) (act : HssiAct) : Decidable (Meets dev act) :=
  inferInstanceAs (Decidable (_ = _))

theorem meets_of_keeps {act : ProcAct} (dev : S10hssi)
    (keeps : act.frees = false) : Meets dev (.proc act) := by
  cases act <;> first | rfl | cases keeps

theorem Known.sound {dev : S10hssi} (known : Known dev) : Sound dev where
  alive running := by
    obtain ⟨netdev, before⟩ := known.place.running running
    refine ⟨?_, netdev⟩
    by_contra freed
    obtain ⟨exit, gone⟩ := known.freed (Bool.eq_true_of_not_eq_false freed)
    exact before exit gone
  undone failed := by
    have place := known.place
    rw [failed] at place
    obtain ⟨quiet, null⟩ := place
    rw [null]
    exact ⟨quiet.armed, quiet.pending, rfl⟩

theorem known_toProbe : Known toProbe where
  place := ⟨⟨rfl, rfl, rfl, rfl⟩, rfl⟩
  freed := nofun

/-! ## What a step keeps -/

section Steps

variable {dev next : S10hssi}

theorem ProcMoves.place {act : ProcAct} (moves : ProcMoves dev act next)
    (known : KnownAt dev.netdev dev.armed dev.pending dev.timer dev.work dev.pc)
    (meets : Meets dev (.proc act)) :
    KnownAt next.netdev next.armed next.pending next.timer next.work
      next.pc := by
  cases moves with
  | noData here =>
      rw [here] at known
      exact known
  | early _ pc keeps here there =>
      rw [knownAt_iff_of_early here] at known
      exact (knownAt_iff_of_early there).mpr known
  | earlyFails _ keeps here =>
      obtain ⟨quiet, null⟩ := (knownAt_iff_of_early here).mp known
      refine ⟨?_, fun _ => quiet⟩
      rw [null]
      exact nofun
  | alloc base here =>
      rw [here] at known
      exact ⟨known.1, rfl⟩
  | setup _ change pc keeps here there =>
      obtain ⟨quiet, valid⟩ := (knownAt_iff_of_settingUp here).mp known
      refine (knownAt_iff_of_settingUp there).mpr ⟨quiet, ?_⟩
      rwa [NetdevPtr.isValid_write]
  | setupFails _ keeps here =>
      obtain ⟨quiet, valid⟩ := (knownAt_iff_of_settingUp here).mp known
      exact ⟨NetdevPtr.ne_freed_of_isValid valid, fun _ => quiet⟩
  | oops _ keeps here => exact ((knownAt_iff_of_settingUp here).mp known).1
  | modTimer ret here =>
      rw [here] at known
      cases ret with
      | none => exact known.2
      | some ret =>
          exact ⟨NetdevPtr.ne_freed_of_isValid known.2,
            fun null => absurd null (NetdevPtr.ne_null_of_isValid known.2)⟩
  | release exit here =>
      rw [here] at known
      cases exit with
      | removed => exact known
      | failed =>
          have null : dev.netdev = .null := by
            simpa [Meets, spoils, here] using meets
          exact ⟨known.2 null, null⟩
  | unregister change here =>
      rw [here] at known
      exact (NetdevPtr.isValid_write _ _).trans known
  | freeNetdev here =>
      obtain ⟨⟨timer, work⟩, pending⟩ :
          (dev.timer = .idle ∧ dev.work = .idle) ∧ dev.pending = false := by
        simpa [Meets, spoils] using meets
      exact ⟨rfl, pending, timer, work⟩
  | delTimer here waited =>
      rw [here] at known
      obtain ⟨-, pending, timer, work⟩ := known
      exact ⟨rfl, pending, timer, work⟩

theorem ProcMoves.freed {act : ProcAct} (moves : ProcMoves dev act next)
    (freed : dev.freed = true → ∃ exit, dev.pc = .gone exit) :
    next.freed = true → ∃ exit, next.pc = .gone exit := by
  intro gone
  cases moves with
  | noData here => exact ⟨_, rfl⟩
  | release exit here => exact ⟨exit, rfl⟩
  | _ =>
      obtain ⟨exit, there⟩ := freed gone
      simp_all [ProcPc.early, ProcPc.settingUp]

theorem TimerMoves.place {act : TimerAct} (moves : TimerMoves dev act next)
    (known : KnownAt dev.netdev dev.armed dev.pending dev.timer dev.work dev.pc)
    (meets : Meets dev (.timer act)) :
    KnownAt next.netdev next.armed next.pending next.timer next.work
      next.pc := by
  cases moves with
  | expire here due =>
      have before : dev.pc ≠ .delTimer := by
        simpa [Meets, spoils] using meets
      exact known.stir (fun quiet => nomatch due.symm.trans quiet.armed)
        before _ _ _ _
  | scheduleWork here =>
      refine known.stir (fun quiet => nomatch here.symm.trans quiet.timer)
        (fun there => ?_) _ _ _ _
      rw [there] at known
      cases here.symm.trans known.2.2.1
  | modTimer here =>
      refine known.stir (fun quiet => nomatch here.symm.trans quiet.timer)
        (fun there => ?_) _ _ _ _
      rw [there] at known
      cases here.symm.trans known.2.2.1

theorem TimerMoves.same {act : TimerAct} (moves : TimerMoves dev act next) :
    next.pc = dev.pc ∧ next.freed = dev.freed ∧ next.netdev = dev.netdev := by
  cases moves <;> exact ⟨rfl, rfl, rfl⟩

theorem WorkMoves.place {act : WorkAct} (moves : WorkMoves dev act next)
    (known :
      KnownAt dev.netdev dev.armed dev.pending dev.timer dev.work dev.pc) :
    KnownAt next.netdev next.armed next.pending next.timer next.work
      next.pc := by
  cases moves with
  | start here due =>
      refine known.stir (fun quiet => nomatch due.symm.trans quiet.pending)
        (fun there => ?_) _ _ _ _
      rw [there] at known
      cases due.symm.trans known.2.1
  | read val linkStatus here =>
      refine known.stir (fun quiet => nomatch here.symm.trans quiet.work)
        (fun there => ?_) _ _ _ _
      rw [there] at known
      cases here.symm.trans known.2.2.2
  | update linkStatus change here =>
      refine (known.write change).stir
        (fun quiet => nomatch here.symm.trans quiet.work)
        (fun there => ?_) _ _ _ _
      rw [there] at known
      cases here.symm.trans known.2.2.2

theorem WorkMoves.same {act : WorkAct} (moves : WorkMoves dev act next) :
    next.pc = dev.pc ∧ next.freed = dev.freed := by
  cases moves <;> exact ⟨rfl, rfl⟩

theorem Known.step {act : HssiAct} (known : Known dev)
    (meets : Meets dev act) (steps : hssiStep dev act = some next) :
    Known next := by
  cases act with
  | proc act =>
      have moves := procMoves_of_procStep steps
      exact ⟨moves.place known.place meets, moves.freed known.freed⟩
  | timer act =>
      have moves := timerMoves_of_timerStep steps
      obtain ⟨pc, freed, -⟩ := moves.same
      refine ⟨moves.place known.place meets, ?_⟩
      rw [pc, freed]
      exact known.freed
  | work act =>
      have moves := workMoves_of_workStep steps
      obtain ⟨pc, freed⟩ := moves.same
      refine ⟨moves.place known.place, ?_⟩
      rw [pc, freed]
      exact known.freed

theorem Known.soundOnward (known : Known dev) : SoundOnward dev := by
  have meets : Meets dev (.work .start) := rfl
  exact ⟨known.sound, fun _ starts => (known.step meets starts).sound⟩

/-- A step which does not meet the condition leaves the device unsound. -/
theorem Known.lost {act : HssiAct} (known : Known dev)
    (misses : ¬ Meets dev act) (steps : hssiStep dev act = some next) :
    ¬ SoundOnward next := by
  rintro ⟨sound, onward⟩
  cases act with
  | proc act =>
      cases procMoves_of_procStep steps with
      | release exit here =>
          obtain ⟨failed, notNull⟩ :
              dev.pc = .devmRelease .failed ∧ dev.netdev ≠ .null := by
            simpa [Meets, spoils] using misses
          have place := known.place
          rw [failed] at place
          obtain rfl : exit = .failed :=
            ProcPc.devmRelease.inj (here.symm.trans failed)
          have left := (sound.undone rfl).2.2
          cases left.symm.trans
            (NetdevPtr.isValid_iff.mpr ⟨notNull, place.1⟩)
      | freeNetdev here =>
          by_cases rest : dev.timer = .idle ∧ dev.work = .idle
          · -- the work is pending, and starts when the device is freed
            have pending : dev.pending = true := by
              simpa [Meets, spoils, rest] using misses
            have started := onward
              { dev with
                netdev := .freed
                pending := false
                pc := .delTimer
                work := .read }
              (by simp [workStep, rest, pending])
            exact (started.alive (.inr nofun)).2 rfl
          · exact (sound.alive (by simpa [imp_iff_not_or] using rest)).2 rfl
      | noData here => exact misses rfl
      | alloc base here => exact misses rfl
      | modTimer ret here => exact misses rfl
      | unregister change here => exact misses rfl
      | delTimer here waited => exact misses rfl
      | early _ pc keeps here there => exact misses (meets_of_keeps dev keeps)
      | earlyFails _ keeps here => exact misses (meets_of_keeps dev keeps)
      | setup _ change pc keeps here there =>
          exact misses (meets_of_keeps dev keeps)
      | setupFails _ keeps here => exact misses (meets_of_keeps dev keeps)
      | oops _ keeps here => exact misses (meets_of_keeps dev keeps)
  | timer act =>
      cases timerMoves_of_timerStep steps with
      | expire here due =>
          have there : dev.pc = .delTimer := by
            simpa [Meets, spoils] using misses
          have place := known.place
          rw [there] at place
          exact (sound.alive (.inl nofun)).2 place.1
      | scheduleWork here => exact misses rfl
      | modTimer here => exact misses rfl
  | work act => exact misses rfl

end Steps

/-! ## Runs -/

/--
All devices are sound throughout a run of the driver, whichever of the works
is taken next, if and only if no probe fails once its network device is
allocated, the link is not being polled when a network device is freed, and
no timer expires between that and its deletion.
-/
theorem everyDevice_sound_iff
    {path : List (Act Unit HssiAct × List S10hssi)}
    (isPath : IsPath
      (fun devs label later => driverStep devs label = some later) [] path) :
    Throughout (EachParty SoundOnward) [] path ↔
      StepsMeet (MoverMeets Meets) [] path :=
  throughout_eachParty_iff (fun _ => known_toProbe)
    (fun _ => Known.soundOnward) (fun _ _ _ => Known.step)
    (fun _ _ _ => Known.lost) isPath

/-- The probe of a 10G device, up to what `register_netdev` returns. -/
def probeTo10g (register : Option Kernel.Errno) : List HssiAct :=
  [.proc (.kzalloc true), .proc (.ioremap .valid), .proc (.allocNetdev true),
    .proc (.readq 0x200), .proc (.regmapInit ⟨true, none⟩),
    .proc (.ethtoolReset none), .proc (.registerNetdev register),
    .proc .carrierOff, .proc .modTimer]

/-- The link is polled once. -/
def pollOnce : List HssiAct :=
  [.timer .expire, .timer .scheduleWork, .timer .modTimer, .work .start,
    .work (.read (some 3)), .work .update]

/-- A device is probed, polled and removed. -/
def polledRun : List (Act Unit HssiAct) :=
  .join () :: byFirst
    (probeTo10g none ++ pollOnce ++
      [.proc .unregisterNetdev, .proc .freeNetdev, .proc .delTimerSync,
        .proc .devmRelease])

theorem polledRun_sound :
    Throughout (EachParty SoundOnward) []
      (pathOf (orSame driverStep) [] polledRun) :=
  (everyDevice_sound_iff (isPath_of_allTaken (by decide))).mpr
    (stepsMeet_of_enabledAlong (by decide))

/-- `register_netdev` fails, and the timer expires later. -/
def unregistered : List (Act Unit HssiAct) :=
  .join () :: byFirst
    (probeTo10g (some .enomem) ++ [.proc .devmRelease, .timer .expire])

theorem unregistered_not_sound :
    ¬ ∀ path : List (Act Unit HssiAct × List S10hssi),
      IsPath (fun devs label later => driverStep devs label = some later)
          [] path →
        Throughout (EachParty Sound) [] path := by
  intro sound
  have along := sound (pathOf (orSame driverStep) [] unregistered)
    (isPath_of_allTaken (by decide))
  obtain ⟨dev, member, running, freed⟩ :
      ∃ dev ∈ unregistered.foldl (orSame driverStep) [],
        dev.timer ≠ .idle ∧ dev.freed = true := by
    decide
  cases freed.symm.trans ((along.final dev member).alive (.inl running)).1

end LinuxDfl.Net.S10Hssi

import LinuxDfl.Bmc.LogSync

/-!
# When the work of the BMC log is armed

The work of a log is armed at most while the device is bound with a frequency
other than zero, and its delay is the frequency in jiffies.  Two things break
this: a memory of a log with events which cannot be registered, as the failed
probe does not cancel the work, and a frequency whose delay does not fit into
32 bits.
-/

namespace LinuxDfl.Bmc.LogSync

open LinuxDfl.Lib.Population
open LinuxDfl.Lib.Transition

/-! ## Steps of the threads -/

/-- The steps of the thread of the device. -/
inductive ProcMoves (HZ : Nat) (log : M10bmcLog) :
    ProcAct → M10bmcLog → Prop where
  | kzalloc (ok : Bool) (here : log.pc = .kzalloc) :
      ProcMoves HZ log (.kzalloc ok)
        { log with pc := if ok then .idaSimpleGet else .gone }
  | noId (here : log.pc = .idaSimpleGet) :
      ProcMoves HZ log (.idaSimpleGet none)
        { log with pc := .devmRelease .noId }
  | newId (id : Nat) (here : log.pc = .idaSimpleGet) :
      ProcMoves HZ log (.idaSimpleGet (some id))
        { log with id := some id, pc := .init }
  | init (here : log.pc = .init) :
      ProcMoves HZ log .init
        { log with
          freqS := m10bmcTimestampFreq
          pc := fromEventLog log.logCfg }
  | writeTime (caller : Caller) (timeMs : BitVec 64)
      (high : Option Kernel.Errno) (here : log.pc = .writeTime caller) :
      ProcMoves HZ log (.writeTime timeMs high)
        { log with
          written := log.written ++ timeWrites timeMs high
          pc := .schedule caller }
  | schedule (caller : Caller) (here : log.pc = .schedule caller) :
      ProcMoves HZ log .schedule
        { log.scheduleDelayedWork HZ log.freqS with pc := caller.back }
  | registerFails (nvmem : Nvmem) (ret : Kernel.Errno)
      (here : log.pc = .nvmemRegister nvmem) :
      ProcMoves HZ log (.nvmemRegister (some ret))
        { log with pc := .errorExit }
  | registered (nvmem : Nvmem) (here : log.pc = .nvmemRegister nvmem) :
      ProcMoves HZ log (.nvmemRegister none)
        { log with pc := nvmem.next log.logCfg }
  | errorExit (here : log.pc = .errorExit) :
      ProcMoves HZ log .idaSimpleRemove
        { log with
          idaRemoves := log.idaRemoves + 1
          pc := .devmRelease .failed }
  | release (exit : Exit) (here : log.pc = .devmRelease exit) :
      ProcMoves HZ log .devmRelease { log with freed := true, pc := .gone }
  | storeFails (ret : Kernel.Errno) (here : log.pc = .bound) :
      ProcMoves HZ log (.store (.error ret)) log
  | store (freq : BitVec 32) (here : log.pc = .bound) :
      ProcMoves HZ log (.store (.ok freq))
        { log with
          freqS := freq
          pc := if log.freqS = 0 then resync freq else .storeCancel }
  | storeCancel (here : log.pc = .storeCancel) :
      ProcMoves HZ log .cancel
        { log with pending := false, pc := .storeFlush }
  | storeFlush (here : log.pc = .storeFlush) (waited : log.work = .idle) :
      ProcMoves HZ log .flush { log with pc := resync log.freqS }
  | remove (here : log.pc = .bound) :
      ProcMoves HZ log .remove
        { log with idaRemoves := log.idaRemoves + 1, pc := .removeCancel }
  | removeCancel (here : log.pc = .removeCancel) :
      ProcMoves HZ log .cancel
        { log with pending := false, pc := .removeFlush }
  | removeFlush (here : log.pc = .removeFlush) (waited : log.work = .idle) :
      ProcMoves HZ log .flush { log with pc := .devmRelease .removed }

theorem procMoves_of_procStep {HZ : Nat} {log next : M10bmcLog}
    {act : ProcAct} (steps : procStep HZ log act = some next) :
    ProcMoves HZ log act next := by
  unfold procStep at steps
  split at steps
  case h_12 => exact Option.some.inj steps ▸ .store _ ‹_›
  case h_14 =>
    split at steps
    case isTrue waited => exact Option.some.inj steps ▸ .storeFlush ‹_› waited
    case isFalse => cases steps
  case h_17 =>
    split at steps
    case isTrue waited => exact Option.some.inj steps ▸ .removeFlush ‹_› waited
    case isFalse => cases steps
  case h_18 => cases steps
  all_goals
    obtain rfl := Option.some.inj steps
    constructor
    assumption

/-- The steps of the work. -/
inductive WorkMoves (HZ : Nat) (log : M10bmcLog) :
    WorkAct → M10bmcLog → Prop where
  | start (here : log.work = .idle) (due : log.pending = true) :
      WorkMoves HZ log .start
        { log with pending := false, work := .writeTime }
  | writeTime (timeMs : BitVec 64) (high : Option Kernel.Errno)
      (here : log.work = .writeTime) :
      WorkMoves HZ log (.writeTime timeMs high)
        { log with
          written := log.written ++ timeWrites timeMs high
          work := .readFreq }
  | readFreq (here : log.work = .readFreq) :
      WorkMoves HZ log .readFreq { log with work := .schedule log.freqS }
  | schedule (freqS : BitVec 32) (here : log.work = .schedule freqS) :
      WorkMoves HZ log .schedule
        { log.scheduleDelayedWork HZ freqS with work := .idle }

theorem workMoves_of_workStep {HZ : Nat} {log next : M10bmcLog}
    {act : WorkAct} (steps : workStep HZ log act = some next) :
    WorkMoves HZ log act next := by
  unfold workStep at steps
  split at steps
  case h_1 here =>
    split at steps
    case isTrue due => exact Option.some.inj steps ▸ .start here due
    case isFalse => cases steps
  case h_5 => cases steps
  all_goals
    obtain rfl := Option.some.inj steps
    constructor
    assumption

/-! ## What is scheduled -/

section Schedule

variable (HZ : Nat) (log : M10bmcLog) (freqS : BitVec 32)

/-- Scheduling changes whether the work is pending, and what was scheduled. -/
theorem scheduleDelayedWork_eq :
    log.scheduleDelayedWork HZ freqS =
      { log with
        pending := log.pending || log.queueable
        scheduled := log.scheduled ++
          if log.queueable then [(freqS, delayOf HZ freqS)] else [] } := by
  unfold M10bmcLog.scheduleDelayedWork
  cases queueable : log.queueable <;> simp

/-- The delay of a frequency fits into 32 bits. -/
def Fits : Prop := freqS.toNat * HZ < 2 ^ 32

theorem delayOf_eq : delayOf HZ freqS = freqS.toNat * HZ % 2 ^ 32 := by
  rw [delayOf, BitVec.toNat_mul, BitVec.toNat_ofNat, Nat.mul_mod_mod]

theorem delayOf_eq_iff : delayOf HZ freqS = freqS.toNat * HZ ↔ Fits HZ freqS := by
  rw [delayOf_eq, Fits, Nat.mod_eq_iff_lt (by decide)]

example : delayOf 250 17179870 = 204 := by decide

end Schedule

/-- The delays are the frequencies in jiffies. -/
def ExactDelays (HZ : Nat) (scheduled : List (BitVec 32 × Nat)) : Prop :=
  ∀ entry ∈ scheduled, entry.2 = entry.1.toNat * HZ

theorem exactDelays_append_iff {HZ : Nat} {scheduled : List (BitVec 32 × Nat)}
    (exact : ExactDelays HZ scheduled) (queueable : Bool)
    (freqS : BitVec 32) :
    ExactDelays HZ (scheduled ++
        if queueable then [(freqS, delayOf HZ freqS)] else []) ↔
      (queueable = true → Fits HZ freqS) := by
  cases queueable with
  | false => simpa using exact
  | true =>
      rw [← delayOf_eq_iff]
      simp only [ExactDelays, if_true, List.mem_append, List.mem_singleton,
        true_imp_iff]
      constructor
      · intro all
        exact all _ (.inr rfl)
      · rintro same entry (member | rfl)
        · exact exact entry member
        · exact same

/-! ## What is known of a log -/

/-- The work is pending or under way. -/
def Live (pending : Bool) (work : WorkPc) : Prop :=
  pending = true ∨ work ≠ .idle

/-- What the work can be doing, by the place of the thread of the device. -/
def WorkAt (elSize : Int) (freqS : BitVec 32) (pending : Bool)
    (work : WorkPc) : ProcPc → Prop
  | .kzalloc | .idaSimpleGet | .init | .devmRelease .noId
  | .devmRelease .removed | .gone => ¬ Live pending work
  | .writeTime .probe | .schedule .probe =>
      ¬ Live pending work ∧ freqS ≠ 0 ∧ 0 < elSize
  | .writeTime .store | .schedule .store => ¬ Live pending work ∧ freqS ≠ 0
  | .nvmemRegister _ | .errorExit =>
      (Live pending work ↔ 0 < elSize) ∧ freqS ≠ 0
  | .devmRelease .failed => Live pending work ↔ 0 < elSize
  | .bound => Live pending work → freqS ≠ 0
  | .storeCancel | .removeCancel => True
  | .storeFlush | .removeFlush => pending = false

/-- How often an id is removed, by the place of the thread of the device. -/
def IdAt (id : Option Nat) (idaRemoves : Nat) : ProcPc → Prop
  | .kzalloc | .idaSimpleGet | .devmRelease .noId =>
      id = none ∧ idaRemoves = 0
  | .devmRelease .failed | .devmRelease .removed | .removeCancel
  | .removeFlush => id.isSome = true ∧ idaRemoves = 1
  | .gone => idaRemoves = if id.isSome then 1 else 0
  | _ => id.isSome = true ∧ idaRemoves = 0

/-- What is known of a log while nothing has gone wrong. -/
structure Known (HZ : Nat) (log : M10bmcLog) : Prop where
  work : WorkAt log.logCfg.elSize log.freqS log.pending log.work log.pc
  id : IdAt log.id log.idaRemoves log.pc
  delays : ExactDelays HZ log.scheduled
  alive : log.pc ≠ .gone → log.freed = false

/-- What is asked of a log. -/
structure Sound (HZ : Nat) (log : M10bmcLog) : Prop where
  /-- Between operations the work is pending for a frequency only. -/
  pending :
    log.pc.betweenOps = true → log.pending = true →
      log.pc = .bound ∧ log.freqS ≠ 0
  delays : ExactDelays HZ log.scheduled
  /-- The work does not run once the log was freed. -/
  alive : log.work ≠ .idle → log.freed = false
  removedOnce : log.idaRemoves ≤ 1
  /-- An id is removed when its log is gone, and not before the end. -/
  removed :
    log.pc.betweenOps = true →
      log.idaRemoves = if log.pc = .gone ∧ log.id.isSome then 1 else 0

/-- The frequency for which a step arms the work, if it does. -/
def armedFreq (log : M10bmcLog) : LogAct → Option (BitVec 32)
  | .proc .schedule => if log.queueable then some log.freqS else none
  | .work .schedule => if log.queueable then log.work.scheduling else none
  | _ => none

/-- A failed probe releases a log with events. -/
def releasesEvents (log : M10bmcLog) : LogAct → Bool
  | .proc .devmRelease =>
      log.pc = .devmRelease .failed && decide (0 < log.logCfg.elSize)
  | _ => false

/-- The condition on the steps of a log. -/
def Meets (HZ : Nat) (log : M10bmcLog) (act : LogAct) : Prop :=
  (∀ freqS ∈ armedFreq log act, Fits HZ freqS) ∧ releasesEvents log act = false

instance (HZ : Nat) (freqS : BitVec 32) : Decidable (Fits HZ freqS) :=
  inferInstanceAs (Decidable (_ < _))

instance (HZ : Nat) (log : M10bmcLog) (act : LogAct) :
    Decidable (Meets HZ log act) :=
  have := Option.decidableForallMem (p := Fits HZ) (armedFreq log act)
  inferInstanceAs (Decidable (_ ∧ _))

theorem fits_of_proc_iff (HZ : Nat) (log : M10bmcLog) :
    (∀ freqS ∈ armedFreq log (.proc .schedule), Fits HZ freqS) ↔
      (log.queueable = true → Fits HZ log.freqS) := by
  cases queueable : log.queueable <;> simp [armedFreq, queueable]

theorem fits_of_work_iff (HZ : Nat) {log : M10bmcLog} {freqS : BitVec 32}
    (here : log.work = .schedule freqS) :
    (∀ armed ∈ armedFreq log (.work .schedule), Fits HZ armed) ↔
      (log.queueable = true → Fits HZ freqS) := by
  cases queueable : log.queueable <;>
    simp [armedFreq, queueable, here, WorkPc.scheduling]

theorem betweenOps_iff {pc : ProcPc} :
    pc.betweenOps = true ↔ pc = .kzalloc ∨ pc = .bound ∨ pc = .gone := by
  cases pc <;> simp [ProcPc.betweenOps]

theorem IdAt.le_one {id : Option Nat} {idaRemoves : Nat} {pc : ProcPc}
    (at_ : IdAt id idaRemoves pc) : idaRemoves ≤ 1 := by
  cases pc with
  | gone =>
      unfold IdAt at at_
      rw [at_]
      split <;> decide
  | devmRelease exit => cases exit <;> exact at_.2.trans_le (by decide)
  | _ => exact at_.2.trans_le (by decide)

theorem Known.sound {HZ : Nat} {log : M10bmcLog} (known : Known HZ log) :
    Sound HZ log := by
  obtain ⟨work, id, delays, alive⟩ := known
  refine ⟨?_, delays, ?_, id.le_one, ?_⟩
  · intro between pending
    rcases betweenOps_iff.mp between with here | here | here <;>
      rw [here] at work
    · exact absurd (.inl pending) work
    · exact ⟨here, work (.inl pending)⟩
    · exact absurd (.inl pending) work
  · intro running
    refine alive fun gone => ?_
    rw [gone] at work
    exact work (.inr running)
  · intro between
    rcases betweenOps_iff.mp between with here | here | here <;>
      rw [here] at id ⊢
    · exact id.2
    · exact id.2
    · simpa [IdAt] using id

theorem known_toProbe (HZ : Nat) (cfg : M10bmcLogCfg) :
    Known HZ (toProbe cfg) where
  work := by
    rintro (pending | running)
    · cases pending
    · exact running rfl
  id := ⟨rfl, rfl⟩
  delays := fun _ member => nomatch member
  alive _ := rfl

/-! ## Steps of the thread of the device -/

/-- The probe is at a memory, or done. -/
def Registering (pc : ProcPc) : Prop :=
  pc = .bound ∨ ∃ nvmem, pc = .nvmemRegister nvmem

theorem registering_fromBomInfo (cfg : M10bmcLogCfg) :
    Registering (fromBomInfo cfg) := by
  unfold fromBomInfo
  split
  · exact .inr ⟨_, rfl⟩
  · exact .inl rfl

theorem registering_fromImageDirectory (cfg : M10bmcLogCfg) :
    Registering (fromImageDirectory cfg) := by
  unfold fromImageDirectory
  split
  · exact .inr ⟨_, rfl⟩
  · exact registering_fromBomInfo cfg

theorem Nvmem.registering_next (cfg : M10bmcLogCfg) (nvmem : Nvmem) :
    Registering (nvmem.next cfg) := by
  cases nvmem with
  | bmcEventLog => exact registering_fromImageDirectory cfg
  | fpgaImageDirectory => exact registering_fromBomInfo cfg
  | bomInfo => exact .inl rfl

theorem Registering.workAt {pc : ProcPc} (registering : Registering pc)
    {elSize : Int} {freqS : BitVec 32} {pending : Bool} {work : WorkPc}
    (live : Live pending work ↔ 0 < elSize) (nonzero : freqS ≠ 0) :
    WorkAt elSize freqS pending work pc := by
  obtain rfl | ⟨nvmem, rfl⟩ := registering
  · exact fun _ => nonzero
  · exact ⟨live, nonzero⟩

theorem Registering.idAt {pc : ProcPc} (registering : Registering pc)
    {id : Option Nat} {idaRemoves : Nat}
    (held : id.isSome = true ∧ idaRemoves = 0) : IdAt id idaRemoves pc := by
  obtain rfl | ⟨nvmem, rfl⟩ := registering
  · exact held
  · exact held

theorem workAt_resync {elSize : Int} {freqS : BitVec 32} {pending : Bool}
    {work : WorkPc} (rest : ¬ Live pending work) :
    WorkAt elSize freqS pending work (resync freqS) := by
  unfold resync
  split
  case isTrue => exact fun live => absurd live rest
  case isFalse nonzero => exact ⟨rest, nonzero⟩

theorem idAt_resync {id : Option Nat} {idaRemoves : Nat}
    (held : id.isSome = true ∧ idaRemoves = 0) (freqS : BitVec 32) :
    IdAt id idaRemoves (resync freqS) := by
  unfold resync
  split <;> exact held

section Process

variable {HZ : Nat} {log next : M10bmcLog} {act : ProcAct}

theorem ProcMoves.workAt (moves : ProcMoves HZ log act next)
    (work : WorkAt log.logCfg.elSize log.freqS log.pending log.work log.pc)
    (meets : Meets HZ log (.proc act)) :
    WorkAt next.logCfg.elSize next.freqS next.pending next.work next.pc := by
  cases moves with
  | kzalloc ok here =>
      rw [here] at work
      cases ok <;> exact work
  | noId here =>
      rw [here] at work
      exact work
  | newId id here =>
      rw [here] at work
      exact work
  | init here =>
      rw [here] at work
      dsimp only
      unfold fromEventLog
      split
      case isTrue events => exact ⟨work, by decide, events⟩
      case isFalse none =>
        exact (registering_fromImageDirectory _).workAt
          (iff_of_false work none) (by decide)
  | writeTime caller timeMs high here =>
      rw [here] at work
      cases caller <;> exact work
  | schedule caller here =>
      rw [here] at work
      rw [scheduleDelayedWork_eq]
      have queueable : log.queueable = true := by
        cases caller <;>
          simp_all [WorkAt, Live, M10bmcLog.queueable, ProcPc.canceling]
      dsimp only
      rw [queueable, Bool.or_true]
      cases caller with
      | probe => exact ⟨iff_of_true (.inl rfl) work.2.2, work.2.1⟩
      | store => exact fun _ => work.2
  | registerFails nvmem ret here =>
      rw [here] at work
      exact work
  | registered nvmem here =>
      rw [here] at work
      exact (nvmem.registering_next _).workAt work.1 work.2
  | errorExit here =>
      rw [here] at work
      exact work.1
  | release exit here =>
      rw [here] at work
      cases exit with
      | noId => exact work
      | removed => exact work
      | failed =>
          intro live
          have released := meets.2
          simp [releasesEvents, here, work.mp live] at released
  | storeFails ret here => exact work
  | store freq here =>
      rw [here] at work
      dsimp only
      split
      case isTrue zero => exact workAt_resync fun live => work live zero
      case isFalse => trivial
  | storeCancel here => rfl
  | storeFlush here waited =>
      rw [here] at work
      refine workAt_resync ?_
      rintro (pending | running)
      · cases work.symm.trans pending
      · exact running waited
  | remove here => trivial
  | removeCancel here => rfl
  | removeFlush here waited =>
      rw [here] at work
      rintro (pending | running)
      · cases work.symm.trans pending
      · exact running waited

theorem ProcMoves.idAt (moves : ProcMoves HZ log act next)
    (id : IdAt log.id log.idaRemoves log.pc) :
    IdAt next.id next.idaRemoves next.pc := by
  cases moves with
  | kzalloc ok here =>
      rw [here] at id
      obtain ⟨none, zero⟩ := id
      cases ok with
      | true => exact ⟨none, zero⟩
      | false =>
          show log.idaRemoves = if log.id.isSome then 1 else 0
          rw [none, zero]
          rfl
  | noId here =>
      rw [here] at id
      exact id
  | newId new here =>
      rw [here] at id
      exact ⟨rfl, id.2⟩
  | init here =>
      rw [here] at id
      dsimp only
      unfold fromEventLog
      split
      · exact id
      · exact (registering_fromImageDirectory _).idAt id
  | writeTime caller timeMs high here =>
      rw [here] at id
      exact id
  | schedule caller here =>
      rw [here] at id
      rw [scheduleDelayedWork_eq]
      cases caller <;> exact id
  | registerFails nvmem ret here =>
      rw [here] at id
      exact id
  | registered nvmem here =>
      rw [here] at id
      exact (nvmem.registering_next _).idAt id
  | errorExit here =>
      rw [here] at id
      exact ⟨id.1, congrArg (· + 1) id.2⟩
  | release exit here =>
      rw [here] at id
      show log.idaRemoves = if log.id.isSome then 1 else 0
      cases exit <;> simp [id.1, id.2]
  | storeFails ret here => exact id
  | store freq here =>
      rw [here] at id
      dsimp only
      split
      · exact idAt_resync id freq
      · exact id
  | storeCancel here =>
      rw [here] at id
      exact id
  | storeFlush here waited =>
      rw [here] at id
      exact idAt_resync id log.freqS
  | remove here =>
      rw [here] at id
      exact ⟨id.1, congrArg (· + 1) id.2⟩
  | removeCancel here =>
      rw [here] at id
      exact id
  | removeFlush here waited =>
      rw [here] at id
      exact id

theorem ProcMoves.exactDelays (moves : ProcMoves HZ log act next)
    (delays : ExactDelays HZ log.scheduled)
    (meets : Meets HZ log (.proc act)) : ExactDelays HZ next.scheduled := by
  cases moves with
  | schedule caller here =>
      rw [scheduleDelayedWork_eq]
      exact (exactDelays_append_iff delays _ _).mpr
        ((fits_of_proc_iff HZ log).mp meets.1)
  | _ => exact delays

theorem ProcMoves.alive (moves : ProcMoves HZ log act next)
    (alive : log.pc ≠ .gone → log.freed = false) :
    next.pc ≠ .gone → next.freed = false := by
  intro there
  cases moves with
  | release exit here => exact absurd rfl there
  | storeFails ret here => exact alive there
  | schedule caller here =>
      rw [scheduleDelayedWork_eq]
      exact alive (by rw [here]; exact nofun)
  | _ => exact alive (by simp [*])

end Process

/-! ## Steps of the work -/

section Work

variable {HZ : Nat} {log next : M10bmcLog} {act : WorkAct}

/-- What the thread of the device knows stays as it is. -/
structure SameThread (log next : M10bmcLog) : Prop where
  logCfg : next.logCfg = log.logCfg
  freqS : next.freqS = log.freqS
  id : next.id = log.id
  pc : next.pc = log.pc
  freed : next.freed = log.freed
  idaRemoves : next.idaRemoves = log.idaRemoves

theorem SameThread.idAt (same : SameThread log next)
    (id : IdAt log.id log.idaRemoves log.pc) :
    IdAt next.id next.idaRemoves next.pc := by
  rw [same.id, same.idaRemoves, same.pc]
  exact id

theorem WorkMoves.sameThread (moves : WorkMoves HZ log act next) :
    SameThread log next := by
  cases moves with
  | schedule freqS here =>
      rw [scheduleDelayedWork_eq]
      exact ⟨rfl, rfl, rfl, rfl, rfl, rfl⟩
  | _ => exact ⟨rfl, rfl, rfl, rfl, rfl, rfl⟩

/-- The work stays alive, unless it is cancelled meanwhile. -/
theorem WorkMoves.live_iff (moves : WorkMoves HZ log act next)
    (goesOn : log.pc.canceling = false) :
    Live next.pending next.work ↔ Live log.pending log.work := by
  cases moves with
  | start here due => exact iff_of_true (.inr nofun) (.inl due)
  | writeTime timeMs high here =>
      exact iff_of_true (.inr nofun) (.inr (by rw [here]; exact nofun))
  | readFreq here =>
      exact iff_of_true (.inr nofun) (.inr (by rw [here]; exact nofun))
  | schedule freqS here =>
      refine iff_of_true (.inl ?_) (.inr (by rw [here]; exact nofun))
      rw [scheduleDelayedWork_eq]
      cases pending : log.pending <;>
        simp [M10bmcLog.queueable, pending, goesOn]

/-- Work which is cancelled is not queued. -/
theorem WorkMoves.pending_of_canceling (moves : WorkMoves HZ log act next)
    (canceling : log.pc.canceling = true) (rest : log.pending = false) :
    next.pending = false := by
  cases moves with
  | start here due => rfl
  | schedule freqS here =>
      rw [scheduleDelayedWork_eq]
      simp [M10bmcLog.queueable, canceling, rest]
  | _ => exact rest

theorem WorkAt.congr {elSize : Int} {freqS : BitVec 32}
    {pending pending' : Bool} {work work' : WorkPc} {pc : ProcPc}
    (at_ : WorkAt elSize freqS pending work pc)
    (goesOn : pc.canceling = false)
    (live : Live pending' work' ↔ Live pending work) :
    WorkAt elSize freqS pending' work' pc := by
  unfold WorkAt at at_ ⊢
  rw [live]
  split <;> simp_all [ProcPc.canceling]

theorem WorkMoves.workAt (moves : WorkMoves HZ log act next)
    (work : WorkAt log.logCfg.elSize log.freqS log.pending log.work log.pc) :
    WorkAt next.logCfg.elSize next.freqS next.pending next.work next.pc := by
  obtain ⟨logCfg, freqS, -, pc, -, -⟩ := moves.sameThread
  rw [logCfg, freqS, pc]
  cases canceling : log.pc.canceling with
  | false => exact work.congr canceling (moves.live_iff canceling)
  | true =>
      have stays := moves.pending_of_canceling canceling
      cases here : log.pc <;> rw [here] at work canceling <;>
        first | exact stays work | cases canceling

theorem WorkMoves.exactDelays (moves : WorkMoves HZ log act next)
    (delays : ExactDelays HZ log.scheduled)
    (meets : Meets HZ log (.work act)) : ExactDelays HZ next.scheduled := by
  cases moves with
  | schedule freqS here =>
      rw [scheduleDelayedWork_eq]
      exact (exactDelays_append_iff delays _ _).mpr
        ((fits_of_work_iff HZ here).mp meets.1)
  | _ => exact delays

end Work

/-! ## Runs -/

section Runs

variable {HZ : Nat} {log next : M10bmcLog} {act : LogAct}

theorem Known.step (known : Known HZ log) (meets : Meets HZ log act)
    (steps : logStep HZ log act = some next) : Known HZ next := by
  cases act with
  | proc act =>
      have moves := procMoves_of_procStep steps
      exact ⟨moves.workAt known.work meets, moves.idAt known.id,
        moves.exactDelays known.delays meets, moves.alive known.alive⟩
  | work act =>
      have moves := workMoves_of_workStep steps
      obtain ⟨-, -, -, pc, freed, -⟩ := moves.sameThread
      refine ⟨moves.workAt known.work, moves.sameThread.idAt known.id,
        moves.exactDelays known.delays meets, ?_⟩
      rw [pc, freed]
      exact known.alive

/-- Whatever goes wrong, ids are removed as they should be. -/
theorem idAt_step (id : IdAt log.id log.idaRemoves log.pc)
    (steps : logStep HZ log act = some next) :
    IdAt next.id next.idaRemoves next.pc := by
  cases act with
  | proc act => exact (procMoves_of_procStep steps).idAt id
  | work act => exact (workMoves_of_workStep steps).sameThread.idAt id

/-- A step which does not meet the condition leaves the log unsound. -/
theorem Known.lost (known : Known HZ log) (misses : ¬ Meets HZ log act)
    (steps : logStep HZ log act = some next) : ¬ Sound HZ next := by
  intro sound
  cases act with
  | proc act =>
      cases procMoves_of_procStep steps with
      | schedule caller here =>
          have delays := sound.delays
          rw [scheduleDelayedWork_eq] at delays
          exact misses ⟨(fits_of_proc_iff HZ log).mpr
            ((exactDelays_append_iff known.delays _ _).mp delays), rfl⟩
      | release exit here =>
          refine misses ⟨nofun, ?_⟩
          by_contra released
          obtain ⟨failed, events⟩ : log.pc = .devmRelease .failed ∧
              0 < log.logCfg.elSize := by
            simpa [releasesEvents] using released
          have work := known.work
          rw [failed] at work
          rcases work.mpr events with pending | running
          · cases (sound.pending rfl pending).1
          · cases sound.alive running
      | _ => exact misses ⟨nofun, rfl⟩
  | work act =>
      cases workMoves_of_workStep steps with
      | schedule freqS here =>
          have delays := sound.delays
          rw [scheduleDelayedWork_eq] at delays
          exact misses ⟨(fits_of_work_iff HZ here).mpr
            ((exactDelays_append_iff known.delays _ _).mp delays), rfl⟩
      | _ => exact misses ⟨nofun, rfl⟩

end Runs

/--
In every run of the driver each id is removed once, when its log goes, and
not before.
-/
theorem everyLog_idAt (HZ : Nat)
    {path : List (Act M10bmcLogCfg LogAct × List M10bmcLog)}
    (isPath : IsPath
      (fun logs label later => driverStep HZ logs label = some later)
      [] path) :
    Throughout (EachParty fun log => IdAt log.id log.idaRemoves log.pc)
      [] path :=
  throughout_eachParty_of_invariant (fun cfg => (known_toProbe HZ cfg).id)
    (fun _ _ _ => idAt_step) isPath

/--
All logs are sound throughout a run of the driver if and only if no failed
probe releases a log with events, and no frequency for which the work is
armed makes a delay of more than 32 bits.
-/
theorem everyLog_sound_iff (HZ : Nat)
    {path : List (Act M10bmcLogCfg LogAct × List M10bmcLog)}
    (isPath : IsPath
      (fun logs label later => driverStep HZ logs label = some later)
      [] path) :
    Throughout (EachParty (Sound HZ)) [] path ↔
      StepsMeet (MoverMeets (Meets HZ)) [] path :=
  throughout_eachParty_iff (known_toProbe HZ) (fun _ => Known.sound)
    (fun _ _ _ => Known.step) (fun _ _ _ => Known.lost) isPath

/-- The probe of a board with events, up to the registration of the first. -/
def armingProbe : List LogAct :=
  [.proc (.kzalloc true), .proc (.idaSimpleGet (some 0)), .proc .init,
    .proc (.writeTime 1 none), .proc .schedule]

/--
A device is probed, the work runs in the middle of a store of zero, and the
device is removed.
-/
def usualRun : List (Act M10bmcLogCfg LogAct) :=
  .join m10bmcLogN6000Cfg :: byFirst
    (armingProbe ++
      [.proc (.nvmemRegister none), .proc (.nvmemRegister none),
        .proc (.nvmemRegister none), .work .start, .proc (.store (.ok 0)),
        .work (.writeTime 2 none), .work .readFreq, .work .schedule,
        .proc .cancel, .proc .flush, .proc .remove, .proc .cancel,
        .proc .flush, .proc .devmRelease])

theorem usualRun_sound :
    Throughout (EachParty (Sound 250)) []
      (pathOf (orSame (driverStep 250)) [] usualRun) :=
  (everyLog_sound_iff 250 (isPath_of_allTaken (by decide))).mpr
    (stepsMeet_of_enabledAlong (by decide))

/-- The first memory cannot be registered, and the work is due later. -/
def failedProbe : List (Act M10bmcLogCfg LogAct) :=
  .join m10bmcLogN6000Cfg :: byFirst
    (armingProbe ++
      [.proc (.nvmemRegister (some .enomem)), .proc .idaSimpleRemove,
        .proc .devmRelease, .work .start])

theorem failedProbe_not_sound :
    ¬ ∀ (HZ : Nat) (path : List (Act M10bmcLogCfg LogAct × List M10bmcLog)),
      IsPath (fun logs label later => driverStep HZ logs label = some later)
          [] path →
        Throughout (EachParty (Sound HZ)) [] path := by
  intro sound
  have along := sound 250 (pathOf (orSame (driverStep 250)) [] failedProbe)
    (isPath_of_allTaken (by decide))
  obtain ⟨log, member, running, freed⟩ :
      ∃ log ∈ failedProbe.foldl (orSame (driverStep 250)) [],
        log.work ≠ .idle ∧ log.freed = true := by
    decide
  cases freed.symm.trans ((along.final log member).alive running)

end LinuxDfl.Bmc.LogSync

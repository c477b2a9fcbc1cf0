import LinuxDfl.Sva.Device
import LinuxDfl.Lib.Locking
import LinuxDfl.Lib.Transition

/-!
# The locks of shared virtual addressing

The misc core holds its mutex while it opens a device; deleting a device
holds the mutex of the device while it takes the one of the misc core.  Every
other order agrees, so that threads wait for each other in a circle precisely
when a deletion and an open of the same device have met.
-/

namespace LinuxDfl.Sva

open LinuxDfl.Kernel
open LinuxDfl.Lib.Locking
open LinuxDfl.Lib.Locking.System
open LinuxDfl.Lib.Transition

/-! ## Locks and data -/

inductive SvaLock where
  /-- `misc_mtx` -/
  | misc
  /-- `dev->mutex` -/
  | dev (dev : Nat)
  /-- `dfl_dev_list_mutex` -/
  | devList
  deriving DecidableEq, Repr

/-- The devices of the module. -/
structure SvaModule where
  /-- `dfl_dev_list` -/
  dflDevList : List Nat
  /-- The devices which the misc core knows. -/
  miscList : List Nat
  devs : Nat → Option DflSvaDev
  nextDev : Nat
  nextFile : Nat

/-- Nothing has been found yet. -/
def svaInit : SvaModule := ⟨[], [], fun _ => none, 0, 0⟩

/-- Something is done to a device unless it has been freed. -/
def SvaModule.modify (sva : SvaModule) (dev : Nat)
    (change : DflSvaDev → Option DflSvaDev) : SvaModule :=
  { sva with
    devs := Function.update sva.devs dev ((sva.devs dev).bind change) }

/-- The device of `dfl_dev_list` which is there for a PCI device. -/
def SvaModule.find (sva : SvaModule) (pdev : Nat) : Option Nat :=
  sva.dflDevList.find? fun cur =>
    ((sva.devs cur).bind DflSvaDev.pdev) = some pdev

abbrev SvaCode : Type := Code SvaLock SvaModule

/-! ## Operations -/

/-- `dfl_pci_sva_open`, up to the locks which `misc_open` gives back -/
def openBody (dev : Nat) (kzalloc : Bool) : SvaCode :=
  .update
    (fun sva =>
      { sva.modify dev fun cur =>
          some (dflPciSvaOpen sva.nextFile kzalloc cur).2 with
        nextFile := sva.nextFile + 1 })
    fun _ => .unlock (.dev dev) (.unlock .misc .done)

/-- `misc_open`, which looks for the device that is opened. -/
def openFind (dev : Nat) (kzalloc : Bool) : SvaCode :=
  .update id fun sva =>
    if dev ∈ sva.miscList then .lock (.dev dev) (openBody dev kzalloc)
    else .unlock .misc .done

def openCode (dev : Nat) (kzalloc : Bool) : SvaCode :=
  .lock .misc (openFind dev kzalloc)

/--
What a file does under the mutex of the device.  A mutex which is freed with
its device is owned by nobody.
-/
def fileCode (dev : Nat) (change : DflSvaDev → Option DflSvaDev) : SvaCode :=
  .lock (.dev dev)
    (.update (fun sva => sva.modify dev change)
      fun _ => .unlock (.dev dev) .done)

/-- `dfl_pci_sva_ioctl` -/
def ioctlCode (dev file : Nat) (cmd : SvaCmd) : SvaCode :=
  fileCode dev fun cur => do
    let sva ← cur.privateData file
    let (_, cur, _) ← dflPciSvaIoctl cmd sva cur
    return cur

/-- `dfl_pci_sva_release` -/
def releaseCode (dev file : Nat) : SvaCode :=
  fileCode dev fun cur => do
    let sva ← cur.privateData file
    (dflPciSvaRelease sva cur).1

/-- `misc_register` -/
def miscRegister (dev : Nat) (registers : Bool) (rest : SvaCode) : SvaCode :=
  .lock .misc
    (.update
      (fun sva =>
        if registers then { sva with miscList := dev :: sva.miscList }
        else sva)
      fun _ => .unlock .misc rest)

/-- `misc_deregister` -/
def miscDeregister (dev : Nat) (rest : SvaCode) : SvaCode :=
  .lock .misc
    (.update
      (fun sva =>
        { sva with
          miscList := sva.miscList.filter fun other => other ≠ dev })
      fun _ => .unlock .misc rest)

/--
`dfl_pci_sva_add_dev` of a DFL device, with what enabling the feature, the
allocation and `misc_register` answer.
-/
def addCode (pdev : Nat) (enables kzalloc registers : Bool) : SvaCode :=
  .lock .devList
    (.update id fun sva =>
      if (sva.find pdev).isSome || !enables || !kzalloc then
        .unlock .devList .done
      else
        .update
          (fun sva =>
            { sva with
              devs := Function.update sva.devs sva.nextDev
                (some ⟨some pdev, []⟩)
              nextDev := sva.nextDev + 1 })
          fun sva =>
            miscRegister sva.nextDev registers
              (.update
                (fun later =>
                  { later with
                    dflDevList := sva.nextDev :: later.dflDevList })
                fun _ => .unlock .devList .done))

/-- `del_dfl_mdev` -/
def delMdevCode (dev : Nat) (rest : SvaCode) : SvaCode :=
  .lock (.dev dev)
    (miscDeregister dev
      (.update (fun sva => sva.modify dev fun cur => (delDflMdev cur).1)
        fun _ => .unlock (.dev dev) rest))

/-- `dfl_pci_sva_del_dev` of a DFL device -/
def delCode (pdev : Nat) : SvaCode :=
  .lock .devList
    (.update
      (fun sva =>
        { sva with
          dflDevList := sva.dflDevList.filter fun cur =>
            sva.find pdev ≠ some cur })
      fun sva =>
        match sva.find pdev with
        | none => .unlock .devList .done
        | some dev => delMdevCode dev (.unlock .devList .done))

inductive SvaCall where
  | openFile (dev : Nat) (kzalloc : Bool)
  | ioctl (dev file : Nat) (cmd : SvaCmd)
  | release (dev file : Nat)
  | addDev (pdev : Nat) (enables kzalloc registers : Bool)
  | delDev (pdev : Nat)

/-- What a thread has to do for a call. -/
def SvaCall.code : SvaCall → SvaCode
  | .openFile dev kzalloc => openCode dev kzalloc
  | .ioctl dev file cmd => ioctlCode dev file cmd
  | .release dev file => releaseCode dev file
  | .addDev pdev enables kzalloc registers =>
      addCode pdev enables kzalloc registers
  | .delDev pdev => delCode pdev

/-! ## The order of the locks -/

/--
The points at which locks are taken: what is owned there, and whether another
lock is taken at once.
-/
@[simp]
def Point : List SvaLock → SvaCode → Prop
  | [], .lock .misc rest => ∃ dev kzalloc, rest = openFind dev kzalloc
  | [.misc], .update change rest =>
      (∃ dev kzalloc, .update change rest = openFind dev kzalloc) ∨
        ∀ sva, (rest sva).isLock = false
  | [.misc], .lock (.dev _) rest => rest.isLock = false
  | [], .lock (.dev _) rest => rest.isLock = false
  | [], .lock .devList rest => rest.isLock = false
  | [.devList], .lock .misc rest => rest.isLock = false
  | [.devList], .lock (.dev _) rest => ∃ later, rest = .lock .misc later
  | [.dev _, .devList], .lock .misc rest => rest.isLock = false
  | _, .lock _ _ => False
  | [.devList], .update _ _ => True
  | _, .update _ rest => ∀ sva, (rest sva).isLock = false
  | _, .unlock _ rest => rest.isLock = false
  | _, .done => True

theorem follows_openFile (dev : Nat) (kzalloc : Bool) :
    Follows Point [] (openCode dev kzalloc) := by
  refine ⟨⟨dev, kzalloc, rfl⟩, Or.inl ⟨dev, kzalloc, rfl⟩, ?_⟩
  intro sva
  by_cases known : dev ∈ sva.miscList
  · simp only [if_pos known, openBody]
    simp
  · simp only [if_neg known]
    simp

theorem follows_file (dev : Nat) (change : DflSvaDev → Option DflSvaDev) :
    Follows Point [] (fileCode dev change) := by
  simp [fileCode]

theorem follows_addDev (pdev : Nat) (enables kzalloc registers : Bool) :
    Follows Point [] (addCode pdev enables kzalloc registers) := by
  refine ⟨rfl, trivial, ?_⟩
  intro sva
  by_cases stops : ((sva.find pdev).isSome || !enables || !kzalloc) = true
  · simp only [if_pos stops]
    simp
  · simp only [if_neg stops]
    simp [miscRegister]

theorem follows_delDev (pdev : Nat) : Follows Point [] (delCode pdev) := by
  refine ⟨rfl, trivial, ?_⟩
  intro sva
  cases found : sva.find pdev with
  | none =>
      simp only [found]
      simp
  | some dev =>
      simp only [found]
      simp [delMdevCode, miscDeregister]

theorem SvaCall.follows (call : SvaCall) : Follows Point [] call.code := by
  cases call with
  | openFile dev kzalloc => exact follows_openFile dev kzalloc
  | ioctl dev file cmd => exact follows_file dev _
  | release dev file => exact follows_file dev _
  | addDev pdev enables kzalloc registers =>
      exact follows_addDev pdev enables kzalloc registers
  | delDev pdev => exact follows_delDev pdev

/-! ## What the order allows -/

/-- What is owned when a lock is taken. -/
theorem point_lock {held : List SvaLock} {mutex : SvaLock} {rest : SvaCode}
    (here : Point held (.lock mutex rest)) :
    held = [] ∨ (held = [.misc] ∧ ∃ dev, mutex = .dev dev) ∨
      (held = [.devList] ∧ mutex ≠ .devList) ∨
        ∃ dev, held = [.dev dev, .devList] ∧ mutex = .misc := by
  rcases held with _ | ⟨first, _ | ⟨second, _ | ⟨third, others⟩⟩⟩
  · exact Or.inl rfl
  · cases first <;> cases mutex <;> simp_all
  · cases first <;> cases second <;> cases mutex <;> simp_all
  · cases first <;> cases second <;> cases mutex <;> simp_all

/-- Two locks are taken at once by a deletion only. -/
theorem point_two_locks {held : List SvaLock} {mutex : SvaLock}
    {rest : SvaCode} (here : Point held (.lock mutex rest))
    (another : rest.isLock = true) :
    held = [.devList] ∧ (∃ dev, mutex = .dev dev) ∧
      ∃ later, rest = .lock .misc later := by
  rcases point_lock here with rfl | ⟨rfl, dev, rfl⟩ | ⟨rfl, -⟩ | ⟨dev, rfl, rfl⟩
  · cases mutex with
    | misc =>
        obtain ⟨dev, kzalloc, rfl⟩ := here
        cases another
    | dev dev => exact absurd another (Bool.eq_false_iff.mp here)
    | devList => exact absurd another (Bool.eq_false_iff.mp here)
  · exact absurd another (Bool.eq_false_iff.mp here)
  · cases mutex with
    | misc => exact absurd another (Bool.eq_false_iff.mp here)
    | dev dev => exact ⟨rfl, ⟨dev, rfl⟩, here⟩
    | devList => exact absurd here id
  · exact absurd another (Bool.eq_false_iff.mp here)

/-- No lock is taken right after one is given back. -/
theorem point_unlock {held : List SvaLock} {mutex : SvaLock}
    {rest : SvaCode} (here : Point held (.unlock mutex rest)) :
    rest.isLock = false := by
  simpa using here

/-- An update after which a lock is taken. -/
theorem point_update {held : List SvaLock}
    {change : SvaModule → SvaModule} {rest : SvaModule → SvaCode}
    {sva : SvaModule} (here : Point held (.update change rest))
    (another : (rest sva).isLock = true) :
    held = [.devList] ∨ held = [.misc] ∧
      ∃ dev kzalloc, (.update change rest : SvaCode) =
        openFind dev kzalloc := by
  have stays : (∀ sva, (rest sva).isLock = false) → False := fun still =>
    absurd another (Bool.eq_false_iff.mp (still sva))
  rcases held with _ | ⟨first, _ | ⟨second, others⟩⟩
  · exact (stays (by simpa using here)).elim
  · cases first with
    | misc =>
        exact here.elim (fun isFind => Or.inr ⟨rfl, isFind⟩) fun still =>
          (stays still).elim
    | dev dev => exact (stays here).elim
    | devList => exact Or.inl rfl
  · exact (stays (by simpa using here)).elim

/-! ## Meetings -/

/--
A thread which opens a device waits for its mutex with that of the misc core,
and a thread which deletes the device waits the other way round.
-/
structure Meeting (system : System SvaLock SvaModule)
    (opener deleter dev : Nat) : Prop where
  misc : system.owner .misc = some opener
  wantsDev : ∃ rest, system.code opener = .lock (.dev dev) rest
  owned : system.owner (.dev dev) = some deleter
  wantsMisc : ∃ rest, system.code deleter = .lock .misc rest

theorem Meeting.circularWait {system : System SvaLock SvaModule}
    {opener deleter dev : Nat}
    (meeting : Meeting system opener deleter dev) :
    system.CircularWait := by
  obtain ⟨rest, wantsDev⟩ := meeting.wantsDev
  obtain ⟨later, wantsMisc⟩ := meeting.wantsMisc
  have first : system.WaitsFor opener deleter :=
    ⟨_, _, wantsDev, meeting.owned⟩
  have second : system.WaitsFor deleter opener :=
    ⟨_, _, wantsMisc, meeting.misc⟩
  exact ⟨opener, (Relation.TransGen.single first).tail second⟩

/--
A rank of the locks in a state.  The device which is being opened stands above
the mutex of the misc core, the others below it.
-/
@[simp]
def lockRank (opened : Option Nat) : SvaLock → Nat
  | .devList => 0
  | .misc => 2
  | .dev dev => if opened = some dev then 3 else 1

theorem lockRank_devList_lt (opened : Option Nat) {mutex : SvaLock}
    (other : mutex ≠ .devList) :
    lockRank opened .devList < lockRank opened mutex := by
  cases mutex with
  | devList => exact absurd rfl other
  | misc => exact Nat.zero_lt_succ _
  | dev dev =>
      simp only [lockRank]
      split
      · exact Nat.zero_lt_succ _
      · exact Nat.zero_lt_succ _

/-- The device for which the owner of the misc core's mutex waits. -/
theorem exists_opened (system : System SvaLock SvaModule) :
    ∃ opened : Option Nat, ∀ dev, opened = some dev ↔
      ∃ opener rest, system.owner .misc = some opener ∧
        system.code opener = .lock (.dev dev) rest := by
  by_cases opening : ∃ dev opener rest,
      system.owner .misc = some opener ∧
        system.code opener = .lock (.dev dev) rest
  · obtain ⟨dev, opener, rest, owns, wants⟩ := opening
    refine ⟨some dev, ?_⟩
    intro other
    constructor
    · intro same
      cases same
      exact ⟨opener, rest, owns, wants⟩
    · rintro ⟨another, later, alsoOwns, alsoWants⟩
      rw [owns] at alsoOwns
      cases alsoOwns
      rw [wants] at alsoWants
      cases alsoWants
      rfl
  · refine ⟨none, ?_⟩
    intro dev
    constructor
    · intro same
      cases same
    · rintro ⟨opener, rest, owns, wants⟩
      exact absurd ⟨dev, opener, rest, owns, wants⟩ opening

/-- Unless an open and a deletion have met, nobody waits in a circle. -/
theorem not_circularWait_of_no_meeting {system : System SvaLock SvaModule}
    (disciplined : Disciplined Point system)
    (apart : ∀ opener deleter dev,
      ¬ Meeting system opener deleter dev) :
    ¬ system.CircularWait := by
  obtain ⟨opened, isOpened⟩ := exists_opened system
  have rises : Rises (lockRank opened) system := by
    intro thread mutex later isLock other owns
    obtain ⟨held, owned, follows⟩ := disciplined thread
    rw [isLock] at follows
    have member := (owned other).mpr owns
    rcases point_lock follows.here with
      none | ⟨isMisc, dev, rfl⟩ | ⟨isList, above⟩ | ⟨dev, both, rfl⟩
    · rw [none] at member
      exact absurd member List.not_mem_nil
    · rw [isMisc, List.mem_singleton] at member
      subst member
      have opens := (isOpened dev).mpr ⟨thread, later, owns, isLock⟩
      rw [lockRank, lockRank, if_pos opens]
      exact Nat.lt_succ_self _
    · rw [isList, List.mem_singleton] at member
      subst member
      exact lockRank_devList_lt opened above
    · rw [both, List.mem_cons, List.mem_singleton] at member
      rcases member with rfl | rfl
      · have different : opened ≠ some dev := by
          intro opens
          obtain ⟨opener, rest, ownsMisc, wants⟩ := (isOpened dev).mp opens
          exact apart opener thread dev
            ⟨ownsMisc, ⟨_, wants⟩, owns, ⟨_, isLock⟩⟩
        rw [lockRank, lockRank, if_neg different]
        exact Nat.lt_succ_self _
      · exact lockRank_devList_lt opened (by decide)
  exact rises.not_circularWait

/-! ## Steps -/

/--
A deletion does not take the mutex of a device for which an open waits with
the mutex of the misc core, and an open does not go for the mutex of a device
which a deletion owns that waits for the misc core.
-/
def KeepsApart (system : System SvaLock SvaModule) :
    Action SvaCall → Prop
  | .start _ _ => True
  | .advance thread =>
      (∀ dev rest, system.code thread =
          .lock (.dev dev) (.lock .misc rest) →
        ∀ opener, system.owner .misc = some opener →
          ∀ later, system.code opener ≠ .lock (.dev dev) later) ∧
      (∀ dev kzalloc, system.code thread = openFind dev kzalloc →
        dev ∈ system.shared.miscList →
          ∀ deleter, system.owner (.dev dev) = some deleter →
            ∀ later, system.code deleter ≠ .lock .misc later)

/-- A thread of which only the others have met has not changed that. -/
theorem Meeting.before {system next : System SvaLock SvaModule}
    {opener deleter dev thread : Nat}
    (meeting : Meeting next opener deleter dev)
    (otherOpener : opener ≠ thread) (otherDeleter : deleter ≠ thread)
    (codes : ∀ other, other ≠ thread → next.code other = system.code other)
    (owners : ∀ mutex owner, next.owner mutex = some owner →
      owner ≠ thread → system.owner mutex = some owner) :
    Meeting system opener deleter dev where
  misc := owners _ _ meeting.misc otherOpener
  wantsDev := by
    rw [← codes opener otherOpener]
    exact meeting.wantsDev
  owned := owners _ _ meeting.owned otherDeleter
  wantsMisc := by
    rw [← codes deleter otherDeleter]
    exact meeting.wantsMisc

section Steps

variable {system : System SvaLock SvaModule} {thread : Nat}

/-- No thread meets another when it begins an operation. -/
theorem no_meeting_of_start {code : Code SvaLock SvaModule}
    (disciplined : Disciplined Point system)
    (apart : ∀ opener deleter dev, ¬ Meeting system opener deleter dev)
    (rests : system.code thread = .done) (opener deleter dev : Nat) :
    ¬ Meeting (system.goOn thread code) opener deleter dev := by
  intro meeting
  obtain ⟨held, isHeld, follows⟩ := disciplined thread
  rw [rests] at follows
  have idle : ∀ mutex, system.owner mutex ≠ some thread := by
    intro mutex owns
    have member := (isHeld mutex).mpr owns
    rw [follows.1] at member
    exact absurd member List.not_mem_nil
  have otherOpener : opener ≠ thread := by
    rintro rfl
    exact idle _ meeting.misc
  have otherDeleter : deleter ≠ thread := by
    rintro rfl
    exact idle _ meeting.owned
  exact apart _ _ _ (meeting.before otherOpener otherDeleter
    (fun _ distinct => goOn_code_of_ne _ _ distinct)
    (fun _ _ owns _ => owns))

/-- A thread which takes a mutex meets another only at the second one. -/
theorem no_meeting_of_lock {mutex : SvaLock}
    {rest : Code SvaLock SvaModule} (disciplined : Disciplined Point system)
    (apart : ∀ opener deleter dev, ¬ Meeting system opener deleter dev)
    (isPoint : system.code thread = .lock mutex rest)
    (keeps :
      ∀ dev rest, system.code thread =
          .lock (.dev dev) (.lock .misc rest) →
        ∀ opener, system.owner .misc = some opener →
          ∀ later, system.code opener ≠ .lock (.dev dev) later)
    (opener deleter dev : Nat) :
    ¬ Meeting ((system.own mutex (some thread)).goOn thread rest) opener
      deleter dev := by
  intro meeting
  obtain ⟨wanted, wantsDev⟩ := meeting.wantsDev
  obtain ⟨later, wantsMisc⟩ := meeting.wantsMisc
  have owned := meeting.owned
  obtain ⟨held, isHeld, follows⟩ := disciplined thread
  rw [isPoint] at follows
  have otherOpener : opener ≠ thread := by
    rintro rfl
    rw [goOn_code_self] at wantsDev
    obtain ⟨-, -, next, isMisc⟩ :=
      point_two_locks follows.here (by rw [wantsDev]; rfl)
    rw [wantsDev] at isMisc
    cases isMisc
  have owners : ∀ lock owner,
      ((system.own mutex (some thread)).goOn thread rest).owner lock =
        some owner → owner ≠ thread →
        system.owner lock = some owner := by
    intro lock owner owns distinct
    rw [goOn_owner] at owns
    by_cases taken : lock = mutex
    · subst taken
      rw [own_owner_self] at owns
      exact absurd (Option.some.inj owns).symm distinct
    · rw [own_owner_of_ne _ _ taken] at owns
      exact owns
  by_cases isThread : deleter = thread
  · subst isThread
    rw [goOn_code_self] at wantsMisc
    obtain ⟨isList, ⟨target, isDev⟩, -⟩ :=
      point_two_locks follows.here (by rw [wantsMisc]; rfl)
    subst isDev
    have same : target = dev := by
      by_contra other
      rw [goOn_owner, own_owner_of_ne _ _ (by simp [Ne.symm other])]
        at owned
      have member := (isHeld _).mpr owned
      rw [isList, List.mem_singleton] at member
      cases member
    subst same
    rw [goOn_code_of_ne _ _ otherOpener] at wantsDev
    rw [wantsMisc] at isPoint
    exact keeps _ _ isPoint _ (owners _ _ meeting.misc otherOpener) _
      wantsDev
  · exact apart _ _ _ (meeting.before otherOpener isThread
      (fun _ distinct => goOn_code_of_ne _ _ distinct) owners)

/-- No thread meets another when it gives a mutex back. -/
theorem no_meeting_of_unlock {mutex : SvaLock}
    {rest : Code SvaLock SvaModule} (disciplined : Disciplined Point system)
    (apart : ∀ opener deleter dev, ¬ Meeting system opener deleter dev)
    (isPoint : system.code thread = .unlock mutex rest)
    (opener deleter dev : Nat) :
    ¬ Meeting ((system.own mutex none).goOn thread rest) opener deleter
      dev := by
  intro meeting
  obtain ⟨wanted, wantsDev⟩ := meeting.wantsDev
  obtain ⟨later, wantsMisc⟩ := meeting.wantsMisc
  obtain ⟨held, isHeld, follows⟩ := disciplined thread
  rw [isPoint] at follows
  have still := point_unlock follows.here
  have otherOpener : opener ≠ thread := by
    rintro rfl
    rw [goOn_code_self] at wantsDev
    rw [wantsDev] at still
    cases still
  have otherDeleter : deleter ≠ thread := by
    rintro rfl
    rw [goOn_code_self] at wantsMisc
    rw [wantsMisc] at still
    cases still
  refine apart _ _ _ (meeting.before otherOpener otherDeleter
    (fun _ distinct => goOn_code_of_ne _ _ distinct) ?_)
  intro lock owner isOwner _
  rw [goOn_owner] at isOwner
  by_cases given : lock = mutex
  · subst given
    rw [own_owner_self] at isOwner
    cases isOwner
  · rw [own_owner_of_ne _ _ given] at isOwner
    exact isOwner

/-- A thread meets another at an update only as it finds its device. -/
theorem no_meeting_of_update {change : SvaModule → SvaModule}
    {rest : SvaModule → Code SvaLock SvaModule}
    (disciplined : Disciplined Point system)
    (apart : ∀ opener deleter dev, ¬ Meeting system opener deleter dev)
    (isPoint : system.code thread = .update change rest)
    (keeps :
      ∀ dev kzalloc, system.code thread = openFind dev kzalloc →
        dev ∈ system.shared.miscList →
          ∀ deleter, system.owner (.dev dev) = some deleter →
            ∀ later, system.code deleter ≠ .lock .misc later)
    (opener deleter dev : Nat) :
    ¬ Meeting
      ({ system with shared := change system.shared }.goOn thread
        (rest system.shared)) opener deleter dev := by
  intro meeting
  obtain ⟨wanted, wantsDev⟩ := meeting.wantsDev
  obtain ⟨later, wantsMisc⟩ := meeting.wantsMisc
  have misc := meeting.misc
  have owned := meeting.owned
  obtain ⟨held, isHeld, follows⟩ := disciplined thread
  rw [isPoint] at follows
  have otherDeleter : deleter ≠ thread := by
    rintro rfl
    rw [goOn_code_self] at wantsMisc
    have member := (isHeld _).mpr owned
    rcases point_update follows.here (by rw [wantsMisc]; rfl) with
      isList | ⟨isMisc, -⟩
    · rw [isList, List.mem_singleton] at member
      cases member
    · rw [isMisc, List.mem_singleton] at member
      cases member
  by_cases isThread : opener = thread
  · subst isThread
    rw [goOn_code_self] at wantsDev
    have member := (isHeld _).mpr misc
    rcases point_update follows.here (by rw [wantsDev]; rfl) with
      isList | ⟨-, target, kzalloc, isFind⟩
    · rw [isList, List.mem_singleton] at member
      cases member
    · have looks := isPoint.trans isFind
      cases isFind
      by_cases known : target ∈ system.shared.miscList
      · simp only [if_pos known] at wantsDev
        cases wantsDev
        rw [goOn_code_of_ne _ _ otherDeleter] at wantsMisc
        exact keeps _ _ looks known _ owned _ wantsMisc
      · simp only [if_neg known] at wantsDev
        cases wantsDev
  · exact apart _ _ _ (meeting.before isThread otherDeleter
      (fun _ distinct => goOn_code_of_ne _ _ distinct)
      (fun _ _ owns _ => owns))

end Steps

/-- Threads which are kept apart do not meet. -/
theorem no_meeting_of_keepsApart {system next : System SvaLock SvaModule}
    {action : Action SvaCall} (disciplined : Disciplined Point system)
    (apart : ∀ opener deleter dev, ¬ Meeting system opener deleter dev)
    (step : system.Step SvaCall.code action next)
    (keeps : KeepsApart system action) (opener deleter dev : Nat) :
    ¬ Meeting next opener deleter dev := by
  cases step_cases step with
  | start rests goes =>
      subst goes
      exact no_meeting_of_start disciplined apart rests opener deleter dev
  | lock isPoint free goes =>
      subst goes
      exact no_meeting_of_lock disciplined apart isPoint keeps.1 opener
        deleter dev
  | unlock isPoint owns goes =>
      subst goes
      exact no_meeting_of_unlock disciplined apart isPoint opener deleter dev
  | update isPoint goes =>
      subst goes
      exact no_meeting_of_update disciplined apart isPoint keeps.2 opener
        deleter dev

/-- The thread which looks for a device owns the mutex of the misc core. -/
theorem owns_misc_of_openFind {system : System SvaLock SvaModule}
    (disciplined : Disciplined Point system) {thread dev : Nat}
    {kzalloc : Bool} (looks : system.code thread = openFind dev kzalloc)
    (known : dev ∈ system.shared.miscList) :
    system.owner .misc = some thread := by
  obtain ⟨held, isHeld, follows⟩ := disciplined thread
  rw [looks] at follows
  obtain ⟨here, onwards⟩ := follows
  have taken := onwards system.shared
  simp only [if_pos known] at taken
  rcases point_lock taken.here with
    none | ⟨isMisc, -⟩ | ⟨isList, -⟩ | ⟨other, -, isMisc⟩
  · have still : ∀ sva : SvaModule, Code.isLock (if dev ∈ sva.miscList then
        .lock (.dev dev) (openBody dev kzalloc)
      else (.unlock .misc .done : SvaCode)) = false := by
      rw [none] at here
      exact here
    have takes := still system.shared
    rw [if_pos known] at takes
    cases takes
  · exact (isHeld _).mp (by rw [isMisc]; exact List.mem_singleton_self _)
  · have two := taken.here
    rw [isList] at two
    obtain ⟨later, isLock⟩ := two
    cases isLock
  · cases isMisc

/-- Threads which are not kept apart meet. -/
theorem meeting_of_not_keepsApart {system next : System SvaLock SvaModule}
    {action : Action SvaCall} (disciplined : Disciplined Point system)
    (step : system.Step SvaCall.code action next)
    (meets : ¬ KeepsApart system action) :
    ∃ opener deleter dev, Meeting next opener deleter dev := by
  cases action with
  | start thread op => exact absurd trivial meets
  | advance thread =>
      rcases not_and_or.mp meets with deletes | opens
      · push Not at deletes
        obtain ⟨dev, rest, point, opener, misc, later, wants⟩ := deletes
        obtain ⟨held, isHeld, follows⟩ := disciplined thread
        rw [point] at follows
        obtain ⟨isList, -, -⟩ := point_two_locks follows.here rfl
        have other : opener ≠ thread := by
          rintro rfl
          have member := (isHeld _).mpr misc
          rw [isList, List.mem_singleton] at member
          cases member
        have moves := step
        unfold Step perform at moves
        simp only [point, Option.ite_none_right_eq_some] at moves
        obtain ⟨-, goes⟩ := moves
        cases goes
        refine ⟨opener, thread, dev, ?_, ?_, ?_, ?_⟩
        · rw [goOn_owner, own_owner_of_ne _ _ SvaLock.noConfusion]
          exact misc
        · rw [goOn_code_of_ne _ _ other]
          exact ⟨later, wants⟩
        · rw [goOn_owner, own_owner_self]
        · exact ⟨rest, goOn_code_self _ _ _⟩
      · push Not at opens
        obtain ⟨dev, kzalloc, looks, known, deleter, owned, later, wants⟩ :=
          opens
        have misc := owns_misc_of_openFind disciplined looks known
        have other : deleter ≠ thread := by
          rintro rfl
          rw [looks] at wants
          cases wants
        have moves := step
        unfold Step perform at moves
        simp only [looks, openFind] at moves
        cases moves
        refine ⟨thread, deleter, dev, misc, ?_, owned, ?_⟩
        · rw [goOn_code_self, if_pos known]
          exact ⟨_, rfl⟩
        · rw [goOn_code_of_ne _ _ other]
          exact ⟨later, wants⟩

/--
Along every run of any threads which open, use, close, add and delete
devices: nobody ever waits in a circle, if and only if no deletion takes the
mutex of a device for which an open waits, and no open goes for that of a
device which a deletion owns that waits for the misc core.
-/
theorem no_circularWait_iff
    (path : List (Action SvaCall × System SvaLock SvaModule))
    (isPath : IsPath (System.Step SvaCall.code) (idle svaInit) path) :
    Throughout (fun system => ¬ CircularWait system) (idle svaInit) path ↔
      StepsMeet KeepsApart (idle svaInit) path := by
  have same : ∀ system : System SvaLock SvaModule,
      Disciplined Point system →
        (¬ CircularWait system ↔
          ∀ opener deleter dev, ¬ Meeting system opener deleter dev) := by
    intro system disciplined
    constructor
    · intro free opener deleter dev meeting
      exact free meeting.circularWait
    · intro apart
      exact not_circularWait_of_no_meeting disciplined apart
  have start : Disciplined Point (idle svaInit) :=
    disciplined_idle trivial svaInit
  refine throughout_iff_stepsMeet (Disciplined Point) ?kept ?exact isPath
    start ?initial
  case kept =>
    intro system action next disciplined step
    exact disciplined.step SvaCall.follows step
  case exact =>
    intro system action next disciplined free step
    have kept := disciplined.step SvaCall.follows step
    have apart := (same system disciplined).mp free
    rw [same next kept]
    constructor
    · intro later
      by_contra meets
      obtain ⟨opener, deleter, dev, meeting⟩ :=
        meeting_of_not_keepsApart disciplined step meets
      exact later opener deleter dev meeting
    · intro keeps opener deleter dev
      exact no_meeting_of_keepsApart disciplined apart step keeps opener
        deleter dev
  case initial =>
    rw [same _ start]
    intro opener deleter dev meeting
    have misc := meeting.misc
    cases misc

/-! ## An open and a deletion -/

/-- The code is about to take two locks. -/
def takesTwo : SvaCode → Bool
  | .lock _ rest => rest.isLock
  | _ => false

/--
Nobody has the mutex of the misc core when two locks are taken, and nobody
who owns a device waits when none is taken.
-/
def Calm (system : System SvaLock SvaModule) : Action SvaCall → Prop
  | .start _ _ => True
  | .advance thread =>
      (takesTwo (system.code thread) = true →
        system.owner .misc = none) ∧
      ((system.code thread).isLock = false →
        ∀ dev ∈ system.shared.miscList,
          ∀ owner ∈ system.owner (.dev dev),
            (system.code owner).isLock = false)

instance (system : System SvaLock SvaModule) (action : Action SvaCall) :
    Decidable (Calm system action) := by
  unfold Calm
  cases action <;> infer_instance

theorem Calm.keepsApart {system : System SvaLock SvaModule}
    {action : Action SvaCall} (calm : Calm system action) :
    KeepsApart system action := by
  cases action with
  | start thread op => trivial
  | advance thread =>
      constructor
      · intro dev rest point opener misc
        have free := calm.1 (by rw [point]; rfl)
        rw [misc] at free
        cases free
      · intro dev kzalloc looks known deleter owned later waits
        have still := calm.2 (by rw [looks]; rfl) dev known deleter owned
        rw [waits] at still
        cases still

/-- One thread adds a device with everything going well. -/
def addsDevice : List (Action SvaCall) :=
  .start 0 (.addDev 3 true true true) :: List.replicate 8 (.advance 0)

/-- The device is opened and closed, and deleted after that. -/
def opensThenDeletes : List (Action SvaCall) :=
  addsDevice ++ .start 1 (.openFile 0 true) ::
    List.replicate 6 (.advance 1) ++
    .start 2 (.delDev 3) :: List.replicate 9 (.advance 2)

/-- One thread is about to open the device when another one deletes it. -/
def opensWhileDeleting : List (Action SvaCall) :=
  addsDevice ++
    [.start 1 (.openFile 0 true), .advance 1, .advance 1,
      .start 2 (.delDev 3), .advance 2, .advance 2, .advance 2]

/-- The two wait for each other. -/
theorem open_and_deletion_wait :
    ∃ path,
      IsPath (System.Step SvaCall.code) (idle svaInit) path ∧
      ¬ Throughout (fun system => ¬ CircularWait system) (idle svaInit)
        path := by
  refine ⟨pathOf (System.apply SvaCall.code) (idle svaInit)
    opensWhileDeleting, ?_, ?_⟩
  · apply isPath_of_enabledAlong fun _ _ => System.step_apply
    decide
  · intro throughout
    have meeting : Meeting
        (opensWhileDeleting.foldl (System.apply SvaCall.code)
          (idle svaInit)) 1 2 0 :=
      ⟨by decide, ⟨_, rfl⟩, by decide, ⟨_, rfl⟩⟩
    exact throughout.final meeting.circularWait

/-- An open which is over before a deletion starts. -/
theorem opens_then_deletes :
    ¬ CircularWait (opensThenDeletes.foldl (System.apply SvaCall.code)
      (idle svaInit)) := by
  refine Throughout.final ((no_circularWait_iff
    (pathOf (System.apply SvaCall.code) (idle svaInit) opensThenDeletes)
    ?_).mpr ?_)
  · apply isPath_of_enabledAlong fun _ _ => System.step_apply
    decide
  · apply StepsMeet.mono fun _ _ => Calm.keepsApart
    apply stepsMeet_of_enabledAlong
    decide

end LinuxDfl.Sva

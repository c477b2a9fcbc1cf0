import LinuxDfl.Bmc.SecWorker

/-!
# Loading the firmware of the retimer

The load of the retimer firmware as a whole.  Each of its four phases ends
with a result of its own, and the load goes on only after a result of zero.
-/

namespace LinuxDfl.Bmc

open LinuxDfl.Kernel
open LinuxDfl.Bmc.Rsu

/-! ## The load -/

/-- What the board answers during a load, whether it is asked for or not. -/
structure RetimerAnswers where
  doorbell : RegRead
  /-- `m10bmc_sys_update_bits`, which sets `DRBL_PKVL_EEPROM_LOAD_SEC` -/
  update : Option Errno
  loadPolls : Polls RegRead
  donePolls : Polls StatusRead
  preloadPolls : Polls RegRead

/-- The phases of a load, up to the first which fails. -/
def retimerPhases (answers : RetimerAnswers) : Option Errno :=
  match retimerCheckIdle answers.doorbell with
  | some ret => some ret
  | none =>
      match triggerRetimerEepromLoad answers.update answers.loadPolls with
      | some ret => some ret
      | none =>
          match pollRetimerEepromLoadDone answers.donePolls with
          | some ret => some ret
          | none => pollRetimerPreloadDone answers.preloadPolls

/-- `m10bmc_sec_retimer_eeprom_load` -/
def m10bmcSecRetimerEepromLoad (info : BoardInfo) (answers : RetimerAnswers)
    (m10bmc : M10bmc) : Option Errno × M10bmc :=
  let m10bmc := m10bmcFwStateSet info .retimerEepromLoad m10bmc
  let ret := retimerPhases answers
  -- `fw_state_exit`, which all phases lead to
  (ret, m10bmcFwStateSet info .normal m10bmc)

/-! ## The firmware state -/

/-- Without handshake registers, the firmware state stays as it began. -/
def M10bmc.FwStateValid (info : BoardInfo) (m10bmc : M10bmc) : Prop :=
  info.handshakeSysRegRanges = [] → m10bmc.bmcfwState = .normal

theorem M10bmc.FwStateValid.set {info : BoardInfo} {m10bmc : M10bmc}
    (valid : m10bmc.FwStateValid info) (newState : M10bmcFwState) :
    (m10bmcFwStateSet info newState m10bmc).FwStateValid info := by
  intro none
  rw [m10bmcFwStateSet, if_pos none]
  exact valid none

theorem M10bmc.FwStateValid.set_normal {info : BoardInfo} {m10bmc : M10bmc}
    (valid : m10bmc.FwStateValid info) :
    (m10bmcFwStateSet info .normal m10bmc).bmcfwState = .normal := by
  by_cases none : info.handshakeSysRegRanges = []
  · exact valid.set .normal none
  · rw [m10bmcFwStateSet, if_neg none]

/-! ## What the board has been seen to do -/

/-- The progress lets a load begin. -/
def RetimerAnswers.SeesIdle (answers : RetimerAnswers) : Prop :=
  ∃ doorbell, answers.doorbell = .ok doorbell ∧
    (rsuProg doorbell = progIdle ∨ rsuProg doorbell = progRsuDone ∨
      rsuProg doorbell = progPkvlPromDone)

/-- `DRBL_PKVL_EEPROM_LOAD_SEC` is clear. -/
def loadBitCleared (val : BitVec 32) : Bool :=
  fieldOf drblPkvlEepromLoadSec val = 0

/-- The bit has been set, and is then read as cleared by the board. -/
def RetimerAnswers.SeesCleared (answers : RetimerAnswers) : Prop :=
  answers.update = none ∧
    ∃ val, answers.loadPolls.Makes (endsRegPoll loadBitCleared) (.ok val) ∧
      loadBitCleared val = true

/-- What ends the poll for the end of the load. -/
def endsLoadPoll (read : StatusRead) : Bool :=
  match m10bmcSecProgressStatus read with
  | .error _ => true
  | .ok read =>
      read.progress = progPkvlPromDone || read.status = statPkvlReject

/-- The end of the load is read, and the image is not rejected. -/
def RetimerAnswers.SeesPromDone (answers : RetimerAnswers) : Prop :=
  ∃ read seen, answers.donePolls.Makes endsLoadPoll read ∧
    m10bmcSecProgressStatus read = .ok seen ∧
      seen.progress = progPkvlPromDone ∧ seen.status ≠ statPkvlReject

/-- A read of the doorbell or of the status fails, while waiting for it. -/
def RetimerAnswers.DoneReadFails (answers : RetimerAnswers) : Prop :=
  ∃ read ret, answers.donePolls.Makes endsLoadPoll read ∧
    m10bmcSecProgressStatus read = .error ret

/-- `M10BMC_PKVL_PRELOAD` is set. -/
def preloadDone (val : BitVec 32) : Bool :=
  val &&& pkvlPreload = pkvlPreload

/-- The preload is read as done, with a good status. -/
def RetimerAnswers.SeesPreload (answers : RetimerAnswers) : Prop :=
  ∃ val, answers.preloadPolls.Makes (endsRegPoll preloadDone) (.ok val) ∧
    preloadDone val = true ∧ val &&& pkvlUpgStatusMask = pkvlUpgStatusGood

/-- The retimer has loaded its firmware. -/
structure RetimerLoaded (answers : RetimerAnswers) : Prop where
  idle : answers.SeesIdle
  cleared : answers.SeesCleared
  promDone : answers.SeesPromDone
  preload : answers.SeesPreload

/-! ## The phases -/

theorem retimerCheckIdle_eq_none_iff (answers : RetimerAnswers) :
    retimerCheckIdle answers.doorbell = none ↔ answers.SeesIdle := by
  unfold RetimerAnswers.SeesIdle
  cases answers.doorbell with
  | error ret => simp [retimerCheckIdle]
  | ok doorbell =>
      simp only [retimerCheckIdle, Except.ok.injEq, exists_eq_left']
      by_cases idle : rsuProg doorbell = progIdle
      · simp [idle]
      · by_cases done : rsuProg doorbell = progRsuDone
        · simp [done]
        · simp [idle, done]

theorem triggerRetimerEepromLoad_eq_none_iff (answers : RetimerAnswers) :
    triggerRetimerEepromLoad answers.update answers.loadPolls = none ↔
      answers.SeesCleared := by
  unfold RetimerAnswers.SeesCleared
  cases answers.update with
  | some ret => simp [triggerRetimerEepromLoad]
  | none =>
      simp only [true_and, ← regmapReadPollTimeout_eq_ok_iff]
      have cleared : (fun val => decide (fieldOf drblPkvlEepromLoadSec val = 0)) =
          loadBitCleared := rfl
      rw [triggerRetimerEepromLoad, cleared]
      cases regmapReadPollTimeout loadBitCleared answers.loadPolls with
      | ok val => simp
      | error ret => cases ret <;> simp

/-- What becomes of the poll for the end of the load, by its last read. -/
def loadDoneRet : Option StatusRead → Option Errno
  | none => some .etimedout
  | some read =>
      match m10bmcSecProgressStatus read with
      | .error _ => none
      | .ok read =>
          if read.status = statPkvlReject then some ecanceled else none

/-- A read which fails ends this phase as the end of the load does. -/
theorem pollRetimerEepromLoadDone_eq_none_iff (answers : RetimerAnswers) :
    pollRetimerEepromLoadDone answers.donePolls = none ↔
      answers.SeesPromDone ∨ answers.DoneReadFails := by
  have unfolded : pollRetimerEepromLoadDone answers.donePolls =
      loadDoneRet (readPollTimeout endsLoadPoll answers.donePolls.first
        answers.donePolls.rest) := by
    rw [loadDoneRet.eq_def]
    rfl
  rw [unfolded]
  constructor
  · intro fine
    cases polled : readPollTimeout endsLoadPoll answers.donePolls.first
        answers.donePolls.rest with
    | none => simp [polled, loadDoneRet] at fine
    | some read =>
        obtain ⟨made, ends⟩ := readPollTimeout_eq_some_iff.mp polled
        cases status : m10bmcSecProgressStatus read with
        | error ret => exact Or.inr ⟨read, ret, made, status⟩
        | ok seen =>
            by_cases reject : seen.status = statPkvlReject
            · simp [polled, loadDoneRet, status, reject] at fine
            · have done : seen.progress = progPkvlPromDone := by
                simpa [endsLoadPoll, status, reject] using ends
              exact Or.inl ⟨read, seen, made, status, done, reject⟩
  · rintro (⟨read, seen, made, status, done, kept⟩ |
      ⟨read, ret, made, status⟩)
    · have ends : endsLoadPoll read = true := by
        simp [endsLoadPoll, status, done]
      rw [readPollTimeout_eq_some_iff.mpr ⟨made, ends⟩]
      simp [loadDoneRet, status, kept]
    · have ends : endsLoadPoll read = true := by
        simp [endsLoadPoll, status]
      rw [readPollTimeout_eq_some_iff.mpr ⟨made, ends⟩]
      simp [loadDoneRet, status]

theorem pollRetimerPreloadDone_eq_none_iff (answers : RetimerAnswers) :
    pollRetimerPreloadDone answers.preloadPolls = none ↔
      answers.SeesPreload := by
  unfold RetimerAnswers.SeesPreload
  simp only [← and_assoc, ← regmapReadPollTimeout_eq_ok_iff]
  have loaded : (fun val => decide (val &&& pkvlPreload = pkvlPreload)) =
      preloadDone := rfl
  rw [pollRetimerPreloadDone, loaded]
  cases regmapReadPollTimeout preloadDone answers.preloadPolls with
  | error ret => simp
  | ok val => simp

/-- The poll ends with one read only. -/
theorem RetimerAnswers.DoneReadFails.not_seesPromDone
    {answers : RetimerAnswers} (fails : answers.DoneReadFails) :
    ¬ answers.SeesPromDone := by
  rintro ⟨read, seen, made, status, done, -⟩
  obtain ⟨other, ret, otherMade, otherStatus⟩ := fails
  have ends : endsLoadPoll read = true := by
    simp [endsLoadPoll, status, done]
  have otherEnds : endsLoadPoll other = true := by
    simp [endsLoadPoll, otherStatus]
  have same := (readPollTimeout_eq_some_iff.mpr ⟨made, ends⟩).symm.trans
    (readPollTimeout_eq_some_iff.mpr ⟨otherMade, otherEnds⟩)
  rw [Option.some.inj same, otherStatus] at status
  cases status

theorem retimerPhases_eq_none_iff (answers : RetimerAnswers) :
    retimerPhases answers = none ↔
      answers.SeesIdle ∧ answers.SeesCleared ∧
        (answers.SeesPromDone ∨ answers.DoneReadFails) ∧
          answers.SeesPreload := by
  rw [← retimerCheckIdle_eq_none_iff, ← triggerRetimerEepromLoad_eq_none_iff,
    ← pollRetimerEepromLoadDone_eq_none_iff,
    ← pollRetimerPreloadDone_eq_none_iff]
  unfold retimerPhases
  cases retimerCheckIdle answers.doorbell with
  | some ret => simp
  | none =>
      cases triggerRetimerEepromLoad answers.update answers.loadPolls with
      | some ret => simp
      | none =>
          cases pollRetimerEepromLoadDone answers.donePolls <;> simp

/--
Whatever the board answers: the load reports success only if the retimer has
loaded its firmware, and leaves the board in its normal state, unless a read
fails while the load waits for its end and all the rest goes well.
-/
theorem retimer_load_genuine_iff (info : BoardInfo)
    (answers : RetimerAnswers) (m10bmc : M10bmc)
    (valid : m10bmc.FwStateValid info) :
    let loaded := m10bmcSecRetimerEepromLoad info answers m10bmc
    ((loaded.1 = none → RetimerLoaded answers) ∧
        loaded.2.bmcfwState = .normal) ↔
      ¬ (answers.SeesIdle ∧ answers.SeesCleared ∧ answers.DoneReadFails ∧
        answers.SeesPreload) := by
  intro loaded
  have returns : loaded.1 = none ↔ _ := retimerPhases_eq_none_iff answers
  have normal : loaded.2.bmcfwState = .normal :=
    (valid.set .retimerEepromLoad).set_normal
  constructor
  · rintro ⟨genuine, -⟩ ⟨idle, cleared, fails, preload⟩
    have success : loaded.1 = none :=
      returns.mpr ⟨idle, cleared, Or.inr fails, preload⟩
    exact fails.not_seesPromDone (genuine success).promDone
  · intro others
    refine ⟨fun success => ?_, normal⟩
    obtain ⟨idle, cleared, ends, preload⟩ := returns.mp success
    rcases ends with promDone | fails
    · exact ⟨idle, cleared, promDone, preload⟩
    · exact absurd ⟨idle, cleared, fails, preload⟩ others

/-- A board on which each poll succeeds with its second read. -/
def goodRetimer : RetimerAnswers where
  doorbell := .ok 0
  update := none
  loadPolls := ⟨.ok 0x1000000, [.ok 0]⟩
  donePolls := ⟨⟨.ok 0, .ok 0⟩, [⟨.ok 0x90, .ok 0⟩]⟩
  preloadPolls := ⟨.ok 0, [.ok pkvlUpgStatusGood]⟩

theorem goodRetimer_not_doneReadFails : ¬ goodRetimer.DoneReadFails := by
  rintro ⟨read, ret, made, status⟩
  have ends : endsLoadPoll read = true := by
    simp [endsLoadPoll, status]
  have polled := readPollTimeout_eq_some_iff.mpr ⟨made, ends⟩
  have second : some ⟨.ok 0x90, .ok 0⟩ = some read := polled
  rw [← Option.some.inj second] at status
  cases status

def idleM10bmc : M10bmc := ⟨false, false, .normal⟩

theorem goodRetimer_load_genuine :
    let loaded :=
      m10bmcSecRetimerEepromLoad m10bmcSpiN3000 goodRetimer idleM10bmc
    loaded.1 = none ∧ RetimerLoaded goodRetimer ∧
      loaded.2.bmcfwState = .normal := by
  intro loaded
  have success : loaded.1 = none := by decide
  have genuine := (retimer_load_genuine_iff m10bmcSpiN3000 goodRetimer
    idleM10bmc fun _ => rfl).mpr fun fails =>
      goodRetimer_not_doneReadFails fails.2.2.1
  exact ⟨success, genuine.1 success, genuine.2⟩

/-- A board on which one read fails. -/
def failingDoneRead : RetimerAnswers where
  doorbell := .ok 0
  update := none
  loadPolls := ⟨.ok 0, []⟩
  donePolls := ⟨⟨.error .eio, .ok 0⟩, []⟩
  preloadPolls := ⟨.ok pkvlUpgStatusGood, []⟩

/-- The load reports success although its end has never been read. -/
theorem failed_read_reports_load :
    ¬ ∀ answers : RetimerAnswers,
      (m10bmcSecRetimerEepromLoad m10bmcSpiN3000 answers idleM10bmc).1 =
          none →
        RetimerLoaded answers := by
  intro genuine
  have loaded := genuine failingDoneRead (by decide)
  have fails : failingDoneRead.DoneReadFails :=
    ⟨⟨.error .eio, .ok 0⟩, .eio, ⟨[], [], rfl, by simp⟩, rfl⟩
  exact fails.not_seesPromDone loaded.promDone

end LinuxDfl.Bmc

import LinuxDfl.Bmc.SecWorker
import LinuxDfl.Lib.Polling
import LinuxDfl.Spi.Bridge

/-!
# The end of a secure update

The `poll_complete` operation of the secure update with its two polls, read by
read.  The board and the clocks are a parameter: what is read at each turn of
a poll, and what the clock shows behind it.
-/

namespace LinuxDfl.Bmc

open LinuxDfl.Kernel
open LinuxDfl.ImageLoad
open LinuxDfl.Bmc.Rsu
open LinuxDfl.Lib.Polling
open LinuxDfl.Spi (timeAfter)

/-! ## The operation -/

/-- `NIOS_HANDSHAKE_TIMEOUT_US`, in nanoseconds -/
def niosHandshakeTimeout : Nat := 5 * 1000 * 1000 * 1000

/-- `RSU_COMPLETE_TIMEOUT_MS` -/
def rsuCompleteTimeoutMs : Nat := 40 * 60 * 1000

/-- What the board and the clocks answer, whether they are asked or not. -/
structure CompleteAnswers where
  /-- The doorbell, and the abort, of `rsu_cancel`. -/
  cancelDoorbell : RegRead
  abort : Option Errno
  /-- The update of `DRBL_HOST_STATUS` with `HOST_STATUS_WRITE_DONE`. -/
  writeDone : Option Errno
  /-- The doorbell, at each read of the handshake. -/
  handshake : Nat → RegRead
  /-- `ktime_get`, before the handshake and behind each read of it. -/
  handshakeStart : Nat
  handshakeTime : Nat → Nat
  /-- `rsu_status`, after the handshake. -/
  status : RegRead
  /-- Doorbell and status, at each check for completion. -/
  checks : Nat → StatusRead
  /-- `jiffies`, before the checks and behind each of them. -/
  checkStart : BitVec 64
  checkTime : Nat → BitVec 64
  /-- `msecs_to_jiffies` -/
  msecsToJiffies : Nat → BitVec 64

/-- The first reads of a poll, up to a last one. -/
def pollsUpTo {Read : Type} (reads : Nat → Read) (last : Nat) : Polls Read :=
  ⟨reads 0, (List.range last).map fun read => reads (read + 1)⟩

namespace CompleteAnswers

variable (answers : CompleteAnswers)

/-- A read which ends the handshake. -/
def handshakeDone (read : Nat) : Bool :=
  endsRegPoll (fun doorbell => rsuProg doorbell ≠ rsuProgReady)
    (answers.handshake read)

/-- Behind this read the time of the handshake is up. -/
def handshakeLate (read : Nat) : Bool :=
  answers.handshakeTime read > answers.handshakeStart + niosHandshakeTimeout

/-- `rsu_send_data`, with its poll -/
def sendData (fuel : Nat) : Option FwUploadErr :=
  let send (last : Nat) : FwUploadErr :=
    rsuSendData answers.writeDone (pollsUpTo answers.handshake last)
      answers.status
  if answers.writeDone.isSome then
    -- it returns before it polls
    some (send 0)
  else
    (lastRead answers.handshakeDone answers.handshakeLate fuel).map send

/-- `poll_timeout` -/
def pollTimeout : BitVec 64 :=
  answers.checkStart + answers.msecsToJiffies rsuCompleteTimeoutMs

/-- Behind this check the time to complete is up. -/
def checkLate (check : Nat) : Bool :=
  timeAfter (answers.checkTime check) answers.pollTimeout

/-- The condition of the loop in `m10bmc_sec_poll_complete` -/
def checkAgain (check : Nat) : Bool :=
  rsuCheckComplete (answers.checks check) = some .eagain &&
    !answers.checkLate check

/-- The loop in `m10bmc_sec_poll_complete` -/
def checkComplete (fuel : Nat) : Option (Option Errno) :=
  (lastTurn answers.checkAgain fuel 0).map fun last =>
    rsuCheckComplete (answers.checks last)

end CompleteAnswers

/-- `m10bmc_sec_poll_complete` -/
def m10bmcSecPollComplete (info : BoardInfo) (answers : CompleteAnswers)
    (fuel : Nat) (m10bmc : M10bmc) : Option (FwUploadErr × M10bmc) :=
  if m10bmc.cancelRequest then
    some (rsuCancelRet answers.cancelDoorbell answers.abort, m10bmc)
  else
    let m10bmc := m10bmcFwStateSet info .secUpdateProgram m10bmc
    match answers.sendData fuel with
    | none => none
    | some .none =>
        match answers.checkComplete fuel with
        | none => none
        | some ret => some (checkCompleteRet ret, m10bmc)
    | some result => some (result, m10bmc)

/-! ## Genuine success -/

namespace CompleteAnswers

variable (answers : CompleteAnswers)

/-- The handshake gets to this read: it has neither ended nor run out. -/
structure HandshakeReaches (read : Nat) : Prop where
  ready : ∀ earlier < read, ∃ doorbell,
    answers.handshake earlier = .ok doorbell ∧
      rsuProg doorbell = rsuProgReady
  inTime : ∀ earlier, earlier + 1 < read →
    answers.handshakeLate earlier = false

/-- The checks end with this one. -/
structure ChecksEnd (last : Nat) : Prop where
  ends : answers.checkAgain last = false
  before : ∀ earlier < last, answers.checkAgain earlier = true

end CompleteAnswers

/-- The board has taken the image and has done with it. -/
structure UpdateGenuine (answers : CompleteAnswers) (m10bmc : M10bmc) :
    Prop where
  notCancelled : m10bmc.cancelRequest = false
  written : answers.writeDone = none
  leftReady : ∃ read doorbell, answers.HandshakeReaches read ∧
    answers.handshake read = .ok doorbell ∧ rsuProg doorbell ≠ rsuProgReady
  complete : ∃ last seen, answers.ChecksEnd last ∧
    m10bmcSecProgressStatus (answers.checks last) = .ok seen ∧
      seen.status ∈ [statNormal, statNiosOk, statUserOk, statFactoryOk] ∧
        (seen.progress = progIdle ∨ seen.progress = progRsuDone)

/-! ## The handshake -/

theorem mem_reads_pollsUpTo {Read : Type} {reads : Nat → Read} {last : Nat}
    {done : Read → Bool} {read : Read}
    (made : (pollsUpTo reads last).Makes done read) :
    ∃ turn ≤ last, reads turn = read ∧
      ∀ earlier < turn, done (reads earlier) = false := by
  obtain ⟨before, after, split, waits⟩ := made
  have all : (List.range (last + 1)).map reads = before ++ read :: after := by
    rw [← split, List.range_succ_eq_map, List.map_cons, List.map_map]
    rfl
  have length : last + 1 = before.length + (after.length + 1) := by
    have same := congrArg List.length all
    simpa using same
  have at_turn (turn : Nat) (inside : turn < last + 1) :
      (before ++ read :: after)[turn]? = some (reads turn) := by
    rw [← all, List.getElem?_map, List.getElem?_range inside]
    rfl
  refine ⟨before.length, by omega, ?_, fun earlier below => waits _ ?_⟩
  · have here := at_turn before.length (by omega)
    rw [List.getElem?_append_right (Nat.le_refl _), Nat.sub_self] at here
    exact (Option.some.inj here).symm
  · have there := at_turn earlier (by omega)
    rw [List.getElem?_append_left below] at there
    exact List.mem_of_getElem? there

theorem CompleteAnswers.ready_of_waits {answers : CompleteAnswers}
    {read : Nat} (waits : answers.handshakeDone read = false) :
    ∃ doorbell, answers.handshake read = .ok doorbell ∧
      rsuProg doorbell = rsuProgReady := by
  unfold CompleteAnswers.handshakeDone at waits
  cases seen : answers.handshake read with
  | error ret =>
      rw [seen] at waits
      cases waits
  | ok doorbell =>
      rw [seen] at waits
      exact ⟨doorbell, rfl, by simpa [endsRegPoll] using waits⟩

theorem rsuSendData_none {update : Option Errno} {polls : Polls RegRead}
    {status : RegRead} (sent : rsuSendData update polls status = .none) :
    update = none ∧ ∃ doorbell,
      regmapReadPollTimeout
        (fun doorbell => rsuProg doorbell ≠ rsuProgReady) polls =
          .ok doorbell := by
  unfold rsuSendData at sent
  cases update with
  | some ret => cases sent
  | none =>
      dsimp only at sent
      refine ⟨rfl, ?_⟩
      split at sent
      · cases sent
      · cases sent
      · exact ⟨_, by assumption⟩

/-- Data has been sent only if the doorbell has left `RSU_PROG_READY`. -/
theorem CompleteAnswers.sendData_none {answers : CompleteAnswers}
    {fuel : Nat} (sent : answers.sendData fuel = some .none) :
    answers.writeDone = none ∧
      ∃ read doorbell, answers.HandshakeReaches read ∧
        answers.handshake read = .ok doorbell ∧
          rsuProg doorbell ≠ rsuProgReady := by
  unfold CompleteAnswers.sendData at sent
  cases written : answers.writeDone with
  | some ret =>
      rw [written] at sent
      have fine := rsuSendData_none (Option.some.inj sent)
      cases fine.1
  | none =>
      rw [written] at sent
      obtain ⟨last, polled, fine⟩ := Option.map_eq_some_iff.mp sent
      obtain ⟨-, doorbell, answer⟩ := rsuSendData_none fine
      obtain ⟨-, inTime⟩ := lastRead_spec polled
      obtain ⟨made, left⟩ := regmapReadPollTimeout_eq_ok_iff.mp answer
      obtain ⟨read, inside, seen, waits⟩ := mem_reads_pollsUpTo made
      refine ⟨rfl, read, doorbell, ⟨?_, ?_⟩, seen, of_decide_eq_true left⟩
      · intro earlier below
        exact ready_of_waits (waits earlier below)
      · intro earlier below
        exact inTime earlier (Nat.lt_of_lt_of_le below inside)

/-! ## The checks -/

theorem rsuStatusOk_iff (status : Nat) :
    rsuStatusOk status = true ↔
      status ∈ [statNormal, statNiosOk, statUserOk, statFactoryOk] := by
  simp [rsuStatusOk, or_assoc]

theorem rsuProgressDone_iff (progress : Nat) :
    rsuProgressDone progress = true ↔
      progress = progIdle ∨ progress = progRsuDone := by
  simp [rsuProgressDone]

theorem rsuCheckComplete_eq_none_iff (read : StatusRead) :
    rsuCheckComplete read = none ↔
      ∃ seen, m10bmcSecProgressStatus read = .ok seen ∧
        rsuStatusOk seen.status = true ∧
          rsuProgressDone seen.progress = true := by
  unfold rsuCheckComplete
  cases m10bmcSecProgressStatus read with
  | error ret => simp
  | ok seen =>
      cases fine : rsuStatusOk seen.status with
      | false => simp [fine]
      | true =>
          cases done : rsuProgressDone seen.progress with
          | true => simp [fine, done]
          | false =>
              simp only [fine, done]
              cases rsuProgressBusy seen.progress <;> simp [fine, done]

theorem checkCompleteRet_eq_none_iff (ret : Option Errno) :
    checkCompleteRet ret = .none ↔ ret = none := by
  cases ret with
  | none => simp [checkCompleteRet]
  | some ret => cases ret <;> simp [checkCompleteRet]

/-- The update is complete only if its last check has said so. -/
theorem CompleteAnswers.checkComplete_none {answers : CompleteAnswers}
    {fuel : Nat} (complete : answers.checkComplete fuel = some none) :
    ∃ last seen, answers.ChecksEnd last ∧
      m10bmcSecProgressStatus (answers.checks last) = .ok seen ∧
        seen.status ∈ [statNormal, statNiosOk, statUserOk, statFactoryOk] ∧
          (seen.progress = progIdle ∨ seen.progress = progRsuDone) := by
  obtain ⟨last, turned, fine⟩ := Option.map_eq_some_iff.mp complete
  obtain ⟨-, -, ends, before⟩ := lastTurn_eq_some_iff.mp turned
  obtain ⟨seen, read, status, progress⟩ :=
    (rsuCheckComplete_eq_none_iff _).mp fine
  refine ⟨last, seen, ⟨ends, fun earlier => before earlier (Nat.zero_le _)⟩,
    read, ?_, ?_⟩
  · exact (rsuStatusOk_iff _).mp status
  · exact (rsuProgressDone_iff _).mp progress

/-- The loop goes on to the last of its reads. -/
theorem checkCompleteLoop_pollsUpTo {reads : Nat → StatusRead} {last : Nat}
    (again : ∀ earlier < last,
      rsuCheckComplete (reads earlier) = some .eagain) :
    let polls := pollsUpTo reads last
    checkCompleteLoop polls.first polls.rest =
      rsuCheckComplete (reads last) := by
  induction last generalizing reads with
  | zero => rfl
  | succ last ih =>
      have rest : (pollsUpTo reads (last + 1)).rest =
          reads 1 :: (pollsUpTo (fun read => reads (read + 1)) last).rest := by
        simp only [pollsUpTo, List.range_succ_eq_map, List.map_cons,
          List.map_map]
        rfl
      intro polls
      show checkCompleteLoop (reads 0) (pollsUpTo reads (last + 1)).rest = _
      rw [rest, checkCompleteLoop, if_pos (again 0 (Nat.succ_pos last))]
      exact ih fun earlier below => again (earlier + 1) (Nat.succ_lt_succ below)

/-- The checks against the clock end as those of the worker, which polls. -/
theorem CompleteAnswers.checkComplete_polls {answers : CompleteAnswers}
    {fuel : Nat} {ret : Option Errno}
    (checked : answers.checkComplete fuel = some ret) :
    ∃ last, answers.ChecksEnd last ∧
      let polls := pollsUpTo answers.checks last
      checkCompleteLoop polls.first polls.rest = ret := by
  obtain ⟨last, turned, rfl⟩ := Option.map_eq_some_iff.mp checked
  obtain ⟨-, -, ends, before⟩ := lastTurn_eq_some_iff.mp turned
  refine ⟨last, ⟨ends, fun earlier => before earlier (Nat.zero_le _)⟩, ?_⟩
  refine checkCompleteLoop_pollsUpTo fun earlier below => ?_
  have again := before earlier (Nat.zero_le _) below
  exact of_decide_eq_true (Bool.and_eq_true_iff.mp again).1

/-! ## The operation as a whole -/

/-- A result without an error, after however many reads, is genuine. -/
theorem updateGenuine_of_none {info : BoardInfo} {answers : CompleteAnswers}
    {fuel : Nat} {m10bmc next : M10bmc}
    (returns :
      m10bmcSecPollComplete info answers fuel m10bmc = some (.none, next)) :
    UpdateGenuine answers m10bmc := by
  unfold m10bmcSecPollComplete at returns
  cases cancelled : m10bmc.cancelRequest with
  | true =>
      simp only [cancelled, if_true, Option.some.injEq, Prod.mk.injEq]
        at returns
      exact absurd returns.1 (rsuCancelRet_ne_none _ _)
  | false =>
      simp only [cancelled, Bool.false_eq_true, if_false] at returns
      cases sent : answers.sendData fuel with
      | none => simp [sent] at returns
      | some result =>
          by_cases fine : result = .none
          · subst fine
            cases checked : answers.checkComplete fuel with
            | none => simp [sent, checked] at returns
            | some ret =>
                simp only [sent, checked, Option.some.injEq, Prod.mk.injEq,
                  checkCompleteRet_eq_none_iff] at returns
                rw [returns.1] at checked
                obtain ⟨written, leftReady⟩ :=
                  CompleteAnswers.sendData_none sent
                exact ⟨cancelled, written, leftReady,
                  CompleteAnswers.checkComplete_none checked⟩
          · exfalso
            cases result with
            | none => exact fine rfl
            | _ => simp [sent] at returns

/-- Once both clocks have passed their timeouts, there is a result. -/
theorem pollComplete_returns (info : BoardInfo) {answers : CompleteAnswers}
    {read check fuel : Nat} (m10bmc : M10bmc)
    (handshakeUp : answers.handshakeLate read = true)
    (checksUp : answers.checkLate check = true)
    (enough : max read check < fuel) :
    ∃ returned,
      m10bmcSecPollComplete info answers fuel m10bmc = some returned := by
  obtain ⟨last, polled⟩ : ∃ last,
      lastRead answers.handshakeDone answers.handshakeLate fuel =
        some last :=
    exists_lastRead handshakeUp (by omega)
  have sends : ∃ result, answers.sendData fuel = some result := by
    unfold CompleteAnswers.sendData
    cases answers.writeDone with
    | none => exact ⟨_, by rw [polled]; rfl⟩
    | some ret => exact ⟨_, rfl⟩
  have stops : answers.checkAgain check = false := by
    simp [CompleteAnswers.checkAgain, checksUp]
  obtain ⟨turn, turned⟩ :=
    exists_lastTurn (Nat.zero_le check)
      (show check < 0 + fuel by omega) stops
  obtain ⟨result, sent⟩ := sends
  unfold m10bmcSecPollComplete CompleteAnswers.checkComplete
  cases m10bmc.cancelRequest with
  | true => exact ⟨_, rfl⟩
  | false =>
      rw [sent, turned]
      cases result <;> exact ⟨_, rfl⟩

/--
Whatever the board answers: the update ends without an error only if it is
genuine, and it ends after at most so many reads as it takes the clock to
pass the timeouts.
-/
theorem pollComplete_genuine (info : BoardInfo) (answers : CompleteAnswers)
    (m10bmc : M10bmc) :
    (∀ fuel ret next,
      m10bmcSecPollComplete info answers fuel m10bmc = some (ret, next) →
        ret = .none → UpdateGenuine answers m10bmc) ∧
      ∀ read check, answers.handshakeLate read = true →
        answers.checkLate check = true →
          ∃ returned,
            m10bmcSecPollComplete info answers (max read check + 1) m10bmc =
              some returned := by
  constructor
  · intro fuel ret next returns fine
    rw [fine] at returns
    exact updateGenuine_of_none returns
  · intro read check handshakeUp checksUp
    exact pollComplete_returns info m10bmc handshakeUp checksUp
      (Nat.lt_succ_self _)

/-- A board which has done with the image at once. -/
def completingBoard : CompleteAnswers where
  cancelDoorbell := .ok 0
  abort := none
  writeDone := none
  handshake _ := .ok 0
  handshakeStart := 0
  handshakeTime _ := 0
  status := .ok 0
  checks _ := ⟨.ok 0, .ok 0⟩
  checkStart := 0
  checkTime _ := 0
  msecsToJiffies := BitVec.ofNat 64

theorem completingBoard_genuine :
    UpdateGenuine completingBoard ⟨false, false, .secUpdateWrite⟩ :=
  (pollComplete_genuine m10bmcSpiN3000 completingBoard
    ⟨false, false, .secUpdateWrite⟩).1 1 .none
      ⟨false, false, .secUpdateProgram⟩ (by decide) rfl

end LinuxDfl.Bmc

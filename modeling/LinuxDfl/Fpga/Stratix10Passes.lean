import LinuxDfl.Fpga.Stratix10Handover
import LinuxDfl.Lib.Run
import Mathlib.Algebra.Order.BigOperators.Group.Finset
import Mathlib.Data.Fintype.BigOperators
import Mathlib.Order.Interval.Set.Infinite

/-!
# How often a call goes round

The loop of `s10_ops_write` waits only when it has sent something.  A pass
with a buffer to use sends data or frees the buffer, so that there are finitely
many of these; a pass which finds each buffer locked, or whose message is
refused, comes to nothing, and the loop goes round at once.
-/

namespace LinuxDfl.Fpga.Stratix10

open LinuxDfl.Kernel
open LinuxDfl.Lib.Transition
open LinuxDfl.Lib.Run

/-! ## Passes -/

def Action.isWrite : Action → Bool
  | .write _ => true
  | _ => false

/-- The loop is gone through once more. -/
structure Iterates (transfer : Transfer) (action : Action) : Prop where
  isWrite : action.isWrite = true
  stage : transfer.stage = .head
  goesOn : transfer.data ≠ [] ∨
    s10FreeBufferCount transfer.svcBufs ≠ numSvcBufs

/-- All lock bits are set. -/
def AllLocked (transfer : Transfer) : Prop :=
  ∀ i, (transfer.svcBufs i).lock = true

/-- The service layer does not take a message with data. -/
def Refused (transfer : Transfer) (action : Action) : Prop :=
  (∃ i svcBuf xferSz, transfer.stage = .send i svcBuf xferSz) ∧
    ∃ err, action = .write (some err)

/-- A pass comes to nothing. -/
def Fruitless (transfer : Transfer) (action : Action) : Prop :=
  Iterates transfer action ∧ AllLocked transfer ∨ Refused transfer action

/-! ## A pass ends -/

/-- The most steps until the condition of the loop is met, or the end. -/
def Stage.rank : Stage → Nat
  | .reinit => 26
  | .lock left => 18 + left.length
  | .fill _ => 17
  | .send .. => 16
  | .unlock _ => 11
  | .free false left _ => 17 + 2 * left.length
  | .freeMemory false _ _ left _ => 18 + 2 * left.length
  | .free true left _ => 1 + 2 * left.length
  | .freeMemory true _ _ left _ => 2 + 2 * left.length
  | .claim => 16
  | .readStatus => 15
  | .wait => 14
  | .testDone _ => 13
  | .testSubmitted _ => 12
  | .testError _ => 11
  | .head => 10
  | .returned | .faulted => 0

theorem rank_atEnd : Stage.atEnd.rank = 9 := rfl

section Steps

variable {transfer next : Transfer} {answer : Option Errno}

/-- Each step lowers the rank, but for the one into the loop. -/
theorem rank_lt (written : s10OpsWrite answer transfer = some next)
    (outside : ¬ Iterates transfer (.write answer)) :
    next.stage.rank < transfer.stage.rank := by
  unfold s10OpsWrite at written
  cases stage : transfer.stage <;> rw [stage] at written
  case head =>
    dsimp only at written
    split at written
    case isTrue goesOn => exact absurd ⟨rfl, stage, goesOn⟩ outside
    case isFalse =>
      cases written
      exact (by decide : Stage.atEnd.rank < Stage.head.rank)
  case lock left =>
    cases left with
    | nil =>
        cases written
        exact (by decide : Stage.head.rank < (Stage.lock []).rank)
    | cons i left =>
        dsimp only at written
        split at written
        all_goals
          cases written
          dsimp only [Stage.rank, List.length_cons]
          omega
  case free last left numFree =>
    cases last <;> cases left <;> dsimp only at written
    case true.nil =>
      cases written
      exact Nat.one_pos
    case false.nil =>
      repeat' split at written
      all_goals
        cases written
        dsimp only [Stage.rank]
        omega
    all_goals
      repeat' split at written
      all_goals
        cases written
        dsimp only [Stage.rank, List.length_cons]
        omega
  case freeMemory last i svcBuf left numFree =>
    cases last
    all_goals
      cases written
      dsimp only [Stage.rank]
      omega
  all_goals
    dsimp only at written
    repeat' split at written
    all_goals cases written
    all_goals
      dsimp only [Stage.rank, rank_atEnd, List.length_finRange]
      decide

end Steps

/-! ## Steps of others -/

/-- What a call has of a step of the service layer. -/
structure Passive (transfer next : Transfer) : Prop where
  stage : next.stage = transfer.stage
  call : next.call = transfer.call
  data : next.data = transfer.data
  bufs : next.bufs = transfer.bufs
  /-- Locks are only cleared. -/
  unlocked : ∀ i, (transfer.svcBufs i).lock = false →
    (next.svcBufs i).lock = false

theorem setLock_false (transfer : Transfer) (i j : Fin numSvcBufs)
    (unlocked : (transfer.svcBufs j).lock = false) :
    ((transfer.setLock i false).svcBufs j).lock = false := by
  rw [Transfer.setLock]
  dsimp only
  rcases eq_or_ne j i with rfl | other
  · rw [Function.update_self]
  · rwa [Function.update_of_ne other]

theorem callbackOp_passive (op : CallbackOp) (transfer : Transfer) :
    Passive transfer (callbackOp op transfer) := by
  have same := callbackOp_same op transfer
  refine ⟨same.stage, same.call, same.data, funext same.bufs, ?_⟩
  intro i unlocked
  cases op with
  | setBit | complete => exact unlocked
  | unlockBufs kaddr =>
      cases kaddr with
      | none => exact unlocked
      | some kaddr =>
          rw [callbackOp]
          split
          · exact unlocked
          · exact setLock_false transfer _ i unlocked

/-- A step is one of the call, one of the service layer or the next call. -/
theorem performs_cases {transfer next : Transfer} {action : Action}
    (performs : Performs transfer action next) :
    (∃ answer, action = .write answer ∧
        s10OpsWrite answer transfer = some next) ∨
      Passive transfer next ∨ next.call = transfer.call + 1 := by
  cases performs.moves with
  | write written => exact .inl ⟨_, rfl, written⟩
  | receive => exact .inr (.inl ⟨rfl, rfl, rfl, rfl, fun _ => id⟩)
  | @callback op =>
      obtain ⟨stage, call, data, bufs, unlocked⟩ :=
        callbackOp_passive op transfer
      exact .inr (.inl ⟨stage, call, data, bufs, unlocked⟩)
  | nextFragment => exact .inr (.inr rfl)

/-- A step which is taken at a write is one of the call. -/
theorem written_of_isWrite {transfer next : Transfer} {action : Action}
    (performs : Performs transfer action next)
    (isWrite : action.isWrite = true) :
    ∃ answer, action = .write answer ∧
      s10OpsWrite answer transfer = some next := by
  cases performs.moves with
  | write written => exact ⟨_, rfl, written⟩
  | receive | callback | nextFragment => exact nomatch isWrite

/-! ## What a pass promises -/

/-- What is left to be done: bytes to send, and buffers to free. -/
def Transfer.left (transfer : Transfer) : Nat :=
  transfer.data.length + ∑ i, (transfer.bufs i).isSome.toNat

/-- Some of the buffers is not locked. -/
def anyUnlocked (svcBufs : Fin numSvcBufs → SvcBuf)
    (bufs : List (Fin numSvcBufs)) : Bool :=
  bufs.any fun i => !(svcBufs i).lock

/-- The pass which is under way will send something or free a buffer. -/
def promises (svcBufs : Fin numSvcBufs → SvcBuf) : Stage → Bool
  | .reinit => anyUnlocked svcBufs (List.finRange numSvcBufs)
  | .lock left | .free false left _ => anyUnlocked svcBufs left
  | .fill _ | .send .. | .freeMemory false .. => true
  | _ => false

theorem anyUnlocked_of_not_all {transfer : Transfer}
    (usable : ¬ AllLocked transfer) :
    anyUnlocked transfer.svcBufs (List.finRange numSvcBufs) = true := by
  obtain ⟨i, unlocked⟩ := not_forall.mp usable
  refine List.any_eq_true.mpr ⟨i, List.mem_finRange i, ?_⟩
  rw [Bool.eq_false_of_not_eq_true unlocked]
  rfl

theorem anyUnlocked_mono {svcBufs later : Fin numSvcBufs → SvcBuf}
    (unlocked : ∀ i, (svcBufs i).lock = false → (later i).lock = false)
    {bufs : List (Fin numSvcBufs)} (usable : anyUnlocked svcBufs bufs = true) :
    anyUnlocked later bufs = true := by
  obtain ⟨i, member, lock⟩ := List.any_eq_true.mp usable
  refine List.any_eq_true.mpr ⟨i, member, ?_⟩
  rw [Bool.not_eq_true'] at lock ⊢
  exact unlocked i lock

/-- A buffer which is passed over takes no promise with it. -/
theorem anyUnlocked_next {svcBufs : Fin numSvcBufs → SvcBuf}
    {i : Fin numSvcBufs} {left : List (Fin numSvcBufs)}
    (locked : (svcBufs i).lock = true)
    (usable : anyUnlocked svcBufs (i :: left) = true) :
    anyUnlocked svcBufs left = true := by
  rw [anyUnlocked, List.any_cons, locked] at usable
  exact usable

theorem promises_mono {svcBufs later : Fin numSvcBufs → SvcBuf}
    (unlocked : ∀ i, (svcBufs i).lock = false → (later i).lock = false)
    {stage : Stage} (promised : promises svcBufs stage = true) :
    promises later stage = true := by
  unfold promises at promised ⊢
  split at promised
  case h_1 | h_2 | h_3 => exact anyUnlocked_mono unlocked promised
  all_goals exact promised

/-! ## What a step does towards the end -/

/-- A step does some of what is left, or leaves all as it is. -/
structure Advances (transfer next : Transfer) : Prop where
  left : next.left ≤ transfer.left
  promised : promises transfer.svcBufs transfer.stage = true →
    next.left < transfer.left ∨
      promises next.svcBufs next.stage = true

theorem left_eq {transfer next : Transfer} (data : next.data = transfer.data)
    (bufs : next.bufs = transfer.bufs) : next.left = transfer.left := by
  rw [Transfer.left, Transfer.left, data, bufs]

/-- A step which leaves data and buffers alone. -/
theorem Advances.of_same {transfer next : Transfer}
    (data : next.data = transfer.data) (bufs : next.bufs = transfer.bufs)
    (promised : promises transfer.svcBufs transfer.stage = true →
      promises next.svcBufs next.stage = true) : Advances transfer next where
  left := (left_eq data bufs).le
  promised before := .inr (promised before)

theorem Advances.of_less {transfer next : Transfer}
    (less : next.left < transfer.left) : Advances transfer next where
  left := less.le
  promised _ := .inl less

/-- The same when nothing was promised. -/
theorem Advances.of_none {transfer next : Transfer}
    (none : promises transfer.svcBufs transfer.stage = false)
    (data : next.data = transfer.data) (bufs : next.bufs = transfer.bufs) :
    Advances transfer next :=
  .of_same data bufs fun before => Bool.noConfusion (before.symm.trans none)

theorem Passive.advances {transfer next : Transfer}
    (passive : Passive transfer next) : Advances transfer next := by
  refine .of_same passive.data passive.bufs fun promised => ?_
  rw [passive.stage]
  exact promises_mono passive.unlocked promised

/-- Sending makes the data less. -/
theorem left_send {transfer : Transfer} {size : Nat} (more : transfer.data ≠ [])
    (sent : size ≠ 0) :
    (transfer.data.drop size).length + ∑ i, (transfer.bufs i).isSome.toNat <
      transfer.left := by
  have long := List.length_pos_of_ne_nil more
  have short : (transfer.data.drop size).length < transfer.data.length := by
    rw [List.length_drop]
    omega
  exact Nat.add_lt_add_right short _

/-- Freeing a buffer makes the buffers fewer. -/
theorem left_free {transfer : Transfer} {i : Fin numSvcBufs}
    (there : (transfer.bufs i).isSome = true) :
    transfer.data.length +
        ∑ j, (Function.update transfer.bufs i none j).isSome.toNat <
      transfer.left := by
  refine Nat.add_lt_add_left (Finset.sum_lt_sum (fun j _ => ?_) ?_) _
  · rcases eq_or_ne j i with rfl | other
    · rw [Function.update_self]
      exact Nat.zero_le _
    · rw [Function.update_of_ne other]
  · refine ⟨i, Finset.mem_univ i, ?_⟩
    rw [Function.update_self, there]
    exact Nat.one_pos

section Write

variable {kbuf : Fin numSvcBufs → Addr} {image : List UInt8}
  {transfer next : Transfer} {answer : Option Errno}

theorem Fits.advances (fits : Fits kbuf image transfer)
    (written : s10OpsWrite answer transfer = some next)
    (taken : ¬ Refused transfer (.write answer)) : Advances transfer next := by
  obtain ⟨accounted, -, atStage⟩ := fits
  unfold s10OpsWrite at written
  cases stage : transfer.stage <;> rw [stage] at accounted atStage written
  case reinit =>
    dsimp only at written
    split at written <;> cases written
    all_goals
      refine .of_same rfl rfl fun promised => ?_
      rw [stage] at promised
      exact promised
  case lock left =>
    cases left with
    | nil =>
        cases written
        exact .of_none (by rw [stage]; rfl) rfl rfl
    | cons i left =>
        dsimp only at written
        split at written
        case isTrue locked =>
          cases written
          refine .of_same rfl rfl fun promised => ?_
          rw [stage] at promised
          exact anyUnlocked_next locked promised
        case isFalse =>
          cases written
          exact .of_same rfl (bufs_setLock transfer i true) fun _ => rfl
  case fill i =>
    dsimp only at written
    rw [accounted.working.working.2.1] at written
    cases written
    exact .of_same rfl rfl fun _ => rfl
  case send i svcBuf xferSz =>
    cases answer with
    | some err => exact absurd ⟨⟨i, svcBuf, xferSz, stage⟩, err, rfl⟩ taken
    | none =>
        cases written
        exact .of_less (left_send atStage.2.2.1 atStage.2.1)
  case unlock i =>
    cases written
    exact .of_none (by rw [stage]; rfl) rfl (bufs_setLock transfer i false)
  case free last left numFree =>
    cases left with
    | nil =>
        have none : promises transfer.svcBufs transfer.stage = false := by
          rw [stage]
          cases last <;> rfl
        dsimp only at written
        repeat' split at written
        all_goals
          cases written
          exact .of_none none rfl rfl
    | cons i left =>
        dsimp only at written
        split at written
        case h_1 gone =>
          cases written
          refine .of_same rfl rfl fun promised => ?_
          rw [stage] at promised
          -- a buffer which is gone is locked
          have locked : (transfer.svcBufs i).lock = true := by
            refine Bool.eq_true_of_not_eq_false fun unlocked => ?_
            have there := (accounted.held i).unlocked unlocked
            exact nomatch gone.symm.trans there
          cases last with
          | true => exact nomatch promised
          | false => exact anyUnlocked_next locked promised
        case h_2 =>
          split at written
          case isTrue locked =>
            cases written
            refine .of_same rfl rfl fun promised => ?_
            rw [stage] at promised
            cases last with
            | true => exact nomatch promised
            | false => exact anyUnlocked_next locked promised
          case isFalse =>
            cases written
            refine .of_same rfl (bufs_setLock transfer i true) fun promised => ?_
            rw [stage] at promised
            cases last with
            | true => exact nomatch promised
            | false => rfl
  case freeMemory last i svcBuf left numFree =>
    cases written
    refine .of_less ?_
    have there := accounted.working.working.2.1
    have less := left_free (Option.isSome_of_eq_some there)
    rw [← bufs_free] at less
    exact less
  case returned | faulted => exact nomatch written
  all_goals
    have none : promises transfer.svcBufs transfer.stage = false := by
      rw [stage]
      rfl
    dsimp only at written
    repeat' split at written
    all_goals cases written
    all_goals exact .of_none none rfl rfl

end Write

/-! ## Endless runs -/

/-- What is left counts twice, and once less while a pass promises some. -/
def Transfer.potential (transfer : Transfer) : Nat :=
  2 * transfer.left + (!promises transfer.svcBufs transfer.stage).toNat

theorem Advances.potential_le {transfer next : Transfer}
    (advances : Advances transfer next) :
    next.potential ≤ transfer.potential := by
  obtain ⟨left, promised⟩ := advances
  have most := Bool.toNat_le (!promises next.svcBufs next.stage)
  unfold Transfer.potential
  cases before : promises transfer.svcBufs transfer.stage with
  | false =>
      rw [Bool.not_false, Bool.toNat_true]
      omega
  | true =>
      rcases promised before with less | still
      · omega
      · rw [still]
        omega

/-- A pass with a buffer to use promises something. -/
theorem potential_lt {transfer next : Transfer} {answer : Option Errno}
    (iterates : Iterates transfer (.write answer))
    (usable : ¬ AllLocked transfer)
    (written : s10OpsWrite answer transfer = some next) :
    next.potential < transfer.potential := by
  obtain ⟨-, stage, goesOn⟩ := iterates
  have promised := anyUnlocked_of_not_all usable
  unfold s10OpsWrite at written
  rw [stage] at written
  dsimp only at written
  rw [if_pos goesOn] at written
  cases written
  unfold Transfer.potential
  rw [stage]
  dsimp only [promises]
  rw [promised]
  exact Nat.lt_succ_self _

section Runs

variable {states : Nat → Transfer} {labels : Nat → Action}

/-- The times at which a call goes through its loop once more. -/
def iterations (states : Nat → Transfer) (labels : Nat → Action)
    (call : Nat) : Set Nat :=
  {time | (states time).call = call ∧ Iterates (states time) (labels time)}

/-- The times at which a pass of a call comes to nothing. -/
def fruitless (states : Nat → Transfer) (labels : Nat → Action)
    (call : Nat) : Set Nat :=
  {time | (states time).call = call ∧ Fruitless (states time) (labels time)}

/-- The times at which a call does a step. -/
def steps (states : Nat → Transfer) (labels : Nat → Action)
    (call : Nat) : Set Nat :=
  {time | (states time).call = call ∧ (labels time).isWrite = true}

theorem call_le (isRun : IsRun Performs states labels) (time : Nat) :
    (states time).call ≤ (states (time + 1)).call := by
  rcases performs_cases (isRun time) with
    ⟨_, _, written⟩ | passive | next
  · exact (s10OpsWrite_same written).2.1.ge
  · exact passive.call.ge
  · exact (Nat.le_succ _).trans next.ge

/-- A call which goes round finitely often does finitely many steps. -/
theorem steps_finite (isRun : IsRun Performs states labels) {call : Nat}
    (finite : (iterations states labels call).Finite) :
    (steps states labels call).Finite := by
  obtain ⟨start, never⟩ := exists_never_after finite
  refine finite_of_measure_within (call_le isRun)
    (fun time => (states time).stage.rank) start
    (fun time later current next => ?_) fun time later current isWrite => ?_
  · rcases performs_cases (isRun time) with
      ⟨answer, label, written⟩ | passive | other
    · refine (rank_lt written fun iterates => ?_).le
      exact never time later ⟨current, label ▸ iterates⟩
    · exact (congrArg Stage.rank passive.stage).le
    · omega
  · obtain ⟨answer, label, written⟩ :=
      written_of_isWrite (isRun time) isWrite
    refine ⟨(s10OpsWrite_same written).2.1.trans current, ?_⟩
    refine rank_lt written fun iterates => ?_
    exact never time later ⟨current, label ▸ iterates⟩

theorem isWrite_of_fruitless {transfer : Transfer} {action : Action}
    (nothing : Fruitless transfer action) : action.isWrite = true := by
  rcases nothing with ⟨iterates, -⟩ | ⟨-, err, rfl⟩
  · exact iterates.isWrite
  · rfl

theorem iterations_finite {kbuf : Fin numSvcBufs → Addr} {image : List UInt8}
    (distinct : Function.Injective kbuf)
    (isRun : IsRun Performs states labels) (fits : Fits kbuf image (states 0))
    {call : Nat} (finite : (fruitless states labels call).Finite) :
    (iterations states labels call).Finite := by
  obtain ⟨start, never⟩ := exists_never_after finite
  have holds (time : Nat) : Fits kbuf image (states time) :=
    isRun.invariant (fun _ _ _ fits performs => fits.perform distinct performs)
      fits (Nat.zero_le time)
  refine finite_of_measure_within (call_le isRun)
    (fun time => (states time).potential) start
    (fun time later current next => ?_) fun time later current iterates => ?_
  · rcases performs_cases (isRun time) with
      ⟨answer, label, written⟩ | passive | other
    · refine ((holds time).advances written fun refused => ?_).potential_le
      exact never time later ⟨current, .inr (label ▸ refused)⟩
    · exact passive.advances.potential_le
    · omega
  · obtain ⟨answer, label, written⟩ :=
      written_of_isWrite (isRun time) iterates.isWrite
    refine ⟨(s10OpsWrite_same written).2.1.trans current, ?_⟩
    refine potential_lt (label ▸ iterates) (fun all => ?_) written
    exact never time later ⟨current, .inl ⟨iterates, all⟩⟩

/--
After a preparation which succeeded, all calls go round finitely often if and
only if in each of them finitely many passes come to nothing, whatever the
service layer does.
-/
theorem s10OpsWrite_ends_iff {env : InitEnv} {priv ready : Priv}
    (prepared : s10OpsWriteInit env priv = (ready, none))
    (distinct : env.Distinct) (memory : Addr → List UInt8)
    (fragment : List UInt8) (fragments : List (List UInt8))
    (isRun : IsRun Performs states labels)
    (begins : states 0 = startWrite ready memory fragment fragments) :
    (∀ call, (iterations states labels call).Finite) ↔
      ∀ call, (fruitless states labels call).Finite := by
  obtain ⟨kbuf, injective, -, fits⟩ :=
    exists_fits_start prepared distinct memory fragment fragments
  rw [← begins] at fits
  refine forall_congr' fun call => ⟨fun finite => ?_, fun finite => ?_⟩
  · exact (steps_finite isRun finite).subset fun time nothing =>
      ⟨nothing.1, isWrite_of_fruitless nothing.2⟩
  · exact iterations_finite injective isRun fits finite

end Runs

/-! ## A second call -/

/-- There is data, but all buffers have been freed. -/
structure Stuck (transfer : Transfer) : Prop where
  data : transfer.data ≠ []
  freed : ∀ i, (transfer.svcBufs i).buf = none
  locked : AllLocked transfer
  stage : transfer.stage = .head ∨ transfer.stage = .reinit ∨
    ∃ left, transfer.stage = .lock left

/-- The loop goes round without end. -/
theorem Stuck.write {transfer : Transfer} (stuck : Stuck transfer)
    (answer : Option Errno) :
    ∃ next, s10OpsWrite answer transfer = some next ∧ Stuck next := by
  obtain ⟨data, freed, locked, stage⟩ := stuck
  unfold s10OpsWrite
  rcases stage with stage | stage | ⟨left, stage⟩ <;> rw [stage] <;> dsimp only
  · rw [if_pos (.inl data)]
    exact ⟨_, rfl, data, freed, locked, .inr (.inl rfl)⟩
  · rw [if_pos data]
    exact ⟨_, rfl, data, freed, locked, .inr (.inr ⟨_, rfl⟩)⟩
  · cases left with
    | nil => exact ⟨_, rfl, data, freed, locked, .inl rfl⟩
    | cons i left =>
        dsimp only
        rw [if_pos (locked i)]
        exact ⟨_, rfl, data, freed, locked, .inr (.inr ⟨left, rfl⟩)⟩

/-- No callback finds a buffer to unlock. -/
theorem callbackOp_svcBufs {transfer : Transfer}
    (freed : ∀ i, (transfer.svcBufs i).buf = none) (op : CallbackOp) :
    (callbackOp op transfer).svcBufs = transfer.svcBufs := by
  cases op with
  | setBit | complete => rfl
  | unlockBufs kaddr =>
      cases kaddr with
      | none => rfl
      | some kaddr =>
          rw [callbackOp]
          split
          case h_1 => rfl
          case h_2 i found =>
            have matched := List.find?_some found
            have buf := of_decide_eq_true matched
            cases (freed i).symm.trans buf

theorem Stuck.perform {transfer next : Transfer} {action : Action}
    (stuck : Stuck transfer) (performs : Performs transfer action next) :
    Stuck next := by
  cases performs.moves with
  | @write answer _ written =>
      obtain ⟨same, again, onwards⟩ := stuck.write answer
      have reached : some same = some next := again.symm.trans written
      cases reached
      exact onwards
  | receive => exact ⟨stuck.data, stuck.freed, stuck.locked, stuck.stage⟩
  | @callback op =>
      have bufs := callbackOp_svcBufs stuck.freed op
      have same := callbackOp_same op transfer
      constructor
      · exact same.data ▸ stuck.data
      · intro i
        exact (same.bufs i).trans (stuck.freed i)
      · intro i
        exact (congrArg (fun svcBufs => (svcBufs i).lock) bufs).trans
          (stuck.locked i)
      · exact same.stage ▸ stuck.stage
  | nextFragment returned =>
      rcases stuck.stage with other | other | ⟨_, other⟩
      all_goals exact nomatch returned.symm.trans other

/-- A call with data which follows on one that succeeded never returns. -/
theorem nextFragment_stuck {kbuf : Fin numSvcBufs → Addr} {image : List UInt8}
    {transfer next : Transfer} (fits : Fits kbuf image transfer)
    (performs : Performs transfer .nextFragment next)
    (more : next.data ≠ []) {path : List (Action × Transfer)}
    (isPath : IsPath Performs next path) : Throughout Stuck next path := by
  refine throughout_of_invariant
    (fun _ _ _ stuck performs => stuck.perform performs) isPath ?_
  obtain ⟨accounted, -, atStage⟩ := fits
  cases performs.moves with
  | nextFragment stage ret =>
      rw [stage] at atStage
      have freed := (atStage ret).bufs
      refine ⟨more, freed, fun i => ?_, .inl rfl⟩
      refine Bool.eq_true_of_not_eq_false fun unlocked => ?_
      have there := (accounted.held i).unlocked unlocked
      exact nomatch (freed i).symm.trans there

/-! ## One fragment -/

/-- A callback of the service layer which returns nothing, again and again. -/
def idleCallbacks (time : Nat) : Action :=
  if time % 2 = 0 then .receive ⟨[], none, none, none⟩ else .callback

/-- The call is over, and only callbacks come. -/
def OnlyCallbacks (time : Nat) (transfer : Transfer) : Prop :=
  transfer.callback = if time % 2 = 0 then [] else [.complete]

theorem onlyCallbacks_goOn (time : Nat) (transfer : Transfer)
    (only : OnlyCallbacks time transfer) :
    ∃ next, perform transfer (idleCallbacks time) = some next ∧
      OnlyCallbacks (time + 1) next := by
  unfold OnlyCallbacks at only ⊢
  unfold idleCallbacks
  by_cases even : time % 2 = 0
  · have odd : (time + 1) % 2 ≠ 0 := by omega
    rw [if_pos even] at only ⊢
    rw [if_neg odd]
    refine ⟨_, if_pos ⟨only, List.nodup_nil, ?_⟩, rfl⟩
    exact fun addr member => absurd member List.not_mem_nil
  · have next : (time + 1) % 2 = 0 := by omega
    rw [if_neg even] at only ⊢
    rw [if_pos next, perform, only]
    exact ⟨_, rfl, rfl⟩

def oneFragmentLabels : Nat → Action :=
  thenForever takenThenReturned idleCallbacks

def oneFragmentStates : Nat → Transfer :=
  runOf (orSame perform) twoBytes oneFragmentLabels

theorem takenThenReturned_onlyCallbacks :
    OnlyCallbacks 0 (takenThenReturned.foldl (orSame perform) twoBytes) := by
  unfold OnlyCallbacks
  decide

theorem oneFragment_isRun :
    IsRun Performs oneFragmentStates oneFragmentLabels :=
  isRun_runOf onlyCallbacks_goOn (by decide) takenThenReturned_onlyCallbacks

/-- The call waits until its buffer has come back, and goes round no more. -/
theorem oneFragment_ends :
    IsRun Performs oneFragmentStates oneFragmentLabels ∧
      ∀ call, (iterations oneFragmentStates oneFragmentLabels call).Finite := by
  refine ⟨oneFragment_isRun, ?_⟩
  refine (s10OpsWrite_ends_iff (Prod.ext rfl (by decide)) granted_distinct
    (fun _ => []) [0x11, 0x22] [] oneFragment_isRun rfl).mpr fun call => ?_
  refine (Set.finite_Iio takenThenReturned.length).subset
    fun time nothing => Set.mem_Iio.mpr (Nat.lt_of_not_le fun later => ?_)
  obtain ⟨past, rfl⟩ := Nat.exists_eq_add_of_le later
  -- behind the call, no step is one of it
  have isWrite := isWrite_of_fruitless nothing.2
  rw [oneFragmentLabels, thenForever_add, idleCallbacks] at isWrite
  split_ifs at isWrite
  all_goals cases isWrite

/-! ## Two fragments -/

/-- The first of two fragments is about to be written. -/
def twoFragments : Transfer :=
  startWrite prepared (fun _ => []) [0x11] [[0x22]]

/-- The first call succeeds, and the second one begins. -/
def secondBegins : List Action :=
  takenThenReturned ++ [.nextFragment]

def twoFragmentsLabels : Nat → Action :=
  thenForever secondBegins fun _ => goOn

def twoFragmentsStates : Nat → Transfer :=
  runOf (orSame perform) twoFragments twoFragmentsLabels

/-- The second call is stuck. -/
def SecondStuck (transfer : Transfer) : Prop :=
  Stuck transfer ∧ transfer.call = 1

theorem secondStuck_goOn (transfer : Transfer) (stuck : SecondStuck transfer) :
    ∃ next, perform transfer goOn = some next ∧ SecondStuck next := by
  obtain ⟨next, written, onwards⟩ := stuck.1.write none
  have call := (s10OpsWrite_same written).2.1
  exact ⟨next, written, onwards, call.trans stuck.2⟩

theorem secondBegins_stuck :
    SecondStuck (secondBegins.foldl (orSame perform) twoFragments) where
  left := by
    refine ⟨by decide, by decide, ?_, .inl (by decide)⟩
    unfold AllLocked
    decide
  right := by decide

theorem twoFragments_isRun :
    IsRun Performs twoFragmentsStates twoFragmentsLabels :=
  isRun_runOf (fun _ => secondStuck_goOn) (by decide) secondBegins_stuck

/-- The service layer does all it should, and the second call is endless. -/
theorem twoFragments_endless :
    s10OpsWriteInit granted unprepared = (prepared, none) ∧
      IsRun Performs twoFragmentsStates twoFragmentsLabels ∧
        twoFragmentsStates 0 =
          startWrite prepared (fun _ => []) [0x11] [[0x22]] ∧
        ¬ ∀ call,
          (iterations twoFragmentsStates twoFragmentsLabels call).Finite := by
  refine ⟨Prod.ext rfl (by decide), twoFragments_isRun, rfl, fun finite => ?_⟩
  have steps := steps_finite twoFragments_isRun (finite 1)
  -- from some time on, each step is one of the second call
  refine Set.Ici_infinite secondBegins.length
    (steps.subset fun time later => ?_)
  obtain ⟨past, rfl⟩ := Nat.exists_eq_add_of_le (Set.mem_Ici.mp later)
  have stuck := endless_runOf (fun _ => secondStuck_goOn)
    secondBegins_stuck past
  rw [← runOf_thenForever] at stuck
  refine ⟨stuck.2, ?_⟩
  rw [twoFragmentsLabels, thenForever_add]
  rfl

end LinuxDfl.Fpga.Stratix10

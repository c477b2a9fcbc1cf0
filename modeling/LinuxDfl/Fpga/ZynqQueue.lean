import LinuxDfl.Fpga.Zynq
import LinuxDfl.Lib.Transition
import Mathlib.Data.BitVec

/-!
# The queue of the Zynq manager

Whoever feeds the queue, it is fed with the elements in order.  Nothing more
is queued once the handler has seen an error of the transfer, or once the
list is taken from it behind the wait.
-/

namespace LinuxDfl.Fpga.Zynq

open LinuxDfl.Kernel
open LinuxDfl.Lib.Transition

/-! ## The commands of a list -/

/-- The commands for all elements, of which only the last is marked. -/
def allCommands (table : SgTable) : List DmaCommand :=
  (table.sgl.take table.nelms).mapIdx fun index sg =>
    dmaCommand sg (index + 1 = table.nelms)

@[simp]
theorem length_allCommands (table : SgTable) :
    (allCommands table).length = table.nelms := by
  rw [allCommands, List.length_mapIdx, List.length_take,
    min_eq_left table.nelms_le]

theorem allCommands_take_succ (table : SgTable) {index : Nat}
    (inside : index < table.nelms) (inList : index < table.sgl.length) :
    (allCommands table).take (index + 1) =
      (allCommands table).take index ++
        [dmaCommand table.sgl[index] (index + 1 = table.nelms)] := by
  have inAll : index < (allCommands table).length := by
    rwa [length_allCommands]
  rw [List.take_add_one, List.getElem?_eq_getElem inAll]
  simp only [allCommands, List.getElem_mapIdx, List.getElem_take,
    Option.toList_some]

/-- All chunks of the image are aligned. -/
def Aligned (table : SgTable) : Prop :=
  ∀ sg ∈ table.sgl, sg.misaligned = false

theorem even_of_aligned {address : BitVec 32} (aligned : address % 8 = 0) :
    address.getLsbD 0 = false := by
  have low : address.toNat % 8 = 0 := congrArg BitVec.toNat aligned
  rw [BitVec.getLsbD, Nat.testBit_zero, decide_eq_false_iff_not]
  omega

theorem isLast_iff {table : SgTable} (aligned : Aligned table) {index : Nat}
    (inside : index < (allCommands table).length) :
    (allCommands table)[index].isLast = true ↔ index + 1 = table.nelms := by
  have inTaken : index < (table.sgl.take table.nelms).length := by
    rwa [allCommands, List.length_mapIdx] at inside
  have address := table.aligned aligned _ (List.getElem_mem inTaken)
  rw [List.getElem_take] at address
  have even := even_of_aligned address
  simp only [allCommands, List.getElem_mapIdx, List.getElem_take, dmaCommand,
    DmaCommand.isLast]
  by_cases last : index + 1 = table.nelms
  · simp [last, dmaSrcLastTransfer]
  · simpa [last] using even

/-! ## Feeding the queue -/

/-- The queue has been fed up to an element, and the list goes on there. -/
structure Feeding (table : SgTable) (dma : Dma) : Prop where
  nelms : dma.dmaNelms = table.nelms
  elm : dma.dmaElm < table.nelms
  curSg : dma.curSg = table.sgl.drop dma.dmaElm
  commands : dma.commands = (allCommands table).take dma.dmaElm

/-- The queue has been fed with all elements. -/
structure Fed (table : SgTable) (dma : Dma) : Prop where
  curSg : dma.curSg = []
  commands : dma.commands = allCommands table

/-- What feeding the queue leaves alone. -/
structure SameTransfer (dma last : Dma) : Prop where
  stage : last.stage = dma.stage
  isr : last.isr = dma.isr
  intSts : last.intSts = dma.intSts

theorem feedQueue_same (room : Nat) (dma : Dma) :
    SameTransfer dma (feedQueue room dma) := by
  induction room generalizing dma with
  | zero => exact ⟨rfl, rfl, rfl⟩
  | succ room ih =>
      rw [feedQueue]
      cases dma.curSg with
      | nil => exact ⟨rfl, rfl, rfl⟩
      | cons sg rest =>
          dsimp only
          split
          · obtain ⟨stage, isr, intSts⟩ := ih { dma with
              curSg := []
              commands := dma.commands ++ [dmaCommand sg true] }
            exact ⟨stage, isr, intSts⟩
          · obtain ⟨stage, isr, intSts⟩ := ih { dma with
              curSg := rest
              dmaElm := dma.dmaElm + 1
              commands := dma.commands ++ [dmaCommand sg false] }
            exact ⟨stage, isr, intSts⟩

theorem feedQueue_nil (room : Nat) {dma : Dma} (ended : dma.curSg = []) :
    feedQueue room dma = dma := by
  cases room with
  | zero => rfl
  | succ room => rw [feedQueue, ended]

/-- The queue is fed further, or with all that is left. -/
theorem feedQueue_fed {table : SgTable} (room : Nat) {dma : Dma}
    (feeding : Feeding table dma) :
    Feeding table (feedQueue room dma) ∨ Fed table (feedQueue room dma) := by
  induction room generalizing dma with
  | zero => exact .inl feeding
  | succ room ih =>
      obtain ⟨nelms, elm, curSg, commands⟩ := feeding
      have inList : dma.dmaElm < table.sgl.length :=
        elm.trans_le table.nelms_le
      have next := allCommands_take_succ table elm inList
      rw [← commands] at next
      rw [feedQueue, curSg, List.drop_eq_getElem_cons inList]
      dsimp only
      split
      case isTrue last =>
        -- the last element ends the list
        rw [nelms] at last
        rw [feedQueue_nil room rfl]
        refine .inr ⟨rfl, ?_⟩
        simp only [last, decide_true] at next
        rw [← next, ← length_allCommands table, List.take_length]
      case isFalse notLast =>
        rw [nelms] at notLast
        simp only [notLast, decide_false] at next
        have further : dma.dmaElm + 1 < table.nelms := by omega
        exact ih ⟨nelms, further, rfl, next.symm⟩

/-- The interrupt mask is all that is set behind the loop. -/
theorem zynqStepDma_eq (room : Nat) (dma : Dma) :
    ∃ intMask, zynqStepDma room dma =
      { feedQueue room dma with intMask := intMask } := by
  rw [zynqStepDma]
  dsimp only
  split
  · exact ⟨_, rfl⟩
  · split
    · exact ⟨_, rfl⟩
    · exact ⟨(feedQueue room dma).intMask, rfl⟩

theorem zynqStepDma_same (room : Nat) (dma : Dma) :
    SameTransfer dma (zynqStepDma room dma) := by
  obtain ⟨intMask, stepped⟩ := zynqStepDma_eq room dma
  obtain ⟨stage, isr, intSts⟩ := feedQueue_same room dma
  rw [stepped]
  exact ⟨stage, isr, intSts⟩

theorem zynqStepDma_fed {table : SgTable} (room : Nat) {dma : Dma}
    (feeding : Feeding table dma) :
    Feeding table (zynqStepDma room dma) ∨
      Fed table (zynqStepDma room dma) := by
  obtain ⟨intMask, stepped⟩ := zynqStepDma_eq room dma
  rw [stepped]
  rcases feedQueue_fed room feeding with ⟨nelms, elm, curSg, commands⟩ | fed
  · exact .inl ⟨nelms, elm, curSg, commands⟩
  · exact .inr ⟨fed.curSg, fed.commands⟩

/-! ## What holds at each stage -/

/-- Nothing is queued, and nothing is to be. -/
structure Idle (dma : Dma) : Prop where
  curSg : dma.curSg = []
  commands : dma.commands = []

/-- Nothing more is to be queued. -/
structure Stopped (table : SgTable) (dma : Dma) : Prop where
  curSg : dma.curSg = []
  commands : dma.commands <+: allCommands table

/-- All is done only when all is queued; bit 12 is that of `D_P_DONE`. -/
def DoneRight (table : SgTable) (dma : Dma) (status : BitVec 32) : Prop :=
  status.getLsbD 12 = true → dma.commands = allCommands table

/-- There are elements, and their number is noted. -/
structure Mapped (table : SgTable) (dma : Dma) : Prop where
  some : table.nelms ≠ 0
  nelms : dma.dmaNelms = table.nelms

/-- The list is there for the handler to feed the queue from. -/
def Stage.feeds : Stage → Bool
  | .wait | .stop _ => true
  | _ => false

/-- The first part under `dma_lock` is done, or is not to come. -/
def Stage.started : Stage → Bool
  | .check | .map | .clock | .clear | .reinit | .first => false
  | _ => true

/-- What holds when the call is about to do the step of a stage. -/
def FitsAt (table : SgTable) (dma : Dma) : Stage → Prop
  | .check => Idle dma
  | .map => Idle dma ∧ Aligned table
  | .clock | .clear => Idle dma ∧ Aligned table ∧ Mapped table dma
  | .reinit | .first =>
      Idle dma ∧ Aligned table ∧ Mapped table dma ∧
        DoneRight table dma dma.intSts
  | .wait | .stop _ =>
      (Feeding table dma ∨ Stopped table dma) ∧ Aligned table ∧
        DoneRight table dma dma.intSts
  | .readStatus _ =>
      Stopped table dma ∧ Aligned table ∧ DoneRight table dma dma.intSts
  | .clearStatus _ intrStatus | .judge _ intrStatus =>
      Stopped table dma ∧ Aligned table ∧ DoneRight table dma intrStatus
  | .returned ret _ =>
      Stopped table dma ∧ (Aligned table ∨ dma.commands = []) ∧
        (ret = none → dma.commands = allCommands table)

/-- What holds of a state. -/
def Fits (table : SgTable) (dma : Dma) : Prop :=
  FitsAt table dma dma.stage

theorem Idle.stopped {table : SgTable} {dma : Dma} (idle : Idle dma) :
    Stopped table dma :=
  ⟨idle.curSg, idle.commands ▸ List.nil_prefix⟩

theorem Feeding.queued {table : SgTable} {dma : Dma}
    (feeding : Feeding table dma) : dma.commands <+: allCommands table :=
  feeding.commands ▸ List.take_prefix _ _

/-- While the queue is fed, not all is queued. -/
theorem Feeding.commands_ne {table : SgTable} {dma : Dma}
    (feeding : Feeding table dma) : dma.commands ≠ allCommands table := by
  intro same
  have length := congrArg List.length same
  rw [feeding.commands, List.length_take, length_allCommands] at length
  have elm := feeding.elm
  omega

theorem Fits.queued {table : SgTable} {dma : Dma} (fits : Fits table dma) :
    dma.commands <+: allCommands table := by
  unfold Fits at fits
  cases stage : dma.stage <;> rw [stage] at fits
  case check => exact fits.stopped.commands
  case map | clock | clear | reinit | first =>
    exact fits.1.stopped.commands
  case wait | stop =>
    exact fits.1.elim Feeding.queued Stopped.commands
  case readStatus | clearStatus | judge | returned => exact fits.1.commands

theorem Fits.aligned {table : SgTable} {dma : Dma} (fits : Fits table dma) :
    Aligned table ∨ dma.commands = [] := by
  unfold Fits at fits
  cases stage : dma.stage <;> rw [stage] at fits
  case check => exact .inr fits.commands
  case map => exact .inl fits.2
  case clock | clear | reinit | first | wait | stop | readStatus
      | clearStatus | judge => exact .inl fits.2.1
  case returned => exact fits.2.1

/-- A command with the flag is the last one of all. -/
theorem Fits.all_of_lastIssued {table : SgTable} {dma : Dma}
    (fits : Fits table dma) (last : dma.lastIssued = true) :
    dma.commands = allCommands table := by
  obtain ⟨command, member, isLast⟩ := List.any_eq_true.mp last
  obtain ⟨index, inside, rfl⟩ := List.getElem_of_mem member
  rcases fits.aligned with aligned | none
  · have queued := fits.queued
    have inAll : index < (allCommands table).length :=
      inside.trans_le queued.length_le
    rw [queued.getElem inside] at isLast
    have ends := (isLast_iff aligned inAll).mp isLast
    refine queued.eq_of_length_le ?_
    rw [length_allCommands]
    omega
  · rw [none] at inside
    exact absurd inside (Nat.not_lt_zero index)

theorem and_dPDone (status : BitVec 32) :
    status &&& ixrDPDoneMask =
      if status.getLsbD 12 then ixrDPDoneMask else 0 :=
  BitVec.and_twoPow status 12

theorem dPDone_of_eq {status : BitVec 32}
    (done : status &&& ixrDPDoneMask = ixrDPDoneMask) :
    status.getLsbD 12 = true := by
  rw [and_dPDone] at done
  by_contra notDone
  rw [if_neg notDone] at done
  exact absurd done (by decide)

theorem and_dPDone_ne_zero {status : BitVec 32}
    (done : status.getLsbD 12 = true) : status &&& ixrDPDoneMask ≠ 0 := by
  rw [and_dPDone, if_pos done]
  decide

/-- Clearing bits sets none. -/
theorem getLsbD_clearSts {dma : Dma} {bits : BitVec 32}
    (set : (dma.clearSts bits).intSts.getLsbD 12 = true) :
    dma.intSts.getLsbD 12 = true := by
  rw [Dma.clearSts, BitVec.getLsbD_and, Bool.and_eq_true] at set
  exact set.1

theorem getLsbD_clearAll (dma : Dma) :
    (dma.clearSts ixrAllMask).intSts.getLsbD 12 = false := by
  rw [Dma.clearSts, BitVec.getLsbD_and]
  have cleared : (~~~ixrAllMask).getLsbD 12 = false := by decide
  rw [cleared, Bool.and_false]

/-! ## Which steps there are -/

/-- What an action leads to. -/
inductive Moves (table : SgTable) (dma : Dma) : Action → Dma → Prop where
  | raise {bits : BitVec 32}
      (allowed : ¬ (bits &&& ixrDPDoneMask ≠ 0 ∧ dma.lastIssued = false)) :
      Moves table dma (.raise bits) { dma with intSts := dma.intSts ||| bits }
  | isr (room : Nat) : Moves table dma (.isr room) (zynqFpgaIsr room dma)
  | write {clkEnable : Option Errno} {room : Nat} {timedOut : Bool} {next : Dma}
      (written : zynqFpgaOpsWrite table clkEnable room timedOut dma =
        some next) :
      Moves table dma (.write clkEnable room timedOut) next

theorem Performs.moves {table : SgTable} {dma next : Dma} {action : Action}
    (performs : Performs table dma action next) :
    Moves table dma action next := by
  unfold Performs perform at performs
  cases action with
  | raise bits =>
      dsimp only at performs
      split at performs
      case isTrue => exact nomatch performs
      case isFalse allowed =>
        cases performs
        exact .raise allowed
  | isr room =>
      cases performs
      exact .isr room
  | write clkEnable room timedOut => exact .write performs

/-! ## Steps which leave the queue alone -/

/-- The two states have the same queue. -/
structure SameQueue (dma last : Dma) : Prop where
  dmaElm : last.dmaElm = dma.dmaElm
  dmaNelms : last.dmaNelms = dma.dmaNelms
  curSg : last.curSg = dma.curSg
  commands : last.commands = dma.commands

theorem SameQueue.idle {dma last : Dma} (same : SameQueue dma last)
    (idle : Idle dma) : Idle last :=
  ⟨same.curSg.trans idle.curSg, same.commands.trans idle.commands⟩

theorem SameQueue.stopped {table : SgTable} {dma last : Dma}
    (same : SameQueue dma last) (stopped : Stopped table dma) :
    Stopped table last := by
  refine ⟨same.curSg.trans stopped.curSg, ?_⟩
  rw [same.commands]
  exact stopped.commands

theorem SameQueue.feeding {table : SgTable} {dma last : Dma}
    (same : SameQueue dma last) (feeding : Feeding table dma) :
    Feeding table last := by
  obtain ⟨dmaElm, dmaNelms, curSg, commands⟩ := same
  obtain ⟨nelms, elm, list, queued⟩ := feeding
  rw [← dmaElm] at elm list queued
  exact ⟨dmaNelms.trans nelms, elm, curSg.trans list,
    commands.trans queued⟩

theorem SameQueue.mapped {table : SgTable} {dma last : Dma}
    (same : SameQueue dma last) (mapped : Mapped table dma) :
    Mapped table last :=
  ⟨mapped.some, same.dmaNelms.trans mapped.nelms⟩

theorem SameQueue.doneRight {table : SgTable} {dma last : Dma}
    (same : SameQueue dma last) {status : BitVec 32}
    (right : DoneRight table dma status) : DoneRight table last status :=
  fun set => same.commands.trans (right set)

/-- What holds at a stage still does when the queue is left alone. -/
theorem FitsAt.of_sameQueue {table : SgTable} {dma last : Dma} {stage : Stage}
    (fits : FitsAt table dma stage) (same : SameQueue dma last)
    (done : DoneRight table dma dma.intSts →
      DoneRight table dma last.intSts) :
    FitsAt table last stage := by
  cases stage
  case check => exact same.idle fits
  case map => exact ⟨same.idle fits.1, fits.2⟩
  case clock | clear =>
    exact ⟨same.idle fits.1, fits.2.1, same.mapped fits.2.2⟩
  case reinit | first =>
    exact ⟨same.idle fits.1, fits.2.1, same.mapped fits.2.2.1,
      same.doneRight (done fits.2.2.2)⟩
  case wait | stop =>
    exact ⟨fits.1.imp same.feeding same.stopped, fits.2.1,
      same.doneRight (done fits.2.2)⟩
  case readStatus =>
    exact ⟨same.stopped fits.1, fits.2.1, same.doneRight (done fits.2.2)⟩
  case clearStatus | judge =>
    exact ⟨same.stopped fits.1, fits.2.1, same.doneRight fits.2.2⟩
  case returned =>
    refine ⟨same.stopped fits.1, ?_, fun none => ?_⟩
    · rw [same.commands]
      exact fits.2.1
    · exact same.commands.trans (fits.2.2 none)

/-- What is raised matters only for what it says of the transfer. -/
theorem Fits.raise {table : SgTable} {dma : Dma} (fits : Fits table dma)
    {bits : BitVec 32}
    (allowed : ¬ (bits &&& ixrDPDoneMask ≠ 0 ∧ dma.lastIssued = false)) :
    Fits table { dma with intSts := dma.intSts ||| bits } := by
  refine FitsAt.of_sameQueue fits ⟨rfl, rfl, rfl, rfl⟩ fun right set => ?_
  rw [BitVec.getLsbD_or, Bool.or_eq_true] at set
  rcases set with set | set
  · exact right set
  · refine fits.all_of_lastIssued (Bool.eq_true_of_not_eq_false fun none => ?_)
    exact allowed ⟨and_dPDone_ne_zero set, none⟩

/-! ## Steps of the handler -/

theorem FitsAt.curSg_eq_nil {table : SgTable} {dma : Dma} {stage : Stage}
    (fits : FitsAt table dma stage) (closed : stage.feeds = false) :
    dma.curSg = [] := by
  cases stage
  case check => exact fits.curSg
  case map | clock | clear | reinit | first => exact fits.1.curSg
  case wait | stop => exact nomatch closed
  case readStatus | clearStatus | judge | returned => exact fits.1.curSg

/-- What holds while the list is there. -/
theorem FitsAt.of_feeds {table : SgTable} {dma : Dma} {stage : Stage}
    (feeds : stage.feeds = true) :
    FitsAt table dma stage ↔
      (Feeding table dma ∨ Stopped table dma) ∧ Aligned table ∧
        DoneRight table dma dma.intSts := by
  cases stage
  case wait | stop => exact Iff.rfl
  all_goals exact nomatch feeds

theorem Fed.stopped {table : SgTable} {dma : Dma} (fed : Fed table dma) :
    Stopped table dma :=
  ⟨fed.curSg, fed.commands ▸ List.prefix_rfl⟩

/-- Feeding goes on, or ends with the last element. -/
theorem Fits.progress {table : SgTable} {dma : Dma} (fits : Fits table dma)
    (more : dma.curSg ≠ []) (room : Nat) :
    Fits table (zynqStepDma room (dma.clearSts ixrDmaDoneMask)) := by
  have feeds : dma.stage.feeds = true :=
    Bool.eq_true_of_not_eq_false fun closed =>
      more (FitsAt.curSg_eq_nil fits closed)
  obtain ⟨stage, -, intSts⟩ :=
    zynqStepDma_same room (dma.clearSts ixrDmaDoneMask)
  obtain ⟨list, aligned, right⟩ := (FitsAt.of_feeds feeds).mp fits
  have feeding : Feeding table dma :=
    list.resolve_right fun stopped => more stopped.curSg
  have unchanged : SameQueue dma (dma.clearSts ixrDmaDoneMask) :=
    ⟨rfl, rfl, rfl, rfl⟩
  unfold Fits
  rw [stage]
  refine (FitsAt.of_feeds feeds).mpr ⟨?_, aligned, fun set => ?_⟩
  · exact (zynqStepDma_fed room (unchanged.feeding feeding)).imp_right
      Fed.stopped
  · -- not all was queued, so all was not done either
    rw [intSts] at set
    exact absurd (right (getLsbD_clearSts set)) feeding.commands_ne

theorem Fits.isr {table : SgTable} {dma : Dma} (fits : Fits table dma)
    (room : Nat) : Fits table (zynqFpgaIsr room dma) := by
  rw [zynqFpgaIsr]
  cases dma.isr with
  | enter =>
      dsimp only
      split
      case isTrue more => exact fits.progress more.2.2 room
      case isFalse =>
        exact FitsAt.of_sameQueue fits ⟨rfl, rfl, rfl, rfl⟩ id
  | mask | complete =>
      exact FitsAt.of_sameQueue fits ⟨rfl, rfl, rfl, rfl⟩ id

/-! ## Steps of the call -/

/-- The first part under the lock, when there are elements. -/
theorem feeding_first {table : SgTable} {dma : Dma} (idle : Idle dma)
    (mapped : Mapped table dma) :
    Feeding table { dma with dmaElm := 0, curSg := table.sgl } where
  nelms := mapped.nelms
  elm := Nat.pos_of_ne_zero mapped.some
  curSg := List.drop_zero.symm
  commands := idle.commands

theorem FitsAt.first {table : SgTable} {dma : Dma}
    (fits : FitsAt table dma .first) (room : Nat) :
    FitsAt table
      (zynqStepDma room { dma with dmaElm := 0, curSg := table.sgl })
      .wait := by
  obtain ⟨idle, aligned, mapped, right⟩ := fits
  have fed := zynqStepDma_fed room (feeding_first idle mapped)
  refine ⟨fed.imp_right Fed.stopped, aligned, fun set => ?_⟩
  -- nothing was queued before, so all was not done either
  rw [(zynqStepDma_same room _).intSts] at set
  have length := length_allCommands table
  rw [← right set, idle.commands] at length
  exact absurd length.symm mapped.some

theorem aligned_of_check {table : SgTable}
    (aligned : ¬ table.sgl.any Scatterlist.misaligned = true) :
    Aligned table := by
  rw [Bool.not_eq_true, List.any_eq_false] at aligned
  exact fun sg member => Bool.eq_false_of_not_eq_true (aligned sg member)

/-- Nothing is reported only when all is queued. -/
theorem queued_of_judge {table : SgTable} {dma : Dma} {timedOut : Bool}
    {intrStatus : BitVec 32} (right : DoneRight table dma intrStatus)
    {why : Option String}
    (judged : judge timedOut intrStatus dma.curSg = .returned none why) :
    dma.commands = allCommands table := by
  unfold judge at judged
  split at judged
  · exact nomatch judged
  · split at judged
    case isTrue => split at judged <;> exact nomatch judged
    case isFalse complete =>
      rw [not_or] at complete
      exact right (dPDone_of_eq (not_not.mp complete.2))

theorem judge_returned (timedOut : Bool) (intrStatus : BitVec 32)
    (curSg : List Scatterlist) :
    ∃ ret why, judge timedOut intrStatus curSg = .returned ret why := by
  unfold judge
  split
  · exact ⟨_, _, rfl⟩
  · split
    · split
      · exact ⟨_, _, rfl⟩
      · exact ⟨_, _, rfl⟩
    · exact ⟨_, _, rfl⟩

/-- The next stage is entered with the queue as it is. -/
theorem FitsAt.enter {table : SgTable} {dma next : Dma} {stage : Stage}
    (fits : FitsAt table dma stage) (entered : next.stage = stage)
    (same : SameQueue dma next) (intSts : next.intSts = dma.intSts) :
    Fits table next := by
  unfold Fits
  rw [entered]
  refine fits.of_sameQueue same fun right => ?_
  rw [intSts]
  exact right

theorem Fits.write {table : SgTable} {dma next : Dma} (fits : Fits table dma)
    {clkEnable : Option Errno} {room : Nat} {timedOut : Bool}
    (written : zynqFpgaOpsWrite table clkEnable room timedOut dma =
      some next) : Fits table next := by
  unfold Fits at fits
  unfold zynqFpgaOpsWrite at written
  cases stage : dma.stage <;> rw [stage] at fits written <;>
    dsimp only at written
  case check =>
    split at written <;> cases written
    case isTrue =>
      have ended : FitsAt table dma (.returned (some .einval) none) :=
        ⟨fits.stopped, .inr fits.commands, nofun⟩
      exact ended.enter rfl ⟨rfl, rfl, rfl, rfl⟩ rfl
    case isFalse aligned =>
      have further : FitsAt table dma .map := ⟨fits, aligned_of_check aligned⟩
      exact further.enter rfl ⟨rfl, rfl, rfl, rfl⟩ rfl
  case map =>
    obtain ⟨⟨curSg, commands⟩, aligned⟩ := fits
    split at written <;> cases written
    case isTrue =>
      exact ⟨⟨curSg, commands ▸ List.nil_prefix⟩, .inl aligned, nofun⟩
    case isFalse more => exact ⟨⟨curSg, commands⟩, aligned, more, rfl⟩
  case clock =>
    obtain ⟨idle, aligned, mapped⟩ := fits
    cases clkEnable <;> cases written
    case some ret =>
      have ended : FitsAt table dma (.returned (some ret) none) :=
        ⟨idle.stopped, .inl aligned, nofun⟩
      exact ended.enter rfl ⟨rfl, rfl, rfl, rfl⟩ rfl
    case none =>
      have further : FitsAt table dma .clear := ⟨idle, aligned, mapped⟩
      exact further.enter rfl ⟨rfl, rfl, rfl, rfl⟩ rfl
  case clear =>
    cases written
    obtain ⟨⟨curSg, commands⟩, aligned, more, nelms⟩ := fits
    refine ⟨⟨curSg, commands⟩, aligned, ⟨more, nelms⟩, fun set => ?_⟩
    have cleared := getLsbD_clearAll dma
    exact absurd (set.symm.trans cleared) (by decide)
  case reinit =>
    cases written
    have further : FitsAt table dma .first := fits
    exact further.enter rfl ⟨rfl, rfl, rfl, rfl⟩ rfl
  case first =>
    cases written
    rw [← stage]
    have further := FitsAt.first fits room
    exact further.enter rfl ⟨rfl, rfl, rfl, rfl⟩ rfl
  case wait =>
    split at written
    case isTrue =>
      cases written
      have further : FitsAt table dma (.stop true) := fits
      exact further.enter rfl ⟨rfl, rfl, rfl, rfl⟩ rfl
    case isFalse =>
      split at written <;> cases written
      have further : FitsAt table dma (.stop false) := fits
      exact further.enter rfl ⟨rfl, rfl, rfl, rfl⟩ rfl
  case stop =>
    cases written
    obtain ⟨list, aligned, right⟩ := fits
    have queued : dma.commands <+: allCommands table :=
      list.elim Feeding.queued Stopped.commands
    exact ⟨⟨rfl, queued⟩, aligned, right⟩
  case readStatus timedOut =>
    cases written
    have further : FitsAt table dma (.clearStatus timedOut dma.intSts) := fits
    exact further.enter rfl ⟨rfl, rfl, rfl, rfl⟩ rfl
  case clearStatus =>
    cases written
    obtain ⟨⟨curSg, queued⟩, aligned, right⟩ := fits
    exact ⟨⟨curSg, queued⟩, aligned, right⟩
  case judge timedOut intrStatus =>
    cases written
    obtain ⟨stopped, aligned, right⟩ := fits
    have ended : FitsAt table dma (judge timedOut intrStatus dma.curSg) := by
      obtain ⟨ret, why, judged⟩ := judge_returned timedOut intrStatus dma.curSg
      rw [judged]
      refine ⟨stopped, .inl aligned, fun none => ?_⟩
      rw [none] at judged
      exact queued_of_judge right judged
    exact ended.enter rfl ⟨rfl, rfl, rfl, rfl⟩ rfl
  case returned => exact nomatch written

end LinuxDfl.Fpga.Zynq

import LinuxDfl.Fpga.ZynqQueue

/-!
# A transfer of the Zynq manager

Whatever interrupts come, and whenever the queue is full, the commands of one
call are the first elements of the list, and all of them when the call says
that all went well.  Two things end the queueing for good: an error which the
handler sees once the queue has been fed, and the second part under the lock.
-/

namespace LinuxDfl.Fpga.Zynq

open LinuxDfl.Kernel
open LinuxDfl.Lib.Transition

/-! ## Every state -/

/-- What has been queued is in order, and nothing is missing in the end. -/
structure Sound (table : SgTable) (dma : Dma) : Prop where
  queued : dma.commands <+: allCommands table
  last : ∀ (index : Nat) (inside : index < dma.commands.length),
    dma.commands[index].isLast = true ↔ index + 1 = table.nelms
  all : ∀ why, dma.stage = .returned none why →
    dma.commands = allCommands table

theorem Fits.last {table : SgTable} {dma : Dma} (fits : Fits table dma)
    (index : Nat) (inside : index < dma.commands.length) :
    dma.commands[index].isLast = true ↔ index + 1 = table.nelms := by
  have inAll : index < (allCommands table).length :=
    inside.trans_le fits.queued.length_le
  rcases fits.aligned with aligned | none
  · rw [fits.queued.getElem inside]
    exact isLast_iff aligned inAll
  · have empty : index < 0 := by rwa [none] at inside
    exact absurd empty (Nat.not_lt_zero index)

theorem Fits.sound {table : SgTable} {dma : Dma} (fits : Fits table dma) :
    Sound table dma where
  queued := fits.queued
  last := fits.last
  all why returned := by
    unfold Fits at fits
    rw [returned] at fits
    exact fits.2.2 rfl

theorem Fits.perform {table : SgTable} {dma next : Dma} {action : Action}
    (fits : Fits table dma) (performs : Performs table dma action next) :
    Fits table next := by
  cases performs.moves with
  | raise allowed => exact fits.raise allowed
  | isr room => exact fits.isr room
  | write written => exact fits.write written

theorem Begins.fits {dma : Dma} (begins : Begins dma) (table : SgTable) :
    Fits table dma := by
  unfold Fits
  rw [begins.stage]
  exact ⟨begins.curSg, begins.commands⟩

/-! ## When the queueing ends -/

def Action.isIsr : Action → Bool
  | .isr _ => true
  | _ => false

def Action.isWrite : Action → Bool
  | .write .. => true
  | _ => false

/-- The handler is called, and it reads an error. -/
def ErrorInterrupt (dma : Dma) (action : Action) : Prop :=
  action.isIsr = true ∧ dma.isr = .enter ∧
    dma.intSts &&& ixrErrorFlagsMask ≠ 0

instance (dma : Dma) (action : Action) :
    Decidable (ErrorInterrupt dma action) :=
  inferInstanceAs (Decidable (_ ∧ _))

/-- The call has waited. -/
def WaitEnds (dma : Dma) (action : Action) : Prop :=
  action.isWrite = true ∧ dma.stage = .wait

instance (dma : Dma) (action : Action) : Decidable (WaitEnds dma action) :=
  inferInstanceAs (Decidable (_ ∧ _))

/-- The list is taken from the handler, behind the wait. -/
def ListTaken (dma : Dma) (action : Action) : Prop :=
  action.isWrite = true ∧ ∃ timedOut, dma.stage = .stop timedOut

/-- No command is issued after a step which ends the queueing. -/
def NoneAfter (ends : Dma → Action → Prop) (dma : Dma)
    (path : List (Action × Dma)) : Prop :=
  FixedAfter (fun source action _ => ends source action) Dma.commands dma path

/--
Nothing is queued any more: the list is gone, or an error is there which
keeps the handler from it.
-/
structure Quiet (dma : Dma) : Prop where
  started : dma.stage.started = true
  ends : dma.curSg = [] ∨
    dma.stage.feeds = true ∧ dma.intSts &&& ixrErrorFlagsMask ≠ 0

theorem and_or_ne_zero {bits more mask : BitVec 32}
    (set : bits &&& mask ≠ 0) : (bits ||| more) &&& mask ≠ 0 := by
  intro none
  rw [BitVec.and_or_distrib_right] at none
  exact set (BitVec.or_eq_zero_iff.mp none).1

theorem Quiet.raise {dma : Dma} (quiet : Quiet dma) (bits : BitVec 32) :
    Quiet { dma with intSts := dma.intSts ||| bits } where
  started := quiet.started
  ends := quiet.ends.imp_right fun ⟨feeds, error⟩ =>
    ⟨feeds, and_or_ne_zero error⟩

theorem Quiet.isr {dma : Dma} (quiet : Quiet dma) (room : Nat) :
    Quiet (zynqFpgaIsr room dma) ∧
      (zynqFpgaIsr room dma).commands = dma.commands := by
  obtain ⟨started, ends⟩ := quiet
  rw [zynqFpgaIsr]
  cases dma.isr with
  | enter =>
      have stays : ¬ (dma.intSts &&& ixrErrorFlagsMask = 0 ∧
          dma.intSts &&& ixrDmaDoneMask ≠ 0 ∧ dma.curSg ≠ []) := by
        rintro ⟨noError, -, more⟩
        exact ends.elim more fun error => error.2 noError
      dsimp only
      rw [if_neg stays]
      exact ⟨⟨started, ends⟩, rfl⟩
  | mask | complete => exact ⟨⟨started, ends⟩, rfl⟩

theorem Quiet.write {table : SgTable} {dma next : Dma} (quiet : Quiet dma)
    {clkEnable : Option Errno} {room : Nat} {timedOut : Bool}
    (written : zynqFpgaOpsWrite table clkEnable room timedOut dma =
      some next) : Quiet next ∧ next.commands = dma.commands := by
  obtain ⟨started, ends⟩ := quiet
  unfold zynqFpgaOpsWrite at written
  cases stage : dma.stage <;> rw [stage] at started ends written <;>
    dsimp only at written
  case check | map | clock | clear | reinit | first => exact nomatch started
  case wait =>
    split at written
    case isTrue =>
      cases written
      exact ⟨⟨rfl, ends⟩, rfl⟩
    case isFalse =>
      split at written <;> cases written
      exact ⟨⟨rfl, ends⟩, rfl⟩
  case stop =>
    cases written
    exact ⟨⟨rfl, .inl rfl⟩, rfl⟩
  case readStatus | clearStatus =>
    have ended : dma.curSg = [] :=
      ends.resolve_right fun fed => nomatch fed.1
    cases written
    exact ⟨⟨rfl, .inl ended⟩, rfl⟩
  case judge timedOut intrStatus =>
    have ended : dma.curSg = [] :=
      ends.resolve_right fun fed => nomatch fed.1
    obtain ⟨ret, why, judged⟩ := judge_returned timedOut intrStatus dma.curSg
    rw [judged] at written
    cases written
    exact ⟨⟨rfl, .inl ended⟩, rfl⟩
  case returned => exact nomatch written

theorem Quiet.perform {table : SgTable} {dma next : Dma} {action : Action}
    (quiet : Quiet dma) (performs : Performs table dma action next) :
    Quiet next ∧ next.commands = dma.commands := by
  cases performs.moves with
  | raise => exact ⟨quiet.raise _, rfl⟩
  | isr room => exact quiet.isr room
  | write written => exact quiet.write written

/-- An error which is seen once the queue has been fed ends the queueing. -/
theorem quiet_of_error {table : SgTable} {dma next : Dma} {action : Action}
    (fits : Fits table dma) (performs : Performs table dma action next)
    (started : dma.stage.started = true) (error : ErrorInterrupt dma action) :
    Quiet next := by
  obtain ⟨isIsr, enter, errors⟩ := error
  have quiet : Quiet dma := by
    refine ⟨started, ?_⟩
    cases feeds : dma.stage.feeds with
    | false => exact .inl (FitsAt.curSg_eq_nil fits feeds)
    | true => exact .inr ⟨rfl, errors⟩
  exact (quiet.perform performs).1

/-- The second part under the lock ends the queueing. -/
theorem quiet_of_listTaken {table : SgTable} {dma next : Dma}
    {action : Action} (performs : Performs table dma action next)
    (taken : ListTaken dma action) : Quiet next := by
  obtain ⟨isWrite, timedOut, stage⟩ := taken
  cases performs.moves with
  | raise | isr => exact nomatch isWrite
  | write written =>
      unfold zynqFpgaOpsWrite at written
      rw [stage] at written
      cases written
      exact ⟨rfl, .inl rfl⟩

/--
What is queued is right at any time.  Nothing is queued after an error which
the handler sees once the queue has been fed, nor when the list is taken
behind the wait.
-/
theorem zynqFpgaOpsWrite_queues (table : SgTable) {dma : Dma}
    (begins : Begins dma) {path : List (Action × Dma)}
    (isPath : IsPath (Performs table) dma path) :
    Throughout (Sound table) dma path ∧
      NoneAfter
        (fun source action =>
          source.stage.started = true ∧ ErrorInterrupt source action ∨
            ListTaken source action)
        dma path := by
  have preserved (source : Dma) (action : Action) (target : Dma)
      (fits : Fits table source)
      (performs : Performs table source action target) :
      Fits table target :=
    fits.perform performs
  have initial : Fits table dma := begins.fits table
  have kept (source : Dma) (action : Action) (target : Dma)
      (quiet : Quiet source) (performs : Performs table source action target) :
      Quiet target ∧ target.commands = source.commands :=
    quiet.perform performs
  constructor
  · exact (throughout_of_invariant preserved isPath initial).mono
      fun _ fits => fits.sound
  · refine fixedAfter_of_quiet kept (Fits table) preserved ?_ isPath initial
    rintro source action target fits performs (⟨started, error⟩ | taken)
    · exact quiet_of_error fits performs started error
    · exact quiet_of_listTaken performs taken

/-! ## Two chunks -/

/-- Two chunks, in pages of their own. -/
def twoChunks : SgTable where
  sgl :=
    [{ offset := 0, length := 8, dmaAddress := 0x1000, dmaLength := 8 },
      { offset := 0, length := 4, dmaAddress := 0x2000, dmaLength := 4 }]
  nelms := 2
  nelms_le := le_rfl
  aligned := by decide

/-- The driver after its probe. -/
def probed : Dma where
  stage := .check
  isr := .enter
  dmaElm := 0
  dmaNelms := 0
  curSg := []
  dmaDone := 0
  intSts := 0
  intMask := ~~~0
  commands := []

theorem twoChunks_aligned : Aligned twoChunks := by
  unfold Aligned
  decide

theorem probed_begins : Begins probed := ⟨rfl, rfl, rfl⟩

/-- The path of actions which are taken one after the other. -/
def pathFrom (actions : List Action) : List (Action × Dma) :=
  pathOf (orSame (perform twoChunks)) probed actions

/-- The call goes on; the clock comes up and the queue takes one command. -/
def goOn : Action := .write none 1 false

/-- One command is queued by the call, the other one by the handler. -/
def oneByOne : List Action :=
  [goOn, goOn, goOn, goOn, goOn, goOn, .raise ixrDmaDoneMask, .isr 1,
    .raise ixrDPDoneMask, .isr 1, .isr 1, .isr 1, goOn, goOn, goOn, goOn,
    goOn]

theorem oneByOne_queues :
    (Throughout (Sound twoChunks) probed (pathFrom oneByOne) ∧
        NoneAfter
          (fun source action =>
            source.stage.started = true ∧ ErrorInterrupt source action ∨
              ListTaken source action)
          probed (pathFrom oneByOne)) ∧
      (oneByOne.foldl (orSame (perform twoChunks)) probed).stage =
        .returned none none :=
  ⟨zynqFpgaOpsWrite_queues twoChunks probed_begins
      (isPath_of_allTaken (by decide)),
    by decide⟩

/-- The handler reads an error before the first part under the lock. -/
def errorBeforeFirst : List Action :=
  [goOn, goOn, goOn, goOn, .raise 0x00800000, .isr 1, goOn, goOn]

/-- The handler is faster than the call whose wait has timed out. -/
def doneAfterWait : List Action :=
  [goOn, goOn, goOn, goOn, goOn, goOn, .write none 1 true,
    .raise ixrDmaDoneMask, .isr 1]

/-- A command follows the error, and another one follows the wait. -/
theorem twoChunks_queued_after :
    Begins probed ∧ Aligned twoChunks ∧
      (IsPath (Performs twoChunks) probed (pathFrom errorBeforeFirst) ∧
        ¬ NoneAfter ErrorInterrupt probed (pathFrom errorBeforeFirst)) ∧
      IsPath (Performs twoChunks) probed (pathFrom doneAfterWait) ∧
        ¬ NoneAfter WaitEnds probed (pathFrom doneAfterWait) := by
  refine ⟨probed_begins, twoChunks_aligned,
    ⟨isPath_of_allTaken (by decide), ?_⟩, isPath_of_allTaken (by decide), ?_⟩
  · unfold NoneAfter
    decide
  · unfold NoneAfter
    decide

end LinuxDfl.Fpga.Zynq

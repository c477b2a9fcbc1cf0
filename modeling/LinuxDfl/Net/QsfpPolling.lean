import LinuxDfl.Net.QsfpHotplug

/-!
# When QSFP modules are polled

A module is done, and polling mode is enabled, behind a complete selection of
page 0 which met no error, and both are off once the device is removed.  Two
things break this: a word which cannot be sent is not missed, and a check
which runs while the device is removed may enable polling mode again.
-/

namespace LinuxDfl.Net.QsfpMem

open LinuxDfl.Lib.Transition

/-! ## Polling mode -/

theorem pollEn_conf (value : BitVec 64) (written : List (Nat × BitVec 64)) :
    pollEn ((confOff, value) :: written) = value.getLsbD pollEnBit := rfl

theorem pollEn_other {offset : Nat} (other : offset ≠ confOff)
    (value : BitVec 64) (written : List (Nat × BitVec 64)) :
    pollEn ((offset, value) :: written) = pollEn written := by
  unfold pollEn conf
  rw [List.find?_cons_of_neg (by simpa using other)]

theorem pollEn_initWrites (written : List (Nat × BitVec 64)) :
    pollEn (initWrites ++ written) = pollEn written := rfl

/-! ## Page selections -/

/-- The last page selection was complete, and no flag was read behind it. -/
def PageSelected (sequence : List (BitVec 32)) (isr : Option (BitVec 32)) :
    Prop :=
  sequence = pageSelect ∧ ∃ st ∈ isr, st &&& i2cIsrClearFlags = 0

/-- What was sent of a page selection, if these words are left. -/
def Sent (words sequence : List (BitVec 32)) (timedOut : Bool) : Prop :=
  ∃ before, before ++ words = pageSelect ∧
    (timedOut = false → sequence = before) ∧
      (timedOut = true → sequence.length < before.length)

theorem sent_begin : Sent pageSelect [] false :=
  ⟨[], rfl, fun _ => rfl, nofun⟩

section Words

variable {word : BitVec 32} {words sequence : List (BitVec 32)}
variable {timedOut : Bool}

theorem Sent.put (sent : Sent (word :: words) sequence timedOut) :
    Sent words (sequence ++ [word]) timedOut := by
  obtain ⟨before, split, all, fewer⟩ := sent
  refine ⟨before ++ [word], by simpa using split, fun inTime => ?_,
    fun late => ?_⟩
  · rw [all inTime]
  · simpa using fewer late

theorem Sent.drop (sent : Sent (word :: words) sequence timedOut) :
    Sent words sequence true := by
  obtain ⟨before, split, all, fewer⟩ := sent
  refine ⟨before ++ [word], by simpa using split, nofun, fun _ => ?_⟩
  rw [List.length_append, List.length_singleton, Nat.lt_succ_iff]
  cases timedOut with
  | false => exact (congrArg List.length (all rfl)).le
  | true => exact (fewer rfl).le

/-- A selection is complete if and only if no word was dropped. -/
theorem Sent.complete_iff (sent : Sent [] sequence timedOut) :
    sequence = pageSelect ↔ timedOut = false := by
  obtain ⟨before, split, all, fewer⟩ := sent
  obtain rfl : before = pageSelect := by simpa using split
  constructor
  · rintro rfl
    by_contra late
    exact lt_irrefl _ (fewer (Bool.eq_true_of_not_eq_false late))
  · exact all

end Words

/-! ## Steps of a check -/

/-- The steps of a check. -/
inductive CheckMoves (qsfp : Qsfp) : CheckAct → Qsfp → Prop where
  | start (here : qsfp.run = none) (due : qsfp.pending = true) :
      CheckMoves qsfp .start { qsfp.go .lock with pending := false }
  | lock (here : qsfp.run = some .lock) :
      CheckMoves qsfp .go (qsfp.go .readStat)
  | readStat (status : BitVec 64) (here : qsfp.run = some .readStat) :
      CheckMoves qsfp (.stat status)
        (hotplug qsfp (checkQsfpPlugin status))
  | resetModule (here : qsfp.run = some .resetModule) :
      CheckMoves qsfp .go (qsfp.write confOff confReset .selectModule)
  | selectModule (here : qsfp.run = some .selectModule) :
      CheckMoves qsfp .go (qsfp.write confOff confModSel .initI2c)
  | initI2c (here : qsfp.run = some .initI2c) :
      CheckMoves qsfp .go
        ({ qsfp with written := initWrites ++ qsfp.written }.beginSequence 0)
  | send (cnt : Nat) (word : BitVec 32) (words levels : List (BitVec 32))
      (here : qsfp.run = some (.send cnt (word :: words))) :
      CheckMoves qsfp (.poll levels)
        (qsfp.i2cSend word levels (Qsfp.behindWord cnt words))
  | drained (cnt : Nat) (levels : List (BitVec 32))
      (here : qsfp.run = some (.drain cnt)) :
      CheckMoves qsfp (.poll levels) (qsfp.go (.readIsr cnt))
  | notDrained (cnt : Nat) (levels : List (BitVec 32))
      (here : qsfp.run = some (.drain cnt)) :
      CheckMoves qsfp (.poll levels) (qsfp.go .unlock)
  | readIsr (cnt : Nat) (st : BitVec 32)
      (here : qsfp.run = some (.readIsr cnt)) :
      CheckMoves qsfp (.isr st)
        { qsfp.go (if st &&& i2cIsrClearFlags = 0 then .enablePolling
            else .clearIsr cnt) with
          isr := some st }
  | tryAgain (cnt : Nat) (here : qsfp.run = some (.clearIsr cnt)) :
      CheckMoves qsfp .go
        ((qsfp.write i2cIsr (i2cIsrClearFlags.setWidth 64) .unlock).beginSequence
          (cnt + 1))
  | giveUp (cnt : Nat) (here : qsfp.run = some (.clearIsr cnt)) :
      CheckMoves qsfp .go
        (qsfp.write i2cIsr (i2cIsrClearFlags.setWidth 64) .unlock)
  | enablePolling (here : qsfp.run = some .enablePolling) :
      CheckMoves qsfp .go (qsfp.write confOff confPollEn .setDone)
  | setDone (here : qsfp.run = some .setDone) :
      CheckMoves qsfp .go { qsfp.go .unlock with init := .done }
  | unlock (here : qsfp.run = some .unlock) :
      CheckMoves qsfp .go (qsfp.go .schedule)
  | schedule (here : qsfp.run = some .schedule) :
      CheckMoves qsfp .go
        { qsfp with pending := qsfp.pc ≠ .flush, run := none }

theorem checkMoves_of_checkStepAt {qsfp next : Qsfp} {pc : CheckPc}
    {act : CheckAct} (here : qsfp.run = some pc)
    (steps : checkStepAt qsfp pc act = some next) :
    CheckMoves qsfp act next := by
  cases pc with
  | lock =>
      cases act <;> cases steps
      exact .lock here
  | readStat =>
      cases act <;> cases steps
      exact .readStat _ here
  | resetModule =>
      cases act <;> cases steps
      exact .resetModule here
  | selectModule =>
      cases act <;> cases steps
      exact .selectModule here
  | initI2c =>
      cases act <;> cases steps
      exact .initI2c here
  | send cnt words =>
      cases words with
      | nil => cases act <;> cases steps
      | cons word words =>
          cases act <;> cases steps
          exact .send cnt word words _ here
  | drain cnt =>
      cases act with
      | poll levels =>
          unfold checkStepAt at steps
          dsimp only at steps
          split at steps
          · exact Option.some.inj steps ▸ .drained cnt levels here
          · exact Option.some.inj steps ▸ .notDrained cnt levels here
      | _ => cases steps
  | readIsr cnt =>
      cases act <;> cases steps
      exact .readIsr cnt _ here
  | clearIsr cnt =>
      cases act <;> cases steps
      split
      · exact .tryAgain cnt here
      · exact .giveUp cnt here
  | enablePolling =>
      cases act <;> cases steps
      exact .enablePolling here
  | setDone =>
      cases act <;> cases steps
      exact .setDone here
  | unlock =>
      cases act <;> cases steps
      exact .unlock here
  | schedule =>
      cases act <;> cases steps
      exact .schedule here

theorem checkMoves_of_checkStep {qsfp next : Qsfp} {act : CheckAct}
    (steps : checkStep qsfp act = some next) : CheckMoves qsfp act next := by
  unfold checkStep at steps
  split at steps
  case h_1 pc here => exact checkMoves_of_checkStepAt here steps
  case h_2 here =>
    split at steps
    case isTrue starts =>
      obtain ⟨rfl, due⟩ := starts
      exact Option.some.inj steps ▸ .start here due
    case isFalse => cases steps

/-! ## What is known of a device -/

section Places

variable (init : QsfpInitStatus) (polling : Bool)
variable (sequence : List (BitVec 32)) (isr : Option (BitVec 32))
variable (timedOut : Bool)

/-- What the last page selection has led to, it has led to rightly. -/
def Settled : Prop :=
  (init = .done → PageSelected sequence isr) ∧
    (polling = true → PageSelected sequence isr)

/-- What is known by the place of the check. -/
def KnownAt : Option CheckPc → Prop
  | none | some .lock | some .readStat | some .unlock | some .schedule =>
      Settled init polling sequence isr
  | some .resetModule => init = .reset ∧ Settled init polling sequence isr
  | some .selectModule | some .initI2c | some (.clearIsr _) =>
      init = .reset ∧ polling = false
  | some (.send _ words) =>
      init = .reset ∧ polling = false ∧ Sent words sequence timedOut
  | some (.drain _) | some (.readIsr _) =>
      init = .reset ∧ polling = false ∧ Sent [] sequence timedOut
  | some .enablePolling =>
      init = .reset ∧ polling = false ∧ Sent [] sequence timedOut ∧
        ∃ st ∈ isr, st &&& i2cIsrClearFlags = 0
  | some .setDone => PageSelected sequence isr

variable {init polling sequence isr timedOut}

theorem settled_of_off (reset : init = .reset) (off : polling = false) :
    Settled init polling sequence isr := by
  subst reset off
  exact ⟨nofun, nofun⟩

/-- Polling mode may be disabled at any place. -/
theorem KnownAt.off {run : Option CheckPc}
    (known : KnownAt init polling sequence isr timedOut run) :
    KnownAt init false sequence isr timedOut run := by
  unfold KnownAt at known ⊢
  split <;> simp_all [Settled]

theorem knownAt_behindWord {cnt : Nat} {words : List (BitVec 32)}
    (reset : init = .reset) (off : polling = false)
    (sent : Sent words sequence timedOut) :
    KnownAt init polling sequence isr timedOut
      (some (Qsfp.behindWord cnt words)) := by
  cases words with
  | nil => exact ⟨reset, off, sent⟩
  | cons word words => exact ⟨reset, off, sent⟩

end Places

/-- Where the driver is, nothing is pending or running which must not. -/
def StoppedAt (pending : Bool) (run : Option CheckPc) : ProcPc → Prop
  | .initWork | .removed => pending = false ∧ run = none
  | .flush => pending = false
  | _ => True

/-- What is known of a device while nothing has gone wrong. -/
structure Known (qsfp : Qsfp) : Prop where
  check : KnownAt qsfp.init (pollEn qsfp.written) qsfp.sequence qsfp.isr
    qsfp.timedOut qsfp.run
  stopped : StoppedAt qsfp.pending qsfp.run qsfp.pc
  off : qsfp.pc.removing = true → pollEn qsfp.written = false

/-- What is asked of a device. -/
structure Sound (qsfp : Qsfp) : Prop where
  done : qsfp.init = .done → PageSelected qsfp.sequence qsfp.isr
  polling :
    pollEn qsfp.written = true → PageSelected qsfp.sequence qsfp.isr
  removed :
    qsfp.pc = .removed →
      pollEn qsfp.written = false ∧ qsfp.pending = false ∧ qsfp.run = none

/--
The device is sound, and will be once its removal returns: polling mode is
off from the write of the removal on.
-/
def SoundOnward (qsfp : Qsfp) : Prop :=
  Sound qsfp ∧ (qsfp.pc.removing = true → pollEn qsfp.written = false)

/--
Polling mode is about to be enabled behind a selection with a word which was
not sent, or behind the write of the removal.
-/
def spoils (qsfp : Qsfp) : QsfpAct → Bool
  | .check .go =>
      qsfp.run = some .enablePolling && (qsfp.timedOut || qsfp.pc.removing)
  | _ => false

/-- The condition on the steps of a device. -/
def Meets (qsfp : Qsfp) (act : QsfpAct) : Prop := spoils qsfp act = false

instance (qsfp : Qsfp) (act : QsfpAct) : Decidable (Meets qsfp act) :=
  inferInstanceAs (Decidable (_ = _))

theorem Known.settled {qsfp : Qsfp} (known : Known qsfp) :
    Settled qsfp.init (pollEn qsfp.written) qsfp.sequence qsfp.isr := by
  have check := known.check
  unfold KnownAt at check
  split at check <;>
    first
      | exact check
      | exact check.2
      | exact settled_of_off check.1 check.2
      | exact settled_of_off check.1 check.2.1
      | exact ⟨fun _ => check, fun _ => check⟩

theorem Known.soundOnward {qsfp : Qsfp} (known : Known qsfp) :
    SoundOnward qsfp := by
  obtain ⟨done, polling⟩ := known.settled
  refine ⟨⟨done, polling, fun removed => ?_⟩, known.off⟩
  have stopped := known.stopped
  have off := known.off
  rw [removed] at stopped off
  exact ⟨off rfl, stopped⟩

theorem known_probed : Known probed where
  check := settled_of_off rfl rfl
  stopped := ⟨rfl, rfl⟩
  off := nofun

/-! ## What a step keeps -/

section Steps

variable {qsfp next : Qsfp}

theorem procStep_stoppedAt {act : ProcAct}
    (stopped : StoppedAt qsfp.pending qsfp.run qsfp.pc)
    (steps : procStep qsfp act = some next) :
    StoppedAt next.pending next.run next.pc := by
  unfold procStep at steps
  split at steps
  case h_6 =>
    obtain rfl := Option.some.inj steps
    rfl
  case h_7 here =>
    split at steps
    case isTrue waited =>
      obtain rfl := Option.some.inj steps
      rw [here] at stopped
      exact ⟨stopped, waited⟩
    case isFalse => cases steps
  case h_2 =>
    split at steps
    case isTrue => exact Option.some.inj steps ▸ trivial
    case isFalse => cases steps
  case h_3 ret here =>
    obtain rfl := Option.some.inj steps
    cases ret <;> trivial
  case h_8 => cases steps
  all_goals
    obtain rfl := Option.some.inj steps
    trivial

theorem procStep_off {act : ProcAct}
    (off : qsfp.pc.removing = true → pollEn qsfp.written = false)
    (steps : procStep qsfp act = some next) :
    next.pc.removing = true → pollEn next.written = false := by
  unfold procStep at steps
  split at steps
  case h_2 =>
    split at steps
    case isTrue => exact Option.some.inj steps ▸ nofun
    case isFalse => cases steps
  case h_3 ret here =>
    obtain rfl := Option.some.inj steps
    cases ret <;> exact nofun
  case h_5 =>
    obtain rfl := Option.some.inj steps
    exact fun _ => pollEn_conf _ _
  case h_6 here =>
    obtain rfl := Option.some.inj steps
    rw [here] at off
    exact fun _ => off rfl
  case h_7 here =>
    split at steps
    case isTrue =>
      obtain rfl := Option.some.inj steps
      rw [here] at off
      exact fun _ => off rfl
    case isFalse => cases steps
  case h_8 => cases steps
  all_goals
    obtain rfl := Option.some.inj steps
    exact nofun

/-- The driver leaves a check alone, but may disable polling mode. -/
theorem procStep_knownAt {act : ProcAct}
    (known : KnownAt qsfp.init (pollEn qsfp.written) qsfp.sequence qsfp.isr
      qsfp.timedOut qsfp.run)
    (stopped : StoppedAt qsfp.pending qsfp.run qsfp.pc)
    (steps : procStep qsfp act = some next) :
    KnownAt next.init (pollEn next.written) next.sequence next.isr
      next.timedOut next.run := by
  unfold procStep at steps
  split at steps
  case h_1 here =>
    obtain rfl := Option.some.inj steps
    rw [here] at stopped
    rw [stopped.2] at known
    exact known
  case h_2 =>
    split at steps
    case isTrue => exact Option.some.inj steps ▸ known
    case isFalse => cases steps
  case h_5 =>
    obtain rfl := Option.some.inj steps
    exact known.off
  case h_7 =>
    split at steps
    case isTrue => exact Option.some.inj steps ▸ known
    case isFalse => cases steps
  case h_8 => cases steps
  all_goals
    obtain rfl := Option.some.inj steps
    exact known

theorem CheckMoves.knownAt {act : CheckAct} (moves : CheckMoves qsfp act next)
    (known : KnownAt qsfp.init (pollEn qsfp.written) qsfp.sequence qsfp.isr
      qsfp.timedOut qsfp.run)
    (meets : Meets qsfp (.check act)) :
    KnownAt next.init (pollEn next.written) next.sequence next.isr
      next.timedOut next.run := by
  cases moves with
  | start here due =>
      rw [here] at known
      exact known
  | lock here =>
      rw [here] at known
      exact known
  | readStat status here =>
      rw [here] at known
      unfold hotplug
      split
      case h_1 reset => exact ⟨reset, known⟩
      case h_2 => exact ⟨nofun, known.2⟩
      case h_3 => exact known
  | resetModule here =>
      rw [here] at known
      exact ⟨known.1, pollEn_conf _ _⟩
  | selectModule here =>
      rw [here] at known
      exact ⟨known.1, pollEn_conf _ _⟩
  | initI2c here =>
      rw [here] at known
      exact ⟨known.1, (pollEn_initWrites _).trans known.2, sent_begin⟩
  | send cnt word words levels here =>
      rw [here] at known
      obtain ⟨reset, off, sent⟩ := known
      unfold Qsfp.i2cSend
      split
      · refine knownAt_behindWord reset ?_ sent.put
        exact (pollEn_other (by decide) _ _).trans off
      · exact knownAt_behindWord reset off sent.drop
  | drained cnt levels here =>
      rw [here] at known
      exact known
  | notDrained cnt levels here =>
      rw [here] at known
      exact settled_of_off known.1 known.2.1
  | readIsr cnt st here =>
      rw [here] at known
      obtain ⟨reset, off, sent⟩ := known
      dsimp only
      split
      case isTrue clean => exact ⟨reset, off, sent, st, rfl, clean⟩
      case isFalse => exact ⟨reset, off⟩
  | tryAgain cnt here =>
      rw [here] at known
      exact ⟨known.1, (pollEn_other (by decide) _ _).trans known.2,
        sent_begin⟩
  | giveUp cnt here =>
      rw [here] at known
      exact settled_of_off known.1
        ((pollEn_other (by decide) _ _).trans known.2)
  | enablePolling here =>
      rw [here] at known
      obtain ⟨-, -, sent, clean⟩ := known
      obtain ⟨inTime, -⟩ :
          qsfp.timedOut = false ∧ qsfp.pc.removing = false := by
        simpa [Meets, spoils, here] using meets
      exact ⟨sent.complete_iff.mpr inTime, clean⟩
  | setDone here =>
      rw [here] at known
      exact ⟨fun _ => known, fun _ => known⟩
  | unlock here =>
      rw [here] at known
      exact known
  | schedule here =>
      rw [here] at known
      exact known

/-- A check neither waits for the driver nor takes it anywhere. -/
theorem CheckMoves.driver {act : CheckAct} (moves : CheckMoves qsfp act next) :
    next.pc = qsfp.pc ∧
      (qsfp.pc = .flush → qsfp.pending = false → next.pending = false) := by
  cases moves with
  | start here due => exact ⟨rfl, fun _ _ => rfl⟩
  | readStat status here =>
      unfold hotplug
      split <;> exact ⟨rfl, fun _ rest => rest⟩
  | send cnt word words levels here =>
      unfold Qsfp.i2cSend
      split <;> exact ⟨rfl, fun _ rest => rest⟩
  | schedule here =>
      refine ⟨rfl, fun flushing _ => ?_⟩
      dsimp only
      rw [flushing]
      rfl
  | _ => exact ⟨rfl, fun _ rest => rest⟩

/-- There is one place at which polling mode is enabled. -/
theorem CheckMoves.pollEn {act : CheckAct} (moves : CheckMoves qsfp act next)
    (elsewhere : qsfp.run ≠ some .enablePolling)
    (off : QsfpMem.pollEn qsfp.written = false) :
    QsfpMem.pollEn next.written = false := by
  cases moves with
  | readStat status here =>
      unfold hotplug
      split <;> exact off
  | resetModule here => exact pollEn_conf _ _
  | selectModule here => exact pollEn_conf _ _
  | send cnt word words levels here =>
      unfold Qsfp.i2cSend
      split
      · exact (pollEn_other (by decide) _ _).trans off
      · exact off
  | tryAgain cnt here => exact (pollEn_other (by decide) _ _).trans off
  | giveUp cnt here => exact (pollEn_other (by decide) _ _).trans off
  | enablePolling here => exact absurd here elsewhere
  | _ => exact off

/-- Nothing is checked unless a check runs or is due. -/
theorem CheckMoves.runs {act : CheckAct} (moves : CheckMoves qsfp act next)
    (rest : qsfp.pending = false) (still : qsfp.run = none) : False := by
  cases moves with
  | start here due => cases rest.symm.trans due
  | _ => simp_all

theorem CheckMoves.stoppedAt {act : CheckAct}
    (moves : CheckMoves qsfp act next)
    (stopped : StoppedAt qsfp.pending qsfp.run qsfp.pc) :
    StoppedAt next.pending next.run next.pc := by
  obtain ⟨same, pending⟩ := moves.driver
  rw [same]
  cases here : qsfp.pc with
  | initWork =>
      rw [here] at stopped
      exact (moves.runs stopped.1 stopped.2).elim
  | flush =>
      rw [here] at stopped
      exact pending here stopped
  | removed =>
      rw [here] at stopped
      exact (moves.runs stopped.1 stopped.2).elim
  | _ => trivial

theorem stoppedAt_step {act : QsfpAct}
    (stopped : StoppedAt qsfp.pending qsfp.run qsfp.pc)
    (steps : qsfpStep qsfp act = some next) :
    StoppedAt next.pending next.run next.pc := by
  cases act with
  | proc act => exact procStep_stoppedAt stopped steps
  | check act => exact (checkMoves_of_checkStep steps).stoppedAt stopped

theorem Known.step {act : QsfpAct} (known : Known qsfp)
    (meets : Meets qsfp act) (steps : qsfpStep qsfp act = some next) :
    Known next := by
  have stopped := stoppedAt_step known.stopped steps
  cases act with
  | proc act =>
      exact ⟨procStep_knownAt known.check known.stopped steps, stopped,
        procStep_off known.off steps⟩
  | check act =>
      have moves := checkMoves_of_checkStep steps
      refine ⟨moves.knownAt known.check meets, stopped, fun removing => ?_⟩
      rw [moves.driver.1] at removing
      refine moves.pollEn (fun here => ?_) (known.off removing)
      cases moves with
      | enablePolling => simp [Meets, spoils, here, removing] at meets
      | _ => simp_all

/-- A step which does not meet the condition leaves the device unsound. -/
theorem Known.lost {act : QsfpAct} (known : Known qsfp)
    (misses : ¬ Meets qsfp act) (steps : qsfpStep qsfp act = some next) :
    ¬ SoundOnward next := by
  rintro ⟨sound, offInRemoval⟩
  cases act with
  | proc act => exact misses rfl
  | check act =>
      cases checkMoves_of_checkStep steps with
      | enablePolling here =>
          have check := known.check
          rw [here] at check
          obtain ⟨-, -, sent, -⟩ := check
          have on : pollEn ((confOff, confPollEn) :: qsfp.written) = true :=
            pollEn_conf _ _
          have inTime := sent.complete_iff.mp (sound.polling on).1
          have removing : qsfp.pc.removing = true := by
            simpa [Meets, spoils, here, inTime] using misses
          cases on.symm.trans (offInRemoval removing)
      | _ => exact misses (by simp_all [Meets, spoils])

end Steps

/-! ## Runs -/

/-- In every run no check is pending or running once the device is removed. -/
theorem throughout_stopped {path : List (QsfpAct × Qsfp)}
    (isPath : IsPath
      (fun qsfp act next => qsfpStep qsfp act = some next) probed path) :
    Throughout (fun qsfp => StoppedAt qsfp.pending qsfp.run qsfp.pc)
      probed path := by
  refine throughout_of_invariant (fun _ _ _ stopped steps => ?_) isPath ?_
  · exact stoppedAt_step stopped steps
  · exact known_probed.stopped

/--
A device is sound throughout a run if and only if polling mode is never
enabled behind a selection of which a word was not sent, nor behind the write
of the removal.
-/
theorem throughout_sound_iff {path : List (QsfpAct × Qsfp)}
    (isPath : IsPath
      (fun qsfp act next => qsfpStep qsfp act = some next) probed path) :
    Throughout SoundOnward probed path ↔ StepsMeet Meets probed path := by
  have implies : ∀ qsfp, Known qsfp → SoundOnward qsfp :=
    fun _ => Known.soundOnward
  exact throughout_iff_stepsMeet_of_strong implies
    (fun _ _ _ => Known.step) (fun _ _ _ => Known.lost) isPath known_probed

/-- A check which finds a module. -/
def plugIn : List QsfpAct :=
  [.check .go, .check (.stat 0), .check .go, .check .go, .check .go]

/-- A page selection, with the levels of the FIFO in front of its start. -/
def selectPage (levels : List (BitVec 32)) : List QsfpAct :=
  [.check (.poll levels), .check (.poll [0]), .check (.poll [0]),
    .check (.poll [0]), .check (.isr 0)]

/-- The rest of a check which enables polling mode. -/
def enableAndReturn : List QsfpAct :=
  [.check .go, .check .go, .check .go, .check .go]

/-- A module is found and polled, and the device is removed. -/
def pluggedRun : List QsfpAct :=
  .proc .initWork :: plugIn ++ selectPage [1, 0] ++ enableAndReturn ++
    [.proc .return, .proc (.registerRegmap none), .proc .unbind, .proc .write,
      .proc .cancel, .proc .flush]

theorem pluggedRun_sound :
    Throughout SoundOnward probed
      (pathOf (orSame qsfpStep) probed pluggedRun) :=
  (throughout_sound_iff (isPath_of_allTaken (by decide))).mpr
    (stepsMeet_of_enabledAlong (by decide))

/-- The FIFO does not drain in front of the start, but behind it. -/
def droppedStart : List QsfpAct :=
  .proc .initWork :: plugIn ++ selectPage [1, 1] ++ enableAndReturn

theorem droppedStart_not_sound :
    ¬ ∀ path : List (QsfpAct × Qsfp),
      IsPath (fun qsfp act next => qsfpStep qsfp act = some next)
          probed path →
        Throughout Sound probed path := by
  intro sound
  have along := sound (pathOf (orSame qsfpStep) probed droppedStart)
    (isPath_of_allTaken (by decide))
  obtain ⟨done, sequence⟩ :
      (droppedStart.foldl (orSame qsfpStep) probed).init = .done ∧
        (droppedStart.foldl (orSame qsfpStep) probed).sequence =
          [0x7f, 0x100] := by
    decide
  have selected := (along.final.done done).1
  rw [sequence] at selected
  cases selected

/-- The work finds a module, and enables polling mode during the removal. -/
def removedTooSoon : List QsfpAct :=
  [.proc .initWork, .check .go, .check (.stat 1), .check .go, .check .go,
    .proc .return, .proc (.registerRegmap none), .check .start] ++ plugIn ++
    selectPage [0] ++
    [.proc .unbind, .proc .write, .proc .cancel] ++ enableAndReturn ++
    [.proc .flush]

example : allTaken qsfpStep probed removedTooSoon = true := by decide

example :
    (removedTooSoon.foldl (orSame qsfpStep) probed).pc = .removed ∧
      pollEn (removedTooSoon.foldl (orSame qsfpStep) probed).written = true :=
  by decide

end LinuxDfl.Net.QsfpMem

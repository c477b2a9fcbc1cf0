import LinuxDfl.Fme.Perf
import Mathlib.Data.BitVec
import Mathlib.Tactic.LinearCombination

/-!
# What an event counts

An event is started, read any number of times, and stopped, over hardware
counters of which a register shows the lowest bits.
-/

namespace LinuxDfl.Fme.Perf

open LinuxDfl.Kernel

/-! ## The counters of the hardware -/

/-- A counter when its register is read, and the other bits of the register. -/
structure CntrState where
  raw : Nat
  other : BitVec 64

/-- The register shows the counter modulo its width. -/
def CntrState.reg (evntCntr : Field) (cntr : CntrState) : BitVec 64 :=
  evntCntr.update cntr.other cntr.raw

/-- A counter at the two reads of a turn. -/
structure RawTurn where
  readq : CntrState
  readl : CntrState

/-- What the turn reads. -/
def RawTurn.turn (evntCntr : Field) (turn : RawTurn) : CntrTurn where
  v := turn.readq.reg evntCntr
  low := (turn.readl.reg evntCntr).setWidth 32

/-- The registers, and the counters behind them, while an event is read. -/
structure CntrAccess where
  ctrl : BitVec 64
  polls : List (BitVec 64)
  cntr : List RawTurn
  cntr1 : List RawTurn

/-- The field of the counter register which counts. -/
def EvType.evntCntr : EvType → Field
  | .basic => genmask 63 0
  | .cache => cacheCntrEvntCntr
  | .fabric => fabCntrEvntCntr
  | .vtd => vtdCntrEvntCntr
  | .vtdSip => vtdSipCntrEvntCntr

/-- One period of the counters of an event. -/
def EvType.period (evtype : EvType) : Nat :=
  2 ^ evtype.evntCntr.width

/-- What the registers answer. -/
def CntrAccess.answers (access : CntrAccess) (evtype : EvType) :
    CntrAnswers where
  ctrl := access.ctrl
  polls := access.polls
  cntr := access.cntr.map (RawTurn.turn evtype.evntCntr)
  cntr1 := access.cntr1.map (RawTurn.turn evtype.evntCntr)

/-- The reads of each counter of an event. -/
def CntrAccess.cntrs (access : CntrAccess) : EvType → List (List RawTurn)
  | .cache => [access.cntr, access.cntr1]
  | _ => [access.cntr]

/-- The turn which ends the loop. -/
def lastTurn (evntCntr : Field) (turns : List RawTurn) : Option RawTurn :=
  turns.find? fun turn => !(turn.turn evntCntr).repeats

/-- How far the counters of an event have come when they are read. -/
def CntrAccess.raws (access : CntrAccess) (evtype : EvType) : List Nat :=
  (access.cntrs evtype).filterMap fun turns =>
    (lastTurn evtype.evntCntr turns).map fun turn => turn.readq.raw

/-- The field which shows the event that is counted. -/
def EvType.cntrEvnt : EvType → Option Field
  | .basic => none
  | .cache => some cacheCntrEvnt
  | .fabric => some fabCntrEvnt
  | .vtd => some vtdCntrEvnt
  | .vtdSip => some vtdSipCntrEvnt

/-- The counter shows the event in time, and the loops end. -/
structure CntrAccess.Answered (access : CntrAccess) (evtype : EvType)
    (code : BitVec 32) : Prop where
  inTime : ∀ cntrEvnt ∈ evtype.cntrEvnt,
    ∃ v ∈ access.polls, cntrEvnt.get v = code.toNat
  ends : ∀ turns ∈ access.cntrs evtype,
    ∃ turn ∈ turns, (turn.turn evtype.evntCntr).repeats = false

/-- The events which have occurred when an event is read. -/
def CntrAccess.total (access : CntrAccess) (evtype : EvType) : Nat :=
  (access.raws evtype).sum

/-- What the registers show of them. -/
def CntrAccess.shown (access : CntrAccess) (evtype : EvType) : Nat :=
  ((access.raws evtype).map (· % evtype.period)).sum

/-- The full periods which the counters have been through. -/
def CntrAccess.periods (access : CntrAccess) (evtype : EvType) : Nat :=
  ((access.raws evtype).map (· / evtype.period)).sum

theorem CntrAccess.total_eq (access : CntrAccess) (evtype : EvType) :
    access.total evtype =
      evtype.period * access.periods evtype + access.shown evtype := by
  rw [CntrAccess.total, CntrAccess.periods, CntrAccess.shown]
  induction access.raws evtype with
  | nil => simp
  | cons raw rest ih =>
      simp only [List.map_cons, List.sum_cons, ih, Nat.mul_add]
      have split := Nat.div_add_mod raw evtype.period
      omega

/-! ## What is read -/

theorem evntCntr_fits (evtype : EvType) :
    evtype.evntCntr.low + evtype.evntCntr.width ≤ 64 := by
  cases evtype <;> decide

/-- The count in a register is that of the counter, modulo its period. -/
theorem countIn_map_turn (evtype : EvType) (turns : List RawTurn) :
    countIn evtype.evntCntr (turns.map (RawTurn.turn evtype.evntCntr)) =
      (lastTurn evtype.evntCntr turns).map fun turn =>
        BitVec.ofNat 64 (turn.readq.raw % evtype.period) := by
  rw [countIn, fmeReadPerfCntrReg_eq_find, List.find?_map, lastTurn]
  simp only [Option.map_map, Function.comp_def]
  congr 1
  funext turn
  show BitVec.ofNat 64 (evtype.evntCntr.get (turn.readq.reg _)) = _
  rw [CntrState.reg, Field.get_update _ (evntCntr_fits evtype), EvType.period]

/-- The whole of the clock counter is read. -/
theorem fmeReadPerfCntrReg_eq_countIn (turns : List CntrTurn) :
    fmeReadPerfCntrReg turns = countIn EvType.basic.evntCntr turns := by
  rw [countIn]
  cases fmeReadPerfCntrReg turns with
  | none => rfl
  | some v =>
      have whole : v.extractLsb' 0 64 = v := BitVec.extractLsb'_eq_self
      show some v = some (BitVec.ofNat 64 (v.extractLsb' 0 64).toNat)
      rw [whole, BitVec.ofNat_toNat, BitVec.setWidth_eq]

/-- The poll finds the code of the event. -/
theorem readqPollTimeoutAtomic_inTime {cntrEvnt : Field} {code : Nat}
    {reads : List (BitVec 64)}
    (inTime : ∃ v ∈ reads, cntrEvnt.get v = code) :
    readqPollTimeoutAtomic (fun v => cntrEvnt.get v == code) reads =
      none := by
  rw [readqPollTimeoutAtomic, if_pos]
  simpa using inTime

theorem CodedCounter.read_inTime {counter : CodedCounter}
    {code : BitVec 32} {answers : CntrAnswers}
    (inTime : ∃ v ∈ answers.polls, counter.cntrEvnt.get v = code.toNat) :
    (counter.read code answers).count =
      countIn counter.evntCntr answers.cntr := by
  simp only [CodedCounter.read, readqPollTimeoutAtomic_inTime inTime,
    Option.isSome_none, Bool.false_eq_true, if_false]

theorem exists_lastTurn {evntCntr : Field} {turns : List RawTurn}
    (ends : ∃ turn ∈ turns, (turn.turn evntCntr).repeats = false) :
    ∃ turn, lastTurn evntCntr turns = some turn := by
  rw [← Option.isSome_iff_exists, lastTurn, List.find?_isSome]
  simpa using ends

/-- An event with one counter is read from it. -/
theorem CntrAccess.Answered.countIn_cntr {access : CntrAccess}
    {evtype : EvType} {code : BitVec 32}
    (answered : access.Answered evtype code)
    (single : access.cntrs evtype = [access.cntr]) :
    countIn evtype.evntCntr (access.answers evtype).cntr =
      some (BitVec.ofNat 64 (access.shown evtype)) := by
  obtain ⟨turn, last⟩ := exists_lastTurn
    (answered.ends access.cntr (by simp [single]))
  rw [CntrAccess.answers, countIn_map_turn, last]
  simp [CntrAccess.shown, CntrAccess.raws, single, last]

/-- A cache event is read from both of its counters. -/
theorem CntrAccess.Answered.cacheReadEventCounter {access : CntrAccess}
    {code : BitVec 32} (answered : access.Answered .cache code) :
    (cacheReadEventCounter code (access.answers .cache)).count =
      some (BitVec.ofNat 64 (access.shown .cache)) := by
  obtain ⟨turn, last⟩ := exists_lastTurn
    (answered.ends access.cntr (by simp [CntrAccess.cntrs]))
  obtain ⟨turn1, last1⟩ := exists_lastTurn
    (answered.ends access.cntr1 (by simp [CntrAccess.cntrs]))
  have shown : access.shown .cache =
      turn.readq.raw % EvType.cache.period +
        turn1.readq.raw % EvType.cache.period := by
    simp [CntrAccess.shown, CntrAccess.raws, CntrAccess.cntrs, last, last1]
  have count : countIn cacheCntrEvntCntr (access.answers .cache).cntr = _ :=
    countIn_map_turn .cache access.cntr
  have count1 : countIn cacheCntrEvntCntr (access.answers .cache).cntr1 = _ :=
    countIn_map_turn .cache access.cntr1
  have inTime : readqPollTimeoutAtomic _ (access.answers .cache).polls = none :=
    readqPollTimeoutAtomic_inTime (answered.inTime cacheCntrEvnt rfl)
  simp only [Perf.cacheReadEventCounter, inTime, count, count1, last, last1,
    shown, Option.isSome_none, Bool.false_eq_true, if_false, Option.map_some,
    BitVec.ofNat_add]
  rfl

/-- What is read of an event is what the registers show. -/
theorem CntrAccess.Answered.readCounter {access : CntrAccess}
    {event : PerfEvent}
    (answered : access.Answered event.evtype event.code) :
    (event.readCounter (access.answers event.evtype)).count =
      some (BitVec.ofNat 64 (access.shown event.evtype)) := by
  obtain ⟨evtype, idx, portid, prevCount, count⟩ := event
  cases evtype with
  | basic =>
      show fmeReadPerfCntrReg _ = _
      rw [fmeReadPerfCntrReg_eq_countIn]
      exact answered.countIn_cntr rfl
  | cache =>
      exact answered.cacheReadEventCounter
  | fabric =>
      have inTime := answered.inTime fabCntrEvnt rfl
      exact (CodedCounter.read_inTime inTime).trans
        (answered.countIn_cntr rfl)
  | vtd =>
      have inTime := answered.inTime vtdCntrEvnt rfl
      exact (CodedCounter.read_inTime inTime).trans
        (answered.countIn_cntr rfl)
  | vtdSip =>
      have inTime := answered.inTime vtdSipCntrEvnt rfl
      exact (CodedCounter.read_inTime inTime).trans
        (answered.countIn_cntr rfl)

/-! ## From start to stop -/

/-- The reads of an event while it runs. -/
def PerfEvent.readAll (event : PerfEvent) (reads : List CntrAccess) :
    Option PerfEvent :=
  reads.foldlM (fun event access =>
    fmePerfEventRead event (access.answers event.evtype)) event

/-- An event is started, read any number of times, and stopped. -/
def PerfEvent.run (event : PerfEvent) (start : CntrAccess)
    (reads : List CntrAccess) (stop : CntrAccess) : Option PerfEvent := do
  let started ← fmePerfEventStart event (start.answers event.evtype)
  let last ← started.readAll reads
  fmePerfEventStop last (stop.answers last.evtype)

/-- What the registers show, as the driver reads it. -/
def CntrAccess.now (access : CntrAccess) (evtype : EvType) : BitVec 64 :=
  BitVec.ofNat 64 (access.shown evtype)

/-- An update adds what has been counted since the start. -/
theorem CntrAccess.Answered.update {access : CntrAccess}
    {event : PerfEvent}
    (answered : access.Answered event.evtype event.code) :
    fmePerfEventUpdate event (access.answers event.evtype) =
      some { event with
        count :=
          event.count + (access.now event.evtype - event.prevCount) } := by
  rw [fmePerfEventUpdate, answered.readCounter]
  rfl

theorem PerfEvent.readAll_eq {event : PerfEvent} {reads : List CntrAccess}
    (answered : ∀ read ∈ reads, read.Answered event.evtype event.code) :
    event.readAll reads =
      some { event with
        count :=
          event.count +
            (reads.map fun read =>
              read.now event.evtype - event.prevCount).sum } := by
  induction reads generalizing event with
  | nil => simp [PerfEvent.readAll]
  | cons read rest ih =>
      obtain ⟨first, others⟩ := List.forall_mem_cons.mp answered
      have updated : fmePerfEventRead event (read.answers event.evtype) = _ :=
        first.update
      rw [PerfEvent.readAll, List.foldlM_cons, updated, List.map_cons,
        List.sum_cons, ← BitVec.add_assoc]
      exact ih others

/-- A run counts what every read and the stop see since the start. -/
theorem PerfEvent.run_eq {event : PerfEvent} {start stop : CntrAccess}
    {reads : List CntrAccess}
    (answered : ∀ access ∈ start :: stop :: reads,
      access.Answered event.evtype event.code) :
    event.run start reads stop =
      some { event with
        prevCount := start.now event.evtype
        count :=
          event.count +
            (reads.map fun read =>
              read.now event.evtype - start.now event.evtype).sum +
            (stop.now event.evtype - start.now event.evtype) } := by
  obtain ⟨first, others⟩ := List.forall_mem_cons.mp answered
  obtain ⟨last, between⟩ := List.forall_mem_cons.mp others
  have started :
      fmePerfEventStart event (start.answers event.evtype) =
        some { event with prevCount := start.now event.evtype } := by
    rw [fmePerfEventStart, first.readCounter]
    rfl
  have read :
      ({ event with prevCount := start.now event.evtype } :
        PerfEvent).readAll reads = _ :=
    PerfEvent.readAll_eq between
  rw [PerfEvent.run, started, Option.bind_eq_bind, Option.bind_some, read]
  apply CntrAccess.Answered.update
  exact last

/-! ## The count -/

/-- The count grows by what the counters have counted from start to stop. -/
def PerfEvent.CountsExactly (event : PerfEvent) (start : CntrAccess)
    (reads : List CntrAccess) (stop : CntrAccess) : Prop :=
  ∃ final, event.run start reads stop = some final ∧
    final.count - event.count =
      BitVec.ofNat 64 (stop.total event.evtype) -
        BitVec.ofNat 64 (start.total event.evtype)

/--
What the reads before the stop see since the start adds up to the periods
which the counters have been through until the stop.
-/
def ReadsMakeUp (evtype : EvType) (start : CntrAccess)
    (reads : List CntrAccess) (stop : CntrAccess) : Prop :=
  (reads.map fun read => read.now evtype - start.now evtype).sum =
    BitVec.ofNat 64 evtype.period *
      (BitVec.ofNat 64 (stop.periods evtype) -
        BitVec.ofNat 64 (start.periods evtype))

/-- The counters of an event, as the driver reads them. -/
theorem CntrAccess.ofNat_total (access : CntrAccess) (evtype : EvType) :
    BitVec.ofNat 64 (access.total evtype) =
      BitVec.ofNat 64 evtype.period * BitVec.ofNat 64 (access.periods evtype) +
        access.now evtype := by
  rw [access.total_eq, BitVec.ofNat_add, BitVec.ofNat_mul]
  rfl

/-- Small differences add up to a number of 64 bits. -/
theorem sum_now_sub {evtype : EvType} {start : CntrAccess}
    {reads : List CntrAccess}
    (above : ∀ read ∈ reads, start.shown evtype ≤ read.shown evtype) :
    (reads.map fun read => read.now evtype - start.now evtype).sum =
      BitVec.ofNat 64
        (reads.map fun read => read.shown evtype - start.shown evtype).sum := by
  induction reads with
  | nil => rfl
  | cons read rest ih =>
      obtain ⟨first, others⟩ := List.forall_mem_cons.mp above
      have difference : read.now evtype - start.now evtype =
          BitVec.ofNat 64 (read.shown evtype - start.shown evtype) := by
        rw [sub_eq_iff_eq_add, CntrAccess.now, CntrAccess.now,
          ← BitVec.ofNat_add, Nat.sub_add_cancel first]
      simp only [List.map_cons, List.sum_cons, ih others, difference,
        BitVec.ofNat_add]

/--
While no counter starts a new period, the reads before the stop must not see
anything counted.
-/
theorem readsMakeUp_iff_of_same_periods {evtype : EvType}
    {start stop : CntrAccess} {reads : List CntrAccess}
    (same : stop.periods evtype = start.periods evtype)
    (above : ∀ read ∈ reads, start.shown evtype ≤ read.shown evtype)
    (small :
      (reads.map fun read => read.shown evtype - start.shown evtype).sum <
        2 ^ 64) :
    ReadsMakeUp evtype start reads stop ↔
      ∀ read ∈ reads, read.shown evtype = start.shown evtype := by
  have zero : (0 : BitVec 64) = BitVec.ofNat 64 0 := rfl
  rw [ReadsMakeUp, same, sub_self, mul_zero, sum_now_sub above, zero,
    ← BitVec.toNat_inj, BitVec.toNat_ofNat, BitVec.toNat_ofNat,
    Nat.mod_eq_of_lt small, Nat.zero_mod, List.sum_eq_zero_iff_forall_eq_nat,
    List.forall_mem_map]
  constructor
  · intro none read isRead
    exact Nat.le_antisymm (Nat.sub_eq_zero_iff_le.mp (none read isRead))
      (above read isRead)
  · intro equal read isRead
    rw [equal read isRead, Nat.sub_self]

/--
For counters which are read in time, the count of an event grows by exactly
what they count from start to stop if and only if the reads before the stop
make up for the full periods.
-/
theorem counts_exactly_iff (event : PerfEvent) (start : CntrAccess)
    (reads : List CntrAccess) (stop : CntrAccess)
    (answered : ∀ access ∈ start :: stop :: reads,
      access.Answered event.evtype event.code) :
    event.CountsExactly start reads stop ↔
      ReadsMakeUp event.evtype start reads stop := by
  have ran := PerfEvent.run_eq answered
  have total := start.ofNat_total event.evtype
  have totalStop := stop.ofNat_total event.evtype
  rw [PerfEvent.CountsExactly, ReadsMakeUp, total, totalStop]
  constructor
  · rintro ⟨final, isFinal, grown⟩
    rw [ran] at isFinal
    cases isFinal
    linear_combination grown
  · intro makesUp
    refine ⟨_, ran, ?_⟩
    linear_combination makesUp

/-- Each counter goes on by less than a period from one read to the next. -/
def Steady (evtype : EvType) (accesses : List CntrAccess) : Prop :=
  accesses.IsChain fun access next =>
    List.Forall₂ (fun raw later => raw ≤ later ∧ later < raw + evtype.period)
      (access.raws evtype) (next.raws evtype)

/-- The clock counter, at a read which it does not move during. -/
def clockAt (raw : Nat) : CntrAccess where
  ctrl := 0#64
  polls := []
  cntr := [⟨⟨raw, 0#64⟩, ⟨raw, 0#64⟩⟩]
  cntr1 := []

/-- The event which counts the clock. -/
def clockEvent : PerfEvent where
  evtype := .basic
  idx := 0#32
  portid := fmePortidRoot
  prevCount := 0#64
  count := 0#64

theorem clockAt_ends (raw : Nat) (evntCntr : Field) :
    (RawTurn.turn evntCntr ⟨⟨raw, 0#64⟩, ⟨raw, 0#64⟩⟩).repeats = false :=
  decide_eq_false (BitVec.lt_irrefl _)

theorem clockAt_answered (raw : Nat) :
    (clockAt raw).Answered clockEvent.evtype clockEvent.code where
  inTime := by
    intro cntrEvnt none
    cases none
  ends := by
    intro turns isCntr
    rw [List.mem_singleton.mp isCntr]
    exact ⟨_, List.mem_singleton_self _, clockAt_ends raw _⟩

@[simp]
theorem clockAt_raws (raw : Nat) : (clockAt raw).raws .basic = [raw] := by
  simp [CntrAccess.raws, CntrAccess.cntrs, clockAt, lastTurn, clockAt_ends]

theorem clockAt_all_answered (raws : List Nat) :
    ∀ access ∈ raws.map clockAt,
      access.Answered clockEvent.evtype clockEvent.code := by
  intro access isRead
  obtain ⟨raw, -, rfl⟩ := List.mem_map.mp isRead
  exact clockAt_answered raw

/-- A read in between, at 5, is counted once more when the clock stops at 7. -/
theorem clock_read_counted_twice :
    clockEvent.taken featureIdGlobalIperf = true ∧
      Steady .basic [clockAt 0, clockAt 5, clockAt 7] ∧
      (∀ access ∈ [clockAt 0, clockAt 7, clockAt 5],
        access.Answered clockEvent.evtype clockEvent.code) ∧
      ¬ clockEvent.CountsExactly (clockAt 0) [clockAt 5] (clockAt 7) := by
  have answered := clockAt_all_answered [0, 7, 5]
  refine ⟨by decide, ?_, answered, ?_⟩
  · simp [Steady, EvType.period, EvType.evntCntr, genmask]
  · rintro ⟨final, isFinal, grown⟩
    have ran : clockEvent.run (clockAt 0) [clockAt 5] (clockAt 7) = _ :=
      PerfEvent.run_eq answered
    rw [ran] at isFinal
    cases isFinal
    simp [CntrAccess.now, CntrAccess.shown, CntrAccess.total, clockEvent,
      EvType.period, EvType.evntCntr, genmask] at grown

/-- A read before the clock moves does no harm. -/
theorem clock_read_early :
    clockEvent.CountsExactly (clockAt 3) [clockAt 3] (clockAt 7) := by
  refine (counts_exactly_iff clockEvent (clockAt 3) [clockAt 3] (clockAt 7)
    (clockAt_all_answered [3, 7, 3])).mpr ?_
  simp [ReadsMakeUp, CntrAccess.now, CntrAccess.periods, clockEvent,
    EvType.period, EvType.evntCntr, genmask]

end LinuxDfl.Fme.Perf

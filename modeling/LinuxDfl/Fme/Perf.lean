import LinuxDfl.Kernel.Bitfield
import LinuxDfl.Kernel.Errno

/-!
# Performance counters of the management engine

How an event is initialised, and how the counter of an event is read.  An
event of the fabric also has a working mode, which is not in this module.
-/

namespace LinuxDfl.Fme.Perf

open LinuxDfl.Kernel

/-! ## Registers -/

/-- `CACHE_CTRL_EVNT` -/
def cacheCtrlEvnt : Field := genmask 19 16
/-- `CACHE_CHANNEL_SEL` -/
def cacheChannelSel : Field := bit 20
/-- `CACHE_CNTR_EVNT_CNTR` -/
def cacheCntrEvntCntr : Field := genmask 47 0
/-- `CACHE_CNTR_EVNT` -/
def cacheCntrEvnt : Field := genmask 63 60

/-- `FAB_CTRL_EVNT` -/
def fabCtrlEvnt : Field := genmask 19 16
/-- `FAB_PORT_ID` -/
def fabPortId : Field := genmask 21 20
/-- `FAB_PORT_FILTER` -/
def fabPortFilter : Field := bit 23
/-- `FAB_CNTR_EVNT_CNTR` -/
def fabCntrEvntCntr : Field := genmask 59 0
/-- `FAB_CNTR_EVNT` -/
def fabCntrEvnt : Field := genmask 63 60

/-- `VTD_CTRL_EVNT` -/
def vtdCtrlEvnt : Field := genmask 19 16
/-- `VTD_CNTR_EVNT_CNTR` -/
def vtdCntrEvntCntr : Field := genmask 47 0
/-- `VTD_CNTR_EVNT` -/
def vtdCntrEvnt : Field := genmask 63 60

/-- `VTD_SIP_CTRL_EVNT` -/
def vtdSipCtrlEvnt : Field := genmask 19 16
/-- `VTD_SIP_CNTR_EVNT_CNTR` -/
def vtdSipCntrEvntCntr : Field := genmask 47 0
/-- `VTD_SIP_CNTR_EVNT` -/
def vtdSipCntrEvnt : Field := genmask 63 60

/-! ## Events -/

/-- `FME_FEATURE_ID_GLOBAL_IPERF` -/
def featureIdGlobalIperf : BitVec 16 := 0x3#16
/-- `FME_FEATURE_ID_GLOBAL_DPERF` -/
def featureIdGlobalDperf : BitVec 16 := 0x7#16

/-- `BASIC_EVNT_MAX` -/
def basicEvntMax : BitVec 32 := 0x0#32
/-- `CACHE_EVNT_MAX` -/
def cacheEvntMax : BitVec 32 := 0xa#32
/-- `FAB_EVNT_MAX` -/
def fabEvntMax : BitVec 32 := 0x7#32
/-- `VTD_EVNT_MAX` -/
def vtdEvntMax : BitVec 32 := 0x6#32
/-- `VTD_SIP_EVNT_MAX` -/
def vtdSipEvntMax : BitVec 32 := 0xa#32

/-- `CACHE_EVNT_WR_HIT` -/
def cacheEvntWrHit : BitVec 32 := 0x1#32
/-- `CACHE_EVNT_WR_MISS` -/
def cacheEvntWrMiss : BitVec 32 := 0x3#32
/-- `CACHE_EVNT_DATA_WR_PORT_CONTEN` -/
def cacheEvntDataWrPortConten : BitVec 32 := 0x6#32
/-- `CACHE_EVNT_TAG_WR_PORT_CONTEN` -/
def cacheEvntTagWrPortConten : BitVec 32 := 0x7#32

/-- `CACHE_CHANNEL_RD` -/
def cacheChannelRd : Nat := 0
/-- `CACHE_CHANNEL_WR` -/
def cacheChannelWr : Nat := 1

/-- `FAB_EVNT_PCIE1_RD` -/
def fabEvntPcie1Rd : BitVec 32 := 0x2#32
/-- `FAB_EVNT_PCIE1_WR` -/
def fabEvntPcie1Wr : BitVec 32 := 0x3#32
/-- `FAB_EVNT_UPI_RD` -/
def fabEvntUpiRd : BitVec 32 := 0x4#32
/-- `FAB_EVNT_UPI_WR` -/
def fabEvntUpiWr : BitVec 32 := 0x5#32

/-- `FME_PORTID_ROOT` -/
def fmePortidRoot : BitVec 32 := 0xff#32
/-- `PERF_MAX_PORT_NUM` -/
def perfMaxPortNum : BitVec 32 := 1#32

/-- `is_portid_root` -/
def isPortidRoot (portid : BitVec 32) : Bool :=
  portid == fmePortidRoot

/-- `is_portid_port` -/
def isPortidPort (portid : BitVec 32) : Bool :=
  decide (portid < perfMaxPortNum)

/-- `is_portid_root_or_port` -/
def isPortidRootOrPort (portid : BitVec 32) : Bool :=
  isPortidRoot portid || isPortidPort portid

/-- `basic_event_init` -/
def basicEventInit (event portid : BitVec 32) : Option Errno :=
  if event ≤ basicEvntMax ∧ isPortidRoot portid then none else some .einval

/-- `cache_event_init` -/
def cacheEventInit (id : BitVec 16) (event portid : BitVec 32) :
    Option Errno :=
  if id = featureIdGlobalIperf ∧ event ≤ cacheEvntMax ∧
      isPortidRoot portid then
    none
  else
    some .einval

/-- `is_fabric_event_supported` -/
def isFabricEventSupported (id : BitVec 16) (event portid : BitVec 32) :
    Bool :=
  if event > fabEvntMax ∨ ¬ isPortidRootOrPort portid then
    false
  else if id = featureIdGlobalDperf ∧
      (event = fabEvntPcie1Rd ∨ event = fabEvntUpiRd ∨
        event = fabEvntPcie1Wr ∨ event = fabEvntUpiWr) then
    false
  else
    true

/-- `vtd_event_init` -/
def vtdEventInit (id : BitVec 16) (event portid : BitVec 32) :
    Option Errno :=
  if id = featureIdGlobalIperf ∧ event ≤ vtdEvntMax ∧
      isPortidPort portid then
    none
  else
    some .einval

/-- `vtd_sip_event_init` -/
def vtdSipEventInit (id : BitVec 16) (event portid : BitVec 32) :
    Option Errno :=
  if id = featureIdGlobalIperf ∧ event ≤ vtdSipEvntMax ∧
      isPortidRoot portid then
    none
  else
    some .einval

/-! ## Counter registers -/

/-- What one turn of the loop in `fme_read_perf_cntr_reg` reads. -/
structure CntrTurn where
  v : BitVec 64
  low : BitVec 32

/-- The condition of the loop: the low half has been carried out of. -/
def CntrTurn.repeats (turn : CntrTurn) : Bool :=
  decide (turn.v.setWidth 32 > turn.low)

/-- `fme_read_perf_cntr_reg`, if its loop ends within these turns. -/
def fmeReadPerfCntrReg : List CntrTurn → Option (BitVec 64)
  | [] => none
  | turn :: rest =>
      if turn.repeats then fmeReadPerfCntrReg rest else some turn.v

theorem fmeReadPerfCntrReg_eq_find (turns : List CntrTurn) :
    fmeReadPerfCntrReg turns =
      (turns.find? fun turn => !turn.repeats).map CntrTurn.v := by
  induction turns with
  | nil => rfl
  | cons turn rest ih =>
      cases again : turn.repeats with
      | true => simp [fmeReadPerfCntrReg, again, ih]
      | false => simp [fmeReadPerfCntrReg, again]

/-- `readq_poll_timeout_atomic`, over the reads which are made in time. -/
def readqPollTimeoutAtomic (cond : BitVec 64 → Bool)
    (reads : List (BitVec 64)) : Option Errno :=
  if reads.any cond then none else some .etimedout

/-- What the registers answer while the counter of an event is read. -/
structure CntrAnswers where
  ctrl : BitVec 64
  polls : List (BitVec 64)
  cntr : List CntrTurn
  /-- Only the cache has a second counter register. -/
  cntr1 : List CntrTurn

/-- What `read_counter` writes to the control register, and what it returns. -/
structure CntrReading where
  written : Option (BitVec 64)
  count : Option (BitVec 64)

/-- The count in a register, if the register could be read. -/
def countIn (evntCntr : Field) (turns : List CntrTurn) :
    Option (BitVec 64) :=
  (fmeReadPerfCntrReg turns).map fun v => BitVec.ofNat 64 (evntCntr.get v)

/-- `basic_read_event_counter` -/
def basicReadEventCounter (answers : CntrAnswers) : CntrReading where
  written := none
  count := fmeReadPerfCntrReg answers.cntr

/-- The channel whose accesses a cache event counts. -/
def cacheChannel (event : BitVec 32) : Nat :=
  if event = cacheEvntWrHit ∨ event = cacheEvntWrMiss ∨
      event = cacheEvntDataWrPortConten ∨
      event = cacheEvntTagWrPortConten then
    cacheChannelWr
  else
    cacheChannelRd

/-- `cache_read_event_counter` -/
def cacheReadEventCounter (event : BitVec 32) (answers : CntrAnswers) :
    CntrReading where
  written :=
    let v := answers.ctrl &&& ~~~(cacheChannelSel.mask ||| cacheCtrlEvnt.mask)
    let v := v ||| cacheChannelSel.prep (cacheChannel event)
    some (v ||| cacheCtrlEvnt.prep event.toNat)
  count :=
    let cond := fun v => cacheCntrEvnt.get v == event.toNat
    if (readqPollTimeoutAtomic cond answers.polls).isSome then
      some 0#64
    else do
      let count ← countIn cacheCntrEvntCntr answers.cntr
      let more ← countIn cacheCntrEvntCntr answers.cntr1
      return count + more

/-- A counter which is selected by an event code. -/
structure CodedCounter where
  ctrlEvnt : Field
  cntrEvnt : Field
  evntCntr : Field

/-- Select an event, wait until the counter shows it, and read the counter. -/
def CodedCounter.read (counter : CodedCounter) (event : BitVec 32)
    (answers : CntrAnswers) : CntrReading where
  written := some (counter.ctrlEvnt.update answers.ctrl event.toNat)
  count :=
    let cond := fun v => counter.cntrEvnt.get v == event.toNat
    if (readqPollTimeoutAtomic cond answers.polls).isSome then
      some 0#64
    else
      countIn counter.evntCntr answers.cntr

def fabCounter : CodedCounter := ⟨fabCtrlEvnt, fabCntrEvnt, fabCntrEvntCntr⟩
def vtdCounter : CodedCounter := ⟨vtdCtrlEvnt, vtdCntrEvnt, vtdCntrEvntCntr⟩
def vtdSipCounter : CodedCounter :=
  ⟨vtdSipCtrlEvnt, vtdSipCntrEvnt, vtdSipCntrEvntCntr⟩

/-- `fabric_read_event_counter` -/
def fabricReadEventCounter (event : BitVec 32) (answers : CntrAnswers) :
    CntrReading :=
  fabCounter.read event answers

/-- The code of an event at a port. -/
def vtdCode (event portid : BitVec 32) : BitVec 32 :=
  event + portid * (vtdEvntMax + 1#32)

/-- `vtd_read_event_counter` -/
def vtdReadEventCounter (event portid : BitVec 32) (answers : CntrAnswers) :
    CntrReading :=
  vtdCounter.read (vtdCode event portid) answers

/-- `vtd_sip_read_event_counter` -/
def vtdSipReadEventCounter (event : BitVec 32) (answers : CntrAnswers) :
    CntrReading :=
  vtdSipCounter.read event answers

/-! ## `fme_perf_event_ops` -/

/-- `FME_EVTYPE_` -/
inductive EvType where
  | basic
  | cache
  | fabric
  | vtd
  | vtdSip
  deriving DecidableEq, Repr

/-- An event of the performance monitoring unit. -/
structure PerfEvent where
  /-- `hw.event_base` -/
  evtype : EvType
  /-- `hw.idx` -/
  idx : BitVec 32
  /-- `hw.config_base` -/
  portid : BitVec 32
  /-- `hw.prev_count` -/
  prevCount : BitVec 64
  count : BitVec 64

/-- Whether the `event_init` of its type takes the event. -/
def PerfEvent.taken (id : BitVec 16) (event : PerfEvent) : Bool :=
  match event.evtype with
  | .basic => (basicEventInit event.idx event.portid).isNone
  | .cache => (cacheEventInit id event.idx event.portid).isNone
  | .fabric => isFabricEventSupported id event.idx event.portid
  | .vtd => (vtdEventInit id event.idx event.portid).isNone
  | .vtdSip => (vtdSipEventInit id event.idx event.portid).isNone

/-- The `read_counter` of its type. -/
def PerfEvent.readCounter (event : PerfEvent) (answers : CntrAnswers) :
    CntrReading :=
  match event.evtype with
  | .basic => basicReadEventCounter answers
  | .cache => cacheReadEventCounter event.idx answers
  | .fabric => fabricReadEventCounter event.idx answers
  | .vtd => vtdReadEventCounter event.idx event.portid answers
  | .vtdSip => vtdSipReadEventCounter event.idx answers

/-- `fme_perf_event_update` -/
def fmePerfEventUpdate (event : PerfEvent) (answers : CntrAnswers) :
    Option PerfEvent := do
  let now ← (event.readCounter answers).count
  let prev := event.prevCount
  let delta := now - prev
  return { event with count := event.count + delta }

/-- `fme_perf_event_start` -/
def fmePerfEventStart (event : PerfEvent) (answers : CntrAnswers) :
    Option PerfEvent := do
  let count ← (event.readCounter answers).count
  return { event with prevCount := count }

/-- `fme_perf_event_stop` -/
def fmePerfEventStop : PerfEvent → CntrAnswers → Option PerfEvent :=
  fmePerfEventUpdate

/-- `fme_perf_event_read` -/
def fmePerfEventRead : PerfEvent → CntrAnswers → Option PerfEvent :=
  fmePerfEventUpdate

/-- The event code by which the counter of an event is selected. -/
def PerfEvent.code (event : PerfEvent) : BitVec 32 :=
  match event.evtype with
  | .vtd => vtdCode event.idx event.portid
  | _ => event.idx

/-- What an `event_init` has checked when it returns zero. -/
theorem checked_of_isNone {checks : Prop} [Decidable checks]
    (accepted :
      (if checks then none else some Errno.einval).isNone = true) : checks := by
  by_contra rejected
  rw [if_neg rejected] at accepted
  cases accepted

theorem le_of_isFabricEventSupported {id : BitVec 16}
    {event portid : BitVec 32}
    (supported : isFabricEventSupported id event portid = true) :
    event ≤ fabEvntMax := by
  by_contra above
  have rejected : event > fabEvntMax ∨ ¬ isPortidRootOrPort portid :=
    .inl (BitVec.not_le.mp above)
  rw [isFabricEventSupported, if_pos rejected] at supported
  cases supported

/-- The code of an event which is taken fits the fields of the registers. -/
theorem PerfEvent.code_lt_of_taken {id : BitVec 16} {event : PerfEvent}
    (taken : event.taken id = true) : event.code.toNat < 2 ^ 4 := by
  obtain ⟨evtype, idx, portid, prevCount, count⟩ := event
  cases evtype with
  | basic =>
      have below : idx ≤ 0x0#32 := (checked_of_isNone taken).1
      show idx.toNat < 2 ^ 4
      bv_omega
  | cache =>
      have below : idx ≤ 0xa#32 := (checked_of_isNone taken).2.1
      show idx.toNat < 2 ^ 4
      bv_omega
  | fabric =>
      have below : idx ≤ 0x7#32 := le_of_isFabricEventSupported taken
      show idx.toNat < 2 ^ 4
      bv_omega
  | vtd =>
      obtain ⟨-, below, port⟩ := checked_of_isNone taken
      have atPort : portid < 1#32 := of_decide_eq_true port
      have first : portid = 0#32 := by bv_omega
      have belowMax : idx ≤ 0x6#32 := below
      show (idx + portid * (0x6#32 + 1#32)).toNat < 2 ^ 4
      rw [first, BitVec.zero_mul, BitVec.add_zero]
      bv_omega
  | vtdSip =>
      have below : idx ≤ 0xa#32 := (checked_of_isNone taken).2.1
      show idx.toNat < 2 ^ 4
      bv_omega

end LinuxDfl.Fme.Perf

import LinuxDfl.Kernel.Errno

/-!
# Indirect access to the registers of the SPI controller

The registers of the controller are read and written through an address
register, in which a bit stays set while an access is going on.  Both
functions poll this bit and count the turns of the loop; the counter, and not
the bit, tells afterwards whether the access timed out.
-/

namespace LinuxDfl.Spi.Indirect

open LinuxDfl.Kernel

/-! ## Registers -/

def spiIndirectAccOfst : Nat := 0x10

def indirectAddr : Nat := spiIndirectAccOfst + 0x0

def indirectRdData : Nat := spiIndirectAccOfst + 0x8

def indirectWrData : Nat := spiIndirectAccOfst + 0x10

/-- `BIT_ULL(8)` -/
def indirectWr : BitVec 64 := 0x100

/-- `BIT_ULL(9)` -/
def indirectRd : BitVec 64 := 0x200

/-- `GENMASK_ULL(31, 0)` -/
def indirectDataMask : BitVec 64 := 0xFFFFFFFF

def indirectTimeout : Nat := 10000

/-- `ETIME` -/
def etime : Errno := .other 62

/-- An access to a register of the bridge. -/
inductive BridgeEvent where
  | writeq (val : BitVec 64) (reg : Nat)
  | readq (reg : Nat)
  deriving DecidableEq, Repr

/-- What the hardware answers in one access. -/
structure Device where
  /-- The value of `INDIRECT_ADDR` at each poll. -/
  addr : Nat → BitVec 64
  /-- The value of `INDIRECT_RD_DATA`. -/
  rdData : BitVec 64

/-- The bit is set at a poll. -/
def Device.busy (device : Device) (bit : BitVec 64) (poll : Nat) : Bool :=
  device.addr poll &&& bit != 0

/-! ## The loop -/

/-- How the loop is left. -/
structure Waited where
  events : List BridgeEvent
  loops : Nat
  deriving DecidableEq, Repr

/-- The loop of both functions, from a poll and a value of the counter on. -/
def waitClear (device : Device) (bit : BitVec 64) (poll loops : Nat) :
    Waited :=
  if device.busy bit poll then
    if loops < indirectTimeout then
      let rest := waitClear device bit (poll + 1) (loops + 1)
      { rest with events := .readq indirectAddr :: rest.events }
    else
      -- The counter is incremented by the comparison which ends the loop, too.
      { events := [.readq indirectAddr], loops := loops + 1 }
  else
    { events := [.readq indirectAddr], loops }
termination_by indirectTimeout - loops

/-! ## The functions -/

/-- What a function did, and what it returned. -/
structure Outcome where
  events : List BridgeEvent
  ret : Option Errno
  /-- What is stored for the caller. -/
  val : Option (BitVec 32)
  deriving DecidableEq, Repr

/-- `indirect_bus_reg_read` -/
def indirectBusRegRead (device : Device) (reg : BitVec 32) : Outcome :=
  let waited := waitClear device indirectRd 0 0
  let events :=
    .writeq ((reg >>> 2).setWidth 64 ||| indirectRd) indirectAddr ::
      waited.events
  if waited.loops ≥ indirectTimeout then
    { events, ret := some etime, val := none }
  else
    { events := events ++ [.readq indirectRdData]
      ret := none
      val := some ((device.rdData &&& indirectDataMask).setWidth 32) }

/-- `indirect_bus_reg_write` -/
def indirectBusRegWrite (device : Device) (reg val : BitVec 32) : Outcome :=
  let waited := waitClear device indirectWr 0 0
  let events :=
    .writeq (val.setWidth 64) indirectWrData ::
      .writeq ((reg >>> 2).setWidth 64 ||| indirectWr) indirectAddr ::
        waited.events
  if waited.loops ≥ indirectTimeout then
    { events, ret := some etime, val := none }
  else
    { events, ret := none, val := none }

/-- A call of one of both. -/
inductive Access where
  | read (reg : BitVec 32)
  | write (reg val : BitVec 32)
  deriving DecidableEq, Repr

/-- The bit which an access polls. -/
def Access.bit : Access → BitVec 64
  | .read _ => indirectRd
  | .write _ _ => indirectWr

def Access.perform (device : Device) : Access → Outcome
  | .read reg => indirectBusRegRead device reg
  | .write reg val => indirectBusRegWrite device reg val

/-- The polls which were made. -/
def polls (events : List BridgeEvent) : Nat :=
  events.count (.readq indirectAddr)

/-! ## How the loop ends -/

/-- The loop ends with a poll, up to which the bit is set. -/
structure EndsAt (device : Device) (bit : BitVec 64) (first last : Nat)
    (waited : Waited) : Prop where
  behind : first ≤ last
  within : last ≤ indirectTimeout
  before : ∀ poll, first ≤ poll → poll < last → device.busy bit poll = true
  events : waited.events =
    List.replicate (last + 1 - first) (.readq indirectAddr)
  clear : device.busy bit last = false → waited.loops = last
  /-- Only the limit ends the loop while the bit is set. -/
  busy : device.busy bit last = true →
    last = indirectTimeout ∧ waited.loops = last + 1

/-- The counter is the number of the poll, so that the loop ends. -/
theorem exists_endsAt (device : Device) (bit : BitVec 64) (poll : Nat)
    (inside : poll ≤ indirectTimeout) :
    ∃ last, EndsAt device bit poll last (waitClear device bit poll poll) := by
  induction left : indirectTimeout - poll generalizing poll with
  | zero =>
      have here : poll = indirectTimeout := by
        omega
      have full : ¬ poll < indirectTimeout := by
        omega
      refine ⟨poll, le_rfl, inside, fun other above below => ?_, ?_, ?_, ?_⟩
      · omega
      · rw [waitClear, if_neg full]
        split <;> simp
      · intro clear
        rw [waitClear, clear]
        rfl
      · intro busy
        rw [waitClear, busy]
        simp [here]
  | succ left ih =>
      have below : poll < indirectTimeout := by
        omega
      cases here : device.busy bit poll with
      | false =>
          refine ⟨poll, le_rfl, inside, fun other above below => ?_, ?_, ?_, ?_⟩
          · omega
          · rw [waitClear, here]
            simp
          · intro _
            rw [waitClear, here]
            rfl
          · intro busy
            cases here.symm.trans busy
      | true =>
          obtain ⟨last, ends⟩ := ih (poll + 1) below (by omega)
          have turn : waitClear device bit poll poll =
              { waitClear device bit (poll + 1) (poll + 1) with
                events := .readq indirectAddr ::
                  (waitClear device bit (poll + 1) (poll + 1)).events } := by
            rw [waitClear, here, if_pos rfl, if_pos below]
          have behind := ends.behind
          refine ⟨last, by omega, ends.within, ?_, ?_, ?_, ?_⟩
          · intro other above early
            rcases Nat.eq_or_lt_of_le above with rfl | later
            · exact here
            · exact ends.before other later early
          · have count : last + 1 - poll = (last + 1 - (poll + 1)) + 1 := by
              omega
            rw [turn, count, List.replicate_succ, ← ends.events]
          · rw [turn]
            exact ends.clear
          · rw [turn]
            exact ends.busy

/-- What both functions make of the loop. -/
structure Waits (device : Device) (access : Access) (last : Nat) : Prop where
  within : last ≤ indirectTimeout
  before : ∀ poll < last, device.busy access.bit poll = true
  polls : polls (access.perform device).events = last + 1
  atLimit : device.busy access.bit last = true → last = indirectTimeout
  /-- The limit decides, not the bit. -/
  ret : (access.perform device).ret =
    if last = indirectTimeout then some etime else none

/-- The counter reaches the limit with the last poll which is allowed. -/
theorem EndsAt.limit_le_loops_iff
    {device : Device} {bit : BitVec 64} {first last : Nat} {waited : Waited}
    (ends : EndsAt device bit first last waited) :
    waited.loops ≥ indirectTimeout ↔ last = indirectTimeout := by
  have within := ends.within
  cases here : device.busy bit last with
  | false =>
      have loops := ends.clear here
      omega
  | true =>
      obtain ⟨limit, loops⟩ := ends.busy here
      omega

theorem EndsAt.polls
    {device : Device} {bit : BitVec 64} {last : Nat} {waited : Waited}
    (ends : EndsAt device bit 0 last waited) :
    polls waited.events = last + 1 := by
  rw [Indirect.polls, ends.events, List.count_replicate_self, Nat.sub_zero]

theorem exists_waits (device : Device) (access : Access) :
    ∃ last, Waits device access last := by
  obtain ⟨last, ends⟩ :=
    exists_endsAt device access.bit 0 (Nat.zero_le indirectTimeout)
  have before : ∀ poll < last, device.busy access.bit poll = true :=
    fun poll early => ends.before poll (Nat.zero_le poll) early
  have atLimit := fun busy => (ends.busy busy).1
  have limit := ends.limit_le_loops_iff
  have polled := ends.polls
  cases access with
  | read reg =>
      simp only [Access.bit] at limit polled
      refine ⟨last, ends.within, before, ?_, atLimit, ?_⟩
      · simp only [Access.perform, indirectBusRegRead, limit]
        split
        · simpa [polls] using polled
        · simpa [polls, List.count_append, List.count_singleton,
            indirectAddr, indirectRdData, spiIndirectAccOfst] using polled
      · simp only [Access.perform, indirectBusRegRead, limit]
        split <;> rfl
  | write reg val =>
      simp only [Access.bit] at limit polled
      refine ⟨last, ends.within, before, ?_, atLimit, ?_⟩
      · simp only [Access.perform, indirectBusRegWrite, limit]
        split <;> simpa [polls] using polled
      · simp only [Access.perform, indirectBusRegWrite, limit]
        split <;> rfl

/-! ## What is stored -/

/-- The low half of the data. -/
theorem setWidth_and_indirectDataMask (data : BitVec 64) :
    (data &&& indirectDataMask).setWidth 32 = data.setWidth 32 := by
  ext bit inside
  simp only [BitVec.getElem_setWidth, BitVec.getLsbD_and]
  have set : indirectDataMask.getLsbD bit = true := by
    rw [show indirectDataMask = (BitVec.allOnes 32).setWidth 64 from rfl,
      BitVec.getLsbD_setWidth, BitVec.getLsbD_allOnes]
    simp
    omega
  rw [set, Bool.and_true]

/-- A read stores the data if it does not report an error. -/
theorem indirectBusRegRead_val
    {device : Device} {reg : BitVec 32}
    (read : (indirectBusRegRead device reg).ret = none) :
    (indirectBusRegRead device reg).val = some (device.rdData.setWidth 32) := by
  unfold indirectBusRegRead at read ⊢
  simp only at read ⊢
  split at read
  case isTrue => cases read
  case isFalse inTime =>
    rw [if_neg inTime, setWidth_and_indirectDataMask]

/-! ## Timeouts -/

/-- An access which polls as often as it may, and reports a timeout if the
last poll finds the bit set. -/
structure ReportsLastPoll (device : Device) (access : Access) : Prop where
  polled : 0 < polls (access.perform device).events
  atMost : polls (access.perform device).events ≤ indirectTimeout + 1
  timedOut : (access.perform device).ret = some etime ↔
    device.busy access.bit (polls (access.perform device).events - 1) = true
  reads : ∀ reg, access = .read reg →
    device.busy access.bit (polls (access.perform device).events - 1) = false →
      (access.perform device).ret = none ∧
        (access.perform device).val = some (device.rdData.setWidth 32)

/-- The bit is found clear by the last poll which is allowed. -/
def ClearsAtLimit (device : Device) (bit : BitVec 64) : Prop :=
  (∀ poll < indirectTimeout, device.busy bit poll = true) ∧
    device.busy bit indirectTimeout = false

/-- Such an access is taken for one which timed out. -/
theorem Waits.ret_of_clearsAtLimit
    {device : Device} {access : Access} {last : Nat}
    (waits : Waits device access last)
    (clears : ClearsAtLimit device access.bit) :
    last = indirectTimeout ∧ (access.perform device).ret = some etime := by
  have limit : last = indirectTimeout := by
    by_contra different
    have early := Nat.lt_of_le_of_ne waits.within different
    exact different (waits.atLimit (clears.1 last early))
  exact ⟨limit, waits.ret.trans (if_pos limit)⟩

theorem not_reportsLastPoll_of_clearsAtLimit
    {device : Device} {access : Access}
    (clears : ClearsAtLimit device access.bit) :
    ¬ ReportsLastPoll device access := by
  intro reports
  obtain ⟨last, waits⟩ := exists_waits device access
  obtain ⟨limit, ret⟩ := waits.ret_of_clearsAtLimit clears
  have busy := reports.timedOut.mp ret
  rw [waits.polls, Nat.add_sub_cancel, limit, clears.2] at busy
  cases busy

/-- Otherwise the bit is set at the limit if this is reached. -/
theorem Waits.ret_eq_etime_iff
    {device : Device} {access : Access} {last : Nat}
    (waits : Waits device access last)
    (early : ¬ ClearsAtLimit device access.bit) :
    (access.perform device).ret = some etime ↔
      device.busy access.bit last = true := by
  rw [waits.ret]
  constructor
  · intro timedOut
    split at timedOut
    case isFalse => cases timedOut
    case isTrue limit =>
      by_contra clear
      subst limit
      exact early ⟨waits.before, by simpa using clear⟩
  · intro busy
    rw [if_pos (waits.atLimit busy)]

/-- An access reports what it has seen unless the bit is cleared at the limit. -/
theorem reportsLastPoll_iff (device : Device) (access : Access) :
    ReportsLastPoll device access ↔ ¬ ClearsAtLimit device access.bit := by
  constructor
  · intro reports clears
    exact not_reportsLastPoll_of_clearsAtLimit clears reports
  · intro early
    obtain ⟨last, waits⟩ := exists_waits device access
    have timedOut := waits.ret_eq_etime_iff early
    have polled := waits.polls
    have within := waits.within
    refine ⟨by omega, by omega, ?_, ?_⟩
    · rw [polled, Nat.add_sub_cancel]
      exact timedOut
    · rintro reg rfl clear
      rw [polled, Nat.add_sub_cancel] at clear
      have ret : ((Access.read reg).perform device).ret = none := by
        rw [waits.ret]
        refine if_neg fun limit => ?_
        have busy := timedOut.mp (waits.ret.trans (if_pos limit))
        rw [clear] at busy
        cases busy
      exact ⟨ret, indirectBusRegRead_val ret⟩

/-- A bridge which clears the bit just in time. -/
def lateDevice : Device where
  addr poll := if poll < indirectTimeout then indirectRd else 0
  rdData := 0x1234

theorem lateDevice_clearsAtLimit : ClearsAtLimit lateDevice indirectRd := by
  constructor
  · intro poll early
    have addr : lateDevice.addr poll = indirectRd := by
      rw [lateDevice]
      exact if_pos early
    rw [Device.busy, addr]
    rfl
  · have addr : lateDevice.addr indirectTimeout = 0 := by
      simp only [lateDevice, Nat.lt_irrefl, if_false]
    rw [Device.busy, addr]
    rfl

/-- Its answer is there, and is given up. -/
theorem read_lateDevice_times_out :
    ¬ ReportsLastPoll lateDevice (.read 0) :=
  not_reportsLastPoll_of_clearsAtLimit lateDevice_clearsAtLimit

end LinuxDfl.Spi.Indirect

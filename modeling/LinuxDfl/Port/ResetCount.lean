import LinuxDfl.Port.SoftReset

/-!
# Counting the holders of a soft reset

The reset of a port, the clearing of its errors and the last close of its
device put the port into reset and take it out again, and the latency
tolerance is written to the same register.  This module says what each of them
does to a port whose soft reset bit agrees with its count.
-/

namespace LinuxDfl.Port

open LinuxDfl.Kernel

/-! ## The operations -/

/-- How the hardware acknowledges a disable and the enable after it. -/
structure Acks where
  disable : Bool
  enable : Bool

/-- `__port_reset` -/
def portReset (acks : Acks) (port : AfuPort) : Option Errno × AfuPort :=
  match afuPortDisable acks.disable port with
  | (some ret, disabled) => (some ret, disabled)
  | (none, disabled) => afuPortEnable acks.enable disabled

/-- `port_reset`, for a port of the given revision -/
def portResetDevice (revision : Nat) (acks : Acks) (port : AfuPort) :
    Option Errno × AfuPort :=
  if revision = 2 then
    (none, port)
  else if revision > 2 then
    (none, port)
  else
    portReset acks port

/-- What `afu_release` does to the port when the use count is `useCount`. -/
def afuReleaseReset (revision useCount : Nat) (acks : Acks)
    (port : AfuPort) : AfuPort :=
  if useCount = 0 ∧ revision < 2 then (portReset acks port).2 else port

/-- `PORT_CTRL_LATENCY` -/
def portCtrlLatency : Field := bit 2

/-- `ltr_store`, where `ltr` is what `kstrtobool` makes of the buffer -/
def ltrStore (ltr : Option Bool) (port : AfuPort) :
    Option Errno × AfuPort :=
  match ltr with
  | none => (some .einval, port)
  | some ltr =>
      (none,
        { port with ctrl := portCtrlLatency.update port.ctrl ltr.toNat })

/-- `PORT_STS_PWR_STATE`: power states of the AFU -/
def portStsPwrState : Field := genmask 11 8

/-- `PORT_STS_PWR_STATE_AP6` -/
def portStsPwrStateAp6 : Nat := 6

/-- The registers of the error feature which are written. -/
inductive PortErrorRegister where
  | errorMask
  | error
  | firstError
  deriving DecidableEq, Repr

/-- `ERROR_MASK` -/
def errorMask : BitVec 64 := BitVec.allOnes 64

/-- What the hardware answers while errors are cleared. -/
structure PortErrorAnswers where
  sts : BitVec 64
  error : BitVec 64
  firstError : BitVec 64
  acks : Acks

/-- What comes of clearing the errors of a port. -/
structure PortErrorsCleared where
  ret : Option Errno
  port : AfuPort
  writes : List (PortErrorRegister × BitVec 64)

/-- `afu_port_err_clear` -/
def afuPortErrClear (err : BitVec 64) (answers : PortErrorAnswers)
    (port : AfuPort) : PortErrorsCleared :=
  if portStsPwrState.get answers.sts = portStsPwrStateAp6 then
    ⟨some .ebusy, port, []⟩
  else
    match afuPortDisable answers.acks.disable port with
    | (some ret, disabled) => ⟨some ret, disabled, []⟩
    | (none, disabled) =>
        let matching := decide (answers.error = err)
        let ret := if matching then none else some .einval
        let clears :=
          if matching then
            [(.error, answers.error), (.firstError, answers.firstError)]
          else []
        let enabled := afuPortEnable answers.acks.enable disabled
        ⟨enabled.1 <|> ret, enabled.2,
          (.errorMask, errorMask) :: clears ++ [(.errorMask, 0#64)]⟩

/-! ## Their effect on a counted port -/

/-- The port is held in reset exactly if the count is not zero. -/
def AfuPort.Counted (port : AfuPort) : Prop :=
  portCtrlSftrst.get port.ctrl = 1 ↔ port.disableCount ≠ 0#32

/-- A reset leaves a port alone which somebody else holds. -/
theorem portReset_of_held
    {port : AfuPort} (held : port.disableCount ≠ 0#32) (acks : Acks) :
    portReset acks port = (none, port) := by
  have disabled :
      afuPortDisable acks.disable port =
        (none, { port with disableCount := port.disableCount + 1#32 }) := by
    simp only [afuPortDisable, if_pos held]
  have notLast : port.disableCount + 1#32 ≠ 1#32 := by
    intro last
    exact held (by bv_omega)
  have restored : port.disableCount + 1#32 - 1#32 = port.disableCount := by
    bv_omega
  rw [portReset, disabled]
  show afuPortEnable acks.enable
    { port with disableCount := port.disableCount + 1#32 } = _
  rw [afuPortEnable_of_nested notLast]
  simp only [restored]

/-- A reset of a port which nobody holds makes the bit follow the count. -/
theorem portReset_counts
    {port : AfuPort} (free : port.disableCount = 0#32) (acks : Acks) :
    (portReset acks port).2.Counted := by
  have disabled :
      afuPortDisable acks.disable port =
        { port with disableCount := 1#32 }.writeSftrst true
          acks.disable := by
    simp only [afuPortDisable, free, ne_eq, not_true_eq_false, if_false]
    rfl
  have count := afuPortDisable_disableCount acks.disable port
  have sftrst :
      portCtrlSftrst.get (afuPortDisable acks.disable port).2.ctrl = 1 := by
    rw [disabled]
    exact writeSftrst_sftrst _ _ _
  rw [portReset]
  rcases result : afuPortDisable acks.disable port with ⟨_ | ret, next⟩
  · rw [result, free] at count
    have enabled : (afuPortEnable acks.enable next).2.Enabled :=
      enabled_afuPortEnable count acks.enable
    constructor
    · intro inReset
      rw [enabled.sftrst] at inReset
      cases inReset
    · intro held
      exact absurd enabled.disableCount held
  · rw [result] at count sftrst
    constructor
    · intro _
      show next.disableCount ≠ 0#32
      rw [count, free]
      decide
    · intro _
      exact sftrst

/-- What an operation on the port owes to its holders. -/
structure AfuPort.Respects (port next : AfuPort) : Prop where
  counted : port.Counted → next.Counted
  held : port.disableCount ≠ 0#32 → next.disableCount = port.disableCount

theorem AfuPort.Respects.refl (port : AfuPort) : port.Respects port :=
  ⟨id, fun _ => rfl⟩

theorem portReset_respects (acks : Acks) (port : AfuPort) :
    port.Respects (portReset acks port).2 := by
  by_cases free : port.disableCount = 0#32
  · exact ⟨fun _ => portReset_counts free acks, absurd free⟩
  · rw [portReset_of_held free]
    exact .refl port

theorem portResetDevice_respects (revision : Nat) (acks : Acks)
    (port : AfuPort) :
    port.Respects (portResetDevice revision acks port).2 := by
  unfold portResetDevice
  split_ifs
  · exact .refl port
  · exact .refl port
  · exact portReset_respects acks port

theorem afuReleaseReset_respects (revision useCount : Nat) (acks : Acks)
    (port : AfuPort) :
    port.Respects (afuReleaseReset revision useCount acks port) := by
  unfold afuReleaseReset
  split_ifs
  · exact portReset_respects acks port
  · exact .refl port

/-- Another field of the register is written. -/
theorem update_respects (field : Field) (value : Nat) (port : AfuPort)
    (disjoint : portCtrlSftrst.low + portCtrlSftrst.width ≤ field.low) :
    port.Respects { port with ctrl := field.update port.ctrl value } := by
  have same :
      portCtrlSftrst.get (field.update port.ctrl value) =
        portCtrlSftrst.get port.ctrl :=
    Field.get_update_of_disjoint _ _ (.inl disjoint) _ _
  refine ⟨fun counted => ?_, fun _ => rfl⟩
  show portCtrlSftrst.get (field.update port.ctrl value) = 1 ↔ _
  rw [same]
  exact counted

theorem ltrStore_respects (ltr : Option Bool) (port : AfuPort) :
    port.Respects (ltrStore ltr port).2 := by
  cases ltr with
  | none => exact .refl port
  | some ltr => exact update_respects portCtrlLatency _ port (by decide)

/-- Clearing errors resets the port, or leaves it alone. -/
theorem afuPortErrClear_port (err : BitVec 64) (answers : PortErrorAnswers)
    (port : AfuPort) :
    (afuPortErrClear err answers port).port = port ∨
      (afuPortErrClear err answers port).port =
        (portReset answers.acks port).2 := by
  unfold afuPortErrClear portReset
  split_ifs
  · exact .inl rfl
  · right
    rcases afuPortDisable answers.acks.disable port with ⟨_ | ret, disabled⟩
    · rfl
    · rfl

theorem afuPortErrClear_respects (err : BitVec 64)
    (answers : PortErrorAnswers) (port : AfuPort) :
    port.Respects (afuPortErrClear err answers port).port := by
  rcases afuPortErrClear_port err answers port with same | reset
  · rw [same]
    exact .refl port
  · rw [reset]
    exact portReset_respects answers.acks port

/-! ## Holding the port for longer -/

/-- The largest number of holders which can be counted. -/
def maxDisableCount : BitVec 32 := BitVec.allOnes 32

/-- A port which is disabled is in reset. -/
theorem AfuPort.Counted.afuPortDisable_sftrst
    {port : AfuPort} (counted : port.Counted) (ack : Bool) :
    portCtrlSftrst.get (afuPortDisable ack port).2.ctrl = 1 := by
  unfold afuPortDisable
  split_ifs with held
  · exact counted.mpr held
  · exact writeSftrst_sftrst _ _ _

/-- One more holder is counted, unless the count wraps around. -/
theorem AfuPort.Counted.afuPortDisable_iff
    {port : AfuPort} (counted : port.Counted) (ack : Bool) :
    (afuPortDisable ack port).2.Counted ↔
      port.disableCount ≠ maxDisableCount := by
  have sftrst := counted.afuPortDisable_sftrst ack
  have wraps : port.disableCount + 1#32 ≠ 0#32 ↔
      port.disableCount ≠ maxDisableCount := by
    have max : maxDisableCount = 4294967295#32 := by decide
    rw [max]
    constructor
    · intro nonzero atMax
      rw [atMax] at nonzero
      exact nonzero (by decide)
    · intro notMax zero
      exact notMax (by bv_omega)
  rw [AfuPort.Counted, afuPortDisable_disableCount, ← wraps]
  constructor
  · intro counts
    exact counts.mp sftrst
  · intro nonzero
    exact ⟨fun _ => nonzero, fun _ => sftrst⟩

/-- The port is enabled when its last holder leaves. -/
theorem AfuPort.Counted.afuPortEnable
    {port : AfuPort} (counted : port.Counted)
    (held : port.disableCount ≠ 0#32) (ack : Bool) :
    (afuPortEnable ack port).2.Counted := by
  by_cases last : port.disableCount = 1#32
  · have enabled := enabled_afuPortEnable last ack
    constructor
    · intro inReset
      rw [enabled.sftrst] at inReset
      cases inReset
    · intro nonzero
      exact absurd enabled.disableCount nonzero
  · rw [afuPortEnable_of_nested last]
    constructor
    · intro _
      show port.disableCount - 1#32 ≠ 0#32
      bv_omega
    · intro _
      exact counted.mpr held

end LinuxDfl.Port

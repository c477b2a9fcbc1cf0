import LinuxDfl.Kernel.Bitfield
import LinuxDfl.Kernel.Errno

/-!
# Port soft reset

Disabling and enabling a port are counted: `__afu_port_disable` puts the port
into reset when the count leaves zero, and `__afu_port_enable` takes it out of
reset when the count comes back to zero.  The counter is an `unsigned int`.
-/

namespace LinuxDfl.Port

open LinuxDfl.Kernel

/-- `PORT_CTRL_SFTRST`: port soft reset -/
def portCtrlSftrst : Field := bit 0

/-- `PORT_CTRL_SFTRST_ACK`: acknowledgement of the hardware -/
def portCtrlSftrstAck : Field := bit 4

/-- The count in `struct dfl_feature_dev_data` and the `PORT_HDR_CTRL` register. -/
structure AfuPort where
  disableCount : BitVec 32
  ctrl : BitVec 64
  deriving DecidableEq, Repr

/-- The port is not disabled, and not held in reset. -/
structure AfuPort.Enabled (port : AfuPort) : Prop where
  disableCount : port.disableCount = 0#32
  sftrst : portCtrlSftrst.get port.ctrl = 0

/--
Write the soft reset bit, and poll until the hardware has followed.  `ack` is
the value of the acknowledgement bit when polling ends.
-/
def AfuPort.writeSftrst (port : AfuPort) (reset ack : Bool) :
    Option Errno × AfuPort :=
  let ctrl := portCtrlSftrst.update port.ctrl reset.toNat
  let polled := portCtrlSftrstAck.update ctrl ack.toNat
  (if ack = reset then none else some .etimedout,
    { port with ctrl := polled })

/-- `__afu_port_enable` -/
def afuPortEnable (ack : Bool) (port : AfuPort) : Option Errno × AfuPort :=
  let count := port.disableCount - 1#32
  if count ≠ 0#32 then
    (none, { port with disableCount := count })
  else
    { port with disableCount := count }.writeSftrst false ack

/-- `__afu_port_disable` -/
def afuPortDisable (ack : Bool) (port : AfuPort) : Option Errno × AfuPort :=
  let count := port.disableCount + 1#32
  if port.disableCount ≠ 0#32 then
    (none, { port with disableCount := count })
  else
    { port with disableCount := count }.writeSftrst true ack

@[simp]
theorem writeSftrst_disableCount (port : AfuPort) (reset ack : Bool) :
    (port.writeSftrst reset ack).2.disableCount = port.disableCount := rfl

@[simp]
theorem writeSftrst_succeeds_iff (port : AfuPort) (reset ack : Bool) :
    (port.writeSftrst reset ack).1 = none ↔ ack = reset := by
  simp [AfuPort.writeSftrst]

/-- Polling leaves the soft reset bit as it was written. -/
@[simp]
theorem writeSftrst_sftrst (port : AfuPort) (reset ack : Bool) :
    portCtrlSftrst.get (port.writeSftrst reset ack).2.ctrl =
      reset.toNat := by
  rw [AfuPort.writeSftrst]
  rw [Field.get_update_of_disjoint _ _ (by decide),
    Field.get_update _ (by decide)]
  cases reset <;> rfl

@[simp]
theorem afuPortDisable_disableCount (ack : Bool) (port : AfuPort) :
    (afuPortDisable ack port).2.disableCount =
      port.disableCount + 1#32 := by
  simp only [afuPortDisable]
  split_ifs <;> simp

@[simp]
theorem afuPortEnable_disableCount (ack : Bool) (port : AfuPort) :
    (afuPortEnable ack port).2.disableCount =
      port.disableCount - 1#32 := by
  simp only [afuPortEnable]
  split_ifs <;> simp

/-- Only the first of nested disables waits for the hardware. -/
theorem afuPortDisable_succeeds_iff (ack : Bool) (port : AfuPort) :
    (afuPortDisable ack port).1 = none ↔
      (port.disableCount = 0#32 → ack = true) := by
  simp only [afuPortDisable]
  split_ifs with nested
  · simp [nested]
  · have first : port.disableCount = 0#32 := not_not.mp nested
    simp [first]

/-- A nested enable only counts. -/
theorem afuPortEnable_of_nested
    {port : AfuPort} (nested : port.disableCount ≠ 1#32) (ack : Bool) :
    afuPortEnable ack port =
      (none, { port with disableCount := port.disableCount - 1#32 }) := by
  have notLast : port.disableCount - 1#32 ≠ 0#32 := by bv_omega
  simp only [afuPortEnable, ne_eq, notLast, not_false_eq_true, if_true]

/-- The last enable waits for the hardware. -/
theorem afuPortEnable_of_last
    {port : AfuPort} (last : port.disableCount = 1#32) (ack : Bool) :
    afuPortEnable ack port =
      { port with disableCount := 0#32 }.writeSftrst false ack := by
  have zero : port.disableCount - 1#32 = 0#32 := by bv_omega
  simp only [afuPortEnable, zero, ne_eq, not_true_eq_false, if_false]

theorem afuPortEnable_succeeds_iff (ack : Bool) (port : AfuPort) :
    (afuPortEnable ack port).1 = none ↔
      (port.disableCount = 1#32 → ack = false) := by
  by_cases last : port.disableCount = 1#32
  · simp [afuPortEnable_of_last last, last]
  · simp [afuPortEnable_of_nested last, last]

/-- The last enable leaves the port enabled, acknowledged or not. -/
theorem enabled_afuPortEnable
    {port : AfuPort} (last : port.disableCount = 1#32) (ack : Bool) :
    (afuPortEnable ack port).2.Enabled := by
  rw [afuPortEnable_of_last last]
  exact ⟨rfl, writeSftrst_sftrst _ _ _⟩

end LinuxDfl.Port

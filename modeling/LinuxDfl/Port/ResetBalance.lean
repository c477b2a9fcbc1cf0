import LinuxDfl.Port.ResetCount

/-!
# Resets which give the port back

A reset, and the clearing of errors, disable a port and enable it again.  This
says when the count comes back to what it was, on which it depends whether a
later reset can still take the port out of reset.
-/

namespace LinuxDfl.Port

open LinuxDfl.Kernel

/-- A reset to which the hardware answers in time. -/
def Acks.prompt : Acks := ⟨true, false⟩

/-- What a call which disables and enables the port leaves of it. -/
structure AfuPort.GivenBack (port next : AfuPort) : Prop where
  disableCount : next.disableCount = port.disableCount
  /-- A port which nobody held can be reset later. -/
  recovers :
    port.disableCount = 0#32 → (portReset .prompt next).2.Enabled

/-- The first disable sets the bit, and the count to one. -/
theorem afuPortDisable_of_free
    {port : AfuPort} (free : port.disableCount = 0#32) (ack : Bool) :
    afuPortDisable ack port =
      { port with disableCount := 1#32 }.writeSftrst true ack := by
  simp only [afuPortDisable, free, ne_eq, not_true_eq_false, if_false]
  rfl

/-- A reset of a port which nobody holds, if the disable is acknowledged. -/
theorem portReset_of_acknowledged
    {port : AfuPort} (free : port.disableCount = 0#32) {acks : Acks}
    (acknowledged : acks.disable = true) :
    (portReset acks port).2.Enabled := by
  have disables : (afuPortDisable acks.disable port).1 = none :=
    (afuPortDisable_succeeds_iff _ _).mpr fun _ => acknowledged
  have count := afuPortDisable_disableCount acks.disable port
  rw [portReset]
  rcases result : afuPortDisable acks.disable port with ⟨ret, disabled⟩
  rw [result] at disables count
  obtain rfl : ret = none := disables
  rw [free] at count
  exact enabled_afuPortEnable count _

/-- A reset which times out while the port is disabled leaves it so. -/
theorem portReset_of_timeout
    {port : AfuPort} (free : port.disableCount = 0#32) {acks : Acks}
    (timeout : acks.disable = false) :
    (portReset acks port).2.disableCount = 1#32 := by
  rw [portReset, afuPortDisable_of_free free, timeout]
  rfl

/-- A port with its count at zero can always be reset. -/
theorem AfuPort.GivenBack.of_disableCount {port next : AfuPort}
    (kept : next.disableCount = port.disableCount) :
    port.GivenBack next where
  disableCount := kept
  recovers free := portReset_of_acknowledged (kept.trans free) rfl

/-- The reset gives the port back unless disabling it times out. -/
theorem portReset_givenBack_iff (acks : Acks) (port : AfuPort) :
    port.GivenBack (portReset acks port).2 ↔
      (port.disableCount = 0#32 → acks.disable = true) := by
  by_cases free : port.disableCount = 0#32
  · cases acknowledged : acks.disable with
    | true =>
        refine iff_of_true ?_ fun _ => rfl
        have enabled := portReset_of_acknowledged free acknowledged
        exact .of_disableCount (enabled.disableCount.trans free.symm)
    | false =>
        refine iff_of_false (fun givenBack => ?_) fun answers => ?_
        · have count := givenBack.disableCount
          rw [portReset_of_timeout free acknowledged, free] at count
          exact absurd count (by decide)
        · exact absurd (answers free) (by decide)
  · rw [portReset_of_held free]
    exact iff_of_true (.of_disableCount rfl) fun isFree => absurd isFree free

/-- The errors of a port in this state cannot be cleared. -/
def PortErrorAnswers.Ap6 (answers : PortErrorAnswers) : Prop :=
  portStsPwrState.get answers.sts = portStsPwrStateAp6

theorem afuPortErrClear_of_ap6 {answers : PortErrorAnswers}
    (ap6 : answers.Ap6) (err : BitVec 64) (port : AfuPort) :
    (afuPortErrClear err answers port).port = port := by
  unfold PortErrorAnswers.Ap6 at ap6
  rw [afuPortErrClear, if_pos ap6]

/-- Otherwise clearing the errors resets the port, whatever they are. -/
theorem afuPortErrClear_of_not_ap6 {answers : PortErrorAnswers}
    (notAp6 : ¬ answers.Ap6) (err : BitVec 64) (port : AfuPort) :
    (afuPortErrClear err answers port).port =
      (portReset answers.acks port).2 := by
  unfold PortErrorAnswers.Ap6 at notAp6
  rw [afuPortErrClear, if_neg notAp6, portReset]
  rcases afuPortDisable answers.acks.disable port with ⟨_ | ret, disabled⟩
  · rfl
  · rfl

theorem afuPortErrClear_givenBack_iff (err : BitVec 64)
    (answers : PortErrorAnswers) (port : AfuPort) :
    port.GivenBack (afuPortErrClear err answers port).port ↔
      (port.disableCount = 0#32 →
        answers.acks.disable = true ∨ answers.Ap6) := by
  by_cases ap6 : answers.Ap6
  · rw [afuPortErrClear_of_ap6 ap6]
    exact iff_of_true (.of_disableCount rfl) fun _ => .inr ap6
  · rw [afuPortErrClear_of_not_ap6 ap6, portReset_givenBack_iff]
    simp only [ap6, or_false]

/--
A reset and the clearing of errors leave the count as it was, so that the port
can be reset later, exactly if the disable of a port which nobody holds is
acknowledged in time (or, for the errors, is not tried).
-/
theorem port_given_back_iff (err : BitVec 64) (answers : PortErrorAnswers)
    (port : AfuPort) :
    (port.GivenBack (portReset answers.acks port).2 ↔
        (port.disableCount = 0#32 → answers.acks.disable = true)) ∧
      (port.GivenBack (afuPortErrClear err answers port).port ↔
        (port.disableCount = 0#32 →
          answers.acks.disable = true ∨ answers.Ap6)) :=
  ⟨portReset_givenBack_iff answers.acks port,
    afuPortErrClear_givenBack_iff err answers port⟩

/-- A reset which is not acknowledged keeps the port in reset for good. -/
theorem timed_out_reset_never_recovers :
    let port : AfuPort := ⟨0#32, 0#64⟩
    let reset := portReset ⟨false, false⟩ port
    reset.1 = some .etimedout ∧ reset.2.disableCount = 1#32 ∧
      portReset .prompt reset.2 = (none, reset.2) ∧
        ¬ port.GivenBack reset.2 := by
  intro port reset
  refine ⟨rfl, rfl, ?_, ?_⟩
  · exact portReset_of_held (by decide) _
  · exact fun givenBack => absurd givenBack.disableCount (by decide)

end LinuxDfl.Port

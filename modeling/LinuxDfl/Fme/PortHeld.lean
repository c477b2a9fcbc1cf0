import LinuxDfl.Fme.PortEnabled
import LinuxDfl.Port.ResetCount

/-!
# A port is held by its holders

The operations on the soft reset of one port, in any order: partial
reconfiguration disables and enables it through its bridge, while the port is
reset, its errors are cleared, its device is closed and its latency tolerance
is written.
-/

namespace LinuxDfl.Fme

open LinuxDfl.Kernel
open LinuxDfl.Port
open LinuxDfl.Lib.Transition

/-! ## The interleaving -/

/-- A port, and whether a reconfiguration has disabled it. -/
structure PortInUse where
  fmePort : FmePort
  reconfiguring : Bool

/-- What is done to a port under its lock. -/
inductive PortOperation where
  /-- Reconfiguration disables the bridge. -/
  | bridgeDisable (env : FmeBrEnv)
  /-- Reconfiguration enables the bridge which it has disabled. -/
  | bridgeEnable (env : FmeBrEnv)
  /-- Reconfiguration fails after it has disabled the bridge. -/
  | bridgePut
  | reset (acks : Acks)
  | errClear (err : BitVec 64) (answers : PortErrorAnswers)
  | release (useCount : Nat) (acks : Acks)
  | ltrStore (ltr : Option Bool)
  /-- The hardware changes its acknowledgement. -/
  | acknowledge (ack : Bool)

/-- Reconfigurations of one port follow each other: they hold its bridge. -/
def PortOperation.Allowed (inUse : PortInUse) : PortOperation → Prop
  | .bridgeDisable _ => inUse.reconfiguring = false
  | .bridgeEnable _ | .bridgePut => inUse.reconfiguring = true
  | _ => True

/-- Replace the port. -/
def PortInUse.withPort (inUse : PortInUse) (port : AfuPort) : PortInUse :=
  { inUse with fmePort := { inUse.fmePort with port := port } }

/-- The port after an operation, for a port of the given revision. -/
def PortOperation.apply (revision : Nat) (inUse : PortInUse) :
    PortOperation → PortInUse
  | .bridgeDisable env =>
      let set := fmeBridgeEnableSet env false inUse.fmePort
      ⟨set.2, set.1.isNone⟩
  | .bridgeEnable env =>
      ⟨(fmeBridgeEnableSet env true inUse.fmePort).2, false⟩
  | .bridgePut => ⟨inUse.fmePort, false⟩
  | .reset acks =>
      inUse.withPort (portResetDevice revision acks inUse.fmePort.port).2
  | .errClear err answers =>
      inUse.withPort (afuPortErrClear err answers inUse.fmePort.port).port
  | .release useCount acks =>
      inUse.withPort
        (afuReleaseReset revision useCount acks inUse.fmePort.port)
  | .ltrStore ltr =>
      inUse.withPort (LinuxDfl.Port.ltrStore ltr inUse.fmePort.port).2
  | .acknowledge ack =>
      inUse.withPort
        { inUse.fmePort.port with
          ctrl :=
            portCtrlSftrstAck.update inUse.fmePort.port.ctrl ack.toNat }

/-- One operation on a port of the given revision. -/
def PortInUse.Step (revision : Nat) (inUse : PortInUse)
    (operation : PortOperation) (next : PortInUse) : Prop :=
  operation.Allowed inUse ∧ operation.apply revision inUse = next

/-! ## The property -/

/--
The port is in reset exactly while the count is not zero, and always while it
is being reconfigured.
-/
structure PortInUse.Held (inUse : PortInUse) : Prop where
  counted : inUse.fmePort.port.Counted
  reconfiguring : inUse.reconfiguring = true →
    portCtrlSftrst.get inUse.fmePort.port.ctrl = 1

/-- The bridge finds its port, so that it can be set. -/
def FmeBrEnv.Finds (env : FmeBrEnv) (priv : FmeBrPriv) : Prop :=
  (priv.portFdata = true ∨ env.findPortData = true) ∧
    (priv.portOps = true ∨ env.portOps = true)

/-- No reconfiguration disables the port when its count is exhausted. -/
def PortOperation.Counts (inUse : PortInUse) : PortOperation → Prop
  | .bridgeDisable env =>
      env.Finds inUse.fmePort.priv →
        inUse.fmePort.port.disableCount ≠ maxDisableCount
  | _ => True

theorem PortInUse.Held.bridgeDisable_iff
    {inUse : PortInUse} (held : inUse.Held) (revision : Nat)
    (env : FmeBrEnv) :
    ((PortOperation.bridgeDisable env).apply revision inUse).Held ↔
      (PortOperation.bridgeDisable env).Counts inUse := by
  by_cases finds : env.Finds inUse.fmePort.priv
  · have set := fmeBridgeEnableSet_of_found false finds.1 finds.2
    have counts := held.counted.afuPortDisable_iff env.ack
    have applied :
        ((PortOperation.bridgeDisable env).apply revision inUse).fmePort.port =
          (afuPortDisable env.ack inUse.fmePort.port).2 := by
      simp only [PortOperation.apply, set]
      rfl
    constructor
    · intro next _
      rw [← counts, ← applied]
      exact next.counted
    · intro below
      constructor
      · rw [applied, counts]
        exact below finds
      · intro _
        rw [applied]
        exact held.counted.afuPortDisable_sftrst env.ack
  · obtain ⟨fails, same⟩ := fmeBridgeEnableSet_of_not_found false finds
    refine iff_of_true ⟨?_, ?_⟩ fun found => absurd found finds
    · show (fmeBridgeEnableSet env false inUse.fmePort).2.port.Counted
      rw [same]
      exact held.counted
    · intro disabled
      exact absurd (Option.isNone_iff_eq_none.mp disabled) fails

theorem PortInUse.Held.count_ne_zero
    {inUse : PortInUse} (held : inUse.Held)
    (reconfiguring : inUse.reconfiguring = true) :
    inUse.fmePort.port.disableCount ≠ 0#32 :=
  held.counted.mp (held.reconfiguring reconfiguring)

theorem PortInUse.Held.bridgeEnable
    {inUse : PortInUse} (held : inUse.Held) (revision : Nat)
    (env : FmeBrEnv) (reconfiguring : inUse.reconfiguring = true) :
    ((PortOperation.bridgeEnable env).apply revision inUse).Held := by
  refine ⟨?_, fun impossible => absurd impossible Bool.false_ne_true⟩
  show (fmeBridgeEnableSet env true inUse.fmePort).2.port.Counted
  by_cases finds : env.Finds inUse.fmePort.priv
  · rw [fmeBridgeEnableSet_of_found true finds.1 finds.2]
    exact held.counted.afuPortEnable (held.count_ne_zero reconfiguring) _
  · rw [(fmeBridgeEnableSet_of_not_found true finds).2]
    exact held.counted

theorem PortInUse.Held.withPort
    {inUse : PortInUse} (held : inUse.Held) {port : AfuPort}
    (respects : inUse.fmePort.port.Respects port) :
    (inUse.withPort port).Held := by
  have counted : port.Counted := respects.counted held.counted
  refine ⟨counted, fun reconfiguring => counted.mpr ?_⟩
  have before := held.count_ne_zero reconfiguring
  rw [respects.held before]
  exact before

/-- An operation keeps the property exactly if it does not exhaust the count. -/
theorem PortInUse.Held.step_iff
    {revision : Nat} {inUse next : PortInUse} {operation : PortOperation}
    (held : inUse.Held) (step : inUse.Step revision operation next) :
    next.Held ↔ operation.Counts inUse := by
  obtain ⟨allowed, rfl⟩ := step
  cases operation with
  | bridgeDisable env => exact held.bridgeDisable_iff revision env
  | bridgeEnable env =>
      exact iff_of_true (held.bridgeEnable revision env allowed) trivial
  | bridgePut =>
      refine iff_of_true ⟨held.counted, ?_⟩ trivial
      exact fun impossible => absurd impossible Bool.false_ne_true
  | reset acks =>
      exact iff_of_true
        (held.withPort (portResetDevice_respects revision acks _)) trivial
  | errClear err answers =>
      exact iff_of_true
        (held.withPort (afuPortErrClear_respects err answers _)) trivial
  | release useCount acks =>
      exact iff_of_true
        (held.withPort (afuReleaseReset_respects revision useCount acks _))
        trivial
  | ltrStore ltr =>
      exact iff_of_true (held.withPort (ltrStore_respects ltr _)) trivial
  | acknowledge ack =>
      exact iff_of_true
        (held.withPort
          (update_respects portCtrlSftrstAck _ _ (by decide))) trivial

/-- A port after the reset which its driver begins with. -/
def initialPort (priv : FmeBrPriv) (ctrl : BitVec 64) (acks : Acks) :
    PortInUse where
  fmePort := ⟨priv, (portReset acks ⟨0#32, ctrl⟩).2⟩
  reconfiguring := false

theorem held_initialPort (priv : FmeBrPriv) (ctrl : BitVec 64)
    (acks : Acks) : (initialPort priv ctrl acks).Held where
  counted := portReset_counts rfl acks
  reconfiguring impossible := absurd impossible Bool.false_ne_true

/--
After its initial reset, a port is in reset exactly while its count is not
zero, in every interleaving, if and only if reconfigurations never disable it
when the count is exhausted.
-/
theorem soft_reset_counted_iff (revision : Nat) (priv : FmeBrPriv)
    (ctrl : BitVec 64) (acks : Acks)
    (path : List (PortOperation × PortInUse))
    (isPath :
      IsPath (PortInUse.Step revision) (initialPort priv ctrl acks) path) :
    Throughout PortInUse.Held (initialPort priv ctrl acks) path ↔
      StepsMeet (fun inUse operation => operation.Counts inUse)
        (initialPort priv ctrl acks) path :=
  throughout_iff_stepsMeet (fun _ => True) (fun _ _ _ _ _ => trivial)
    (fun _ _ _ _ held step => held.step_iff step) isPath trivial
    (held_initialPort priv ctrl acks)

/-! ## Exhausting the count -/

/-- The bridge finds its port, and the hardware acknowledges. -/
def acknowledged : FmeBrEnv where
  findPortData := true
  portOps := true
  ack := true

/-- Reconfigurations which fail after they have disabled the port. -/
def failedReconfigurations : Nat → List PortOperation
  | 0 => []
  | rounds + 1 =>
      .bridgeDisable acknowledged :: .bridgePut ::
        failedReconfigurations rounds

/-- The states through which they lead a port of revision 0. -/
def failedPath (rounds : Nat) (inUse : PortInUse) :
    List (PortOperation × PortInUse) :=
  pathOf (PortOperation.apply 0) inUse (failedReconfigurations rounds)

theorem bridgeDisable_acknowledged (inUse : PortInUse) :
    (PortOperation.bridgeDisable acknowledged).apply 0 inUse =
      ⟨⟨⟨true, true⟩, (afuPortDisable true inUse.fmePort.port).2⟩, true⟩ := by
  have succeeds : (afuPortDisable true inUse.fmePort.port).1 = none :=
    (afuPortDisable_succeeds_iff true _).mpr fun _ => rfl
  have set :
      fmeBridgeEnableSet acknowledged false inUse.fmePort =
        ((afuPortDisable true inUse.fmePort.port).1,
          ⟨⟨true, true⟩, (afuPortDisable true inUse.fmePort.port).2⟩) :=
    fmeBridgeEnableSet_of_found false (.inr rfl) (.inr rfl)
  simp only [PortOperation.apply, set, succeeds, Option.isNone_none]

theorem isPath_failedPath (rounds : Nat) {inUse : PortInUse}
    (idle : inUse.reconfiguring = false) :
    IsPath (PortInUse.Step 0) inUse (failedPath rounds inUse) := by
  induction rounds generalizing inUse with
  | zero => trivial
  | succ rounds induction =>
      refine ⟨⟨idle, rfl⟩, ⟨?_, rfl⟩, induction rfl⟩
      rw [bridgeDisable_acknowledged]
      rfl

/-- Each of them takes one from what is left of the count. -/
theorem rounds_le_of_counted (rounds : Nat) {inUse : PortInUse}
    (counted :
      Throughout (fun inUse => inUse.fmePort.port.Counted) inUse
        (failedPath rounds inUse)) :
    inUse.fmePort.port.disableCount.toNat + rounds < 2 ^ 32 := by
  induction rounds generalizing inUse with
  | zero => exact inUse.fmePort.port.disableCount.isLt
  | succ rounds induction =>
      obtain ⟨before, along⟩ := (throughout_cons _ _ _ _ _).mp counted
      obtain ⟨after, rest⟩ := (throughout_cons _ _ _ _ _).mp along
      rw [bridgeDisable_acknowledged] at after rest
      have below :
          (afuPortDisable true inUse.fmePort.port).2.disableCount.toNat +
            rounds < 2 ^ 32 := induction rest
      have notMax := (before.afuPortDisable_iff true).mp after
      have count :
          (afuPortDisable true inUse.fmePort.port).2.disableCount.toNat =
            inUse.fmePort.port.disableCount.toNat + 1 := by
        have max : maxDisableCount = 4294967295#32 := by decide
        rw [max] at notMax
        rw [afuPortDisable_disableCount]
        bv_omega
      omega

/--
When as many reconfigurations have failed as the count has values, the port is
in reset with a count of zero.
-/
theorem soft_reset_not_counted_after_failures :
    let start := initialPort ⟨false, false⟩ 1#64 ⟨true, false⟩
    IsPath (PortInUse.Step 0) start (failedPath (2 ^ 32) start) ∧
      ¬ Throughout (fun inUse => inUse.fmePort.port.Counted) start
        (failedPath (2 ^ 32) start) := by
  intro start
  refine ⟨isPath_failedPath _ rfl, fun counted => ?_⟩
  have bound := rounds_le_of_counted _ counted
  omega

/-- One failed reconfiguration is counted. -/
theorem soft_reset_counted_after_failure :
    let start := initialPort ⟨false, false⟩ 1#64 ⟨true, false⟩
    Throughout PortInUse.Held start (failedPath 1 start) ↔
      StepsMeet (fun inUse operation => operation.Counts inUse) start
        (failedPath 1 start) :=
  soft_reset_counted_iff 0 ⟨false, false⟩ 1#64 ⟨true, false⟩ _
    (isPath_failedPath 1 rfl)

end LinuxDfl.Fme

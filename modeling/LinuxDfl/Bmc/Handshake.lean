import LinuxDfl.Bmc.SecWorker

/-!
# The handshake registers during a secure update

From its preparation to its programming, a secure update keeps other drivers
away from the handshake registers, by the firmware state of the board.  The
load of the retimer firmware uses the same state, and sets it back to normal
when it ends.
-/

namespace LinuxDfl.Bmc

open LinuxDfl.Kernel
open LinuxDfl.ImageLoad
open LinuxDfl.Bmc.Rsu
open LinuxDfl.Lib.Transition

/-! ## Accesses to system registers -/

/-- How the driver gets at a system register. -/
inductive RegUse where
  /-- Through `m10bmc_sys_read` or `m10bmc_sys_update_bits`. -/
  | sys (offset : Nat)
  /-- Through the register map of the board. -/
  | raw (offset : Nat)
  deriving DecidableEq, Repr

/-- The registers which are accessed. -/
def RegUse.accesses (info : BoardInfo) (m10bmc : M10bmc) :
    RegUse → List Nat
  | .sys offset =>
      match m10bmcSysAccess info offset m10bmc with
      | .ok _ => [offset]
      | .error _ => []
  | .raw offset => [offset]

/-- `M10BMC_PKVL_POLL_CTRL` -/
def pkvlPollCtrl : Nat := 0x80

/-- What `log_error_regs` may read, and `rsu_status` with it. -/
def logErrorRegs (info : BoardInfo) : List RegUse :=
  [.sys info.authResult, .sys info.rsuStatus, .sys 0x820, .sys 0x824,
    .sys 0x828]

/-- What the worker may use in its next step. -/
def SecUpload.workerUses (info : BoardInfo) (state : SecUpload) :
    List RegUse :=
  match state.pc with
  | .enter =>
      -- `m10bmc_sec_cleanup` begins with `rsu_cancel`
      if state.upload.pc = .cleanup then [.sys info.doorbell] else []
  | .prepCheckIdle => .sys info.doorbell :: logErrorRegs info
  | .prepUpdateInit => .sys info.doorbell :: logErrorRegs info
  | .prepReady => .sys info.doorbell :: logErrorRegs info
  | .prepCancel => [.sys info.doorbell]
  | .cancel => [.sys info.doorbell]
  | .writeDoorbell _ => .sys info.doorbell :: logErrorRegs info
  | .pollSendData =>
      .sys info.doorbell :: .raw info.doorbell :: logErrorRegs info
  | .pollWait => .sys info.doorbell :: logErrorRegs info
  | _ => []

/-- What a thread which loads the retimer firmware may use. -/
def RetimerPc.uses (info : BoardInfo) : RetimerPc → List RegUse
  | .checkIdle => .sys info.doorbell :: logErrorRegs info
  | .trigger => [.sys info.doorbell, .raw info.doorbell]
  | .pollLoad => [.sys info.doorbell, .sys info.rsuStatus]
  | .pollPreload => [.raw pkvlPollCtrl]
  | _ => []

/-- What an action may use. -/
def SecAction.uses (info : BoardInfo) (state : SecUpload) :
    SecAction → List RegUse
  | .worker _ => state.workerUses info
  | .sysAccess offset => [.sys offset]
  | .retimer thread _ => (state.retimers thread).uses info
  | _ => []

/-- The registers which an action accesses at most. -/
def SecAction.accesses (info : BoardInfo) (state : SecUpload)
    (action : SecAction) : List Nat :=
  (action.uses info state).flatMap (RegUse.accesses info state.m10bmc)

/-! ## The window -/

/-- A board, and whether the window of a secure update is open. -/
structure HandshakeWatch where
  sec : SecUpload
  window : Bool

/--
The window opens when `m10bmc_sec_prepare` enters `SEC_UPDATE_PREPARE`, and
closes when the update moves on to `SEC_UPDATE_PROGRAM` or to `NORMAL`.
-/
def windowAfter (state : SecUpload) (window : Bool) : SecAction → Bool
  | .worker _ =>
      match state.pc with
      | .prepSetPrepare => true
      | .pollSetProgram => false
      | .prepSetNormal _ => false
      | .cleanSetNormal => false
      | _ => window
  | _ => window

def HandshakeWatch.Step (info : BoardInfo) (watch : HandshakeWatch)
    (action : SecAction) (next : HandshakeWatch) : Prop :=
  watch.sec.Step info action next.sec ∧
    next.window = windowAfter watch.sec watch.window action

/-- The board, watched from its registration on. -/
def handshakeWatch : HandshakeWatch := ⟨secRegistered, false⟩

/-- While the window is open, nothing gets at the handshake registers. -/
structure HandshakeKept (info : BoardInfo) (watch : HandshakeWatch) :
    Prop where
  refused :
    watch.window = true → ∀ offset,
      regmapRegInRanges offset info.handshakeSysRegRanges = true →
        m10bmcSysAccess info offset watch.sec.m10bmc = .error .ebusy
  untouched :
    watch.window = true → ∀ action : SecAction,
      ∀ offset ∈ action.accesses info watch.sec,
        regmapRegInRanges offset info.handshakeSysRegRanges = false

/-- No load of the retimer firmware ends while the window is open. -/
def SparesWindow (watch : HandshakeWatch) : SecAction → Prop
  | .retimer thread _ =>
      watch.window = true → watch.sec.retimers thread ≠ .setNormal
  | _ => True

instance (watch : HandshakeWatch) :
    (action : SecAction) → Decidable (SparesWindow watch action)
  | .retimer _ _ => inferInstanceAs (Decidable (_ → _ ≠ _))
  | .write _ => isTrue trivial
  | .status _ => isTrue trivial
  | .cancel => isTrue trivial
  | .worker _ => isTrue trivial
  | .flashRead _ => isTrue trivial
  | .sysAccess _ => isTrue trivial

/-! ## The boards -/

/-- What is used past the guard is not a handshake register. -/
theorem raw_not_handshake :
    ∀ info ∈ boards,
      regmapRegInRanges info.doorbell info.handshakeSysRegRanges = false ∧
        regmapRegInRanges pkvlPollCtrl info.handshakeSysRegRanges =
          false := by
  decide

/-- A register in the handshake ranges. -/
theorem telemetry_handshake :
    ∀ info ∈ boards, info.handshakeSysRegRanges ≠ [] →
      regmapRegInRanges 0x100 info.handshakeSysRegRanges = true := by
  decide

/-! ## The guard of the handshake registers -/

theorem sysAccess_of_handshake {info : BoardInfo} {offset : Nat}
    (inRanges : regmapRegInRanges offset info.handshakeSysRegRanges = true)
    (m10bmc : M10bmc) :
    m10bmcSysAccess info offset m10bmc =
      if m10bmcHandshakeRegUnavailable m10bmc then .error .ebusy
      else .ok (info.base + offset) := by
  have some : info.handshakeSysRegRanges ≠ [] := by
    intro none
    rw [none] at inRanges
    cases inRanges
  have guarded : m10bmcRegAlwaysAvailable info offset = false := by
    rw [m10bmcRegAlwaysAvailable, if_neg some, inRanges]
    rfl
  rw [m10bmcSysAccess, guarded, if_neg (by decide)]

/-- The firmware state keeps others away while the window is open. -/
def HandshakeInvariant (watch : HandshakeWatch) : Prop :=
  watch.window = true →
    m10bmcHandshakeRegUnavailable watch.sec.m10bmc = true

/-- The guard stops the accesses which go through it. -/
theorem sysUse_not_handshake {info : BoardInfo} {m10bmc : M10bmc}
    (unavailable : m10bmcHandshakeRegUnavailable m10bmc = true)
    {used offset : Nat}
    (accessed : offset ∈ (RegUse.sys used).accesses info m10bmc) :
    regmapRegInRanges offset info.handshakeSysRegRanges = false := by
  rw [← Bool.not_eq_true]
  intro inRanges
  have same : offset = used := by
    cases access : m10bmcSysAccess info used m10bmc with
    | error ret =>
        simp only [RegUse.accesses, access] at accessed
        exact absurd accessed List.not_mem_nil
    | ok address =>
        simp only [RegUse.accesses, access] at accessed
        exact List.mem_singleton.mp accessed
  subst same
  rw [RegUse.accesses, sysAccess_of_handshake inRanges,
    if_pos unavailable] at accessed
  exact absurd accessed List.not_mem_nil

/-- Each use goes through the guard, or is of a register outside of it. -/
def RegUse.Guarded (info : BoardInfo) : RegUse → Prop
  | .sys _ => True
  | .raw offset =>
      regmapRegInRanges offset info.handshakeSysRegRanges = false

theorem uses_guarded {info : BoardInfo} (isBoard : info ∈ boards)
    (state : SecUpload) (action : SecAction) :
    ∀ use ∈ action.uses info state, use.Guarded info := by
  obtain ⟨doorbell, poll⟩ := raw_not_handshake info isBoard
  cases action with
  | write | status | cancel | flashRead =>
      intro use used
      exact absurd used List.not_mem_nil
  | sysAccess offset =>
      intro use used
      rw [List.mem_singleton.mp used]
      trivial
  | worker answer =>
      show ∀ use ∈ state.workerUses info, _
      unfold SecUpload.workerUses
      split <;>
        simp [RegUse.Guarded, logErrorRegs, doorbell]
  | retimer thread answer =>
      show ∀ use ∈ (state.retimers thread).uses info, _
      cases state.retimers thread <;>
        simp [RetimerPc.uses, RegUse.Guarded, logErrorRegs, doorbell, poll]

theorem HandshakeInvariant.kept {info : BoardInfo} (isBoard : info ∈ boards)
    {watch : HandshakeWatch} (invariant : HandshakeInvariant watch) :
    HandshakeKept info watch where
  refused := by
    intro window offset inRanges
    rw [sysAccess_of_handshake inRanges, if_pos (invariant window)]
  untouched := by
    intro window action offset accessed
    obtain ⟨use, used, accessed⟩ := List.mem_flatMap.mp accessed
    have guarded := uses_guarded isBoard watch.sec action use used
    cases use with
    | sys used => exact sysUse_not_handshake (invariant window) accessed
    | raw used =>
        rw [List.mem_singleton.mp accessed]
        exact guarded

/-! ## Steps -/

/-- The firmware state after a step of the worker. -/
def fwStateAfter (state : SecUpload) : M10bmcFwState :=
  match state.pc with
  | .prepSetPrepare => .secUpdatePrepare
  | .prepSetWrite => .secUpdateWrite
  | .prepSetNormal _ => .normal
  | .pollSetProgram => .secUpdateProgram
  | .cleanSetNormal => .normal
  | _ => state.m10bmc.bmcfwState

theorem finish_bmcfwState {state next : SecUpload} {ret : FwUploadErr}
    {written : Nat} (step : state.finish ret written = some next) :
    next.m10bmc.bmcfwState = state.m10bmc.bmcfwState := by
  obtain ⟨upload, -, rfl⟩ := Option.map_eq_some_iff.mp step
  rfl

theorem go_bmcfwState {state next : SecUpload} {pc : SecPc}
    (step : state.go pc = some next) :
    next.m10bmc.bmcfwState = state.m10bmc.bmcfwState := by
  cases step
  rfl

theorem set_bmcfwState {state next : SecUpload} {m10bmc : M10bmc}
    {pc : SecPc} (step : state.set m10bmc pc = some next) :
    next.m10bmc.bmcfwState = m10bmc.bmcfwState := by
  cases step
  rfl

theorem enterStep_bmcfwState {info : BoardInfo} {state next : SecUpload}
    (step : state.enterStep info = some next) :
    next.m10bmc.bmcfwState = state.m10bmc.bmcfwState := by
  cases isPc : state.upload.pc with
  | prepare =>
      simp only [SecUpload.enterStep, isPc] at step
      split_ifs at step
      · unfold SecUpload.setFinish at step
        have same := finish_bmcfwState step
        exact same
      · have same := set_bmcfwState step
        exact same
  | write | pollComplete | cleanup =>
      simp only [SecUpload.enterStep, isPc] at step
      exact go_bmcfwState step
  | idle | setError | startTransfer | loop | advance | startProgram
  | putDevice | vfree | clearData | complete | eventfdPut | clearFinished =>
      simp only [SecUpload.enterStep, isPc] at step
      exact finish_bmcfwState step

theorem secWorkerStep_bmcfwState {info : BoardInfo}
    (handshake : info.handshakeSysRegRanges ≠ []) {answer : SecAnswer}
    {state next : SecUpload}
    (step : state.secWorkerStep info answer = some next) :
    next.m10bmc.bmcfwState = fwStateAfter state := by
  unfold fwStateAfter
  cases isPc : state.pc with
  | enter =>
      simp only [SecUpload.secWorkerStep, isPc] at step
      exact enterStep_bmcfwState step
  | prepLock =>
      have same := lockFlash_bmcfwState info state
      rcases locks : state.lockFlash info with ⟨_ | ret, m10bmc⟩
      · rw [locks] at same
        simp only [SecUpload.secWorkerStep, isPc, locks] at step
        exact (set_bmcfwState step).trans same
      · simp only [SecUpload.secWorkerStep, isPc, locks] at step
        exact finish_bmcfwState step
  | prepCheckIdle | prepUpdateInit | prepReady | prepCheckCancel
  | prepCancel =>
      simp only [SecUpload.secWorkerStep, isPc] at step
      exact go_bmcfwState step
  | prepSetPrepare | prepSetNormal | pollSetProgram | cleanSetNormal =>
      simp only [SecUpload.secWorkerStep, isPc] at step
      rw [set_bmcfwState step, fwStateSet_bmcfwState handshake]
  | prepSetWrite =>
      simp only [SecUpload.secWorkerStep, isPc] at step
      unfold SecUpload.setFinish at step
      rw [finish_bmcfwState step, fwStateSet_bmcfwState handshake]
  | prepUnlock | cleanUnlock =>
      simp only [SecUpload.secWorkerStep, isPc] at step
      unfold SecUpload.setFinish at step
      rw [finish_bmcfwState step]
      exact unlockFlash_bmcfwState info state
  | cancel | pollWait =>
      simp only [SecUpload.secWorkerStep, isPc] at step
      exact finish_bmcfwState step
  | writeDoorbell =>
      simp only [SecUpload.secWorkerStep, isPc] at step
      split at step
      · exact finish_bmcfwState step
      · split_ifs at step
        · exact finish_bmcfwState step
        · exact go_bmcfwState step
  | writeBlock =>
      simp only [SecUpload.secWorkerStep, isPc] at step
      split at step
      · exact finish_bmcfwState step
      · exact finish_bmcfwState step
  | pollSendData =>
      simp only [SecUpload.secWorkerStep, isPc] at step
      split_ifs at step
      · exact finish_bmcfwState step
      · exact go_bmcfwState step

theorem handshakeRegUnavailable_congr {first second : M10bmc}
    (same : first.bmcfwState = second.bmcfwState) :
    m10bmcHandshakeRegUnavailable first =
      m10bmcHandshakeRegUnavailable second := by
  unfold m10bmcHandshakeRegUnavailable
  rw [same]

/-- The worker keeps others away while its window is open. -/
theorem HandshakeInvariant.workerStep {info : BoardInfo}
    (handshake : info.handshakeSysRegRanges ≠ []) {answer : SecAnswer}
    {source target : HandshakeWatch} (invariant : HandshakeInvariant source)
    (step : source.sec.secWorkerStep info answer = some target.sec)
    (window :
      target.window = windowAfter source.sec source.window (.worker answer)) :
    HandshakeInvariant target := by
  have state := secWorkerStep_bmcfwState handshake step
  intro opened
  rw [window] at opened
  unfold windowAfter at opened
  unfold fwStateAfter at state
  cases isPc : source.sec.pc with
  | prepSetPrepare | prepSetWrite =>
      simp only [isPc] at state
      simp [m10bmcHandshakeRegUnavailable, state]
  | prepSetNormal | pollSetProgram | cleanSetNormal =>
      simp only [isPc] at opened
      exact absurd opened (by decide)
  | enter | prepLock | prepCheckIdle | prepUpdateInit | prepReady
  | prepCheckCancel | prepCancel | prepUnlock | cancel | writeDoorbell
  | writeBlock | pollSendData | pollWait | cleanUnlock =>
      simp only [isPc] at opened state
      rw [handshakeRegUnavailable_congr state]
      exact invariant opened

/-- Only the end of a load of the retimer firmware lets others in. -/
theorem HandshakeInvariant.step {info : BoardInfo}
    (handshake : info.handshakeSysRegRanges ≠ [])
    {source target : HandshakeWatch} {action : SecAction}
    (invariant : HandshakeInvariant source)
    (spares : SparesWindow source action)
    (step : source.Step info action target) :
    HandshakeInvariant target := by
  obtain ⟨moves, window⟩ := step
  cases action with
  | write request =>
      have effect : source.sec.ioctlWrite request = target.sec := moves
      intro opened
      rw [← effect]
      exact invariant (window.symm.trans opened)
  | status | flashRead | sysAccess =>
      have effect : source.sec = target.sec := moves
      intro opened
      rw [← effect]
      exact invariant (window.symm.trans opened)
  | cancel =>
      have effect : source.sec.ioctlCancel.2 = target.sec := moves
      intro opened
      rw [← effect]
      have closed := invariant (window.symm.trans opened)
      rcases source.sec.ioctlCancel_cases with ⟨-, same⟩ | ⟨-, same⟩
      · rw [same]
        exact closed
      · rw [same]
        exact closed
  | worker answer => exact invariant.workerStep handshake moves window
  | retimer thread answer =>
      intro opened
      have opened := window.symm.trans opened
      obtain ⟨m10bmc, pc, effect, changes⟩ :=
        SecUpload.retimerStep_cases moves
      rw [effect]
      rcases changes with rfl | rfl | ⟨atEnd, -⟩
      · exact invariant opened
      · show m10bmcHandshakeRegUnavailable (m10bmcFwStateSet _ _ _) = true
        unfold m10bmcHandshakeRegUnavailable
        rw [fwStateSet_bmcfwState handshake]
        rfl
      · exact absurd atEnd (spares opened)

/-- The end of a load in the middle of the window lets others in. -/
theorem HandshakeInvariant.lost {info : BoardInfo}
    (isBoard : info ∈ boards) (handshake : info.handshakeSysRegRanges ≠ [])
    {source target : HandshakeWatch} {action : SecAction}
    (opens : ¬ SparesWindow source action)
    (step : source.Step info action target) :
    ¬ HandshakeKept info target := by
  obtain ⟨moves, window⟩ := step
  cases action with
  | write | status | cancel | worker | flashRead | sysAccess =>
      exact absurd trivial opens
  | retimer thread answer =>
      simp only [SparesWindow, ne_eq, Classical.not_imp, not_not] at opens
      obtain ⟨isOpen, atEnd⟩ := opens
      intro kept
      have inRanges := telemetry_handshake info isBoard handshake
      have refused := kept.refused (window.trans isOpen) 0x100 inRanges
      have normal : target.sec.m10bmc.bmcfwState = .normal := by
        have step : source.sec.retimerStep info answer thread =
          some target.sec := moves
        unfold SecUpload.retimerStep at step
        dsimp only at step
        by_cases missing : (!info.retimerFw) = true
        · rw [if_pos missing] at step
          cases step
        · rw [if_neg missing] at step
          simp only [atEnd, Option.some.injEq] at step
          rw [← step]
          exact fwStateSet_bmcfwState handshake _ _
      rw [sysAccess_of_handshake inRanges, m10bmcHandshakeRegUnavailable,
        normal, if_neg (by decide)] at refused
      cases refused

/-! ## Runs -/

/--
On a board with handshake registers, along every interleaving of an update,
loads of the retimer firmware and accesses of other drivers, whatever the
board answers: nothing gets at these registers while the window is open, if
and only if no load of the retimer firmware ends while it is open.
-/
theorem handshake_kept_iff (info : BoardInfo) (isBoard : info ∈ boards)
    (handshake : info.handshakeSysRegRanges ≠ [])
    (path : List (SecAction × HandshakeWatch))
    (isPath : IsPath (HandshakeWatch.Step info) handshakeWatch path) :
    Throughout (HandshakeKept info) handshakeWatch path ↔
      StepsMeet SparesWindow handshakeWatch path := by
  refine throughout_iff_stepsMeet_of_strong
    (fun _ => HandshakeInvariant.kept isBoard) ?kept ?lost isPath ?initial
  case kept =>
    intro source action target invariant spares step
    exact invariant.step handshake spares step
  case lost =>
    intro source action target _ opens step
    exact HandshakeInvariant.lost isBoard handshake opens step
  case initial =>
    intro opened
    cases opened

/-- A board which has no retimer firmware to load keeps the window. -/
theorem handshake_kept_of_no_retimer (info : BoardInfo)
    (isBoard : info ∈ boards)
    (handshake : info.handshakeSysRegRanges ≠ [])
    (noRetimer : info.retimerFw = false)
    (path : List (SecAction × HandshakeWatch))
    (isPath : IsPath (HandshakeWatch.Step info) handshakeWatch path) :
    Throughout (HandshakeKept info) handshakeWatch path := by
  have throughout : Throughout HandshakeInvariant handshakeWatch path := by
    refine throughout_of_invariant ?_ isPath ?_
    · intro source action target invariant step
      have spares : SparesWindow source action := by
        cases action with
        | write | status | cancel | worker | flashRead | sysAccess =>
            trivial
        | retimer thread answer =>
            have moves : source.sec.retimerStep info answer thread =
              some target.sec := step.1
            rw [SecUpload.retimerStep, noRetimer] at moves
            cases moves
      exact invariant.step handshake spares step
    · intro opened
      cases opened
  exact throughout.mono fun _ => HandshakeInvariant.kept isBoard

/-- The watch after an action. -/
def HandshakeWatch.apply (info : BoardInfo) (watch : HandshakeWatch)
    (action : SecAction) : HandshakeWatch where
  sec := watch.sec.apply info action
  window := windowAfter watch.sec watch.window action

theorem HandshakeWatch.isPath_applied {info : BoardInfo}
    {actions : List SecAction}
    (enabled : enabledAlong (HandshakeWatch.apply info)
      (fun watch => watch.sec.enabled info) handshakeWatch actions = true) :
    IsPath (HandshakeWatch.Step info) handshakeWatch
      (pathOf (HandshakeWatch.apply info) handshakeWatch actions) := by
  apply isPath_of_enabledAlong ?_ enabled
  intro watch action enabled
  exact ⟨SecUpload.step_apply enabled, rfl⟩

/-- A load of the retimer firmware, which finds that the board is busy. -/
def busyRetimerLoad : List SecAction :=
  [.retimer 0 (answersWith readyDoorbell),
    .retimer 0 (answersWith readyDoorbell),
    .retimer 0 (answersWith readyDoorbell)]

/-- The load is refused, and opens the handshake registers all the same. -/
theorem retimer_load_opens_window :
    ∃ path,
      IsPath (HandshakeWatch.Step m10bmcSpiN3000) handshakeWatch path ∧
        ¬ Throughout (HandshakeKept m10bmcSpiN3000) handshakeWatch path := by
  refine ⟨pathOf (HandshakeWatch.apply m10bmcSpiN3000) handshakeWatch
    (.write oneByteRequest :: wholeUpload.take 7 ++ busyRetimerLoad),
    ?_, ?_⟩
  · apply HandshakeWatch.isPath_applied
    decide
  · intro throughout
    have refused := throughout.final.refused (by decide) 0x100
      (by decide)
    exact absurd refused (by decide)

/-- The load ends before the update enters its window. -/
def retimerLoadBefore : List SecAction :=
  busyRetimerLoad ++ .write oneByteRequest :: wholeUpload.take 9

theorem handshake_kept_after_retimer_load :
    HandshakeKept m10bmcSpiN3000
      (retimerLoadBefore.foldl (HandshakeWatch.apply m10bmcSpiN3000)
        handshakeWatch) := by
  refine Throughout.final ((handshake_kept_iff m10bmcSpiN3000 (by decide)
    (by decide) (pathOf (HandshakeWatch.apply m10bmcSpiN3000)
      handshakeWatch retimerLoadBefore)
    (HandshakeWatch.isPath_applied (by decide))).mpr ?_)
  apply stepsMeet_of_enabledAlong
  decide

end LinuxDfl.Bmc

import LinuxDfl.Fpga.Bridge
import Mathlib.Data.List.Basic

/-!
# Configuration of a SoC FPGA

The driver takes the device from one state to the next and waits for each.  It
polls the state register, is told by an interrupt when the configuration is
done, and lets the clock run a few cycles more.
-/

namespace LinuxDfl.Fpga.Socfpga

open LinuxDfl.Kernel

/-! ## Registers -/

/-- The registers, by their offsets. -/
inductive Reg where
  | stat
  | ctl
  | dclkcnt
  | dclkstat
  | gpioInten
  | gpioIntmsk
  | gpioInttypeLevel
  | gpioIntPol
  | gpioIntstat
  | gpioPortaEoi
  | gpioExtPorta
  deriving DecidableEq, Repr

abbrev Word := BitVec 32

def statReset : Word := 0x1

def statCfg : Word := 0x2

def statInit : Word := 0x3

def statUserMode : Word := 0x4

def statStateMask : Word := 0x7

def statPowerOff : Word := 0x0

def statMselMask : Word := 0x000000f8

def statMselShift : Nat := 3

def ctlEn : Word := 0x00000001

def ctlNce : Word := 0x00000002

def ctlNcfgpull : Word := 0x00000004

def ctlCdratioMask : Word := 0x000000c0

def ctlAxicfgen : Word := 0x00000100

def ctlCfgwdthMask : Word := 0x00000200

def dclkstatDcntdoneDone : Word := 0x1

def monNstatus : Word := 0x0001

def monConfDone : Word := 0x0002

def monFpgaPowerOn : Word := 0x0800

def monStatusMask : Word := 0x0fff

def cfgwdth16 : Word := 0x00000000

def cfgwdth32 : Word := 0x00000200

def cdratioX1 : Word := 0x00000000

def cdratioX2 : Word := 0x00000040

def cdratioX4 : Word := 0x00000080

def cdratioX8 : Word := 0x000000c0

/-- `cfgmgr_modes`, as far as it is valid. -/
def cfgmgrModes : Nat → Option Word
  | 0x0 => some (cfgwdth16 ||| cdratioX1)
  | 0x1 => some (cfgwdth16 ||| cdratioX2)
  | 0x2 => some (cfgwdth16 ||| cdratioX4)
  | 0x4 => some (cfgwdth16 ||| cdratioX1)
  | 0x5 => some (cfgwdth16 ||| cdratioX2)
  | 0x6 => some (cfgwdth16 ||| cdratioX4)
  | 0x8 => some (cfgwdth32 ||| cdratioX1)
  | 0x9 => some (cfgwdth32 ||| cdratioX4)
  | 0xa => some (cfgwdth32 ||| cdratioX8)
  | 0xc => some (cfgwdth32 ||| cdratioX1)
  | 0xd => some (cfgwdth32 ||| cdratioX4)
  | 0xe => some (cfgwdth32 ||| cdratioX8)
  | _ => none

/-! ## Events -/

inductive Access where
  | read (reg : Reg) (value : Word)
  | write (reg : Reg) (value : Word)
  deriving DecidableEq, Repr

inductive Event where
  /-- The driver, in the process which calls it. -/
  | process (access : Access)
  /-- The interrupt handler. -/
  | handler (access : Access)
  /-- The wait for the configuration has ended so. -/
  | waited (timeout : Int)
  /-- The device was powered on, and in this state. -/
  | found (state : Word)
  deriving DecidableEq, Repr

abbrev Trace := List Event

/-- The device and what else there is around the driver. -/
structure World where
  /-- What a read of the register gives after these events. -/
  value : Trace → Reg → Word
  /-- How often the handler runs before the driver goes on. -/
  interrupts : Trace → Nat
  /-- Whether a signal ends the wait. -/
  signalled : Trace → Bool
  /-- The jiffies which are left when the configuration is done. -/
  jiffies : Trace → Nat

/-- `struct socfpga_fpga_priv`, and what has happened in this call. -/
structure Priv where
  trace : Trace
  /-- `status_complete.done` -/
  done : Nat
  deriving DecidableEq, Repr

/-- One event more. -/
def Priv.push (priv : Priv) (event : Event) : Priv :=
  { priv with trace := priv.trace ++ [event] }

variable (world : World)

/-! ## The interrupt handler -/

/-- `socfpga_fpga_raw_readl` -/
def rawReadl (reg : Reg) (priv : Priv) : Word × Priv :=
  let value := world.value priv.trace reg
  (value, priv.push (.handler (.read reg value)))

/-- `socfpga_fpga_raw_writel` -/
def rawWritel (reg : Reg) (value : Word) (priv : Priv) : Priv :=
  priv.push (.handler (.write reg value))

/-- The configuration is done, as the monitor has it. -/
def isDone (st : Word) : Bool :=
  st &&& monConfDone != 0 && st &&& monNstatus != 0

/-- `socfpga_fpga_isr` -/
def socfpgaFpgaIsr (priv : Priv) : Priv :=
  let irqs := rawReadl world .gpioIntstat priv
  let priv := rawWritel .gpioPortaEoi irqs.1 irqs.2
  let st := rawReadl world .gpioExtPorta priv
  if isDone st.1 then
    let priv := rawWritel .gpioInten 0 st.2
    { priv with done := priv.done + 1 }
  else st.2

/-- The handler runs this often. -/
def interrupted : Nat → Priv → Priv
  | 0, priv => priv
  | count + 1, priv => interrupted count (socfpgaFpgaIsr world priv)

/-- The handler runs before the driver goes on. -/
def settle (priv : Priv) : Priv :=
  interrupted world (world.interrupts priv.trace) priv

/-! ## The driver -/

/-- `socfpga_fpga_readl` -/
def readl (reg : Reg) (priv : Priv) : Word × Priv :=
  let priv := settle world priv
  let value := world.value priv.trace reg
  (value, priv.push (.process (.read reg value)))

/-- `socfpga_fpga_writel` -/
def writel (reg : Reg) (value : Word) (priv : Priv) : Priv :=
  (settle world priv).push (.process (.write reg value))

/-- `socfpga_fpga_set_bitsl` -/
def setBitsl (reg : Reg) (bits : Word) (priv : Priv) : Priv :=
  let val := readl world reg priv
  writel world reg (val.1 ||| bits) val.2

/-- `socfpga_fpga_clr_bitsl` -/
def clrBitsl (reg : Reg) (bits : Word) (priv : Priv) : Priv :=
  let val := readl world reg priv
  writel world reg (val.1 &&& ~~~bits) val.2

/-- `socfpga_fpga_mon_status_get` -/
def monStatusGet (priv : Priv) : Word × Priv :=
  let val := readl world .gpioExtPorta priv
  (val.1 &&& monStatusMask, val.2)

/-- `socfpga_fpga_state_get` -/
def stateGet (priv : Priv) : Word × Priv :=
  let status := monStatusGet world priv
  if status.1 &&& monFpgaPowerOn = 0 then (statPowerOff, status.2)
  else
    let stat := readl world .stat status.2
    let state := stat.1 &&& statStateMask
    (state, stat.2.push (.found state))

/-- `socfpga_fpga_clear_done_status` -/
def clearDoneStatus (priv : Priv) : Priv :=
  writel world .dclkstat dclkstatDcntdoneDone priv

/-- The loop of `socfpga_fpga_dclk_set_and_wait_clear`. -/
def dclkLoop : Nat → Priv → Option Errno × Priv
  | 0, priv => (some .etimedout, priv)
  | left + 1, priv =>
      let done := readl world .dclkstat priv
      if done.1 = dclkstatDcntdoneDone then (none, clearDoneStatus world done.2)
      else dclkLoop left done.2

/-- `socfpga_fpga_dclk_set_and_wait_clear`, before its loop. -/
def dclkSet (count : Word) (priv : Priv) : Priv :=
  let done := readl world .dclkstat priv
  let priv := if done.1 ≠ 0 then clearDoneStatus world done.2 else done.2
  writel world .dclkcnt count priv

/-- `do … while (timeout--)`, where `timeout` is 2. -/
def polls : Nat := 3

/-- `socfpga_fpga_dclk_set_and_wait_clear` -/
def dclkSetAndWaitClear (count : Word) (priv : Priv) : Option Errno × Priv :=
  dclkLoop world polls (dclkSet world count priv)

/-- The loop of `socfpga_fpga_wait_for_state`. -/
def stateLoop (state : Word) : Nat → Priv → Option Errno × Priv
  | 0, priv => (some .etimedout, priv)
  | left + 1, priv =>
      let found := stateGet world priv
      if found.1 &&& state ≠ 0 then (none, found.2)
      else stateLoop state left found.2

/-- `socfpga_fpga_wait_for_state` -/
def waitForState (state : Word) (priv : Priv) : Option Errno × Priv :=
  stateLoop world state polls priv

/-- `socfpga_fpga_enable_irqs` -/
def enableIrqs (irqs : Word) (priv : Priv) : Priv :=
  let priv := writel world .gpioInttypeLevel 0 priv
  let priv := writel world .gpioIntPol irqs priv
  let priv := writel world .gpioPortaEoi irqs priv
  let priv := writel world .gpioIntmsk 0 priv
  writel world .gpioInten irqs priv

/-- `socfpga_fpga_disable_irqs` -/
def disableIrqs (priv : Priv) : Priv :=
  writel world .gpioInten 0 priv

/-- `init_completion` -/
def initCompletion (priv : Priv) : Priv := { priv with done := 0 }

/-- `-ERESTARTSYS` -/
def restartSys : Int := -512

/-- `wait_for_completion_interruptible_timeout` -/
def waitForCompletion (priv : Priv) : Int × Priv :=
  let priv := settle world priv
  let timeout : Int :=
    if priv.done ≠ 0 then max 1 (world.jiffies priv.trace)
    else if world.signalled priv.trace then restartSys
    else 0
  (timeout, { priv.push (.waited timeout) with done := priv.done - 1 })

/-- `socfpga_fpga_wait_for_config_done`, up to the end of its wait. -/
def configWait (priv : Priv) : Int × Priv :=
  waitForCompletion world
    (enableIrqs world monConfDone (initCompletion (disableIrqs world priv)))

/-- `socfpga_fpga_wait_for_config_done` -/
def waitForConfigDone (priv : Priv) : Option Errno × Priv :=
  let timeout := configWait world priv
  (if timeout.1 = 0 then some .etimedout else none, disableIrqs world timeout.2)

/-- `socfpga_fpga_cfg_mode_get` -/
def cfgModeGet (priv : Priv) : Option Word × Priv :=
  let msel := readl world .stat priv
  (cfgmgrModes ((msel.1 &&& statMselMask) >>> statMselShift).toNat, msel.2)

/-- `socfpga_fpga_cfg_mode_set` -/
def cfgModeSet (priv : Priv) : Option Errno × Priv :=
  let mode := cfgModeGet world priv
  match mode.1 with
  | none => (some .einval, mode.2)
  | some ctrl =>
      let ctrlReg := readl world .ctl mode.2
      let value := ctrlReg.1 &&& ~~~ctlCdratioMask &&& ~~~ctlCfgwdthMask
      (none, writel world .ctl ((value ||| ctrl) &&& ~~~ctlNce) ctrlReg.2)

/-- Steps 2 and 3 of `socfpga_fpga_reset`. -/
def pullConfig (priv : Priv) : Word × Priv :=
  let ctrlReg := readl world .ctl (setBitsl world .ctl ctlEn priv)
  let value := ctrlReg.1 ||| ctlNcfgpull
  (value, writel world .ctl value ctrlReg.2)

/-- `socfpga_fpga_reset` -/
def socfpgaFpgaReset (priv : Priv) : Option Errno × Priv :=
  andThen (cfgModeSet world priv) fun priv =>
    let ctrlReg := pullConfig world priv
    let status := waitForState world statReset ctrlReg.2
    let priv := writel world .ctl (ctrlReg.1 &&& ~~~ctlNcfgpull) status.2
    (if status.1 = none then none else some .etimedout, priv)

/-- `socfpga_fpga_ops_configure_init` -/
def configureInit (info : FpgaImageInfo) (priv : Priv) : Option Errno × Priv :=
  if info.partialReconfig then (some .einval, priv)
  else
    andThen (socfpgaFpgaReset world priv) fun priv =>
      andThen (waitForState world statCfg priv) fun priv =>
        let priv := writel world .gpioPortaEoi monNstatus priv
        (none, setBitsl world .ctl ctlAxicfgen priv)

/-- `socfpga_fpga_ops_configure_complete` -/
def configureComplete (priv : Priv) : Option Errno × Priv :=
  andThen (waitForConfigDone world priv) fun priv =>
    let priv := clrBitsl world .ctl ctlAxicfgen priv
    andThen (dclkSetAndWaitClear world 4 priv) fun priv =>
      andThen (waitForState world statUserMode priv) fun priv =>
        (none, clrBitsl world .ctl ctlEn priv)

/-! ## What is to hold -/

/-- The state of an event which observes one. -/
def Event.state? : Event → Option Word
  | .found state => some state
  | _ => none

/-- The states which were observed, in order. -/
def states (trace : Trace) : List Word := trace.filterMap Event.state?

/-- The handler has seen that the configuration is done. -/
def SawDone (trace : Trace) : Prop :=
  ∃ st, isDone st = true ∧ .handler (.read .gpioExtPorta st) ∈ trace

/-- The events of a configuration which is completed. -/
def completion (st : Word) : Trace :=
  [.handler (.read .gpioExtPorta st), .process (.write .dclkcnt 4),
    .process (.read .dclkstat dclkstatDcntdoneDone), .found statUserMode]

/-- A call begins. -/
def fresh (done : Nat) : Priv := { trace := [], done := done }

/-- What is reported to have succeeded has been observed to. -/
structure Genuine (info : FpgaImageInfo) (done : Nat) : Prop where
  init : (configureInit world info (fresh done)).1 = none →
    [statReset, statCfg].Sublist
      (states (configureInit world info (fresh done)).2.trace)
  complete : (configureComplete world (fresh done)).1 = none →
    ∃ st, isDone st = true ∧
      (completion st).Sublist (configureComplete world (fresh done)).2.trace

/-! ## When it holds -/

/--
The polls for a state: those which miss it, and the one which ends the wait.
-/
inductive Polls (state : Word) :
    Nat → Priv → List Word → Word → Priv → Prop where
  | hit {left : Nat} {priv : Priv}
      (found : (stateGet world priv).1 &&& state ≠ 0) :
      Polls state (left + 1) priv [] (stateGet world priv).1
        (stateGet world priv).2
  | miss {left : Nat} {priv last : Priv} {misses : List Word} {hit : Word}
      (other : (stateGet world priv).1 &&& state = 0)
      (rest : Polls state left (stateGet world priv).2 misses hit last) :
      Polls state (left + 1) priv ((stateGet world priv).1 :: misses) hit last

/--
Where both states have been waited for, the second wait has been ended by the
very state, and the first one too, or the second has seen that state as well.
-/
def InitExact (info : FpgaImageInfo) (priv : Priv) : Prop :=
  info.partialReconfig = false →
  ∀ begun, cfgModeSet world priv = (none, begun) →
  ∀ misses reset held,
    Polls world statReset polls (pullConfig world begun).2 misses reset held →
  ∀ others cfg last,
    Polls world statCfg polls
      (writel world .ctl ((pullConfig world begun).1 &&& ~~~ctlNcfgpull) held)
      others cfg last →
    cfg = statCfg ∧ (reset = statReset ∨ statReset ∈ others)

/--
A wait which is ended by a signal is for a configuration that the handler sees
done outside of it, and the wait for the user mode is ended by that very state.
-/
def CompleteExact (priv : Priv) : Prop :=
  (configWait world priv).1 ≠ 0 →
  let counted :=
    dclkSet world 4 (clrBitsl world .ctl ctlAxicfgen
      (disableIrqs world (configWait world priv).2))
  ∀ ticked, dclkLoop world polls counted = (none, ticked) →
  ∀ misses mode last,
    Polls world statUserMode polls ticked misses mode last →
    mode = statUserMode ∧
      ((configWait world priv).1 < 0 → SawDone counted.trace)

structure Exact (info : FpgaImageInfo) (done : Nat) : Prop where
  init : InitExact world info (fresh done)
  complete : CompleteExact world (fresh done)

variable {world}

/-! ## What is added to the trace -/

/-- Only such events have come after those before. -/
def Adds (allowed : Event → Prop) (before after : Priv) : Prop :=
  ∃ more, after.trace = before.trace ++ more ∧ ∀ event ∈ more, allowed event

section Adds

variable {allowed : Event → Prop}

theorem Adds.refl (priv : Priv) : Adds allowed priv priv :=
  ⟨[], (List.append_nil _).symm, nofun⟩

theorem Adds.trans {before between after : Priv}
    (first : Adds allowed before between)
    (next : Adds allowed between after) : Adds allowed before after := by
  obtain ⟨some, traced, all⟩ := first
  obtain ⟨more, traced', all'⟩ := next
  refine ⟨some ++ more, ?_, ?_⟩
  · rw [traced', traced, List.append_assoc]
  · intro event member
    rcases List.mem_append.mp member with isFirst | isNext
    · exact all event isFirst
    · exact all' event isNext

theorem Adds.push {before after : Priv} (first : Adds allowed before after)
    {event : Event} (isAllowed : allowed event) :
    Adds allowed before (after.push event) := by
  refine first.trans ⟨[event], rfl, ?_⟩
  intro other member
  rw [List.mem_singleton.mp member]
  exact isAllowed

variable (handlers : ∀ access, allowed (.handler access))

include handlers

theorem isr_adds (priv : Priv) :
    Adds allowed priv (socfpgaFpgaIsr world priv) := by
  have common : Adds allowed priv
      (rawReadl world .gpioExtPorta (rawWritel .gpioPortaEoi
        (rawReadl world .gpioIntstat priv).1
        (rawReadl world .gpioIntstat priv).2)).2 :=
    (((Adds.refl priv).push (handlers _)).push (handlers _)).push (handlers _)
  unfold socfpgaFpgaIsr
  dsimp only
  split
  · exact common.push (handlers _)
  · exact common

theorem settle_adds (priv : Priv) : Adds allowed priv (settle world priv) := by
  unfold settle
  generalize world.interrupts priv.trace = count
  induction count generalizing priv with
  | zero => exact Adds.refl priv
  | succ count ih => exact (isr_adds handlers priv).trans (ih _)

theorem readl_adds {reg : Reg}
    (reads : ∀ value, allowed (.process (.read reg value))) (priv : Priv) :
    Adds allowed priv (readl world reg priv).2 :=
  (settle_adds handlers priv).push (reads _)

theorem writel_adds {reg : Reg} {value : Word}
    (writes : allowed (.process (.write reg value))) (priv : Priv) :
    Adds allowed priv (writel world reg value priv) :=
  (settle_adds handlers priv).push writes

variable (reads : ∀ reg value, allowed (.process (.read reg value)))

include reads

theorem setBitsl_adds {reg : Reg}
    (writes : ∀ value, allowed (.process (.write reg value))) (bits : Word)
    (priv : Priv) : Adds allowed priv (setBitsl world reg bits priv) :=
  (readl_adds handlers (reads reg) priv).trans
    (writel_adds handlers (writes _) _)

theorem clrBitsl_adds {reg : Reg}
    (writes : ∀ value, allowed (.process (.write reg value))) (bits : Word)
    (priv : Priv) : Adds allowed priv (clrBitsl world reg bits priv) :=
  (readl_adds handlers (reads reg) priv).trans
    (writel_adds handlers (writes _) _)

theorem stateGet_adds (finds : ∀ state, allowed (.found state)) (priv : Priv) :
    Adds allowed priv (stateGet world priv).2 := by
  have monitor : Adds allowed priv (monStatusGet world priv).2 :=
    readl_adds handlers (reads .gpioExtPorta) priv
  unfold stateGet
  dsimp only
  split
  · exact monitor
  · exact (monitor.trans (readl_adds handlers (reads .stat) _)).push (finds _)

end Adds

/-! ## The states which are observed -/

/-- The event observes no state. -/
def NoState (event : Event) : Prop := event.state? = none

theorem states_of_adds {before after : Priv}
    (adds : Adds NoState before after) :
    states after.trace = states before.trace := by
  obtain ⟨more, traced, all⟩ := adds
  have nothing : states more = [] := List.filterMap_eq_nil_iff.mpr all
  rw [traced]
  unfold states at nothing ⊢
  rw [List.filterMap_append, nothing, List.append_nil]

theorem noState_handler (access : Access) : NoState (.handler access) := rfl

theorem noState_read (reg : Reg) (value : Word) :
    NoState (.process (.read reg value)) := rfl

theorem states_readl (reg : Reg) (priv : Priv) :
    states (readl world reg priv).2.trace = states priv.trace :=
  states_of_adds (readl_adds noState_handler (fun _ => rfl) priv)

theorem states_writel (reg : Reg) (value : Word) (priv : Priv) :
    states (writel world reg value priv).trace = states priv.trace :=
  states_of_adds (writel_adds noState_handler rfl priv)

theorem states_setBitsl (reg : Reg) (bits : Word) (priv : Priv) :
    states (setBitsl world reg bits priv).trace = states priv.trace :=
  states_of_adds
    (setBitsl_adds noState_handler noState_read (fun _ => rfl) bits priv)

variable (world) in
/-- A state which is found is observed, unless the power is off. -/
theorem states_stateGet (priv : Priv) :
    ∃ seen, states (stateGet world priv).2.trace = states priv.trace ++ seen ∧
      ((stateGet world priv).1 = statPowerOff ∧ seen = [] ∨
        seen = [(stateGet world priv).1]) := by
  have monitor : states (monStatusGet world priv).2.trace = states priv.trace :=
    states_readl .gpioExtPorta priv
  unfold stateGet
  dsimp only
  split
  · refine ⟨[], ?_, Or.inl ⟨rfl, rfl⟩⟩
    rw [List.append_nil]
    exact monitor
  · refine ⟨_, ?_, Or.inr rfl⟩
    have stat :
        states (readl world .stat (monStatusGet world priv).2).2.trace =
          states (monStatusGet world priv).2.trace :=
      states_readl .stat _
    rw [← monitor]
    unfold Priv.push states at *
    rw [List.filterMap_append]
    exact congrArg (· ++ _) stat

/-- What is observed in a wait which is ended by a state. -/
theorem Polls.states {state : Word} {left : Nat} {priv last : Priv}
    {misses : List Word} {hit : Word}
    (waits : Polls world state left priv misses hit last) :
    hit &&& state ≠ 0 ∧
      ∃ seen, Socfpga.states last.trace =
          Socfpga.states priv.trace ++ (seen ++ [hit]) ∧
        (∀ other ∈ seen, other &&& state = 0) ∧
          ∀ other, other ≠ 0 → (other ∈ seen ↔ other ∈ misses) := by
  induction waits with
  | @hit left priv found =>
      refine ⟨found, [], ?_, nofun, fun _ _ => Iff.rfl⟩
      obtain ⟨seen, observed, ⟨off, -⟩ | isSeen⟩ :=
        states_stateGet world priv
      · rw [off] at found
        exact absurd (BitVec.zero_and) found
      · rw [observed, isSeen]
        rfl
  | @miss left priv last misses hit other rest ih =>
      obtain ⟨isHit, later, observed, missed, same⟩ := ih
      refine ⟨isHit, ?_⟩
      obtain ⟨seen, here, cases⟩ := states_stateGet world priv
      refine ⟨seen ++ later, ?_, ?_, ?_⟩
      · rw [observed, here, List.append_assoc, List.append_assoc]
      · intro found member
        rcases List.mem_append.mp member with isHere | isLater
        · rcases cases with ⟨-, nothing⟩ | isSeen
          · rw [nothing] at isHere
            cases isHere
          · rw [isSeen, List.mem_singleton] at isHere
            rw [isHere]
            exact other
        · exact missed found isLater
      · intro found nonzero
        rw [List.mem_append, List.mem_cons, same found nonzero]
        rcases cases with ⟨off, nothing⟩ | isSeen
        · rw [nothing, off]
          constructor
          · rintro (isHere | isLater)
            · cases isHere
            · exact Or.inr isLater
          · rintro (isOff | isLater)
            · exact absurd isOff nonzero
            · exact Or.inr isLater
        · rw [isSeen, List.mem_singleton]

/-- The wait succeeds exactly if one of its polls ends it. -/
theorem stateLoop_succeeds_iff {state : Word} {left : Nat} {priv last : Priv} :
    stateLoop world state left priv = (none, last) ↔
      ∃ misses hit, Polls world state left priv misses hit last := by
  induction left generalizing priv with
  | zero =>
      constructor
      · nofun
      · rintro ⟨misses, hit, waits⟩
        cases waits
  | succ left ih =>
      unfold stateLoop
      dsimp only
      by_cases found : (stateGet world priv).1 &&& state = 0
      · rw [if_neg (not_not.mpr found), ih]
        constructor
        · rintro ⟨misses, hit, rest⟩
          exact ⟨_, hit, .miss found rest⟩
        · rintro ⟨misses, hit, waits⟩
          cases waits with
          | hit isHit => exact absurd found isHit
          | miss _ rest => exact ⟨_, hit, rest⟩
      · rw [if_pos found]
        constructor
        · intro ends
          cases ends
          exact ⟨[], _, .hit found⟩
        · rintro ⟨misses, hit, waits⟩
          cases waits with
          | hit => rfl
          | miss other _ => exact absurd other found

theorem waitForState_succeeds_iff {state : Word} {priv last : Priv} :
    waitForState world state priv = (none, last) ↔
      ∃ misses hit, Polls world state polls priv misses hit last :=
  stateLoop_succeeds_iff

/-! ## The preparation -/

theorem cons_sublist_append_iff {α : Type} {first : α} {rest front back : List α}
    (notFront : first ∉ front) :
    (first :: rest).Sublist (front ++ back) ↔ (first :: rest).Sublist back := by
  induction front with
  | nil => exact Iff.rfl
  | cons head front ih =>
      rw [List.mem_cons, not_or] at notFront
      rw [← ih notFront.2, List.cons_append, List.sublist_cons_iff]
      constructor
      · rintro (isLater | ⟨more, same, -⟩)
        · exact isLater
        · cases same
          exact absurd rfl notFront.1
      · exact Or.inl

theorem pair_sublist_concat_iff {α : Type} {first second last : α}
    {front : List α} (notFront : second ∉ front) :
    [first, second].Sublist (front ++ [last]) ↔
      last = second ∧ first ∈ front := by
  constructor
  · intro isSublist
    obtain ⟨early, late, split, inFront, inLast⟩ :=
      List.sublist_append_iff.mp isSublist
    match early, split with
    | [], short =>
        have length := inLast.length_le
        rw [List.nil_append] at short
        rw [← short] at length
        exact absurd length (by decide : ¬ 2 ≤ 1)
    | [_], same =>
        cases same
        have isLast := inLast.subset (List.mem_singleton_self _)
        exact ⟨(List.mem_singleton.mp isLast).symm,
          List.singleton_sublist.mp inFront⟩
    | head :: next :: _, same =>
        have isSecond : second = next :=
          (List.cons.inj (List.cons.inj same).2).1
        refine absurd (inFront.subset ?_) notFront
        rw [isSecond]
        exact List.mem_cons_of_mem _ List.mem_cons_self
  · rintro ⟨isLast, isFirst⟩
    rw [isLast]
    exact (List.singleton_sublist.mpr isFirst).append (List.Sublist.refl _)

/-- The steps of a reset which succeeds. -/
theorem reset_eq_ok_iff {priv last : Priv} :
    socfpgaFpgaReset world priv = (none, last) ↔
      ∃ begun held, cfgModeSet world priv = (none, begun) ∧
        waitForState world statReset (pullConfig world begun).2 =
          (none, held) ∧
        last =
          writel world .ctl ((pullConfig world begun).1 &&& ~~~ctlNcfgpull)
            held := by
  unfold socfpgaFpgaReset
  rw [andThen_eq_ok_iff]
  dsimp only
  refine exists_congr fun begun => ?_
  rw [exists_and_left]
  refine and_congr_right fun _ => ?_
  rcases waitForState world statReset (pullConfig world begun).2
    with ⟨- | ret, held⟩
  · constructor
    · intro same
      exact ⟨held, rfl, (congrArg Prod.snd same).symm⟩
    · rintro ⟨other, same, isLast⟩
      cases same
      rw [isLast]
      rfl
  · constructor
    · nofun
    · rintro ⟨other, same, -⟩
      cases same

/-- The steps of a preparation which succeeds. -/
theorem configureInit_eq_ok_iff {info : FpgaImageInfo} {priv last : Priv} :
    configureInit world info priv = (none, last) ↔
      info.partialReconfig = false ∧
      ∃ begun held ready, cfgModeSet world priv = (none, begun) ∧
        waitForState world statReset (pullConfig world begun).2 =
          (none, held) ∧
        waitForState world statCfg
          (writel world .ctl ((pullConfig world begun).1 &&& ~~~ctlNcfgpull)
            held) = (none, ready) ∧
        last =
          setBitsl world .ctl ctlAxicfgen
            (writel world .gpioPortaEoi monNstatus ready) := by
  unfold configureInit
  cases info.partialReconfig with
  | true =>
      rw [if_pos rfl]
      exact iff_of_false nofun nofun
  | false =>
      rw [if_neg Bool.false_ne_true, and_iff_right rfl]
      simp only [andThen_eq_ok_iff, reset_eq_ok_iff]
      constructor
      · rintro ⟨_, ⟨begun, held, begins, resets, rfl⟩, ready, configures, same⟩
        exact ⟨begun, held, ready, begins, resets, configures,
          (congrArg Prod.snd same).symm⟩
      · rintro ⟨begun, held, ready, begins, resets, configures, rfl⟩
        exact ⟨_, ⟨begun, held, begins, resets, rfl⟩, ready, configures, rfl⟩

theorem states_cfgModeSet {priv last : Priv} {ret : Option Errno}
    (ends : cfgModeSet world priv = (ret, last)) :
    states last.trace = states priv.trace := by
  unfold cfgModeSet at ends
  dsimp only at ends
  have mode : states (cfgModeGet world priv).2.trace = states priv.trace :=
    states_readl .stat priv
  split at ends
  · cases ends
    exact mode
  · cases ends
    rw [states_writel, states_readl, mode]

theorem states_pullConfig (priv : Priv) :
    states (pullConfig world priv).2.trace = states priv.trace := by
  unfold pullConfig
  dsimp only
  rw [states_writel, states_readl, states_setBitsl]

/-- What a preparation has observed after both of its waits. -/
theorem init_observes_iff {done : Nat} {begun held ready : Priv}
    {misses others : List Word} {reset cfg : Word}
    (begins : cfgModeSet world (fresh done) = (none, begun))
    (resets :
      Polls world statReset polls (pullConfig world begun).2 misses reset held)
    (configures :
      Polls world statCfg polls
        (writel world .ctl ((pullConfig world begun).1 &&& ~~~ctlNcfgpull)
          held)
        others cfg ready) :
    [statReset, statCfg].Sublist
        (states (setBitsl world .ctl ctlAxicfgen
          (writel world .gpioPortaEoi monNstatus ready)).trace) ↔
      cfg = statCfg ∧ (reset = statReset ∨ statReset ∈ others) := by
  obtain ⟨isReset, early, seenReset, missedReset, -⟩ := resets.states
  obtain ⟨isCfg, late, seenCfg, missedCfg, same⟩ := configures.states
  have observed :
      states (setBitsl world .ctl ctlAxicfgen
        (writel world .gpioPortaEoi monNstatus ready)).trace =
        early ++ ((reset :: late) ++ [cfg]) := by
    rw [states_setBitsl, states_writel, seenCfg, states_writel, seenReset,
      states_pullConfig, states_cfgModeSet begins]
    simp [fresh, states]
  have notEarly : statReset ∉ early := fun member =>
    absurd (missedReset _ member) (by decide)
  have notLate : statCfg ∉ reset :: late := by
    intro member
    rcases List.mem_cons.mp member with isFirst | isLate
    · rw [← isFirst] at isReset
      exact isReset (by decide)
    · exact absurd (missedCfg _ isLate) (by decide)
  rw [observed, cons_sublist_append_iff notEarly,
    pair_sublist_concat_iff notLate, List.mem_cons, same _ (by decide),
    eq_comm (a := statReset)]

theorem init_genuine_iff (world : World) (info : FpgaImageInfo) (done : Nat) :
    ((configureInit world info (fresh done)).1 = none →
      [statReset, statCfg].Sublist
        (states (configureInit world info (fresh done)).2.trace)) ↔
      InitExact world info (fresh done) := by
  constructor
  · intro genuine full begun begins misses reset held resets others cfg last
      configures
    have succeeds :=
      configureInit_eq_ok_iff.mpr ⟨full, begun, held, last, begins,
        waitForState_succeeds_iff.mpr ⟨misses, reset, resets⟩,
        waitForState_succeeds_iff.mpr ⟨others, cfg, configures⟩, rfl⟩
    rw [succeeds] at genuine
    exact (init_observes_iff begins resets configures).mp (genuine rfl)
  · intro isExact succeeds
    rcases result : configureInit world info (fresh done) with ⟨ret, last⟩
    rw [result] at succeeds
    cases succeeds
    obtain ⟨full, begun, held, ready, begins, resets, configures, rfl⟩ :=
      configureInit_eq_ok_iff.mp result
    obtain ⟨misses, reset, resets⟩ := waitForState_succeeds_iff.mp resets
    obtain ⟨others, cfg, configures⟩ := waitForState_succeeds_iff.mp configures
    refine (init_observes_iff begins resets configures).mpr ?_
    exact isExact full begun begins misses reset held resets others cfg ready
      configures

/-! ## The completion -/

theorem SawDone.append {trace : Trace} (saw : SawDone trace) (more : Trace) :
    SawDone (trace ++ more) := by
  obtain ⟨st, isDone, member⟩ := saw
  exact ⟨st, isDone, List.mem_append_left _ member⟩

theorem SawDone.of_adds {allowed : Event → Prop} {before after : Priv}
    (saw : SawDone before.trace) (adds : Adds allowed before after) :
    SawDone after.trace := by
  obtain ⟨more, traced, -⟩ := adds
  rw [traced]
  exact saw.append more

/-- What completes the wait is that the handler has seen it done. -/
def Noticed (priv : Priv) : Prop := priv.done ≠ 0 → SawDone priv.trace

theorem Noticed.push {priv : Priv} (noticed : Noticed priv) (event : Event) :
    Noticed (priv.push event) :=
  fun completed => (noticed completed).append [event]

theorem isr_noticed {priv : Priv} (noticed : Noticed priv) :
    Noticed (socfpgaFpgaIsr world priv) := by
  have common : Noticed
      (rawReadl world .gpioExtPorta (rawWritel .gpioPortaEoi
        (rawReadl world .gpioIntstat priv).1
        (rawReadl world .gpioIntstat priv).2)).2 :=
    ((noticed.push _).push _).push _
  unfold socfpgaFpgaIsr
  dsimp only
  split
  case isTrue sees =>
    intro _
    refine ⟨_, sees, ?_⟩
    exact List.mem_append_left _ (List.mem_append_right _
      (List.mem_singleton_self _))
  case isFalse => exact common

theorem settle_noticed {priv : Priv} (noticed : Noticed priv) :
    Noticed (settle world priv) := by
  unfold settle
  generalize world.interrupts priv.trace = count
  induction count generalizing priv with
  | zero => exact noticed
  | succ count ih => exact ih (isr_noticed noticed)

theorem writel_noticed {priv : Priv} (noticed : Noticed priv) (reg : Reg)
    (value : Word) : Noticed (writel world reg value priv) :=
  (settle_noticed noticed).push _

/-- A wait which is completed has been so by the handler. -/
theorem saw_of_completed {priv : Priv} (completed : 0 < (configWait world priv).1) :
    SawDone (configWait world priv).2.trace := by
  have begun : Noticed (enableIrqs world monConfDone
      (initCompletion (disableIrqs world priv))) := by
    have initial : Noticed (initCompletion (disableIrqs world priv)) :=
      fun completed => absurd rfl completed
    exact writel_noticed (writel_noticed (writel_noticed (writel_noticed
      (writel_noticed initial _ _) _ _) _ _) _ _) _ _
  have noticed : Noticed (settle world (enableIrqs world monConfDone
      (initCompletion (disableIrqs world priv)))) := settle_noticed begun
  unfold configWait waitForCompletion at completed ⊢
  dsimp only at completed ⊢
  refine (noticed ?_).append _
  intro none
  rw [if_neg (not_not.mpr none)] at completed
  revert completed
  split <;> decide

/-- The event neither observes a state nor starts to count. -/
def Plain (event : Event) : Prop :=
  NoState event ∧ ∀ value, event ≠ .process (.write .dclkcnt value)

theorem plain_handler (access : Access) : Plain (.handler access) :=
  ⟨rfl, nofun⟩

theorem plain_read (reg : Reg) (value : Word) :
    Plain (.process (.read reg value)) := ⟨rfl, nofun⟩

theorem plain_write {reg : Reg} (value : Word) (other : reg ≠ .dclkcnt) :
    Plain (.process (.write reg value)) := by
  refine ⟨rfl, fun value' same => ?_⟩
  cases same
  exact other rfl

theorem writel_plain (reg : Reg) (value : Word) (other : reg ≠ .dclkcnt)
    (priv : Priv) : Adds Plain priv (writel world reg value priv) :=
  writel_adds plain_handler (plain_write value other) priv

theorem clrBitsl_plain (reg : Reg) (bits : Word) (other : reg ≠ .dclkcnt)
    (priv : Priv) : Adds Plain priv (clrBitsl world reg bits priv) :=
  clrBitsl_adds plain_handler plain_read (fun _ => plain_write _ other) bits
    priv

theorem enableIrqs_plain (irqs : Word) (priv : Priv) :
    Adds Plain priv (enableIrqs world irqs priv) := by
  unfold enableIrqs
  dsimp only
  refine .trans ?_ (writel_plain .gpioInten irqs nofun _)
  refine .trans ?_ (writel_plain .gpioIntmsk 0 nofun _)
  refine .trans ?_ (writel_plain .gpioPortaEoi irqs nofun _)
  refine .trans ?_ (writel_plain .gpioIntPol irqs nofun _)
  exact writel_plain .gpioInttypeLevel 0 nofun priv

theorem waitForCompletion_plain (priv : Priv) :
    Adds Plain priv (waitForCompletion world priv).2 :=
  (settle_adds plain_handler priv).push ⟨rfl, nofun⟩

theorem configWait_plain (priv : Priv) :
    Adds Plain priv (configWait world priv).2 := by
  have disabled : Adds Plain priv (initCompletion (disableIrqs world priv)) :=
    writel_plain .gpioInten 0 nofun priv
  exact (disabled.trans (enableIrqs_plain monConfDone _)).trans
    (waitForCompletion_plain _)

/-- The loop ends as it reads that the count is done. -/
theorem dclkLoop_plain {left : Nat} {priv last : Priv}
    (succeeds : dclkLoop world left priv = (none, last)) :
    ∃ more, last.trace = priv.trace ++ more ∧ (∀ event ∈ more, Plain event) ∧
      .process (.read .dclkstat dclkstatDcntdoneDone) ∈ more := by
  induction left generalizing priv with
  | zero => cases succeeds
  | succ left ih =>
      unfold dclkLoop at succeeds
      dsimp only at succeeds
      have reads : Adds Plain priv (readl world .dclkstat priv).2 :=
        readl_adds plain_handler (plain_read _) priv
      split at succeeds
      case isTrue isDone =>
        cases succeeds
        obtain ⟨early, traced, plain⟩ : Adds Plain priv (settle world priv) :=
          settle_adds plain_handler priv
        obtain ⟨late, traced', plain'⟩ :
            Adds Plain (readl world .dclkstat priv).2
              (clearDoneStatus world (readl world .dclkstat priv).2) :=
          writel_plain .dclkstat _ nofun _
        have seen : (readl world .dclkstat priv).2.trace =
            (settle world priv).trace ++
              [.process (.read .dclkstat dclkstatDcntdoneDone)] := by
          rw [← isDone]
          rfl
        refine ⟨early ++
          (.process (.read .dclkstat dclkstatDcntdoneDone) :: late), ?_, ?_, ?_⟩
        · rw [traced', seen, traced, List.append_assoc, List.append_assoc]
          rfl
        · intro event inMore
          rcases List.mem_append.mp inMore with isEarly | inRest
          · exact plain event isEarly
          · rcases List.mem_cons.mp inRest with isRead | isLate
            · rw [isRead]
              exact plain_read _ _
            · exact plain' event isLate
        · exact List.mem_append_right _ List.mem_cons_self
      case isFalse =>
        obtain ⟨early, traced, plain⟩ := reads
        obtain ⟨late, traced', plain', member⟩ := ih succeeds
        refine ⟨early ++ late, ?_, ?_, List.mem_append_right _ member⟩
        · rw [traced', traced, List.append_assoc]
        · intro event inMore
          rcases List.mem_append.mp inMore with isEarly | isLate
          · exact plain event isEarly
          · exact plain' event isLate

/-- The event does not start to count. -/
def NoCount (event : Event) : Prop :=
  ∀ value, event ≠ .process (.write .dclkcnt value)

theorem Polls.adds {state : Word} {left : Nat} {priv last : Priv}
    {misses : List Word} {hit : Word}
    (waits : Polls world state left priv misses hit last) :
    Adds NoCount priv last := by
  have found (priv : Priv) : Adds NoCount priv (stateGet world priv).2 :=
    stateGet_adds (fun _ => nofun) (fun _ _ => nofun) (fun _ => nofun) priv
  induction waits with
  | hit => exact found _
  | miss _ _ ih => exact (found _).trans ih

theorem mem_states {state : Word} {trace : Trace} :
    state ∈ states trace ↔ .found state ∈ trace := by
  unfold states
  rw [List.mem_filterMap]
  constructor
  · rintro ⟨event, member, same⟩
    cases event with
    | found other =>
        cases same
        exact member
    | process | handler | waited => cases same
  · exact fun member => ⟨_, member, rfl⟩

/-- A wait which is ended by a state ends as it finds it. -/
theorem Polls.found {state : Word} {left : Nat} {priv last : Priv}
    {misses : List Word} {hit : Word}
    (waits : Polls world state left priv misses hit last) :
    ∃ more, last.trace = priv.trace ++ more ∧ (∀ event ∈ more, NoCount event) ∧
      .found hit ∈ more ∧
        ∀ other, other &&& state ≠ 0 → .found other ∈ more → other = hit := by
  obtain ⟨-, seen, observed, missed, -⟩ := waits.states
  obtain ⟨more, traced, none⟩ := waits.adds
  have added : Socfpga.states more = seen ++ [hit] := by
    rw [traced] at observed
    unfold Socfpga.states at observed ⊢
    rw [List.filterMap_append] at observed
    exact List.append_cancel_left observed
  refine ⟨more, traced, none, ?_, ?_⟩
  · rw [← mem_states, added]
    exact List.mem_append_right _ (List.mem_singleton_self _)
  · intro other isOne member
    rw [← mem_states, added] at member
    rcases List.mem_append.mp member with isMiss | isHit
    · exact absurd (missed other isMiss) isOne
    · exact List.mem_singleton.mp isHit

/-- The steps of a completion which succeeds. -/
theorem configureComplete_eq_ok_iff {priv last : Priv} :
    configureComplete world priv = (none, last) ↔
      (configWait world priv).1 ≠ 0 ∧
      ∃ ticked ready,
        dclkLoop world polls
          (dclkSet world 4 (clrBitsl world .ctl ctlAxicfgen
            (disableIrqs world (configWait world priv).2))) = (none, ticked) ∧
        waitForState world statUserMode ticked = (none, ready) ∧
        last = clrBitsl world .ctl ctlEn ready := by
  unfold configureComplete waitForConfigDone
  dsimp only
  by_cases timedOut : (configWait world priv).1 = 0
  · rw [if_pos timedOut]
    refine iff_of_false nofun ?_
    rintro ⟨inTime, -⟩
    exact inTime timedOut
  · rw [if_neg timedOut, andThen_of_ok, and_iff_right timedOut]
    simp only [andThen_eq_ok_iff, dclkSetAndWaitClear]
    constructor
    · rintro ⟨ticked, ticks, ready, mode, same⟩
      exact ⟨ticked, ready, ticks, mode, (congrArg Prod.snd same).symm⟩
    · rintro ⟨ticked, ready, ticks, mode, rfl⟩
      exact ⟨ticked, ticks, ready, mode, rfl⟩

variable (world) in
/-- The count is written once, when all before it is over. -/
theorem dclkSet_counts (priv : Priv) :
    ∃ before, Adds Plain priv before ∧
      (dclkSet world 4 priv).trace =
        before.trace ++ [.process (.write .dclkcnt 4)] := by
  have reads : Adds Plain priv (readl world .dclkstat priv).2 :=
    readl_adds plain_handler (plain_read _) priv
  unfold dclkSet
  dsimp only
  split
  · refine ⟨_, (reads.trans ?_).trans (settle_adds plain_handler _), rfl⟩
    exact writel_plain .dclkstat _ nofun _
  · exact ⟨_, reads.trans (settle_adds plain_handler _), rfl⟩

/-- What a completion has observed after all of its waits. -/
theorem complete_observes_iff {before counted ticked ready : Priv}
    {misses : List Word} {mode : Word}
    (quiet : ∀ event ∈ before.trace, Plain event)
    (counts : counted.trace =
      before.trace ++ [.process (.write .dclkcnt 4)])
    (ticks : dclkLoop world polls counted = (none, ticked))
    (enters : Polls world statUserMode polls ticked misses mode ready) :
    (∃ st, isDone st = true ∧
      (completion st).Sublist (clrBitsl world .ctl ctlEn ready).trace) ↔
      mode = statUserMode ∧ SawDone before.trace := by
  obtain ⟨ticking, ticked', plain, reads⟩ := dclkLoop_plain ticks
  obtain ⟨entering, entered, noCount, found, only⟩ := enters.found
  obtain ⟨ending, ended, plain'⟩ :
      Adds Plain ready (clrBitsl world .ctl ctlEn ready) :=
    clrBitsl_plain .ctl ctlEn nofun ready
  have trace : (clrBitsl world .ctl ctlEn ready).trace =
      before.trace ++ (.process (.write .dclkcnt 4) ::
        (ticking ++ (entering ++ ending))) := by
    rw [ended, entered, ticked', counts]
    simp only [List.append_assoc, List.cons_append, List.nil_append]
  rw [trace]
  constructor
  · rintro ⟨st, done, observed⟩
    constructor
    · have member := observed.subset (show .found statUserMode ∈ completion st by
        simp [completion])
      rcases List.mem_append.mp member with isBefore | isAfter
      · exact absurd (quiet _ isBefore).1 nofun
      · rcases List.mem_cons.mp isAfter with isCount | isAfter
        · cases isCount
        · rcases List.mem_append.mp isAfter with isTick | isAfter
          · exact absurd (plain _ isTick).1 nofun
          · rcases List.mem_append.mp isAfter with isMode | isEnd
            · exact (only _ (by decide) isMode).symm
            · exact absurd (plain' _ isEnd).1 nofun
    · refine ⟨st, done, ?_⟩
      by_contra unseen
      have later := (cons_sublist_append_iff unseen).mp observed
      have counted : .process (.write .dclkcnt 4) ∈
          ticking ++ (entering ++ ending) := by
        rcases List.sublist_cons_iff.mp later with isAfter | ⟨_, same, -⟩
        · exact isAfter.subset (by simp)
        · cases same
      rcases List.mem_append.mp counted with isTick | isAfter
      · exact (plain _ isTick).2 4 rfl
      · rcases List.mem_append.mp isAfter with isMode | isEnd
        · exact noCount _ isMode 4 rfl
        · exact (plain' _ isEnd).2 4 rfl
  · rintro ⟨isMode, st, done, saw⟩
    rw [isMode] at found
    refine ⟨st, done, ?_⟩
    refine (List.singleton_sublist.mpr saw).append (.cons_cons _ ?_)
    refine (List.singleton_sublist.mpr reads).append ?_
    exact (List.singleton_sublist.mpr found).trans
      (List.sublist_append_left _ _)

theorem sawDone_counted_iff {before : Trace} :
    SawDone (before ++ [.process (.write .dclkcnt 4)]) ↔ SawDone before := by
  constructor
  · rintro ⟨st, done, member⟩
    rcases List.mem_append.mp member with isBefore | isCount
    · exact ⟨st, done, isBefore⟩
    · cases List.mem_singleton.mp isCount
  · exact fun saw => saw.append _

theorem complete_genuine_iff (world : World) (done : Nat) :
    ((configureComplete world (fresh done)).1 = none →
      ∃ st, isDone st = true ∧
        (completion st).Sublist
          (configureComplete world (fresh done)).2.trace) ↔
      CompleteExact world (fresh done) := by
  have waited : Adds Plain (configWait world (fresh done)).2
      (clrBitsl world .ctl ctlAxicfgen
        (disableIrqs world (configWait world (fresh done)).2)) :=
    .trans (writel_plain .gpioInten 0 nofun _)
      (clrBitsl_plain .ctl ctlAxicfgen nofun _)
  obtain ⟨before, prepared, counts⟩ :=
    dclkSet_counts world (clrBitsl world .ctl ctlAxicfgen
      (disableIrqs world (configWait world (fresh done)).2))
  have quiet : ∀ event ∈ before.trace, Plain event := by
    obtain ⟨more, traced, plain⟩ :=
      ((configWait_plain (fresh done)).trans waited).trans prepared
    rw [traced]
    exact plain
  -- a wait which is completed has been so by the handler
  have sawBefore : (configWait world (fresh done)).1 ≠ 0 →
      (SawDone before.trace ↔
        ((configWait world (fresh done)).1 < 0 → SawDone before.trace)) := by
    intro inTime
    refine ⟨fun saw _ => saw, fun signalled => ?_⟩
    rcases lt_or_gt_of_ne inTime with isSignal | isCompleted
    · exact signalled isSignal
    · exact (saw_of_completed isCompleted).of_adds (waited.trans prepared)
  constructor
  · intro genuine inTime counted ticked ticks misses mode ready enters
    have succeeds := configureComplete_eq_ok_iff.mpr ⟨inTime, ticked, ready,
      ticks, waitForState_succeeds_iff.mpr ⟨misses, mode, enters⟩, rfl⟩
    rw [succeeds] at genuine
    rw [counts, sawDone_counted_iff, ← sawBefore inTime]
    exact (complete_observes_iff quiet counts ticks enters).mp (genuine rfl)
  · intro isExact succeeds
    rcases result : configureComplete world (fresh done) with ⟨ret, last⟩
    rw [result] at succeeds
    cases succeeds
    obtain ⟨inTime, ticked, ready, ticks, enters, rfl⟩ :=
      configureComplete_eq_ok_iff.mp result
    obtain ⟨misses, mode, enters⟩ := waitForState_succeeds_iff.mp enters
    refine (complete_observes_iff quiet counts ticks enters).mpr ?_
    have exactly := isExact inTime ticked ticks misses mode ready enters
    rw [counts, sawDone_counted_iff, ← sawBefore inTime] at exactly
    exact exactly

/--
A configuration which is reported to have succeeded has been seen to, exactly
if each wait is ended by what it waits for.
-/
theorem genuine_iff (world : World) (info : FpgaImageInfo) (done : Nat) :
    Genuine world info done ↔ Exact world info done := by
  constructor
  · intro genuine
    exact ⟨(init_genuine_iff world info done).mp genuine.init,
      (complete_genuine_iff world done).mp genuine.complete⟩
  · intro isExact
    exact ⟨(init_genuine_iff world info done).mpr isExact.init,
      (complete_genuine_iff world done).mpr isExact.complete⟩

/-- A device which stays in its initialisation, with a mode that is valid. -/
def initialising : World where
  value
    | _, .stat => statInit
    | _, .gpioExtPorta => monFpgaPowerOn
    | _, _ => 0
  interrupts := fun _ => 0
  signalled := fun _ => false
  jiffies := fun _ => 0

/-- `socfpga_fpga_ops_configure_init` succeeds in neither of the states. -/
theorem initialising_not_genuine :
    ¬ Genuine initialising
      { ident := 0, partialReconfig := false, regionId := 0, headerSize := 0,
        dataSize := 0, buf := [] } 0 := by
  intro genuine
  exact absurd (genuine.init (by decide)) (by decide)

end LinuxDfl.Fpga.Socfpga

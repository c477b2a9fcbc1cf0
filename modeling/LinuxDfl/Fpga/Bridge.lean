import LinuxDfl.Fpga.Manager

/-!
# FPGA bridges

Exclusive references to bridges, and enabling or disabling a list of them.
The number of references taken and not given back is recorded for each
object, whatever took them.
-/

namespace LinuxDfl.Fpga

open LinuxDfl.Kernel

/-- The references held on an object: taken, less given back. -/
structure Holds where
  mutex : Int
  device : Int
  moduleRef : Int
  deriving DecidableEq, Repr

namespace Holds

def lock (held : Holds) : Holds := { held with mutex := held.mutex + 1 }

def unlock (held : Holds) : Holds := { held with mutex := held.mutex - 1 }

/-- `get_device` -/
def getDevice (held : Holds) : Holds :=
  { held with device := held.device + 1 }

/-- `put_device` -/
def putDevice (held : Holds) : Holds :=
  { held with device := held.device - 1 }

def getModule (held : Holds) : Holds :=
  { held with moduleRef := held.moduleRef + 1 }

/-- `module_put` -/
def modulePut (held : Holds) : Holds :=
  { held with moduleRef := held.moduleRef - 1 }

end Holds

/-- Run the next step, unless the last one has failed. -/
def andThen {State : Type}
    (result : Option Errno × State) (next : State → Option Errno × State) :
    Option Errno × State :=
  match result with
  | (some ret, state) => (some ret, state)
  | (none, state) => next state

@[simp]
theorem andThen_succeeds_iff {State : Type}
    (result : Option Errno × State)
    (next : State → Option Errno × State) :
    (andThen result next).1 = none ↔
      result.1 = none ∧ (next result.2).1 = none := by
  rcases result with ⟨_ | ret, state⟩ <;> simp [andThen]

theorem andThen_of_ok {State : Type} (state : State)
    (next : State → Option Errno × State) :
    andThen (none, state) next = next state := rfl

theorem andThen_eq_ok_iff {State : Type} {result : Option Errno × State}
    {next : State → Option Errno × State} {last : State} :
    andThen result next = (none, last) ↔
      ∃ state, result = (none, state) ∧ next state = (none, last) := by
  rcases result with ⟨_ | ret, state⟩
  · constructor
    · exact fun succeeds => ⟨state, rfl, succeeds⟩
    · rintro ⟨_, same, succeeds⟩
      cases same
      exact succeeds
  · constructor
    · nofun
    · rintro ⟨_, same, -⟩
      cases same

/-- `struct fpga_bridge` -/
structure FpgaBridge where
  info : Option FpgaImageInfo
  held : Holds
  deriving DecidableEq, Repr

/-- What a request for a bridge meets. -/
structure BridgeGetEnv where
  /-- `class_find_device` -/
  find : Bool
  /-- `mutex_trylock` -/
  trylock : Bool
  /-- `try_module_get` -/
  tryModuleGet : Bool
  deriving DecidableEq, Repr

/-- `__fpga_bridge_get`; the caller has a reference to the device. -/
def fpgaBridgeGetLocked
    (env : BridgeGetEnv) (info : Option FpgaImageInfo)
    (bridge : FpgaBridge) : Option Errno × FpgaBridge :=
  let bridge := { bridge with info := info }
  if !env.trylock then
    (some .ebusy, { bridge with held := bridge.held.putDevice })
  else
    let bridge := { bridge with held := bridge.held.lock }
    if !env.tryModuleGet then
      (some .enodev, { bridge with held := bridge.held.unlock.putDevice })
    else
      (none, { bridge with held := bridge.held.getModule })

/-- `fpga_bridge_get` -/
def fpgaBridgeGet
    (env : BridgeGetEnv) (info : Option FpgaImageInfo)
    (bridge : FpgaBridge) : Option Errno × FpgaBridge :=
  if !env.find then
    (some .enodev, bridge)
  else
    fpgaBridgeGetLocked env info
      { bridge with held := bridge.held.getDevice }

/-- `fpga_bridge_put` -/
def fpgaBridgePut (bridge : FpgaBridge) : FpgaBridge where
  info := none
  held := bridge.held.modulePut.unlock.putDevice

@[simp]
theorem fpgaBridgeGet_succeeds_iff
    (env : BridgeGetEnv) (info : Option FpgaImageInfo)
    (bridge : FpgaBridge) :
    (fpgaBridgeGet env info bridge).1 = none ↔
      env.find = true ∧ env.trylock = true ∧ env.tryModuleGet = true := by
  obtain ⟨find, trylock, tryModuleGet⟩ := env
  cases find <;> cases trylock <;> cases tryModuleGet <;>
    simp [fpgaBridgeGet, fpgaBridgeGetLocked]

variable {Bridge Target : Type}

/--
`fpga_bridges_enable` and `fpga_bridges_disable`.  `enableSet` is what
`fpga_bridge_enable` and `fpga_bridge_disable` do to one bridge, that is the
`enable_set` operation of the bridge, or nothing when it has none.
-/
def fpgaBridgesSet
    (enableSet : Bridge → Bool → Target → Option Errno × Target)
    (enable : Bool) : List Bridge → Target → Option Errno × Target
  | [], target => (none, target)
  | bridge :: rest, target =>
      andThen (enableSet bridge enable target)
        (fpgaBridgesSet enableSet enable rest)

/-- `fpga_bridges_put`, on the bridges themselves -/
def fpgaBridgesPut [DecidableEq Bridge] :
    List Bridge → (Bridge → FpgaBridge) → Bridge → FpgaBridge
  | [], bridges => bridges
  | bridge :: rest, bridges =>
      fpgaBridgesPut rest fun other =>
        if other = bridge then fpgaBridgePut (bridges bridge)
        else bridges other

end LinuxDfl.Fpga

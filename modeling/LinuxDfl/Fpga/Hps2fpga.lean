import LinuxDfl.Lib.Calls
import Mathlib.Logic.Function.Basic

/-!
# The bridges of a SoC FPGA share a register

A bridge between processor and fabric is taken out of reset, and made visible
to the masters of the interconnect.  The register which does so belongs to all
bridges and cannot be read, so that its value is kept in a shadow, which is
changed under a lock of its own.
-/

namespace LinuxDfl.Fpga.Hps2fpga

open LinuxDfl.Lib.Locking
open LinuxDfl.Lib.Transition

/-- `hps2fpga_data`, `lwhps2fpga_data` and `fpga2hps_data` -/
inductive Hps2fpgaBridge where
  | hps2fpga
  | lwhps2fpga
  | fpga2hps
  deriving DecidableEq, Repr

/-- `ALT_L3_REMAP_MPUZERO_MSK` -/
def altL3RemapMpuzeroMsk : BitVec 32 := 0x00000001

/-- The field `remap_mask`, with `ALT_L3_REMAP_H2F_MSK` and `_LWH2F_MSK`. -/
def Hps2fpgaBridge.remapMask : Hps2fpgaBridge → BitVec 32
  | .hps2fpga => 0x00000008
  | .lwhps2fpga => 0x00000010
  | .fpga2hps => 0

/-- What has been done to the bridges. -/
inductive BridgeEvent where
  | reset (bridge : Hps2fpgaBridge) (enable : Bool)
  | remapped (bridge : Hps2fpgaBridge) (enable written : Bool)
  deriving DecidableEq, Repr

/-- The bridges, the register they share, and its shadow. -/
structure Bridges where
  deasserted : Hps2fpgaBridge → Bool
  l3RemapShadow : BitVec 32
  /-- The register at `ALT_L3_REMAP_OFST`. -/
  l3Remap : BitVec 32
  /-- By which thread. -/
  log : List (Nat × BridgeEvent)

namespace Bridges

/-- `reset_control_assert` and `reset_control_deassert`, when they succeed -/
def setReset (thread : Nat) (bridge : Hps2fpgaBridge) (enable : Bool)
    (bridges : Bridges) : Bridges :=
  { bridges with
    deasserted := Function.update bridges.deasserted bridge enable
    log := bridges.log ++ [(thread, .reset bridge enable)] }

/-- A write to `l3_remap_shadow`. -/
def setShadow (shadow : BitVec 32) (bridges : Bridges) : Bridges :=
  { bridges with l3RemapShadow := shadow }

/-- `regmap_write` of what has been read, for a call on the bridge -/
def writeRemap (thread : Nat) (bridge : Hps2fpgaBridge)
    (enable written : Bool) (shadow : BitVec 32) (bridges : Bridges) :
    Bridges :=
  { bridges with
    l3Remap := if written then shadow else bridges.l3Remap
    log := bridges.log ++ [(thread, .remapped bridge enable written)] }

end Bridges

open Bridges

/-- The code of a thread, under `l3_remap_lock`. -/
abbrev BridgeCode := Code Unit Bridges

/-- The bit of the bridge is set or cleared. -/
def remapBit (bridge : Hps2fpgaBridge) (enable : Bool) (shadow : BitVec 32) :
    BitVec 32 :=
  if enable then shadow ||| bridge.remapMask
  else shadow &&& ~~~bridge.remapMask

/--
`_alt_hps2fpga_enable_set`, where the reset control and the write of the
register succeed or fail.
-/
def altHps2fpgaEnableSet (thread : Nat) (bridge : Hps2fpgaBridge)
    (enable reset written : Bool) : BridgeCode :=
  if reset then
    .update (setReset thread bridge enable) fun _ =>
    if bridge.remapMask ≠ 0 then
      .lock () <|
      .update id fun read =>
      .update (setShadow (read.l3RemapShadow ||| altL3RemapMpuzeroMsk)) fun _ =>
      .update id fun read =>
      .update (setShadow (remapBit bridge enable read.l3RemapShadow)) fun _ =>
      .update id fun read =>
      .update
        (writeRemap thread bridge enable written read.l3RemapShadow) fun _ =>
      .unlock () .done
    else .done
  else .done

/-- A call on one of the bridges, and what becomes of it. -/
structure EnableCall where
  bridge : Hps2fpgaBridge
  enable : Bool
  reset : Bool
  written : Bool

def EnableCall.code (thread : Nat) (call : EnableCall) : BridgeCode :=
  altHps2fpgaEnableSet thread call.bridge call.enable call.reset call.written

/-! ## What the calls ask for -/

/--
What a call has to do: the reset comes first, and if that fails nothing else is
done.  Two of the bridges have a bit in the register.
-/
def EnableCall.asks (call : EnableCall) : List BridgeEvent :=
  if call.reset then
    .reset call.bridge call.enable ::
      (if call.bridge = .fpga2hps then []
      else [.remapped call.bridge call.enable call.written])
  else []

/-- Some of the bridges. -/
abbrev BridgeSet := Hps2fpgaBridge → Bool

/-- What has been asked for, one call after the other. -/
structure Asked where
  released : BridgeSet
  /-- The bridges which are to be visible, from the first call on. -/
  wanted : Option BridgeSet
  /-- The bridges which are visible, from the first successful write on. -/
  visible : Option BridgeSet

/-- Each call concerns its own bridge, and a write tells of all of them. -/
def Asked.next (asked : Asked) : BridgeEvent → Asked
  | .reset bridge enable =>
      { asked with released := Function.update asked.released bridge enable }
  | .remapped bridge enable written =>
      let wanted :=
        some (Function.update (asked.wanted.getD fun _ => false) bridge enable)
      { asked with
        wanted := wanted
        visible := if written then wanted else asked.visible }

/-- The register which makes these bridges visible. -/
def remapOf (visible : BridgeSet) : BitVec 32 :=
  altL3RemapMpuzeroMsk |||
    (if visible .hps2fpga then Hps2fpgaBridge.hps2fpga.remapMask else 0) |||
    (if visible .lwhps2fpga then Hps2fpgaBridge.lwhps2fpga.remapMask else 0)

/-- The shadow begins with zero, as every variable which is static. -/
def shadowOf (wanted : Option BridgeSet) : BitVec 32 :=
  wanted.elim 0 remapOf

/-- The bit of one bridge leaves those of the others as they are. -/
theorem remapBit_shadowOf {bridge : Hps2fpgaBridge}
    (shares : bridge.remapMask ≠ 0) (enable : Bool)
    (wanted : Option BridgeSet) :
    remapBit bridge enable (shadowOf wanted ||| altL3RemapMpuzeroMsk) =
      remapOf
        (Function.update (wanted.getD fun _ => false) bridge enable) := by
  have bits : ∀ first second : Bool,
      remapBit bridge enable
          ((altL3RemapMpuzeroMsk |||
            (if first then Hps2fpgaBridge.hps2fpga.remapMask else 0) |||
            (if second then Hps2fpgaBridge.lwhps2fpga.remapMask else 0)) |||
              altL3RemapMpuzeroMsk) =
        altL3RemapMpuzeroMsk |||
          (if (if bridge = .hps2fpga then enable else first) then
            Hps2fpgaBridge.hps2fpga.remapMask else 0) |||
          (if (if bridge = .lwhps2fpga then enable else second) then
            Hps2fpgaBridge.lwhps2fpga.remapMask else 0) := by
    cases bridge with
    | hps2fpga => cases enable <;> decide
    | lwhps2fpga => cases enable <;> decide
    | fpga2hps => exact absurd rfl shares
  have update : ∀ visible : BridgeSet,
      remapOf (Function.update visible bridge enable) =
        altL3RemapMpuzeroMsk |||
          (if (if bridge = .hps2fpga then enable else visible .hps2fpga) then
            Hps2fpgaBridge.hps2fpga.remapMask else 0) |||
          (if (if bridge = .lwhps2fpga then enable
              else visible .lwhps2fpga) then
            Hps2fpgaBridge.lwhps2fpga.remapMask else 0) := by
    intro visible
    simp only [remapOf, Function.update_apply, eq_comm]
  rw [update]
  cases wanted with
  | none => exact bits false false
  | some visible => exact bits (visible .hps2fpga) (visible .lwhps2fpga)

/-! ## What the lock protects -/

/-- What has been asked for since the start. -/
def asked (start bridges : Bridges) : Asked :=
  (bridges.log.map Prod.snd).foldl Asked.next ⟨start.deasserted, none, none⟩

variable {start bridges next : Bridges}

/-- One more event. -/
theorem asked_append (start : Bridges) {bridges next : Bridges}
    {thread : Nat} {event : BridgeEvent}
    (log : next.log = bridges.log ++ [(thread, event)]) :
    asked start next = (asked start bridges).next event := by
  rw [asked, log, List.map_append, List.foldl_append]
  rfl

theorem asked_setReset (start : Bridges) (thread : Nat)
    (bridge : Hps2fpgaBridge) (enable : Bool) (bridges : Bridges) :
    asked start (bridges.setReset thread bridge enable) =
      (asked start bridges).next (.reset bridge enable) :=
  asked_append start rfl

theorem asked_writeRemap (start : Bridges) (thread : Nat)
    (bridge : Hps2fpgaBridge) (enable written : Bool) (shadow : BitVec 32)
    (bridges : Bridges) :
    asked start (bridges.writeRemap thread bridge enable written shadow) =
      (asked start bridges).next (.remapped bridge enable written) :=
  asked_append start rfl

/-- The resets and the register are as they were asked for. -/
structure Obeyed (start bridges : Bridges) : Prop where
  released : bridges.deasserted = (asked start bridges).released
  visible :
    bridges.l3Remap = (asked start bridges).visible.elim start.l3Remap remapOf

/-- What is done to resets without the lock. -/
structure Meddles (start bridges next : Bridges) : Prop where
  shadow : next.l3RemapShadow = bridges.l3RemapShadow
  remap : next.l3Remap = bridges.l3Remap
  wanted : (asked start next).wanted = (asked start bridges).wanted
  visible : (asked start next).visible = (asked start bridges).visible
  released : bridges.deasserted = (asked start bridges).released →
    next.deasserted = (asked start next).released

theorem Meddles.obeyed (meddles : Meddles start bridges next)
    (obeyed : Obeyed start bridges) : Obeyed start next := by
  refine ⟨meddles.released obeyed.released, ?_⟩
  rw [meddles.remap, meddles.visible]
  exact obeyed.visible

/-- The shadow has what is wanted, but for what the owner has done to it. -/
structure Shadowed (start : Bridges) (wanted : Option BridgeSet)
    (shadow : BitVec 32) (bridges : Bridges) : Prop where
  wanted : (asked start bridges).wanted = wanted
  shadow : bridges.l3RemapShadow = shadow

theorem Shadowed.meddled {wanted : Option BridgeSet} {shadow : BitVec 32}
    (shadowed : Shadowed start wanted shadow bridges)
    (meddles : Meddles start bridges next) :
    Shadowed start wanted shadow next :=
  ⟨meddles.wanted.trans shadowed.wanted,
    meddles.shadow.trans shadowed.shadow⟩

/-- `l3_remap_lock` -/
def l3RemapLock (start : Bridges) : Protection Bridges where
  Always := Obeyed start
  AtRest bridges :=
    bridges.l3RemapShadow = shadowOf (asked start bridges).wanted
  Meddles := Meddles start
  refl _ := ⟨rfl, rfl, rfl, rfl, id⟩
  trans front back :=
    ⟨back.shadow.trans front.shadow, back.remap.trans front.remap,
      back.wanted.trans front.wanted, back.visible.trans front.visible,
      fun released => back.released (front.released released)⟩
  always := Meddles.obeyed
  rests meddles atRest := by
    rw [meddles.shadow, meddles.wanted]
    exact atRest

theorem meddles_setReset (start : Bridges) (thread : Nat)
    (bridge : Hps2fpgaBridge) (enable : Bool) (bridges : Bridges) :
    Meddles start bridges (bridges.setReset thread bridge enable) := by
  refine ⟨rfl, rfl, ?_, ?_, fun released => ?_⟩
  · rw [asked_setReset]
    rfl
  · rw [asked_setReset]
    rfl
  · rw [asked_setReset, setReset, released]
    rfl

/-- What is written to the register has the bit of the bridge. -/
theorem Obeyed.writeRemap (obeyed : Obeyed start bridges)
    {wanted : Option BridgeSet} {bridge : Hps2fpgaBridge} {enable : Bool}
    {shadow : BitVec 32}
    (isShadow : shadow =
      remapOf (Function.update (wanted.getD fun _ => false) bridge enable))
    (isWanted : (asked start bridges).wanted = wanted) (thread : Nat)
    (written : Bool) :
    Obeyed start (bridges.writeRemap thread bridge enable written shadow) := by
  refine ⟨?_, ?_⟩
  · rw [asked_writeRemap]
    exact obeyed.released
  · rw [asked_writeRemap, Asked.next, isWanted]
    cases written with
    | false => exact obeyed.visible
    | true => exact isShadow

theorem Obeyed.setShadow (obeyed : Obeyed start bridges)
    (shadow : BitVec 32) : Obeyed start (bridges.setShadow shadow) :=
  ⟨obeyed.released, obeyed.visible⟩

theorem Shadowed.setShadow {wanted : Option BridgeSet} {shadow : BitVec 32}
    (shadowed : Shadowed start wanted shadow bridges) (other : BitVec 32) :
    Shadowed start wanted other (bridges.setShadow other) :=
  ⟨shadowed.wanted, rfl⟩

/-- The shadow is at rest again behind the write, even if that fails. -/
theorem Shadowed.rests {wanted : Option BridgeSet} {bridge : Hps2fpgaBridge}
    {enable : Bool}
    (shadowed : Shadowed start wanted
      (remapOf (Function.update (wanted.getD fun _ => false) bridge enable))
      bridges)
    (thread : Nat) (written : Bool) (shadow : BitVec 32) :
    (l3RemapLock start).AtRest
      (bridges.writeRemap thread bridge enable written shadow) := by
  show bridges.l3RemapShadow = shadowOf (asked start _).wanted
  rw [asked_writeRemap, Asked.next, shadowed.wanted]
  exact shadowed.shadow

theorem sound_enableSet (thread : Nat) (bridge : Hps2fpgaBridge)
    (enable reset written : Bool) :
    Sound (l3RemapLock start) () false
      (altHps2fpgaEnableSet thread bridge enable reset written) bridges := by
  cases reset with
  | false => rfl
  | true =>
      intro now _
      refine ⟨meddles_setReset start thread bridge enable now, fun later => ?_⟩
      by_cases shares : bridge.remapMask ≠ 0
      · rw [if_pos shares]
        refine ⟨rfl, rfl, fun first _ atRest => ?_⟩
        have begins : Shadowed start (asked start first).wanted
            (shadowOf (asked start first).wanted) first := ⟨rfl, atRest⟩
        intro second meddles obeyed
        have read := begins.meddled meddles
        refine ⟨obeyed, ?_⟩
        intro third meddles obeyed
        have marked := (read.meddled meddles).setShadow
          (second.l3RemapShadow ||| altL3RemapMpuzeroMsk)
        refine ⟨Obeyed.setShadow obeyed _, ?_⟩
        intro fourth meddles obeyed
        have again := marked.meddled meddles
        refine ⟨obeyed, ?_⟩
        intro fifth meddles obeyed
        have changed := (again.meddled meddles).setShadow
          (remapBit bridge enable fourth.l3RemapShadow)
        refine ⟨Obeyed.setShadow obeyed _, ?_⟩
        intro sixth meddles obeyed
        have ready := changed.meddled meddles
        -- Nobody else has changed the shadow in between.
        rw [again.shadow, read.shadow, remapBit_shadowOf shares] at ready
        refine ⟨obeyed, ?_⟩
        intro seventh meddles obeyed
        have still := ready.meddled meddles
        exact ⟨Obeyed.writeRemap obeyed ready.shadow still.wanted thread
          written, rfl, rfl, still.rests thread written _, fun _ => rfl⟩
      · rw [if_neg shares]
        rfl

/-- Every call does what it has to do. -/
theorem owes_enableSet (thread : Nat) (call : EnableCall) :
    Owes Bridges.log some thread call.asks (call.code thread) := by
  obtain ⟨bridge, enable, reset, written⟩ := call
  cases reset with
  | false => rfl
  | true =>
      refine Owes.event (fun _ => .reset bridge enable) (fun _ => rfl)
        fun _ => ⟨_, rfl, ?_⟩
      have remaps (shares : bridge.remapMask ≠ 0) :
          Owes Bridges.log some thread [.remapped bridge enable written]
            (if bridge.remapMask ≠ 0 then
              .lock () <|
              .update id fun read =>
              .update
                (setShadow
                  (read.l3RemapShadow ||| altL3RemapMpuzeroMsk)) fun _ =>
              .update id fun read =>
              .update
                (setShadow
                  (remapBit bridge enable read.l3RemapShadow)) fun _ =>
              .update id fun read =>
              .update
                (writeRemap thread bridge enable written
                  read.l3RemapShadow) fun _ =>
              .unlock () .done
            else .done) := by
        rw [if_pos shares]
        refine Owes.quiet (fun _ => rfl) fun _ => ?_
        refine Owes.quiet (fun _ => rfl) fun _ => ?_
        refine Owes.quiet (fun _ => rfl) fun _ => ?_
        refine Owes.quiet (fun _ => rfl) fun _ => ?_
        refine Owes.quiet (fun _ => rfl) fun _ => ?_
        exact Owes.event (fun _ => .remapped bridge enable written)
          (fun _ => rfl) fun _ => ⟨[], rfl, rfl⟩
      cases bridge with
      | hps2fpga => exact remaps (by decide)
      | lwhps2fpga => exact remaps (by decide)
      | fpga2hps => rfl

/-! ## Runs -/

/--
The resets and the register are what the log says, and the log says what the
calls have asked for.
-/
structure Agreed (start : Bridges)
    (recorded : RecordedCalls Unit Bridges EnableCall) : Prop where
  released : recorded.system.shared.deasserted =
    (asked start recorded.system.shared).released
  visible : recorded.system.shared.l3Remap =
    (asked start recorded.system.shared).visible.elim start.l3Remap remapOf
  shadow : recorded.system.owner () = none →
    recorded.system.shared.l3RemapShadow =
      shadowOf (asked start recorded.system.shared).wanted
  calls : ∀ thread, Tells Bridges.log some EnableCall.asks recorded thread

/-- The bridges before the first call. -/
def untouched (deasserted : BridgeSet) (l3Remap : BitVec 32) : Bridges where
  deasserted
  l3RemapShadow := 0
  l3Remap
  log := []

/-- Whoever enables and disables bridges, and whichever calls fail. -/
theorem bridges_agreed (deasserted : BridgeSet) (l3Remap : BitVec 32)
    {path : List (Action EnableCall × RecordedCalls Unit Bridges EnableCall)}
    (isPath : IsPath (RecordedCalls.Step EnableCall.code)
      (RecordedCalls.idle (untouched deasserted l3Remap)) path) :
    Throughout (Agreed (untouched deasserted l3Remap))
      (RecordedCalls.idle (untouched deasserted l3Remap)) path := by
  have protects := RecordedCalls.protects_throughout
    (fun thread (call : EnableCall) _ =>
      sound_enableSet thread call.bridge call.enable call.reset call.written)
    isPath
    (protects_idle (l3RemapLock (untouched deasserted l3Remap)) ⟨rfl, rfl⟩
      rfl)
  have owing := owing_throughout Bridges.log owes_enableSet isPath
    (owing_idle rfl)
  refine (protects.and owing).mono ?_
  rintro recorded ⟨protects, owing⟩
  have obeyed : Obeyed _ recorded.system.shared := protects.always
  exact ⟨obeyed.released, obeyed.visible, protects.atRest,
    fun thread => (owing thread).tells⟩

/--
Both bridges are enabled at once; the first write fails, and the second one
makes both visible.
-/
def bothEnabled : List (Action EnableCall) :=
  [.start 0 ⟨.hps2fpga, true, true, false⟩,
    .start 1 ⟨.lwhps2fpga, true, true, true⟩, .advance 1] ++
    List.replicate 9 (.advance 0) ++ List.replicate 8 (.advance 1)

theorem bothEnabled_agreed :
    Throughout (Agreed (untouched (fun _ => false) 0))
      (RecordedCalls.idle (untouched (fun _ => false) 0))
      (pathOf (orSame (RecordedCalls.perform EnableCall.code))
        (RecordedCalls.idle (untouched (fun _ => false) 0)) bothEnabled) :=
  bridges_agreed (fun _ => false) 0 (isPath_of_allTaken (by decide))

end LinuxDfl.Fpga.Hps2fpga

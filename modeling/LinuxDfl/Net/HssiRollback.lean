import LinuxDfl.Net.Hssi

/-!
# What a failed probe of the HSSI leaves behind

The label where a port goes on failing unregisters its network device, also
when the device was never registered, and the ports before it stay as they
are.  So a failure is undone if it is the first port which fails, and there
either before the device is allocated or after it is registered.
-/

namespace LinuxDfl.Net.Hssi

open LinuxDfl.Kernel

/-! ## One port -/

/-- Where setting a port up fails. -/
inductive Fault where
  | alloc
  | regmap
  /-- An error pointer is used as a register map. -/
  | oops
  | reset
  | register
  | attach
  deriving DecidableEq, Repr

namespace PortEnv

variable (env : PortEnv) (port : Nat)

/-- `NULL` is returned for one of the register maps. -/
def nullRegmap : Prop :=
  ∃ type, env.n5010HssiCreateRegmap port type = .null

/-- One of the register maps is not made. -/
def badRegmap : Prop :=
  ∃ type, env.n5010HssiCreateRegmap port type ≠ .valid

theorem exists_regmapType_iff (property : RegmapType → Prop) :
    (∃ type, property type) ↔
      property .mac ∨ property .fec ∨ property .phy := by
  constructor
  · rintro ⟨_ | _ | _, holds⟩
    · exact .inl holds
    · exact .inr (.inl holds)
    · exact .inr (.inr holds)
  · rintro (holds | holds | holds)
    · exact ⟨_, holds⟩
    · exact ⟨_, holds⟩
    · exact ⟨_, holds⟩

instance : Decidable (env.nullRegmap port) :=
  decidable_of_iff _ (exists_regmapType_iff _).symm

instance : Decidable (env.badRegmap port) :=
  decidable_of_iff _ (exists_regmapType_iff _).symm

/-- The phy cannot be registered, allocated or connected. -/
def attachFails : Bool :=
  env.fixedPhy.isSome || !env.kzalloc || env.connect.isSome

/-- The first step of the port which fails, if one does. -/
def fault : Option Fault :=
  if env.alloc = false then some .alloc
  else if env.nullRegmap port then some .regmap
  else if env.n5010HssiCreateRegmap port .mac ≠ .valid then some .oops
  else if (ethtoolReset env .valid).isSome then some .reset
  else if env.register.isSome then some .register
  else if env.attachFails then some .attach
  else none

end PortEnv

/-- A device which is in use. -/
def up : NetDevice := ⟨true, true, true, false⟩

/-- A device which is unregistered, and so is freed. -/
def down : NetDevice := ⟨true, false, false, true⟩

/-- What a port leaves behind. -/
structure Leaves (priv last : Drvdata) (port : Nat)
    (netdev : Option NetDevice) (stray : Prop) (regmapFailed : Prop) : Prop where
  netdev : last.netdev = Function.update priv.netdev port netdev
  stray : last.stray = true ↔ stray
  regmapFailed : last.regmapFailed = true ↔ regmapFailed

/-- What comes of a port, by the step which fails. -/
inductive Created (env : PortEnv) (port : Nat) (priv : Drvdata) :
    Option Fault → Outcome → Prop where
  | done (last : Drvdata)
      (leaves : Leaves priv last port (some up) (priv.stray = true)
        (priv.regmapFailed = true ∨ env.badRegmap port)) :
      Created env port priv none (.ok (), last)
  | alloc (ret : Errno) (last : Drvdata)
      (leaves : Leaves priv last port none (priv.stray = true)
        (priv.regmapFailed = true)) :
      Created env port priv (some .alloc) (.error (.errno ret), last)
  | oops (last : Drvdata) (regmapFailed : last.regmapFailed = true) :
      Created env port priv (some .oops) (.error .oops, last)
  | attach (ret : Errno) (last : Drvdata)
      (leaves : Leaves priv last port (some down) (priv.stray = true)
        (priv.regmapFailed = true ∨ env.badRegmap port)) :
      Created env port priv (some .attach) (.error (.errno ret), last)
  /-- A device which is not registered is unregistered. -/
  | stray (fault : Fault) (ret : Errno) (last : Drvdata)
      (other : fault ≠ .alloc ∧ fault ≠ .oops ∧ fault ≠ .attach)
      (stray : last.stray = true) :
      Created env port priv (some fault) (.error (.errno ret), last)

theorem errUnregNetdev_created {env : PortEnv} {port : Nat}
    {priv : Drvdata} {fault : Fault} {middle : Drvdata} {netdev : NetDevice}
    (ret : Errno)
    (other : fault ≠ .alloc ∧ fault ≠ .oops ∧ fault ≠ .attach)
    (there : middle.netdev port = some netdev)
    (unregistered : netdev.registered = false) :
    Created env port priv (some fault) (errUnregNetdev port ret middle) := by
  refine .stray fault ret _ other ?_
  simp only [Drvdata.unregisterNetdev, there, unregistered,
    Bool.false_eq_true, if_false]

theorem withRegmap_of_null {env : PortEnv} {port : Nat} {type : RegmapType}
    (null : env.n5010HssiCreateRegmap port type = .null) (priv : Drvdata)
    (next : Drvdata → Outcome) :
    withRegmap env port type priv next =
      errUnregNetdev port .enomem
        (priv.noteRegmap (env.n5010HssiCreateRegmap port type)) := by
  rw [withRegmap]
  exact if_pos null

theorem withRegmap_of_ne_null {env : PortEnv} {port : Nat}
    {type : RegmapType} (made : env.n5010HssiCreateRegmap port type ≠ .null)
    (priv : Drvdata) (next : Drvdata → Outcome) :
    withRegmap env port type priv next =
      next (priv.noteRegmap (env.n5010HssiCreateRegmap port type)) := by
  rw [withRegmap]
  exact if_neg made

/-- A register map which is `NULL` is noticed. -/
theorem withRegmap_null {env : PortEnv} {port : Nat}
    (null : env.nullRegmap port) (priv : Drvdata)
    (next : Drvdata → Outcome) :
    ∃ middle : Drvdata, middle.netdev = priv.netdev ∧
      (withRegmap env port .mac priv fun priv =>
        withRegmap env port .fec priv fun priv =>
        withRegmap env port .phy priv next) =
          errUnregNetdev port .enomem middle := by
  by_cases mac : env.n5010HssiCreateRegmap port .mac = .null
  · refine ⟨_, ?_, withRegmap_of_null mac _ _⟩
    rfl
  rw [withRegmap_of_ne_null mac]
  by_cases fec : env.n5010HssiCreateRegmap port .fec = .null
  · refine ⟨_, ?_, withRegmap_of_null fec _ _⟩
    rfl
  rw [withRegmap_of_ne_null fec]
  have phy : env.n5010HssiCreateRegmap port .phy = .null := by
    rcases (PortEnv.exists_regmapType_iff _).mp null with is | is | is
    · exact absurd is mac
    · exact absurd is fec
    · exact is
  refine ⟨_, ?_, withRegmap_of_null phy _ _⟩
  rfl

/-- One which is an error pointer is not. -/
theorem withRegmap_made {env : PortEnv} {port : Nat}
    (made : ¬ env.nullRegmap port) (priv : Drvdata)
    (next : Drvdata → Outcome) :
    (withRegmap env port .mac priv fun priv =>
      withRegmap env port .fec priv fun priv =>
      withRegmap env port .phy priv next) =
        next { priv with
          regmapFailed := priv.regmapFailed || env.badRegmap port } := by
  have valid (type : RegmapType) :
      env.n5010HssiCreateRegmap port type ≠ .null := fun null =>
    made ⟨type, null⟩
  have bad : decide (env.badRegmap port) =
      (decide (env.n5010HssiCreateRegmap port .mac ≠ .valid) ||
        (decide (env.n5010HssiCreateRegmap port .fec ≠ .valid) ||
          decide (env.n5010HssiCreateRegmap port .phy ≠ .valid))) := by
    rw [← Bool.decide_or, ← Bool.decide_or, decide_eq_decide]
    exact PortEnv.exists_regmapType_iff _
  rw [withRegmap_of_ne_null (valid .mac), withRegmap_of_ne_null (valid .fec),
    withRegmap_of_ne_null (valid .phy), bad]
  simp only [Drvdata.noteRegmap, Bool.or_assoc]

theorem n5010PhyAttach_spec (env : PortEnv) (port : Nat) (priv : Drvdata) :
    (env.attachFails = true → ∃ ret last,
      n5010PhyAttach env port priv = (some ret, last) ∧
        last.netdev = priv.netdev ∧ last.stray = priv.stray ∧
        last.regmapFailed = priv.regmapFailed) ∧
    (env.attachFails = false → ∃ last,
      n5010PhyAttach env port priv = (none, last) ∧
        last.netdev = Function.update priv.netdev port
          ((priv.netdev port).map fun netdev =>
            { netdev with attached := true }) ∧
        last.stray = priv.stray ∧
        last.regmapFailed = priv.regmapFailed) := by
  rw [PortEnv.attachFails, n5010PhyAttach]
  cases env.fixedPhy with
  | some ret => exact ⟨fun _ => ⟨ret, priv, rfl, rfl, rfl, rfl⟩, nofun⟩
  | none =>
  cases env.kzalloc with
  | false => exact ⟨fun _ => ⟨_, _, rfl, rfl, rfl, rfl⟩, nofun⟩
  | true =>
  cases env.connect with
  | some ret => exact ⟨fun _ => ⟨_, _, rfl, rfl, rfl, rfl⟩, nofun⟩
  | none => exact ⟨nofun, fun _ => ⟨_, rfl, rfl, rfl, rfl⟩⟩

/-- What comes of a port after its register maps. -/
theorem startNetdev_created {env : PortEnv} {port : Nat}
    {priv middle : Drvdata} (alloc : env.alloc = true)
    (made : ¬ env.nullRegmap port)
    (leaves : Leaves priv middle port (some n5010HssiInitNetdev)
      (priv.stray = true) (priv.regmapFailed = true ∨ env.badRegmap port)) :
    Created env port priv (env.fault port) (startNetdev env port middle) := by
  have there : middle.netdev port = some n5010HssiInitNetdev := by
    rw [leaves.netdev, Function.update_self]
  rw [PortEnv.fault, alloc, if_neg nofun, if_neg made, startNetdev]
  by_cases valid : env.n5010HssiCreateRegmap port .mac = .valid
  case neg =>
    have bad : middle.regmapFailed = true :=
      leaves.regmapFailed.mpr (.inr ⟨.mac, valid⟩)
    have oops : ethtoolReset env (env.n5010HssiCreateRegmap port .mac) =
        some .oops := by
      cases regmap : env.n5010HssiCreateRegmap port .mac with
      | valid => exact absurd regmap valid
      | null => rfl
      | errPtr ret => rfl
    rw [if_pos valid, oops]
    exact .oops _ bad
  rw [if_neg (not_not.mpr valid), valid]
  cases reset : ethtoolReset env .valid with
  | some stop =>
      rw [if_pos Option.isSome_some]
      obtain ⟨ret, rfl⟩ : ∃ ret, stop = .errno ret := by
        rw [ethtoolReset, Option.map_eq_some_iff] at reset
        obtain ⟨ret, -, same⟩ := reset
        exact ⟨ret, same.symm⟩
      exact errUnregNetdev_created ret (by decide) there rfl
  | none =>
  rw [if_neg nofun]
  dsimp only
  cases env.register with
  | some ret =>
      rw [if_pos Option.isSome_some]
      exact errUnregNetdev_created ret (by decide) there rfl
  | none =>
  rw [if_neg nofun]
  dsimp only
  obtain ⟨failed, attached⟩ := n5010PhyAttach_spec env port
    (middle.setNetdev port ((middle.netdev port).map fun netdev =>
      { netdev with registered := true }))
  rw [there] at failed attached ⊢
  cases fails : env.attachFails with
  | true =>
      -- the device is registered, so it is unregistered and freed
      obtain ⟨ret, last, attach, netdev, stray, regmapFailed⟩ := failed fails
      have registered : last.netdev port = some ⟨true, true, false, false⟩ := by
        rw [netdev]
        exact Function.update_self ..
      rw [if_pos rfl, attach]
      dsimp only
      rw [errUnregNetdev, Drvdata.unregisterNetdev, registered]
      refine .attach ret _ ⟨?_, ?_, ?_⟩
      · show Function.update last.netdev port (some down) = _
        rw [netdev, Drvdata.setNetdev, leaves.netdev, Function.update_idem,
          Function.update_idem]
      · exact (Bool.coe_iff_coe.mpr stray).trans leaves.stray
      · exact (Bool.coe_iff_coe.mpr regmapFailed).trans leaves.regmapFailed
  | false =>
      obtain ⟨last, attach, netdev, stray, regmapFailed⟩ := attached fails
      rw [if_neg nofun, attach]
      refine .done _ ⟨?_, ?_, ?_⟩
      · rw [netdev, Drvdata.setNetdev, leaves.netdev, Function.update_idem,
          Function.update_idem]
        dsimp only
        rw [Function.update_self]
        rfl
      · exact (Bool.coe_iff_coe.mpr stray).trans leaves.stray
      · exact (Bool.coe_iff_coe.mpr regmapFailed).trans leaves.regmapFailed

theorem n5010HssiCreateNetdev_created (env : PortEnv) (port : Nat)
    (priv : Drvdata) :
    Created env port priv (env.fault port)
      (n5010HssiCreateNetdev env port priv) := by
  cases alloc : env.alloc with
  | false =>
      rw [n5010HssiCreateNetdev, PortEnv.fault, alloc, if_pos rfl]
      exact .alloc _ _ ⟨rfl, Iff.rfl, Iff.rfl⟩
  | true =>
  rw [n5010HssiCreateNetdev, alloc, if_neg nofun]
  by_cases null : env.nullRegmap port
  · obtain ⟨middle, netdev, isErr⟩ := withRegmap_null null
      (priv.setNetdev port (some n5010HssiInitNetdev)) (startNetdev env port)
    rw [PortEnv.fault, alloc, if_neg nofun, if_pos null, isErr]
    refine errUnregNetdev_created _ (by decide) ?_
      (rfl : n5010HssiInitNetdev.registered = false)
    rw [netdev]
    exact Function.update_self ..
  · rw [withRegmap_made null]
    refine startNetdev_created alloc null ⟨rfl, Iff.rfl, ?_⟩
    rw [Bool.or_eq_true, decide_eq_true_iff]
    rfl

/-! ## All ports -/

/-- The ports below are in use, and nothing else is there. -/
structure Ready (env : Nat → PortEnv) (below : Nat) (priv : Drvdata) :
    Prop where
  netdev : ∀ port, priv.netdev port = if port < below then some up else none
  stray : priv.stray = false
  regmapFailed : priv.regmapFailed = true ↔
    ∃ port < below, (env port).badRegmap port

theorem Ready.next {env : Nat → PortEnv} {port : Nat} {priv last : Drvdata}
    (ready : Ready env port priv)
    (leaves : Leaves priv last port (some up) (priv.stray = true)
      (priv.regmapFailed = true ∨ (env port).badRegmap port)) :
    Ready env (port + 1) last where
  netdev other := by
    rw [leaves.netdev]
    by_cases same : other = port
    · subst same
      rw [Function.update_self, if_pos (Nat.lt_succ_self other)]
    · have below : other < port + 1 ↔ other < port := by omega
      rw [Function.update_of_ne same, ready.netdev, if_congr below rfl rfl]
  stray := by
    have isStray := leaves.stray
    rw [ready.stray] at isStray
    exact Bool.eq_false_iff.mpr fun stray => nomatch isStray.mp stray
  regmapFailed := by
    rw [leaves.regmapFailed, ready.regmapFailed]
    constructor
    · rintro (⟨other, below, bad⟩ | bad)
      · exact ⟨other, Nat.lt_succ_of_lt below, bad⟩
      · exact ⟨port, Nat.lt_succ_self port, bad⟩
    · rintro ⟨other, below, bad⟩
      rcases Nat.lt_succ_iff_lt_or_eq.mp below with below | rfl
      · exact .inl ⟨other, below, bad⟩
      · exact .inr bad

/-- All ports are set up, or the loop ends at the first which fails. -/
theorem createNetdevs_cases (env : Nat → PortEnv) (left port : Nat)
    (priv : Drvdata) (ready : Ready env port priv)
    (before : ∀ other < port, (env other).fault other = none) :
    (∃ last, createNetdevs env left port priv = (.ok (), last) ∧
      Ready env (port + left) last ∧
      ∀ other < port + left, (env other).fault other = none) ∨
    ∃ failing fault reached, failing < port + left ∧
      (env failing).fault failing = some fault ∧
      (∀ other < failing, (env other).fault other = none) ∧
      Ready env failing reached ∧
      Created (env failing) failing reached (some fault)
        (createNetdevs env left port priv) := by
  induction left generalizing port priv with
  | zero => exact .inl ⟨priv, rfl, ready, before⟩
  | succ left ih =>
      have created := n5010HssiCreateNetdev_created (env port) port priv
      rw [createNetdevs, ← Nat.add_assoc, Nat.add_right_comm]
      cases fault : (env port).fault port with
      | none =>
          rw [fault] at created
          generalize n5010HssiCreateNetdev (env port) port priv = outcome
            at created
          obtain ⟨last, leaves⟩ := created
          refine ih (port + 1) last (ready.next leaves) fun other below => ?_
          rcases Nat.lt_succ_iff_lt_or_eq.mp below with below | rfl
          · exact before other below
          · exact fault
      | some fails =>
          refine .inr ⟨port, fails, priv, by omega, fault, before, ready, ?_⟩
          rw [fault] at created
          generalize n5010HssiCreateNetdev (env port) port priv = outcome
            at created ⊢
          cases created with
          | alloc ret last leaves => exact .alloc ret last leaves
          | oops last regmapFailed => exact .oops last regmapFailed
          | attach ret last leaves => exact .attach ret last leaves
          | stray _ ret last other stray =>
              exact .stray fails ret last other stray

/-! ## The probe -/

/-- What a probe which fails is to leave behind. -/
structure RollsBack (outcome : Outcome) : Prop where
  /-- No device is registered or attached, and all are freed. -/
  netdev : ∀ ret, outcome.1 = .error (.errno ret) →
    ∀ port netdev, outcome.2.netdev port = some netdev →
      netdev.registered = false ∧ netdev.attached = false ∧
        netdev.freed = true
  /-- Only devices which were registered have been unregistered. -/
  unregistered : ∀ ret, outcome.1 = .error (.errno ret) →
    outcome.2.stray = false
  regmap : outcome.2.regmapFailed = true →
    ∃ ret, outcome.1 = .error (.errno ret)

/-- The probe fails before it comes to the ports. -/
def ProbeEnv.StopsEarly (env : ProbeEnv) : Prop :=
  env.phyMaster = false ∨ env.phyDev = false ∨ env.ioremap ≠ none ∨
    env.kzalloc = false

/-- When a probe leaves behind what it is to leave behind. -/
def ProbeEnv.Undone (env : ProbeEnv) : Prop :=
  env.StopsEarly ∨
    (∀ port < env.portCnt, (env.port port).fault port = none ∧
      ¬ (env.port port).badRegmap port) ∨
    (0 < env.portCnt ∧
      ((env.port 0).fault 0 = some .alloc ∨
        (env.port 0).fault 0 = some .attach))

theorem rollsBack_of_nothing {outcome : Outcome} {ret : Errno}
    (fails : outcome.1 = .error (.errno ret))
    (netdev : ∀ port, outcome.2.netdev port = none)
    (stray : outcome.2.stray = false) : RollsBack outcome where
  netdev _ _ port _ there := nomatch (netdev port).symm.trans there
  unregistered _ _ := stray
  regmap _ := ⟨ret, fails⟩

theorem rollsBack_errPhyDev (outcome : Outcome) :
    RollsBack (errPhyDev outcome) ↔ RollsBack outcome :=
  ⟨fun ⟨netdev, unregistered, regmap⟩ => ⟨netdev, unregistered, regmap⟩,
    fun ⟨netdev, unregistered, regmap⟩ => ⟨netdev, unregistered, regmap⟩⟩

theorem rollsBack_endProbe (outcome : Outcome) :
    RollsBack (endProbe outcome) ↔ RollsBack outcome := by
  obtain ⟨(_ | _) | _, last⟩ := outcome
  · exact rollsBack_errPhyDev _
  · exact Iff.rfl
  · exact rollsBack_errPhyDev _

/-- A failure at the first port which fails, when all before it are in use. -/
theorem Created.rollsBack_iff_first {env : Nat → PortEnv} {failing : Nat}
    {fault : Fault} {reached : Drvdata} {outcome : Outcome}
    (ready : Ready env failing reached)
    (created : Created (env failing) failing reached (some fault) outcome) :
    RollsBack outcome ↔
      failing = 0 ∧ (fault = .alloc ∨ fault = .attach) := by
  -- the first port stays registered when a later one fails
  have first {netdev : Option NetDevice} {ret : Errno} {last : Drvdata}
      (same : last.netdev = Function.update reached.netdev failing netdev)
      (undone : RollsBack (.error (.errno ret), last)) : failing = 0 := by
    by_contra later
    have there : last.netdev 0 = some up := by
      rw [same, Function.update_of_ne (Ne.symm later), ready.netdev,
        if_pos (Nat.pos_of_ne_zero later)]
    exact nomatch (undone.netdev ret rfl 0 up there).1
  have notStray {last : Drvdata}
      (stray : last.stray = true ↔ reached.stray = true) :
      last.stray = false := by
    rw [ready.stray] at stray
    exact Bool.eq_false_iff.mpr fun isStray => nomatch stray.mp isStray
  cases created with
  | alloc ret last leaves =>
      refine ⟨fun undone => ⟨first leaves.netdev undone, .inl rfl⟩, ?_⟩
      rintro ⟨rfl, -⟩
      refine rollsBack_of_nothing rfl (fun port => ?_) (notStray leaves.stray)
      rw [leaves.netdev, Function.update_apply, ready.netdev]
      simp
  | oops last regmapFailed =>
      refine ⟨fun undone => ?_, fun meets => nomatch meets.2⟩
      obtain ⟨ret, isErr⟩ := undone.regmap regmapFailed
      cases isErr
  | attach ret last leaves =>
      refine ⟨fun undone => ⟨first leaves.netdev undone, .inr rfl⟩, ?_⟩
      rintro ⟨rfl, -⟩
      refine ⟨fun _ _ port netdev there => ?_, fun _ _ =>
        notStray leaves.stray, fun _ => ⟨ret, rfl⟩⟩
      rw [leaves.netdev, Function.update_apply, ready.netdev] at there
      by_cases same : port = 0
      · rw [if_pos same] at there
        cases there
        exact ⟨rfl, rfl, rfl⟩
      · rw [if_neg same, if_neg (Nat.not_lt_zero port)] at there
        cases there
  | stray _ ret last other stray =>
      refine ⟨fun undone => ?_, fun meets => ?_⟩
      · exact nomatch stray.symm.trans (undone.unregistered ret rfl)
      · exact (meets.2.elim other.1 other.2.2).elim

/--
The probe leaves nothing behind when it fails, and fails when a register map
cannot be made, if and only if it stops before the first port, or no step of
any port fails, or the first port fails where nothing is allocated or where
the device is registered.
-/
theorem rollsBack_iff (env : ProbeEnv) :
    RollsBack (n5010HssiProbe env) ↔ env.Undone := by
  rw [n5010HssiProbe]
  cases phyMaster : env.phyMaster with
  | false =>
      exact iff_of_true (rollsBack_of_nothing rfl (fun _ => rfl) rfl)
        (.inl (.inl phyMaster))
  | true =>
  cases phyDev : env.phyDev with
  | false =>
      exact iff_of_true (rollsBack_of_nothing rfl (fun _ => rfl) rfl)
        (.inl (.inr (.inl phyDev)))
  | true =>
  cases ioremap : env.ioremap with
  | some ret =>
      refine iff_of_true (rollsBack_of_nothing rfl (fun _ => rfl) rfl)
        (.inl (.inr (.inr (.inl ?_))))
      rw [ioremap]
      nofun
  | none =>
  cases kzalloc : env.kzalloc with
  | false =>
      exact iff_of_true (rollsBack_of_nothing rfl (fun _ => rfl) rfl)
        (.inl (.inr (.inr (.inr kzalloc))))
  | true =>
  have goesOn : ¬ env.StopsEarly := by
    rw [ProbeEnv.StopsEarly, phyMaster, phyDev, ioremap, kzalloc]
    simp
  let found : Drvdata :=
    { Drvdata.initial with phyMasterRefs := 1, phyDevRefs := 1 }
  have ready : Ready env.port 0 found :=
    ⟨fun _ => rfl, rfl, iff_of_false nofun fun ⟨_, below, _⟩ => nomatch below⟩
  change RollsBack (endProbe (createNetdevs env.port env.portCnt 0 found)) ↔ _
  rw [rollsBack_endProbe, ProbeEnv.Undone, or_iff_right goesOn]
  rcases createNetdevs_cases env.port env.portCnt 0 found ready nofun with
    ⟨last, outcome, ready, faultless⟩ |
    ⟨failing, fault, reached, inside, fails, before, ready, created⟩
  · rw [Nat.zero_add] at ready faultless
    rw [outcome]
    constructor
    · intro undone
      refine .inl fun port below => ⟨faultless port below, fun bad => ?_⟩
      obtain ⟨ret, isErr⟩ :=
        undone.regmap (ready.regmapFailed.mpr ⟨port, below, bad⟩)
      cases isErr
    · rintro (none | ⟨some, first⟩)
      · refine ⟨nofun, nofun, fun bad => ?_⟩
        obtain ⟨port, below, bad⟩ := ready.regmapFailed.mp bad
        exact absurd bad (none port below).2
      · rw [faultless 0 some] at first
        rcases first with first | first <;> cases first
  · rw [Nat.zero_add] at inside
    rw [created.rollsBack_iff_first ready]
    constructor
    · rintro ⟨rfl, first⟩
      refine .inr ⟨inside, ?_⟩
      rwa [fails, Option.some_inj, Option.some_inj]
    · rintro (none | ⟨some, first⟩)
      · exact nomatch fails.symm.trans (none failing inside).1
      · have isFirst : failing = 0 := by
          by_contra later
          rw [before 0 (Nat.pos_of_ne_zero later)] at first
          rcases first with first | first <;> cases first
        subst isFirst
        rw [fails, Option.some_inj, Option.some_inj] at first
        exact ⟨rfl, first⟩

/-- Two ports whose set-up fails nowhere. -/
def working : PortEnv where
  alloc := true
  regmap _ := ⟨true, none⟩
  txClear := ⟨none, none, none⟩
  rxClear := ⟨none, none, none⟩
  register := none
  fixedPhy := none
  kzalloc := true
  connect := none

def twoPorts (port : Nat → PortEnv) : ProbeEnv where
  phyMaster := true
  phyDev := true
  ioremap := none
  capability := 2#64 <<< 40
  kzalloc := true
  port := port

/--
A device which cannot be registered; a second device which cannot be
attached; and an error pointer for a register map of the second device.
-/
theorem twoPorts_notRollsBack :
    ¬ RollsBack (n5010HssiProbe
        (twoPorts fun _ => { working with register := some .enomem })) ∧
      ¬ RollsBack (n5010HssiProbe (twoPorts fun port =>
        if port = 0 then working else { working with kzalloc := false })) ∧
      ¬ RollsBack (n5010HssiProbe (twoPorts fun port =>
        if port = 0 then working
        else { working with regmap := fun config =>
          ⟨true, if config.valBits = 32 then none else some .einval⟩ })) := by
  refine ⟨fun undone => ?_, fun undone => ?_, fun undone => ?_⟩
  · exact absurd (undone.unregistered .enomem rfl) (by decide)
  · exact absurd (undone.netdev .enomem rfl 0 up rfl).1 (by decide)
  · obtain ⟨ret, isErr⟩ := undone.regmap (by decide)
    exact nomatch isErr

/-! ## Removal -/

/-- The ports below are unregistered, and the others in use. -/
structure Removed (below portCnt : Nat) (priv : Drvdata) : Prop where
  netdev : ∀ port, priv.netdev port =
    if port < below then some down
    else if port < portCnt then some up else none
  stray : priv.stray = false

theorem Removed.next {port portCnt : Nat} {priv : Drvdata}
    (removed : Removed port portCnt priv) (inside : port < portCnt) :
    Removed (port + 1) portCnt
      ((n5010PhyDetach port priv).unregisterNetdev port) := by
  have there : priv.netdev port = some up := by
    rw [removed.netdev, if_neg (Nat.lt_irrefl port), if_pos inside]
  have detached : (n5010PhyDetach port priv).netdev =
      Function.update priv.netdev port (some ⟨true, true, false, false⟩) := by
    rw [n5010PhyDetach, there]
    rfl
  have unregistered : (n5010PhyDetach port priv).unregisterNetdev port =
      (n5010PhyDetach port priv).setNetdev port (some down) := by
    rw [Drvdata.unregisterNetdev, detached, Function.update_self]
    rfl
  rw [unregistered]
  refine ⟨fun other => ?_, removed.stray⟩
  show Function.update (n5010PhyDetach port priv).netdev port _ other = _
  rw [detached, Function.update_idem]
  by_cases same : other = port
  · subst same
    rw [Function.update_self, if_pos (Nat.lt_succ_self other)]
  · have below : other < port + 1 ↔ other < port := by omega
    rw [Function.update_of_ne same, removed.netdev, if_congr below rfl rfl]

theorem removeNetdevs_removed (left port : Nat) (priv : Drvdata)
    (removed : Removed port (port + left) priv) :
    Removed (port + left) (port + left) (removeNetdevs left port priv) := by
  induction left generalizing port priv with
  | zero => exact removed
  | succ left ih =>
      have next := removed.next (Nat.lt_add_of_pos_right (Nat.succ_pos left))
      rw [← Nat.add_assoc, Nat.add_right_comm] at next ⊢
      exact ih (port + 1) _ next

/-- Removal gives back all that a probe has set up. -/
theorem n5010HssiRemove_removed (env : ProbeEnv) {priv : Drvdata}
    (ready : Ready env.port env.portCnt priv) :
    Removed env.portCnt env.portCnt (n5010HssiRemove env priv) := by
  have removed : Removed 0 (0 + env.portCnt) priv := by
    refine ⟨fun port => ?_, ready.stray⟩
    rw [if_neg (Nat.not_lt_zero port), Nat.zero_add, ready.netdev]
  have all := removeNetdevs_removed env.portCnt 0 priv removed
  rwa [Nat.zero_add] at all

end LinuxDfl.Net.Hssi

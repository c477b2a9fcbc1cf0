import LinuxDfl.Dfl.Rules

/-!
# Rules for the walk over a list

What each function of the walk needs in order to lead from one assertion to the
next, and the rule for its loop.
-/

namespace LinuxDfl.Dfl

open LinuxDfl.Kernel
open LinuxDfl.Lib.Traced
open LinuxDfl.Lib.Traced.Program

variable {platform : Platform} {quiet : Event → Prop} {kept : BuildAssertion}

/-! ## Committing a device -/

/-- The features of a device, from this index of its resources on. -/
def filledFeatures (platform : Platform) :
    Nat → List DflFeatureInfo → List DflFeature
  | _, [] => []
  | resIdx, finfo :: rest =>
      fillFeature platform finfo resIdx ::
        filledFeatures platform
          (if isHeaderFeature finfo.fid then resIdx else resIdx + 1) rest

/-- The resources of a device. -/
def filledResources (finfos : List DflFeatureInfo) : List Resource :=
  (finfos.filter fun finfo => ¬ isHeaderFeature finfo.fid).map
    DflFeatureInfo.mmioRes

/-- The data of the device which is being built. -/
def featureDevData (platform : Platform) (binfo : BuildFeatureDevsInfo) :
    DflFeatureDevData :=
  let features := filledFeatures platform 0 binfo.subFeatures
  let resources := filledResources binfo.subFeatures
  { type := binfo.type
    num := binfo.featureNum
    features :=
      features ++
        List.replicate (binfo.featureNum - binfo.subFeatures.length)
          zeroFeature
    resourceNum := resources.length
    resources :=
      resources ++
        List.replicate (binfo.featureNum - resources.length) default }

theorem Stable.keeps_fillFeatures (stable : Stable quiet kept)
    (resIdx : Nat) (finfos : List DflFeatureInfo) :
    Triple kept (fillFeatures platform resIdx finfos)
      (fun filled past state =>
        kept past state ∧
          filled =
            (filledFeatures platform resIdx finfos, filledResources finfos))
      kept := by
  induction finfos generalizing resIdx with
  | nil => exact Triple.ret fun _ _ holds => ⟨holds, rfl⟩
  | cons finfo rest ih =>
      refine Keeps.bind (stable.keeps_allocSome _) fun _ => ?_
      refine Keeps.bind ?_ fun _ => ?_
      · split
        · exact stable.keeps_call
        · exact keeps_ret ()
      refine Keeps.bind (stable.keeps_allocSome _) fun _ => ?_
      refine Triple.bind (ih _) fun filled => Triple.ret fun past state holds => ?_
      obtain ⟨holds, rfl⟩ := holds
      refine ⟨holds, Prod.ext rfl ?_⟩
      by_cases header : isHeaderFeature finfo.fid <;>
        simp [filledResources, header]

/-- What is left of the build information when its device is committed. -/
def BuildFeatureDevsInfo.committed (binfo : BuildFeatureDevsInfo) :
    BuildFeatureDevsInfo :=
  { binfo with subFeatures := [], type := .max }

section Stable

variable (stable : Stable quiet kept)

include stable

theorem Stable.keeps_featureDevRegister :
    Keeps kept (featureDevRegister platform) :=
  Keeps.bind stable.keeps_alloc fun _ =>
    Keeps.bind stable.keeps_call fun _ =>
      Keeps.bind stable.keeps_call fun _ => stable.keeps_call

/-- The data of the device is built while its features are given up. -/
def Cleared (platform : Platform) (kept : BuildAssertion)
    (fdata : DflFeatureDevData) : BuildAssertion :=
  fun past state =>
    ∃ before : Enumeration,
      kept past before ∧ before.binfo.type ≠ .max ∧
        state.header = before.header ∧
        state.binfo = { before.binfo with subFeatures := [] } ∧
        fdata = featureDevData platform before.binfo

theorem Stable.cleared (fdata : DflFeatureDevData) :
    Stable quiet (Cleared platform kept fdata) where
  event past state event isQuiet holds := by
    obtain ⟨before, holds, rest⟩ := holds
    exact ⟨before, stable.event past before event isQuiet holds, rest⟩
  state past state next binfo header holds := by
    obtain ⟨before, holds, detected, sameHeader, sameBinfo, data⟩ := holds
    exact ⟨before, holds, detected, header.trans sameHeader,
      binfo.trans sameBinfo, data⟩

theorem Stable.binfoCreateFeatureDevData_clears :
    Triple kept (binfoCreateFeatureDevData platform)
      (Cleared platform kept) kept := by
  refine Seen.triple fun seen => ?_
  have seenStable := stable.seen seen
  dsimp only
  split
  · exact Triple.fail fun _ _ => And.left
  · rename_i detected
    suffices builds :
        Triple (Seen kept seen) _ (Cleared platform kept) (Seen kept seen) from
      Seen.of_fails builds
    refine Keeps.bind seenStable.keeps_alloc fun _ => ?_
    refine Keeps.bind seenStable.keeps_alloc fun _ => ?_
    refine Keeps.bind seenStable.keeps_alloc fun _ => ?_
    refine Keeps.bind seenStable.keeps_call fun _ => ?_
    refine Keeps.bind seenStable.keeps_call fun _ => ?_
    refine Triple.bind (seenStable.keeps_fillFeatures _ _) fun filled => ?_
    refine Triple.updateBind (Triple.ret fun past state holds => ?_)
    obtain ⟨before, ⟨⟨holds, binfo, header⟩, rfl⟩, rfl⟩ := holds
    exact ⟨before, holds, binfo ▸ detected, rfl, rfl, by rw [binfo]; rfl⟩

/-- `build_info_commit_dev` commits the data of the device. -/
theorem Stable.buildInfoCommitDev_commits {after fails : BuildAssertion}
    (commits :
      ∀ past before next, kept past before → before.binfo.type ≠ .max →
        next.header = before.header → next.binfo = before.binfo.committed →
          after (past ++ [.committed (featureDevData platform before.binfo)])
            next)
    (failing : ∀ past before state, kept past before → fails past state) :
    Triple kept (buildInfoCommitDev platform) (fun _ => after) fails := by
  refine Triple.bind
    (stable.binfoCreateFeatureDevData_clears.of_fails fun past state holds =>
      failing past state state holds) fun fdata => ?_
  refine Triple.bind
    (Triple.of_fails (stable.cleared fdata).keeps_featureDevRegister
      fun past state holds => ?_) fun _ => ?_
  · obtain ⟨before, holds, -⟩ := holds
    exact failing past before state holds
  refine Triple.updateBind (Triple.updateBind (Triple.emit ?_))
  rintro past state ⟨_, ⟨cleared, holds, rfl⟩, rfl⟩
  obtain ⟨before, holds, detected, header, binfo, rfl⟩ := holds
  exact commits past before _ holds detected header
    (by simp [Enumeration.withBinfo, binfo, BuildFeatureDevsInfo.committed])

/-! ## Switching the window -/

omit stable in
/-- The build information for another window. -/
def BuildFeatureDevsInfo.prepared (binfo : BuildFeatureDevsInfo)
    (start len : Nat) : BuildFeatureDevsInfo :=
  { binfo with start := start, len := len, ioaddr := start }

/-- `build_info_prepare` changes the window. -/
theorem Stable.buildInfoPrepare_prepares {after : BuildAssertion}
    {start len : Nat}
    (prepares :
      ∀ past before next, kept past before → next.header = before.header →
        next.binfo = before.binfo.prepared start len → after past next) :
    Triple kept (buildInfoPrepare platform start len) (fun _ => after)
      kept := by
  refine Keeps.bind stable.keeps_answer fun ret => ?_
  cases ret with
  | some ret => exact keeps_fail _
  | none =>
      refine Keeps.bind stable.keeps_alloc fun _ => ?_
      exact Triple.update fun past state holds =>
        prepares past state _ holds rfl rfl

omit stable in
/-- The build information after the device of another FIU is committed. -/
def BuildFeatureDevsInfo.switched (binfo : BuildFeatureDevsInfo)
    (ofst : Nat) : BuildFeatureDevsInfo :=
  binfo.committed.prepared (Word.add 64 binfo.start ofst)
    (Word.sub 64 binfo.len ofst)

theorem Stable.switchFiu_switches {after fails : BuildAssertion} {ofst : Nat}
    (undetected :
      ∀ past state, kept past state → state.binfo.type = .max →
        after past state)
    (switches :
      ∀ past before next, kept past before → before.binfo.type ≠ .max →
        next.header = before.header →
        next.binfo = before.binfo.switched ofst →
          after (past ++ [.committed (featureDevData platform before.binfo)])
            next)
    (failing : ∀ past before state, kept past before → fails past state)
    (failed : ∀ past before state, after past before → fails past state) :
    Triple kept (switchFiu platform ofst) (fun _ => after) fails := by
  refine Triple.withState fun seen => ?_
  split
  · rename_i detected
    let committed : BuildAssertion := fun past state =>
      state.binfo = seen.binfo.committed ∧
        ∀ next : Enumeration, next.header = state.header →
          next.binfo = seen.binfo.switched ofst → after past next
    have stableCommitted : Stable (fun _ => False) committed :=
      { event := fun _ _ _ impossible => impossible.elim
        state := fun past state next binfo header holds =>
          ⟨binfo.trans holds.1, fun later same =>
            holds.2 later (same.trans header)⟩ }
    have commits :
        Triple (Seen kept seen) (buildInfoCommitDev platform)
          (fun _ => committed) fails := by
      refine (stable.seen seen).buildInfoCommitDev_commits ?_
        fun past before state holds => failing past before state holds.1
      intro past before next holds detected header binfo
      obtain ⟨holds, sameBinfo, -⟩ := holds
      rw [sameBinfo] at binfo
      refine ⟨binfo, fun later same switched => ?_⟩
      exact switches past before later holds detected (same.trans header)
        (sameBinfo ▸ switched)
    refine Triple.bind
      (commits.of_pre fun past state holds =>
        ⟨holds.1, congrArg _ holds.2, congrArg _ holds.2⟩) fun _ => ?_
    refine Triple.of_fails (stableCommitted.buildInfoPrepare_prepares ?_) ?_
    · intro past before next holds header binfo
      refine holds.2 next header ?_
      rw [binfo, holds.1]
      rfl
    · intro past state holds
      exact failed past
        { state with binfo := seen.binfo.switched ofst } state
        (holds.2 _ rfl rfl)
  · rename_i notDetected
    refine Triple.of_fails (Triple.ret fun past state holds => ?_)
      fun past state holds => failing past state state holds
    exact undetected past state holds.1
      (holds.2 ▸ not_ne_iff.mp notDetected)

end Stable

/-! ## Features -/

variable {pre after fails : BuildAssertion}

theorem parseFeatureAfu_rule {ofst : Nat}
    (ignores : ∀ past state, pre past state → after past state)
    (failing : ∀ past state, pre past state → fails past state)
    (creates :
      ∀ seen : Enumeration, seen.binfo.type = .port →
        Triple (fun past state => pre past state ∧ state = seen)
          (parseFeaturePortAfu platform ofst) (fun _ => after) fails) :
    Triple pre (parseFeatureAfu platform ofst) (fun _ => after) fails := by
  refine Triple.withState fun seen => ?_
  split
  · exact Triple.fail fun past state holds => failing past state holds.1
  · exact creates seen ‹_›
  · exact Triple.ret fun past state holds => ignores past state holds.1

theorem readBind {Value : Type} {address : Int}
    {rest : BitVec 64 → Build Value} {post : Value → BuildAssertion}
    (between : BuildAssertion)
    (reads :
      ∀ past state, pre past state → between (past ++ [.read address]) state)
    (next : Triple between (rest (platform.reg address)) post fails) :
    Triple pre (readq platform address >>= rest) post fails := by
  intro past state initial
  have runs := next (past ++ [.read address]) state (reads past state initial)
  rwa [List.append_assoc] at runs

theorem emitBind {Value : Type} {event : Event} {rest : Unit → Build Value}
    {post : Value → BuildAssertion} (between : BuildAssertion)
    (emits : ∀ past state, pre past state → between (past ++ [event]) state)
    (next : Triple between (rest ()) post fails) :
    Triple pre (emit event >>= rest) post fails :=
  Triple.bind (Triple.emit emits) fun _ => next

/-- A register is read, and it is recorded what it decides. -/
theorem decideBind {Value : Type} {address header register : Int}
    {field : Field} {rest : BitVec 64 → Build Value}
    {post : Value → BuildAssertion} (between : BuildAssertion)
    (reads :
      ∀ past state, pre past state →
        between
          (past ++ [.read address] ++
            [.decides field register address header]) state)
    (next : Triple between (rest (platform.reg address)) post fails) :
    Triple pre
      (readq platform address >>= fun value =>
        emit (.decides field register address header) >>= fun _ => rest value)
      post fails :=
  readBind
    (fun past state =>
      between (past ++ [.decides field register address header]) state)
    reads (emitBind between (fun _ _ => id) next)

/-- The device of an FIU is begun. -/
def BuildFeatureDevsInfo.begun (binfo : BuildFeatureDevsInfo)
    (type : DflIdType) : BuildFeatureDevsInfo :=
  { binfo with type := type, featureNum := 0, subFeatures := [] }

/-- The assertion, with registers and a header which have been read. -/
def Located (kept : BuildAssertion) (seen : Enumeration) : BuildAssertion :=
  fun past state =>
    kept past state ∧ state.binfo.ioaddr = seen.binfo.ioaddr ∧
      state.header = seen.header

theorem Stable.located (stable : Stable quiet kept) (seen : Enumeration) :
    Stable quiet (Located kept seen) where
  event past state event isQuiet holds :=
    ⟨stable.event past state event isQuiet holds.1, holds.2⟩
  state past state next binfo header holds := by
    refine ⟨stable.state past state next binfo header holds.1, ?_, ?_⟩
    · rw [binfo]
      exact holds.2.1
    · rw [header]
      exact holds.2.2

/-- Where registers and header are stays so when a feature is created. -/
theorem Stable.located_createFeatureInstance (stable : Stable quiet kept)
    (reads : ∀ address, quiet (.read address)) {ofst : Nat}
    (accepts : Accepts kept ofst) {fid : Nat}
    (decides : fid ≠ featureIdAfu → Decides kept ofst) (size : Nat)
    (seen : Enumeration) :
    Keeps (Located kept seen)
      (createFeatureInstance platform ofst size fid) := by
  refine (stable.located seen).keeps_createFeatureInstance reads ?_
    (fun notAfu => ?_) size
  · intro past state finfo placement holds placed
    exact ⟨accepts past state finfo placement holds.1 placed, holds.2⟩
  · intro past state field isField holds
    exact ⟨decides notAfu past state field isField holds.1, holds.2⟩

/-- `parse_feature_afu` keeps what allows for every feature. -/
theorem Stable.keeps_parseFeatureAfu (stable : Stable quiet kept)
    (reads : ∀ address, quiet (.read address)) {ofst : Nat}
    (accepts : Accepts kept ofst) :
    Keeps kept (parseFeatureAfu platform ofst) := by
  refine parseFeatureAfu_rule (fun _ _ => id) (fun _ _ => id)
    fun seen isPort => ?_
  refine Triple.of_pre ?_ fun _ _ => And.left
  refine Triple.anyState fun seen => ?_
  refine Keeps.bind (stable.keeps_readq (reads _)) fun value => ?_
  exact stable.keeps_createFeatureInstance reads accepts
    (fun notAfu => absurd rfl notAfu) _

/-- What assertions for an FIU need, from one of its parts to the next. -/
structure FiuRule (platform : Platform) (ofst : Nat)
    (pre switched identified started created found after fails :
      BuildAssertion) : Prop where
  switches : Triple pre (switchFiu platform ofst) (fun _ => switched) fails
  identifies : ∀ past state, switched past state →
    identified
      (past ++ [.read (state.binfo.ioaddr + dfh)] ++
        [.decides dfhId dfh (state.binfo.ioaddr + dfh) state.header]) state
  begins : ∀ past state, identified past state →
    ∀ type, type = dfhIdToType
        (dfhId.get (platform.reg (state.binfo.ioaddr + dfh))) → type ≠ .max →
      started (past ++ [.started (some state.header) 0])
        (state.withBinfo fun binfo => binfo.begun type)
  creates : ∀ seen,
    Triple (Located started seen) (createFeatureInstance platform 0 0 0)
      (fun _ => Located created seen) fails
  finds : ∀ past state, created past state →
    found
      (past ++ [.read (state.binfo.ioaddr + nextAfu)] ++
        [.decides nextAfuNextDfhOfst nextAfu (state.binfo.ioaddr + nextAfu)
          state.header]) state
  afu : ∀ offset,
    Triple
      (fun past state =>
        found past state ∧
          offset = nextAfuNextDfhOfst.get
            (platform.reg (state.binfo.ioaddr + nextAfu)) ∧ offset ≠ 0)
      (parseFeatureAfu platform offset) (fun _ => after) fails
  ends : ∀ past state, found past state → after past state
  failing : ∀ past state, identified past state → fails past state

theorem FiuRule.parseFeatureFiu
    {switched identified started created found : BuildAssertion} {ofst : Nat}
    (rule : FiuRule platform ofst pre switched identified started created
      found after fails) :
    Triple pre (parseFeatureFiu platform ofst) (fun _ => after) fails := by
  refine Triple.bind rule.switches fun _ => ?_
  refine Triple.withState fun seen => ?_
  refine decideBind
    (fun past state => identified past state ∧ state = seen) ?_ ?_
  · rintro past state ⟨holds, rfl⟩
    exact ⟨rule.identifies past state holds, rfl⟩
  dsimp only
  split
  · exact Triple.fail fun past state holds =>
      rule.failing past state holds.1
  rename_i known
  refine Triple.updateBind ?_
  refine emitBind (Located started seen) ?_ ?_
  · rintro past _ ⟨state, ⟨holds, rfl⟩, rfl⟩
    exact ⟨rule.begins past state holds _ rfl known, rfl, rfl⟩
  refine Triple.bind (rule.creates seen) fun _ => ?_
  refine decideBind
    (fun past state =>
      found past state ∧ state.binfo.ioaddr = seen.binfo.ioaddr) ?_ ?_
  · rintro past state ⟨holds, ioaddr, header⟩
    have finds := rule.finds past state holds
    rw [ioaddr, header] at finds
    exact ⟨finds, ioaddr⟩
  split
  · rename_i nonzero
    refine (rule.afu _).of_pre fun past state holds => ?_
    exact ⟨holds.1, by rw [holds.2], nonzero⟩
  · exact Triple.ret fun past state holds => rule.ends past state holds.1

/-- What is recorded when the version of a private feature is read. -/
def Enumeration.versionEvents (state : Enumeration) : List Event :=
  [.read (state.binfo.ioaddr + dfh),
    .decides dfhVersion dfh (state.binfo.ioaddr + dfh) state.header,
    .privateFeature state.binfo.type state.binfo.ioaddr]

/-- What an assertion for a private feature needs, between its parts. -/
structure PrivateRule (platform : Platform) (ofst : Nat)
    (pre parsing after fails : BuildAssertion) : Prop where
  versions : ∀ past state, pre past state →
    (dfhVersion.get (platform.reg (state.binfo.ioaddr + dfh)) ≠ 1 →
      (dfhVersion.get (platform.reg (state.binfo.ioaddr + dfh)) = 0 →
        state.binfo.type ≠ .max) →
      parsing (past ++ state.versionEvents) state) ∧
    (dfhVersion.get (platform.reg (state.binfo.ioaddr + dfh)) = 1 →
      parsing
        (past ++ state.versionEvents ++
          if state.binfo.type = .max then
            [.started none state.binfo.featureNum] else [])
        (state.withBinfo fun binfo => { binfo with type := .privFeat }))
  complains : ∀ past state, pre past state →
    dfhVersion.get (platform.reg (state.binfo.ioaddr + dfh)) = 0 →
      fails
        (past ++ state.versionEvents ++ [.read (state.binfo.ioaddr + ofst)])
        state
  creates :
    Triple parsing (createFeatureInstance platform ofst 0 0)
      (fun _ => after) fails

/-- What holds of the trace at these events from now on. -/
def Behind (kept : BuildAssertion) (events : List Event) : BuildAssertion :=
  fun past state => ∃ before, kept before state ∧ past = before ++ events

theorem PrivateRule.parseFeaturePrivate {parsing : BuildAssertion} {ofst : Nat}
    (rule : PrivateRule platform ofst pre parsing after fails) :
    Triple pre (parseFeaturePrivate platform ofst) (fun _ => after) fails := by
  refine Triple.withState fun seen => ?_
  let versioned := Behind (fun past state => pre past state ∧ state = seen)
    seen.versionEvents
  refine decideBind
    (fun past state =>
      versioned
        (past ++ [.privateFeature seen.binfo.type seen.binfo.ioaddr]) state)
    ?_ ?_
  · rintro past state ⟨holds, rfl⟩
    exact ⟨past, ⟨holds, rfl⟩, by
      simp only [Enumeration.versionEvents, List.append_assoc,
        List.cons_append, List.nil_append]⟩
  refine emitBind versioned (fun _ _ => id) ?_
  dsimp only
  split
  · rename_i undetected
    refine readBind (fun past state => fails past state) ?_
      (Triple.fail fun _ _ => id)
    rintro past state ⟨before, ⟨holds, rfl⟩, rfl⟩
    exact rule.complains before state holds undetected.1
  rename_i detected
  refine Triple.bind (?_ : Triple versioned _ (fun _ => parsing) fails)
    fun _ => rule.creates
  split
  · rename_i version
    unfold startPrivate
    refine Triple.bind (?_ : Triple versioned _ (fun _ past state =>
      parsing past
        (state.withBinfo fun binfo => { binfo with type := .privFeat }))
        fails) fun _ => Triple.update fun _ _ => id
    split
    · rename_i undetected
      refine Triple.emit ?_
      rintro past state ⟨before, ⟨holds, rfl⟩, rfl⟩
      have started := (rule.versions before state holds).2 version
      rwa [if_pos undetected] at started
    · rename_i present
      refine Triple.ret ?_
      rintro past state ⟨before, ⟨holds, rfl⟩, rfl⟩
      have started := (rule.versions before state holds).2 version
      rwa [if_neg present, List.append_nil] at started
  · rename_i version
    refine Triple.ret ?_
    rintro past state ⟨before, ⟨holds, rfl⟩, rfl⟩
    exact (rule.versions before state holds).1 version fun zero none =>
      detected ⟨zero, none⟩

/-! ## The loop -/

/-- The state in which the header at this offset is parsed. -/
def Enumeration.atHeader (state : Enumeration) (ofst : Nat) : Enumeration :=
  { state with header := state.binfo.ioaddr + ofst }

/-- What an assertion for a feature needs, whatever its type. -/
structure FeatureRule (platform : Platform) (ofst : Nat)
    (pre parsing after fails : BuildAssertion) : Prop where
  visits : ∀ past state, pre past state →
    parsing
      (past ++ [.visited state ofst] ++
        [.read (state.binfo.ioaddr + ofst + dfh)]) (state.atHeader ofst)
  afu : Triple
    (fun past state =>
      parsing past state ∧ state.header = state.binfo.ioaddr + ofst ∧
        dfhType.get (platform.reg (state.binfo.ioaddr + ofst + dfh)) =
          dfhTypeAfu)
    (parseFeatureAfu platform ofst) (fun _ => after) fails
  private_ : Triple
    (fun past state =>
      parsing past state ∧ state.header = state.binfo.ioaddr + ofst ∧
        dfhType.get (platform.reg (state.binfo.ioaddr + ofst + dfh)) =
          dfhTypePrivate)
    (parseFeaturePrivate platform ofst) (fun _ => after) fails
  fiu : Triple
    (fun past state =>
      parsing past state ∧ state.header = state.binfo.ioaddr + ofst ∧
        dfhType.get (platform.reg (state.binfo.ioaddr + ofst + dfh)) =
          dfhTypeFiu)
    (parseFeatureFiu platform ofst) (fun _ => after) fails
  ignores : ∀ past state, parsing past state →
    state.header = state.binfo.ioaddr + ofst →
    dfhType.get (platform.reg (state.binfo.ioaddr + ofst + dfh)) ≠
      dfhTypePrivate →
    dfhType.get (platform.reg (state.binfo.ioaddr + ofst + dfh)) ≠
      dfhTypeFiu → after past state

theorem FeatureRule.parseFeature {parsing : BuildAssertion} {ofst : Nat}
    (rule : FeatureRule platform ofst pre parsing after fails) :
    Triple pre (parseFeature platform ofst) (fun _ => after) fails := by
  refine Triple.withState fun seen => ?_
  refine emitBind (Behind (fun past state => pre past state ∧ state = seen)
    [.visited seen ofst]) (fun past _ holds => ⟨past, holds, rfl⟩) ?_
  refine Triple.updateBind ?_
  refine readBind
    (fun past state => parsing past state ∧ state = seen.atHeader ofst) ?_ ?_
  · rintro _ _ ⟨state, ⟨past, ⟨holds, rfl⟩, rfl⟩, rfl⟩
    exact ⟨rule.visits past state holds, rfl⟩
  have typed {program : Build Unit} {type : Nat}
      (triple : Triple
        (fun past state =>
          parsing past state ∧ state.header = state.binfo.ioaddr + ofst ∧
            dfhType.get (platform.reg (state.binfo.ioaddr + ofst + dfh)) =
              type) program (fun _ => after) fails)
      (isType :
        dfhType.get (platform.reg (seen.binfo.ioaddr + ofst + dfh)) = type) :
      Triple
        (fun past state => parsing past state ∧ state = seen.atHeader ofst)
        program (fun _ => after) fails := by
    refine triple.of_pre ?_
    rintro past state ⟨holds, rfl⟩
    exact ⟨holds, rfl, isType⟩
  dsimp only
  split
  · exact typed rule.afu ‹_›
  split
  · exact typed rule.private_ ‹_›
  rename_i notPrivate
  split
  · exact typed rule.fiu ‹_›
  rename_i notFiu
  refine Triple.ret ?_
  rintro past state ⟨holds, rfl⟩
  exact rule.ignores past _ holds rfl notPrivate notFiu

/--
What assertions for the walk over a list need: that it has arrived at a
position, and that the feature there has been parsed.
-/
structure ListRule (platform : Platform) (limit : Nat)
    (arrived parsed : Nat → BuildAssertion) (after fails : BuildAssertion) :
    Prop where
  parses : ∀ start, start < limit → dfhSize ≤ limit - start → ∀ seen,
    Triple (fun past state => arrived start past state ∧ state = seen)
      (parseFeature platform (Word.sub 64 start seen.binfo.start))
      (fun _ => parsed start) fails
  follows : ∀ start past state, parsed start past state →
    (∀ ofst,
      arrived (Word.add 64 start ofst)
        (past ++ [.read
          (state.binfo.ioaddr + Word.sub 64 start state.binfo.start + dfh)])
        state) ∧
      after
        (past ++ [.read
          (state.binfo.ioaddr + Word.sub 64 start state.binfo.start + dfh)])
        state
  ends : ∀ start past state, limit ≤ start → arrived start past state →
    after past state
  failing : ∀ start past state, arrived start past state → fails past state

theorem ListRule.parseFeatureListLoop {limit : Nat}
    {arrived parsed : Nat → BuildAssertion}
    (rule : ListRule platform limit arrived parsed after fails)
    (fuel start : Nat) :
    Triple (arrived start) (parseFeatureListLoop platform limit fuel start)
      (fun _ => after) fails := by
  induction fuel generalizing start with
  | zero => exact Triple.fail (rule.failing start)
  | succ fuel induction =>
      unfold LinuxDfl.Dfl.parseFeatureListLoop
      split
      · rename_i inside
        split
        · exact Triple.fail (rule.failing start)
        rename_i room
        refine Triple.withState fun seen => ?_
        refine Triple.bind (rule.parses start inside (Nat.le_of_not_lt room)
          seen) fun _ => ?_
        refine Triple.withState fun seen => ?_
        refine readBind
          (fun past state =>
            after past state ∧
              ∀ ofst, arrived (Word.add 64 start ofst) past state) ?_ ?_
        · rintro past state ⟨holds, rfl⟩
          have next := rule.follows start past state holds
          exact ⟨next.2, next.1⟩
        dsimp only
        split
        · exact Triple.ret fun _ _ => And.left
        · exact (induction _).of_pre fun past state holds => holds.2 _
      · rename_i beyond
        exact Triple.ret fun past state =>
          rule.ends start past state (Nat.le_of_not_lt beyond)

/-! ## Assertions about devices and features only -/

/-- Events which are not about a device, nor about an accepted feature. -/
def Event.Plain : Event → Prop
  | .read _ | .decides _ _ _ _ | .visited _ _ | .privateFeature _ _ => True
  | .started _ _ | .accepted _ _ | .committed _ => False

/-- An assertion which is kept by all that a walk does to its devices. -/
structure PlainWalk (platform : Platform) (limit : Nat)
    (kept : BuildAssertion) (safe : List Event → Prop) : Prop where
  event : ∀ past state event, event.Plain → kept past state →
    kept (past ++ [event]) state
  state : ∀ past state next, next.binfo = state.binfo → kept past state →
    kept past next
  accepts : ∀ ofst, Accepts kept ofst
  commits : ∀ past before next, kept past before → before.binfo.type ≠ .max →
    next.binfo = before.binfo.committed →
      kept (past ++ [.committed (featureDevData platform before.binfo)]) next
  switches : ∀ position, position < limit → ∀ past before next,
    kept past before → before.binfo.type ≠ .max →
      next.binfo =
          before.binfo.switched (Word.sub 64 position before.binfo.start) →
        kept (past ++ [.committed (featureDevData platform before.binfo)]) next
  begins : ∀ past state type, kept past state →
    kept (past ++ [.started (some state.header) 0])
      (state.withBinfo fun binfo => binfo.begun type)
  privates : ∀ past state, kept past state →
    kept
      (past ++
        if state.binfo.type = .max then
          [.started none state.binfo.featureNum] else [])
      (state.withBinfo fun binfo => { binfo with type := .privFeat })
  safe : ∀ past state, kept past state → safe past

namespace PlainWalk

variable {limit : Nat} {safe : List Event → Prop}
  (walk : PlainWalk platform limit kept safe)

include walk

theorem stable : Stable Event.Plain kept where
  event := walk.event
  state past state next binfo _ := walk.state past state next binfo

theorem events {past events : List Event} {state : Enumeration}
    (holds : kept past state) (plain : ∀ event ∈ events, event.Plain) :
    kept (past ++ events) state := by
  induction events generalizing past with
  | nil => rwa [List.append_nil]
  | cons event rest induction =>
      rw [List.append_cons]
      exact induction
        (walk.event past state event (plain event List.mem_cons_self) holds)
        fun other member => plain other (List.mem_cons_of_mem event member)

theorem decides (ofst : Nat) : Decides kept ofst :=
  fun past state _ _ => walk.event past state _ trivial

theorem ofFails {Value : Type} {program : Build Value}
    {pre : BuildAssertion} {post : Value → BuildAssertion}
    (triple : Triple pre program post kept) :
    Triple pre program post fun past _ => safe past :=
  triple.of_fails walk.safe

theorem parseFeatureAfu (ofst : Nat) :
    Triple kept (parseFeatureAfu platform ofst) (fun _ => kept)
      fun past _ => safe past :=
  walk.ofFails
    (walk.stable.keeps_parseFeatureAfu (fun _ => trivial) (walk.accepts ofst))

theorem switchFiu {position : Nat} (inside : position < limit) (ofst : Nat) :
    Triple
      (fun past state =>
        kept past state ∧ ofst = Word.sub 64 position state.binfo.start)
      (switchFiu platform ofst) (fun _ => kept) fun past _ => safe past := by
  have atOffset :
      Stable Event.Plain fun past state =>
        kept past state ∧ ofst = Word.sub 64 position state.binfo.start :=
    { event := fun past state event plain holds =>
        ⟨walk.event past state event plain holds.1, holds.2⟩
      state := fun past state next binfo _ holds =>
        ⟨walk.state past state next binfo holds.1, by
          rw [binfo]
          exact holds.2⟩ }
  refine atOffset.switchFiu_switches (fun _ _ holds _ => holds.1) ?_
    (fun past before _ holds => walk.safe past before holds.1)
    (fun past before _ => walk.safe past before)
  rintro past before next ⟨holds, rfl⟩ detected _ binfo
  exact walk.switches position inside past before next holds detected binfo

theorem parseFeatureFiu {position : Nat} (inside : position < limit)
    (ofst : Nat) :
    Triple
      (fun past state =>
        kept past state ∧ ofst = Word.sub 64 position state.binfo.start)
      (parseFeatureFiu platform ofst) (fun _ => kept)
      fun past _ => safe past := by
  refine FiuRule.parseFeatureFiu
    (?_ : FiuRule platform ofst _ kept kept kept kept kept _ _)
  exact
    { switches := walk.switchFiu inside ofst
      identifies := fun past state holds =>
        walk.event _ _ _ trivial (walk.event _ _ _ trivial holds)
      begins := fun past state holds type _ _ =>
        walk.begins past state type holds
      creates := fun seen =>
        (walk.stable.located_createFeatureInstance (fun _ => trivial)
          (walk.accepts 0) (fun _ => walk.decides 0) 0 seen).of_fails
          fun past state holds => walk.safe past state holds.1
      finds := fun past state holds =>
        walk.event _ _ _ trivial (walk.event _ _ _ trivial holds)
      afu := fun offset =>
        (walk.parseFeatureAfu offset).of_pre fun _ _ => And.left
      ends := fun _ _ => id
      failing := walk.safe }

theorem parseFeaturePrivate (ofst : Nat) :
    Triple kept (parseFeaturePrivate platform ofst) (fun _ => kept)
      fun past _ => safe past := by
  have versioned {past : List Event} {state : Enumeration}
      (holds : kept past state) :
      kept (past ++ state.versionEvents) state :=
    walk.events holds fun event member => by
      simp only [Enumeration.versionEvents, List.mem_cons, List.not_mem_nil,
        or_false] at member
      rcases member with rfl | rfl | rfl <;> trivial
  refine PrivateRule.parseFeaturePrivate
    (?_ : PrivateRule platform ofst _ kept _ _)
  exact
    { versions := fun past state holds =>
        ⟨fun _ _ => versioned holds,
          fun _ => walk.privates _ state (versioned holds)⟩
      complains := fun past state holds _ =>
        walk.safe _ _ (walk.event _ _ _ trivial (versioned holds))
      creates :=
        walk.ofFails
          (walk.stable.keeps_createFeatureInstance (fun _ => trivial)
            (walk.accepts ofst) (fun _ => walk.decides ofst) 0) }

theorem parseFeature {position : Nat} (inside : position < limit)
    (seen : Enumeration) :
    Triple (fun past state => kept past state ∧ state = seen)
      (parseFeature platform (Word.sub 64 position seen.binfo.start))
      (fun _ => kept) fun past _ => safe past := by
  refine FeatureRule.parseFeature
    (?_ : FeatureRule platform _ _
      (fun past state => kept past state ∧ state.binfo = seen.binfo) _ _)
  refine
    { visits := ?_
      afu := (walk.parseFeatureAfu _).of_pre fun _ _ holds => holds.1.1
      private_ := (walk.parseFeaturePrivate _).of_pre fun _ _ holds => holds.1.1
      fiu := (walk.parseFeatureFiu inside _).of_pre fun _ _ holds =>
        ⟨holds.1.1, by rw [holds.1.2]⟩
      ignores := fun _ _ holds _ _ _ => holds.1 }
  rintro past state ⟨holds, rfl⟩
  refine ⟨?_, rfl⟩
  exact walk.event _ _ _ trivial
    (walk.event _ _ _ trivial (walk.state past state _ rfl holds))

theorem parseFeatureListLoop (fuel start : Nat) :
    Triple kept (parseFeatureListLoop platform limit fuel start)
      (fun _ => kept) fun past _ => safe past := by
  refine ListRule.parseFeatureListLoop
    (?_ : ListRule platform limit (fun _ => kept) (fun _ => kept) _ _) fuel
    start
  exact
    { parses := fun start inside _ seen => walk.parseFeature inside seen
      follows := fun start past state holds =>
        ⟨fun _ => walk.event _ _ _ trivial holds,
          walk.event _ _ _ trivial holds⟩
      ends := fun _ _ _ _ => id
      failing := fun _ => walk.safe }

/-- The end of `parse_feature_list`. -/
theorem commitDetected :
    Triple kept
      (read >>= fun state =>
        if state.binfo.type ≠ .max then buildInfoCommitDev platform
        else pure ())
      (fun _ => kept) fun past _ => safe past := by
  refine Triple.anyState fun seen => ?_
  split
  · refine walk.stable.buildInfoCommitDev_commits ?_
      fun past before _ => walk.safe past before
    intro past before next holds detected _ binfo
    exact walk.commits past before next holds detected binfo
  · exact Triple.ret fun _ _ => id

end PlainWalk

end LinuxDfl.Dfl

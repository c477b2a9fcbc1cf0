import LinuxDfl.Dfl.ParamScan
import LinuxDfl.Lib.Extents

/-!
# The copy of the parameters

A feature of version 1 keeps a copy of its parameters.  This says what is
copied for a feature which is accepted, and when it is part of the feature.
-/

namespace LinuxDfl.Dfl

open LinuxDfl.Kernel
open LinuxDfl.Lib.Traced
open LinuxDfl.Lib.Traced.Program
open LinuxDfl.Lib.Extents

variable {platform : Platform}

/-! ## The size which is returned -/

section Size

variable {dfhBase : Int} {max : Nat}

/-- What is returned has been found behind a last block. -/
theorem dfhGetParamSizeLoop_last {fuel : Nat} {ofst size : Int}
    {state : Enumeration}
    (reaches : Looks max ofst → ParamReaches platform dfhBase max ofst)
    (returns : (dfhGetParamSizeLoop platform dfhBase max fuel ofst
      state).result = .ok size) :
    size = negEnoent ∨
      ∃ last, ParamReaches platform dfhBase max last ∧
        LastBlock (paramHdr platform dfhBase last) ∧
          size = behindBlock platform dfhBase last := by
  induction fuel generalizing ofst with
  | zero => cases returns
  | succ fuel ih =>
      by_cases looks : Looks max ofst
      · rw [dfhGetParamSizeLoop_looks looks] at returns
        by_cases last : LastBlock (paramHdr platform dfhBase ofst)
        · rw [if_pos last] at returns
          exact .inr ⟨ofst, reaches looks, last,
            (Except.ok.inj returns).symm⟩
        · rw [if_neg last] at returns
          exact ih ((reaches looks).behind last) returns
      · rw [dfhGetParamSizeLoop_beyond looks] at returns
        exact .inl (Except.ok.inj returns).symm

/-- From each block which is reached, the loop returns what it does at all. -/
theorem ParamReaches.returns {fuel : Nat} {ofst size : Int}
    {state : Enumeration} (reaches : ParamReaches platform dfhBase max ofst)
    (returns : (dfhGetParamSizeLoop platform dfhBase max fuel 0
      state).result = .ok size) :
    ∃ rounds, (dfhGetParamSizeLoop platform dfhBase max rounds ofst
      state).result = .ok size := by
  induction reaches using ParamReaches.blocks with
  | first => exact ⟨fuel, returns⟩
  | next ofst before notLast _ ih =>
      obtain ⟨rounds, rest⟩ := ih
      cases rounds with
      | zero => cases rest
      | succ rounds =>
          rw [dfhGetParamSizeLoop_looks before.looks, if_neg notLast] at rest
          exact ⟨rounds, rest⟩

theorem paramSizeOf_eq (platform : Platform) (dfhBase : Int) (max : Nat) :
    paramSizeOf platform dfhBase max =
      if HasParams platform dfhBase then
        (dfhGetParamSizeLoop platform dfhBase max platform.fuel 0
          (initialEnumeration 0)).result
      else .ok 0 := by
  have eq := dfhGetParamSize_eq platform dfhBase max platform.fuel
    (initialEnumeration 0)
  have result := congrArg Run.result eq
  refine result.trans ?_
  split_ifs <;> rfl

/-- A size which is not zero has been found behind a last block. -/
theorem exists_last {size : Int}
    (isSize : paramSizeOf platform dfhBase max = .ok size)
    (positive : 0 < size) :
    ∃ last, ParamReaches platform dfhBase max last ∧
      LastBlock (paramHdr platform dfhBase last) ∧
        size = behindBlock platform dfhBase last := by
  rw [paramSizeOf_eq] at isSize
  by_cases hasParams : HasParams platform dfhBase
  · rw [if_pos hasParams] at isSize
    rcases dfhGetParamSizeLoop_last (.first hasParams) isSize with
      notFound | found
    · rw [notFound] at positive
      exact absurd positive (by decide)
    · exact found
  · rw [if_neg hasParams] at isSize
    obtain rfl := Except.ok.inj isSize
    exact absurd positive (Int.lt_irrefl 0)

/-- Each last block which is reached is at the end of the parameters. -/
theorem ParamReaches.size_eq {last size : Int}
    (reaches : ParamReaches platform dfhBase max last)
    (isLast : LastBlock (paramHdr platform dfhBase last))
    (isSize : paramSizeOf platform dfhBase max = .ok size) :
    size = behindBlock platform dfhBase last := by
  rw [paramSizeOf_eq, if_pos reaches.hasParams] at isSize
  obtain ⟨rounds, returns⟩ := reaches.returns isSize
  cases rounds with
  | zero => cases returns
  | succ rounds =>
      rw [dfhGetParamSizeLoop_looks reaches.looks, if_pos isLast] at returns
      exact (Except.ok.inj returns).symm

end Size

/-! ## What is copied -/

/-- The registers from this address on. -/
def registers (platform : Platform) (address : Int) (count : Nat) :
    List (BitVec 64) :=
  (List.range count).map fun i : Nat => platform.reg (address + 8 * i)

theorem registers_succ (address : Int) (count : Nat) :
    registers platform address (count + 1) =
      platform.reg address :: registers platform (address + 8) count := by
  unfold registers
  rw [List.range_succ_eq_map, List.map_cons, List.map_map]
  refine congrArg₂ List.cons (by simp) (List.map_congr_left fun i _ => ?_)
  rw [Function.comp_apply, Nat.cast_succ, Int.mul_add, Int.mul_one,
    Int.add_comm (8 * (i : Int)) 8, ← Int.add_assoc]

theorem memcpyFromio_result (source : Int) (count : Nat)
    (state : Enumeration) :
    (memcpyFromio platform source count state).result =
      .ok (registers platform source count) := by
  induction count generalizing source state with
  | zero => rfl
  | succ count ih =>
      rw [memcpyFromio, bind_of_ok rfl, bind_of_ok (ih _ _),
        registers_succ]
      rfl

theorem steady_memcpyFromio (platform : Platform) (source : Int)
    (count : Nat) :
    Steady (memcpyFromio platform source count) := by
  induction count generalizing source with
  | zero => exact Steady.ret _
  | succ count ih =>
      exact (steady_readq platform _).bind fun _ =>
        (ih _).bind fun _ => Steady.ret _

/-- The feature has the parameters which are found at this address. -/
structure ParamsCopied (platform : Platform) (base : Int) (size : Nat)
    (finfo : DflFeatureInfo) : Prop where
  paramSize : paramSizeOf platform base size = .ok finfo.paramSize
  params :
    finfo.params =
      registers platform (base + dfhv1ParamHdr) (finfo.paramSize / 8)

/-- The feature at this offset fits, and has copied its parameters. -/
def CopiedAt (platform : Platform) (binfo : BuildFeatureDevsInfo)
    (ofst size : Nat) (finfo : DflFeatureInfo) : Prop :=
  ∃ extent, extentOf platform binfo ofst size = .ok extent ∧
    extent ≤ Word.sub 64 binfo.len ofst ∧
      ParamsCopied platform (binfo.ioaddr + ofst) extent finfo

/-! ## Features which are accepted -/

section Accepted

variable {seen : Enumeration} {ofst size fid : Nat}

/-- Every accepted feature of version 1 has copied its parameters. -/
def AllCopied (platform : Platform) (binfo : BuildFeatureDevsInfo)
    (ofst size : Nat) : BuildAssertion :=
  fun past _ => ∀ finfo placement, .accepted finfo placement ∈ past →
    finfo.dfhVersion = 1 → CopiedAt platform binfo ofst size finfo

/-- No feature is accepted. -/
def Event.AcceptsNone (event : Event) : Prop :=
  ∀ finfo placement, event ≠ .accepted finfo placement

theorem stable_allCopied (platform : Platform) (binfo : BuildFeatureDevsInfo)
    (ofst size : Nat) :
    Stable Event.AcceptsNone (AllCopied platform binfo ofst size) where
  event past state event isQuiet holds finfo placement member := by
    rcases List.mem_append.mp member with earlier | latest
    · exact holds finfo placement earlier
    · exact absurd (List.mem_singleton.mp latest).symm
        (isQuiet finfo placement)
  state _ _ _ _ _ holds := holds

theorem acceptsNone_read (address : Int) :
    Event.AcceptsNone (.read address) :=
  fun _ _ eq => Event.noConfusion eq

/-- What has been read of a header of version 1. -/
def HeaderSized (platform : Platform) (binfo : BuildFeatureDevsInfo)
    (ofst size : Nat) (header : HeaderInfo) : Prop :=
  header.dfhVer = 1 →
    extentOf platform binfo ofst size = .ok header.size ∧
      paramSizeOf platform (binfo.ioaddr + ofst) header.size =
        .ok header.dfhPsize

theorem readHeader_sized :
    Triple (Seen (AllCopied platform seen.binfo ofst size) seen)
      (readHeader platform ofst size fid)
      (fun header past state =>
        Seen (AllCopied platform seen.binfo ofst size) seen past state ∧
          HeaderSized platform seen.binfo ofst size header)
      (Seen (AllCopied platform seen.binfo ofst size) seen) := by
  have stable := stable_allCopied platform seen.binfo ofst size
  have seenStable := stable.seen seen
  refine (stable.readHeader_takes fid (acceptsNone_read _)
    (fun _ _ _ _ _ _ eq => Event.noConfusion eq) ?_ ?_).mono
      (fun _ _ => id) ?_ fun _ _ => id
  · exact seenStable.keeps_featureSize acceptsNone_read _ _ _
  · exact fun _ _ _ _ => seenStable.keeps_dfhGetParamSize acceptsNone_read _ _
  · rintro header past state ⟨holds, taken⟩
    exact ⟨holds, fun isOne =>
      ⟨taken.size, taken.psize (taken.dfhVer.symm.trans isOne)⟩⟩

theorem acceptFeature_copied {finfo : DflFeatureInfo} {placement : Placement}
    (copied : finfo.dfhVersion = 1 →
      CopiedAt platform seen.binfo ofst size finfo) :
    Triple (Seen (AllCopied platform seen.binfo ofst size) seen)
      (acceptFeature platform ofst finfo placement)
      (fun _ => AllCopied platform seen.binfo ofst size)
      (AllCopied platform seen.binfo ofst size) := by
  have stable := (stable_allCopied platform seen.binfo ofst size).seen seen
  refine Triple.bind
    (Seen.of_fails
      (stable.keeps_parseFeatureIrqs acceptsNone_read ofst finfo))
    fun filled => ?_
  refine Triple.updateBind (Triple.emit ?_)
  rintro past next ⟨state, ⟨⟨holds, -⟩, irqBase, nrIrqs, rfl⟩, rfl⟩
  intro accepted place member isOne
  rcases List.mem_append.mp member with earlier | latest
  · exact holds accepted place earlier isOne
  · obtain ⟨rfl, rfl⟩ := Event.accepted.inj (List.mem_singleton.mp latest)
    obtain ⟨extent, isExtent, fits, params⟩ := copied isOne
    exact ⟨extent, isExtent, fits, params.paramSize, params.params⟩

/-- What is accepted has copied as many bytes as its parameters take. -/
theorem createFeatureInstance_copied :
    Triple (Seen (AllCopied platform seen.binfo ofst size) seen)
      (createFeatureInstance platform ofst size fid)
      (fun _ => AllCopied platform seen.binfo ofst size)
      (AllCopied platform seen.binfo ofst size) := by
  have stable := (stable_allCopied platform seen.binfo ofst size).seen seen
  have headers :
      Triple (Seen (AllCopied platform seen.binfo ofst size) seen)
        (if fid ≠ featureIdAfu then readHeader platform ofst size fid
        else pure ⟨size, fid, 0, 0, 0⟩ : Build HeaderInfo)
        (fun header past state =>
          Seen (AllCopied platform seen.binfo ofst size) seen past state ∧
            HeaderSized platform seen.binfo ofst size header)
        (Seen (AllCopied platform seen.binfo ofst size) seen) := by
    split_ifs
    · exact readHeader_sized
    · exact Triple.ret fun past state holds =>
        ⟨holds, fun isOne => absurd isOne Nat.zero_ne_one⟩
  refine Triple.bind (Seen.of_fails headers) fun header => ?_
  refine Triple.assume fun sized => ?_
  refine Seen.again fun now same => ?_
  rw [same]
  dsimp only
  split
  · exact Triple.fail fun _ _ => And.left
  rename_i fits
  refine Triple.bind (Seen.of_fails stable.keeps_alloc) fun _ => ?_
  have copies :=
    (steady_memcpyFromio platform
      (seen.binfo.ioaddr + ofst + dfhv1ParamHdr)
      (header.dfhPsize / 8)).triple
      (stable.keeps_memcpyFromio acceptsNone_read _ _)
      (initialEnumeration 0)
  refine Triple.bind (Seen.of_fails copies) fun params => ?_
  refine Triple.assume fun copied => ?_
  rw [memcpyFromio_result] at copied
  obtain rfl := Except.ok.inj copied
  split
  · rename_i isOne
    obtain ⟨isExtent, isSize⟩ := sized isOne
    refine Triple.bind
      (Seen.of_fails (stable.keeps_readq (acceptsNone_read _)))
      fun addr => ?_
    refine Triple.bind
      (Seen.of_fails (stable.keeps_readq (acceptsNone_read _)))
      fun sizeGrp => ?_
    split
    · exact Triple.ret fun _ _ => And.left
    · refine Triple.bind
        (Seen.of_fails (stable.keeps_readq (acceptsNone_read _)))
        fun low => ?_
      refine Triple.bind
        (Seen.of_fails (stable.keeps_readq (acceptsNone_read _)))
        fun high => ?_
      exact acceptFeature_copied fun _ =>
        ⟨header.size, isExtent, Nat.le_of_not_lt fits, isSize, rfl⟩
  · rename_i notOne
    exact acceptFeature_copied fun isOne => absurd isOne notOne

end Accepted

/-- An accepted feature of version 1 has copied its parameters. -/
theorem accepted_copied {state : Enumeration} {ofst size fid : Nat}
    {finfo : DflFeatureInfo} {placement : Placement}
    (accepted : .accepted finfo placement ∈
      (createFeatureInstance platform ofst size fid state).events)
    (version : finfo.dfhVersion = 1) :
    CopiedAt platform state.binfo ofst size finfo := by
  have initial :
      Seen (AllCopied platform state.binfo ofst size) state [] state :=
    ⟨fun _ _ member => absurd member List.not_mem_nil, rfl, rfl⟩
  exact createFeatureInstance_copied.always initial finfo placement accepted
    version

/-! ## Where the copy ends -/

/-- The bytes of the parameters of a feature. -/
def paramExtent (ofst paramSize : Nat) : Extent where
  start := ofst + dfhv1ParamHdr.toNat
  size := paramSize

/-- The bytes which are copied are the feature's, and inside the window. -/
structure CopyInside (binfo : BuildFeatureDevsInfo)
    (ofst extent paramSize : Nat) : Prop where
  feature : ∀ byte, (paramExtent ofst paramSize).Covers byte →
    Extent.Covers ⟨ofst, extent⟩ byte
  window : ∀ byte, (paramExtent ofst paramSize).Covers byte →
    Extent.Covers ⟨0, binfo.len⟩ byte

/--
The last block ends inside the feature, whose header is inside the window; or
it is so long that the size starts again from zero.
-/
def LastBlockInside (platform : Platform) (binfo : BuildFeatureDevsInfo)
    (ofst extent : Nat) : Prop :=
  ∀ last, ParamReaches platform (binfo.ioaddr + ofst) extent last →
    LastBlock (paramHdr platform (binfo.ioaddr + ofst) last) →
      let ends :=
        last + blockLength (paramHdr platform (binfo.ioaddr + ofst) last)
      ends % 2 ^ 32 = 0 ∨
        (dfhv1ParamHdr + ends ≤ extent ∨ 2 ^ 32 ≤ ends) ∧ ofst ≤ binfo.len

theorem copyInside_iff {binfo : BuildFeatureDevsInfo}
    {ofst extent paramSize : Nat} :
    CopyInside binfo ofst extent paramSize ↔
      paramSize = 0 ∨
        dfhv1ParamHdr + paramSize ≤ extent ∧
          ofst + dfhv1ParamHdr + paramSize ≤ binfo.len := by
  have inside :
      CopyInside binfo ofst extent paramSize ↔
        (paramSize = 0 ∨
          (paramExtent ofst paramSize).Within ⟨ofst, extent⟩) ∧
          (paramSize = 0 ∨
            (paramExtent ofst paramSize).Within ⟨0, binfo.len⟩) :=
    ⟨fun ⟨feature, window⟩ =>
      ⟨Extent.covered_iff.mp feature, Extent.covered_iff.mp window⟩,
      fun ⟨feature, window⟩ =>
        ⟨Extent.covered_iff.mpr feature, Extent.covered_iff.mpr window⟩⟩
  rw [inside]
  unfold Extent.Within Extent.limit paramExtent dfhv1ParamHdr
  dsimp only
  omega

/-- An `int` is the value itself, or one carry below or above it. -/
theorem int32_cases (value : Int) (low : -2 ^ 31 ≤ value)
    (high : value < 2 ^ 31 + 2 ^ 32) :
    int32 value = value ∨ int32 value = value - 2 ^ 32 := by
  obtain ⟨carries, eq⟩ := int32_eq_sub value
  obtain ⟨above, below⟩ := int32_range value
  have zero_or_one : carries = 0 ∨ carries = 1 := by omega
  rcases zero_or_one with rfl | rfl
  · exact .inl (by omega)
  · exact .inr (by omega)

/-- The parameters end inside if this last block does. -/
theorem copyInside_iff_block {binfo : BuildFeatureDevsInfo}
    {ofst extent paramSize length : Nat} {last : Int}
    (looks : Looks extent last) (range : -2 ^ 31 ≤ last ∧ last < 2 ^ 31)
    (positive : 0 < length) (bound : length < 2 ^ 32)
    (fits : extent ≤ Word.sub 64 binfo.len ofst)
    (isSize : (paramSize : Int) = int32 (last + length)) :
    CopyInside binfo ofst extent paramSize ↔
      (last + length) % 2 ^ 32 = 0 ∨
        (dfhv1ParamHdr + (last + length) ≤ extent ∨
            (2 : Int) ^ 32 ≤ last + length) ∧
          ofst ≤ binfo.len := by
  rw [copyInside_iff]
  have window (le : ofst ≤ binfo.len) : ofst + extent ≤ binfo.len := by
    rw [Word.sub_of_le le] at fits
    omega
  have below := int32_range (last + length)
  unfold dfhv1ParamHdr
  rcases int32_cases (last + length) (by omega) (by omega) with
    exact | carried
  · rw [exact] at isSize below
    constructor
    · rintro (empty | ⟨feature, inWindow⟩) <;> omega
    · rintro (zero | ⟨feature | wraps, le⟩)
      · omega
      · have := window le
        omega
      · omega
  · -- The block is so long that the sum is back before it.
    have before : dfhv1ParamHdr + last < extent ∨ 2 ^ 31 + 40 ≤ extent := by
      unfold Looks dfhv1ParamHdr at looks
      unfold dfhv1ParamHdr
      rcases int32_cases (last + 40) (by omega) (by omega) with
        exact | carried
      · rw [exact] at looks
        omega
      · rw [carried] at looks
        omega
    unfold dfhv1ParamHdr at before
    rw [carried] at isSize below
    constructor
    · rintro (empty | ⟨feature, inWindow⟩) <;> omega
    · rintro (zero | ⟨-, le⟩)
      · omega
      · have := window le
        omega

/--
The parameters of a feature which is accepted are copied from inside it exactly
if their last block ends inside.
-/
theorem params_copied_inside_iff (platform : Platform) (state : Enumeration)
    (ofst size fid : Nat) {finfo : DflFeatureInfo} {placement : Placement}
    (accepted : .accepted finfo placement ∈
      (createFeatureInstance platform ofst size fid state).events)
    (version : finfo.dfhVersion = 1) :
    ∃ extent, extentOf platform state.binfo ofst size = .ok extent ∧
      (CopyInside state.binfo ofst extent finfo.paramSize ↔
        LastBlockInside platform state.binfo ofst extent) := by
  obtain ⟨extent, isExtent, fits, copied⟩ := accepted_copied accepted version
  refine ⟨extent, isExtent, ?_⟩
  have block {last : Int}
      (reaches : ParamReaches platform (state.binfo.ioaddr + ofst) extent last)
      (isLast :
        LastBlock (paramHdr platform (state.binfo.ioaddr + ofst) last)) :=
    copyInside_iff_block reaches.looks reaches.range (blockLength_pos _)
      (blockLength_lt _) fits (reaches.size_eq isLast copied.paramSize)
  constructor
  · intro inside last reaches isLast
    exact (block reaches isLast).mp inside
  · intro ends
    by_cases empty : finfo.paramSize = 0
    · exact copyInside_iff.mpr (.inl empty)
    · obtain ⟨last, reaches, isLast, -⟩ :=
        exists_last copied.paramSize (by omega)
      exact (block reaches isLast).mpr (ends last reaches isLast)

/-- A last feature of this size, whose first block has this header. -/
def featureWithBlock (size header : BitVec 64) : Platform where
  mmio address :=
    if address = 0 then 0x3010010000000042 ||| size <<< 16
    else if address = 0x18 then 1
    else if address = 0x20 then 0x80000000
    else if address = 0x28 then header
    else 0
  external _ := none
  irqTable _ := 0
  nrIrqsMax := 0
  beyond := 0
  fuel := 1

/-- A window of this length, in which a private feature is parsed. -/
def windowOf (len : Nat) : Enumeration :=
  (initialEnumeration 0).withBinfo fun binfo =>
    { binfo with type := .privFeat, len := len }

/-- The feature which is accepted, if one is. -/
def Event.accepted? : Event → Option (DflFeatureInfo × Placement)
  | .accepted finfo placement => some (finfo, placement)
  | _ => none

theorem accepted_mem {events : List Event} {finfo : DflFeatureInfo}
    {placement : Placement}
    (found : events.findSome? Event.accepted? = some (finfo, placement)) :
    .accepted finfo placement ∈ events := by
  obtain ⟨event, member, isFeature⟩ := List.exists_of_findSome?_eq_some found
  cases event with
  | accepted =>
      cases isFeature
      exact member
  | _ => cases isFeature

/-- The feature, with a copy of a block of 16 bytes. -/
def featureOfBlock : DflFeatureInfo where
  fid := 0x42
  revision := 0
  dfhVersion := 1
  guid := (0, 0)
  mmioRes := ⟨0, 0⟩
  irqBase := 0
  nrIrqs := 0
  paramSize := 16
  params := [0x1100000002, 0]

/-- The place of the feature, at the absolute address 0. -/
def placeOfBlock : Placement where
  window := 0
  ofst := 0
  size := none
  addrOff := 0
  csrSize := 0
  absolute := true

/-- A block which ends where the feature does is copied from inside. -/
theorem fitting_block_inside :
    ∃ extent,
      extentOf (featureWithBlock 0x38 0x1100000002) (windowOf 0x1000).binfo
          0 0 = .ok extent ∧
        (CopyInside (windowOf 0x1000).binfo 0 extent
            featureOfBlock.paramSize ↔
          LastBlockInside (featureWithBlock 0x38 0x1100000002)
            (windowOf 0x1000).binfo 0 extent) := by
  have accepted :
      .accepted featureOfBlock placeOfBlock ∈
        (createFeatureInstance (featureWithBlock 0x38 0x1100000002) 0 0 0
          (windowOf 0x1000)).events :=
    accepted_mem (by decide +kernel)
  exact params_copied_inside_iff _ _ _ _ _ accepted rfl

/-- A block is copied whole which ends eight bytes behind the feature. -/
theorem block_copied_behind_feature :
    .accepted featureOfBlock placeOfBlock ∈
        (createFeatureInstance (featureWithBlock 0x30 0x1100000002) 0 0 0
          (windowOf 0x1000)).events ∧
      extentOf (featureWithBlock 0x30 0x1100000002) (windowOf 0x1000).binfo
          0 0 = .ok 0x30 ∧
        ¬ CopyInside (windowOf 0x1000).binfo 0 0x30
          featureOfBlock.paramSize := by
  refine ⟨accepted_mem (by decide +kernel), by decide +kernel, ?_⟩
  rw [copyInside_iff]
  decide

end LinuxDfl.Dfl

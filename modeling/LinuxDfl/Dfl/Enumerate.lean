import LinuxDfl.Dfl.Header
import LinuxDfl.Kernel.Errno
import LinuxDfl.Kernel.Word
import LinuxDfl.Lib.Traced

/-!
# Enumeration of feature devices

The walk over device feature lists which builds feature devices.  The content
of the registers and the answers of the rest of the kernel are a parameter.
Pointers to registers are the addresses to which they are mapped; an
enumeration records which it reads.
-/

namespace LinuxDfl.Dfl

open LinuxDfl.Kernel
open LinuxDfl.Lib.Traced
open LinuxDfl.Lib.Traced.Program

/-! ## Data -/

/-- `struct resource`, of memory -/
structure Resource where
  start : Nat
  last : Nat
  deriving DecidableEq, Repr, Inhabited

/-- `struct dfl_feature_info`; the GUID is that of its two registers. -/
structure DflFeatureInfo where
  fid : Nat
  revision : Nat
  dfhVersion : Nat
  guid : BitVec 64 × BitVec 64
  mmioRes : Resource
  irqBase : Nat
  nrIrqs : Nat
  paramSize : Nat
  params : List (BitVec 64)
  deriving DecidableEq, Repr

/-- `struct dfl_feature`, as enumeration leaves it -/
structure DflFeature where
  id : Nat
  revision : Nat
  resourceIndex : Int
  /-- The resource which has been mapped for a header feature. -/
  ioaddr : Option Resource
  irqs : List Int
  dfhVersion : Nat
  paramSize : Nat
  params : List (BitVec 64)
  guid : BitVec 64 × BitVec 64
  deriving DecidableEq, Repr

/-- `struct dfl_feature_dev_data`, as enumeration leaves it -/
structure DflFeatureDevData where
  type : DflIdType
  num : Nat
  features : List DflFeature
  resourceNum : Nat
  resources : List Resource
  deriving DecidableEq, Repr

/-- The lists of `struct dfl_fpga_cdev` which enumeration fills. -/
structure DflFpgaCdev where
  portDevList : List DflFeatureDevData
  privFeatDevList : List DflFeatureDevData
  fmeDev : Option DflFeatureDevData
  deriving DecidableEq, Repr

/-- `struct build_feature_devs_info` -/
structure BuildFeatureDevsInfo where
  nrIrqs : Nat
  type : DflIdType
  ioaddr : Int
  start : Nat
  len : Nat
  subFeatures : List DflFeatureInfo
  featureNum : Nat

/-- The state of an enumeration. -/
structure Enumeration where
  binfo : BuildFeatureDevsInfo
  cdev : DflFpgaCdev
  /-- How many calls which may fail have been made. -/
  calls : Nat
  /-- The header of the list which is being parsed. -/
  header : Int

/-- What an enumeration meets outside of it. -/
structure Platform where
  /-- The registers. -/
  mmio : Nat → BitVec 64
  /-- What the calls which may fail answer, one after the other. -/
  external : Nat → Option Errno
  irqTable : Nat → Int
  /-- `NR_IRQS` -/
  nrIrqsMax : Int
  /-- What is found behind copied parameters. -/
  beyond : BitVec 64
  /-- How many rounds each loop may take. -/
  fuel : Nat

/-- The register at this address. -/
def Platform.reg (platform : Platform) (address : Int) : BitVec 64 :=
  platform.mmio (address % 2 ^ 64).toNat

/-- The place which a feature is given by what it is created from. -/
structure Placement where
  /-- `binfo->start` -/
  window : Nat
  ofst : Nat
  /-- The size of the feature, unless it has a header of version 1. -/
  size : Option Nat
  /-- `addr_off`, of a header of version 1 -/
  addrOff : Nat
  /-- `csr_size`, of a header of version 1 -/
  csrSize : Nat
  /-- The registers are at an absolute address. -/
  absolute : Bool
  deriving DecidableEq, Repr

/-- What is recorded of an enumeration. -/
inductive Event where
  /-- A register is read. -/
  | read (address : Int)
  /-- A field of a register decides on the header at `header`. -/
  | decides (field : Field) (register : Int) (address header : Int)
  /-- A header is visited, in this state. -/
  | visited (state : Enumeration) (ofst : Nat)
  /-- A device is started, by the FIU at this address if there is one. -/
  | started (fiu : Option Int) (featureNum : Nat)
  /-- A private feature is parsed for a device of this type. -/
  | privateFeature (type : DflIdType) (base : Int)
  | accepted (finfo : DflFeatureInfo) (placement : Placement)
  | committed (fdata : DflFeatureDevData)

/-- Why an enumeration ends early. -/
inductive Failure where
  | errno (ret : Errno)
  /-- A loop has taken all its rounds. -/
  | stuck
  deriving DecidableEq, Repr

abbrev Build (Value : Type) := Program Event Failure Enumeration Value

/-- Change the build information. -/
def Enumeration.withBinfo (state : Enumeration)
    (change : BuildFeatureDevsInfo → BuildFeatureDevsInfo) : Enumeration :=
  { state with binfo := change state.binfo }

variable (platform : Platform)

/-- `readq` -/
def readq (address : Int) : Build (BitVec 64) := do
  emit (.read address)
  pure (platform.reg address)

/-- The answer to a call which may fail. -/
def answer : Build (Option Errno) := do
  let state ← read
  update fun state => { state with calls := state.calls + 1 }
  pure (platform.external state.calls)

/-- A call which returns an error code if it fails. -/
def call : Build Unit := do
  match ← answer platform with
  | none => pure ()
  | some ret => fail (.errno ret)

/-- An allocation. -/
def alloc : Build Unit := do
  match ← answer platform with
  | none => pure ()
  | some _ => fail (.errno .enomem)

/-- An allocation, if there is anything to allocate. -/
def allocSome (size : Nat) : Build Unit :=
  if size ≠ 0 then alloc platform else pure ()

/-! ## Sizes -/

/-- The loop of `feature_size`. -/
def featureSizeLoop (dfhIoaddr limit : Int) : Nat → Nat → Build Nat
  | 0, _ => fail .stuck
  | fuel + 1, ofst => do
      let value ← readq platform (dfhIoaddr + ofst)
      if dfhType.get value ≠ dfhTypeInterface then
        pure ofst
      else
        let ofst := Word.add 32 ofst (dfhNextHdrOfst.get value)
        if dfhEol.get value ≠ 0 then
          pure ofst
        else if dfhIoaddr + ofst < limit then
          featureSizeLoop dfhIoaddr limit fuel ofst
        else
          pure 0

/-- `feature_size` -/
def featureSize (dfhIoaddr limit : Int) (value : BitVec 64) : Build Nat :=
  let ofst := dfhNextHdrOfst.get value
  if ofst = 0 then
    pure 4096
  else if dfhEol.get value ≠ 0 then
    pure ofst
  else
    featureSizeLoop platform dfhIoaddr limit platform.fuel ofst

/-- The value of an `int`. -/
def int32 (value : Int) : Int := value.bmod (2 ^ 32)

/-- `-ENOENT` -/
def negEnoent : Int := -2

/-- The loop of `dfh_get_param_size`. -/
def dfhGetParamSizeLoop (dfhBase : Int) (max : Nat) : Nat → Int → Build Int
  | 0, _ => fail .stuck
  | fuel + 1, size =>
      if int32 (size + dfhv1ParamHdr) % 2 ^ 64 < max then do
        let value ← readq platform (dfhBase + dfhv1ParamHdr + size)
        let next := dfhv1ParamHdrNextOffset.get value
        if next = 0 then
          pure (int32 (size + 2 * 8))
        else
          let size := int32 (size + next * 8)
          if dfhv1ParamHdrNextEop.get value ≠ 0 then
            pure size
          else
            dfhGetParamSizeLoop dfhBase max fuel size
      else
        pure negEnoent

/-- `dfh_get_param_size` -/
def dfhGetParamSize (dfhBase : Int) (max : Nat) : Build Int := do
  let value ← readq platform (dfhBase + dfhv1CsrSizeGrp)
  if dfhv1CsrSizeGrpHasParams.get value = 0 then
    pure 0
  else
    dfhGetParamSizeLoop platform dfhBase max platform.fuel 0

/-! ## Interrupts -/

/-- `find_param`, from the block at this index on -/
def findParam (params : List (BitVec 64)) (paramId : Nat) :
    Nat → Nat → Option Nat
  | 0, _ => none
  | fuel + 1, index =>
      if index < params.length then
        let value := params.getD index 0
        if paramId = dfhv1ParamHdrId.get value then some index
        else if dfhv1ParamHdrNextEop.get value ≠ 0 then none
        else
          let next := dfhv1ParamHdrNextOffset.get value
          if next = 0 then none
          else findParam params paramId fuel (index + next)
      else none

/-- The register in which a feature of version 0 gives its interrupts. -/
def irqCap (type : DflIdType) (fid : Nat) : Option IrqCap :=
  match type with
  | .port =>
      if fid = portFeatureIdUint then some portUintCap
      else if fid = portFeatureIdError then some portErrorCap
      else none
  | .fme => if fid = fmeFeatureIdGlobalErr then some fmeErrorCap else none
  | _ => none

/-- The first interrupt of a feature, and how many it has. -/
def featureIrqs (base : Int) (type : DflIdType) (finfo : DflFeatureInfo) :
    Build (Nat × Nat) :=
  if finfo.dfhVersion = 0 then
    match irqCap type finfo.fid with
    | some cap => do
        let value ← readq platform (base + cap.register)
        pure (cap.first.get value, cap.count.get value)
    | none => pure (0, 0)
  else if finfo.dfhVersion = 1 then
    match findParam finfo.params dfhv1ParamIdMsiX finfo.params.length 0 with
    | some index =>
        let value := finfo.params.getD (index + 1) platform.beyond
        pure (dfhv1ParamMsiXStartv.get value, dfhv1ParamMsiXNumv.get value)
    | none => pure (0, 0)
  else
    pure (0, 0)

/-- `parse_feature_irqs`, which fills in the interrupts -/
def parseFeatureIrqs (ofst : Nat) (finfo : DflFeatureInfo) :
    Build DflFeatureInfo := do
  let state ← read
  let irqs ← featureIrqs platform (state.binfo.ioaddr + ofst)
    state.binfo.type finfo
  let ibase := irqs.1
  let inr := irqs.2
  let invalid (i : Nat) : Bool :=
    let virq := platform.irqTable (Word.add 32 ibase i)
    virq < 0 || virq > platform.nrIrqsMax
  if inr = 0 then
    pure { finfo with irqBase := 0, nrIrqs := 0 }
  else if Word.add 32 ibase inr > state.binfo.nrIrqs then
    fail (.errno .einval)
  else if (List.range inr).any invalid then
    fail (.errno .einval)
  else
    pure { finfo with irqBase := ibase, nrIrqs := inr }

/-! ## Features -/

/-- `memcpy_fromio` of this many registers -/
def memcpyFromio (source : Int) : Nat → Build (List (BitVec 64))
  | 0 => pure []
  | count + 1 => do
      let value ← readq platform source
      let rest ← memcpyFromio (source + 8) count
      pure (value :: rest)

/-- What `create_feature_instance` takes from the header. -/
structure HeaderInfo where
  size : Nat
  fid : Nat
  revision : Nat
  dfhVer : Nat
  dfhPsize : Nat

/-- The part of `create_feature_instance` which reads the header. -/
def readHeader (ofst size fid : Nat) : Build HeaderInfo := do
  let state ← read
  let base := state.binfo.ioaddr + ofst
  let value ← readq platform base
  emit (.decides dfhId dfh base state.header)
  emit (.decides dfhVersion dfh base state.header)
  let dfhVer := dfhVersion.get value
  let size ←
    (if size ≠ 0 then pure size
    else
      featureSize platform base (state.binfo.ioaddr + state.binfo.len) value)
  if size = 0 then
    fail (.errno .einval)
  else
    let dfhPsize ←
      (if dfhVer = 1 then dfhGetParamSize platform base size else pure 0)
    if dfhPsize < 0 then
      fail (.errno
        (if dfhPsize = negEnoent then .enoent else .other dfhPsize.natAbs))
    else
      pure
        { size := size
          fid := if fid ≠ 0 then fid else featureId value
          revision := dfhRevision.get value
          dfhVer := dfhVer
          dfhPsize := dfhPsize.toNat }

/-- `in_range` -/
def inRange (val start len : Nat) : Bool := Word.sub 64 val start < len

/--
The registers of a feature of version 1, unless they are to be ignored, with
whether their address is absolute.
-/
def csrResource (binfo : BuildFeatureDevsInfo) (ofst : Nat)
    (addr sizeGrp : BitVec 64) : Option (Resource × Bool) :=
  let addrOff := dfhv1CsrAddrMask.get addr * 2
  let absolute := dfhv1CsrAddrRel.get addr ≠ 0
  let start :=
    if absolute then addrOff
    else Word.add 64 (Word.add 64 binfo.start ofst) addrOff
  let csrSize := dfhv1CsrSizeGrpSize.get sizeGrp
  let last :=
    if csrSize ≠ 0 then Word.sub 64 (Word.add 64 start csrSize) 1 else start
  if !absolute && !(inRange start binfo.start binfo.len &&
      inRange last binfo.start binfo.len) then
    none
  else
    some (⟨start, last⟩, absolute)

/-- Add the feature to the device which is being built. -/
def acceptFeature (ofst : Nat) (finfo : DflFeatureInfo)
    (placement : Placement) : Build Unit := do
  let finfo ← parseFeatureIrqs platform ofst finfo
  update fun state => state.withBinfo fun binfo =>
    { binfo with
      subFeatures := binfo.subFeatures ++ [finfo]
      featureNum := binfo.featureNum + 1 }
  emit (.accepted finfo placement)

/-- `create_feature_instance` -/
def createFeatureInstance (ofst size fid : Nat) : Build Unit := do
  let header ←
    (if fid ≠ featureIdAfu then readHeader platform ofst size fid
    else pure ⟨size, fid, 0, 0, 0⟩)
  let state ← read
  let binfo := state.binfo
  let base := binfo.ioaddr + ofst
  if Word.sub 64 binfo.len ofst < header.size then
    fail (.errno .einval)
  else
    alloc platform
    let params ←
      memcpyFromio platform (base + dfhv1ParamHdr) (header.dfhPsize / 8)
    let finfo (guid : BitVec 64 × BitVec 64) (mmioRes : Resource) :
        DflFeatureInfo :=
      { fid := header.fid
        revision := header.revision
        dfhVersion := header.dfhVer
        guid := guid
        mmioRes := mmioRes
        irqBase := 0
        nrIrqs := 0
        paramSize := header.dfhPsize
        params := params }
    if header.dfhVer = 1 then
      let addr ← readq platform (base + dfhv1CsrAddr)
      let sizeGrp ← readq platform (base + dfhv1CsrSizeGrp)
      match csrResource binfo ofst addr sizeGrp with
      | none => pure ()
      | some (mmioRes, absolute) =>
          let low ← readq platform (base + guidL)
          let high ← readq platform (base + guidH)
          acceptFeature platform ofst (finfo (high, low) mmioRes)
            { window := binfo.start
              ofst := ofst
              size := none
              addrOff := dfhv1CsrAddrMask.get addr * 2
              csrSize := dfhv1CsrSizeGrpSize.get sizeGrp
              absolute := absolute }
    else
      let start := Word.add 64 binfo.start ofst
      let last := Word.sub 64 (Word.add 64 start header.size) 1
      acceptFeature platform ofst (finfo (0, 0) ⟨start, last⟩)
        { window := binfo.start
          ofst := ofst
          size := some header.size
          addrOff := 0
          csrSize := 0
          absolute := false }

/-! ## Committing a device -/

/-- `is_header_feature` -/
def isHeaderFeature (id : Nat) : Prop := id = featureIdFiuHeader

instance (id : Nat) : Decidable (isHeaderFeature id) := by
  unfold isHeaderFeature
  infer_instance

/-- A feature which has not been filled in. -/
def zeroFeature : DflFeature := ⟨0, 0, 0, none, [], 0, 0, [], (0, 0)⟩

/-- What `binfo_create_feature_dev_data` fills in of a feature. -/
def fillFeature (finfo : DflFeatureInfo) (resIdx : Nat) : DflFeature where
  id := finfo.fid
  revision := finfo.revision
  resourceIndex := if isHeaderFeature finfo.fid then -1 else resIdx
  ioaddr := if isHeaderFeature finfo.fid then some finfo.mmioRes else none
  irqs :=
    (List.range finfo.nrIrqs).map fun i =>
      platform.irqTable (Word.add 32 finfo.irqBase i)
  dfhVersion := finfo.dfhVersion
  paramSize := finfo.paramSize
  params := finfo.params
  guid := if finfo.dfhVersion = 1 then finfo.guid else (0, 0)

/-- The loop of `binfo_create_feature_dev_data`, from this index on -/
def fillFeatures : Nat → List DflFeatureInfo →
    Build (List DflFeature × List Resource)
  | _, [] => pure ([], [])
  | resIdx, finfo :: rest => do
      allocSome platform finfo.paramSize
      (if isHeaderFeature finfo.fid then call platform else pure ())
      allocSome platform finfo.nrIrqs
      let filled ←
        fillFeatures
          (if isHeaderFeature finfo.fid then resIdx else resIdx + 1) rest
      pure
        (fillFeature platform finfo resIdx :: filled.1,
          if isHeaderFeature finfo.fid then filled.2
          else finfo.mmioRes :: filled.2)

/-- `binfo_create_feature_dev_data` -/
def binfoCreateFeatureDevData : Build DflFeatureDevData := do
  let state ← read
  let binfo := state.binfo
  if binfo.type = .max then
    fail (.errno .einval)
  else
    alloc platform
    alloc platform
    alloc platform
    call platform
    call platform
    let filled ← fillFeatures platform 0 binfo.subFeatures
    update fun state => state.withBinfo fun binfo =>
      { binfo with subFeatures := [] }
    let unused := binfo.featureNum - binfo.subFeatures.length
    let unusedResources := binfo.featureNum - filled.2.length
    pure
      { type := binfo.type
        num := binfo.featureNum
        features := filled.1 ++ List.replicate unused zeroFeature
        resourceNum := filled.2.length
        resources := filled.2 ++ List.replicate unusedResources default }

/-- `feature_dev_register` -/
def featureDevRegister : Build Unit := do
  alloc platform
  call platform
  call platform
  call platform

/-- The device is added to the container device. -/
def DflFpgaCdev.add (cdev : DflFpgaCdev) (type : DflIdType)
    (fdata : DflFeatureDevData) : DflFpgaCdev :=
  match type with
  | .port => { cdev with portDevList := fdata :: cdev.portDevList }
  | .privFeat => { cdev with privFeatDevList := fdata :: cdev.privFeatDevList }
  | _ => { cdev with fmeDev := some fdata }

/-- `build_info_commit_dev` -/
def buildInfoCommitDev : Build Unit := do
  let fdata ← binfoCreateFeatureDevData platform
  featureDevRegister platform
  update fun state =>
    { state with cdev := state.cdev.add state.binfo.type fdata }
  update fun state => state.withBinfo fun binfo => { binfo with type := .max }
  emit (.committed fdata)

/-! ## The walk -/

/-- `build_info_prepare` -/
def buildInfoPrepare (start len : Nat) : Build Unit := do
  match ← answer platform with
  | some _ => fail (.errno .ebusy)
  | none =>
      alloc platform
      update fun state => state.withBinfo fun binfo =>
        { binfo with start := start, len := len, ioaddr := start }

/-- `parse_feature_port_afu` -/
def parseFeaturePortAfu (ofst : Nat) : Build Unit := do
  let state ← read
  let value ← readq platform (state.binfo.ioaddr + portHdrCap)
  let size := portCapMmioSize.get value * 2 ^ 10
  createFeatureInstance platform ofst size featureIdAfu

/-- `parse_feature_afu` -/
def parseFeatureAfu (ofst : Nat) : Build Unit := do
  let state ← read
  match state.binfo.type with
  | .max => fail (.errno .einval)
  | .port => parseFeaturePortAfu platform ofst
  | _ => pure ()

/-- What `parse_feature_fiu` does before the header is parsed. -/
def switchFiu (ofst : Nat) : Build Unit := do
  let state ← read
  if state.binfo.type ≠ .max then
    buildInfoCommitDev platform
    buildInfoPrepare platform (Word.add 64 state.binfo.start ofst)
      (Word.sub 64 state.binfo.len ofst)
  else
    pure ()

/-- `parse_feature_fiu` -/
def parseFeatureFiu (ofst : Nat) : Build Unit := do
  switchFiu platform ofst
  let state ← read
  let base := state.binfo.ioaddr
  let value ← readq platform (base + dfh)
  emit (.decides dfhId dfh (base + dfh) state.header)
  let type := dfhIdToType (dfhId.get value)
  if type = .max then
    fail (.errno .einval)
  else
    update fun state => state.withBinfo fun binfo =>
      { binfo with type := type, featureNum := 0, subFeatures := [] }
    emit (.started (some state.header) 0)
    createFeatureInstance platform 0 0 0
    let value ← readq platform (base + nextAfu)
    emit (.decides nextAfuNextDfhOfst nextAfu (base + nextAfu) state.header)
    let offset := nextAfuNextDfhOfst.get value
    if offset ≠ 0 then
      parseFeatureAfu platform offset
    else
      pure ()

/-- What `parse_feature_private` makes of a header of version 1. -/
def startPrivate (type : DflIdType) (featureNum : Nat) : Build Unit := do
  (if type = .max then emit (.started none featureNum) else pure ())
  update fun state => state.withBinfo fun binfo =>
    { binfo with type := .privFeat }

/-- `parse_feature_private` -/
def parseFeaturePrivate (ofst : Nat) : Build Unit := do
  let state ← read
  let base := state.binfo.ioaddr
  let value ← readq platform (base + dfh)
  emit (.decides dfhVersion dfh (base + dfh) state.header)
  emit (.privateFeature state.binfo.type base)
  let dfhVer := dfhVersion.get value
  if dfhVer = 0 ∧ state.binfo.type = .max then
    let _ ← readq platform (base + ofst)
    fail (.errno .einval)
  else
    (if dfhVer = 1 then
      startPrivate state.binfo.type state.binfo.featureNum
    else pure ())
    createFeatureInstance platform ofst 0 0

/-- `parse_feature` -/
def parseFeature (ofst : Nat) : Build Unit := do
  let state ← read
  emit (.visited state ofst)
  update fun state => { state with header := state.binfo.ioaddr + ofst }
  let value ← readq platform (state.binfo.ioaddr + ofst + dfh)
  let type := dfhType.get value
  if type = dfhTypeAfu then
    parseFeatureAfu platform ofst
  else if type = dfhTypePrivate then
    parseFeaturePrivate platform ofst
  else if type = dfhTypeFiu then
    parseFeatureFiu platform ofst
  else
    pure ()

/-- The loop of `parse_feature_list`. -/
def parseFeatureListLoop (limit : Nat) : Nat → Nat → Build Unit
  | 0, _ => fail .stuck
  | fuel + 1, start =>
      if start < limit then
        if limit - start < dfhSize then
          fail (.errno .einval)
        else do
          let before ← read
          parseFeature platform (Word.sub 64 start before.binfo.start)
          let state ← read
          let value ← readq platform
            (state.binfo.ioaddr + Word.sub 64 start state.binfo.start + dfh)
          let ofst := dfhNextHdrOfst.get value
          if dfhEol.get value ≠ 0 ∨ ofst = 0 then
            pure ()
          else
            parseFeatureListLoop limit fuel (Word.add 64 start ofst)
      else
        pure ()

/-- `parse_feature_list` -/
def parseFeatureList (start len : Nat) : Build Unit := do
  buildInfoPrepare platform start len
  parseFeatureListLoop platform (Word.add 64 start len) platform.fuel start
  let state ← read
  if state.binfo.type ≠ .max then
    buildInfoCommitDev platform
  else
    pure ()

/-- `struct dfl_fpga_enum_dfl` -/
structure DflFpgaEnumDfl where
  start : Nat
  len : Nat
  start_lt : start < 2 ^ 64
  len_lt : len < 2 ^ 64

/-- The loop of `dfl_fpga_feature_devs_enumerate`. -/
def parseFeatureLists : List DflFpgaEnumDfl → Build Unit
  | [] => pure ()
  | dfl :: rest => do
      parseFeatureList platform dfl.start dfl.len
      parseFeatureLists rest

/-- The state in which enumeration begins. -/
def initialEnumeration (nrIrqs : Nat) : Enumeration where
  binfo :=
    { nrIrqs := nrIrqs
      type := .max
      ioaddr := 0
      start := 0
      len := 0
      subFeatures := []
      featureNum := 0 }
  cdev := ⟨[], [], none⟩
  calls := 0
  header := 0

/-- `dfl_fpga_feature_devs_enumerate` -/
def dflFpgaFeatureDevsEnumerate (nrIrqs : Nat)
    (dfls : List DflFpgaEnumDfl) :
    Run Event Failure Enumeration Unit :=
  (do
    alloc platform
    call platform
    alloc platform
    parseFeatureLists platform dfls : Build Unit) (initialEnumeration nrIrqs)

/-! ## Rounds of the loops -/

/-- The platform, with this many rounds for each loop. -/
def Platform.withFuel (platform : Platform) (fuel : Nat) : Platform :=
  { platform with fuel := fuel }

/-- With enough rounds, a program returns this value. -/
def Returns {Value : Type} (program : Nat → Build Value) (value : Value) :
    Prop :=
  ∃ enough, ∀ fuel ≥ enough, ∀ state,
    (program fuel state).result = .ok value

theorem Returns.unique {Value : Type} {program : Nat → Build Value}
    {first second : Value} (isFirst : Returns program first)
    (isSecond : Returns program second) : first = second := by
  obtain ⟨enough, returns⟩ := isFirst
  obtain ⟨enough', returns'⟩ := isSecond
  have left := returns _ (Nat.le_max_left enough enough') (initialEnumeration 0)
  have right :=
    returns' _ (Nat.le_max_right enough enough') (initialEnumeration 0)
  exact Except.ok.inj (left.symm.trans right)

end LinuxDfl.Dfl

import LinuxDfl.Dfl.FeatureScan
import LinuxDfl.Dfl.IrqRange
import LinuxDfl.Dfl.WalkPositions

/-!
# Reads inside the window

The registers which the walk over a list reads.  Some of them are read before,
or without, a check that they lie in the window of the list; this says which
room each header needs for its reads to be inside.
-/

namespace LinuxDfl.Dfl

open LinuxDfl.Kernel
open LinuxDfl.Lib.Iteration
open LinuxDfl.Lib.Traced
open LinuxDfl.Lib.Traced.Program

variable {platform : Platform} {start limit : Nat}

/-- The register at this address lies between start and limit. -/
def Inside (start limit : Nat) (address : Int) : Prop :=
  start ≤ address ∧ address + 8 ≤ limit

/-- If the event reads a register, it is inside. -/
def Event.InsideOnly (start limit : Nat) : Event → Prop
  | .read address => Inside start limit address
  | _ => True

variable {state : Enumeration}

@[simp]
theorem records_readq {allowed : Event → Prop} {address : Int} :
    Records allowed (readq platform address) state ↔
      allowed (.read address) := by
  unfold readq
  rw [records_emit_bind, records_ret, and_true]

@[simp]
theorem records_readq_bind {allowed : Event → Prop} {Value : Type}
    {address : Int} {rest : BitVec 64 → Build Value} :
    Records allowed (readq platform address >>= rest) state ↔
      allowed (.read address) ∧
        Records allowed (rest (platform.reg address)) state := by
  have returns :
      (readq platform address state).result =
        .ok (platform.reg address) := rfl
  rw [records_bind_of_ok returns]
  exact and_congr_left' records_readq

/-! ## Scans -/

/-- The scan of `feature_size` reads the headers to which it goes on. -/
theorem records_featureSizeLoop {base stop : Int} {fuel ofst : Nat} :
    Records (Event.InsideOnly start limit)
        (featureSizeLoop platform base stop fuel ofst) state ↔
      HoldsFor (fun next : Nat => Inside start limit (base + next))
        (interfaceNext platform base stop) fuel ofst := by
  induction fuel generalizing ofst with
  | zero => exact iff_of_true (records_fail.mpr trivial) (holdsFor_zero ofst)
  | succ fuel ih =>
      rw [featureSizeLoop, records_readq_bind, holdsFor_succ]
      refine and_congr_right fun _ => ?_
      have goesOn :
          interfaceNext platform base stop ofst =
            let value := platform.reg (base + ofst)
            let next := Word.add 32 ofst (dfhNextHdrOfst.get value)
            if dfhType.get value = dfhTypeInterface ∧ dfhEol.get value = 0 ∧
                base + next < stop then some next else none :=
        rfl
      rw [goesOn]
      dsimp only
      by_cases interface :
          dfhType.get (platform.reg (base + ofst)) = dfhTypeInterface
      swap
      · simp [interface]
      by_cases last : dfhEol.get (platform.reg (base + ofst)) = 0
      swap
      · simp [interface, last]
      by_cases below :
          base + Word.add 32 ofst
              (dfhNextHdrOfst.get (platform.reg (base + ofst))) < stop
      · simp [interface, last, below, ih]
      · simp [interface, last, below]

/-- Where the scan of the parameters goes on from the block at this offset. -/
def blockNext (platform : Platform) (dfhBase : Int) (max : Nat) (ofst : Int) :
    Option Int :=
  if Looks max ofst ∧ ¬ LastBlock (paramHdr platform dfhBase ofst) then
    some (behindBlock platform dfhBase ofst)
  else
    none

/-- The scan of the parameters reads the headers at which it looks. -/
theorem records_dfhGetParamSizeLoop {base : Int} {max fuel : Nat}
    {ofst : Int} :
    Records (Event.InsideOnly start limit)
        (dfhGetParamSizeLoop platform base max fuel ofst) state ↔
      HoldsFor
        (fun ofst => Looks max ofst →
          Inside start limit (base + dfhv1ParamHdr + ofst))
        (blockNext platform base max) fuel ofst := by
  induction fuel generalizing ofst with
  | zero => exact iff_of_true (records_fail.mpr trivial) (holdsFor_zero ofst)
  | succ fuel ih =>
      rw [holdsFor_succ]
      by_cases looks : Looks max ofst
      swap
      · have nothing :
            Records (Event.InsideOnly start limit)
              (dfhGetParamSizeLoop platform base max (fuel + 1) ofst)
              state := by
          unfold Records
          rw [dfhGetParamSizeLoop_beyond looks]
          exact fun _ => List.not_mem_nil.elim
        refine iff_of_true nothing ⟨fun here => absurd here looks, ?_⟩
        intro target goesOn
        rw [blockNext, if_neg fun both => looks both.1] at goesOn
        cases goesOn
      rw [forall_prop_of_true looks]
      unfold Records
      rw [dfhGetParamSizeLoop_looks looks]
      by_cases last : LastBlock (paramHdr platform base ofst)
      · rw [if_pos last, blockNext, if_neg fun both => both.2 last]
        simp [Event.InsideOnly]
      · rw [if_neg last, blockNext, if_pos ⟨looks, last⟩,
          List.forall_mem_cons]
        refine and_congr Iff.rfl (Iff.trans ih ?_)
        simp only [Option.some.injEq, forall_eq']

/-- The room which the scan for the size of a feature needs. -/
def ScanRoom (platform : Platform) (start limit : Nat) (base stop : Int) :
    Prop :=
  dfhNextHdrOfst.get (platform.reg base) ≠ 0 →
    dfhEol.get (platform.reg base) = 0 →
      HoldsFor (fun next : Nat => Inside start limit (base + next))
        (interfaceNext platform base stop) platform.fuel
        (dfhNextHdrOfst.get (platform.reg base))

/-- The room which the scan for the parameters of a feature needs. -/
structure ParamRoom (platform : Platform) (start limit : Nat) (base : Int)
    (max : Nat) : Prop where
  sizeGrp : Inside start limit (base + dfhv1CsrSizeGrp)
  blocks : HasParams platform base →
    HoldsFor
      (fun ofst => Looks max ofst →
        Inside start limit (base + dfhv1ParamHdr + ofst))
      (blockNext platform base max) platform.fuel 0

theorem records_featureSize {base stop : Int} :
    Records (Event.InsideOnly start limit)
        (featureSize platform base stop (platform.reg base)) state ↔
      ScanRoom platform start limit base stop := by
  unfold featureSize ScanRoom
  dsimp only
  by_cases zero : dfhNextHdrOfst.get (platform.reg base) = 0
  · simp [zero]
  by_cases last : dfhEol.get (platform.reg base) = 0
  · simp [zero, last, records_featureSizeLoop]
  · simp [zero, last]

theorem records_dfhGetParamSize {base : Int} {max : Nat} :
    Records (Event.InsideOnly start limit)
        (dfhGetParamSize platform base max) state ↔
      ParamRoom platform start limit base max := by
  rw [dfhGetParamSize, records_readq_bind]
  by_cases params : HasParams platform base
  · rw [if_neg params, records_dfhGetParamSizeLoop]
    exact ⟨fun reads => ⟨reads.1, fun _ => reads.2⟩,
      fun room => ⟨room.sizeGrp, room.blocks params⟩⟩
  · rw [if_pos (not_not.mp params), records_ret, and_true]
    exact ⟨fun inside => ⟨inside, fun has => absurd has params⟩,
      ParamRoom.sizeGrp⟩

/-! ## Reading a header -/

/-- The room which is needed for reading the header at this offset. -/
structure ReadRoom (platform : Platform) (start limit : Nat)
    (binfo : BuildFeatureDevsInfo) (ofst : Nat) : Prop where
  header : Inside start limit (binfo.ioaddr + ofst)
  /-- The headers which follow are scanned before the size is checked. -/
  scan : ScanRoom platform start limit (binfo.ioaddr + ofst)
    (binfo.ioaddr + binfo.len)
  /-- So are the parameters of a header of version 1. -/
  params : ∀ size,
    dfhVersion.get (platform.reg (binfo.ioaddr + ofst)) = 1 →
      extentOf platform binfo ofst 0 = .ok size → size ≠ 0 →
        ParamRoom platform start limit (binfo.ioaddr + ofst) size

theorem readRoom_iff {binfo : BuildFeatureDevsInfo} {ofst : Nat} :
    ReadRoom platform start limit binfo ofst ↔
      Inside start limit (binfo.ioaddr + ofst) ∧
        ScanRoom platform start limit (binfo.ioaddr + ofst)
            (binfo.ioaddr + binfo.len) ∧
          ∀ size, extentOf platform binfo ofst 0 = .ok size →
            dfhVersion.get (platform.reg (binfo.ioaddr + ofst)) = 1 →
              size ≠ 0 →
                ParamRoom platform start limit (binfo.ioaddr + ofst) size :=
  ⟨fun room => ⟨room.header, room.scan, fun size isSize isOne nonzero =>
      room.params size isOne isSize nonzero⟩,
    fun ⟨header, scan, params⟩ => ⟨header, scan,
      fun size isOne isSize nonzero => params size isSize isOne nonzero⟩⟩

theorem records_readHeader {ofst : Nat} :
    Records (Event.InsideOnly start limit) (readHeader platform ofst 0 0)
        state ↔
      ReadRoom platform start limit state.binfo ofst := by
  have sized (now : Enumeration) :
      (featureSize platform (state.binfo.ioaddr + ofst)
          (state.binfo.ioaddr + state.binfo.len)
          (platform.reg (state.binfo.ioaddr + ofst)) now).result =
        extentOf platform state.binfo ofst 0 :=
    (steady_featureSize platform _ _ _).result_eq _ _
  rw [readRoom_iff]
  unfold readHeader
  rw [records_read_bind]
  dsimp only
  rw [records_readq_bind, records_emit_bind, records_emit_bind,
    if_neg (not_not.mpr rfl), records_bind, records_featureSize, sized]
  refine and_congr Iff.rfl ((and_iff_right trivial).trans ?_)
  refine (and_iff_right trivial).trans (and_congr Iff.rfl ?_)
  refine forall₂_congr fun size _ => ?_
  by_cases zero : size = 0
  · simp [zero]
  rw [if_neg zero, records_bind]
  by_cases version :
      dfhVersion.get (platform.reg (state.binfo.ioaddr + ofst)) = 1
  · rw [if_pos version, records_dfhGetParamSize, forall_prop_of_true version,
      forall_prop_of_true zero]
    refine and_iff_left fun psize _ => ?_
    split <;> simp
  · rw [if_neg version]
    refine iff_of_true ⟨records_ret.mpr trivial, fun psize _ => ?_⟩
      fun isOne => absurd isOne version
    split <;> simp

/-! ## Creating a feature -/

theorem irqCap_afu (type : DflIdType) : irqCap type featureIdAfu = none := by
  cases type <;> rfl

/-- The header at this offset is taken, its feature fits, and is allocated. -/
structure Admitted (platform : Platform) (binfo : BuildFeatureDevsInfo)
    (calls ofst : Nat) (header : HeaderInfo) : Prop where
  taken : HeaderTaken platform binfo ofst 0 0 header
  fits : header.size ≤ Word.sub 64 binfo.len ofst
  granted : platform.external calls = none

/-- The room which is needed for creating a feature from this header. -/
structure HeaderRoom (platform : Platform) (start limit : Nat)
    (binfo : BuildFeatureDevsInfo) (calls ofst : Nat) : Prop where
  read : ReadRoom platform start limit binfo ofst
  /-- Parameters are copied whole, even if they exceed the feature. -/
  copied : ∀ header, Admitted platform binfo calls ofst header →
    ∀ i < header.dfhPsize / 8,
      Inside start limit (binfo.ioaddr + ofst + dfhv1ParamHdr + 8 * i)
  /-- Interrupts are read behind the end of a small feature. -/
  irqs : ∀ header cap, Admitted platform binfo calls ofst header →
    header.dfhVer = 0 → irqCap binfo.type header.fid = some cap →
      Inside start limit (binfo.ioaddr + ofst + cap.register)

section Create

variable {allowed : Event → Prop} {ofst : Nat}

theorem alloc_granted (granted : platform.external state.calls = none) :
    alloc platform state =
      ⟨[], .ok (), { state with calls := state.calls + 1 }⟩ := by
  have answers :
      answer platform state =
        ⟨[], .ok none, { state with calls := state.calls + 1 }⟩ := by
    rw [← granted]
    rfl
  exact bind_of_silent answers

theorem alloc_refused {ret : Errno}
    (refused : platform.external state.calls = some ret) :
    alloc platform state =
      ⟨[], .error (.errno .enomem),
        { state with calls := state.calls + 1 }⟩ := by
  have answers :
      answer platform state =
        ⟨[], .ok (some ret), { state with calls := state.calls + 1 }⟩ := by
    rw [← refused]
    rfl
  exact bind_of_silent answers

@[simp]
theorem records_alloc_bind {Value : Type} {rest : Unit → Build Value} :
    Records allowed (alloc platform >>= rest) state ↔
      (platform.external state.calls = none →
        Records allowed (rest ())
          { state with calls := state.calls + 1 }) := by
  unfold Records
  cases answers : platform.external state.calls with
  | none =>
      rw [bind_of_silent (alloc_granted answers)]
      exact ⟨fun holds _ => holds, fun holds => holds rfl⟩
  | some ret =>
      have fails := alloc_refused answers
      rw [bind_of_error (congrArg Run.result fails), fails]
      exact iff_of_true (fun _ => List.not_mem_nil.elim)
        fun impossible => nomatch impossible

theorem records_memcpyFromio {source : Int} {count : Nat} :
    Records (Event.InsideOnly start limit)
        (memcpyFromio platform source count) state ↔
      ∀ i < count, Inside start limit (source + 8 * i) := by
  induction count generalizing source with
  | zero =>
      exact iff_of_true (records_ret.mpr trivial)
        fun i impossible => absurd impossible (Nat.not_lt_zero i)
  | succ count ih =>
      rw [memcpyFromio, records_readq_bind, Nat.forall_lt_succ_left]
      refine and_congr (by simp [Event.InsideOnly]) ?_
      rw [records_bind_of_ok (memcpyFromio_result _ _ _), ih, records_ret,
        and_true]
      refine forall₂_congr fun i _ => ?_
      rw [Nat.cast_succ, Int.mul_add, Int.mul_one, Int.add_comm (8 * (i : Int)),
        Int.add_assoc]

theorem records_featureIrqs {base : Int} {type : DflIdType}
    {finfo : DflFeatureInfo} :
    Records (Event.InsideOnly start limit)
        (featureIrqs platform base type finfo) state ↔
      (finfo.dfhVersion = 0 → ∀ cap, irqCap type finfo.fid = some cap →
        Inside start limit (base + cap.register)) := by
  unfold featureIrqs
  by_cases zero : finfo.dfhVersion = 0
  · cases irqCap type finfo.fid <;> simp [zero, Event.InsideOnly]
  · rw [if_neg zero]
    refine iff_of_true ?_ fun isZero => absurd isZero zero
    split
    · split <;> simp
    · simp

theorem records_acceptFeature {finfo : DflFeatureInfo}
    {placement : Placement} :
    Records (Event.InsideOnly start limit)
        (acceptFeature platform ofst finfo placement) state ↔
      (finfo.dfhVersion = 0 →
        ∀ cap, irqCap state.binfo.type finfo.fid = some cap →
          Inside start limit (state.binfo.ioaddr + ofst + cap.register)) := by
  have accepts (filled : DflFeatureInfo) (now : Enumeration) :
      Records (Event.InsideOnly start limit)
        (update (fun state : Enumeration => state.withBinfo fun binfo =>
            { binfo with
              subFeatures := binfo.subFeatures ++ [filled]
              featureNum := binfo.featureNum + 1 }) >>= fun _ =>
          emit (.accepted filled placement) : Build Unit) now := by
    simp [Event.InsideOnly]
  unfold acceptFeature
  rw [records_bind, and_iff_left fun filled _ => accepts filled _]
  unfold parseFeatureIrqs
  rw [records_read_bind, records_bind, records_featureIrqs]
  refine and_iff_left fun irqs _ => ?_
  dsimp only
  split_ifs <;> simp

theorem Inside.between {base register beyond : Int}
    (first : Inside start limit base)
    (last : Inside start limit (base + beyond)) (above : 0 ≤ register)
    (below : register ≤ beyond) : Inside start limit (base + register) := by
  unfold Inside at first last ⊢
  omega

theorem headerRoom_iff {binfo : BuildFeatureDevsInfo} {calls : Nat} :
    HeaderRoom platform start limit binfo calls ofst ↔
      ReadRoom platform start limit binfo ofst ∧
        ∀ header, Admitted platform binfo calls ofst header →
          (∀ i < header.dfhPsize / 8,
            Inside start limit
              (binfo.ioaddr + ofst + dfhv1ParamHdr + 8 * i)) ∧
            (header.dfhVer = 0 →
              ∀ cap, irqCap binfo.type header.fid = some cap →
                Inside start limit (binfo.ioaddr + ofst + cap.register)) :=
  ⟨fun room => ⟨room.read, fun header admitted =>
      ⟨room.copied header admitted, fun isZero cap isCap =>
        room.irqs header cap admitted isZero isCap⟩⟩,
    fun ⟨first, rest⟩ => ⟨first, fun header admitted =>
      (rest header admitted).1,
      fun header cap admitted isZero isCap =>
        (rest header admitted).2 isZero cap isCap⟩⟩

theorem admitted_iff {binfo : BuildFeatureDevsInfo} {calls : Nat}
    {header : HeaderInfo} :
    Admitted platform binfo calls ofst header ↔
      HeaderTaken platform binfo ofst 0 0 header ∧
        header.size ≤ Word.sub 64 binfo.len ofst ∧
          platform.external calls = none :=
  ⟨fun ⟨taken, fits, granted⟩ => ⟨taken, fits, granted⟩,
    fun ⟨taken, fits, granted⟩ => ⟨taken, fits, granted⟩⟩

theorem records_createFeatureInstance :
    Records (Event.InsideOnly start limit)
        (createFeatureInstance platform ofst 0 0) state ↔
      HeaderRoom platform start limit state.binfo state.calls ofst := by
  unfold createFeatureInstance
  rw [headerRoom_iff, if_pos (by decide), records_bind, records_readHeader,
    readHeader_state]
  refine and_congr_right fun room => forall_congr' fun header => ?_
  rw [readHeader_result_iff, records_read_bind]
  dsimp only
  rw [admitted_iff, and_imp, and_imp]
  refine forall_congr' fun taken => ?_
  by_cases fits : Word.sub 64 state.binfo.len ofst < header.size
  · rw [if_pos fits]
    exact iff_of_true (records_fail.mpr trivial)
      fun within => absurd fits (Nat.not_lt.mpr within)
  rw [if_neg fits, forall_prop_of_true (Nat.le_of_not_lt fits),
    records_alloc_bind]
  refine forall_congr' fun granted => ?_
  rw [records_bind_of_ok (memcpyFromio_result _ _ _), records_memcpyFromio,
    (steady_memcpyFromio _ _ _).state_eq]
  refine and_congr Iff.rfl ?_
  by_cases isOne : header.dfhVer = 1
  swap
  · rw [if_neg isOne, records_acceptFeature]
  rw [if_pos isOne]
  refine iff_of_true ?_ fun isZero =>
    absurd (isOne.symm.trans isZero) (by decide)
  have params :=
    room.params header.size (taken.dfhVer ▸ isOne) taken.size taken.nonzero
  have inside {register : Int} (above : 0 ≤ register)
      (below : register ≤ dfhv1CsrSizeGrp) :
      Inside start limit (state.binfo.ioaddr + ofst + register) :=
    room.header.between params.sizeGrp above below
  rw [records_readq_bind, records_readq_bind]
  refine ⟨inside (by decide) (by decide), params.sizeGrp, ?_⟩
  split
  · exact records_ret.mpr trivial
  rw [records_readq_bind, records_readq_bind, records_acceptFeature]
  exact ⟨inside (by decide) (by decide), inside (by decide) (by decide),
    fun isZero => absurd (isOne.symm.trans isZero) (by decide)⟩

/-! ### Whether the feature is created -/

theorem readq_bind_result {Value : Type} {address : Int}
    {rest : BitVec 64 → Build Value} :
    ((readq platform address >>= rest) state).result =
      (rest (platform.reg address) state).result := by
  rw [bind_of_ok (rfl :
    (readq platform address state).result = .ok (platform.reg address))]
  rfl

/-- The interrupts of the feature pass the checks of `parse_feature_irqs`. -/
def IrqsAccepted (platform : Platform) (binfo : BuildFeatureDevsInfo)
    (ofst : Nat) (finfo : DflFeatureInfo) : Prop :=
  ∀ irqs,
    (featureIrqs platform (binfo.ioaddr + ofst) binfo.type finfo
        (initialEnumeration 0)).result = .ok irqs →
      irqs.2 = 0 ∨
        Word.add 32 irqs.1 irqs.2 ≤ binfo.nrIrqs ∧
          ∀ i < irqs.2, ¬ InvalidIrq platform (Word.add 32 irqs.1 i)

/-- The feature which is described at this header, as for its interrupts. -/
def describedFeature (platform : Platform) (base : Int)
    (header : HeaderInfo) : DflFeatureInfo where
  fid := header.fid
  revision := header.revision
  dfhVersion := header.dfhVer
  guid := (0, 0)
  mmioRes := default
  irqBase := 0
  nrIrqs := 0
  paramSize := header.dfhPsize
  params := registers platform (base + dfhv1ParamHdr) (header.dfhPsize / 8)

/-- The registers of the feature are beyond the window, so it is ignored. -/
def CsrIgnored (platform : Platform) (binfo : BuildFeatureDevsInfo)
    (ofst : Nat) : Prop :=
  csrResource binfo ofst
      (platform.reg (binfo.ioaddr + ofst + dfhv1CsrAddr))
      (platform.reg (binfo.ioaddr + ofst + dfhv1CsrSizeGrp)) = none

/-- The header at this offset passes all checks. -/
def Created (platform : Platform) (binfo : BuildFeatureDevsInfo)
    (calls ofst : Nat) : Prop :=
  ∃ header, Admitted platform binfo calls ofst header ∧
    (header.dfhVer = 1 ∧ CsrIgnored platform binfo ofst ∨
      IrqsAccepted platform binfo ofst
        (describedFeature platform (binfo.ioaddr + ofst) header))

theorem exists_featureIrqs (platform : Platform) (base : Int)
    (type : DflIdType) (finfo : DflFeatureInfo) :
    ∃ irqs, ∀ state,
      (featureIrqs platform base type finfo state).result = .ok irqs := by
  unfold featureIrqs
  split_ifs
  · cases irqCap type finfo.fid <;> exact ⟨_, fun _ => rfl⟩
  · cases findParam finfo.params dfhv1ParamIdMsiX finfo.params.length 0 <;>
      exact ⟨_, fun _ => rfl⟩
  · exact ⟨_, fun _ => rfl⟩

theorem parseFeatureIrqs_result_iff {finfo : DflFeatureInfo} :
    (∃ filled, (parseFeatureIrqs platform ofst finfo state).result =
        .ok filled) ↔
      IrqsAccepted platform state.binfo ofst finfo := by
  obtain ⟨irqs, isIrqs⟩ :=
    exists_featureIrqs platform (state.binfo.ioaddr + ofst) state.binfo.type
      finfo
  have accepted :
      IrqsAccepted platform state.binfo ofst finfo ↔
        irqs.2 = 0 ∨
          Word.add 32 irqs.1 irqs.2 ≤ state.binfo.nrIrqs ∧
            ∀ i < irqs.2, ¬ InvalidIrq platform (Word.add 32 irqs.1 i) := by
    unfold IrqsAccepted
    rw [isIrqs]
    simp only [Except.ok.injEq, forall_eq']
  have valid :
      (List.range irqs.2).any
          (fun i =>
            (platform.irqTable (Word.add 32 irqs.1 i) < 0 : Bool) ||
              (platform.irqTable (Word.add 32 irqs.1 i) >
                platform.nrIrqsMax : Bool)) = false ↔
        ∀ i < irqs.2, ¬ InvalidIrq platform (Word.add 32 irqs.1 i) := by
    simp [InvalidIrq]
  rw [accepted, ← valid, parseFeatureIrqs, read_bind,
    bind_of_ok (isIrqs state)]
  dsimp only
  split_ifs with none' exceeds invalid
  · exact iff_of_true ⟨_, rfl⟩ (.inl none')
  · refine iff_of_false (by rintro ⟨_, ⟨⟩⟩) ?_
    exact not_or.mpr ⟨none', fun both => absurd both.1 (Nat.not_le.mpr exceeds)⟩
  · refine iff_of_false (by rintro ⟨_, ⟨⟩⟩) ?_
    refine not_or.mpr ⟨none', fun both => ?_⟩
    exact Bool.false_ne_true (both.2.symm.trans invalid)
  · refine iff_of_true ⟨_, rfl⟩ (.inr ⟨Nat.le_of_not_lt exceeds, ?_⟩)
    exact Bool.eq_false_iff.mpr invalid

theorem acceptFeature_result_iff {finfo : DflFeatureInfo}
    {placement : Placement} :
    (acceptFeature platform ofst finfo placement state).result = .ok () ↔
      IrqsAccepted platform state.binfo ofst finfo := by
  rw [acceptFeature, bind_result_iff, ← parseFeatureIrqs_result_iff]
  exact exists_congr fun filled => and_iff_left rfl

theorem createFeatureInstance_result_iff :
    (createFeatureInstance platform ofst 0 0 state).result = .ok () ↔
      Created platform state.binfo state.calls ofst := by
  unfold createFeatureInstance Created
  rw [if_pos (by decide), bind_result_iff]
  refine exists_congr fun header => ?_
  rw [readHeader_result_iff, readHeader_state, read_bind,
    admitted_iff, and_assoc, and_assoc]
  refine and_congr_right fun taken => ?_
  dsimp only
  by_cases fits : Word.sub 64 state.binfo.len ofst < header.size
  · rw [if_pos fits]
    exact iff_of_false (fun impossible => nomatch impossible)
      fun both => absurd fits (Nat.not_lt.mpr both.1)
  rw [if_neg fits, and_iff_right (Nat.le_of_not_lt fits)]
  cases granted : platform.external state.calls with
  | some ret =>
      rw [bind_of_error (congrArg Run.result (alloc_refused granted))]
      exact iff_of_false (fun impossible => nomatch impossible)
        fun both => nomatch both.1
  | none =>
  rw [bind_of_silent (alloc_granted granted), and_iff_right rfl,
    bind_of_ok (memcpyFromio_result _ _ _),
    (steady_memcpyFromio _ _ _).state_eq]
  by_cases isOne : header.dfhVer = 1
  swap
  · rw [if_neg isOne, acceptFeature_result_iff]
    exact ⟨.inr, fun either => either.resolve_left fun ignored =>
      isOne ignored.1⟩
  rw [if_pos isOne, and_iff_right isOne, readq_bind_result,
    readq_bind_result]
  unfold CsrIgnored
  cases csr : csrResource state.binfo ofst
      (platform.reg (state.binfo.ioaddr + ofst + dfhv1CsrAddr))
      (platform.reg (state.binfo.ioaddr + ofst + dfhv1CsrSizeGrp)) with
  | none => exact iff_of_true rfl (.inl rfl)
  | some placed =>
      dsimp only
      rw [readq_bind_result, readq_bind_result, acceptFeature_result_iff]
      exact ⟨.inr, fun either => either.resolve_left nofun⟩

/-- The window and the type of the device stay when a feature is created. -/
structure SameFrame (binfo next : BuildFeatureDevsInfo) : Prop where
  ioaddr : next.ioaddr = binfo.ioaddr
  start : next.start = binfo.start
  len : next.len = binfo.len
  type : next.type = binfo.type

theorem createFeatureInstance_sameFrame (size fid : Nat) :
    SameFrame state.binfo
      (createFeatureInstance platform ofst size fid state).state.binfo := by
  have stable :
      Stable (fun _ => True) fun _ next => SameFrame state.binfo next.binfo :=
    { event := fun _ _ _ _ => id
      state := fun _ _ _ binfo _ same => binfo ▸ same }
  have keeps :
      Keeps (fun _ next => SameFrame state.binfo next.binfo)
        (createFeatureInstance platform ofst size fid) := by
    refine stable.keeps_createFeatureInstance (fun _ => trivial) ?_ ?_ size
    · exact fun _ _ _ _ same _ =>
        ⟨same.ioaddr, same.start, same.len, same.type⟩
    · exact fun _ _ _ _ _ => id
  exact keeps.keepsState ⟨rfl, rfl, rfl, rfl⟩

end Create

/-! ## Parsing an AFU or a private feature -/

section Parse

variable {allowed : Event → Prop} {ofst : Nat}

/-- An AFU is created without reading from it. -/
theorem records_createFeatureInstance_afu (size : Nat) :
    Records (Event.InsideOnly start limit)
      (createFeatureInstance platform ofst size featureIdAfu) state := by
  unfold createFeatureInstance
  rw [if_neg (not_not.mpr rfl)]
  rw [records_pure_bind, records_read_bind]
  dsimp only
  split
  · exact records_fail.mpr trivial
  rw [records_alloc_bind]
  intro granted
  refine records_bind.mpr ⟨records_ret.mpr trivial, fun params _ => ?_⟩
  rw [if_neg Nat.zero_ne_one, records_acceptFeature]
  intro _ cap isCap
  cases irqCap_afu _ ▸ isCap

theorem records_parseFeatureAfu :
    Records (Event.InsideOnly start limit) (parseFeatureAfu platform ofst)
        state ↔
      (state.binfo.type = .port →
        Inside start limit (state.binfo.ioaddr + portHdrCap)) := by
  unfold parseFeatureAfu
  rw [records_read_bind]
  cases type : state.binfo.type with
  | port =>
      dsimp only
      unfold parseFeaturePortAfu
      rw [records_read_bind, records_readq_bind,
        and_iff_left (records_createFeatureInstance_afu _)]
      exact ⟨fun inside _ => inside, fun inside => inside rfl⟩
  | _ => simp

/-- The device to which a private feature is added. -/
def privateBinfo (platform : Platform) (binfo : BuildFeatureDevsInfo) :
    BuildFeatureDevsInfo :=
  if dfhVersion.get (platform.reg binfo.ioaddr) = 1 then
    { binfo with type := .privFeat }
  else
    binfo

/-- The feature begins a device, or is one of a device which is detected. -/
def OfDevice (platform : Platform) (binfo : BuildFeatureDevsInfo) : Prop :=
  dfhVersion.get (platform.reg binfo.ioaddr) = 0 → binfo.type ≠ .max

theorem records_parseFeaturePrivate
    (window : Inside start limit state.binfo.ioaddr)
    (header : Inside start limit (state.binfo.ioaddr + ofst)) :
    Records (Event.InsideOnly start limit)
        (parseFeaturePrivate platform ofst) state ↔
      (OfDevice platform state.binfo →
        HeaderRoom platform start limit (privateBinfo platform state.binfo)
          state.calls ofst) := by
  unfold parseFeaturePrivate
  rw [records_read_bind]
  dsimp only
  rw [dfh, Int.add_zero, records_readq_bind, records_emit_bind,
    records_emit_bind]
  refine (and_iff_right window).trans ((and_iff_right trivial).trans ?_)
  refine (and_iff_right trivial).trans ?_
  by_cases undetected :
      dfhVersion.get (platform.reg state.binfo.ioaddr) = 0 ∧
        state.binfo.type = .max
  · rw [if_pos undetected, records_readq_bind]
    exact iff_of_true ⟨header, records_fail.mpr trivial⟩
      fun detected => absurd undetected.2 (detected undetected.1)
  have ofDevice : OfDevice platform state.binfo :=
    fun zero none => undetected ⟨zero, none⟩
  rw [if_neg undetected, forall_prop_of_true ofDevice]
  unfold privateBinfo
  by_cases isOne : dfhVersion.get (platform.reg state.binfo.ioaddr) = 1
  · rw [if_pos isOne, if_pos isOne]
    have starts (now : Enumeration) :
        startPrivate now.binfo.type now.binfo.featureNum now =
          ⟨if now.binfo.type = .max then
              [.started none now.binfo.featureNum] else [], .ok (),
            now.withBinfo fun binfo => { binfo with type := .privFeat }⟩ := by
      unfold startPrivate
      split <;> rfl
    have records :
        Records (Event.InsideOnly start limit)
          (startPrivate state.binfo.type state.binfo.featureNum) state := by
      unfold Records
      rw [starts]
      split <;> simp [Event.InsideOnly]
    rw [records_bind_of_ok (congrArg Run.result (starts state)), starts,
      records_createFeatureInstance]
    exact and_iff_right records
  · rw [if_neg isOne, if_neg isOne, records_pure_bind,
      records_createFeatureInstance]

end Parse

/-! ## Calls -/

/-- This many calls, from this one on, are answered with success. -/
def Granted (platform : Platform) (calls count : Nat) : Prop :=
  ∀ i < count, platform.external (calls + i) = none

theorem granted_add {calls first rest : Nat} :
    Granted platform calls (first + rest) ↔
      Granted platform calls first ∧
        Granted platform (calls + first) rest := by
  constructor
  · intro granted
    refine ⟨fun i below => granted i (Nat.lt_add_right rest below),
      fun i below => ?_⟩
    rw [Nat.add_assoc]
    exact granted (first + i) (Nat.add_lt_add_left below first)
  · rintro ⟨early, late⟩ i below
    by_cases inFirst : i < first
    · exact early i inFirst
    · have later := late (i - first) (by omega)
      rwa [Nat.add_assoc, Nat.add_sub_cancel' (Nat.le_of_not_lt inFirst)]
        at later

/-- From this state, the program makes so many calls, and needs them all. -/
structure Asks {Value : Type} (platform : Platform) (count : Nat)
    (program : Build Value) (state : Enumeration) : Prop where
  returns_iff :
    (∃ value, (program state).result = .ok value) ↔
      Granted platform state.calls count
  calls : ∀ value, (program state).result = .ok value →
    (program state).state.calls = state.calls + count

theorem asks_nothing {Value : Type} {program : Build Value} {value : Value}
    (returns : (program state).result = .ok value)
    (calls : (program state).state.calls = state.calls) :
    Asks platform 0 program state where
  returns_iff :=
    iff_of_true ⟨value, returns⟩ fun i below => absurd below (Nat.not_lt_zero i)
  calls _ _ := calls

theorem Asks.bind {Value Next : Type} {program : Build Value}
    {rest : Value → Build Next} {first second : Nat}
    (asks : Asks platform first program state)
    (others : ∀ value, (program state).result = .ok value →
      Asks platform second (rest value) (program state).state) :
    Asks platform (first + second) (program >>= rest) state where
  returns_iff := by
    rw [granted_add, ← asks.returns_iff]
    constructor
    · rintro ⟨last, returns⟩
      obtain ⟨value, isValue, isLast⟩ := bind_result_iff.mp returns
      refine ⟨⟨value, isValue⟩, ?_⟩
      rw [← asks.calls value isValue]
      exact (others value isValue).returns_iff.mp ⟨last, isLast⟩
    · rintro ⟨⟨value, isValue⟩, later⟩
      rw [← asks.calls value isValue] at later
      obtain ⟨last, isLast⟩ := (others value isValue).returns_iff.mpr later
      exact ⟨last, bind_result_iff.mpr ⟨value, isValue, isLast⟩⟩
  calls last returns := by
    obtain ⟨value, isValue, isLast⟩ := bind_result_iff.mp returns
    rw [bind_of_ok isValue]
    have later := (others value isValue).calls last isLast
    dsimp only
    rw [later, asks.calls value isValue, Nat.add_assoc]

theorem asks_read_bind {Value : Type} {rest : Enumeration → Build Value}
    {count : Nat} (asks : Asks platform count (rest state) state) :
    Asks platform count (Program.read >>= rest) state :=
  ⟨asks.returns_iff, asks.calls⟩

theorem granted_one {calls : Nat} :
    Granted platform calls 1 ↔ platform.external calls = none :=
  ⟨fun granted => granted 0 Nat.one_pos, fun granted i below => by
    rwa [Nat.lt_one_iff.mp below]⟩

/-- A call is needed by what goes on only if it is answered with success. -/
theorem asks_call_of {Value : Type} {program : Build Value} {count : Nat}
    (granted : platform.external state.calls = none →
      ∃ rest : Build Value,
        program state = rest { state with calls := state.calls + 1 } ∧
          Asks platform count rest { state with calls := state.calls + 1 })
    (refused : ∀ ret, platform.external state.calls = some ret →
      ∃ failure, (program state).result = .error failure) :
    Asks platform (1 + count) program state := by
  cases answers : platform.external state.calls with
  | none =>
      obtain ⟨rest, runs, asks⟩ := granted answers
      refine ⟨?_, fun value returns => ?_⟩
      · rw [runs, granted_add, asks.returns_iff]
        exact (and_iff_right (granted_one.mpr answers)).symm
      · rw [runs] at returns ⊢
        rw [asks.calls value returns, Nat.add_assoc]
  | some ret =>
      obtain ⟨failure, fails⟩ := refused ret answers
      refine ⟨iff_of_false ?_ ?_, fun value returns => ?_⟩
      · rintro ⟨value, returns⟩
        exact nomatch fails.symm.trans returns
      · intro granted
        have first := granted_one.mp (granted_add.mp granted).1
        exact nomatch answers.symm.trans first
      · exact nomatch fails.symm.trans returns

theorem answer_bind {Value : Type} {rest : Option Errno → Build Value} :
    (answer platform >>= rest) state =
      rest (platform.external state.calls)
        { state with calls := state.calls + 1 } :=
  bind_of_silent rfl

theorem asks_alloc : Asks platform 1 (alloc platform) state := by
  refine asks_call_of (fun granted => ⟨pure (), ?_, asks_nothing rfl rfl⟩)
    fun ret refused => ⟨.errno .enomem, ?_⟩
  · unfold alloc
    rw [answer_bind, granted]
  · unfold alloc
    rw [answer_bind, refused]
    rfl

theorem asks_call : Asks platform 1 (call platform) state := by
  refine asks_call_of (fun granted => ⟨pure (), ?_, asks_nothing rfl rfl⟩)
    fun ret refused => ⟨.errno ret, ?_⟩
  · unfold call
    rw [answer_bind, granted]
  · unfold call
    rw [answer_bind, refused]
    rfl

theorem asks_allocSome (size : Nat) :
    Asks platform (if size ≠ 0 then 1 else 0) (allocSome platform size)
      state := by
  unfold allocSome
  split
  · exact asks_alloc
  · exact asks_nothing rfl rfl

/-- How many calls are made for this feature when its device is committed. -/
def featureCalls (finfo : DflFeatureInfo) : Nat :=
  (if finfo.paramSize ≠ 0 then 1 else 0) +
    ((if isHeaderFeature finfo.fid then 1 else 0) +
      if finfo.nrIrqs ≠ 0 then 1 else 0)

theorem asks_fillFeatures (resIdx : Nat) (finfos : List DflFeatureInfo) :
    Asks platform (finfos.map featureCalls).sum
      (fillFeatures platform resIdx finfos) state := by
  induction finfos generalizing resIdx state with
  | nil => exact asks_nothing rfl rfl
  | cons finfo rest ih =>
      have header (now : Enumeration) :
          Asks platform (if isHeaderFeature finfo.fid then 1 else 0)
            (if isHeaderFeature finfo.fid then call platform else pure ())
            now := by
        split
        · exact asks_call
        · exact asks_nothing rfl rfl
      rw [List.map_cons, List.sum_cons]
      unfold featureCalls
      rw [Nat.add_assoc, Nat.add_assoc]
      refine (asks_allocSome finfo.paramSize).bind fun _ _ => ?_
      refine (header _).bind fun _ _ => ?_
      refine (asks_allocSome finfo.nrIrqs).bind fun _ _ => ?_
      rw [← Nat.add_zero (List.sum _)]
      exact (ih _).bind fun _ _ => asks_nothing rfl rfl

/-- How many calls are made when a device is committed. -/
def commitCalls (binfo : BuildFeatureDevsInfo) : Nat :=
  5 + (binfo.subFeatures.map featureCalls).sum + 4

theorem asks_binfoCreateFeatureDevData (detected : state.binfo.type ≠ .max) :
    Asks platform (5 + (state.binfo.subFeatures.map featureCalls).sum)
      (binfoCreateFeatureDevData platform) state := by
  have total (calls : Nat) : 5 + calls = 1 + (1 + (1 + (1 + (1 + calls)))) := by
    omega
  rw [total, ← Nat.add_zero (List.sum _)]
  unfold binfoCreateFeatureDevData
  refine asks_read_bind ?_
  dsimp only
  rw [if_neg detected]
  refine asks_alloc.bind fun _ _ => asks_alloc.bind fun _ _ => ?_
  refine asks_alloc.bind fun _ _ => asks_call.bind fun _ _ => ?_
  refine asks_call.bind fun _ _ => (asks_fillFeatures 0 _).bind fun _ _ => ?_
  exact asks_nothing rfl rfl

theorem asks_buildInfoCommitDev (detected : state.binfo.type ≠ .max) :
    Asks platform (commitCalls state.binfo) (buildInfoCommitDev platform)
      state := by
  have registers (now : Enumeration) :
      Asks platform 4 (featureDevRegister platform) now :=
    asks_alloc.bind fun _ _ =>
      @Asks.bind _ _ _ _ _ _ 1 2 asks_call fun _ _ =>
        @Asks.bind _ _ _ _ _ _ 1 1 asks_call fun _ _ => asks_call
  refine (asks_binfoCreateFeatureDevData detected).bind fun fdata _ => ?_
  rw [← Nat.add_zero 4]
  exact (registers _).bind fun _ _ => asks_nothing rfl rfl

theorem asks_buildInfoPrepare (first len : Nat) :
    Asks platform 2 (buildInfoPrepare platform first len) state := by
  refine @asks_call_of _ _ _ _ 1 (fun granted =>
    ⟨alloc platform >>= fun _ => update fun state =>
      state.withBinfo fun binfo =>
        { binfo with start := first, len := len, ioaddr := first }, ?_, ?_⟩)
    fun ret refused => ⟨.errno .ebusy, ?_⟩
  · unfold buildInfoPrepare
    rw [answer_bind, granted]
  · rw [← Nat.add_zero 1]
    exact asks_alloc.bind fun _ _ => asks_nothing rfl rfl
  · unfold buildInfoPrepare
    rw [answer_bind, refused]
    rfl

/-- How many calls are made when the window switches to another FIU. -/
def switchCalls (binfo : BuildFeatureDevsInfo) : Nat :=
  if binfo.type ≠ .max then commitCalls binfo + 2 else 0

theorem asks_switchFiu (ofst : Nat) :
    Asks platform (switchCalls state.binfo) (switchFiu platform ofst)
      state := by
  unfold switchFiu switchCalls
  refine asks_read_bind ?_
  split
  · rename_i detected
    exact (asks_buildInfoCommitDev detected).bind fun _ _ =>
      asks_buildInfoPrepare _ _
  · exact asks_nothing rfl rfl

/-! ## Parsing an FIU -/

/-- All events so far are allowed. -/
def AllAllowed (allowed : Event → Prop) : BuildAssertion :=
  fun past _ => ∀ event ∈ past, allowed event

theorem stable_allAllowed (allowed : Event → Prop) :
    Stable allowed (AllAllowed allowed) where
  event past state event isAllowed holds other member := by
    rcases List.mem_append.mp member with earlier | latest
    · exact holds other earlier
    · exact List.mem_singleton.mp latest ▸ isAllowed
  state _ _ _ _ _ holds := holds

/-- The build information with which an FIU at this offset is begun. -/
def windowInfo (binfo : BuildFeatureDevsInfo) (ofst : Nat) :
    BuildFeatureDevsInfo :=
  if binfo.type ≠ .max then binfo.switched ofst else binfo

/-- The type of the FIU at this offset. -/
def fiuType (platform : Platform) (binfo : BuildFeatureDevsInfo)
    (ofst : Nat) : DflIdType :=
  dfhIdToType (dfhId.get (platform.reg (windowInfo binfo ofst).ioaddr))

/-- The room which an FIU needs, with this build information. -/
structure FiuRoom (platform : Platform) (start limit : Nat)
    (binfo : BuildFeatureDevsInfo) (calls : Nat) : Prop where
  header : HeaderRoom platform start limit binfo calls 0
  /-- `NEXT_AFU` is read of every FIU which is created. -/
  next : Created platform binfo calls 0 →
    Inside start limit (binfo.ioaddr + nextAfu)
  /-- The size of an AFU is read from its port. -/
  afu : Created platform binfo calls 0 → binfo.type = .port →
    nextAfuNextDfhOfst.get (platform.reg (binfo.ioaddr + nextAfu)) ≠ 0 →
      Inside start limit (binfo.ioaddr + portHdrCap)

section Fiu

variable {ofst : Nat}

theorem records_switchFiu :
    Records (Event.InsideOnly start limit) (switchFiu platform ofst)
      state :=
  Triple.records <|
    (stable_allAllowed _).switchFiu_switches (fun _ _ holds _ => holds)
      (fun past before _ holds _ _ _ =>
        (stable_allAllowed _).event past before _ trivial holds)
      (fun _ _ _ holds => holds) fun _ _ _ holds => holds

theorem switchFiu_binfo
    (returns : (switchFiu platform ofst state).result = .ok ()) :
    (switchFiu platform ofst state).state.binfo =
      windowInfo state.binfo ofst := by
  have stable :
      Stable (fun _ => True) fun _ now => now.binfo = state.binfo :=
    { event := fun _ _ _ _ => id
      state := fun _ _ _ binfo _ same => binfo.trans same }
  have switches :
      Triple (fun _ now => now.binfo = state.binfo) (switchFiu platform ofst)
        (fun _ _ now => now.binfo = windowInfo state.binfo ofst)
        fun _ _ => True := by
    refine stable.switchFiu_switches ?_ ?_ (fun _ _ _ _ => trivial)
      fun _ _ _ _ => trivial
    · intro _ now same undetected
      rw [windowInfo, if_neg (not_not.mpr (same ▸ undetected)), same]
    · intro _ now next same detected _ switched
      rw [windowInfo, if_pos (same ▸ detected), switched, same]
  exact switches.run rfl returns

/-- Behind the header of an FIU, `NEXT_AFU` may lead to a read of its port. -/
theorem records_findAfu {base header : Int}
    (ioaddr : state.binfo.ioaddr = base) :
    Records (Event.InsideOnly start limit)
        (readq platform (base + nextAfu) >>= fun value =>
          emit (.decides nextAfuNextDfhOfst nextAfu (base + nextAfu)
            header) >>= fun _ =>
          if nextAfuNextDfhOfst.get value ≠ 0 then
            parseFeatureAfu platform (nextAfuNextDfhOfst.get value)
          else pure ()) state ↔
      Inside start limit (base + nextAfu) ∧
        (nextAfuNextDfhOfst.get (platform.reg (base + nextAfu)) ≠ 0 →
          state.binfo.type = .port →
            Inside start limit (base + portHdrCap)) := by
  rw [records_readq_bind, records_emit_bind]
  refine and_congr Iff.rfl ((and_iff_right trivial).trans ?_)
  by_cases nonzero :
      nextAfuNextDfhOfst.get (platform.reg (base + nextAfu)) ≠ 0
  · rw [if_pos nonzero, records_parseFeatureAfu, ioaddr]
    exact ⟨fun inside _ => inside, fun inside => inside nonzero⟩
  · rw [if_neg nonzero]
    exact iff_of_true (records_ret.mpr trivial) fun some' =>
      absurd some' nonzero

theorem records_parseFeatureFiu
    (base : Inside start limit (windowInfo state.binfo ofst).ioaddr) :
    Records (Event.InsideOnly start limit) (parseFeatureFiu platform ofst)
        state ↔
      (Granted platform state.calls (switchCalls state.binfo) →
        fiuType platform state.binfo ofst ≠ .max →
          FiuRoom platform start limit
            ((windowInfo state.binfo ofst).begun
              (fiuType platform state.binfo ofst))
            (state.calls + switchCalls state.binfo)) := by
  have asks :
      Asks platform (switchCalls state.binfo) (switchFiu platform ofst) state :=
    asks_switchFiu ofst
  rw [← asks.returns_iff]
  unfold parseFeatureFiu
  rw [records_bind, and_iff_right records_switchFiu, forall_exists_index]
  refine forall₂_congr fun value returns => ?_
  have binfo := switchFiu_binfo returns
  have calls := asks.calls value returns
  generalize (switchFiu platform ofst state).state = now at binfo calls ⊢
  have type :
      fiuType platform state.binfo ofst =
        dfhIdToType (dfhId.get (platform.reg now.binfo.ioaddr)) := by
    rw [fiuType, binfo]
  rw [records_read_bind]
  dsimp only
  rw [dfh, Int.add_zero, records_readq_bind, records_emit_bind, ← type,
    ← calls]
  rw [← binfo] at base ⊢
  refine (and_iff_right base).trans ((and_iff_right trivial).trans ?_)
  by_cases unknown : fiuType platform state.binfo ofst = .max
  · rw [if_pos unknown]
    exact iff_of_true (records_fail.mpr trivial) fun known =>
      absurd unknown known
  rw [if_neg unknown, records_update_bind, records_emit_bind,
    forall_prop_of_true unknown]
  refine (and_iff_right trivial).trans ?_
  let begun := now.withBinfo fun binfo =>
    binfo.begun (fiuType platform state.binfo ofst)
  change Records _ _ begun ↔
    FiuRoom platform start limit begun.binfo begun.calls
  have frame :
      SameFrame begun.binfo
        (createFeatureInstance platform 0 0 0 begun).state.binfo :=
    createFeatureInstance_sameFrame 0 0
  have created :
      (createFeatureInstance platform 0 0 0 begun).result = .ok () ↔
        Created platform begun.binfo begun.calls 0 :=
    createFeatureInstance_result_iff
  have afu := @records_findAfu platform start limit _ _ now.header frame.ioaddr
  rw [frame.type] at afu
  rw [records_bind, records_createFeatureInstance]
  constructor
  · rintro ⟨header, rest⟩
    refine ⟨header, fun isCreated => ?_, fun isCreated isPort nonzero => ?_⟩
    · exact (afu.mp (rest () (created.mpr isCreated))).1
    · exact (afu.mp (rest () (created.mpr isCreated))).2 nonzero isPort
  · intro room
    refine ⟨room.header, fun _ returns => afu.mpr ?_⟩
    have isCreated := created.mp returns
    exact ⟨room.next isCreated, fun nonzero isPort =>
      room.afu isCreated isPort nonzero⟩

end Fiu

/-! ## One header -/

/-- The window lies between start and limit, and has room for a DFH. -/
structure ListWindow (start limit : Nat) (binfo : BuildFeatureDevsInfo) :
    Prop where
  mapped : binfo.ioaddr = binfo.start
  above : start ≤ binfo.start
  ends : binfo.start + binfo.len = limit
  room : binfo.start + dfhSize ≤ limit

/-- The room which the header at this offset needs in the window. -/
structure Room (platform : Platform) (start limit : Nat) (seen : Enumeration)
    (ofst : Nat) : Prop where
  header : Inside start limit (seen.binfo.ioaddr + ofst)
  afu :
    dfhType.get (platform.reg (seen.binfo.ioaddr + ofst)) = dfhTypeAfu →
      seen.binfo.type = .port →
        Inside start limit (seen.binfo.ioaddr + portHdrCap)
  feature :
    dfhType.get (platform.reg (seen.binfo.ioaddr + ofst)) = dfhTypePrivate →
      OfDevice platform seen.binfo →
        HeaderRoom platform start limit (privateBinfo platform seen.binfo)
          seen.calls ofst
  fiu :
    dfhType.get (platform.reg (seen.binfo.ioaddr + ofst)) = dfhTypeFiu →
      Granted platform seen.calls (switchCalls seen.binfo) →
        fiuType platform seen.binfo ofst ≠ .max →
          FiuRoom platform start limit
            ((windowInfo seen.binfo ofst).begun
              (fiuType platform seen.binfo ofst))
            (seen.calls + switchCalls seen.binfo)

section Header

variable {ofst : Nat}

theorem ListWindow.inside {binfo : BuildFeatureDevsInfo}
    (window : ListWindow start limit binfo) :
    Inside start limit binfo.ioaddr := by
  have above := window.above
  have room := window.room
  unfold dfhSize at room
  rw [window.mapped]
  exact ⟨by omega, by omega⟩

/-- The window which begins at a header that is inside. -/
theorem ListWindow.switched {binfo : BuildFeatureDevsInfo}
    (window : ListWindow start limit binfo) (noWrap : limit < 2 ^ 64)
    (header : Inside start limit (binfo.ioaddr + ofst)) :
    (binfo.switched ofst).start = binfo.start + ofst ∧
      ListWindow start limit (binfo.switched ofst) := by
  have above := window.above
  have ends := window.ends
  obtain ⟨-, below⟩ := header
  rw [window.mapped] at below
  have first : Word.add 64 binfo.start ofst = binfo.start + ofst :=
    Word.add_of_lt (by omega)
  have remains : Word.sub 64 binfo.len ofst = binfo.len - ofst :=
    Word.sub_of_le (by omega)
  refine ⟨first, ⟨rfl, ?_, ?_, ?_⟩⟩
  · show start ≤ Word.add 64 binfo.start ofst
    omega
  · show Word.add 64 binfo.start ofst + Word.sub 64 binfo.len ofst = limit
    omega
  · show Word.add 64 binfo.start ofst + dfhSize ≤ limit
    unfold dfhSize
    omega

theorem ListWindow.windowInfo {binfo : BuildFeatureDevsInfo}
    (window : ListWindow start limit binfo) (noWrap : limit < 2 ^ 64)
    (header : Inside start limit (binfo.ioaddr + ofst)) :
    ListWindow start limit (windowInfo binfo ofst) := by
  unfold LinuxDfl.Dfl.windowInfo
  split
  · exact (window.switched noWrap header).2
  · exact window

/-- What a header reads is inside exactly if it has the room it needs. -/
theorem records_parseFeature (window : ListWindow start limit state.binfo)
    (noWrap : limit < 2 ^ 64) :
    Records (Event.InsideOnly start limit) (parseFeature platform ofst)
        state ↔
      Room platform start limit state ofst := by
  have room_iff :
      Room platform start limit state ofst ↔ _ ∧ _ ∧ _ ∧ _ :=
    ⟨fun ⟨header, afu, feature, fiu⟩ => ⟨header, afu, feature, fiu⟩,
      fun ⟨header, afu, feature, fiu⟩ => ⟨header, afu, feature, fiu⟩⟩
  rw [room_iff]
  unfold parseFeature
  rw [records_read_bind, records_emit_bind, records_update_bind, dfh,
    Int.add_zero, records_readq_bind]
  refine (and_iff_right trivial).trans (and_congr_right fun header => ?_)
  dsimp only
  generalize type :
    dfhType.get (platform.reg (state.binfo.ioaddr + ofst)) = found
  by_cases isAfu : found = dfhTypeAfu
  · subst isAfu
    rw [if_pos rfl, records_parseFeatureAfu]
    simp [dfhTypeAfu, dfhTypePrivate, dfhTypeFiu]
  by_cases isPrivate : found = dfhTypePrivate
  · subst isPrivate
    rw [if_neg isAfu, if_pos rfl]
    have parses :
        Records (Event.InsideOnly start limit)
            (parseFeaturePrivate platform ofst) (state.atHeader ofst) ↔
          _ :=
      records_parseFeaturePrivate window.inside header
    refine parses.trans ?_
    simp [dfhTypeAfu, dfhTypePrivate, dfhTypeFiu, Enumeration.atHeader]
  by_cases isFiu : found = dfhTypeFiu
  · subst isFiu
    rw [if_neg isAfu, if_neg isPrivate, if_pos rfl]
    have parses :
        Records (Event.InsideOnly start limit)
            (parseFeatureFiu platform ofst) (state.atHeader ofst) ↔ _ :=
      records_parseFeatureFiu (window.windowInfo noWrap header).inside
    refine parses.trans ?_
    simp [dfhTypeAfu, dfhTypePrivate, dfhTypeFiu, Enumeration.atHeader]
  · rw [if_neg isAfu, if_neg isPrivate, if_neg isFiu]
    exact iff_of_true (records_ret.mpr trivial)
      ⟨fun afu => absurd afu isAfu, fun feature => absurd feature isPrivate,
        fun fiu => absurd fiu isFiu⟩

/-! ### What a header leaves behind -/

/-- The window is this one, or begins at this offset of it. -/
def Moved (binfo : BuildFeatureDevsInfo) (ofst : Nat)
    (now : BuildFeatureDevsInfo) : Prop :=
  ∃ window, (window = binfo ∨ window = binfo.switched ofst) ∧
    now.ioaddr = window.ioaddr ∧ now.start = window.start ∧
      now.len = window.len

theorem moved_of_eq {binfo now : BuildFeatureDevsInfo} (same : now = binfo) :
    Moved binfo ofst now :=
  ⟨binfo, .inl rfl, same ▸ ⟨rfl, rfl, rfl⟩⟩

/-- Only the visits of headers may be forbidden. -/
def ForbidsVisits (allowed : Event → Prop) : Prop :=
  ∀ event : Event, (∀ seen ofst, event ≠ .visited seen ofst) → allowed event

/-- All events are allowed so far, and the window may have moved. -/
def MovedOn (allowed : Event → Prop) (binfo : BuildFeatureDevsInfo)
    (ofst : Nat) : BuildAssertion :=
  fun past now => AllAllowed allowed past now ∧ Moved binfo ofst now.binfo

variable {allowed : Event → Prop} {binfo : BuildFeatureDevsInfo}

theorem stable_movedOn : Stable allowed (MovedOn allowed binfo ofst) where
  event past now event isAllowed holds :=
    ⟨(stable_allAllowed allowed).event past now event isAllowed holds.1,
      holds.2⟩
  state _ _ _ same _ holds := ⟨holds.1, same ▸ holds.2⟩

section Visits

variable (visits : ForbidsVisits allowed)

include visits

theorem ForbidsVisits.events {past events : List Event} {now : Enumeration}
    (holds : MovedOn allowed binfo ofst past now)
    (others : ∀ event ∈ events, ∀ seen ofst, event ≠ .visited seen ofst) :
    MovedOn allowed binfo ofst (past ++ events) now := by
  refine ⟨fun event member => ?_, holds.2⟩
  rcases List.mem_append.mp member with earlier | latest
  · exact holds.1 event earlier
  · exact visits event (others event latest)

theorem ForbidsVisits.accepts (at' : Nat) :
    Accepts (MovedOn allowed binfo ofst) at' := by
  intro past now finfo placement holds _
  have recorded :
      MovedOn allowed binfo ofst (past ++ [.accepted finfo placement]) now :=
    visits.events holds (by simp)
  exact ⟨recorded.1, recorded.2⟩

theorem ForbidsVisits.decides (at' : Nat) :
    Decides (MovedOn allowed binfo ofst) at' :=
  fun _ _ _ _ holds => visits.events holds (by simp)

theorem ForbidsVisits.parseFeatureAfu (at' : Nat) :
    Keeps (MovedOn allowed binfo ofst) (parseFeatureAfu platform at') :=
  stable_movedOn.keeps_parseFeatureAfu (fun _ => visits _ (by simp))
    (visits.accepts at')

theorem ForbidsVisits.parseFeaturePrivate (at' : Nat) :
    Keeps (MovedOn allowed binfo ofst)
      (parseFeaturePrivate platform at') := by
  have versioned {past : List Event} {now : Enumeration}
      (holds : MovedOn allowed binfo ofst past now) :
      MovedOn allowed binfo ofst (past ++ now.versionEvents) now :=
    visits.events holds (by simp [Enumeration.versionEvents])
  refine PrivateRule.parseFeaturePrivate
    (?_ : PrivateRule platform at' _ (MovedOn allowed binfo ofst) _ _)
  refine
    { versions := fun past now holds => ⟨fun _ _ => versioned holds,
        fun _ => ?_⟩
      complains := fun past now holds _ =>
        visits.events (versioned holds) (by simp)
      creates := stable_movedOn.keeps_createFeatureInstance
        (fun _ => visits _ (by simp)) (visits.accepts at')
        (fun _ => visits.decides at') 0 }
  have started :
      MovedOn allowed binfo ofst
        (past ++ now.versionEvents ++
          if now.binfo.type = .max then
            [.started none now.binfo.featureNum] else []) now :=
    visits.events (versioned holds) (by split <;> simp)
  exact ⟨started.1, started.2⟩

theorem ForbidsVisits.parseFeatureFiu :
    Triple
      (fun past now => AllAllowed allowed past now ∧ now.binfo = binfo)
      (parseFeatureFiu platform ofst)
      (fun _ => MovedOn allowed binfo ofst) (AllAllowed allowed) := by
  have stable :
      Stable allowed fun past now =>
        AllAllowed allowed past now ∧ now.binfo = binfo :=
    { event := fun past now event isAllowed holds =>
        ⟨(stable_allAllowed allowed).event past now event isAllowed holds.1,
          holds.2⟩
      state := fun past now next same _ holds =>
        ⟨holds.1, same.trans holds.2⟩ }
  refine FiuRule.parseFeatureFiu
    (?_ : FiuRule platform ofst _ (MovedOn allowed binfo ofst)
      (MovedOn allowed binfo ofst) (MovedOn allowed binfo ofst)
      (MovedOn allowed binfo ofst) (MovedOn allowed binfo ofst) _ _)
  refine
    { switches := stable.switchFiu_switches ?_ ?_ ?_ ?_
      identifies := fun _ _ holds => visits.events (visits.events holds
        (by simp)) (by simp)
      begins := fun past now holds type _ _ => ?_
      creates := fun seen =>
        (stable_movedOn.located_createFeatureInstance
          (fun _ => visits _ (by simp)) (visits.accepts 0)
          (fun _ => visits.decides 0) 0 seen).of_fails
          fun _ _ holds => holds.1.1
      finds := fun _ _ holds => visits.events (visits.events holds
        (by simp)) (by simp)
      afu := fun offset =>
        ((visits.parseFeatureAfu offset).of_pre fun _ _ => And.left).of_fails
          fun _ _ => And.left
      ends := fun _ _ => id
      failing := fun _ _ => And.left }
  · exact fun _ _ holds _ => ⟨holds.1, moved_of_eq holds.2⟩
  · intro past before next holds _ _ switched
    refine ⟨(stable_allAllowed allowed).event past before _
      (visits _ (by simp)) holds.1, ?_⟩
    rw [switched, holds.2]
    exact ⟨_, .inr rfl, rfl, rfl, rfl⟩
  · exact fun _ _ _ => And.left
  · exact fun _ _ _ => And.left
  · have started :
        MovedOn allowed binfo ofst
          (past ++ [.started (some now.header) 0]) now :=
      visits.events holds (by simp)
    exact ⟨started.1, started.2⟩

/-- A header leaves a window behind which may have moved to it. -/
theorem ForbidsVisits.parseFeature {seen : Enumeration}
    (visit : allowed (.visited seen ofst)) :
    Triple (fun past now => AllAllowed allowed past now ∧ now = seen)
      (parseFeature platform ofst)
      (fun _ => MovedOn allowed seen.binfo ofst) (AllAllowed allowed) := by
  refine FeatureRule.parseFeature
    (?_ : FeatureRule platform ofst _
      (fun past now => AllAllowed allowed past now ∧ now.binfo = seen.binfo)
      _ _)
  have moved {past : List Event} {now : Enumeration}
      (holds : AllAllowed allowed past now ∧ now.binfo = seen.binfo) :
      MovedOn allowed seen.binfo ofst past now :=
    ⟨holds.1, moved_of_eq holds.2⟩
  refine
    { visits := ?_
      afu := ((visits.parseFeatureAfu ofst).of_pre
        fun _ _ holds => moved holds.1).of_fails fun _ _ => And.left
      private_ := ((visits.parseFeaturePrivate ofst).of_pre
        fun _ _ holds => moved holds.1).of_fails fun _ _ => And.left
      fiu := visits.parseFeatureFiu.of_pre fun _ _ => And.left
      ignores := fun _ _ holds _ _ _ => moved holds }
  rintro past now ⟨holds, rfl⟩
  refine ⟨?_, rfl⟩
  have visited := (stable_allAllowed allowed).event past now _ visit holds
  exact (stable_allAllowed allowed).event _ now _ (visits _ (by simp)) visited

/-- Only the visit of the header itself may be forbidden. -/
theorem ForbidsVisits.records_parseFeature :
    Records allowed (LinuxDfl.Dfl.parseFeature platform ofst) state ↔
      allowed (.visited state ofst) := by
  constructor
  · intro records
    unfold LinuxDfl.Dfl.parseFeature at records
    rw [records_read_bind, records_emit_bind] at records
    exact records.1
  · intro visit
    have parses :
        Triple (fun past now => AllAllowed allowed past now ∧ now = state)
          (LinuxDfl.Dfl.parseFeature platform ofst)
          (fun _ => AllAllowed allowed) (AllAllowed allowed) :=
      (visits.parseFeature visit).mono (fun _ _ => id)
        (fun _ _ _ => And.left) fun _ _ => id
    exact parses.always ⟨fun _ => List.not_mem_nil.elim, rfl⟩

end Visits

theorem parseFeature_moved
    (returns : (parseFeature platform ofst state).result = .ok ()) :
    Moved state.binfo ofst (parseFeature platform ofst state).state.binfo := by
  have all : ForbidsVisits fun _ => True := fun _ _ => trivial
  exact ((all.parseFeature trivial).run
    ⟨fun _ => List.not_mem_nil.elim, rfl⟩ returns).2

end Header

/-! ## The walk -/

/-- If the event visits a header, the header has the room it needs. -/
def Event.HasRoom (platform : Platform) (start limit : Nat) : Event → Prop
  | .visited seen ofst => Room platform start limit seen ofst
  | _ => True

theorem forbidsVisits_hasRoom (platform : Platform) (start limit : Nat) :
    ForbidsVisits (Event.HasRoom platform start limit) := by
  intro event others
  cases event with
  | visited seen ofst => exact absurd rfl (others seen ofst)
  | _ => exact trivial

/-- At a header which is inside, the position is where it begins. -/
theorem ListWindow.position_eq {binfo : BuildFeatureDevsInfo} {position : Nat}
    (window : ListWindow start limit binfo) (noWrap : limit < 2 ^ 64)
    (header : Inside start limit
      (binfo.ioaddr + Word.sub 64 position binfo.start)) :
    position = binfo.start + Word.sub 64 position binfo.start := by
  obtain ⟨-, below⟩ := header
  rw [window.mapped] at below
  unfold Word.sub at below ⊢
  split <;> split at below <;> omega

/-- Behind a header, the next one is found from where it begins. -/
theorem ListWindow.moved {binfo now : BuildFeatureDevsInfo} {position : Nat}
    (window : ListWindow start limit binfo) (noWrap : limit < 2 ^ 64)
    (header : Inside start limit
      (binfo.ioaddr + Word.sub 64 position binfo.start))
    (moved : Moved binfo (Word.sub 64 position binfo.start) now) :
    ListWindow start limit now ∧
      Inside start limit (now.ioaddr + Word.sub 64 position now.start) := by
  have isPosition := window.position_eq noWrap header
  generalize Word.sub 64 position binfo.start = ofst at header isPosition moved
  obtain ⟨other, isOther, ioaddr, first, len⟩ := moved
  have switched := window.switched noWrap header
  have windowed : ListWindow start limit other ∧ other.start ≤ position := by
    rcases isOther with rfl | rfl
    · exact ⟨window, by omega⟩
    · exact ⟨switched.2, by omega⟩
  obtain ⟨⟨mapped, above, ends, room⟩, before⟩ := windowed
  rw [window.mapped, ← Nat.cast_add, ← isPosition] at header
  refine ⟨⟨?_, ?_, ?_, ?_⟩, ?_⟩
  · rw [ioaddr, first, mapped]
  · rwa [first]
  · rwa [first, len]
  · rwa [first]
  · rw [ioaddr, first, mapped, Word.sub_of_le before, ← Nat.cast_add,
      Nat.add_sub_cancel' before]
    exact header

theorem records_parseFeatureListLoop (noWrap : limit < 2 ^ 64) (fuel : Nat)
    {position : Nat} (window : ListWindow start limit state.binfo) :
    Records (Event.InsideOnly start limit)
        (parseFeatureListLoop platform limit fuel position) state ↔
      Records (Event.HasRoom platform start limit)
        (parseFeatureListLoop platform limit fuel position) state := by
  induction fuel generalizing position state with
  | zero =>
      exact iff_of_true (records_fail.mpr trivial) (records_fail.mpr trivial)
  | succ fuel ih =>
  by_cases inside : position < limit
  swap
  · unfold parseFeatureListLoop
    rw [if_neg inside]
    exact iff_of_true (records_ret.mpr trivial) (records_ret.mpr trivial)
  by_cases small : limit - position < dfhSize
  · unfold parseFeatureListLoop
    rw [if_pos inside, if_pos small]
    exact iff_of_true (records_fail.mpr trivial) (records_fail.mpr trivial)
  unfold Records
  rw [parseFeatureListLoop_inside inside (Nat.le_of_not_lt small)]
  change Records _ _ state ↔ Records _ _ state
  rw [records_bind, records_bind, records_parseFeature window noWrap,
    (forbidsVisits_hasRoom platform start limit).records_parseFeature]
  refine and_congr_right fun room => forall₂_congr fun _ returns => ?_
  obtain ⟨window', header⟩ :=
    window.moved noWrap room.header (parseFeature_moved returns)
  unfold findNext
  rw [records_read_bind, records_read_bind, records_readq_bind,
    records_readq_bind]
  refine and_congr (iff_of_true ?_ trivial) ?_
  · show Inside start limit (headerAddress _ _)
    unfold headerAddress
    rw [dfh, Int.add_zero]
    exact header
  split
  · exact iff_of_true (records_ret.mpr trivial) (records_ret.mpr trivial)
  · exact ih window'

section List

variable {allowed : Event → Prop}

theorem records_buildInfoPrepare (first len : Nat) :
    Records allowed (buildInfoPrepare platform first len) state := by
  have stable : Stable (fun _ => False) (AllAllowed allowed) :=
    ⟨fun _ _ _ => False.elim, fun _ _ _ _ _ => id⟩
  exact Triple.records
    (stable.buildInfoPrepare_prepares fun _ _ _ holds _ _ => holds)

theorem buildInfoPrepare_binfo {first len : Nat}
    (returns : (buildInfoPrepare platform first len state).result = .ok ()) :
    (buildInfoPrepare platform first len state).state.binfo =
      state.binfo.prepared first len := by
  have stable : Stable (fun _ => False) fun _ now => now.binfo = state.binfo :=
    ⟨fun _ _ _ => False.elim, fun _ _ _ binfo _ same => binfo.trans same⟩
  have prepares :
      Triple (fun _ now => now.binfo = state.binfo)
        (buildInfoPrepare platform first len)
        (fun _ _ now => now.binfo = state.binfo.prepared first len)
        fun _ now => now.binfo = state.binfo :=
    stable.buildInfoPrepare_prepares fun _ _ _ same _ binfo => same ▸ binfo
  exact prepares.run rfl returns

/-- The end of `parse_feature_list` records that a device is committed. -/
theorem records_commitDetected (commits : ∀ fdata, allowed (.committed fdata)) :
    Records allowed
      (read >>= fun state =>
        if state.binfo.type ≠ .max then buildInfoCommitDev platform
        else pure ()) state := by
  rw [records_read_bind]
  split
  · refine Triple.records
      ((stable_allAllowed allowed).buildInfoCommitDev_commits ?_ ?_)
    · exact fun past before _ holds _ _ _ =>
        (stable_allAllowed allowed).event past before _ (commits _) holds
    · exact fun _ _ _ => id
  · exact records_ret.mpr trivial

/-- A list whose end wraps around is not walked. -/
theorem records_wrapped {first len : Nat} (fits : len < 2 ^ 64)
    (wraps : 2 ^ 64 ≤ first + len)
    (commits : ∀ fdata, allowed (.committed fdata)) :
    Records allowed (parseFeatureList platform first len) state := by
  have ends : ¬ first < Word.add 64 first len := by
    unfold Word.add
    rw [if_neg (Nat.not_lt.mpr wraps)]
    omega
  have skips (fuel : Nat) (now : Enumeration) :
      Records allowed
        (parseFeatureListLoop platform (Word.add 64 first len) fuel first)
        now := by
    cases fuel with
    | zero => exact records_fail.mpr trivial
    | succ fuel =>
        unfold parseFeatureListLoop
        rw [if_neg ends]
        exact records_ret.mpr trivial
  exact records_bind.mpr ⟨records_buildInfoPrepare _ _, fun _ _ =>
    records_bind.mpr ⟨skips _ _, fun _ _ => records_commitDetected commits⟩⟩

end List

theorem records_parseFeatureList {first len : Nat} (fits : len < 2 ^ 64)
    (room : dfhSize ≤ len) :
    Records (Event.InsideOnly first (first + len))
        (parseFeatureList platform first len) state ↔
      Records (Event.HasRoom platform first (first + len))
        (parseFeatureList platform first len) state := by
  by_cases noWrap : first + len < 2 ^ 64
  swap
  · exact iff_of_true
      (records_wrapped fits (Nat.le_of_not_lt noWrap) fun _ => trivial)
      (records_wrapped fits (Nat.le_of_not_lt noWrap) fun _ => trivial)
  unfold parseFeatureList
  refine records_bind.trans (Iff.trans ?_ records_bind.symm)
  refine and_congr (iff_of_true (records_buildInfoPrepare _ _)
    (records_buildInfoPrepare _ _)) (forall₂_congr fun _ returns => ?_)
  rw [Word.add_of_lt noWrap]
  refine records_bind.trans (Iff.trans ?_ records_bind.symm)
  refine and_congr (records_parseFeatureListLoop noWrap _ ?_)
    (forall₂_congr fun _ _ => iff_of_true ?_ ?_)
  · rw [buildInfoPrepare_binfo returns]
    exact ⟨rfl, Nat.le_refl _, rfl, Nat.add_le_add_left room first⟩
  · exact records_commitDetected fun _ => trivial
  · exact records_commitDetected fun _ => trivial

/-- Every header which is visited has the room it needs. -/
def Rooms (platform : Platform) (start limit : Nat) (past : List Event) :
    Prop :=
  ∀ seen ofst, .visited seen ofst ∈ past →
    Room platform start limit seen ofst

/--
Every register which is read in the walk over a list is inside of it exactly
if each header which is visited has the room it needs.
-/
theorem list_reads_inside_iff (platform : Platform) (state : Enumeration)
    (dfl : DflFpgaEnumDfl) (room : dfhSize ≤ dfl.len) :
    let run := parseFeatureList platform dfl.start dfl.len state
    (∀ address, .read address ∈ run.events →
        Inside dfl.start (dfl.start + dfl.len) address) ↔
      Rooms platform dfl.start (dfl.start + dfl.len) run.events := by
  intro run
  have reads :
      (∀ address, .read address ∈ run.events →
          Inside dfl.start (dfl.start + dfl.len) address) ↔
        ∀ event ∈ run.events,
          event.InsideOnly dfl.start (dfl.start + dfl.len) := by
    refine ⟨fun inside event member => ?_, fun all address member =>
      all _ member⟩
    cases event with
    | read address => exact inside address member
    | _ => exact trivial
  have rooms :
      Rooms platform dfl.start (dfl.start + dfl.len) run.events ↔
        ∀ event ∈ run.events,
          event.HasRoom platform dfl.start (dfl.start + dfl.len) := by
    refine ⟨fun rooms event member => ?_, fun all seen ofst member =>
      all _ member⟩
    cases event with
    | visited seen ofst => exact rooms seen ofst member
    | _ => exact trivial
  rw [reads, rooms]
  exact records_parseFeatureList dfl.len_lt room

/-- A port of the given size, which is the last header of its list. -/
def lastPort (size : BitVec 64) : Platform where
  mmio address :=
    if address = 0x40000 then 0x4000010000000001 ||| size <<< 16 else 0
  external _ := none
  irqTable _ := 0
  nrIrqsMax := 0
  beyond := 0
  fuel := 1

/-- A list of this length. -/
def listOf (len : Nat) (fits : len < 2 ^ 64) : DflFpgaEnumDfl where
  start := 0x40000
  len := len
  start_lt := by decide
  len_lt := fits

/-- The last header of version 0 of a port needs room for itself only. -/
theorem lastPort_headerRoom {size : BitVec 64} {binfo : BuildFeatureDevsInfo}
    {calls : Nat} (ioaddr : binfo.ioaddr = 0x40000)
    (header : Inside start limit 0x40000)
    (last : dfhEol.get ((lastPort size).reg 0x40000) ≠ 0)
    (version : dfhVersion.get ((lastPort size).reg 0x40000) = 0)
    (noIrqs :
      irqCap binfo.type (featureId ((lastPort size).reg 0x40000)) = none) :
    HeaderRoom (lastPort size) start limit binfo calls 0 := by
  have base : binfo.ioaddr + (0 : Nat) = 0x40000 := by
    rw [ioaddr]
    rfl
  refine ⟨⟨?_, ?_, ?_⟩, ?_, ?_⟩
  · rwa [base]
  · rw [base]
    exact fun _ notLast => absurd notLast last
  · rw [base, version]
    exact fun _ impossible => absurd impossible (by decide)
  · intro header admitted i below
    have noParams := admitted.taken.noParams
    rw [base, version] at noParams
    rw [noParams (by decide)] at below
    exact absurd below (Nat.not_lt_zero i)
  · intro header cap admitted _ isCap
    have fid := admitted.taken.fid
    rw [base, if_neg (not_not.mpr rfl)] at fid
    rw [fid, noIrqs] at isCap
    cases isCap

/-- The address of the register which is read, if one is. -/
def Event.address? : Event → Option Int
  | .read address => some address
  | _ => none

/-- The state in which a header is visited, if one is, and its offset. -/
def Event.visit? : Event → Option (Enumeration × Nat)
  | .visited state ofst => some (state, ofst)
  | _ => none

theorem read_mem {events : List Event} {address : Int}
    (member : address ∈ events.filterMap Event.address?) :
    .read address ∈ events := by
  obtain ⟨event, isEvent, isAddress⟩ := List.mem_filterMap.mp member
  cases event with
  | read read =>
      cases isAddress
      exact isEvent
  | _ => cases isAddress

theorem lastPort_rooms :
    Rooms (lastPort 0x1000) 0x40000 (0x40000 + 0x40000)
      (parseFeatureList (lastPort 0x1000) 0x40000 0x40000
        (initialEnumeration 0)).events := by
  have visits :
      ∀ visit ∈
          (parseFeatureList (lastPort 0x1000) 0x40000 0x40000
            (initialEnumeration 0)).events.filterMap Event.visit?,
        visit.1.binfo.type = .max ∧ visit.1.binfo.start = 0x40000 ∧
          visit.1.binfo.ioaddr = 0x40000 ∧ visit.2 = 0 := by
    decide
  intro state ofst member
  obtain ⟨type, first, ioaddr, rfl⟩ :=
    visits (state, ofst) (List.mem_filterMap.mpr ⟨_, member, rfl⟩)
  dsimp only at type first ioaddr
  have base : state.binfo.ioaddr + (0 : Nat) = 0x40000 := by
    rw [ioaddr]
    rfl
  have window : windowInfo state.binfo 0 = state.binfo :=
    if_neg (not_not.mpr type)
  have fiu : fiuType (lastPort 0x1000) state.binfo 0 = .port := by
    rw [fiuType, window, ioaddr]
    decide
  refine ⟨?_, ?_, ?_, ?_⟩
  · rw [base]
    exact ⟨by decide, by decide⟩
  · rw [base]
    exact fun isAfu => absurd isAfu (by decide)
  · rw [base]
    exact fun isPrivate => absurd isPrivate (by decide)
  · rw [window, fiu]
    have begun : (state.binfo.begun .port).ioaddr = 0x40000 := ioaddr
    refine fun _ _ _ => ⟨?_, fun _ => ?_, fun _ _ _ => ?_⟩
    · exact lastPort_headerRoom begun ⟨by decide, by decide⟩ (by decide)
        (by decide) rfl
    · rw [begun]
      exact ⟨by decide, by decide⟩
    · rw [begun]
      exact ⟨by decide, by decide⟩

/-- All registers of a port are read inside of a list which has room for it. -/
theorem last_port_reads_inside :
    dfhSize ≤ 0x40000 ∧
      ∀ address,
        .read address ∈
            (parseFeatureList (lastPort 0x1000) 0x40000 0x40000
              (initialEnumeration 0)).events →
          Inside 0x40000 (0x40000 + 0x40000) address :=
  ⟨by decide,
    (list_reads_inside_iff (lastPort 0x1000) (initialEnumeration 0)
      (listOf 0x40000 (by decide)) (by decide)).mpr lastPort_rooms⟩

/-- In a list with room for one DFH, `NEXT_AFU` is read behind its end. -/
theorem next_afu_read_behind_list :
    let run := parseFeatureList (lastPort 8) 0x40000 8 (initialEnumeration 0)
    dfhSize ≤ 8 ∧ run.result = .ok () ∧
      ¬ ∀ address, .read address ∈ run.events →
          Inside 0x40000 (0x40000 + 8) address := by
  have reads :
      0x40000 + nextAfu ∈
        (parseFeatureList (lastPort 8) 0x40000 8
          (initialEnumeration 0)).events.filterMap Event.address? := by
    decide
  refine ⟨by decide, by decide, fun inside => ?_⟩
  have beyond := inside _ (read_mem reads)
  exact absurd beyond.2 (by decide)

end LinuxDfl.Dfl

import LinuxDfl.Dfl.Walk

/-!
# Sizes which are found in headers

The scans for the size of a feature and for that of its parameters depend on
the registers only, and so does what is taken from a header.
-/

namespace LinuxDfl.Dfl

open LinuxDfl.Kernel
open LinuxDfl.Lib.Traced
open LinuxDfl.Lib.Traced.Program

variable {platform : Platform}

/-- The offsets of the parameter headers which are read for their size. -/
inductive ParamReaches (platform : Platform) (dfhBase : Int) (max : Nat) :
    Int → Prop where
  | first :
      dfhv1CsrSizeGrpHasParams.get
          (platform.reg (dfhBase + dfhv1CsrSizeGrp)) ≠ 0 →
      int32 (0 + dfhv1ParamHdr) % 2 ^ 64 < max →
      ParamReaches platform dfhBase max 0
  | next {size : Int} :
      ParamReaches platform dfhBase max size →
      dfhv1ParamHdrNextOffset.get
          (platform.reg (dfhBase + dfhv1ParamHdr + size)) ≠ 0 →
      dfhv1ParamHdrNextEop.get
          (platform.reg (dfhBase + dfhv1ParamHdr + size)) = 0 →
      int32
            (int32
                (size + dfhv1ParamHdrNextOffset.get
                  (platform.reg (dfhBase + dfhv1ParamHdr + size)) * 8) +
              dfhv1ParamHdr) % 2 ^ 64 < max →
      ParamReaches platform dfhBase max
        (int32
          (size + dfhv1ParamHdrNextOffset.get
            (platform.reg (dfhBase + dfhv1ParamHdr + size)) * 8))

/-- What `feature_size` returns for this header. -/
def sizeOf (platform : Platform) (dfhIoaddr limit : Int) :
    Except Failure Nat :=
  (featureSize platform dfhIoaddr limit (platform.reg dfhIoaddr)
    (initialEnumeration 0)).result

/-- What `dfh_get_param_size` returns for this header. -/
def paramSizeOf (platform : Platform) (dfhBase : Int) (max : Nat) :
    Except Failure Int :=
  (dfhGetParamSize platform dfhBase max (initialEnumeration 0)).result

/-! ## Sizes do not depend on the state -/

theorem steady_readq (platform : Platform) (address : Int) :
    Steady (readq platform address) :=
  (Steady.emit _).bind fun _ => Steady.ret _

theorem steady_featureSize (platform : Platform) (dfhIoaddr limit : Int)
    (value : BitVec 64) :
    Steady (featureSize platform dfhIoaddr limit value) := by
  have loop (fuel ofst : Nat) :
      Steady (featureSizeLoop platform dfhIoaddr limit fuel ofst) := by
    induction fuel generalizing ofst with
    | zero => exact Steady.fail _
    | succ fuel induction =>
        refine (steady_readq platform _).bind fun value => ?_
        dsimp only
        split_ifs
        · exact Steady.ret _
        · exact Steady.ret _
        · exact induction _
        · exact Steady.ret _
  unfold featureSize
  dsimp only
  split_ifs
  · exact Steady.ret _
  · exact Steady.ret _
  · exact loop _ _

theorem steady_dfhGetParamSize (platform : Platform) (dfhBase : Int)
    (max : Nat) :
    Steady (dfhGetParamSize platform dfhBase max) := by
  have loop (fuel : Nat) (size : Int) :
      Steady (dfhGetParamSizeLoop platform dfhBase max fuel size) := by
    induction fuel generalizing size with
    | zero => exact Steady.fail _
    | succ fuel induction =>
        unfold dfhGetParamSizeLoop
        split
        · refine (steady_readq platform _).bind fun value => ?_
          dsimp only
          split_ifs
          · exact Steady.ret _
          · exact Steady.ret _
          · exact induction _
        · exact Steady.ret _
  refine (steady_readq platform _).bind fun value => ?_
  split
  · exact Steady.ret _
  · exact loop _ _
/-! ## Reading a header -/

/-- The size of a feature: it is given, or found in the registers. -/
def extentOf (platform : Platform) (binfo : BuildFeatureDevsInfo)
    (ofst size : Nat) : Except Failure Nat :=
  if size ≠ 0 then .ok size
  else sizeOf platform (binfo.ioaddr + ofst) (binfo.ioaddr + binfo.len)

/-- What is taken from the header at this offset, with this size and id. -/
structure HeaderTaken (platform : Platform) (binfo : BuildFeatureDevsInfo)
    (ofst size fid : Nat) (header : HeaderInfo) : Prop where
  size : extentOf platform binfo ofst size = .ok header.size
  nonzero : header.size ≠ 0
  fid :
    header.fid =
      if fid ≠ 0 then fid
      else featureId (platform.reg (binfo.ioaddr + ofst))
  revision :
    header.revision = dfhRevision.get (platform.reg (binfo.ioaddr + ofst))
  dfhVer :
    header.dfhVer = dfhVersion.get (platform.reg (binfo.ioaddr + ofst))
  psize : dfhVersion.get (platform.reg (binfo.ioaddr + ofst)) = 1 →
    paramSizeOf platform (binfo.ioaddr + ofst) header.size =
      .ok header.dfhPsize
  noParams : dfhVersion.get (platform.reg (binfo.ioaddr + ofst)) ≠ 1 →
    header.dfhPsize = 0

/-- Reading a header, if the scans for its sizes keep the assertion. -/
theorem Stable.readHeader_takes {quiet : Event → Prop} {kept : BuildAssertion}
    (stable : Stable quiet kept) {seen : Enumeration} {ofst size : Nat}
    (fid : Nat) (reads : quiet (.read (seen.binfo.ioaddr + ofst)))
    (decides : ∀ field register address header,
      quiet (.decides field register address header))
    (sizes : Keeps (Seen kept seen)
      (featureSize platform (seen.binfo.ioaddr + ofst)
        (seen.binfo.ioaddr + seen.binfo.len)
        (platform.reg (seen.binfo.ioaddr + ofst))))
    (params : ∀ extent,
      dfhVersion.get (platform.reg (seen.binfo.ioaddr + ofst)) = 1 →
        extentOf platform seen.binfo ofst size = .ok extent → extent ≠ 0 →
          Keeps (Seen kept seen)
            (dfhGetParamSize platform (seen.binfo.ioaddr + ofst) extent)) :
    Triple (Seen kept seen) (readHeader platform ofst size fid)
      (fun header past state =>
        Seen kept seen past state ∧
          HeaderTaken platform seen.binfo ofst size fid header)
      (Seen kept seen) := by
  have seenStable := stable.seen seen
  refine Seen.again fun now same => ?_
  rw [same]
  refine readBind _ (fun past state holds =>
    seenStable.event past state _ reads holds) ?_
  refine emitBind _ (fun past state holds =>
    seenStable.event past state _ (decides _ _ _ _) holds) ?_
  refine emitBind _ (fun past state holds =>
    seenStable.event past state _ (decides _ _ _ _) holds) ?_
  have extents :
      Triple (Seen kept seen)
        (if size ≠ 0 then pure size
        else
          featureSize platform (seen.binfo.ioaddr + ofst)
            (seen.binfo.ioaddr + seen.binfo.len)
            (platform.reg (seen.binfo.ioaddr + ofst)) : Build Nat)
        (fun extent past state =>
          Seen kept seen past state ∧
            extentOf platform seen.binfo ofst size = .ok extent)
        (Seen kept seen) := by
    unfold extentOf
    split_ifs
    · exact Triple.ret fun past state holds => ⟨holds, rfl⟩
    · exact (steady_featureSize platform _ _ _).triple sizes
        (initialEnumeration 0)
  refine Triple.bind extents fun extent => ?_
  refine Triple.assume fun isExtent => ?_
  split
  · exact keeps_fail _
  rename_i nonzero
  by_cases version : dfhVersion.get
      (platform.reg (seen.binfo.ioaddr + ofst)) = 1
  · rw [if_pos version]
    have psizes :=
      (steady_dfhGetParamSize platform (seen.binfo.ioaddr + ofst)
        extent).triple (params extent version isExtent nonzero)
        (initialEnumeration 0)
    refine Triple.bind psizes fun psize => ?_
    refine Triple.assume fun isParams => ?_
    split
    · exact keeps_fail _
    rename_i nonnegative
    refine Triple.ret fun past state holds => ⟨holds, ?_⟩
    exact
      { size := isExtent
        nonzero := nonzero
        fid := rfl
        revision := rfl
        dfhVer := rfl
        psize := fun _ => by
          rw [Int.toNat_of_nonneg (Int.not_lt.mp nonnegative)]
          exact isParams
        noParams := fun notOne => absurd version notOne }
  · rw [if_neg version]
    refine Triple.ret fun past state holds => ⟨holds, ?_⟩
    exact
      { size := isExtent
        nonzero := nonzero
        fid := rfl
        revision := rfl
        dfhVer := rfl
        psize := fun isOne => absurd isOne version
        noParams := fun _ => rfl }

/-- What is taken from a header is given by its registers. -/
theorem HeaderTaken.unique {binfo : BuildFeatureDevsInfo}
    {ofst size fid : Nat} {header other : HeaderInfo}
    (taken : HeaderTaken platform binfo ofst size fid header)
    (again : HeaderTaken platform binfo ofst size fid other) :
    header = other := by
  have sizes : header.size = other.size :=
    Except.ok.inj (taken.size.symm.trans again.size)
  have psizes : header.dfhPsize = other.dfhPsize := by
    by_cases version : dfhVersion.get
        (platform.reg (binfo.ioaddr + ofst)) = 1
    · have first := taken.psize version
      rw [sizes, again.psize version] at first
      exact (Int.ofNat_inj.mp (Except.ok.inj first)).symm
    · rw [taken.noParams version, again.noParams version]
  have fids := taken.fid.trans again.fid.symm
  have revisions := taken.revision.trans again.revision.symm
  have versions := taken.dfhVer.trans again.dfhVer.symm
  cases header
  cases other
  simp only at sizes psizes fids revisions versions
  rw [sizes, psizes, fids, revisions, versions]

section Result

variable {state : Enumeration} {ofst size fid : Nat}

theorem readHeader_state :
    (readHeader platform ofst size fid state).state = state := by
  unfold readHeader
  rw [read_bind]
  refine Steady.state_eq ?_ state
  refine (steady_readq platform _).bind fun value => ?_
  refine (Steady.emit _).bind fun _ => (Steady.emit _).bind fun _ => ?_
  refine Steady.bind ?_ fun extent => ?_
  · split
    · exact Steady.ret _
    · exact steady_featureSize platform _ _ _
  split
  · exact Steady.fail _
  refine Steady.bind ?_ fun psize => ?_
  · split
    · exact steady_dfhGetParamSize platform _ _
    · exact Steady.ret _
  split
  · exact Steady.fail _
  · exact Steady.ret _

theorem readHeader_taken {header : HeaderInfo}
    (returns : (readHeader platform ofst size fid state).result =
      .ok header) :
    HeaderTaken platform state.binfo ofst size fid header := by
  have stable : Stable (fun _ => True) fun _ _ => True :=
    ⟨fun _ _ _ _ _ => trivial, fun _ _ _ _ _ _ => trivial⟩
  have takes :
      Triple (Seen (fun _ _ => True) state)
        (readHeader platform ofst size fid)
        (fun header past now =>
          Seen (fun _ _ => True) state past now ∧
            HeaderTaken platform state.binfo ofst size fid header)
        (Seen (fun _ _ => True) state) := by
    refine stable.readHeader_takes fid trivial (fun _ _ _ _ => trivial) ?_ ?_
    · exact (stable.seen state).keeps_featureSize (fun _ => trivial) _ _ _
    · exact fun _ _ _ _ =>
        (stable.seen state).keeps_dfhGetParamSize (fun _ => trivial) _ _
  exact (takes.run ⟨trivial, rfl, rfl⟩ returns).2

/-- `readHeader` returns what can be taken from the header, and only that. -/
theorem readHeader_result_iff {header : HeaderInfo} :
    (readHeader platform ofst size fid state).result = .ok header ↔
      HeaderTaken platform state.binfo ofst size fid header := by
  refine ⟨readHeader_taken, fun taken => ?_⟩
  suffices returns :
      ∃ other, (readHeader platform ofst size fid state).result =
        .ok other by
    obtain ⟨other, isOther⟩ := returns
    rw [isOther, taken.unique (readHeader_taken isOther)]
  have isSize := taken.size
  unfold extentOf at isSize
  have extents (now : Enumeration) :
      ((if size ≠ 0 then pure size
        else
          featureSize platform (state.binfo.ioaddr + ofst)
            (state.binfo.ioaddr + state.binfo.len)
            (platform.reg (state.binfo.ioaddr + ofst)) : Build Nat)
          now).result = .ok header.size := by
    split at isSize
    · rw [if_pos ‹_›, ← isSize]
      rfl
    · rw [if_neg ‹_›]
      exact ((steady_featureSize platform _ _ _).result_eq _ _).trans isSize
  have psizes (now : Enumeration) :
      ((if dfhVersion.get (platform.reg (state.binfo.ioaddr + ofst)) = 1 then
          dfhGetParamSize platform (state.binfo.ioaddr + ofst) header.size
        else pure 0 : Build Int) now).result = .ok header.dfhPsize := by
    split
    · exact ((steady_dfhGetParamSize platform _ _).result_eq _ _).trans
        (taken.psize ‹_›)
    · rw [taken.noParams ‹_›]
      rfl
  let value := platform.reg (state.binfo.ioaddr + ofst)
  refine
    ⟨{ size := header.size
       fid := if fid ≠ 0 then fid else featureId value
       revision := dfhRevision.get value
       dfhVer := dfhVersion.get value
       dfhPsize := (header.dfhPsize : Int).toNat }, ?_⟩
  unfold readHeader
  rw [read_bind]
  refine bind_result_iff.mpr ⟨value, rfl, ?_⟩
  refine bind_result_iff.mpr ⟨(), rfl, bind_result_iff.mpr ⟨(), rfl, ?_⟩⟩
  refine bind_result_iff.mpr ⟨header.size, extents _, ?_⟩
  rw [if_neg taken.nonzero]
  refine bind_result_iff.mpr ⟨header.dfhPsize, psizes _, ?_⟩
  rw [if_neg (Int.not_lt.mpr (Int.natCast_nonneg _))]
  rfl

end Result

end LinuxDfl.Dfl

import Mathlib.Tactic.SplitIfs
import LinuxDfl.Dfl.Enumerate

/-!
# Rules for the parts of an enumeration

An assertion which takes no notice of the registers that are read, nor of the
calls which are made, is kept by every part that only reads and calls.
-/

namespace LinuxDfl.Dfl

open LinuxDfl.Kernel
open LinuxDfl.Lib.Traced
open LinuxDfl.Lib.Traced.Program

abbrev BuildAssertion := Assertion Event Enumeration

/-- The program keeps the assertion, whether it fails or not. -/
abbrev Keeps {Value : Type} (kept : BuildAssertion) (program : Build Value) :
    Prop :=
  Triple kept program (fun _ => kept) kept

/--
The assertion takes no notice of quiet events, nor of the state beyond the
build information and the header which is being parsed.
-/
structure Stable (quiet : Event → Prop) (kept : BuildAssertion) : Prop where
  event : ∀ past state event,
    quiet event → kept past state → kept (past ++ [event]) state
  state : ∀ past state next,
    next.binfo = state.binfo → next.header = state.header →
      kept past state → kept past next

variable {platform : Platform} {quiet : Event → Prop} {kept : BuildAssertion}

theorem keeps_ret {Value : Type} (value : Value) :
    Keeps kept (pure value) :=
  Triple.ret fun _ _ holds => holds

theorem Keeps.bind {Value Next : Type} {program : Build Value}
    {rest : Value → Build Next} {post : Next → BuildAssertion}
    (first : Keeps kept program)
    (others : ∀ value, Triple kept (rest value) post kept) :
    Triple kept (program >>= rest) post kept :=
  Triple.bind first others

theorem keeps_fail {Value : Type} (failure : Failure) :
    Keeps kept (fail failure : Build Value) :=
  Triple.fail fun _ _ holds => holds

/-- The assertion, in a state which has been read. -/
def Seen (kept : BuildAssertion) (seen : Enumeration) : BuildAssertion :=
  fun past state =>
    kept past state ∧ state.binfo = seen.binfo ∧ state.header = seen.header

theorem Stable.seen (stable : Stable quiet kept) (seen : Enumeration) :
    Stable quiet (Seen kept seen) where
  event past state event isQuiet holds :=
    ⟨stable.event past state event isQuiet holds.1, holds.2⟩
  state past state next binfo header holds :=
    ⟨stable.state past state next binfo header holds.1,
      binfo.trans holds.2.1, header.trans holds.2.2⟩

/-- A program which reads the state first may be treated at each state. -/
theorem Seen.triple {Value : Type} {rest : Enumeration → Build Value}
    {post : Value → BuildAssertion} {fails : BuildAssertion}
    (holds : ∀ seen, Triple (Seen kept seen) (rest seen) post fails) :
    Triple kept (read >>= rest) post fails :=
  Triple.withState fun seen =>
    (holds seen).of_pre fun _ _ holds =>
      ⟨holds.1, congrArg _ holds.2, congrArg _ holds.2⟩

/-- A program which reads the state again finds what has been seen. -/
theorem Seen.again {Value : Type} {seen : Enumeration}
    {rest : Enumeration → Build Value} {post : Value → BuildAssertion}
    {fails : BuildAssertion}
    (holds : ∀ now : Enumeration, now.binfo = seen.binfo →
      Triple (Seen kept seen) (rest now) post fails) :
    Triple (Seen kept seen) (read >>= rest) post fails :=
  Triple.withState fun now =>
    (Triple.assume (holds now)).of_pre fun _ _ holds =>
      ⟨holds.1, holds.2 ▸ holds.1.2.1⟩

/-- What fails in a state which has been read also fails without it. -/
theorem Seen.of_fails {Value : Type} {program : Build Value}
    {pre : BuildAssertion} {post : Value → BuildAssertion}
    {seen : Enumeration}
    (triple : Triple pre program post (Seen kept seen)) :
    Triple pre program post kept :=
  triple.of_fails fun _ _ => And.left

section Stable

variable (stable : Stable quiet kept)

include stable

theorem Stable.keeps_emit {event : Event} (isQuiet : quiet event) :
    Keeps kept (emit event) :=
  Triple.emit fun past state holds => stable.event past state event isQuiet holds

/-! ## Calls -/

theorem Stable.keeps_answer : Keeps kept (answer platform) := by
  refine Triple.anyState fun seen => ?_
  refine Triple.bind (Triple.update fun past state before => ?_)
    fun _ => keeps_ret _
  exact stable.state past state _ rfl rfl before

theorem Stable.keeps_call : Keeps kept (call platform) := by
  refine Triple.bind stable.keeps_answer fun ret => ?_
  cases ret with
  | none => exact keeps_ret ()
  | some ret => exact keeps_fail _

theorem Stable.keeps_alloc : Keeps kept (alloc platform) := by
  refine Triple.bind stable.keeps_answer fun ret => ?_
  cases ret with
  | none => exact keeps_ret ()
  | some ret => exact keeps_fail _

theorem Stable.keeps_allocSome (size : Nat) :
    Keeps kept (allocSome platform size) := by
  unfold allocSome
  split_ifs
  · exact stable.keeps_alloc
  · exact keeps_ret ()

/-! ## Reading registers -/

theorem Stable.keeps_readq {address : Int}
    (isQuiet : quiet (.read address)) :
    Keeps kept (readq platform address) :=
  Triple.bind (stable.keeps_emit isQuiet) fun _ => keeps_ret _

variable (reads : ∀ address, quiet (.read address))

include reads

theorem Stable.keeps_featureSizeLoop (dfhIoaddr limit : Int)
    (fuel ofst : Nat) :
    Keeps kept (featureSizeLoop platform dfhIoaddr limit fuel ofst) := by
  induction fuel generalizing ofst with
  | zero => exact keeps_fail _
  | succ fuel ih =>
      refine Triple.bind (stable.keeps_readq (reads _)) fun value => ?_
      dsimp only
      split_ifs
      · exact keeps_ret _
      · exact keeps_ret _
      · exact ih _
      · exact keeps_ret _

theorem Stable.keeps_featureSize (dfhIoaddr limit : Int)
    (value : BitVec 64) :
    Keeps kept (featureSize platform dfhIoaddr limit value) := by
  unfold featureSize
  dsimp only
  split_ifs
  · exact keeps_ret _
  · exact keeps_ret _
  · exact stable.keeps_featureSizeLoop reads _ _ _ _

theorem Stable.keeps_dfhGetParamSizeLoop (dfhBase : Int) (max fuel : Nat)
    (size : Int) :
    Keeps kept (dfhGetParamSizeLoop platform dfhBase max fuel size) := by
  induction fuel generalizing size with
  | zero => exact keeps_fail _
  | succ fuel ih =>
      unfold dfhGetParamSizeLoop
      split_ifs
      · refine Triple.bind (stable.keeps_readq (reads _)) fun value => ?_
        dsimp only
        split_ifs
        · exact keeps_ret _
        · exact keeps_ret _
        · exact ih _
      · exact keeps_ret _

theorem Stable.keeps_dfhGetParamSize (dfhBase : Int) (max : Nat) :
    Keeps kept (dfhGetParamSize platform dfhBase max) := by
  refine Triple.bind (stable.keeps_readq (reads _)) fun value => ?_
  split_ifs
  · exact keeps_ret _
  · exact stable.keeps_dfhGetParamSizeLoop reads _ _ _ _

theorem Stable.keeps_memcpyFromio (source : Int) (count : Nat) :
    Keeps kept (memcpyFromio platform source count) := by
  induction count generalizing source with
  | zero => exact keeps_ret _
  | succ count ih =>
      refine Triple.bind (stable.keeps_readq (reads _)) fun value => ?_
      exact Triple.bind (ih _) fun rest => keeps_ret _

theorem Stable.keeps_featureIrqs (base : Int) (type : DflIdType)
    (finfo : DflFeatureInfo) :
    Keeps kept (featureIrqs platform base type finfo) := by
  unfold featureIrqs
  split_ifs
  · split
    · exact Triple.bind (stable.keeps_readq (reads _)) fun _ => keeps_ret _
    · exact keeps_ret _
  · split <;> exact keeps_ret _
  · exact keeps_ret _

/-- Only the interrupts of a feature are filled in. -/
theorem Stable.keeps_parseFeatureIrqs (ofst : Nat) (finfo : DflFeatureInfo) :
    Triple kept (parseFeatureIrqs platform ofst finfo)
      (fun filled past state =>
        kept past state ∧
          ∃ irqBase nrIrqs,
            filled =
              { finfo with irqBase := irqBase, nrIrqs := nrIrqs })
      kept := by
  refine Triple.anyState fun seen => ?_
  refine Triple.bind (stable.keeps_featureIrqs reads _ _ _) fun irqs => ?_
  dsimp only
  split_ifs
  · exact Triple.ret fun _ _ holds => ⟨holds, _, _, rfl⟩
  · exact keeps_fail _
  · exact keeps_fail _
  · exact Triple.ret fun _ _ holds => ⟨holds, _, _, rfl⟩

omit stable reads in
/-- The assertion allows for what the header at this offset decides. -/
def Decides (kept : BuildAssertion) (ofst : Nat) : Prop :=
  ∀ past state field, field = dfhId ∨ field = dfhVersion →
    kept past state →
      kept
        (past ++
          [.decides field dfh (state.binfo.ioaddr + ofst) state.header])
        state

/-- Reading a header, if the assertion allows for what it decides. -/
theorem Stable.keeps_readHeader {ofst : Nat} (decides : Decides kept ofst)
    (size fid : Nat) : Keeps kept (readHeader platform ofst size fid) := by
  refine Seen.triple fun seen => ?_
  have seenStable := stable.seen seen
  have decided (field : Field) (isField : field = dfhId ∨ field = dfhVersion) :
      Keeps (Seen kept seen)
        (emit
          (.decides field dfh (seen.binfo.ioaddr + ofst) seen.header)) := by
    refine Triple.emit fun past state holds => ⟨?_, holds.2⟩
    have allowed := decides past state field isField holds.1
    rwa [holds.2.1, holds.2.2] at allowed
  refine Triple.bind (Seen.of_fails (seenStable.keeps_readq (reads _)))
    fun value => ?_
  refine Triple.bind (Seen.of_fails (decided dfhId (.inl rfl))) fun _ => ?_
  refine Triple.bind (Seen.of_fails (decided dfhVersion (.inr rfl)))
    fun _ => ?_
  refine Triple.of_pre ?_ fun _ _ => And.left
  refine Keeps.bind ?_ fun size => ?_
  · split
    · exact keeps_ret _
    · exact stable.keeps_featureSize reads _ _ _
  · split
    · exact keeps_fail _
    · refine Keeps.bind ?_ fun psize => ?_
      · split
        · exact stable.keeps_dfhGetParamSize reads _ _
        · exact keeps_ret _
      · split
        · exact keeps_fail _
        · exact keeps_ret _

/-! ## Accepting a feature -/

omit stable reads in
/-- How a feature comes to its registers. -/
def Placed (binfo : BuildFeatureDevsInfo) (ofst : Nat)
    (finfo : DflFeatureInfo) (placement : Placement) : Prop :=
  placement.window = binfo.start ∧ placement.ofst = ofst ∧
    match placement.size with
    | some size =>
        placement.absolute = false ∧ size ≤ Word.sub 64 binfo.len ofst ∧
          finfo.mmioRes.start = Word.add 64 binfo.start ofst ∧
          finfo.mmioRes.last =
            Word.sub 64 (Word.add 64 finfo.mmioRes.start size) 1
    | none =>
        ∃ addr sizeGrp,
          placement.addrOff = dfhv1CsrAddrMask.get addr * 2 ∧
            placement.csrSize = dfhv1CsrSizeGrpSize.get sizeGrp ∧
            csrResource binfo ofst addr sizeGrp =
              some (finfo.mmioRes, placement.absolute)

end Stable

/-- The state after the feature has been accepted. -/
def Enumeration.accept (state : Enumeration) (finfo : DflFeatureInfo) :
    Enumeration :=
  state.withBinfo fun binfo =>
    { binfo with
      subFeatures := binfo.subFeatures ++ [finfo]
      featureNum := binfo.featureNum + 1 }

/-- The assertion allows for every feature which may be accepted. -/
def Accepts (kept : BuildAssertion) (ofst : Nat) : Prop :=
  ∀ past state finfo placement,
    kept past state → Placed state.binfo ofst finfo placement →
      kept (past ++ [.accepted finfo placement]) (state.accept finfo)

section Accept

variable (stable : Stable quiet kept) (reads : ∀ address, quiet (.read address))

include stable reads

theorem Stable.keeps_acceptFeature {ofst : Nat} (accepts : Accepts kept ofst)
    {seen : Enumeration} {finfo : DflFeatureInfo} {placement : Placement}
    (placed : Placed seen.binfo ofst finfo placement) :
    Triple (Seen kept seen) (acceptFeature platform ofst finfo placement)
      (fun _ => kept) kept := by
  refine Triple.bind
    (Seen.of_fails ((stable.seen seen).keeps_parseFeatureIrqs reads ofst finfo))
    fun filled => ?_
  refine Triple.updateBind (Triple.emit fun past next holds => ?_)
  obtain ⟨state, ⟨⟨holds, binfo, -⟩, irqBase, nrIrqs, rfl⟩, rfl⟩ := holds
  exact accepts past state _ placement holds (binfo ▸ placed)

/-- `create_feature_instance` keeps what allows for what it may accept. -/
theorem Stable.keeps_createFeatureInstance {ofst : Nat}
    (accepts : Accepts kept ofst) {fid : Nat}
    (decides : fid ≠ featureIdAfu → Decides kept ofst) (size : Nat) :
    Keeps kept (createFeatureInstance platform ofst size fid) := by
  refine Keeps.bind ?_ fun header => ?_
  · split
    · exact stable.keeps_readHeader reads (decides ‹_›) _ _
    · exact keeps_ret _
  refine Seen.triple fun seen => ?_
  have seenStable := stable.seen seen
  dsimp only
  split
  · exact Triple.fail fun _ _ => And.left
  · rename_i fits
    refine Triple.bind (Seen.of_fails seenStable.keeps_alloc) fun _ => ?_
    refine Triple.bind (Seen.of_fails (seenStable.keeps_memcpyFromio reads _ _))
      fun params => ?_
    split
    · refine Triple.bind (Seen.of_fails (seenStable.keeps_readq (reads _)))
        fun addr => ?_
      refine Triple.bind (Seen.of_fails (seenStable.keeps_readq (reads _)))
        fun sizeGrp => ?_
      split
      · exact Triple.ret fun _ _ => And.left
      · rename_i mmioRes absolute csr
        refine Triple.bind
          ((seenStable.keeps_readq (reads _)).of_fails fun _ _ => And.left)
          fun low => ?_
        refine Triple.bind
          ((seenStable.keeps_readq (reads _)).of_fails fun _ _ => And.left)
          fun high => ?_
        exact stable.keeps_acceptFeature reads accepts
          ⟨rfl, rfl, addr, sizeGrp, rfl, rfl, csr⟩
    · exact stable.keeps_acceptFeature reads accepts
        ⟨rfl, rfl, rfl, Nat.le_of_not_lt fits, rfl, rfl⟩

end Accept

end LinuxDfl.Dfl

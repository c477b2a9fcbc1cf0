import Mathlib.Algebra.BigOperators.Ring.List
import LinuxDfl.Dfl.HeaderSizes

/-!
# The scan for the size of parameters

The parameters of a header of version 1 are a list of blocks, each of which
gives the number of its words.  Their sizes are added up in an `int`; this says
which blocks the scan comes to, and when the sum is exact.
-/

namespace LinuxDfl.Dfl

open LinuxDfl.Kernel
open LinuxDfl.Lib.Traced
open LinuxDfl.Lib.Traced.Program

variable {platform : Platform} {dfhBase : Int} {max : Nat}

/-! ## Integers -/

/-- An `int` keeps the values which it can hold. -/
theorem int32_of_range {value : Int} (low : -2 ^ 31 ≤ value)
    (high : value < 2 ^ 31) : int32 value = value :=
  Int.bmod_eq_of_le (by omega) (by omega)

theorem int32_range (value : Int) :
    -2 ^ 31 ≤ int32 value ∧ int32 value < 2 ^ 31 := by
  have low : -((2 ^ 32 : Nat) / 2 : Int) ≤ value.bmod (2 ^ 32) :=
    Int.le_bmod (by decide)
  have high : value.bmod (2 ^ 32) < ((2 ^ 32 : Nat) + 1) / 2 :=
    Int.bmod_lt (by decide)
  unfold int32
  omega

/-- The only other values are those which are off by a multiple. -/
theorem int32_eq_sub (value : Int) :
    ∃ carries : Int, int32 value = value - carries * 2 ^ 32 := by
  unfold int32 Int.bmod
  dsimp only
  split_ifs
  · exact ⟨value / 2 ^ 32, by omega⟩
  · exact ⟨value / 2 ^ 32 + 1, by omega⟩

/-! ## Blocks -/

/-- The header of the block at this offset of the parameters. -/
def paramHdr (platform : Platform) (dfhBase ofst : Int) : BitVec 64 :=
  platform.reg (dfhBase + dfhv1ParamHdr + ofst)

/-- The number of bytes of a block; one without a length has 16. -/
def blockLength (header : BitVec 64) : Nat :=
  if dfhv1ParamHdrNextOffset.get header = 0 then 2 * 8
  else dfhv1ParamHdrNextOffset.get header * 8

/-- The scan ends with this block. -/
def LastBlock (header : BitVec 64) : Prop :=
  dfhv1ParamHdrNextOffset.get header = 0 ∨
    dfhv1ParamHdrNextEop.get header ≠ 0

instance (header : BitVec 64) : Decidable (LastBlock header) :=
  inferInstanceAs (Decidable (_ ∨ _))

/-- The scan looks at the block at this offset. -/
def Looks (max : Nat) (ofst : Int) : Prop :=
  int32 (ofst + dfhv1ParamHdr) % 2 ^ 64 < max

instance (max : Nat) (ofst : Int) : Decidable (Looks max ofst) :=
  inferInstanceAs (Decidable (_ < _))

/-- The feature has parameters. -/
def HasParams (platform : Platform) (dfhBase : Int) : Prop :=
  dfhv1CsrSizeGrpHasParams.get
    (platform.reg (dfhBase + dfhv1CsrSizeGrp)) ≠ 0

instance (platform : Platform) (dfhBase : Int) :
    Decidable (HasParams platform dfhBase) :=
  inferInstanceAs (Decidable (_ ≠ _))

theorem blockLength_pos (header : BitVec 64) : 0 < blockLength header := by
  unfold blockLength
  split_ifs <;> omega

theorem blockLength_lt (header : BitVec 64) :
    blockLength header < 2 ^ 32 := by
  have bound : dfhv1ParamHdrNextOffset.get header < 2 ^ 29 :=
    Field.get_lt _ _
  unfold blockLength
  split_ifs <;> omega

theorem blockLength_dvd (header : BitVec 64) : 8 ∣ blockLength header := by
  unfold blockLength
  split_ifs
  · exact ⟨2, rfl⟩
  · exact Nat.dvd_mul_left _ _

/-- The offset behind the block at this offset, as an `int`. -/
def behindBlock (platform : Platform) (dfhBase ofst : Int) : Int :=
  int32 (ofst + blockLength (paramHdr platform dfhBase ofst))

/-! ## The loop -/

/-- The scan ends behind the block, or goes on there. -/
theorem dfhGetParamSizeLoop_looks {ofst : Int} (looks : Looks max ofst)
    (fuel : Nat) (state : Enumeration) :
    dfhGetParamSizeLoop platform dfhBase max (fuel + 1) ofst state =
      if LastBlock (paramHdr platform dfhBase ofst) then
        ⟨[.read (dfhBase + dfhv1ParamHdr + ofst)],
          .ok (behindBlock platform dfhBase ofst), state⟩
      else
        let rest := dfhGetParamSizeLoop platform dfhBase max fuel
          (behindBlock platform dfhBase ofst) state
        ⟨.read (dfhBase + dfhv1ParamHdr + ofst) :: rest.events, rest.result,
          rest.state⟩ := by
  unfold Looks at looks
  rw [dfhGetParamSizeLoop, if_pos looks]
  have reads :
      (readq platform (dfhBase + dfhv1ParamHdr + ofst) state).result =
        .ok (paramHdr platform dfhBase ofst) := rfl
  rw [bind_of_ok reads]
  unfold behindBlock blockLength LastBlock
  generalize paramHdr platform dfhBase ofst = header
  by_cases empty : dfhv1ParamHdrNextOffset.get header = 0
  · simp only [empty, if_true, true_or]
    rfl
  by_cases last : dfhv1ParamHdrNextEop.get header = 0
  · simp only [empty, last, if_false, ne_eq, not_true_eq_false, or_self]
    push_cast
    rfl
  · simp only [empty, last, if_false, ne_eq, not_false_eq_true, if_true,
      or_true]
    push_cast
    rfl

theorem dfhGetParamSizeLoop_beyond {ofst : Int} (beyond : ¬ Looks max ofst)
    (fuel : Nat) (state : Enumeration) :
    dfhGetParamSizeLoop platform dfhBase max (fuel + 1) ofst state =
      ⟨[], .ok negEnoent, state⟩ := by
  unfold Looks at beyond
  rw [dfhGetParamSizeLoop, if_neg beyond]
  rfl

theorem dfhGetParamSizeLoop_withFuel (fuel rounds : Nat) (ofst : Int) :
    dfhGetParamSizeLoop (platform.withFuel rounds) dfhBase max fuel ofst =
      dfhGetParamSizeLoop platform dfhBase max fuel ofst := by
  induction fuel generalizing ofst with
  | zero => rfl
  | succ fuel ih =>
      rw [dfhGetParamSizeLoop, dfhGetParamSizeLoop]
      refine congrArg (ite _ · _) ?_
      refine congrArg (readq platform _ >>= ·) (funext fun value => ?_)
      dsimp only
      rw [ih]

/-- A block which is not the last gives its length. -/
theorem next_of_not_last {header : BitVec 64} (notLast : ¬ LastBlock header) :
    dfhv1ParamHdrNextOffset.get header ≠ 0 ∧
      dfhv1ParamHdrNextEop.get header = 0 ∧
        blockLength header = dfhv1ParamHdrNextOffset.get header * 8 := by
  obtain ⟨nonzero, notEop⟩ := not_or.mp notLast
  exact ⟨nonzero, not_not.mp notEop, if_neg nonzero⟩

/-- The scan goes on behind a block which is not the last. -/
theorem ParamReaches.behind {ofst : Int}
    (reaches : ParamReaches platform dfhBase max ofst)
    (notLast : ¬ LastBlock (paramHdr platform dfhBase ofst))
    (looks : Looks max (behindBlock platform dfhBase ofst)) :
    ParamReaches platform dfhBase max
      (behindBlock platform dfhBase ofst) := by
  obtain ⟨nonzero, notEop, length⟩ := next_of_not_last notLast
  unfold behindBlock at looks ⊢
  rw [length] at looks ⊢
  exact .next reaches nonzero notEop looks

/-- The blocks which are reached, from each to the one behind it. -/
@[elab_as_elim]
theorem ParamReaches.blocks
    {motive : ∀ ofst, ParamReaches platform dfhBase max ofst → Prop}
    (first : ∀ (hasParams : HasParams platform dfhBase) (looks : Looks max 0),
      motive 0 (.first hasParams looks))
    (next : ∀ ofst (before : ParamReaches platform dfhBase max ofst)
      (notLast : ¬ LastBlock (paramHdr platform dfhBase ofst))
      (looks : Looks max (behindBlock platform dfhBase ofst)),
      motive ofst before → motive _ (before.behind notLast looks))
    {ofst : Int} (reaches : ParamReaches platform dfhBase max ofst) :
    motive ofst reaches := by
  induction reaches with
  | first hasParams looks => exact first hasParams looks
  | @next ofst before nonzero notEop looks ih =>
      have behind : behindBlock platform dfhBase ofst =
          int32
            (ofst + dfhv1ParamHdrNextOffset.get
              (platform.reg (dfhBase + dfhv1ParamHdr + ofst)) * 8) := by
        unfold behindBlock blockLength paramHdr
        rw [if_neg nonzero]
        push_cast
        rfl
      have continues :=
        next ofst before (not_or.mpr ⟨nonzero, not_not.mpr notEop⟩)
      simp only [behind] at continues
      exact continues looks ih

theorem ParamReaches.looks {ofst : Int}
    (reaches : ParamReaches platform dfhBase max ofst) : Looks max ofst := by
  induction reaches using ParamReaches.blocks with
  | first _ looks => exact looks
  | next _ _ _ looks => exact looks

theorem ParamReaches.hasParams {ofst : Int}
    (reaches : ParamReaches platform dfhBase max ofst) :
    HasParams platform dfhBase := by
  induction reaches using ParamReaches.blocks with
  | first hasParams => exact hasParams
  | next _ _ _ _ ih => exact ih

theorem ParamReaches.range {ofst : Int}
    (reaches : ParamReaches platform dfhBase max ofst) :
    -2 ^ 31 ≤ ofst ∧ ofst < 2 ^ 31 := by
  induction reaches using ParamReaches.blocks with
  | first => decide
  | next => exact int32_range _

/-- If the first block is the last one, no other is reached. -/
theorem ParamReaches.eq_zero {ofst : Int}
    (reaches : ParamReaches platform dfhBase max ofst)
    (last : LastBlock (paramHdr platform dfhBase 0)) : ofst = 0 := by
  induction reaches using ParamReaches.blocks with
  | first => rfl
  | next ofst _ notLast _ ih => exact absurd (ih ▸ last) notLast

/-! ## Exact offsets -/

/-- The offsets of the blocks which are listed one behind the other. -/
inductive Listed (platform : Platform) (dfhBase : Int) (max : Nat) :
    Int → Prop where
  | first :
      HasParams platform dfhBase → Looks max 0 →
      Listed platform dfhBase max 0
  | next {ofst : Int} :
      Listed platform dfhBase max ofst →
      ¬ LastBlock (paramHdr platform dfhBase ofst) →
      Looks max (ofst + blockLength (paramHdr platform dfhBase ofst)) →
      Listed platform dfhBase max
        (ofst + blockLength (paramHdr platform dfhBase ofst))

/-- The blocks which are listed end at offsets which an `int` can hold. -/
def BlocksFit (platform : Platform) (dfhBase : Int) (max : Nat) : Prop :=
  ∀ ofst, Listed platform dfhBase max ofst →
    ofst + blockLength (paramHdr platform dfhBase ofst) < 2 ^ 31

/-- The sum of the scan does not overflow at any block. -/
def SumsFit (platform : Platform) (dfhBase : Int) (max : Nat) : Prop :=
  ∀ ofst, ParamReaches platform dfhBase max ofst →
    ofst + blockLength (paramHdr platform dfhBase ofst) < 2 ^ 31

theorem Listed.nonneg {ofst : Int}
    (listed : Listed platform dfhBase max ofst) : 0 ≤ ofst := by
  induction listed with
  | first => exact Int.le_refl 0
  | next _ _ _ ih => omega

theorem behindBlock_eq {ofst : Int} (nonneg : 0 ≤ ofst)
    (fits : ofst + blockLength (paramHdr platform dfhBase ofst) < 2 ^ 31) :
    behindBlock platform dfhBase ofst =
      ofst + blockLength (paramHdr platform dfhBase ofst) :=
  int32_of_range (by omega) fits

/-- Without an overflow the scan reaches the blocks which are listed. -/
theorem Listed.reaches {ofst : Int}
    (listed : Listed platform dfhBase max ofst)
    (fits : SumsFit platform dfhBase max) :
    ParamReaches platform dfhBase max ofst := by
  induction listed with
  | first hasParams looks => exact .first hasParams looks
  | next before notLast looks ih =>
      have exact := behindBlock_eq before.nonneg (fits _ ih)
      rw [← exact] at looks ⊢
      exact ih.behind notLast looks

theorem ParamReaches.listed {ofst : Int}
    (reaches : ParamReaches platform dfhBase max ofst)
    (fits : BlocksFit platform dfhBase max) :
    Listed platform dfhBase max ofst := by
  induction reaches using ParamReaches.blocks with
  | first hasParams looks => exact .first hasParams looks
  | next ofst _ notLast looks ih =>
      rw [behindBlock_eq ih.nonneg (fits ofst ih)] at looks ⊢
      exact .next ih notLast looks

/-- The sum overflows at no block if none which is listed is too long. -/
theorem sumsFit_iff_blocksFit :
    SumsFit platform dfhBase max ↔ BlocksFit platform dfhBase max :=
  ⟨fun fits _ listed => fits _ (listed.reaches fits),
    fun fits _ reaches => fits _ (reaches.listed fits)⟩

/-! ## What a scan returns -/

/--
A scan of the blocks from an offset on: those which it visits, and what it
returns.
-/
inductive Scan (platform : Platform) (dfhBase : Int) (max : Nat) :
    Int → List Int → Int → Prop where
  | beyond {ofst : Int} :
      ¬ Looks max ofst → Scan platform dfhBase max ofst [] negEnoent
  | last {ofst : Int} :
      Looks max ofst → LastBlock (paramHdr platform dfhBase ofst) →
      Scan platform dfhBase max ofst [ofst]
        (ofst + blockLength (paramHdr platform dfhBase ofst))
  | next {ofst size : Int} {offsets : List Int} :
      Looks max ofst → ¬ LastBlock (paramHdr platform dfhBase ofst) →
      Scan platform dfhBase max
        (ofst + blockLength (paramHdr platform dfhBase ofst)) offsets size →
      Scan platform dfhBase max ofst (ofst :: offsets) size

/-- The number of bytes of the blocks at these offsets. -/
def totalLength (platform : Platform) (dfhBase : Int) (offsets : List Int) :
    Nat :=
  (offsets.map fun ofst => blockLength (paramHdr platform dfhBase ofst)).sum

/-- The reads of the blocks at these offsets. -/
def blockReads (dfhBase : Int) (offsets : List Int) : List Event :=
  offsets.map fun ofst => .read (dfhBase + dfhv1ParamHdr + ofst)

/-- Blocks which fit end, or the feature does. -/
theorem exists_scan (fits : BlocksFit platform dfhBase max) {ofst : Int}
    (nonneg : 0 ≤ ofst)
    (listed : Looks max ofst → Listed platform dfhBase max ofst) :
    ∃ offsets size, Scan platform dfhBase max ofst offsets size := by
  -- Each block is behind the one before, below the bound on their ends.
  induction left : (2 ^ 31 - ofst).toNat using Nat.strong_induction_on
    generalizing ofst with
  | _ left' ih =>
      by_cases looks : Looks max ofst
      · by_cases last : LastBlock (paramHdr platform dfhBase ofst)
        · exact ⟨_, _, .last looks last⟩
        · have below := fits ofst (listed looks)
          have longer := blockLength_pos (paramHdr platform dfhBase ofst)
          obtain ⟨offsets, size, rest⟩ :=
            ih _ (by omega) (by omega) (.next (listed looks) last) rfl
          exact ⟨_, _, .next looks last rest⟩
      · exact ⟨_, _, .beyond looks⟩

/-- The loop makes the scan, if the blocks which it visits fit. -/
theorem Scan.runs {ofst size : Int} {offsets : List Int}
    (scan : Scan platform dfhBase max ofst offsets size) (nonneg : 0 ≤ ofst)
    (fits : ∀ visited ∈ offsets,
      visited + blockLength (paramHdr platform dfhBase visited) < 2 ^ 31)
    {fuel : Nat} (enough : offsets.length ≤ fuel) (state : Enumeration) :
    dfhGetParamSizeLoop platform dfhBase max (fuel + 1) ofst state =
      ⟨blockReads dfhBase offsets, .ok size, state⟩ := by
  induction scan generalizing fuel with
  | beyond beyond => rw [dfhGetParamSizeLoop_beyond beyond]; rfl
  | last looks last =>
      rw [dfhGetParamSizeLoop_looks looks, if_pos last,
        behindBlock_eq nonneg (fits _ (List.mem_singleton_self _))]
      rfl
  | next looks notLast rest ih =>
      obtain ⟨fuel, rfl⟩ := Nat.exists_eq_add_of_lt enough
      have exact := behindBlock_eq nonneg (fits _ List.mem_cons_self)
      have runs := ih (by omega)
        (fun visited member => fits visited (List.mem_cons_of_mem _ member))
        (Nat.le_add_right _ fuel)
      rw [dfhGetParamSizeLoop_looks looks, if_neg notLast, exact, runs]
      rfl

/-- A scan ends beyond the feature, or behind the blocks which it visits. -/
theorem Scan.size_eq {ofst size : Int} {offsets : List Int}
    (scan : Scan platform dfhBase max ofst offsets size) :
    size = negEnoent ∨
      offsets ≠ [] ∧ size = ofst + totalLength platform dfhBase offsets := by
  unfold totalLength
  induction scan with
  | beyond => exact .inl rfl
  | last =>
      refine .inr ⟨List.cons_ne_nil _ _, ?_⟩
      rw [List.map_singleton, List.sum_singleton]
  | next looks notLast rest ih =>
      rcases ih with notFound | ⟨-, sum⟩
      · exact .inl notFound
      · refine .inr ⟨List.cons_ne_nil _ _, ?_⟩
        rw [List.map_cons, List.sum_cons, Nat.cast_add, ← Int.add_assoc]
        exact sum

theorem Scan.listed {ofst size : Int} {offsets : List Int}
    (scan : Scan platform dfhBase max ofst offsets size)
    (listed : Looks max ofst → Listed platform dfhBase max ofst) :
    ∀ visited ∈ offsets, Listed platform dfhBase max visited := by
  induction scan with
  | beyond => exact fun _ member => absurd member List.not_mem_nil
  | last looks last =>
      exact fun visited member => List.mem_singleton.mp member ▸ listed looks
  | next looks notLast rest ih =>
      intro visited member
      rcases List.mem_cons.mp member with rfl | later
      · exact listed looks
      · exact ih (.next (listed looks) notLast) visited later

theorem totalLength_dvd (offsets : List Int) :
    8 ∣ totalLength platform dfhBase offsets := by
  refine List.dvd_sum fun length member => ?_
  obtain ⟨ofst, -, rfl⟩ := List.mem_map.mp member
  exact blockLength_dvd _

theorem totalLength_pos {offsets : List Int} (nonempty : offsets ≠ []) :
    0 < totalLength platform dfhBase offsets := by
  obtain ⟨ofst, rest, rfl⟩ := List.exists_cons_of_ne_nil nonempty
  unfold totalLength
  rw [List.map_cons, List.sum_cons]
  exact Nat.add_pos_left (blockLength_pos _) _

/-! ## The size of parameters -/

/--
With enough rounds, `dfh_get_param_size` reads the headers at these offsets and
returns this size.
-/
def Walks (platform : Platform) (dfhBase : Int) (max : Nat)
    (offsets : List Int) (size : Int) : Prop :=
  ∃ enough, ∀ fuel ≥ enough, ∀ state,
    dfhGetParamSize (platform.withFuel fuel) dfhBase max state =
      ⟨.read (dfhBase + dfhv1CsrSizeGrp) :: blockReads dfhBase offsets,
        .ok size, state⟩

/-- What the size of parameters has to be. -/
structure ParamSizeScanned (platform : Platform) (dfhBase : Int)
    (max : Nat) : Prop where
  sums : SumsFit platform dfhBase max
  returns :
    ∃ offsets size, Walks platform dfhBase max offsets size ∧
      if HasParams platform dfhBase then
        size = negEnoent ∨
          0 < size ∧ 8 ∣ size ∧ size = totalLength platform dfhBase offsets
      else
        size = 0

theorem dfhGetParamSize_eq (platform : Platform) (dfhBase : Int) (max : Nat)
    (fuel : Nat) (state : Enumeration) :
    dfhGetParamSize (platform.withFuel fuel) dfhBase max state =
      if HasParams platform dfhBase then
        let run := dfhGetParamSizeLoop platform dfhBase max fuel 0 state
        ⟨.read (dfhBase + dfhv1CsrSizeGrp) :: run.events, run.result,
          run.state⟩
      else
        ⟨[.read (dfhBase + dfhv1CsrSizeGrp)], .ok 0, state⟩ := by
  rw [← dfhGetParamSizeLoop_withFuel fuel fuel]
  by_cases hasParams : HasParams platform dfhBase
  · have continues :
        ¬ dfhv1CsrSizeGrpHasParams.get
          ((platform.withFuel fuel).reg (dfhBase + dfhv1CsrSizeGrp)) = 0 :=
      hasParams
    rw [if_pos hasParams, dfhGetParamSize, bind_of_ok rfl, if_neg continues]
    rfl
  · have ends :
        dfhv1CsrSizeGrpHasParams.get
          ((platform.withFuel fuel).reg (dfhBase + dfhv1CsrSizeGrp)) = 0 :=
      not_not.mp hasParams
    rw [if_neg hasParams, dfhGetParamSize, bind_of_ok rfl, if_pos ends]
    rfl

theorem walks_of_noParams (noParams : ¬ HasParams platform dfhBase) :
    Walks platform dfhBase max [] 0 :=
  ⟨0, fun fuel _ state => by rw [dfhGetParamSize_eq, if_neg noParams]; rfl⟩

theorem Scan.walks {size : Int} {offsets : List Int}
    (scan : Scan platform dfhBase max 0 offsets size)
    (hasParams : HasParams platform dfhBase)
    (fits : BlocksFit platform dfhBase max) :
    Walks platform dfhBase max offsets size := by
  refine ⟨offsets.length + 1, fun fuel enough state => ?_⟩
  obtain ⟨fuel, rfl⟩ := Nat.exists_eq_add_of_lt enough
  have runs := scan.runs (Int.le_refl 0)
    (fun visited member =>
      fits _ (scan.listed (.first hasParams) visited member))
    (Nat.le_add_right _ fuel) state
  rw [dfhGetParamSize_eq, if_pos hasParams, runs]

/--
The parameters are scanned to their exact size precisely if the blocks which
are listed end at offsets which an `int` can hold.
-/
theorem param_size_scanned_iff (platform : Platform) (dfhBase : Int)
    (max : Nat) :
    ParamSizeScanned platform dfhBase max ↔
      BlocksFit platform dfhBase max := by
  constructor
  · intro scanned
    exact sumsFit_iff_blocksFit.mp scanned.sums
  · intro fits
    refine ⟨sumsFit_iff_blocksFit.mpr fits, ?_⟩
    by_cases hasParams : HasParams platform dfhBase
    · obtain ⟨offsets, size, scan⟩ :=
        exists_scan fits (Int.le_refl 0) (.first hasParams)
      refine ⟨offsets, size, scan.walks hasParams fits, ?_⟩
      rw [if_pos hasParams]
      rcases scan.size_eq with notFound | ⟨nonempty, sum⟩
      · exact .inl notFound
      · rw [Int.zero_add] at sum
        rw [sum]
        exact .inr ⟨Int.natCast_pos.mpr (totalLength_pos nonempty),
          Int.natCast_dvd_natCast.mpr (totalLength_dvd offsets), rfl⟩
    · refine ⟨[], 0, walks_of_noParams hasParams, ?_⟩
      rw [if_neg hasParams]

/-- Registers with parameters, whose first block has this header. -/
def oneBlock (header : BitVec 64) : Platform where
  mmio address :=
    if address = 0x20 then 0x80000000
    else if address = 0x28 then header
    else 0
  external _ := none
  irqTable _ := 0
  nrIrqsMax := 0
  beyond := 0
  fuel := 1

/-- A block whose length is near `2 ^ 32` makes the size negative. -/
theorem long_block_negative :
    (dfhGetParamSize (oneBlock 0xffffffff00000001) 0 0x1000
        (initialEnumeration 0)).result = .ok (-8) ∧
      ¬ ParamSizeScanned (oneBlock 0xffffffff00000001) 0 0x1000 := by
  refine ⟨by decide, fun scanned => ?_⟩
  have reaches : ParamReaches (oneBlock 0xffffffff00000001) 0 0x1000 0 :=
    .first (by decide) (by decide)
  exact absurd (scanned.sums 0 reaches) (by decide)

end LinuxDfl.Dfl

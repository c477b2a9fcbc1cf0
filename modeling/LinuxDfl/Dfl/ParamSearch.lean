import LinuxDfl.Dfl.ParamCopy

/-!
# The search for a parameter

The copy of the parameters is searched in words, where the registers are
scanned in bytes.  This says that both come to the same blocks, and where a
block may end without the word which follows its header.
-/

namespace LinuxDfl.Dfl

open LinuxDfl.Kernel
open LinuxDfl.Lib.Traced
open LinuxDfl.Lib.Traced.Program

variable {platform : Platform} {dfhBase : Int} {max : Nat}

/-! ## Finding a parameter -/

/-- The `int` of a parameter id, as an unsigned integer of 64 bits. -/
def paramIdOf (paramId : Int) : Nat := (paramId % 2 ^ 64).toNat

/--
`dfh_find_param`, which gives the index of the data of a block, and its size in
bytes
-/
def dfhFindParam (params : List (BitVec 64)) (paramId : Int) :
    Except Errno (Nat × Nat) :=
  (findParam params (paramIdOf paramId) params.length 0).elim
    (.error .enoent) fun index =>
      let next := dfhv1ParamHdrNextOffset.get (params.getD index 0)
      let next := if next = 0 then 2 else next
      .ok (index + 1, (next - 1) * 8)

/-- `dfh_get_u64_param_val`; `beyond` is found behind the parameters. -/
def dfhGetU64ParamVal (beyond : BitVec 64) (params : List (BitVec 64))
    (paramId : Int) : Except Errno (BitVec 64) :=
  (dfhFindParam params paramId).bind fun param =>
    if param.2 ≠ 8 then .error .einval
    else .ok (params.getD param.1 beyond)

/-- The indices of the blocks at which `find_param` looks. -/
def findParamVisits (params : List (BitVec 64)) (paramId : Nat) :
    Nat → Nat → List Nat
  | 0, _ => []
  | fuel + 1, index =>
      if index < params.length then
        let value := params.getD index 0
        if paramId = dfhv1ParamHdrId.get value then [index]
        else if dfhv1ParamHdrNextEop.get value ≠ 0 then [index]
        else
          let next := dfhv1ParamHdrNextOffset.get value
          if next = 0 then [index]
          else index :: findParamVisits params paramId fuel (index + next)
      else []

section Step

variable {params : List (BitVec 64)} {index : Nat} {value : BitVec 64}
  (here : params[index]? = some value) (paramId fuel : Nat)

include here

theorem findParam_hit (hit : dfhv1ParamHdrId.get value = paramId) :
    findParam params paramId (fuel + 1) index = some index ∧
      findParamVisits params paramId (fuel + 1) index = [index] := by
  obtain ⟨inside, isValue⟩ := List.getElem?_eq_some_iff.mp here
  rw [findParam, findParamVisits, if_pos inside, if_pos inside,
    List.getD_eq_getElem?_getD, here]
  exact ⟨if_pos hit.symm, if_pos hit.symm⟩

theorem findParam_last (other : dfhv1ParamHdrId.get value ≠ paramId)
    (last : LastBlock value) :
    findParam params paramId (fuel + 1) index = none ∧
      findParamVisits params paramId (fuel + 1) index = [index] := by
  obtain ⟨inside, isValue⟩ := List.getElem?_eq_some_iff.mp here
  rw [findParam, findParamVisits, if_pos inside, if_pos inside,
    List.getD_eq_getElem?_getD, here]
  dsimp only [Option.getD_some]
  rw [if_neg (Ne.symm other), if_neg (Ne.symm other)]
  by_cases notEop : dfhv1ParamHdrNextEop.get value = 0
  · have zero : dfhv1ParamHdrNextOffset.get value = 0 :=
      last.resolve_right (not_not.mpr notEop)
    rw [if_neg (not_not.mpr notEop), if_neg (not_not.mpr notEop), if_pos zero,
      if_pos zero]
    exact ⟨rfl, rfl⟩
  · rw [if_pos notEop, if_pos notEop]
    exact ⟨rfl, rfl⟩

theorem findParam_next (other : dfhv1ParamHdrId.get value ≠ paramId)
    (notLast : ¬ LastBlock value) :
    findParam params paramId (fuel + 1) index =
        findParam params paramId fuel (index + blockLength value / 8) ∧
      findParamVisits params paramId (fuel + 1) index =
        index ::
          findParamVisits params paramId fuel
            (index + blockLength value / 8) := by
  obtain ⟨inside, isValue⟩ := List.getElem?_eq_some_iff.mp here
  obtain ⟨nonzero, notEop, length⟩ := next_of_not_last notLast
  rw [length, Nat.mul_div_cancel _ (by decide), findParam, findParamVisits,
    if_pos inside, if_pos inside, List.getD_eq_getElem?_getD, here]
  dsimp only [Option.getD_some]
  rw [if_neg (Ne.symm other), if_neg (Ne.symm other),
    if_neg (not_not.mpr notEop), if_neg (not_not.mpr notEop), if_neg nonzero,
    if_neg nonzero]
  exact ⟨rfl, rfl⟩

end Step

/-! ## The blocks of a scan -/

theorem registers_get? {address : Int} {count index : Nat}
    (inside : index < count) :
    (registers platform address count)[index]? =
      some (platform.reg (address + 8 * index)) := by
  unfold registers
  rw [List.getElem?_map, List.getElem?_range inside]
  rfl

theorem registers_length (address : Int) (count : Nat) :
    (registers platform address count).length = count := by
  unfold registers
  rw [List.length_map, List.length_range]

/-- The block at this offset has the id. -/
def HasId (platform : Platform) (dfhBase : Int) (paramId : Nat)
    (ofst : Int) : Bool :=
  dfhv1ParamHdrId.get (paramHdr platform dfhBase ofst) = paramId

/-- The values up to the first which is asked for. -/
def upTo {Value : Type} (asked : Value → Bool) : List Value → List Value
  | [] => []
  | value :: rest => if asked value then [value] else value :: upTo asked rest

/-- The blocks which a scan visits end where it does, at the latest. -/
theorem Scan.ends {ofst size : Int} {offsets : List Int}
    (scan : Scan platform dfhBase max ofst offsets size)
    (succeeds : 0 ≤ size) :
    ofst < size ∧ ∀ visited ∈ offsets,
      ofst ≤ visited ∧
        visited + blockLength (paramHdr platform dfhBase visited) ≤ size := by
  induction scan with
  | beyond => exact absurd succeeds (by decide)
  | @last ofst looks last =>
      have positive := blockLength_pos (paramHdr platform dfhBase ofst)
      refine ⟨by omega, fun visited member => ?_⟩
      rw [List.mem_singleton.mp member]
      exact ⟨Int.le_refl _, Int.le_refl _⟩
  | @next ofst size offsets looks notLast rest ih =>
      obtain ⟨below, later⟩ := ih succeeds
      have positive := blockLength_pos (paramHdr platform dfhBase ofst)
      refine ⟨by omega, fun visited member => ?_⟩
      rcases List.mem_cons.mp member with rfl | member
      · exact ⟨Int.le_refl _, by omega⟩
      · have := later visited member
        exact ⟨by omega, this.2⟩

theorem eight_le_blockLength (header : BitVec 64) :
    8 ≤ blockLength header :=
  Nat.le_of_dvd (blockLength_pos header) (blockLength_dvd header)

/-- The index of the word behind a block is that of the offset behind it. -/
theorem ofst_behind (index : Nat) (header : BitVec 64) :
    8 * (index : Int) + blockLength header =
      8 * ((index + blockLength header / 8 : Nat) : Int) := by
  have whole := Nat.div_mul_cancel (blockLength_dvd header)
  push_cast
  omega

/-- The copy has the header of a block where the block is. -/
theorem block_copied (platform : Platform) (dfhBase size : Int)
    (index : Nat) (inside : 8 * (index : Int) + 8 ≤ size) :
    (registers platform (dfhBase + dfhv1ParamHdr)
        (size.toNat / 8))[index]? =
      some (paramHdr platform dfhBase (8 * index)) :=
  registers_get? (by omega)

/-- The search comes to the blocks at these offsets, up to the one it asks for. -/
def SearchMeets (platform : Platform) (dfhBase : Int)
    (params : List (BitVec 64)) (paramId fuel index : Nat)
    (offsets : List Int) : Prop :=
  findParam params paramId fuel index =
      (offsets.find? (HasId platform dfhBase paramId)).map
        (fun found => (found / 8).toNat) ∧
    (findParamVisits params paramId fuel index).map
        (fun visited : Nat => (8 * visited : Int)) =
      upTo (HasId platform dfhBase paramId) offsets

section Search

variable {params : List (BitVec 64)} {index : Nat}
  (value : params[index]? = some (paramHdr platform dfhBase (8 * index)))
  {paramId : Nat}

include value

theorem searchMeets_hit
    (hit : dfhv1ParamHdrId.get (paramHdr platform dfhBase (8 * index)) =
      paramId)
    (fuel : Nat) (rest : List Int) :
    SearchMeets platform dfhBase params paramId (fuel + 1) index
      (8 * index :: rest) := by
  have asked : HasId platform dfhBase paramId (8 * index) = true :=
    decide_eq_true hit
  have isIndex : index = (8 * (index : Int) / 8).toNat := by omega
  obtain ⟨found, visits⟩ := findParam_hit value paramId fuel hit
  unfold SearchMeets
  rw [found, visits, List.find?_cons_of_pos asked, upTo, if_pos asked]
  exact ⟨congrArg some isIndex, rfl⟩

theorem searchMeets_last
    (other : dfhv1ParamHdrId.get (paramHdr platform dfhBase (8 * index)) ≠
      paramId)
    (last : LastBlock (paramHdr platform dfhBase (8 * index))) (fuel : Nat) :
    SearchMeets platform dfhBase params paramId (fuel + 1) index
      [8 * index] := by
  have notAsked : ¬ HasId platform dfhBase paramId (8 * index) = true :=
    decide_eq_true_iff.not.mpr other
  obtain ⟨found, visits⟩ := findParam_last value paramId fuel other last
  unfold SearchMeets
  rw [found, visits, List.find?_cons_of_neg notAsked, upTo, if_neg notAsked]
  exact ⟨rfl, rfl⟩

theorem searchMeets_next
    (other : dfhv1ParamHdrId.get (paramHdr platform dfhBase (8 * index)) ≠
      paramId)
    (notLast : ¬ LastBlock (paramHdr platform dfhBase (8 * index)))
    {fuel : Nat} {rest : List Int}
    (meets : SearchMeets platform dfhBase params paramId fuel
      (index + blockLength (paramHdr platform dfhBase (8 * index)) / 8)
      rest) :
    SearchMeets platform dfhBase params paramId (fuel + 1) index
      (8 * index :: rest) := by
  have notAsked : ¬ HasId platform dfhBase paramId (8 * index) = true :=
    decide_eq_true_iff.not.mpr other
  obtain ⟨found, visits⟩ := findParam_next value paramId fuel other notLast
  unfold SearchMeets
  rw [found, visits, List.find?_cons_of_neg notAsked, upTo, if_neg notAsked,
    List.map_cons]
  exact ⟨meets.1, congrArg (List.cons _) meets.2⟩

end Search

/-- The search from a block on comes to the blocks of the scan from there. -/
theorem Scan.search {ofst size : Int} {offsets : List Int}
    (scan : Scan platform dfhBase max ofst offsets size)
    (succeeds : 0 ≤ size) {index fuel : Nat} (here : ofst = 8 * index)
    (enough : size.toNat / 8 ≤ fuel + index) (paramId : Nat) :
    SearchMeets platform dfhBase
      (registers platform (dfhBase + dfhv1ParamHdr) (size.toNat / 8)) paramId
      fuel index offsets := by
  induction scan generalizing index fuel with
  | beyond => exact absurd succeeds (by decide)
  | @last ofst looks last =>
      subst here
      have longer :=
        eight_le_blockLength (paramHdr platform dfhBase (8 * index))
      have value := block_copied platform dfhBase
        (8 * index + blockLength (paramHdr platform dfhBase (8 * index)))
        index (by omega)
      obtain ⟨fuel, rfl⟩ : ∃ more, fuel = more + 1 :=
        Nat.exists_eq_add_one.mpr (by omega)
      by_cases hit :
          dfhv1ParamHdrId.get (paramHdr platform dfhBase (8 * index)) = paramId
      · exact searchMeets_hit value hit fuel []
      · exact searchMeets_last value hit last fuel
  | @next ofst size offsets looks notLast rest ih =>
      subst here
      have longer :=
        eight_le_blockLength (paramHdr platform dfhBase (8 * index))
      have below := (rest.ends succeeds).1
      have value := block_copied platform dfhBase size index (by omega)
      obtain ⟨fuel, rfl⟩ : ∃ more, fuel = more + 1 :=
        Nat.exists_eq_add_one.mpr (by omega)
      by_cases hit :
          dfhv1ParamHdrId.get (paramHdr platform dfhBase (8 * index)) = paramId
      · exact searchMeets_hit value hit fuel offsets
      · refine searchMeets_next value hit notLast
          (ih succeeds (ofst_behind index _) ?_)
        omega

theorem Scan.aligned {ofst size : Int} {offsets : List Int}
    (scan : Scan platform dfhBase max ofst offsets size) (aligned : 8 ∣ ofst) :
    ∀ visited ∈ offsets, 8 ∣ visited := by
  induction scan with
  | beyond => exact fun _ member => absurd member List.not_mem_nil
  | last => exact fun visited member => List.mem_singleton.mp member ▸ aligned
  | @next ofst size offsets looks notLast rest ih =>
      have length :=
        Int.natCast_dvd_natCast.mpr
          (blockLength_dvd (paramHdr platform dfhBase ofst))
      intro visited member
      rcases List.mem_cons.mp member with rfl | later
      · exact aligned
      · exact ih (Int.dvd_add aligned length) visited later

/-! ## Both walks -/

theorem blockReads_injective : Function.Injective (blockReads dfhBase) := by
  refine List.map_injective_iff.mpr fun first second same => ?_
  have address := Event.read.inj same
  omega

theorem Walks.unique {offsets others : List Int} {size other : Int}
    (first : Walks platform dfhBase max offsets size)
    (second : Walks platform dfhBase max others other) :
    offsets = others ∧ size = other := by
  obtain ⟨enough, runs⟩ := first
  obtain ⟨enough', runs'⟩ := second
  have left := runs _ (Nat.le_max_left enough enough') (initialEnumeration 0)
  have right :=
    runs' _ (Nat.le_max_right enough enough') (initialEnumeration 0)
  obtain ⟨events, result, -⟩ := Run.mk.inj (left.symm.trans right)
  exact ⟨blockReads_injective (List.cons.inj events).2, Except.ok.inj result⟩

/-- What is walked without an overflow is a scan. -/
theorem Walks.scan {offsets : List Int} {size : Int}
    (walks : Walks platform dfhBase max offsets size)
    (fits : SumsFit platform dfhBase max) :
    Scan platform dfhBase max 0 offsets size ∨ offsets = [] ∧ size = 0 := by
  by_cases hasParams : HasParams platform dfhBase
  · have blocksFit := sumsFit_iff_blocksFit.mp fits
    obtain ⟨visited, returned, scan⟩ :=
      exists_scan blocksFit (Int.le_refl 0) (.first hasParams)
    obtain ⟨rfl, rfl⟩ := walks.unique (scan.walks hasParams blocksFit)
    exact .inl scan
  · exact .inr (walks.unique (walks_of_noParams hasParams))

/-- The search meets the blocks which have been walked. -/
theorem Walks.search {offsets : List Int} {size : Int}
    (walks : Walks platform dfhBase max offsets size)
    (fits : SumsFit platform dfhBase max) (succeeds : 0 ≤ size)
    (paramId : Nat) :
    SearchMeets platform dfhBase
      (registers platform (dfhBase + dfhv1ParamHdr) (size.toNat / 8)) paramId
      (size.toNat / 8) 0 offsets := by
  rcases walks.scan fits with scan | ⟨rfl, rfl⟩
  · exact scan.search succeeds rfl (Nat.le_refl _) paramId
  · exact ⟨rfl, rfl⟩

/-- Each block which has been walked is in the copy, up to its end. -/
theorem Walks.block {offsets : List Int} {size : Int}
    (walks : Walks platform dfhBase max offsets size)
    (fits : SumsFit platform dfhBase max) (succeeds : 0 ≤ size)
    {ofst : Int} (member : ofst ∈ offsets) :
    ∃ index : Nat, ofst = 8 * index ∧
      8 * index + blockLength (paramHdr platform dfhBase ofst) ≤
        size.toNat := by
  rcases walks.scan fits with scan | ⟨rfl, -⟩
  · obtain ⟨nonneg, ends⟩ := (scan.ends succeeds).2 ofst member
    obtain ⟨index, rfl⟩ := scan.aligned (Int.dvd_zero 8) ofst member
    refine ⟨index.toNat, by omega, by omega⟩
  · exact absurd member List.not_mem_nil

/-- What the search in a copy has to do with the blocks at these offsets. -/
structure SearchAgrees (platform : Platform) (dfhBase : Int)
    (offsets : List Int) (size : Int) (params : List (BitVec 64)) :
    Prop where
  /-- The blocks are in the copy. -/
  headers : ∀ ofst ∈ offsets, ∃ index : Nat,
    ofst = 8 * index ∧
      params[index]? = some (paramHdr platform dfhBase ofst)
  /-- The search visits them in this order, until it has found the first. -/
  visits : ∀ paramId,
    (findParamVisits params paramId params.length 0).map
        (fun visited : Nat => (8 * visited : Int)) =
      upTo (HasId platform dfhBase paramId) offsets
  /-- It returns the data of the first, or that there is none. -/
  found : ∀ paramId,
    dfhFindParam params paramId =
      (offsets.find? (HasId platform dfhBase (paramIdOf paramId))).elim
        (.error .enoent) fun ofst =>
          .ok ((ofst / 8).toNat + 1,
            blockLength (paramHdr platform dfhBase ofst) - 8)
  /-- The data is part of the copy. -/
  inside : ∀ paramId index psize,
    dfhFindParam params paramId = .ok (index, psize) →
      8 * index + psize ≤ size.toNat
  /-- A value of 64 bits is that of the register behind the header. -/
  value : ∀ beyond paramId,
    dfhGetU64ParamVal beyond params paramId =
      (offsets.find? (HasId platform dfhBase (paramIdOf paramId))).elim
        (.error .enoent) fun ofst =>
          if blockLength (paramHdr platform dfhBase ofst) = 16 then
            .ok (platform.reg (dfhBase + dfhv1ParamHdr + (ofst + 8)))
          else .error .einval

/-- The data of a block is what follows its header. -/
theorem dataSize_eq (header : BitVec 64) :
    ((if dfhv1ParamHdrNextOffset.get header = 0 then 2
        else dfhv1ParamHdrNextOffset.get header) - 1) * 8 =
      blockLength header - 8 := by
  unfold blockLength
  split_ifs <;> omega

section Agrees

variable {offsets : List Int} {size : Int}
  (walks : Walks platform dfhBase max offsets size)
  (fits : SumsFit platform dfhBase max) (succeeds : 0 ≤ size)

include walks fits succeeds

theorem Walks.header {ofst : Int} (member : ofst ∈ offsets) :
    ∃ index : Nat, ofst = 8 * index ∧
      (registers platform (dfhBase + dfhv1ParamHdr)
          (size.toNat / 8))[index]? =
        some (paramHdr platform dfhBase ofst) := by
  obtain ⟨index, rfl, ends⟩ := walks.block fits succeeds member
  have longer := eight_le_blockLength (paramHdr platform dfhBase (8 * index))
  exact ⟨index, rfl, block_copied platform dfhBase size index (by omega)⟩

theorem Walks.found (paramId : Int) :
    dfhFindParam
        (registers platform (dfhBase + dfhv1ParamHdr) (size.toNat / 8))
        paramId =
      (offsets.find? (HasId platform dfhBase (paramIdOf paramId))).elim
        (.error .enoent) fun ofst =>
          .ok ((ofst / 8).toNat + 1,
            blockLength (paramHdr platform dfhBase ofst) - 8) := by
  unfold dfhFindParam
  rw [registers_length,
    (walks.search fits succeeds (paramIdOf paramId)).1]
  cases first : offsets.find?
      (HasId platform dfhBase (paramIdOf paramId)) with
  | none => rfl
  | some ofst =>
      obtain ⟨index, rfl, header⟩ :=
        walks.header fits succeeds (List.mem_of_find?_eq_some first)
      have isIndex : (8 * (index : Int) / 8).toNat = index := by omega
      simp only [Option.map_some, Option.elim_some, isIndex,
        List.getD_eq_getElem?_getD, header, Option.getD_some, dataSize_eq]

theorem Walks.inside {paramId : Int} {index psize : Nat}
    (found : dfhFindParam
        (registers platform (dfhBase + dfhv1ParamHdr) (size.toNat / 8))
        paramId = .ok (index, psize)) :
    8 * index + psize ≤ size.toNat := by
  rw [walks.found fits succeeds] at found
  cases first : offsets.find?
      (HasId platform dfhBase (paramIdOf paramId)) with
  | none =>
      rw [first] at found
      cases found
  | some ofst =>
      rw [first] at found
      obtain ⟨index, rfl, ends⟩ :=
        walks.block fits succeeds (List.mem_of_find?_eq_some first)
      have longer :=
        eight_le_blockLength (paramHdr platform dfhBase (8 * index))
      obtain ⟨rfl, rfl⟩ := Prod.mk.inj (Except.ok.inj found)
      omega

theorem Walks.value (beyond : BitVec 64) (paramId : Int) :
    dfhGetU64ParamVal beyond
        (registers platform (dfhBase + dfhv1ParamHdr) (size.toNat / 8))
        paramId =
      (offsets.find? (HasId platform dfhBase (paramIdOf paramId))).elim
        (.error .enoent) fun ofst =>
          if blockLength (paramHdr platform dfhBase ofst) = 16 then
            .ok (platform.reg (dfhBase + dfhv1ParamHdr + (ofst + 8)))
          else .error .einval := by
  unfold dfhGetU64ParamVal
  rw [walks.found fits succeeds]
  cases first : offsets.find?
      (HasId platform dfhBase (paramIdOf paramId)) with
  | none => rfl
  | some ofst =>
      obtain ⟨index, rfl, ends⟩ :=
        walks.block fits succeeds (List.mem_of_find?_eq_some first)
      have longer :=
        eight_le_blockLength (paramHdr platform dfhBase (8 * index))
      have isIndex : (8 * (index : Int) / 8).toNat = index := by omega
      rw [Option.elim_some, Option.elim_some, Except.bind, isIndex]
      dsimp only
      by_cases word : blockLength (paramHdr platform dfhBase (8 * index)) = 16
      · rw [if_pos word, if_neg (by omega), List.getD_eq_getElem?_getD,
          registers_get? (by omega), Option.getD_some]
        push_cast
        rw [Int.mul_add, Int.mul_one]
      · rw [if_neg word, if_pos (by omega)]

end Agrees

/--
If the scan for the size of parameters succeeds without an overflow, the search
in the copy comes to the same blocks, and its data is part of the copy.
-/
theorem search_agrees_with_scan (platform : Platform) (dfhBase : Int)
    (max : Nat) (state : Enumeration) {offsets : List Int} {size : Int}
    {params : List (BitVec 64)}
    (fits : SumsFit platform dfhBase max)
    (walks : Walks platform dfhBase max offsets size) (succeeds : 0 ≤ size)
    (copied : (memcpyFromio platform (dfhBase + dfhv1ParamHdr)
      (size.toNat / 8) state).result = .ok params) :
    SearchAgrees platform dfhBase offsets size params := by
  rw [memcpyFromio_result] at copied
  obtain rfl := Except.ok.inj copied
  exact
    { headers := fun ofst member => walks.header fits succeeds member
      visits := fun paramId => by
        rw [registers_length]
        exact (walks.search fits succeeds paramId).2
      found := walks.found fits succeeds
      inside := fun paramId index psize => walks.inside fits succeeds
      value := walks.value fits succeeds }

/-- A block of 16 bytes is found in the copy as it has been scanned. -/
theorem one_block_search :
    SearchAgrees (featureWithBlock 0x38 0x1100000002) 0 [0] 16
      [0x1100000002, 0] := by
  have last :
      LastBlock (paramHdr (featureWithBlock 0x38 0x1100000002) 0 0) := by
    decide
  have fits : SumsFit (featureWithBlock 0x38 0x1100000002) 0 0x38 := by
    intro ofst reaches
    rw [reaches.eq_zero last]
    decide
  have walks :
      Walks (featureWithBlock 0x38 0x1100000002) 0 0x38 [0] 16 :=
    (Scan.last (by decide) last).walks (by decide)
      (sumsFit_iff_blocksFit.mp fits)
  exact search_agrees_with_scan _ 0 0x38 (windowOf 0x1000) fits walks
    (by decide) rfl

/-! ## The interrupts of a feature -/

/-- The offsets of the blocks before which none has the id. -/
inductive SearchReaches (platform : Platform) (dfhBase : Int)
    (paramId : Nat) : Int → Prop where
  | first : SearchReaches platform dfhBase paramId 0
  | next {ofst : Int} :
      SearchReaches platform dfhBase paramId ofst →
      HasId platform dfhBase paramId ofst = false →
      ¬ LastBlock (paramHdr platform dfhBase ofst) →
      SearchReaches platform dfhBase paramId
        (ofst + blockLength (paramHdr platform dfhBase ofst))

/-- The first block with the id is at this offset. -/
structure FirstBlock (platform : Platform) (dfhBase : Int) (paramId : Nat)
    (ofst : Int) : Prop where
  reaches : SearchReaches platform dfhBase paramId ofst
  hasId : HasId platform dfhBase paramId ofst = true

/-- The first block with the id which the search finds is the first of all. -/
theorem firstBlock_of_findParam {paramId count fuel index found : Nat}
    (reaches : SearchReaches platform dfhBase paramId (8 * index))
    (isFound : findParam
      (registers platform (dfhBase + dfhv1ParamHdr) count) paramId fuel
        index = some found) :
    FirstBlock platform dfhBase paramId (8 * found) ∧ found < count := by
  induction fuel generalizing index with
  | zero => cases isFound
  | succ fuel ih =>
      by_cases inside : index < count
      · have value :
            (registers platform (dfhBase + dfhv1ParamHdr) count)[index]? =
              some (paramHdr platform dfhBase (8 * index)) :=
          registers_get? inside
        by_cases hit :
            dfhv1ParamHdrId.get (paramHdr platform dfhBase (8 * index)) =
              paramId
        · rw [(findParam_hit value paramId fuel hit).1] at isFound
          obtain rfl := Option.some.inj isFound
          exact ⟨⟨reaches, decide_eq_true hit⟩, inside⟩
        by_cases last : LastBlock (paramHdr platform dfhBase (8 * index))
        · rw [(findParam_last value paramId fuel hit last).1] at isFound
          cases isFound
        · rw [(findParam_next value paramId fuel hit last).1] at isFound
          refine ih ?_ isFound
          have next := reaches.next (decide_eq_false hit) last
          rwa [ofst_behind] at next
      · rw [findParam, if_neg (by rwa [registers_length])] at isFound
        cases isFound

/-- The search comes to each block before which none has the id. -/
theorem SearchReaches.findParam_eq {paramId count : Nat} {ofst : Int}
    (reaches : SearchReaches platform dfhBase paramId ofst)
    (inside : ofst < 8 * count) :
    ∃ index fuel : Nat, ofst = 8 * index ∧ count ≤ fuel + index ∧
      findParam (registers platform (dfhBase + dfhv1ParamHdr) count) paramId
          count 0 =
        findParam (registers platform (dfhBase + dfhv1ParamHdr) count) paramId
          fuel index := by
  induction reaches with
  | first => exact ⟨0, count, rfl, Nat.le_refl _, rfl⟩
  | @next ofst before other notLast ih =>
      have positive := blockLength_pos (paramHdr platform dfhBase ofst)
      obtain ⟨index, fuel, rfl, enough, same⟩ := ih (by omega)
      have value :
          (registers platform (dfhBase + dfhv1ParamHdr) count)[index]? =
            some (paramHdr platform dfhBase (8 * index)) :=
        registers_get? (by omega)
      obtain ⟨fuel, rfl⟩ : ∃ more, fuel = more + 1 :=
        Nat.exists_eq_add_one.mpr (by omega)
      have longer :=
        eight_le_blockLength (paramHdr platform dfhBase (8 * index))
      rw [(findParam_next value paramId fuel (of_decide_eq_false other)
        notLast).1] at same
      exact ⟨_, fuel, ofst_behind index _, by omega, same⟩

theorem FirstBlock.findParam {paramId : Nat} {ofst : Int}
    (first : FirstBlock platform dfhBase paramId ofst) (count : Nat)
    (inside : ofst < 8 * count) :
    ∃ index : Nat, ofst = 8 * index ∧
      findParam (registers platform (dfhBase + dfhv1ParamHdr) count) paramId
        count 0 = some index := by
  obtain ⟨index, fuel, rfl, enough, same⟩ := first.reaches.findParam_eq inside
  have value :
      (registers platform (dfhBase + dfhv1ParamHdr) count)[index]? =
        some (paramHdr platform dfhBase (8 * index)) :=
    registers_get? (by omega)
  obtain ⟨fuel, rfl⟩ : ∃ more, fuel = more + 1 :=
    Nat.exists_eq_add_one.mpr (by omega)
  rw [(findParam_hit value paramId fuel
    (of_decide_eq_true first.hasId)).1] at same
  exact ⟨index, rfl, same⟩

theorem int32_dvd {value : Int} (aligned : 8 ∣ value) : 8 ∣ int32 value := by
  obtain ⟨carries, eq⟩ := int32_eq_sub value
  omega

theorem behindBlock_dvd {ofst : Int} (aligned : 8 ∣ ofst) :
    8 ∣ behindBlock platform dfhBase ofst :=
  int32_dvd
    (Int.dvd_add aligned (Int.natCast_dvd_natCast.mpr (blockLength_dvd _)))

theorem ParamReaches.aligned {ofst : Int}
    (reaches : ParamReaches platform dfhBase max ofst) : 8 ∣ ofst := by
  induction reaches using ParamReaches.blocks with
  | first => exact Int.dvd_zero 8
  | next _ _ _ _ ih => exact behindBlock_dvd ih

/-- The word behind the header of the MSI-X block has been copied. -/
def MsiXWordCopied (finfo : DflFeatureInfo) : Prop :=
  ∀ index,
    findParam finfo.params dfhv1ParamIdMsiX finfo.params.length 0 =
        some index →
      8 * (index + 1) + 8 ≤ finfo.paramSize

/-- The parameters do not end behind the header of the first MSI-X block. -/
def MsiXHasWord (platform : Platform) (dfhBase : Int) (max : Nat) : Prop :=
  ∀ msiX last, FirstBlock platform dfhBase dfhv1ParamIdMsiX msiX →
    ParamReaches platform dfhBase max last →
      LastBlock (paramHdr platform dfhBase last) →
        behindBlock platform dfhBase last ≠ msiX + 8

/--
The word of interrupts which is read of the parameters of a feature has been
copied exactly if they do not end before it.
-/
theorem msiX_word_copied_iff (platform : Platform) (dfhBase : Int)
    (max : Nat) {finfo : DflFeatureInfo}
    (copied : ParamsCopied platform dfhBase max finfo) :
    MsiXWordCopied finfo ↔ MsiXHasWord platform dfhBase max := by
  unfold MsiXWordCopied
  rw [copied.params, registers_length]
  constructor
  · intro word msiX last isFirst reaches isLast atEnd
    have isSize := reaches.size_eq isLast copied.paramSize
    rw [atEnd] at isSize
    obtain ⟨index, rfl, found⟩ :=
      isFirst.findParam (finfo.paramSize / 8) (by omega)
    have ends := word index found
    omega
  · intro hasWord index found
    obtain ⟨isFirst, inside⟩ := firstBlock_of_findParam .first found
    obtain ⟨last, reaches, isLast, isSize⟩ :=
      exists_last copied.paramSize (by omega)
    have notAtEnd := hasWord _ last isFirst reaches isLast
    have aligned : 8 ∣ behindBlock platform dfhBase last :=
      behindBlock_dvd reaches.aligned
    rw [← isSize] at notAtEnd aligned
    omega

/-! ## Without an overflow -/

theorem SearchReaches.nonneg {paramId : Nat} {ofst : Int}
    (reaches : SearchReaches platform dfhBase paramId ofst) : 0 ≤ ofst := by
  induction reaches with
  | first => exact Int.le_refl 0
  | next _ _ _ ih => omega

/-- Of two blocks which are come to, one ends before the other begins. -/
theorem SearchReaches.apart {paramId : Nat} {ofst other : Int}
    (reaches : SearchReaches platform dfhBase paramId ofst)
    (listed : Listed platform dfhBase max other) :
    other = ofst ∨
      ofst + blockLength (paramHdr platform dfhBase ofst) ≤ other ∨
        other + blockLength (paramHdr platform dfhBase other) ≤ ofst ∧
          ¬ LastBlock (paramHdr platform dfhBase other) := by
  -- Both walks begin at zero, and the one which is behind goes on first.
  induction reaches generalizing other with
  | first =>
      induction listed with
      | first => exact .inl rfl
      | @next before listed _ _ ih =>
          have nonneg := listed.nonneg
          have longer := blockLength_pos (paramHdr platform dfhBase before)
          rcases ih with same | behind | ⟨ahead, -⟩
          · rw [same]
            exact .inr (.inl (Int.le_refl _))
          · exact .inr (.inl (by omega))
          · omega
  | @next ofst reaches _ notLast ih =>
      have nonneg := reaches.nonneg
      have longer := blockLength_pos (paramHdr platform dfhBase ofst)
      induction listed with
      | first hasParams looks =>
          rcases ih (.first hasParams looks) with same | behind | ahead
          · rw [← same] at notLast ⊢
            exact .inr (.inr ⟨Int.le_refl _, notLast⟩)
          · omega
          · exact .inr (.inr ⟨by omega, ahead.2⟩)
      | @next before listed more looks ihOther =>
          rcases ih (.next listed more looks) with same | behind | ahead
          · rw [same]
            exact .inr (.inr ⟨Int.le_refl _, notLast⟩)
          · rcases ihOther with same | behindOther | aheadOther
            · rw [same]
              exact .inr (.inl (Int.le_refl _))
            · have positive :=
                blockLength_pos (paramHdr platform dfhBase before)
              exact .inr (.inl (by omega))
            · exact .inl (by omega)
          · exact .inr (.inr ⟨by omega, ahead.2⟩)

/--
Without an overflow, the word is missing only if the first MSI-X block is the
last one of the list, and has no more than its header.
-/
theorem msiXHasWord_iff (fits : BlocksFit platform dfhBase max) :
    MsiXHasWord platform dfhBase max ↔
      ∀ msiX, FirstBlock platform dfhBase dfhv1ParamIdMsiX msiX →
        Listed platform dfhBase max msiX →
          LastBlock (paramHdr platform dfhBase msiX) →
            blockLength (paramHdr platform dfhBase msiX) ≠ 8 := by
  constructor
  · intro hasWord msiX isFirst listed isLast bare
    have reaches := listed.reaches (sumsFit_iff_blocksFit.mpr fits)
    refine hasWord msiX msiX isFirst reaches isLast ?_
    rw [behindBlock_eq listed.nonneg (fits msiX listed), bare]
    rfl
  · intro notBare msiX last isFirst reaches isLast atEnd
    have listed := reaches.listed fits
    rw [behindBlock_eq listed.nonneg (fits last listed)] at atEnd
    have longer := eight_le_blockLength (paramHdr platform dfhBase msiX)
    have longerLast := eight_le_blockLength (paramHdr platform dfhBase last)
    rcases isFirst.reaches.apart listed with rfl | behind | ahead
    · exact notBare _ isFirst listed isLast (by omega)
    · omega
    · exact ahead.2 isLast

/-- The feature, with a copy of a block which has these words. -/
def featureOfWords (params : List (BitVec 64)) : DflFeatureInfo :=
  { featureOfBlock with paramSize := 8 * params.length, params := params }

/-- A block of two words has the one which gives the interrupts. -/
theorem two_words_copied :
    MsiXWordCopied (featureOfWords [0x1100000001, 0]) ↔
      MsiXHasWord (featureWithBlock 0x38 0x1100000001) 0 0x38 :=
  msiX_word_copied_iff (featureWithBlock 0x38 0x1100000001) 0 0x38
    ⟨by decide, rfl⟩

/-- Of an MSI-X block without data, the word behind the copy is read. -/
theorem bare_msiX_read_behind :
    ParamsCopied (featureWithBlock 0x38 0x900000001) 0 0x38
        (featureOfWords [0x900000001]) ∧
      ¬ MsiXWordCopied (featureOfWords [0x900000001]) := by
  refine ⟨⟨by decide, rfl⟩, fun copied => ?_⟩
  exact absurd (copied 0 (by decide)) (by decide)

end LinuxDfl.Dfl

import LinuxDfl.Kernel.Errno
import LinuxDfl.Lib.Answers
import Mathlib.Algebra.Order.Floor.Div
import Mathlib.Data.List.SplitBy
import Mathlib.Logic.Function.Basic
import Mathlib.Tactic.Ring

/-!
# The dump of a register map

The `registers` file of a register map has a line of a fixed length for each
register which may be printed.  Blocks of such registers are kept with the
positions of their lines, so that a read does not have to look at all
registers before it.
-/

namespace LinuxDfl.Debugfs

open LinuxDfl.Kernel LinuxDfl.Lib.Answers

/-! ## Data -/

/-- `struct regmap_debugfs_off_cache` -/
structure RegmapDebugfsOffCache where
  min : Nat
  max : Nat
  baseReg : Nat
  maxReg : Nat
  deriving DecidableEq, Repr

/--
What the dump reads of a `struct regmap`, while its register cache stays as it
is.  The registers, and the one behind the last, are numbers of type `int`.
-/
structure Regmap where
  maxRegister : Nat
  regStride : Nat
  /-- `format.val_bytes` -/
  valBytes : Nat
  /-- `regmap_printable`, which looks at the cache for unreadable registers -/
  printable : Nat → Bool
  regStride_pos : 0 < regStride
  fits : maxRegister + regStride < 2 ^ 31

/-- The digits which `%.*x` writes. -/
def hexDigits (precision n : Nat) : List Char :=
  List.replicate (precision - (Nat.toDigits 16 n).length) '0' ++
    Nat.toDigits 16 n

/-- `regmap_calc_reg_len` -/
def regmapCalcRegLen (maxVal : Nat) : Nat := (Nat.toDigits 16 maxVal).length

namespace Regmap

variable (map : Regmap)

/-- `debugfs_reg_len` -/
def debugfsRegLen : Nat := regmapCalcRegLen map.maxRegister

/-- `debugfs_val_len` -/
def debugfsValLen : Nat := 2 * map.valBytes

/-- `debugfs_tot_len` -/
def debugfsTotLen : Nat := map.debugfsRegLen + map.debugfsValLen + 3

/--
The line of a register, given what `regmap_read` has answered.  What is too
long for its place is cut off by what is written behind it.
-/
def line (reg : Nat) (answer : Option Nat) : List Char :=
  (hexDigits map.debugfsRegLen reg ++ [':', ' ']).take
      (map.debugfsRegLen + 2) ++
    (match answer with
    | some val => (hexDigits map.debugfsValLen val).take map.debugfsValLen
    | none => List.replicate map.debugfsValLen 'X') ++ ['\n']

theorem debugfsTotLen_pos : 0 < map.debugfsTotLen := Nat.succ_pos _

end Regmap

/-! ## The cache of offsets -/

variable (map : Regmap)

/--
The loop of `regmap_debugfs_get_dump_start` which builds the cache; `c` is the
entry which is not closed, by its `min` and `base_reg`.  There may be no memory
for an entry which begins with a register.
-/
def scan (kzalloc : Nat → Bool) (i p : Nat) (c : Option (Nat × Nat))
    (cache : List RegmapDebugfsOffCache) :
    Option (List RegmapDebugfsOffCache) :=
  let close (c : Nat × Nat) : List RegmapDebugfsOffCache :=
    cache ++ [⟨c.1, p - 1, c.2, i - map.regStride⟩]
  if i ≤ map.maxRegister then
    if map.printable i then
      match c with
      | some c =>
          scan kzalloc (i + map.regStride) (p + map.debugfsTotLen) (some c)
            cache
      | none =>
          if kzalloc i then
            scan kzalloc (i + map.regStride) (p + map.debugfsTotLen)
              (some (p, i)) cache
          else none
    else
      match c with
      | some c => scan kzalloc (i + map.regStride) p none (close c)
      | none => scan kzalloc (i + map.regStride) p none cache
  else
    match c with
    | some c => some (close c)
    | none => some cache
termination_by map.maxRegister + 1 - i
decreasing_by
  all_goals
    have := map.regStride_pos
    omega

/-- `u32` arithmetic -/
def wrap (n : Nat) : Nat := n % 2 ^ 32

/--
The search of `regmap_debugfs_get_dump_start` for the block of a position:
the register, and the position of its line.
-/
def findBlock (start : Nat) :
    List RegmapDebugfsOffCache → Nat × Nat → Nat × Nat
  | [], found => found
  | c :: rest, _ =>
      if c.min ≤ start ∧ start ≤ c.max then
        let fposOffset := wrap (start - c.min)
        let regOffset := fposOffset / map.debugfsTotLen
        (wrap (c.baseReg + regOffset * map.regStride),
          c.min + wrap (regOffset * map.debugfsTotLen))
      else findBlock start rest (c.maxReg, c.max)

/--
`regmap_debugfs_get_dump_start`: the register, the position of its line and
the cache which is left.
-/
def regmapDebugfsGetDumpStart (kzalloc : Nat → Bool) (base start pos : Nat)
    (cache : List RegmapDebugfsOffCache) :
    (Nat × Nat) × List RegmapDebugfsOffCache :=
  if base ≠ 0 then ((base, pos), cache)
  else
    match if cache.isEmpty then scan map kzalloc base 0 none [] else
        some cache with
    | none => ((base, pos), [])
    | some cache => (findBlock map start cache (base, pos), cache)

/-- The loop of `regmap_next_readable_reg` -/
def nextBlock (reg : Nat) : List RegmapDebugfsOffCache → Option Nat
  | [] => none
  | c :: rest =>
      if reg > c.maxReg then nextBlock reg rest
      else if reg < c.baseReg then some c.baseReg
      else nextBlock reg rest

/-- `regmap_next_readable_reg` -/
def regmapNextReadableReg (cache : List RegmapDebugfsOffCache) (reg : Nat) :
    Option Nat :=
  if map.printable (reg + map.regStride) then some (reg + map.regStride)
  else nextBlock reg cache

theorem nextBlock_gt {reg next : Nat} {cache : List RegmapDebugfsOffCache}
    (found : nextBlock reg cache = some next) : reg < next := by
  induction cache with
  | nil => cases found
  | cons c rest ih =>
      unfold nextBlock at found
      split_ifs at found with beyond before
      · exact ih found
      · cases found
        exact before
      · exact ih found

theorem regmapNextReadableReg_gt {reg next : Nat}
    {cache : List RegmapDebugfsOffCache}
    (found : regmapNextReadableReg map cache reg = some next) :
    reg < next := by
  unfold regmapNextReadableReg at found
  have := map.regStride_pos
  split_ifs at found
  · cases found
    omega
  · exact nextBlock_gt found

/-! ## Reading -/

/-- What a read meets. -/
structure DumpEnv where
  kmalloc : Bool
  /-- there is memory for a line of the `range` file -/
  kmallocEntry : Bool
  /-- there is memory for a cache entry which begins with the register -/
  kzalloc : Nat → Bool
  regmapRead : Nat → Option Nat
  copyToUser : Bool

/-- The cache of the map, and the position of the file which is read. -/
structure DumpFile where
  offCache : List RegmapDebugfsOffCache
  ppos : Nat

/-- The loop of `regmap_read_debugfs` -/
def dumpLoop (cache : List RegmapDebugfsOffCache) (env : DumpEnv)
    (base last ppos count i p bufPos : Nat) : List Char :=
  if i ≤ last then
    if p ≥ ppos then
      if bufPos + map.debugfsTotLen > count then []
      else
        map.line (i - base) (env.regmapRead i) ++
          match _found : regmapNextReadableReg map cache i with
          | some next =>
              dumpLoop cache env base last ppos count next
                (p + map.debugfsTotLen) (bufPos + map.debugfsTotLen)
          | none => []
    else
      match _found : regmapNextReadableReg map cache i with
      | some next =>
          dumpLoop cache env base last ppos count next
            (p + map.debugfsTotLen) bufPos
      | none => []
  else []
termination_by last + 1 - i
decreasing_by
  all_goals
    have := regmapNextReadableReg_gt map _found
    omega

/-- `regmap_read_debugfs`; `limit` is the largest buffer. -/
def regmapReadDebugfs (limit : Nat) (env : DumpEnv) (base last count : Nat)
    (file : DumpFile) : Except Errno (List Char) × DumpFile :=
  if count = 0 then (.error .einval, file)
  else
    let count := Nat.min count limit
    if !env.kmalloc then (.error .enomem, file)
    else
      let found := regmapDebugfsGetDumpStart map env.kzalloc base file.ppos
        file.ppos file.offCache
      let file := { file with offCache := found.2 }
      let buf := dumpLoop map file.offCache env base last file.ppos count
        found.1.1 found.1.2 0
      if !env.copyToUser then (.error .efault, file)
      else (.ok buf, { file with ppos := file.ppos + buf.length })

/-- `regmap_map_read_file` -/
def regmapMapReadFile (limit : Nat) (env : DumpEnv) (count : Nat)
    (file : DumpFile) : Except Errno (List Char) × DumpFile :=
  regmapReadDebugfs map limit env 0 map.maxRegister count file

/-- `struct regmap_range_node` -/
structure RegmapRangeNode where
  rangeMin : Nat
  rangeMax : Nat

/-- `regmap_range_read_file` -/
def regmapRangeReadFile (range : RegmapRangeNode) (limit : Nat)
    (env : DumpEnv) (count : Nat) (file : DumpFile) :
    Except Errno (List Char) × DumpFile :=
  regmapReadDebugfs map limit env range.rangeMin range.rangeMax count file

/-- What `regmap_reg_ranges_read_file` writes for a block. -/
def rangeEntry (block : Nat × Nat) : List Char :=
  Nat.toDigits 16 block.1 ++ ['-'] ++ Nat.toDigits 16 block.2 ++ ['\n']

/-- The loop of `regmap_reg_ranges_read_file` -/
def rangesLoop (ppos count p bufPos : Nat) : List (Nat × Nat) → List Char
  | [] => []
  | block :: rest =>
      let entry := rangeEntry block
      if p ≥ ppos then
        if bufPos + entry.length > count then []
        else
          entry ++
            rangesLoop ppos count (p + entry.length) (bufPos + entry.length)
              rest
      else rangesLoop ppos count (p + entry.length) bufPos rest

/-- `regmap_reg_ranges_read_file` -/
def regmapRegRangesReadFile (limit : Nat) (env : DumpEnv) (count : Nat)
    (file : DumpFile) : Except Errno (List Char) × DumpFile :=
  if count = 0 then (.error .einval, file)
  else
    let count := Nat.min count limit
    if !env.kmalloc || !env.kmallocEntry then (.error .enomem, file)
    else
      let found := regmapDebugfsGetDumpStart map env.kzalloc 0 file.ppos 0
        file.offCache
      let file := { file with offCache := found.2 }
      let buf := rangesLoop file.ppos count 0 0
        (file.offCache.map fun c => (c.baseReg, c.maxReg))
      if !env.copyToUser then (.error .efault, file)
      else (.ok buf, { file with ppos := file.ppos + buf.length })

/-! ## The registers which may be printed -/

/-- The registers from `i` on which may be printed, one after the other. -/
def printed (i : Nat) : List Nat :=
  if i ≤ map.maxRegister then
    if map.printable i then i :: printed (i + map.regStride)
    else printed (i + map.regStride)
  else []
termination_by map.maxRegister + 1 - i
decreasing_by
  all_goals
    have := map.regStride_pos
    omega

variable {map}

theorem printed_eq_nil {i : Nat} (beyond : ¬ i ≤ map.maxRegister) :
    printed map i = [] := by
  rw [printed, if_neg beyond]

theorem printed_eq_cons {i : Nat} (le : i ≤ map.maxRegister)
    (may : map.printable i = true) :
    printed map i = i :: printed map (i + map.regStride) := by
  rw [printed, if_pos le, if_pos may]

theorem printed_skip {i : Nat} (not : map.printable i = false) :
    printed map i = printed map (i + map.regStride) := by
  by_cases le : i ≤ map.maxRegister
  · rw [printed, if_pos le, not, if_neg Bool.false_ne_true]
  · rw [printed_eq_nil le, printed_eq_nil fun later => le (by omega)]

theorem mem_printed {i reg : Nat} (member : reg ∈ printed map i) :
    i ≤ reg ∧ reg ≤ map.maxRegister ∧ map.printable reg = true := by
  fun_induction printed map i with
  | case1 i le may ih =>
      rcases List.mem_cons.mp member with rfl | member
      · exact ⟨le_rfl, le, may⟩
      · have later := ih member
        exact ⟨by omega, later.2⟩
  | case2 i le not ih =>
      have later := ih member
      exact ⟨by omega, later.2⟩
  | case3 => cases member

/-- What is printed from the first such register on. -/
theorem printed_of_head {i reg : Nat}
    (first : (printed map i).head? = some reg) :
    printed map reg = printed map i := by
  fun_induction printed map i with
  | case1 i le may =>
      cases first
      rw [printed_eq_cons le may]
  | case2 i le not ih => exact ih first
  | case3 => cases first

/-- The registers behind one which is printed. -/
theorem filter_printed {i reg : Nat} (member : reg ∈ printed map i) :
    (printed map i).filter (reg < ·) = printed map (reg + map.regStride) := by
  have stride := map.regStride_pos
  fun_induction printed map i with
  | case1 i le may ih =>
      rcases List.mem_cons.mp member with rfl | member
      · rw [List.filter_cons_of_neg (by simp)]
        refine List.filter_eq_self.mpr fun later isLater => ?_
        have := (mem_printed isLater).1
        simp only [decide_eq_true_eq]
        omega
      · have := (mem_printed member).1
        rw [List.filter_cons_of_neg (by simp; omega), ih member]
  | case2 i le not ih => exact ih member
  | case3 => cases member

/-! ## The blocks of the cache -/

/-- A register is the next of the map. -/
def follows (map : Regmap) (reg next : Nat) : Bool :=
  next == reg + map.regStride

/--
The entries of a cache stand for runs of registers, whose lines begin at a
position.
-/
inductive Covers (map : Regmap) :
    Nat → List RegmapDebugfsOffCache → List (List Nat) → Prop
  | nil (pos : Nat) : Covers map pos [] []
  | cons {c : RegmapDebugfsOffCache} {cache : List RegmapDebugfsOffCache}
      {runs : List (List Nat)} (more : Nat)
      (max : c.max + 1 = c.min + (more + 1) * map.debugfsTotLen)
      (maxReg : c.maxReg = c.baseReg + more * map.regStride)
      (rest : Covers map (c.min + (more + 1) * map.debugfsTotLen) cache runs) :
      Covers map c.min (c :: cache)
        (List.range' c.baseReg (more + 1) map.regStride :: runs)

theorem range'_snoc (base count : Nat) :
    List.range' base (count + 1) map.regStride =
      List.range' base count map.regStride ++
        [base + count * map.regStride] := by
  rw [List.range'_concat, Nat.mul_comm]

/-- A run which ends before a register which is not printed stands alone. -/
theorem splitBy_run (base more : Nat) {i : Nat}
    (here : i = base + (more + 1) * map.regStride)
    (out : i ∉ printed map i) :
    (List.range' base (more + 1) map.regStride ++ printed map i).splitBy
        (follows map) =
      List.range' base (more + 1) map.regStride ::
        (printed map i).splitBy (follows map) := by
  have one : (List.range' base (more + 1) map.regStride).splitBy
      (follows map) = [List.range' base (more + 1) map.regStride] := by
    refine List.splitBy_of_isChain (by simp) ?_
    refine (List.isChain_range' base (more + 1) map.regStride).imp ?_
    intro reg next isNext
    simpa [follows] using isNext
  rw [List.splitBy_append, one, List.singleton_append]
  intro last isLast next isNext
  rw [range'_snoc, List.getLast?_append, List.getLast?_singleton] at isLast
  have noRegister : next ≠ i := by
    rintro rfl
    exact out (List.mem_of_mem_head? isNext)
  cases isLast
  simp only [follows, beq_eq_false_iff_ne]
  intro same
  apply noRegister
  rw [same, here]
  ring

/--
The entries stand for the registers from `i` on, and for those of the entry
which is not closed.
-/
def CoversFrom (map : Regmap) (i p : Nat) (c : Option (Nat × Nat))
    (entries : List RegmapDebugfsOffCache) : Prop :=
  match c with
  | none => Covers map p entries ((printed map i).splitBy (follows map))
  | some (min, base) =>
      ∀ more, i = base + (more + 1) * map.regStride →
        p = min + (more + 1) * map.debugfsTotLen →
        Covers map min entries
          ((List.range' base (more + 1) map.regStride ++
            printed map i).splitBy (follows map))

/-- The entry which is not closed, as it is closed before the register. -/
theorem covers_close {i p : Nat} {c : Nat × Nat}
    {rest : List RegmapDebugfsOffCache} (out : i ∉ printed map i)
    (covers : Covers map p rest ((printed map i).splitBy (follows map))) :
    CoversFrom map i p (some c)
      (⟨c.1, p - 1, c.2, i - map.regStride⟩ :: rest) := by
  obtain ⟨min, base⟩ := c
  intro more here there
  rw [splitBy_run base more here out]
  have positive : 0 < (more + 1) * map.debugfsTotLen :=
    Nat.mul_pos more.succ_pos map.debugfsTotLen_pos
  refine Covers.cons (c := ⟨min, p - 1, base, i - map.regStride⟩) more ?_ ?_ ?_
  · dsimp only
    omega
  · dsimp only
    rw [here, Nat.succ_mul]
    omega
  · exact there ▸ covers

theorem scan_covers {kzalloc : Nat → Bool} {i p : Nat}
    {c : Option (Nat × Nat)} {cache built : List RegmapDebugfsOffCache}
    (isBuilt : scan map kzalloc i p c cache = some built) :
    ∃ rest, built = cache ++ rest ∧ CoversFrom map i p c rest := by
  fun_induction scan map kzalloc i p c cache with
  | case1 i p cache le may c ih =>
      obtain ⟨rest, rfl, covers⟩ := ih isBuilt
      refine ⟨rest, rfl, ?_⟩
      intro more here there
      have longer := covers (more + 1) (by rw [here]; ring)
        (by rw [there]; ring)
      rw [range'_snoc, ← here, List.append_assoc, List.singleton_append]
        at longer
      rw [printed_eq_cons le may]
      exact longer
  | case2 i p cache le may memory ih =>
      obtain ⟨rest, rfl, covers⟩ := ih isBuilt
      refine ⟨rest, rfl, ?_⟩
      have first := covers 0 (by ring) (by ring)
      show Covers map p rest _
      rw [printed_eq_cons le may]
      exact first
  | case3 => cases isBuilt
  | case4 i p cache close le not c ih =>
      obtain ⟨rest, rfl, covers⟩ := ih isBuilt
      have hidden : map.printable i = false := Bool.eq_false_iff.mpr not
      refine ⟨_ :: rest, List.append_assoc _ _ _, ?_⟩
      refine covers_close (fun member => not (mem_printed member).2.2) ?_
      rw [printed_skip hidden]
      exact covers
  | case5 i p cache le not ih =>
      obtain ⟨rest, rfl, covers⟩ := ih isBuilt
      have hidden : map.printable i = false := Bool.eq_false_iff.mpr not
      refine ⟨rest, rfl, ?_⟩
      show Covers map p rest _
      rw [printed_skip hidden]
      exact covers
  | case6 i p cache close beyond c =>
      cases isBuilt
      refine ⟨[_], rfl, covers_close ?_ ?_⟩
      · exact fun member => beyond (mem_printed member).2.1
      · rw [printed_eq_nil beyond]
        exact .nil p
  | case7 i p cache beyond =>
      cases isBuilt
      refine ⟨[], (List.append_nil _).symm, ?_⟩
      show Covers map p [] _
      rw [printed_eq_nil beyond]
      exact .nil p

/-- There is a cache if there is memory. -/
theorem scan_isSome {kzalloc : Nat → Bool} (memory : ∀ reg, kzalloc reg = true)
    (i p : Nat) (c : Option (Nat × Nat))
    (cache : List RegmapDebugfsOffCache) :
    (scan map kzalloc i p c cache).isSome := by
  fun_induction scan map kzalloc i p c cache with
  | case1 i p cache le may c ih => exact ih
  | case2 i p cache le may memory ih => exact ih
  | case3 i p cache le may none => exact absurd (memory i) none
  | case4 i p cache close le not c ih => exact ih
  | case5 i p cache le not ih => exact ih
  | case6 => rfl
  | case7 => rfl

/-! ## What is found in the cache -/

/-- All registers which may be printed, with the positions of their lines. -/
def Cached (map : Regmap) (cache : List RegmapDebugfsOffCache) : Prop :=
  Covers map 0 cache ((printed map 0).splitBy (follows map))

/-- The loop finds the first block behind a register. -/
theorem nextBlock_first {pos reg : Nat} {cache : List RegmapDebugfsOffCache}
    {runs : List (List Nat)} (covers : Covers map pos cache runs)
    (before : ∀ later ∈ runs.flatten, reg < later) :
    nextBlock reg cache = runs.flatten.head? := by
  cases covers with
  | nil => rfl
  | @cons c cache runs more max maxReg rest =>
      have first : reg < c.baseReg := by
        refine before _ (List.mem_flatten.mpr ⟨_, List.mem_cons_self, ?_⟩)
        rw [List.range'_succ]
        exact List.mem_cons_self
      rw [nextBlock, if_neg (by rw [maxReg]; omega), if_pos first,
        List.flatten_cons, List.range'_succ]
      rfl

/-- Behind the last register of a block the loop finds the next block. -/
theorem nextBlock_eq {pos reg : Nat} {cache : List RegmapDebugfsOffCache}
    {runs : List (List Nat)} (covers : Covers map pos cache runs)
    (sorted : runs.flatten.Pairwise (· < ·)) (member : reg ∈ runs.flatten)
    (last : reg + map.regStride ∉ runs.flatten) :
    nextBlock reg cache = (runs.flatten.filter (reg < ·)).head? := by
  induction covers with
  | nil => cases member
  | @cons c cache runs more max maxReg rest ih =>
      rw [List.flatten_cons] at sorted member last ⊢
      obtain ⟨-, sortedRest, apart⟩ := List.pairwise_append.mp sorted
      have maxMember : c.maxReg ∈
          List.range' c.baseReg (more + 1) map.regStride := by
        rw [range'_snoc, maxReg]
        exact List.mem_append_right _ (List.mem_singleton_self _)
      rcases List.mem_append.mp member with inBlock | behind
      · have isLast : reg = c.maxReg := by
          obtain ⟨index, less, isReg⟩ := List.mem_range'.mp inBlock
          rcases Nat.lt_or_ge index more with inner | outer
          · refine absurd (List.mem_append_left _ ?_) last
            refine List.mem_range'.mpr ⟨index + 1, by omega, ?_⟩
            rw [isReg]
            ring
          · have same : index = more := by omega
            rw [isReg, maxReg, same]
            ring
        subst isLast
        have behind : ∀ later ∈ runs.flatten, c.maxReg < later :=
          fun later isLater => apart _ maxMember _ isLater
        have hidden : (List.range' c.baseReg (more + 1) map.regStride).filter
            (c.maxReg < ·) = [] := by
          refine List.filter_eq_nil_iff.mpr fun earlier isEarlier => ?_
          obtain ⟨index, less, rfl⟩ := List.mem_range'.mp isEarlier
          have most : map.regStride * index ≤ map.regStride * more :=
            Nat.mul_le_mul_left _ (Nat.le_of_lt_succ less)
          have inBlock : ¬ c.maxReg < c.baseReg + map.regStride * index := by
            rw [maxReg, Nat.mul_comm more]
            omega
          simpa using inBlock
        rw [nextBlock, if_neg (lt_irrefl _), if_neg (by rw [maxReg]; omega),
          nextBlock_first rest behind, List.filter_append, hidden,
          List.nil_append, List.filter_eq_self.mpr (by simpa using behind)]
      · have beyond : c.maxReg < reg := apart _ maxMember _ behind
        have hidden : (List.range' c.baseReg (more + 1) map.regStride).filter
            (reg < ·) = [] := by
          refine List.filter_eq_nil_iff.mpr fun earlier isEarlier => ?_
          have := apart _ isEarlier _ behind
          simp only [decide_eq_true_eq]
          omega
        rw [nextBlock, if_pos beyond, List.filter_append, hidden,
          List.nil_append]
        exact ih sortedRest behind
          fun next => last (List.mem_append_right _ next)

theorem printed_pairwise (map : Regmap) (i : Nat) :
    (printed map i).Pairwise (· < ·) := by
  have stride := map.regStride_pos
  fun_induction printed map i with
  | case1 i le may ih =>
      refine List.pairwise_cons.mpr ⟨fun later isLater => ?_, ih⟩
      have := (mem_printed isLater).1
      omega
  | case2 i le not ih => exact ih
  | case3 => exact .nil

/-- Where the register behind is not printed, the next block is found. -/
theorem nextBlock_cached {cache : List RegmapDebugfsOffCache}
    (cached : Cached map cache) {reg : Nat} (member : reg ∈ printed map 0)
    (last : map.printable (reg + map.regStride) = false) :
    nextBlock reg cache = (printed map (reg + map.regStride)).head? := by
  have all : ((printed map 0).splitBy (follows map)).flatten =
      printed map 0 := List.flatten_splitBy _ _
  rw [← filter_printed member, ← all]
  refine nextBlock_eq cached ?_ ?_ ?_
  · rw [all]
    exact printed_pairwise map 0
  · rwa [all]
  · rw [all]
    intro printable
    have may := (mem_printed printable).2.2
    rw [last] at may
    cases may

/-- The register which is dumped after another is the next to be printed. -/
theorem regmapNextReadableReg_some {cache : List RegmapDebugfsOffCache}
    (cached : Cached map cache) {reg next : Nat}
    (member : reg ∈ printed map 0)
    (found : regmapNextReadableReg map cache reg = some next) :
    (next ∈ printed map 0 ∧
        printed map next = printed map (reg + map.regStride)) ∨
      printed map (reg + map.regStride) = [] ∧ map.maxRegister < next := by
  have isFirst (first : (printed map (reg + map.regStride)).head? =
      some next) :
      next ∈ printed map 0 ∧
        printed map next = printed map (reg + map.regStride) := by
    refine ⟨?_, printed_of_head first⟩
    have behind := List.mem_of_mem_head? first
    rw [← filter_printed member] at behind
    exact List.mem_of_mem_filter behind
  unfold regmapNextReadableReg at found
  split_ifs at found with may
  · cases found
    by_cases le : reg + map.regStride ≤ map.maxRegister
    · left
      apply isFirst
      rw [printed_eq_cons le may]
      rfl
    · exact Or.inr ⟨printed_eq_nil le, Nat.lt_of_not_le le⟩
  · left
    apply isFirst
    rw [← found]
    exact (nextBlock_cached cached member (Bool.eq_false_iff.mpr may)).symm

theorem regmapNextReadableReg_none {cache : List RegmapDebugfsOffCache}
    (cached : Cached map cache) {reg : Nat} (member : reg ∈ printed map 0)
    (found : regmapNextReadableReg map cache reg = none) :
    printed map (reg + map.regStride) = [] := by
  unfold regmapNextReadableReg at found
  split_ifs at found with may
  rw [nextBlock_cached cached member (Bool.eq_false_iff.mpr may)] at found
  exact List.head?_eq_none_iff.mp found

/-- The lines of registers. -/
def lines (map : Regmap) (env : DumpEnv) (regs : List Nat) : List Char :=
  regs.flatMap fun reg => map.line reg (env.regmapRead reg)

/-- Of the lines which begin at `p`, the whole ones of `count` bytes. -/
def window (map : Regmap) (ppos count p bufPos : Nat) (regs : List Nat) :
    List Nat :=
  (regs.drop ((ppos - p) ⌈/⌉ map.debugfsTotLen)).take
    ((count - bufPos) / map.debugfsTotLen)

theorem window_nil (ppos count p bufPos : Nat) :
    window map ppos count p bufPos [] = [] := by
  rw [window, List.drop_nil, List.take_nil]

/-- The line is before what is read. -/
theorem window_skip {ppos count p bufPos reg : Nat} {regs : List Nat}
    (before : p < ppos) :
    window map ppos count p bufPos (reg :: regs) =
      window map ppos count (p + map.debugfsTotLen) bufPos regs := by
  have positive := map.debugfsTotLen_pos
  have one : (ppos - p) ⌈/⌉ map.debugfsTotLen =
      (ppos - (p + map.debugfsTotLen)) ⌈/⌉ map.debugfsTotLen + 1 := by
    have least : ppos - p + map.debugfsTotLen - 1 =
        ppos - p - 1 + map.debugfsTotLen := by
      omega
    rw [Nat.ceilDiv_eq_add_pred_div, Nat.ceilDiv_eq_add_pred_div, least,
      Nat.add_div_right _ positive]
    rcases Nat.lt_or_ge (ppos - p) map.debugfsTotLen with within | beyond
    · rw [Nat.div_eq_of_lt (by omega), Nat.div_eq_of_lt (by omega)]
    · congr 2
      omega
  rw [window, one, List.drop_succ_cons, window]

/-- The line is read. -/
theorem window_take {ppos count p bufPos reg : Nat} {regs : List Nat}
    (at_or_behind : ppos ≤ p) (fits : bufPos + map.debugfsTotLen ≤ count) :
    window map ppos count p bufPos (reg :: regs) =
      reg :: window map ppos count (p + map.debugfsTotLen)
        (bufPos + map.debugfsTotLen) regs := by
  have positive := map.debugfsTotLen_pos
  have here : ppos - p = 0 := Nat.sub_eq_zero_of_le at_or_behind
  have there : ppos - (p + map.debugfsTotLen) = 0 := by omega
  have one : (count - bufPos) / map.debugfsTotLen =
      (count - (bufPos + map.debugfsTotLen)) / map.debugfsTotLen + 1 := by
    rw [← Nat.add_div_right _ positive]
    congr 1
    omega
  rw [window, window, here, there, one, zero_ceilDiv, List.drop_zero,
    List.drop_zero, List.take_succ_cons]

/-- There is no place for the line. -/
theorem window_full {ppos count p bufPos : Nat} {regs : List Nat}
    (full : count < bufPos + map.debugfsTotLen) :
    window map ppos count p bufPos regs = [] := by
  have positive := map.debugfsTotLen_pos
  have none : (count - bufPos) / map.debugfsTotLen = 0 :=
    Nat.div_eq_of_lt (by omega)
  rw [window, none, List.take_zero]

theorem dumpLoop_beyond {cache : List RegmapDebugfsOffCache} (env : DumpEnv)
    {last ppos count i p bufPos : Nat} (beyond : last < i) :
    dumpLoop map cache env 0 last ppos count i p bufPos = [] := by
  rw [dumpLoop, if_neg (Nat.not_le_of_lt beyond)]

/-- The loop goes on with the lines behind a register. -/
theorem dumpLoop_next {cache : List RegmapDebugfsOffCache}
    (cached : Cached map cache) (env : DumpEnv)
    {ppos count i next p bufPos : Nat} (member : i ∈ printed map 0)
    (found : regmapNextReadableReg map cache i = some next)
    (ih : next ∈ printed map 0 →
      dumpLoop map cache env 0 map.maxRegister ppos count next p bufPos =
        lines map env (window map ppos count p bufPos (printed map next))) :
    dumpLoop map cache env 0 map.maxRegister ppos count next p bufPos =
      lines map env (window map ppos count p bufPos
        (printed map (i + map.regStride))) := by
  rcases regmapNextReadableReg_some cached member found with
    ⟨nextMember, same⟩ | ⟨nothing, beyond⟩
  · rw [ih nextMember, same]
  · rw [dumpLoop_beyond env beyond, nothing, window_nil]
    rfl

/-- The loop writes the lines which begin at the position or behind. -/
theorem dumpLoop_eq {cache : List RegmapDebugfsOffCache}
    (cached : Cached map cache) (env : DumpEnv) {ppos count i p bufPos : Nat}
    (member : i ∈ printed map 0) :
    dumpLoop map cache env 0 map.maxRegister ppos count i p bufPos =
      lines map env (window map ppos count p bufPos (printed map i)) := by
  have first (i : Nat) (member : i ∈ printed map 0) :
      printed map i = i :: printed map (i + map.regStride) :=
    printed_eq_cons (mem_printed member).2.1 (mem_printed member).2.2
  fun_induction dumpLoop map cache env 0 map.maxRegister ppos count i p
    bufPos with
  | case1 i p bufPos le behind full =>
      rw [window_full full]
      rfl
  | case2 i p bufPos le behind fits ih =>
      rw [first i member, window_take behind (Nat.le_of_not_lt fits), lines,
        List.flatMap_cons, Nat.sub_zero]
      congr 1
      split
      case _ next found =>
        exact dumpLoop_next cached env member found (ih next found)
      case _ found =>
        rw [regmapNextReadableReg_none cached member found, window_nil]
        rfl
  | case3 i p bufPos le before next found ih =>
      rw [first i member, window_skip (Nat.lt_of_not_le before)]
      exact dumpLoop_next cached env member found ih
  | case4 i p bufPos le before found =>
      rw [first i member, window_skip (Nat.lt_of_not_le before),
        regmapNextReadableReg_none cached member found, window_nil]
      rfl
  | case5 i p bufPos beyond =>
      exact absurd (mem_printed member).2.1 beyond

/-! ## Where a dump begins -/

/-- Where `u32` arithmetic wraps, a line before the position is found. -/
theorem block_index (min start base more : Nat) (le : min ≤ start)
    (inBlock : start < min + (more + 1) * map.debugfsTotLen)
    (below : ∀ reg ∈ List.range' base (more + 1) map.regStride,
      reg ≤ map.maxRegister) :
    wrap (start - min) / map.debugfsTotLen < more + 1 ∧
      (List.range' base (more + 1) map.regStride)[
          wrap (start - min) / map.debugfsTotLen]? =
        some (wrap (base + wrap (start - min) / map.debugfsTotLen *
          map.regStride)) ∧
      min + wrap (start - min) / map.debugfsTotLen * map.debugfsTotLen ≤
        start := by
  have offset : wrap (start - min) ≤ start - min := Nat.mod_le _ _
  have down := Nat.div_mul_le_self (wrap (start - min)) map.debugfsTotLen
  have within : wrap (start - min) / map.debugfsTotLen < more + 1 := by
    rw [Nat.div_lt_iff_lt_mul map.debugfsTotLen_pos]
    omega
  have isReg : (List.range' base (more + 1) map.regStride)[
      wrap (start - min) / map.debugfsTotLen]? =
        some (base + wrap (start - min) / map.debugfsTotLen *
          map.regStride) := by
    rw [List.getElem?_range' within, Nat.mul_comm]
  have fits : base + wrap (start - min) / map.debugfsTotLen *
      map.regStride < 2 ^ 32 := by
    have most := below _ (List.mem_of_getElem? isReg)
    have := map.fits
    omega
  have same : wrap (base + wrap (start - min) / map.debugfsTotLen *
      map.regStride) = _ := Nat.mod_eq_of_lt fits
  exact ⟨within, isReg.trans (congrArg some same.symm), by omega⟩

theorem wrap_offset (offset : Nat) :
    wrap (wrap offset / map.debugfsTotLen * map.debugfsTotLen) =
      wrap offset / map.debugfsTotLen * map.debugfsTotLen := by
  refine Nat.mod_eq_of_lt ((Nat.div_mul_le_self _ _).trans_lt ?_)
  exact Nat.mod_lt _ (by decide)

/--
A line is found at or before the position; behind all lines the last register
is found, with the position before the end.
-/
theorem findBlock_eq {pos start : Nat} {cache : List RegmapDebugfsOffCache}
    {runs : List (List Nat)} (covers : Covers map pos cache runs)
    (le : pos ≤ start) (below : ∀ reg ∈ runs.flatten, reg ≤ map.maxRegister)
    (found : Nat × Nat) :
    (∃ index reg, runs.flatten[index]? = some reg ∧
        findBlock map start cache found =
          (reg, pos + index * map.debugfsTotLen) ∧
        pos + index * map.debugfsTotLen ≤ start) ∨
      pos + runs.flatten.length * map.debugfsTotLen ≤ start ∧
        findBlock map start cache found =
          runs.flatten.getLast?.elim found fun reg =>
            (reg, pos + runs.flatten.length * map.debugfsTotLen - 1) := by
  induction covers generalizing found with
  | nil pos => exact Or.inr ⟨by simpa using le, rfl⟩
  | @cons c cache runs more max maxReg rest ih =>
      have positive := map.debugfsTotLen_pos
      rw [List.flatten_cons] at below ⊢
      rw [findBlock]
      split_ifs with inBlock
      · left
        obtain ⟨within, isReg, before⟩ := block_index c.min start
          c.baseReg more le (by omega)
          fun reg member => below reg (List.mem_append_left _ member)
        refine ⟨wrap (start - c.min) / map.debugfsTotLen,
          wrap (c.baseReg + wrap (start - c.min) / map.debugfsTotLen *
            map.regStride), ?_, ?_, before⟩
        · rw [List.getElem?_append_left (by rwa [List.length_range'])]
          exact isReg
        · dsimp only
          rw [wrap_offset]
      · have beyond : c.min + (more + 1) * map.debugfsTotLen ≤ start := by
          omega
        rcases ih beyond (fun reg member =>
            below reg (List.mem_append_right _ member)) (c.maxReg, c.max) with
          ⟨index, reg, isReg, same, before⟩ | ⟨behind, same⟩
        · left
          refine ⟨more + 1 + index, reg, ?_, ?_, ?_⟩
          · rw [List.getElem?_append_right (by simp)]
            simpa using isReg
          · rw [same]
            congr 1
            ring
          · rw [Nat.add_mul]
            omega
        · right
          rw [List.length_append, List.length_range', Nat.add_mul]
          refine ⟨by omega, ?_⟩
          rw [same, List.getLast?_append, range'_snoc, List.getLast?_append,
            List.getLast?_singleton]
          cases isLast : runs.flatten.getLast? with
          | none =>
              have nothing : runs.flatten = [] :=
                List.getLast?_eq_none_iff.mp isLast
              simp only [Option.elim, Option.or, nothing, List.length_nil,
                Nat.zero_mul, Nat.add_zero, maxReg, ← max,
                Nat.add_sub_cancel]
          | some reg =>
              simp only [Option.elim, Option.or]
              congr 1
              omega

/-- What is printed from a register on is the rest of what is printed. -/
theorem printed_drop {i index reg : Nat}
    (isReg : (printed map i)[index]? = some reg) :
    printed map reg = (printed map i).drop index := by
  fun_induction printed map i generalizing index with
  | case1 i le may ih =>
      cases index with
      | zero =>
          cases isReg
          rw [printed_eq_cons le may, List.drop_zero]
      | succ index =>
          rw [List.drop_succ_cons]
          exact ih isReg
  | case2 i le not ih => exact ih isReg
  | case3 => cases isReg

/-- It does not matter where before the position one begins. -/
theorem window_drop (ppos count bufPos index : Nat) (regs : List Nat)
    (le : index * map.debugfsTotLen ≤ ppos) :
    window map ppos count (index * map.debugfsTotLen) bufPos
        (regs.drop index) =
      window map ppos count 0 bufPos regs := by
  have positive := map.debugfsTotLen_pos
  have first : (ppos - 0) ⌈/⌉ map.debugfsTotLen =
      index + (ppos - index * map.debugfsTotLen) ⌈/⌉ map.debugfsTotLen := by
    rw [Nat.ceilDiv_eq_add_pred_div, Nat.ceilDiv_eq_add_pred_div,
      ← Nat.mul_add_div positive, Nat.mul_comm]
    congr 1
    omega
  rw [window, window, List.drop_drop, first]

/-- Behind all lines nothing is read. -/
theorem window_behind {ppos count bufPos : Nat} {regs : List Nat}
    (behind : regs.length * map.debugfsTotLen ≤ ppos) :
    window map ppos count 0 bufPos regs = [] := by
  have all : regs.length ≤ (ppos - 0) ⌈/⌉ map.debugfsTotLen := by
    rw [Nat.ceilDiv_eq_add_pred_div,
      Nat.le_div_iff_mul_le map.debugfsTotLen_pos]
    have positive := map.debugfsTotLen_pos
    omega
  rw [window, List.drop_eq_nil_of_le all, List.take_nil]

/-- From the register which is found the loop writes what the position asks. -/
theorem dump_eq {cache : List RegmapDebugfsOffCache}
    (cached : Cached map cache) (nonempty : printed map 0 ≠ [])
    (env : DumpEnv) (ppos count : Nat) :
    dumpLoop map cache env 0 map.maxRegister ppos count
        (findBlock map ppos cache (0, ppos)).1
        (findBlock map ppos cache (0, ppos)).2 0 =
      lines map env (window map ppos count 0 0 (printed map 0)) := by
  have all : ((printed map 0).splitBy (follows map)).flatten =
      printed map 0 := List.flatten_splitBy _ _
  have start := findBlock_eq cached (Nat.zero_le ppos)
    (fun reg member => (mem_printed (all ▸ member)).2.1) (0, ppos)
  simp only [all, Nat.zero_add] at start
  rcases start with ⟨index, reg, isReg, found, before⟩ | ⟨behind, found⟩
  · rw [found, dumpLoop_eq cached env (List.mem_of_getElem? isReg),
      printed_drop isReg, window_drop ppos count 0 index _ before]
  · have isLast := List.getLast?_eq_some_getLast nonempty
    have positive := map.debugfsTotLen_pos
    have longer : map.debugfsTotLen ≤
        (printed map 0).length * map.debugfsTotLen :=
      Nat.le_mul_of_pos_left _ (List.length_pos_iff.mpr nonempty)
    have alone : printed map ((printed map 0).getLast nonempty) =
        [(printed map 0).getLast nonempty] := by
      rw [List.getLast?_eq_getElem?] at isLast
      rw [printed_drop isLast, List.drop_length_sub_one nonempty]
    rw [found, isLast, window_behind behind, Option.elim,
      dumpLoop_eq cached env (List.getLast_mem nonempty), alone,
      window_skip (by omega), window_nil]

/-! ## Any sequence of reads -/

/-- The cache of a map, and the positions of the files which are open. -/
structure DumpFiles where
  offCache : List RegmapDebugfsOffCache
  ppos : Nat → Nat

namespace DumpFiles

def file (files : DumpFiles) (i : Nat) : DumpFile :=
  ⟨files.offCache, files.ppos i⟩

def after (files : DumpFiles) (i : Nat) (left : DumpFile) : DumpFiles :=
  ⟨left.offCache, Function.update files.ppos i left.ppos⟩

end DumpFiles

/-- What may be done with the files. -/
inductive DumpOp
  /-- read a `registers` file -/
  | registers (i : Nat) (env : DumpEnv) (count : Nat)
  /-- read a `range` file -/
  | ranges (i : Nat) (env : DumpEnv) (count : Nat)
  /-- read the file of one range, wherever -/
  | range (node : RegmapRangeNode) (env : DumpEnv) (count ppos : Nat)
  | llseek (i pos : Nat)

/-- There is memory for the cache. -/
def DumpOp.Allocates : DumpOp → Prop
  | .registers _ env _ | .ranges _ env _ | .range _ env _ _ =>
      ∀ reg, env.kzalloc reg = true
  | .llseek _ _ => True

/-- What a read of the `registers` or of a `range` file returns. -/
abbrev DumpAnswer : Type := Option (Except Errno (List Char))

/-- The files as they are read. -/
def perform (map : Regmap) (limit : Nat) (files : DumpFiles) :
    DumpOp → DumpAnswer × DumpFiles
  | .registers i env count =>
      let done := regmapMapReadFile map limit env count (files.file i)
      (some done.1, files.after i done.2)
  | .ranges i env count =>
      let done := regmapRegRangesReadFile map limit env count (files.file i)
      (some done.1, files.after i done.2)
  | .range node env count ppos =>
      let done := regmapRangeReadFile map node limit env count
        ⟨files.offCache, ppos⟩
      (none, { files with offCache := done.2.offCache })
  | .llseek i pos =>
      (none, { files with ppos := Function.update files.ppos i pos })

/-- A read which finds its text without a cache. -/
def plainRead (kmalloc : Bool) (env : DumpEnv) (count ppos : Nat)
    (text : List Char) : Except Errno (List Char) × Nat :=
  if count = 0 then (.error .einval, ppos)
  else if !kmalloc then (.error .enomem, ppos)
  else if !env.copyToUser then (.error .efault, ppos)
  else (.ok text, ppos + text.length)

/-- The whole lines from a position on for which there is place. -/
def plainLines (map : Regmap) (env : DumpEnv) (ppos count : Nat) :
    List Char :=
  lines map env (((printed map 0).drop (ppos ⌈/⌉ map.debugfsTotLen)).take
    (count / map.debugfsTotLen))

/-- First and last registers of the longest runs. -/
def longestRuns (map : Regmap) : List (Nat × Nat) :=
  ((printed map 0).splitBy (follows map)).map fun run =>
    (run.headD 0, run.getLastD 0)

/-- The files as they are to be read: all registers are looked at each time. -/
def plainPerform (map : Regmap) (limit : Nat) (ppos : Nat → Nat) :
    DumpOp → DumpAnswer × (Nat → Nat)
  | .registers i env count =>
      let done := plainRead env.kmalloc env count (ppos i)
        (plainLines map env (ppos i) (Nat.min count limit))
      (some done.1, Function.update ppos i done.2)
  | .ranges i env count =>
      let done := plainRead (env.kmalloc && env.kmallocEntry) env count
        (ppos i)
        (rangesLoop (ppos i) (Nat.min count limit) 0 0 (longestRuns map))
      (some done.1, Function.update ppos i done.2)
  | .range _ _ _ _ => (none, ppos)
  | .llseek i pos => (none, Function.update ppos i pos)

/-- The cache is built, or is to be built. -/
def Related (map : Regmap) (files : DumpFiles) (ppos : Nat → Nat) : Prop :=
  (files.offCache = [] ∨ Cached map files.offCache) ∧ files.ppos = ppos

/-- The cache is there when the position has been looked for. -/
theorem regmapDebugfsGetDumpStart_cached {kzalloc : Nat → Bool}
    (memory : ∀ reg, kzalloc reg = true) (start pos : Nat)
    {cache : List RegmapDebugfsOffCache}
    (valid : cache = [] ∨ Cached map cache) :
    ∃ built, Cached map built ∧
      regmapDebugfsGetDumpStart map kzalloc 0 start pos cache =
        (findBlock map start built (0, pos), built) := by
  unfold regmapDebugfsGetDumpStart
  rw [if_neg (by simp)]
  cases cache with
  | nil =>
      have isSome : (scan map kzalloc 0 0 none []).isSome :=
        scan_isSome memory 0 0 none []
      obtain ⟨built, isBuilt⟩ := Option.isSome_iff_exists.mp isSome
      obtain ⟨rest, rfl, covers⟩ := scan_covers isBuilt
      refine ⟨_, covers, ?_⟩
      rw [List.isEmpty_nil, if_pos rfl, isBuilt]
  | cons c cache =>
      rcases valid with nothing | cached
      · cases nothing
      · exact ⟨_, cached, rfl⟩

theorem cached_longestRuns {pos : Nat} {cache : List RegmapDebugfsOffCache}
    {runs : List (List Nat)} (covers : Covers map pos cache runs) :
    cache.map (fun c => (c.baseReg, c.maxReg)) =
      runs.map fun run => (run.headD 0, run.getLastD 0) := by
  induction covers with
  | nil => rfl
  | @cons c cache runs more max maxReg rest ih =>
      rw [List.map_cons, List.map_cons, ih]
      congr 2
      rw [range'_snoc, List.getLastD_eq_getLast?, List.getLast?_append,
        List.getLast?_singleton, maxReg]
      rfl

/-- What a read of the registers does where some of them are printed. -/
theorem regmapMapReadFile_eq (limit count : Nat) {env : DumpEnv}
    (file : DumpFile) (nonempty : printed map 0 ≠ [])
    (memory : ∀ reg, env.kzalloc reg = true)
    (valid : file.offCache = [] ∨ Cached map file.offCache) :
    ∃ built, (built = [] ∨ Cached map built) ∧
      regmapMapReadFile map limit env count file =
        let done := plainRead env.kmalloc env count file.ppos
          (plainLines map env file.ppos (Nat.min count limit))
        (done.1, ⟨built, done.2⟩) := by
  obtain ⟨built, cached, found⟩ :=
    regmapDebugfsGetDumpStart_cached memory file.ppos file.ppos valid
  have text := dump_eq cached nonempty env file.ppos (Nat.min count limit)
  unfold regmapMapReadFile regmapReadDebugfs plainRead
  split_ifs with empty noMemory fault
  · exact ⟨_, valid, rfl⟩
  · exact ⟨_, valid, rfl⟩
  · refine ⟨built, Or.inr cached, ?_⟩
    simp only [found]
  · refine ⟨built, Or.inr cached, ?_⟩
    simp only [found, text]
    rfl

theorem regmapRegRangesReadFile_eq (limit count : Nat) {env : DumpEnv}
    (file : DumpFile) (memory : ∀ reg, env.kzalloc reg = true)
    (valid : file.offCache = [] ∨ Cached map file.offCache) :
    ∃ built, (built = [] ∨ Cached map built) ∧
      regmapRegRangesReadFile map limit env count file =
        let done := plainRead (env.kmalloc && env.kmallocEntry) env count
          file.ppos
          (rangesLoop file.ppos (Nat.min count limit) 0 0 (longestRuns map))
        (done.1, ⟨built, done.2⟩) := by
  obtain ⟨built, cached, found⟩ :=
    regmapDebugfsGetDumpStart_cached memory file.ppos 0 valid
  unfold regmapRegRangesReadFile plainRead
  rw [Bool.not_and]
  split_ifs with empty noMemory fault
  · exact ⟨_, valid, rfl⟩
  · exact ⟨_, valid, rfl⟩
  · refine ⟨built, Or.inr cached, ?_⟩
    simp only [found]
  · refine ⟨built, Or.inr cached, ?_⟩
    simp only [found, cached_longestRuns cached, longestRuns]

/-- What is read of one range leaves the cache as it is to be. -/
theorem regmapRangeReadFile_valid {limit count : Nat} {env : DumpEnv}
    {node : RegmapRangeNode} {file : DumpFile}
    (memory : ∀ reg, env.kzalloc reg = true)
    (valid : file.offCache = [] ∨ Cached map file.offCache) :
    (regmapRangeReadFile map node limit env count file).2.offCache = [] ∨
      Cached map
        (regmapRangeReadFile map node limit env count file).2.offCache := by
  have kept : (regmapDebugfsGetDumpStart map env.kzalloc node.rangeMin
        file.ppos file.ppos file.offCache).2 = [] ∨
      Cached map (regmapDebugfsGetDumpStart map env.kzalloc node.rangeMin
        file.ppos file.ppos file.offCache).2 := by
    by_cases base : node.rangeMin = 0
    · obtain ⟨built, cached, found⟩ :=
        regmapDebugfsGetDumpStart_cached memory file.ppos file.ppos valid
      rw [base, found]
      exact Or.inr cached
    · rw [regmapDebugfsGetDumpStart, if_pos base]
      exact valid
  unfold regmapRangeReadFile regmapReadDebugfs
  split_ifs with empty noMemory fault
  · exact valid
  · exact valid
  · exact kept
  · exact kept

/-- An operation is answered as without a cache. -/
theorem perform_agree (limit : Nat) (nonempty : printed map 0 ≠ [])
    {op : DumpOp} (memory : op.Allocates) :
    Agree (perform map limit) (plainPerform map limit) (Related map) op := by
  rintro files ppos ⟨valid, rfl⟩
  cases op with
  | registers i env count =>
      obtain ⟨built, kept, same⟩ :=
        regmapMapReadFile_eq limit count (files.file i) nonempty memory valid
      rw [perform, plainPerform, same]
      exact ⟨rfl, kept, rfl⟩
  | ranges i env count =>
      obtain ⟨built, kept, same⟩ :=
        regmapRegRangesReadFile_eq limit count (files.file i) memory valid
      rw [perform, plainPerform, same]
      exact ⟨rfl, kept, rfl⟩
  | range node env count pos =>
      exact ⟨rfl, regmapRangeReadFile_valid memory valid, rfl⟩
  | llseek i pos => exact ⟨rfl, valid, rfl⟩

theorem line_ne_nil (reg : Nat) (answer : Option Nat) :
    map.line reg answer ≠ [] := by
  unfold Regmap.line
  exact List.append_ne_nil_of_right_ne_nil _ (List.cons_ne_nil _ _)

theorem covers_nil {pos : Nat} {cache : List RegmapDebugfsOffCache}
    (covers : Covers map pos cache []) : cache = [] := by
  cases covers
  rfl

/-- A read which does not skip a line begins with the first register. -/
theorem regmapReadDebugfs_begins {base last p limit count : Nat}
    {env : DumpEnv} {file : DumpFile} {built : List RegmapDebugfsOffCache}
    (found : regmapDebugfsGetDumpStart map env.kzalloc base file.ppos
      file.ppos file.offCache = ((base, p), built))
    (le : base ≤ last) (behind : file.ppos ≤ p) (buffer : env.kmalloc = true)
    (copied : env.copyToUser = true) (room : map.debugfsTotLen ≤ limit)
    (fits : map.debugfsTotLen ≤ count) :
    ∃ more, (regmapReadDebugfs map limit env base last count file).1 =
      .ok (map.line 0 (env.regmapRead base) ++ more) := by
  have some : count ≠ 0 := by
    have := map.debugfsTotLen_pos
    omega
  have place : ¬ 0 + map.debugfsTotLen > Nat.min count limit := by
    rw [Nat.zero_add]
    exact Nat.not_lt_of_le (Nat.le_min.mpr ⟨fits, room⟩)
  unfold regmapReadDebugfs
  rw [if_neg some]
  simp only [found, buffer, copied, Bool.not_true, Bool.false_eq_true,
    if_false]
  rw [dumpLoop, if_pos le, if_pos behind, if_neg place, Nat.sub_self]
  exact ⟨_, rfl⟩

/-- Where no register may be printed, the line of the first one is read. -/
theorem regmapMapReadFile_unprinted {limit count : Nat} (env : DumpEnv)
    (none : printed map 0 = []) (memory : ∀ reg, env.kzalloc reg = true)
    (buffer : env.kmalloc = true) (copied : env.copyToUser = true)
    (room : map.debugfsTotLen ≤ limit) (fits : map.debugfsTotLen ≤ count) :
    ∃ more, (regmapMapReadFile map limit env count ⟨[], 0⟩).1 =
      .ok (map.line 0 (env.regmapRead 0) ++ more) := by
  obtain ⟨built, cached, found⟩ :=
    regmapDebugfsGetDumpStart_cached memory 0 0
      (Or.inl rfl : _ ∨ Cached map _)
  rw [Cached, none] at cached
  cases covers_nil cached
  exact regmapReadDebugfs_begins found (Nat.zero_le _) le_rfl buffer copied
    room fits

/-- Where no register may be printed, a line is read all the same. -/
theorem reads_disagree {limit : Nat} (room : map.debugfsTotLen ≤ limit)
    (none : printed map 0 = []) :
    ∃ ops : List DumpOp, (∀ op ∈ ops, op.Allocates) ∧
      answers (perform map limit) ⟨[], fun _ => 0⟩ ops ≠
        answers (plainPerform map limit) (fun _ => 0) ops := by
  let env : DumpEnv :=
    ⟨true, true, fun _ => true, fun _ => Option.none, true⟩
  refine ⟨[.registers 0 env map.debugfsTotLen], ?_, ?_⟩
  · intro op member
    cases List.mem_singleton.mp member
    exact fun reg => rfl
  · intro same
    have first := (List.cons.inj same).1
    obtain ⟨more, read⟩ :=
      regmapMapReadFile_unprinted env none (fun _ => rfl) rfl rfl room le_rfl
    have text : (regmapMapReadFile map limit env map.debugfsTotLen
        ⟨[], 0⟩).1 = (plainRead true env map.debugfsTotLen 0
          (plainLines map env 0 (Nat.min map.debugfsTotLen limit))).1 :=
      Option.some.inj first
    have some : map.debugfsTotLen ≠ 0 :=
      Nat.pos_iff_ne_zero.mp map.debugfsTotLen_pos
    rw [read, plainRead, if_neg some, plainLines, none, List.drop_nil,
      List.take_nil] at text
    have nothing := Except.ok.inj text
    exact line_ne_nil _ _ (List.append_eq_nil_iff.mp nothing).1

/--
Whatever is read of the files of a map, and in which order: the answers are
those of a dump without a cache, if some register may be printed, and only
then.
-/
theorem reads_agree_iff {limit : Nat} (room : map.debugfsTotLen ≤ limit) :
    (∀ ops : List DumpOp, (∀ op ∈ ops, op.Allocates) →
      answers (perform map limit) ⟨[], fun _ => 0⟩ ops =
        answers (plainPerform map limit) (fun _ => 0) ops) ↔
      printed map 0 ≠ [] := by
  constructor
  · intro agree none
    obtain ⟨ops, memory, differ⟩ := reads_disagree room none
    exact differ (agree ops memory)
  · intro nonempty ops memory
    exact answers_eq
      (fun op member => perform_agree limit nonempty (memory op member))
      ⟨Or.inl rfl, rfl⟩

/-- A map with registers 0, 2, 4 and 6, of which 4 is not printed. -/
def gapMap : Regmap where
  maxRegister := 6
  regStride := 2
  valBytes := 1
  printable reg := reg != 4
  regStride_pos := by decide
  fits := by decide

theorem printed_gapMap : printed gapMap 0 = [0, 2, 6] := by
  have beyond : ¬ 8 ≤ gapMap.maxRegister := by decide
  rw [printed_eq_cons (by decide) rfl, printed_eq_cons (by decide) rfl,
    printed_skip rfl, printed_eq_cons (by decide) rfl]
  exact congrArg _ (congrArg _ (congrArg _ (printed_eq_nil beyond)))

theorem reads_agree_gapMap :
    (∀ ops : List DumpOp, (∀ op ∈ ops, op.Allocates) →
      answers (perform gapMap 4096) ⟨[], fun _ => 0⟩ ops =
        answers (plainPerform gapMap 4096) (fun _ => 0) ops) ∧
      printed gapMap 0 = [0, 2, 6] := by
  refine ⟨(reads_agree_iff (by decide)).mpr ?_, printed_gapMap⟩
  rw [printed_gapMap]
  exact List.cons_ne_nil _ _

/-! ## Reading on -/

theorem hexDigits_length (precision n : Nat) :
    precision ≤ (hexDigits precision n).length := by
  rw [hexDigits, List.length_append, List.length_replicate]
  omega

/-- All lines have one length. -/
theorem line_length (map : Regmap) (reg : Nat) (answer : Option Nat) :
    (map.line reg answer).length = map.debugfsTotLen := by
  have place := hexDigits_length map.debugfsRegLen reg
  have digits (value : Option Nat) : (match value with
      | some val => (hexDigits map.debugfsValLen val).take map.debugfsValLen
      | none => List.replicate map.debugfsValLen 'X').length =
        map.debugfsValLen := by
    cases value with
    | none => exact List.length_replicate
    | some val =>
        rw [List.length_take]
        exact Nat.min_eq_left (hexDigits_length _ val)
  unfold Regmap.line
  rw [List.length_append, List.length_append, digits, List.length_take,
    List.length_append, List.length_cons, List.length_cons, List.length_nil,
    List.length_singleton, Regmap.debugfsTotLen]
  omega

/-- The dump of registers whose values stay what they are. -/
def dump (map : Regmap) (values : Nat → Option Nat) (regs : List Nat) :
    List Char :=
  regs.flatMap fun reg => map.line reg (values reg)

theorem dump_length (map : Regmap) (values : Nat → Option Nat)
    (regs : List Nat) :
    (dump map values regs).length = regs.length * map.debugfsTotLen := by
  induction regs with
  | nil => simp [dump]
  | cons reg regs ih =>
      have first : dump map values (reg :: regs) =
          map.line reg (values reg) ++ dump map values regs := rfl
      rw [first, List.length_append, line_length, ih, List.length_cons]
      ring

/-- One file is read on, and nothing fails; others do as they like. -/
def DumpOp.ReadsOn (i : Nat) (values : Nat → Option Nat) : DumpOp → Prop
  | .registers j env count =>
      j = i → env.kmalloc = true ∧ env.copyToUser = true ∧
        env.regmapRead = values ∧ 0 < count
  | .ranges j _ _ | .llseek j _ => j ≠ i
  | .range _ _ _ _ => True

/-- The text which an operation reads from one `registers` file. -/
def DumpOp.text (i : Nat) : DumpOp → DumpAnswer → List Char
  | .registers j _ _, some (.ok text) => if j = i then text else []
  | _, _ => []

/-- The text which is read from one `registers` file. -/
def textRead (i : Nat) (ops : List DumpOp) (replies : List DumpAnswer) :
    List Char :=
  (List.zipWith (DumpOp.text i) ops replies).flatten

/-- The number of lines for which an operation on one file has place. -/
def DumpOp.places (map : Regmap) (limit i : Nat) : DumpOp → Nat
  | .registers j _ count =>
      if j = i then Nat.min count limit / map.debugfsTotLen else 0
  | _ => 0

/-- The lines which one read leaves to be read. -/
theorem drop_after_take (regs : List Nat) (first count : Nat)
    (le : first ≤ regs.length) :
    regs.drop (first + ((regs.drop first).take count).length) =
      regs.drop (first + count) := by
  rw [List.length_take, List.length_drop]
  rcases Nat.le_total count (regs.length - first) with within | beyond
  · rw [Nat.min_eq_left within]
  · rw [Nat.min_eq_right beyond, List.drop_eq_nil_of_le (by omega),
      List.drop_eq_nil_of_le (by omega)]

theorem ceilDiv_lines (first : Nat) :
    (first * map.debugfsTotLen) ⌈/⌉ map.debugfsTotLen = first := by
  have positive := map.debugfsTotLen_pos
  have least : first * map.debugfsTotLen + map.debugfsTotLen - 1 =
      map.debugfsTotLen * first + (map.debugfsTotLen - 1) := by
    rw [Nat.mul_comm first]
    omega
  rw [Nat.ceilDiv_eq_add_pred_div, least, Nat.mul_add_div positive,
    Nat.div_eq_of_lt (by omega), Nat.add_zero]

theorem text_other {i j : Nat} (other : j ≠ i) (env : DumpEnv) (count : Nat)
    (answer : DumpAnswer) :
    (DumpOp.registers j env count).text i answer = [] := by
  cases answer with
  | none => rfl
  | some result =>
      cases result with
      | error _ => rfl
      | ok _ => exact if_neg other

/-- A read which does not fail goes on by what it has returned. -/
theorem plainRead_ok {env : DumpEnv} (copied : env.copyToUser = true)
    {count : Nat} (some : 0 < count) (ppos : Nat) (text : List Char) :
    plainRead true env count ppos text = (.ok text, ppos + text.length) := by
  rw [plainRead, if_neg (Nat.pos_iff_ne_zero.mp some), copied]
  rfl

/-- An operation reads the lines for which it has place. -/
theorem plainPerform_readsOn (limit : Nat) {i : Nat}
    {values : Nat → Option Nat}
    {op : DumpOp} (readsOn : op.ReadsOn i values) {ppos : Nat → Nat}
    {first : Nat} (here : ppos i = first * map.debugfsTotLen)
    (le : first ≤ (printed map 0).length) :
    op.text i (plainPerform map limit ppos op).1 =
        dump map values (((printed map 0).drop first).take
          (op.places map limit i)) ∧
      ∃ next, (plainPerform map limit ppos op).2 i =
          next * map.debugfsTotLen ∧
        next ≤ (printed map 0).length ∧
        (printed map 0).drop next =
          (printed map 0).drop (first + op.places map limit i) := by
  cases op with
  | registers j env count =>
      by_cases same : j = i
      · subst same
        obtain ⟨buffer, copied, rfl, some⟩ := readsOn rfl
        have text : plainLines map env (ppos j) (Nat.min count limit) =
            dump map env.regmapRead (((printed map 0).drop first).take
              (Nat.min count limit / map.debugfsTotLen)) := by
          rw [plainLines, here, ceilDiv_lines]
          rfl
        have places : (DumpOp.registers j env count).places map limit j =
            Nat.min count limit / map.debugfsTotLen := if_pos rfl
        rw [plainPerform, buffer, plainRead_ok copied some, text, places]
        refine ⟨if_pos rfl, first + (((printed map 0).drop first).take
          (Nat.min count limit / map.debugfsTotLen)).length, ?_, ?_,
          drop_after_take _ _ _ le⟩
        · dsimp only
          rw [Function.update_self, here, dump_length, Nat.add_mul]
        · have most := List.length_take_le'
            (Nat.min count limit / map.debugfsTotLen)
            ((printed map 0).drop first)
          rw [List.length_drop] at most
          omega
      · have places : (DumpOp.registers j env count).places map limit i = 0 :=
          if_neg same
        rw [text_other same, places, List.take_zero]
        refine ⟨rfl, first, ?_, le, rfl⟩
        exact (Function.update_of_ne (Ne.symm same) _ _).trans here
  | ranges j env count =>
      refine ⟨rfl, first, ?_, le, rfl⟩
      exact (Function.update_of_ne (Ne.symm readsOn) _ _).trans here
  | range node env count pos => exact ⟨rfl, first, here, le, rfl⟩
  | llseek j pos =>
      refine ⟨rfl, first, ?_, le, rfl⟩
      exact (Function.update_of_ne (Ne.symm readsOn) _ _).trans here

theorem plain_readsOn {limit i : Nat} {values : Nat → Option Nat}
    {ops : List DumpOp} (readsOn : ∀ op ∈ ops, op.ReadsOn i values)
    {ppos : Nat → Nat} {first : Nat}
    (here : ppos i = first * map.debugfsTotLen)
    (le : first ≤ (printed map 0).length) :
    textRead i ops (answers (plainPerform map limit) ppos ops) =
      dump map values (((printed map 0).drop first).take
        (ops.map (DumpOp.places map limit i)).sum) := by
  induction ops generalizing ppos first with
  | nil => rfl
  | cons op ops ih =>
      obtain ⟨text, next, there, within, rest⟩ := plainPerform_readsOn
        limit (readsOn op List.mem_cons_self) here le
      have later := ih
        (fun op member => readsOn op (List.mem_cons_of_mem _ member)) there
        within
      rw [textRead] at later
      rw [textRead, answers, List.zipWith_cons_cons, List.flatten_cons, text,
        later, rest, List.map_cons, List.sum_cons, List.take_add,
        ← List.drop_drop, dump, dump, ← List.flatMap_append]
      rfl

/--
One who reads on in a `registers` file, with buffers of any size, gets line
after line of the dump, whatever else is read meanwhile.
-/
theorem registers_readOn {limit i : Nat} (values : Nat → Option Nat)
    (nonempty : printed map 0 ≠ []) {ops : List DumpOp}
    (memory : ∀ op ∈ ops, op.Allocates)
    (readsOn : ∀ op ∈ ops, op.ReadsOn i values) :
    textRead i ops (answers (perform map limit) ⟨[], fun _ => 0⟩ ops) =
      dump map values ((printed map 0).take
        (ops.map (DumpOp.places map limit i)).sum) := by
  have plain : answers (perform map limit) ⟨[], fun _ => 0⟩ ops =
      answers (plainPerform map limit) (fun _ => 0) ops :=
    answers_eq
      (fun op member => perform_agree limit nonempty (memory op member))
      ⟨Or.inl rfl, rfl⟩
  rw [plain]
  exact plain_readsOn readsOn (Nat.zero_mul _).symm (Nat.zero_le _)

/-- What a read of registers which hold their numbers meets. -/
def numbersEnv : DumpEnv :=
  ⟨true, true, fun _ => true, fun reg => some (reg + 16), true⟩

/-- A file is read in two parts, and the `range` file between them. -/
def twoReads : List DumpOp :=
  [.registers 0 numbersEnv 13, .ranges 1 numbersEnv 100,
    .registers 0 numbersEnv 13]

theorem registers_readOn_twoReads :
    textRead 0 twoReads
        (answers (perform gapMap 4096) ⟨[], fun _ => 0⟩ twoReads) =
      ['0', ':', ' ', '1', '0', '\n', '2', ':', ' ', '1', '2', '\n',
        '6', ':', ' ', '1', '6', '\n'] := by
  have nonempty : printed gapMap 0 ≠ [] := by
    rw [printed_gapMap]
    exact List.cons_ne_nil _ _
  rw [registers_readOn numbersEnv.regmapRead nonempty
    (by simp [twoReads, DumpOp.Allocates, numbersEnv])
    (by simp [twoReads, DumpOp.ReadsOn, numbersEnv]), printed_gapMap]
  decide

/--
Each read of the file of a range begins with its first register again, so that
such a file has no end.
-/
theorem regmapRangeReadFile_begins {node : RegmapRangeNode}
    (later : node.rangeMin ≠ 0) (le : node.rangeMin ≤ node.rangeMax)
    {limit count : Nat} {env : DumpEnv} {file : DumpFile}
    (buffer : env.kmalloc = true) (copied : env.copyToUser = true)
    (room : map.debugfsTotLen ≤ limit) (fits : map.debugfsTotLen ≤ count) :
    ∃ more, (regmapRangeReadFile map node limit env count file).1 =
      .ok (map.line 0 (env.regmapRead node.rangeMin) ++ more) := by
  have begins : regmapDebugfsGetDumpStart map env.kzalloc node.rangeMin
      file.ppos file.ppos file.offCache =
        ((node.rangeMin, file.ppos), file.offCache) := if_pos later
  exact regmapReadDebugfs_begins begins le le_rfl buffer copied room fits

end LinuxDfl.Debugfs

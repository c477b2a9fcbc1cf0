import LinuxDfl.Fpga.ScatterGather

/-!
# Two ways to load an image

An image is loaded from one buffer or from a scatter list.  For a driver which
reads its header as it is documented to, and which takes data in chunks, this
compares the two.
-/

namespace LinuxDfl.Fpga

open LinuxDfl.Kernel

/-! ## Drivers -/

/-- What `parse_header` makes of the bytes it is given. -/
inductive HeaderAnswer where
  /-- `-EAGAIN`, with the number of bytes that it wants. -/
  | more (size : Nat)
  | invalid (ret : Errno)
  | header (headerSize dataSize : Nat)
  deriving DecidableEq, Repr

/--
The header of an image, for a driver which asks for more data until it is
given `header_size` bytes, and whose answer depends only on those bytes.
-/
structure HeaderFormat where
  initialHeaderSize : Nat
  parse : List (BitVec 8) → HeaderAnswer
  /-- At first `header_size` is `initial_header_size`. -/
  initial : ∀ buf, buf.length < initialHeaderSize →
    ∃ size, parse buf = .more size
  /-- A driver asks for more than it has been given. -/
  asks : ∀ buf size, parse buf = .more size → buf.length < size
  /-- Less than what it has asked for is not enough. -/
  insists : ∀ buf rest size, parse buf = .more size →
    (buf ++ rest).length < size → ∃ other, parse (buf ++ rest) = .more other
  /-- More data does not change an answer. -/
  settled : ∀ buf rest, (∀ size, parse buf ≠ .more size) →
    parse (buf ++ rest) = parse buf
  /-- A header lies in the data in which it is found. -/
  within : ∀ buf headerSize dataSize,
    parse buf = .header headerSize dataSize → headerSize ≤ buf.length
  invalid : ∀ buf ret, parse buf = .invalid ret → ret ≠ .eagain

variable {Hw : Type}

/-- The header which has been found, in the image info. -/
def FpgaImageInfo.withHeader (info : FpgaImageInfo)
    (headerSize dataSize : Nat) : FpgaImageInfo :=
  { info with headerSize := headerSize, dataSize := dataSize }

/-- The `parse_header` of the format. -/
def HeaderFormat.parseHeader (format : HeaderFormat) (info : FpgaImageInfo)
    (buf : List (BitVec 8)) (hw : Hw) :
    Option Errno × FpgaImageInfo × Hw :=
  match format.parse buf with
  | .more size => (some .eagain, { info with headerSize := size }, hw)
  | .invalid ret => (some ret, info, hw)
  | .header headerSize dataSize =>
      (none, info.withHeader headerSize dataSize, hw)

/-- `fpga_mgr_write_init` -/
def FpgaManagerOps.init (mops : FpgaManagerOps Hw) (info : FpgaImageInfo)
    (buf : List (BitVec 8)) (hw : Hw) : Option Errno × Hw :=
  match mops.writeInit with
  | some writeInit => writeInit info buf hw
  | none => (none, hw)

/-- The operation of `fpga_mgr_write_complete`. -/
def FpgaManagerOps.complete (mops : FpgaManagerOps Hw)
    (info : FpgaImageInfo) (hw : Hw) : Option Errno × Hw :=
  match mops.writeComplete with
  | some writeComplete => writeComplete info hw
  | none => (none, hw)

/-- A driver without `write_sg`, which reads the header of its images. -/
structure FpgaManagerSgOps.Reads (mops : FpgaManagerSgOps Hw)
    (format : HeaderFormat) : Prop where
  initialHeaderSize : mops.initialHeaderSize = format.initialHeaderSize
  parseHeader : mops.parseHeader = some format.parseHeader
  writeSg : mops.writeSg = none

/-- The driver is given chunks of data, one after the other. -/
def FpgaManagerOps.writeAll (mops : FpgaManagerOps Hw) :
    List (List (BitVec 8)) → Hw → Option Errno × Hw
  | [], hw => (none, hw)
  | chunk :: rest, hw =>
      match fpgaMgrWrite mops hw chunk with
      | (some ret, hw) => (some ret, hw)
      | (none, hw) => mops.writeAll rest hw

/--
The driver prepares with the bytes that it is given of an image, takes the data
in these chunks and completes.
-/
def FpgaManagerOps.Takes (mops : FpgaManagerOps Hw) (info : FpgaImageInfo)
    (buf : List (BitVec 8)) (chunks : List (List (BitVec 8)))
    (hw next : Hw) : Prop :=
  ∃ ready written,
    mops.init info (if info.headerSize = 0 then [] else buf) hw =
        (none, ready) ∧
      mops.writeAll chunks ready = (none, written) ∧
        mops.complete info written = (none, next)

/-- The driver takes an image which it is given so. -/
def FpgaManagerOps.Accepts (mops : FpgaManagerOps Hw) (info : FpgaImageInfo)
    (buf : List (BitVec 8)) (chunks : List (List (BitVec 8))) (hw : Hw) :
    Prop :=
  ∃ next, mops.Takes info buf chunks hw next

/-! ## What a driver is given of an image -/

/-- The driver wants more than these bytes to find the header. -/
def HeaderFormat.wantsMore (format : HeaderFormat) (buf : List (BitVec 8)) :
    Bool :=
  match format.parse buf with
  | .more _ => true
  | _ => false

/-- How many bytes of the image it takes to find the header. -/
def HeaderFormat.headerLength (format : HeaderFormat)
    (image : List (BitVec 8)) : Nat :=
  ((List.range (image.length + 1)).find? fun seen =>
    !format.wantsMore (image.take seen)).getD 0

/--
The bytes of a scattered image in which the header is found: the first fragment
if it is there, and a copy of as many bytes as it takes otherwise.
-/
def HeaderFormat.headerCopy (format : HeaderFormat)
    (sgt : List (List (BitVec 8))) : List (BitVec 8) :=
  if format.wantsMore (sgt.headD []) then
    sgt.flatten.take (format.headerLength sgt.flatten)
  else sgt.headD []

/-- The data of an image whose header has been read. -/
def imageData (skipHeader : Bool) (info : FpgaImageInfo)
    (image : List (BitVec 8)) : List (BitVec 8) :=
  let buf := if skipHeader then image.drop info.headerSize else image
  if info.dataSize ≠ 0 then buf.take info.dataSize else buf

/-- The fragments of the first bytes. -/
def takeBytes : Nat → List (List (BitVec 8)) → List (List (BitVec 8))
  | _, [] => []
  | size, fragment :: rest =>
      if size ≤ fragment.length then [fragment.take size]
      else fragment :: takeBytes (size - fragment.length) rest

/-- The fragments of the data of a scattered image with its header read. -/
def dataFragments (skipHeader : Bool) (info : FpgaImageInfo)
    (sgt : List (List (BitVec 8))) : List (List (BitVec 8)) :=
  let left :=
    if skipHeader then (sgMiterSkip info.headerSize sgt).getD [] else sgt
  if info.dataSize ≠ 0 then takeBytes info.dataSize left else left

/-! ## From the header on -/

/-- The load succeeds with the hardware in this state. -/
def Loads (result : Option Errno × FpgaManager Hw × FpgaImageInfo)
    (next : Hw) : Prop :=
  result.1 = none ∧ result.2.1.state = .operating ∧ result.2.1.hw = next

/-- What both ways do once the driver is prepared. -/
def loadPrepared (mops : FpgaManagerOps Hw) (info : FpgaImageInfo)
    (write : Hw → Option Errno × Hw)
    (init : Option Errno × FpgaManager Hw) :
    Option Errno × FpgaManager Hw × FpgaImageInfo :=
  match init with
  | (some ret, mgr) => (some ret, mgr, info)
  | (none, mgr) =>
      match write mgr.hw with
      | (some ret, hw) =>
          (some ret, { mgr with state := .writeErr, hw := hw }, info)
      | (none, hw) =>
          let mgr := { mgr with state := .write, hw := hw }
          let completed := fpgaMgrWriteComplete mops mgr info
          (completed.1, completed.2, info)

theorem fpgaMgrWriteInitBuf_eq (mops : FpgaManagerOps Hw)
    (mgr : FpgaManager Hw) (info : FpgaImageInfo)
    {buf : List (BitVec 8)} (within : info.headerSize ≤ buf.length) :
    fpgaMgrWriteInitBuf mops mgr info buf =
      match mops.init info (if info.headerSize = 0 then [] else buf)
        mgr.hw with
      | (some ret, hw) =>
          (some ret, { mgr with state := .writeInitErr, hw := hw })
      | (none, hw) => (none, { mgr with state := .writeInit, hw := hw }) := by
  have notLarger : ¬ info.headerSize > buf.length := Nat.not_lt.mpr within
  have opened :
      mops.init info (if info.headerSize = 0 then [] else buf) mgr.hw =
        if info.headerSize > buf.length then
          (some .einval, mgr.hw)
        else
          mops.init info (if info.headerSize = 0 then [] else buf) mgr.hw :=
    (if_neg notLarger).symm
  rw [opened]
  unfold FpgaManagerOps.init
  rfl

theorem fpgaMgrWriteComplete_eq (mops : FpgaManagerOps Hw)
    (mgr : FpgaManager Hw) (info : FpgaImageInfo) :
    fpgaMgrWriteComplete mops mgr info =
      match mops.complete info mgr.hw with
      | (some ret, hw) =>
          (some ret, { mgr with state := .writeCompleteErr, hw := hw })
      | (none, hw) => (none, { mgr with state := .operating, hw := hw }) := by
  unfold fpgaMgrWriteComplete FpgaManagerOps.complete
  cases mops.writeComplete with
  | none => rfl
  | some writeComplete => rfl

theorem loads_loadPrepared_iff (mops : FpgaManagerOps Hw)
    (mgr : FpgaManager Hw) (info : FpgaImageInfo)
    {write : Hw → Option Errno × Hw} {chunks : List (List (BitVec 8))}
    (writes : write = mops.writeAll chunks) {buf : List (BitVec 8)}
    (within : info.headerSize ≤ buf.length) (next : Hw) :
    Loads (loadPrepared mops info write
        (fpgaMgrWriteInitBuf mops mgr info buf)) next ↔
      mops.Takes info buf chunks mgr.hw next := by
  subst writes
  rw [fpgaMgrWriteInitBuf_eq mops mgr info within, FpgaManagerOps.Takes]
  rcases mops.init info (if info.headerSize = 0 then [] else buf) mgr.hw
    with ⟨_ | ret, ready⟩
  · rcases wrote : mops.writeAll chunks ready with ⟨_ | ret, written⟩
    · simp only [loadPrepared, wrote, fpgaMgrWriteComplete_eq]
      rcases completed : mops.complete info written with ⟨_ | ret, done⟩
      · simp [Loads, wrote, completed]
      · simp [Loads, wrote, completed]
    · simp [loadPrepared, Loads, wrote]
  · simp [loadPrepared, Loads]

/-! ## The data -/

/-- What is left of the fragments is what is left of the image. -/
theorem sgMiterSkip_flatten {offset : Nat} {sgt : List (List (BitVec 8))}
    (inside : offset ≤ sgt.flatten.length) :
    ∃ left, sgMiterSkip offset sgt = some left ∧
      left.flatten = sgt.flatten.drop offset := by
  induction sgt generalizing offset with
  | nil =>
      have zero : offset = 0 := Nat.le_zero.mp inside
      rw [zero]
      exact ⟨[], rfl, rfl⟩
  | cons fragment rest induction =>
      rw [List.flatten_cons, List.length_append] at inside
      cases offset with
      | zero => exact ⟨fragment :: rest, rfl, rfl⟩
      | succ offset =>
          unfold sgMiterSkip
          rw [List.flatten_cons]
          split
          · rename_i before
            refine ⟨_, rfl, ?_⟩
            rw [List.flatten_cons,
              List.drop_append_of_le_length (Nat.le_of_lt before)]
          · rename_i behind
            have remains :
                offset + 1 - fragment.length ≤ rest.flatten.length := by omega
            obtain ⟨left, skips, flatten⟩ := induction remains
            refine ⟨left, skips, ?_⟩
            rw [flatten, List.drop_append,
              List.drop_of_length_le (Nat.le_of_not_lt behind),
              List.nil_append]

theorem flatten_takeBytes (size : Nat) (sgt : List (List (BitVec 8))) :
    (takeBytes size sgt).flatten = sgt.flatten.take size := by
  induction sgt generalizing size with
  | nil => rw [takeBytes, List.flatten_nil, List.take_nil]
  | cons fragment rest induction =>
      rw [takeBytes, List.flatten_cons]
      split_ifs with last
      · rw [List.take_append_of_le_length last, List.flatten_singleton]
      · rw [List.flatten_cons, induction, List.take_append,
          List.take_of_length_le (Nat.le_of_not_le last)]

/-- The fragments of the data are those of the data in one piece. -/
theorem flatten_dataFragments (skipHeader : Bool) {info : FpgaImageInfo}
    {sgt : List (List (BitVec 8))}
    (within : info.headerSize ≤ sgt.flatten.length) :
    (dataFragments skipHeader info sgt).flatten =
      imageData skipHeader info sgt.flatten := by
  obtain ⟨left, skips, flatten⟩ := sgMiterSkip_flatten within
  have rest :
      (if skipHeader then (sgMiterSkip info.headerSize sgt).getD []
        else sgt).flatten =
        if skipHeader then sgt.flatten.drop info.headerSize
        else sgt.flatten := by
    rw [skips]
    split_ifs
    · exact flatten
    · rfl
  unfold dataFragments imageData
  dsimp only
  by_cases limited : info.dataSize ≠ 0
  · rw [if_pos limited, if_pos limited, flatten_takeBytes, rest]
  · rw [if_neg limited, if_neg limited]
    exact rest

/-- The loop gives the driver the fragments of what it has to write. -/
theorem fpgaMgrWriteFragments_eq (mops : FpgaManagerOps Hw)
    {dataSize : Nat} (sgt : List (List (BitVec 8))) {count : Nat}
    (below : dataSize ≠ 0 → count < dataSize) (hw : Hw) :
    fpgaMgrWriteFragments mops dataSize sgt count hw =
      mops.writeAll
        (if dataSize ≠ 0 then takeBytes (dataSize - count) sgt else sgt)
        hw := by
  induction sgt generalizing count hw with
  | nil =>
      have nothing :
          (if dataSize ≠ 0 then takeBytes (dataSize - count) [] else []) =
            ([] : List (List (BitVec 8))) := by
        split <;> rfl
      rw [nothing]
      rfl
  | cons fragment rest induction =>
      by_cases unlimited : dataSize = 0
      · subst unlimited
        have rests (between : Hw) :=
          @induction (count + fragment.length)
            (fun impossible => absurd rfl impossible) between
        simp only [ne_eq, not_true_eq_false, if_false] at rests ⊢
        rcases wrote : fpgaMgrWrite mops hw fragment with ⟨_ | ret, after⟩ <;>
          simp [fpgaMgrWriteFragments, FpgaManagerOps.writeAll, rests, wrote]
      · have room := below unlimited
        rw [if_pos unlimited, takeBytes]
        by_cases last : dataSize - count ≤ fragment.length
        · have reached : dataSize ≤ count + (dataSize - count) := by omega
          rcases wrote : fpgaMgrWrite mops hw
            (fragment.take (dataSize - count)) with ⟨_ | ret, after⟩ <;>
          simp [fpgaMgrWriteFragments, FpgaManagerOps.writeAll, unlimited,
            last, reached, wrote]
        · have shorter : fragment.length ≤ dataSize - count := by omega
          have remains : ¬ dataSize ≤ count + fragment.length := by omega
          have rests (between : Hw) :=
            @induction (count + fragment.length)
              (fun _ => by omega) between
          simp only [ne_eq, unlimited, not_false_eq_true, if_true,
            Nat.sub_add_eq] at rests
          rcases wrote : fpgaMgrWrite mops hw fragment with
            ⟨_ | ret, after⟩ <;>
          simp [fpgaMgrWriteFragments, FpgaManagerOps.writeAll, unlimited,
            last, shorter, remains, rests, wrote]

variable {mops : FpgaManagerSgOps Hw} {format : HeaderFormat}

theorem FpgaManagerSgOps.Reads.writeData_eq (reads : mops.Reads format)
    {info : FpgaImageInfo} {sgt : List (List (BitVec 8))}
    (within : info.headerSize ≤ sgt.flatten.length) :
    fpgaMgrWriteData mops info sgt =
      mops.writeAll (dataFragments mops.skipHeader info sgt) := by
  have positive : info.dataSize ≠ 0 → 0 < info.dataSize :=
    Nat.pos_of_ne_zero
  funext hw
  unfold fpgaMgrWriteData dataFragments
  rw [reads.writeSg]
  cases mops.skipHeader with
  | false => exact fpgaMgrWriteFragments_eq _ sgt positive hw
  | true =>
      obtain ⟨left, skips, -⟩ := sgMiterSkip_flatten within
      simp only [if_true, skips, Option.getD_some]
      exact fpgaMgrWriteFragments_eq _ left positive hw

/-- A single chunk is written at once. -/
theorem writeAll_singleton (mops : FpgaManagerOps Hw)
    (chunk : List (BitVec 8)) :
    (fun hw => fpgaMgrWrite mops hw chunk) = mops.writeAll [chunk] := by
  funext hw
  rw [FpgaManagerOps.writeAll]
  rcases fpgaMgrWrite mops hw chunk with ⟨_ | ret, next⟩
  · rfl
  · rfl

/-! ## The header of a scattered image -/

/-- No fewer bytes of the image are enough to find its header. -/
def HeaderFormat.Requested (format : HeaderFormat)
    (image : List (BitVec 8)) (size : Nat) : Prop :=
  ∀ seen, seen ≤ image.length → seen < size →
    ∃ other, format.parse (image.take seen) = .more other

namespace HeaderFormat

theorem requested_initial (format : HeaderFormat)
    (image : List (BitVec 8)) :
    format.Requested image format.initialHeaderSize := by
  intro seen _ tooFew
  refine format.initial _ ?_
  exact Nat.lt_of_le_of_lt (List.length_take_le seen image) tooFew

/-- An answer to the first bytes is the answer to the image. -/
theorem parse_of_take {image : List (BitVec 8)} (format : HeaderFormat)
    (seen : Nat)
    (answers : ∀ size, format.parse (image.take seen) ≠ .more size) :
    format.parse image = format.parse (image.take seen) := by
  have settled := format.settled _ (image.drop seen) answers
  rwa [List.take_append_drop] at settled

/-- What a driver asks for is needed. -/
theorem requested_of_more {image : List (BitVec 8)} (format : HeaderFormat)
    {seen size : Nat} (more : format.parse (image.take seen) = .more size) :
    format.Requested image size := by
  intro other inside tooFew
  rcases Nat.le_total seen other with after | before
  · have taken :
        image.take other =
          image.take seen ++ (image.drop seen).take (other - seen) := by
      rw [← List.take_add, Nat.add_sub_cancel' after]
    rw [taken]
    refine format.insists _ _ size more ?_
    rw [← taken, List.length_take, Nat.min_eq_left inside]
    exact tooFew
  · by_contra answers
    have answered : ∀ size, format.parse (image.take other) ≠ .more size :=
      fun size isMore => answers ⟨size, isMore⟩
    have settled := format.settled _ ((image.take seen).drop other) answered
    have taken : image.take other = (image.take seen).take other := by
      rw [List.take_take, Nat.min_eq_left before]
    rw [taken, List.take_append_drop, more] at settled
    rw [taken, ← settled] at answered
    exact answered size rfl

theorem wantsMore_eq_true_iff (format : HeaderFormat)
    (buf : List (BitVec 8)) :
    format.wantsMore buf = true ↔ ∃ size, format.parse buf = .more size := by
  unfold wantsMore
  cases format.parse buf <;> simp

theorem headerCopy_of_wantsMore (format : HeaderFormat)
    {fragment : List (BitVec 8)} (rest : List (List (BitVec 8)))
    (more : format.wantsMore fragment = true) :
    format.headerCopy (fragment :: rest) =
      (fragment :: rest).flatten.take
        (format.headerLength (fragment :: rest).flatten) :=
  if_pos more

/-- The header is found in what has been asked for, and in no less. -/
theorem headerLength_eq {image : List (BitVec 8)} (format : HeaderFormat)
    {size : Nat} (requested : format.Requested image size)
    (inside : size ≤ image.length)
    (answers : format.wantsMore (image.take size) = false) :
    format.headerLength image = size := by
  have first :
      ((List.range (image.length + 1)).find? fun seen =>
        !format.wantsMore (image.take seen)) = some size := by
    rw [List.find?_range_eq_some]
    refine ⟨by rw [answers]; rfl, List.mem_range.mpr (by omega), ?_⟩
    intro seen tooFew
    have wants := (format.wantsMore_eq_true_iff (image.take seen)).mpr
      (requested seen (by omega) tooFew)
    rw [wants]
    rfl
  rw [headerLength, first]
  rfl

end HeaderFormat

/-- What reading the header of an image has to come to. -/
structure HeaderRead (format : HeaderFormat) (image : List (BitVec 8))
    (header : Nat → Nat → Prop) (failed : Prop) : Prop where
  found : ∀ headerSize dataSize,
    format.parse image = .header headerSize dataSize →
      header headerSize dataSize
  missing :
    (∀ headerSize dataSize,
      format.parse image ≠ .header headerSize dataSize) → failed

theorem HeaderRead.of_header {format : HeaderFormat}
    {image : List (BitVec 8)} {header : Nat → Nat → Prop} {failed : Prop}
    {headerSize dataSize : Nat}
    (isHeader : format.parse image = .header headerSize dataSize)
    (reads : header headerSize dataSize) :
    HeaderRead format image header failed where
  found otherSize otherData isOther := by
    cases isHeader.symm.trans isOther
    exact reads
  missing none := absurd isHeader (none headerSize dataSize)

theorem HeaderRead.of_fails {format : HeaderFormat}
    {image : List (BitVec 8)} {header : Nat → Nat → Prop} {failed : Prop}
    (noHeader :
      ∀ headerSize dataSize,
        format.parse image ≠ .header headerSize dataSize)
    (fails : failed) : HeaderRead format image header failed where
  found headerSize dataSize isHeader :=
    absurd isHeader (noHeader headerSize dataSize)
  missing _ := fails

section Header

variable {krealloc : Nat → Bool} {sgt : List (List (BitVec 8))}
  (reads : mops.Reads format)
  (memory : ∀ size, krealloc size = true)

include reads memory

/-- One round of the loop, when the image is as long as is asked for. -/
theorem FpgaManagerSgOps.Reads.parseHeaderSgLoop_round
    (hw : Hw) {info : FpgaImageInfo} {buf : List (BitVec 8)}
    (isPrefix : buf = sgt.flatten.take buf.length)
    (larger : buf.length < info.headerSize)
    (enough : info.headerSize ≤ sgt.flatten.length) :
    fpgaMgrParseHeaderSgLoop mops.toFpgaManagerOps krealloc sgt info buf hw =
      match format.parse (sgt.flatten.take info.headerSize) with
      | .more size =>
          fpgaMgrParseHeaderSgLoop mops.toFpgaManagerOps krealloc sgt
            { info with headerSize := size }
            (sgt.flatten.take info.headerSize) hw
      | .invalid ret => (.error ret, info, hw)
      | .header headerSize dataSize =>
          (.ok (sgt.flatten.take info.headerSize),
            info.withHeader headerSize dataSize, hw) := by
  have copied :
      (sgPcopyToBuffer sgt (info.headerSize - buf.length)
        buf.length).length = info.headerSize - buf.length := by
    rw [sgPcopyToBuffer, List.length_take, List.length_drop]
    omega
  have joined :
      buf ++ sgPcopyToBuffer sgt (info.headerSize - buf.length)
        buf.length = sgt.flatten.take info.headerSize := by
    have sizes :
        info.headerSize =
          buf.length + (info.headerSize - buf.length) := by omega
    rw [sgPcopyToBuffer]
    conv_rhs => rw [sizes, List.take_add, ← isPrefix]
  rw [fpgaMgrParseHeaderSgLoop.eq_def]
  simp only [Nat.not_le.mpr larger, if_false, memory, Bool.not_true,
    Bool.false_eq_true, copied, ne_eq, not_true_eq_false, joined,
    fpgaMgrParseHeader, reads.parseHeader, HeaderFormat.parseHeader]
  cases answer : format.parse (sgt.flatten.take info.headerSize) with
  | more size => simp only [if_true]
  | invalid ret =>
      have notAgain : ret ≠ .eagain := format.invalid _ _ answer
      simp only [notAgain, if_false]
  | header headerSize dataSize => rfl

omit reads in
/-- A round for which the image is too short fails. -/
theorem parseHeaderSgLoop_short
    (hw : Hw) {info : FpgaImageInfo} {buf : List (BitVec 8)}
    (larger : buf.length < info.headerSize)
    (short : sgt.flatten.length < info.headerSize) :
    (fpgaMgrParseHeaderSgLoop mops.toFpgaManagerOps krealloc sgt info buf
      hw).1 = .error .efault := by
  have copied :
      (sgPcopyToBuffer sgt (info.headerSize - buf.length)
        buf.length).length ≠ info.headerSize - buf.length := by
    rw [sgPcopyToBuffer, List.length_take, List.length_drop]
    omega
  rw [fpgaMgrParseHeaderSgLoop.eq_def]
  simp only [Nat.not_le.mpr larger, if_false, memory, Bool.not_true,
    Bool.false_eq_true, ne_eq, copied, not_false_eq_true, if_true]

/-- The loop copies what is asked for, until the header is found. -/
theorem FpgaManagerSgOps.Reads.parseHeaderSgLoop_reads
    (hw : Hw) {info : FpgaImageInfo} {buf : List (BitVec 8)}
    (isPrefix : buf = sgt.flatten.take buf.length)
    (requested : format.Requested sgt.flatten info.headerSize)
    (larger : buf.length < info.headerSize) :
    let read :=
      fpgaMgrParseHeaderSgLoop mops.toFpgaManagerOps krealloc sgt info buf hw
    HeaderRead format sgt.flatten
      (fun headerSize dataSize =>
        read =
            (.ok (sgt.flatten.take (format.headerLength sgt.flatten)),
              info.withHeader headerSize dataSize, hw) ∧
          headerSize ≤
            (sgt.flatten.take (format.headerLength sgt.flatten)).length)
      (∃ ret, read.1 = .error ret) := by
  induction remaining : sgt.flatten.length - buf.length
    using Nat.strong_induction_on generalizing info buf with
  | _ bound induction =>
      intro read
      by_cases enough : info.headerSize ≤ sgt.flatten.length
      · have length :
            (sgt.flatten.take info.headerSize).length = info.headerSize := by
          rw [List.length_take, Nat.min_eq_left enough]
        have round :=
          reads.parseHeaderSgLoop_round memory hw isPrefix larger enough
        cases answer : format.parse (sgt.flatten.take info.headerSize) with
        | more size =>
            simp only [answer] at round
            let next : FpgaImageInfo := { info with headerSize := size }
            have nextRequested :
                format.Requested sgt.flatten next.headerSize :=
              format.requested_of_more answer
            have fewer :
                sgt.flatten.length -
                  (sgt.flatten.take info.headerSize).length < bound := by
              omega
            have rest :=
              induction _ fewer (by rw [length]) nextRequested
                (format.asks _ _ answer) rfl
            rw [← round] at rest
            exact rest
        | invalid ret =>
            simp only [answer] at round
            have settled := format.parse_of_take info.headerSize
              (fun size isMore => by rw [answer] at isMore; cases isMore)
            refine .of_fails (fun headerSize dataSize isHeader => ?_) ?_
            · rw [settled, answer] at isHeader
              cases isHeader
            · exact ⟨ret, congrArg Prod.fst round⟩
        | header headerSize dataSize =>
            simp only [answer] at round
            have settled := format.parse_of_take info.headerSize
              (fun size isMore => by rw [answer] at isMore; cases isMore)
            have answers :
                format.wantsMore (sgt.flatten.take info.headerSize) =
                  false := by
              rw [HeaderFormat.wantsMore, answer]
            have found := format.headerLength_eq requested enough answers
            refine .of_header (settled.trans answer) ?_
            rw [found]
            exact ⟨round, format.within _ _ _ answer⟩
      · have tooShort := Nat.lt_of_not_le enough
        refine .of_fails (fun headerSize dataSize isHeader => ?_)
          ⟨_, parseHeaderSgLoop_short memory hw larger tooShort⟩
        obtain ⟨other, more⟩ :=
          requested sgt.flatten.length (Nat.le_refl _) tooShort
        rw [List.take_length, isHeader] at more
        cases more

/-- The driver is prepared with a copy of the header. -/
theorem FpgaManagerSgOps.Reads.prepareCopied_reads
    (mgr : FpgaManager Hw) {info : FpgaImageInfo}
    (requested : format.Requested sgt.flatten info.headerSize)
    (positive : 0 < info.headerSize) :
    let prepared :=
      fpgaMgrPrepareCopied mops.toFpgaManagerOps krealloc mgr info sgt
    HeaderRead format sgt.flatten
      (fun headerSize dataSize =>
        prepared =
            (let init :=
              fpgaMgrWriteInitBuf mops.toFpgaManagerOps mgr
                (info.withHeader headerSize dataSize)
                (sgt.flatten.take (format.headerLength sgt.flatten))
            (init.1, init.2, info.withHeader headerSize dataSize)) ∧
          headerSize ≤
            (sgt.flatten.take (format.headerLength sgt.flatten)).length)
      (prepared.1 ≠ none) := by
  intro prepared
  have read :=
    reads.parseHeaderSgLoop_reads memory mgr.hw List.take_zero.symm
      requested positive
  refine ⟨fun headerSize dataSize isHeader => ?_, fun missing => ?_⟩
  · obtain ⟨copies, within⟩ := read.found headerSize dataSize isHeader
    refine ⟨?_, within⟩
    simp only [prepared, fpgaMgrPrepareCopied, fpgaMgrParseHeaderSg, copies]
  · obtain ⟨ret, fails⟩ := read.missing missing
    simp only [prepared, fpgaMgrPrepareCopied, fpgaMgrParseHeaderSg, fails]
    exact Option.some_ne_none ret

omit memory in
/-- What the first fragment, if the header may lie in it, leads to. -/
theorem FpgaManagerSgOps.Reads.parseHeaderSgFirst_eq
    (mgr : FpgaManager Hw) {info : FpgaImageInfo}
    {fragment : List (BitVec 8)} (rest : List (List (BitVec 8)))
    (fits : info.headerSize ≤ fragment.length) :
    fpgaMgrParseHeaderSgFirst mops.toFpgaManagerOps mgr info
        (fragment :: rest) =
      match format.parse fragment with
      | .more size =>
          (some .eagain, { mgr with state := .parseHeader },
            { info with headerSize := size })
      | .invalid ret => (some ret, { mgr with state := .parseHeaderErr }, info)
      | .header headerSize dataSize =>
          (none, { mgr with state := .parseHeader },
            info.withHeader headerSize dataSize) := by
  simp only [fpgaMgrParseHeaderSgFirst, fits, if_true, fpgaMgrParseHeader,
    reads.parseHeader, HeaderFormat.parseHeader]
  cases answer : format.parse fragment with
  | more size => simp
  | invalid ret =>
      have notAgain : ret ≠ .eagain := format.invalid _ _ answer
      simp [notAgain]
  | header headerSize dataSize => simp

omit memory in
theorem FpgaManagerSgOps.Reads.parses_header :
    ¬ (mops.initialHeaderSize = 0 ∧ mops.parseHeader.isNone = true) := by
  rw [reads.parseHeader]
  exact fun short => absurd short.2 Bool.false_ne_true

/-- The driver is prepared where the first fragment may hold the header. -/
theorem FpgaManagerSgOps.Reads.prepareFirst_reads
    (mgr : FpgaManager Hw) {info : FpgaImageInfo}
    {fragment : List (BitVec 8)} (rest : List (List (BitVec 8)))
    (fits : info.headerSize ≤ fragment.length) :
    let sgt := fragment :: rest
    let prepared :=
      fpgaMgrPrepareSg mops.toFpgaManagerOps krealloc mgr info sgt
    HeaderRead format sgt.flatten
      (fun headerSize dataSize =>
        prepared =
            (let init :=
              fpgaMgrWriteInitBuf mops.toFpgaManagerOps mgr
                (info.withHeader headerSize dataSize) (format.headerCopy sgt)
            (init.1, init.2, info.withHeader headerSize dataSize)) ∧
          headerSize ≤ (format.headerCopy sgt).length)
      (prepared.1 ≠ none) := by
  intro sgt prepared
  have notShort := reads.parses_header
  have first := reads.parseHeaderSgFirst_eq mgr rest fits
  have settled (answers : ∀ size, format.parse fragment ≠ .more size) :
      format.parse sgt.flatten = format.parse fragment :=
    format.settled fragment rest.flatten answers
  cases answer : format.parse fragment with
  | more size =>
      have isPrefix : fragment = sgt.flatten.take fragment.length := by
        rw [List.flatten_cons, List.take_left]
      let next : FpgaImageInfo := { info with headerSize := size }
      have requested : format.Requested sgt.flatten next.headerSize := by
        rw [isPrefix] at answer
        exact format.requested_of_more answer
      have positive : 0 < next.headerSize :=
        Nat.zero_lt_of_lt (format.asks _ _ answer)
      have copies :
          prepared =
            fpgaMgrPrepareCopied mops.toFpgaManagerOps krealloc
              { mgr with state := .parseHeader } next sgt := by
        simp only [prepared, sgt, fpgaMgrPrepareSg, if_neg notShort, first,
          answer, if_true]
        rfl
      rw [copies, format.headerCopy_of_wantsMore rest
        (format.wantsMore_eq_true_iff fragment |>.mpr ⟨size, answer⟩)]
      exact reads.prepareCopied_reads memory _ requested positive
  | invalid ret =>
      have notAgain : ret ≠ .eagain := format.invalid _ _ answer
      have fails : prepared.1 = some ret := by
        simp only [prepared, sgt, fpgaMgrPrepareSg, if_neg notShort, first,
          answer, if_neg notAgain]
      refine .of_fails (fun headerSize dataSize isHeader => ?_) ?_
      · rw [settled (by simp [answer]), answer] at isHeader
        cases isHeader
      · rw [fails]
        exact Option.some_ne_none ret
  | header headerSize dataSize =>
      have isSettled := settled (by simp [answer])
      have isFirst : format.headerCopy sgt = fragment := by
        simp only [sgt, HeaderFormat.headerCopy, HeaderFormat.wantsMore,
          List.headD_cons, answer, Bool.false_eq_true, if_false]
      rw [isFirst]
      refine .of_header (isSettled.trans answer)
        ⟨?_, format.within _ _ _ answer⟩
      simp only [prepared, sgt, fpgaMgrPrepareSg, if_neg notShort, first,
        answer]
      rfl

/-- The driver is prepared, from the first fragment or with a copy. -/
theorem FpgaManagerSgOps.Reads.prepareSg_reads
    (mgr : FpgaManager Hw) {info : FpgaImageInfo}
    (initial : info.headerSize = mops.initialHeaderSize)
    (nonempty : sgt.flatten ≠ []) :
    let prepared :=
      fpgaMgrPrepareSg mops.toFpgaManagerOps krealloc mgr info sgt
    HeaderRead format sgt.flatten
      (fun headerSize dataSize =>
        prepared =
            (let init :=
              fpgaMgrWriteInitBuf mops.toFpgaManagerOps mgr
                (info.withHeader headerSize dataSize) (format.headerCopy sgt)
            (init.1, init.2, info.withHeader headerSize dataSize)) ∧
          headerSize ≤ (format.headerCopy sgt).length)
      (prepared.1 ≠ none) := by
  intro prepared
  have requested : format.Requested sgt.flatten info.headerSize := by
    rw [initial, reads.initialHeaderSize]
    exact format.requested_initial _
  cases sgt with
  | nil => exact absurd rfl nonempty
  | cons fragment rest =>
      by_cases fits : info.headerSize ≤ fragment.length
      · exact reads.prepareFirst_reads memory mgr rest fits
      · have positive : 0 < info.headerSize :=
          Nat.zero_lt_of_lt (Nat.lt_of_not_le fits)
        have copies :
            prepared =
              fpgaMgrPrepareCopied mops.toFpgaManagerOps krealloc
                { mgr with state := .parseHeader } info
                (fragment :: rest) := by
          simp only [prepared, fpgaMgrPrepareSg, if_neg reads.parses_header,
            fpgaMgrParseHeaderSgFirst, fits, if_false, if_true]
          simp
        have short : fragment.length < format.initialHeaderSize := by
          rw [← reads.initialHeaderSize, ← initial]
          exact Nat.lt_of_not_le fits
        rw [copies, format.headerCopy_of_wantsMore rest
          (format.wantsMore_eq_true_iff fragment |>.mpr
            (format.initial fragment short))]
        exact reads.prepareCopied_reads memory _ requested positive

end Header

/-! ## Which images are accepted -/

theorem fpgaMgrWriteComplete_operating (mops : FpgaManagerOps Hw)
    (mgr : FpgaManager Hw) (info : FpgaImageInfo)
    (succeeds : (fpgaMgrWriteComplete mops mgr info).1 = none) :
    (fpgaMgrWriteComplete mops mgr info).2.state = .operating := by
  rw [fpgaMgrWriteComplete_eq] at succeeds ⊢
  rcases completed : mops.complete info mgr.hw with ⟨_ | ret, hw⟩
  · rfl
  · rw [completed] at succeeds
    cases succeeds

theorem loadPrepared_operating (mops : FpgaManagerOps Hw)
    (info : FpgaImageInfo) (write : Hw → Option Errno × Hw)
    (init : Option Errno × FpgaManager Hw)
    (succeeds : (loadPrepared mops info write init).1 = none) :
    (loadPrepared mops info write init).2.1.state = .operating := by
  rcases init with ⟨_ | ret, mgr⟩
  · rcases wrote : write mgr.hw with ⟨_ | ret, hw⟩
    · simp only [loadPrepared, wrote] at succeeds ⊢
      exact fpgaMgrWriteComplete_operating _ _ _ succeeds
    · simp only [loadPrepared, wrote] at succeeds
      cases succeeds
  · cases succeeds

/-- A manager comes into operation only when all of its phases succeed. -/
theorem phases_of_operating (mops : FpgaManagerOps Hw)
    {info : FpgaImageInfo} {write : Hw → Option Errno × Hw}
    {init : Option Errno × FpgaManager Hw}
    (failed : init.1 ≠ none → init.2.state ≠ .operating)
    (operating :
      (loadPrepared mops info write init).2.1.state = .operating) :
    init.1 = none ∧
      ∃ written next, write init.2.hw = (none, written) ∧
        mops.complete info written = (none, next) := by
  rcases init with ⟨_ | ret, mgr⟩
  · refine ⟨rfl, ?_⟩
    rcases wrote : write mgr.hw with ⟨_ | ret, written⟩
    · simp only [loadPrepared, wrote, fpgaMgrWriteComplete_eq] at operating
      rcases completes : mops.complete info written with ⟨_ | ret, next⟩
      · exact ⟨written, next, rfl, completes⟩
      · rw [completes] at operating
        cases operating
    · simp only [loadPrepared, wrote] at operating
      cases operating
  · exact absurd operating (failed nofun)

theorem fpgaMgrBufLoadSg_eq (mops : FpgaManagerSgOps Hw)
    (krealloc : Nat → Bool) (mgr : FpgaManager Hw) (info : FpgaImageInfo)
    (sgt : List (List (BitVec 8))) :
    fpgaMgrBufLoadSg mops krealloc mgr info sgt =
      let prepared :=
        fpgaMgrPrepareSg mops.toFpgaManagerOps krealloc mgr info sgt
      loadPrepared mops.toFpgaManagerOps prepared.2.2
        (fpgaMgrWriteData mops prepared.2.2 sgt)
        (prepared.1, prepared.2.1) := by
  unfold fpgaMgrBufLoadSg
  rcases fpgaMgrPrepareSg mops.toFpgaManagerOps krealloc mgr info sgt
    with ⟨_ | ret, mgr, info⟩
  · rfl
  · rfl

theorem fpgaMgrBufLoadMapped_eq (mops : FpgaManagerOps Hw)
    (mgr : FpgaManager Hw) (info : FpgaImageInfo)
    (image : List (BitVec 8)) :
    fpgaMgrBufLoadMapped mops mgr info image =
      let parsed := fpgaMgrParseHeaderMapped mops mgr info image
      loadPrepared mops parsed.2.2
        (fun hw => fpgaMgrWrite mops hw
          (imageData mops.skipHeader parsed.2.2 image))
        (match parsed.1 with
        | some ret => (some ret, parsed.2.1)
        | none => fpgaMgrWriteInitBuf mops parsed.2.1 parsed.2.2 image) := by
  unfold fpgaMgrBufLoadMapped
  rcases fpgaMgrParseHeaderMapped mops mgr info image
    with ⟨_ | ret, mgr, info⟩
  · rfl
  · rfl

theorem not_loads_of_fails (mops : FpgaManagerOps Hw)
    (info : FpgaImageInfo) (write : Hw → Option Errno × Hw)
    {init : Option Errno × FpgaManager Hw} (fails : init.1 ≠ none)
    (next : Hw) : ¬ Loads (loadPrepared mops info write init) next := by
  rcases init with ⟨_ | ret, mgr⟩
  · exact absurd rfl fails
  · rintro ⟨succeeds, -⟩
    cases succeeds

section Accepts

variable {sgt : List (List (BitVec 8))} (reads : mops.Reads format)

include reads

/-- A scattered image loads if its header is found and the driver takes it. -/
theorem FpgaManagerSgOps.Reads.loads_sg_iff {krealloc : Nat → Bool}
    (memory : ∀ size, krealloc size = true) (mgr : FpgaManager Hw)
    {info : FpgaImageInfo}
    (initial : info.headerSize = mops.initialHeaderSize)
    (nonempty : sgt.flatten ≠ []) (next : Hw) :
    Loads (fpgaMgrBufLoadSg mops krealloc mgr info sgt) next ↔
      ∃ headerSize dataSize,
        format.parse sgt.flatten = .header headerSize dataSize ∧
          mops.Takes (info.withHeader headerSize dataSize)
            (format.headerCopy sgt)
            (dataFragments mops.skipHeader
              (info.withHeader headerSize dataSize) sgt) mgr.hw next := by
  have prepared := reads.prepareSg_reads memory mgr initial nonempty
  rw [fpgaMgrBufLoadSg_eq]
  by_cases header :
      ∃ headerSize dataSize,
        format.parse sgt.flatten = .header headerSize dataSize
  · obtain ⟨headerSize, dataSize, isHeader⟩ := header
    obtain ⟨isPrepared, within⟩ :=
      prepared.found headerSize dataSize isHeader
    have writes :
        fpgaMgrWriteData mops (info.withHeader headerSize dataSize) sgt = _ :=
      reads.writeData_eq (format.within _ _ _ isHeader)
    rw [isPrepared]
    refine (loads_loadPrepared_iff _ mgr (info.withHeader headerSize dataSize)
      writes within next).trans ⟨fun takes => ?_, ?_⟩
    · exact ⟨headerSize, dataSize, isHeader, takes⟩
    · rintro ⟨_, _, sameHeader, takes⟩
      rw [isHeader] at sameHeader
      cases sameHeader
      exact takes
  · have missing (headerSize dataSize : Nat) :
        format.parse sgt.flatten ≠ .header headerSize dataSize :=
      fun isHeader => header ⟨headerSize, dataSize, isHeader⟩
    constructor
    · intro loads
      exact absurd loads
        (not_loads_of_fails _ _ _ (prepared.missing missing) next)
    · rintro ⟨headerSize, dataSize, isHeader, -⟩
      exact absurd isHeader (missing headerSize dataSize)

/-- An image in a buffer also has to be as long as its header declares. -/
theorem FpgaManagerSgOps.Reads.loads_mapped_iff (mgr : FpgaManager Hw)
    (info : FpgaImageInfo) (image : List (BitVec 8)) (next : Hw) :
    Loads (fpgaMgrBufLoadMapped mops.toFpgaManagerOps mgr info image) next ↔
      ∃ headerSize dataSize,
        format.parse image = .header headerSize dataSize ∧
          (headerSize + dataSize) % 2 ^ 64 ≤ image.length ∧
            mops.Takes (info.withHeader headerSize dataSize) image
              [imageData mops.skipHeader
                (info.withHeader headerSize dataSize) image] mgr.hw next := by
  rw [fpgaMgrBufLoadMapped_eq]
  by_cases accepted :
      ∃ headerSize dataSize,
        format.parse image = .header headerSize dataSize ∧
          (headerSize + dataSize) % 2 ^ 64 ≤ image.length
  · obtain ⟨headerSize, dataSize, isHeader, fits⟩ := accepted
    have parsed :
        fpgaMgrParseHeaderMapped mops.toFpgaManagerOps mgr info image =
          (none, { mgr with state := .parseHeader },
            info.withHeader headerSize dataSize) := by
      have notOutruns :
          ¬ (headerSize + dataSize) % 2 ^ 64 > image.length :=
        Nat.not_lt.mpr fits
      simp only [fpgaMgrParseHeaderMapped, reads.parseHeader,
        HeaderFormat.parseHeader, isHeader, FpgaImageInfo.withHeader,
        if_neg notOutruns]
    rw [parsed]
    refine (loads_loadPrepared_iff _ _ (info.withHeader headerSize dataSize)
      (writeAll_singleton _ _) (format.within _ _ _ isHeader) next).trans
        ⟨fun takes => ?_, ?_⟩
    · exact ⟨headerSize, dataSize, isHeader, fits, takes⟩
    · rintro ⟨_, _, sameHeader, -, takes⟩
      rw [isHeader] at sameHeader
      cases sameHeader
      exact takes
  · have fails :
        (fpgaMgrParseHeaderMapped mops.toFpgaManagerOps mgr info image).1 ≠
          none := by
      intro succeeds
      simp only [fpgaMgrParseHeaderMapped, reads.parseHeader] at succeeds
      split at succeeds
      · cases succeeds
      · rename_i passes
        split at passes
        · cases passes
        · rename_i fits
          simp only [HeaderFormat.parseHeader] at passes fits
          cases answer : format.parse image with
          | more size =>
              rw [answer] at passes
              cases passes
          | invalid ret =>
              rw [answer] at passes
              cases passes
          | header headerSize dataSize =>
              rw [answer] at fits
              exact accepted
                ⟨headerSize, dataSize, answer, Nat.le_of_not_lt fits⟩
    constructor
    · intro loads
      refine absurd loads (not_loads_of_fails _ _ _ ?_ next)
      rcases parsed :
        fpgaMgrParseHeaderMapped mops.toFpgaManagerOps mgr info image
        with ⟨_ | ret, rest⟩
      · rw [parsed] at fails
        exact absurd rfl fails
      · exact Option.some_ne_none ret
    · rintro ⟨headerSize, dataSize, isHeader, fits, -⟩
      exact absurd ⟨headerSize, dataSize, isHeader, fits⟩ accepted

end Accepts

/-! ## What the driver is given -/

/-- A driver's state, with the headers and the data it has been given. -/
structure Recorded (Hw : Type) where
  hw : Hw
  /-- The first `header_size` bytes of each call of `write_init`. -/
  headers : List (List (BitVec 8))
  /-- The bytes handed to `write`, one call after the other. -/
  written : List (BitVec 8)
  deriving DecidableEq, Repr

/-- The driver, which records what it is given. -/
def FpgaManagerSgOps.recorded (mops : FpgaManagerSgOps Hw) :
    FpgaManagerSgOps (Recorded Hw) where
  initialHeaderSize := mops.initialHeaderSize
  skipHeader := mops.skipHeader
  parseHeader := mops.parseHeader.map fun parseHeader info buf log =>
    let parsed := parseHeader info buf log.hw
    (parsed.1, parsed.2.1, { log with hw := parsed.2.2 })
  writeInit := mops.writeInit.map fun writeInit info buf log =>
    let init := writeInit info buf log.hw
    (init.1,
      { log with
        hw := init.2
        headers := log.headers ++ [buf.take info.headerSize] })
  write := mops.write.map fun write buf log =>
    let wrote := write buf log.hw
    (wrote.1, { log with hw := wrote.2, written := log.written ++ buf })
  writeComplete := mops.writeComplete.map fun writeComplete info log =>
    let completed := writeComplete info log.hw
    (completed.1, { log with hw := completed.2 })
  writeSg := mops.writeSg.map fun writeSg sgt log =>
    let wrote := writeSg sgt log.hw
    (wrote.1,
      { log with hw := wrote.2, written := log.written ++ sgt.flatten })

/-- A manager whose driver has not been given anything. -/
def FpgaManager.recorded (mgr : FpgaManager Hw) :
    FpgaManager (Recorded Hw) where
  refMutex := mgr.refMutex
  state := mgr.state
  hw := ⟨mgr.hw, [], []⟩

/-- What is written is recorded. -/
theorem recorded_write_iff (mops : FpgaManagerSgOps Hw)
    (buf : List (BitVec 8)) (log next : Recorded Hw) :
    fpgaMgrWrite mops.recorded.toFpgaManagerOps log buf = (none, next) ↔
      fpgaMgrWrite mops.toFpgaManagerOps log.hw buf = (none, next.hw) ∧
        next.headers = log.headers ∧ next.written = log.written ++ buf := by
  rcases next with ⟨hw, headers, written⟩
  cases write : mops.write with
  | none => simp [fpgaMgrWrite, FpgaManagerSgOps.recorded, write]
  | some writeBuf =>
      simp only [fpgaMgrWrite, FpgaManagerSgOps.recorded, write,
        Option.map_some, Prod.ext_iff, Recorded.mk.injEq]
      tauto

theorem writeAll_cons_iff (mops : FpgaManagerOps Hw)
    (chunk : List (BitVec 8)) (rest : List (List (BitVec 8)))
    (hw next : Hw) :
    mops.writeAll (chunk :: rest) hw = (none, next) ↔
      ∃ between, fpgaMgrWrite mops hw chunk = (none, between) ∧
        mops.writeAll rest between = (none, next) := by
  rw [FpgaManagerOps.writeAll]
  rcases fpgaMgrWrite mops hw chunk with ⟨_ | ret, between⟩ <;> simp

theorem recorded_writeAll_iff (mops : FpgaManagerSgOps Hw)
    (chunks : List (List (BitVec 8))) (log next : Recorded Hw) :
    mops.recorded.writeAll chunks log = (none, next) ↔
      mops.writeAll chunks log.hw = (none, next.hw) ∧
        next.headers = log.headers ∧
          next.written = log.written ++ chunks.flatten := by
  induction chunks generalizing log with
  | nil =>
      rcases log with ⟨hw, headers, written⟩
      rcases next with ⟨hw', headers', written'⟩
      simp only [FpgaManagerOps.writeAll, Prod.mk.injEq, Recorded.mk.injEq,
        List.flatten_nil, List.append_nil, true_and]
      tauto
  | cons chunk rest induction =>
      rw [writeAll_cons_iff, writeAll_cons_iff]
      constructor
      · rintro ⟨between, writes, continues⟩
        rw [recorded_write_iff] at writes
        rw [induction] at continues
        refine ⟨⟨between.hw, writes.1, continues.1⟩, ?_, ?_⟩
        · rw [continues.2.1, writes.2.1]
        · rw [continues.2.2, writes.2.2, List.append_assoc, List.flatten_cons]
      · rintro ⟨⟨between, writes, continues⟩, headers, written⟩
        refine ⟨⟨between, log.headers, log.written ++ chunk⟩, ?_, ?_⟩
        · rw [recorded_write_iff]
          exact ⟨writes, rfl, rfl⟩
        · rw [induction]
          refine ⟨continues, headers, ?_⟩
          rw [written, List.flatten_cons, List.append_assoc]

/-- The headers which a driver is given with this info. -/
def FpgaManagerOps.headersGiven (mops : FpgaManagerOps Hw)
    (info : FpgaImageInfo) (buf : List (BitVec 8)) :
    List (List (BitVec 8)) :=
  if mops.writeInit.isSome then [buf.take info.headerSize] else []

theorem recorded_init_iff (mops : FpgaManagerSgOps Hw)
    (info : FpgaImageInfo) (buf : List (BitVec 8)) (log next : Recorded Hw) :
    mops.recorded.init info buf log = (none, next) ↔
      mops.init info buf log.hw = (none, next.hw) ∧
        next.headers = log.headers ++ mops.headersGiven info buf ∧
          next.written = log.written := by
  rcases log with ⟨hw, headers, written⟩
  rcases next with ⟨hw', headers', written'⟩
  cases writeInit : mops.writeInit with
  | none =>
      simp only [FpgaManagerOps.init, FpgaManagerOps.headersGiven,
        FpgaManagerSgOps.recorded, writeInit, Option.map_none, Prod.mk.injEq,
        Recorded.mk.injEq, Option.isSome_none, Bool.false_eq_true, if_false,
        List.append_nil, true_and]
      tauto
  | some writeInit' =>
      simp only [FpgaManagerOps.init, FpgaManagerOps.headersGiven,
        FpgaManagerSgOps.recorded, writeInit, Option.map_some, Prod.ext_iff,
        Recorded.mk.injEq, Option.isSome_some, if_true]
      tauto

theorem recorded_complete_iff (mops : FpgaManagerSgOps Hw)
    (info : FpgaImageInfo) (log next : Recorded Hw) :
    mops.recorded.complete info log = (none, next) ↔
      mops.complete info log.hw = (none, next.hw) ∧
        next.headers = log.headers ∧ next.written = log.written := by
  rcases log with ⟨hw, headers, written⟩
  rcases next with ⟨hw', headers', written'⟩
  cases writeComplete : mops.writeComplete with
  | none =>
      simp only [FpgaManagerOps.complete, FpgaManagerSgOps.recorded,
        writeComplete, Option.map_none, Prod.mk.injEq, Recorded.mk.injEq,
        true_and]
      tauto
  | some writeComplete' =>
      simp only [FpgaManagerOps.complete, FpgaManagerSgOps.recorded,
        writeComplete, Option.map_some, Prod.ext_iff, Recorded.mk.injEq]
      tauto

/-- Recording changes nothing but what is recorded. -/
theorem recorded_takes_iff (mops : FpgaManagerSgOps Hw)
    (info : FpgaImageInfo) (buf : List (BitVec 8))
    (chunks : List (List (BitVec 8))) (log next : Recorded Hw) :
    mops.recorded.Takes info buf chunks log next ↔
      mops.Takes info buf chunks log.hw next.hw ∧
        next.headers =
            log.headers ++
              mops.headersGiven info
                (if info.headerSize = 0 then [] else buf) ∧
          next.written = log.written ++ chunks.flatten := by
  constructor
  · rintro ⟨ready, written, init, writes, completes⟩
    rw [recorded_init_iff] at init
    rw [recorded_writeAll_iff] at writes
    rw [recorded_complete_iff] at completes
    refine ⟨⟨ready.hw, written.hw, init.1, writes.1, completes.1⟩, ?_, ?_⟩
    · rw [completes.2.1, writes.2.1, init.2.1]
    · rw [completes.2.2, writes.2.2, init.2.2]
  · rintro ⟨⟨ready, written, init, writes, completes⟩, headers, data⟩
    refine ⟨⟨ready, next.headers, log.written⟩,
      ⟨written, next.headers, next.written⟩, ?_, ?_, ?_⟩
    · rw [recorded_init_iff]
      exact ⟨init, headers, rfl⟩
    · rw [recorded_writeAll_iff]
      exact ⟨writes, rfl, data⟩
    · rw [recorded_complete_iff]
      exact ⟨completes, rfl, rfl⟩

theorem recorded_accepts_iff (mops : FpgaManagerSgOps Hw)
    (info : FpgaImageInfo) (buf : List (BitVec 8))
    (chunks : List (List (BitVec 8))) (log : Recorded Hw) :
    mops.recorded.Accepts info buf chunks log ↔
      mops.Accepts info buf chunks log.hw := by
  constructor
  · rintro ⟨next, takes⟩
    exact ⟨next.hw, (recorded_takes_iff mops _ _ _ _ _).mp takes |>.1⟩
  · rintro ⟨next, takes⟩
    exact ⟨⟨next, _, _⟩,
      (recorded_takes_iff mops _ _ _ _ _).mpr ⟨takes, rfl, rfl⟩⟩

theorem FpgaManagerSgOps.Reads.recorded (reads : mops.Reads format) :
    mops.recorded.Reads format where
  initialHeaderSize := reads.initialHeaderSize
  parseHeader := by
    simp only [FpgaManagerSgOps.recorded, reads.parseHeader,
      Option.map_some, Option.some.injEq]
    funext info buf log
    simp only [HeaderFormat.parseHeader]
    cases format.parse buf <;> rfl
  writeSg := by simp [FpgaManagerSgOps.recorded, reads.writeSg]

/-! ## The two ways agree -/

/-- The header declares more than the image has. -/
def HeaderFormat.Outruns (format : HeaderFormat)
    (image : List (BitVec 8)) : Prop :=
  ∃ headerSize dataSize,
    format.parse image = .header headerSize dataSize ∧
      image.length < headerSize + dataSize

/-- Both loads accept the image, and give the driver the same, or neither. -/
structure SameLoad
    (sg mapped :
      Option Errno × FpgaManager (Recorded Hw) × FpgaImageInfo) :
    Prop where
  accepts : sg.1 = none ↔ mapped.1 = none
  operating : sg.1 = none →
    sg.2.1.state = .operating ∧ mapped.2.1.state = .operating
  headers : sg.1 = none → sg.2.1.hw.headers = mapped.2.1.hw.headers
  written : sg.1 = none → sg.2.1.hw.written = mapped.2.1.hw.written

/--
To the driver the image is the same in fragments as in one piece, and it refuses
one which is shorter than its header declares: in fragments always, and in one
piece where the sum of the sizes does not tell.
-/
def FpgaManagerSgOps.Indifferent (mops : FpgaManagerSgOps Hw)
    (format : HeaderFormat) (info : FpgaImageInfo)
    (sgt : List (List (BitVec 8))) (hw : Hw) : Prop :=
  ∀ headerSize dataSize,
    format.parse sgt.flatten = .header headerSize dataSize →
      let info := info.withHeader headerSize dataSize
      let inFragments :=
        mops.Accepts info (format.headerCopy sgt)
          (dataFragments mops.skipHeader info sgt) hw
      let inOnePiece :=
        mops.Accepts info sgt.flatten
          [imageData mops.skipHeader info sgt.flatten] hw
      if headerSize + dataSize ≤ sgt.flatten.length then
        inFragments ↔ inOnePiece
      else
        ¬ inFragments ∧
          ((headerSize + dataSize) % 2 ^ 64 ≤ sgt.flatten.length →
            ¬ inOnePiece)

/--
Two ways to load an image, of which one looks at the sum of the sizes, accept
the same images and none which is too short, exactly if what they ask of the
driver agrees where the image is long enough, and fails elsewhere.
-/
theorem HeaderFormat.accept_alike_iff (format : HeaderFormat)
    {image : List (BitVec 8)} {sg mapped : Prop}
    {inFragments inOnePiece : Nat → Nat → Prop}
    (sgAccepted :
      sg ↔ ∃ headerSize dataSize,
        format.parse image = .header headerSize dataSize ∧
          inFragments headerSize dataSize)
    (mappedAccepted :
      mapped ↔ ∃ headerSize dataSize,
        format.parse image = .header headerSize dataSize ∧
          (headerSize + dataSize) % 2 ^ 64 ≤ image.length ∧
            inOnePiece headerSize dataSize) :
    ((sg ↔ mapped) ∧ (format.Outruns image → ¬ sg ∧ ¬ mapped)) ↔
      ∀ headerSize dataSize,
        format.parse image = .header headerSize dataSize →
          if headerSize + dataSize ≤ image.length then
            inFragments headerSize dataSize ↔ inOnePiece headerSize dataSize
          else
            ¬ inFragments headerSize dataSize ∧
              ((headerSize + dataSize) % 2 ^ 64 ≤ image.length →
                ¬ inOnePiece headerSize dataSize) := by
  unfold HeaderFormat.Outruns
  rw [sgAccepted, mappedAccepted]
  cases format.parse image with
  | more size => simp
  | invalid ret => simp
  | header headerSize dataSize =>
      have header (P : Nat → Nat → Prop) :
          (∃ size data, HeaderAnswer.header headerSize dataSize =
              .header size data ∧ P size data) ↔ P headerSize dataSize := by
        simp
      rw [header, header, header]
      constructor
      · rintro ⟨same, rejects⟩ _ _ ⟨⟩
        split_ifs with inside
        · have fits := (Nat.mod_le (headerSize + dataSize) (2 ^ 64)).trans inside
          exact same.trans (and_iff_right fits)
        · obtain ⟨sgRejects, mappedRejects⟩ :=
            rejects (Nat.lt_of_not_le inside)
          exact ⟨sgRejects, not_and.mp mappedRejects⟩
      · intro agree
        have agrees := agree _ _ rfl
        split_ifs at agrees with inside
        · have fits := (Nat.mod_le (headerSize + dataSize) (2 ^ 64)).trans inside
          exact ⟨agrees.trans (and_iff_right fits).symm, fun exceeds =>
            absurd exceeds (Nat.not_lt.mpr inside)⟩
        · have rejects := And.intro agrees.1 (not_and.mpr agrees.2)
          exact ⟨iff_of_false rejects.1 rejects.2, fun _ => rejects⟩

theorem loads_of_accepted_sg (mops : FpgaManagerSgOps Hw)
    (krealloc : Nat → Bool) (mgr : FpgaManager Hw) (info : FpgaImageInfo)
    (sgt : List (List (BitVec 8)))
    (accepted : (fpgaMgrBufLoadSg mops krealloc mgr info sgt).1 = none) :
    Loads (fpgaMgrBufLoadSg mops krealloc mgr info sgt)
      (fpgaMgrBufLoadSg mops krealloc mgr info sgt).2.1.hw := by
  refine ⟨accepted, ?_, rfl⟩
  rw [fpgaMgrBufLoadSg_eq] at accepted ⊢
  exact loadPrepared_operating _ _ _ _ accepted

theorem loads_of_accepted_mapped (mops : FpgaManagerOps Hw)
    (mgr : FpgaManager Hw) (info : FpgaImageInfo)
    (image : List (BitVec 8))
    (accepted : (fpgaMgrBufLoadMapped mops mgr info image).1 = none) :
    Loads (fpgaMgrBufLoadMapped mops mgr info image)
      (fpgaMgrBufLoadMapped mops mgr info image).2.1.hw := by
  refine ⟨accepted, ?_, rfl⟩
  rw [fpgaMgrBufLoadMapped_eq] at accepted ⊢
  exact loadPrepared_operating _ _ _ _ accepted

/-- The bytes in which the header is found begin as the image does. -/
theorem HeaderFormat.take_headerCopy (format : HeaderFormat)
    (sgt : List (List (BitVec 8))) {size : Nat}
    (within : size ≤ (format.headerCopy sgt).length) :
    (format.headerCopy sgt).take size = sgt.flatten.take size := by
  unfold headerCopy at within ⊢
  split_ifs at within ⊢ with more
  · rw [List.length_take] at within
    rw [List.take_take, Nat.min_eq_left (by omega)]
  · cases sgt with
    | nil => rfl
    | cons fragment rest =>
        rw [List.headD_cons] at within ⊢
        rw [List.flatten_cons, List.take_append_of_le_length within]

/-- A driver is given the same header from the copy as from the image. -/
theorem headersGiven_headerCopy (mops : FpgaManagerOps Hw)
    (format : HeaderFormat) {info : FpgaImageInfo}
    {sgt : List (List (BitVec 8))}
    (within : info.headerSize ≤ (format.headerCopy sgt).length) :
    mops.headersGiven info
        (if info.headerSize = 0 then [] else format.headerCopy sgt) =
      mops.headersGiven info
        (if info.headerSize = 0 then [] else sgt.flatten) := by
  unfold FpgaManagerOps.headersGiven
  by_cases empty : info.headerSize = 0
  · rw [if_pos empty, if_pos empty]
  · rw [if_neg empty, if_neg empty, format.take_headerCopy sgt within]

section Agreement

variable {sgt : List (List (BitVec 8))} (reads : mops.Reads format)

include reads

theorem FpgaManagerSgOps.Reads.accepted_sg_iff {krealloc : Nat → Bool}
    (memory : ∀ size, krealloc size = true) (mgr : FpgaManager Hw)
    {info : FpgaImageInfo}
    (initial : info.headerSize = mops.initialHeaderSize)
    (nonempty : sgt.flatten ≠ []) :
    (fpgaMgrBufLoadSg mops krealloc mgr info sgt).1 = none ↔
      ∃ headerSize dataSize,
        format.parse sgt.flatten = .header headerSize dataSize ∧
          mops.Accepts (info.withHeader headerSize dataSize)
            (format.headerCopy sgt)
            (dataFragments mops.skipHeader
              (info.withHeader headerSize dataSize) sgt) mgr.hw := by
  have loads (next : Hw) :=
    reads.loads_sg_iff memory mgr initial nonempty next
  constructor
  · intro accepted
    obtain ⟨headerSize, dataSize, isHeader, takes⟩ :=
      (loads _).mp (loads_of_accepted_sg mops krealloc mgr info sgt accepted)
    exact ⟨headerSize, dataSize, isHeader, _, takes⟩
  · rintro ⟨headerSize, dataSize, isHeader, next, takes⟩
    exact ((loads next).mpr ⟨headerSize, dataSize, isHeader, takes⟩).1

theorem FpgaManagerSgOps.Reads.accepted_mapped_iff (mgr : FpgaManager Hw)
    (info : FpgaImageInfo) (image : List (BitVec 8)) :
    (fpgaMgrBufLoadMapped mops.toFpgaManagerOps mgr info image).1 = none ↔
      ∃ headerSize dataSize,
        format.parse image = .header headerSize dataSize ∧
          (headerSize + dataSize) % 2 ^ 64 ≤ image.length ∧
            mops.Accepts (info.withHeader headerSize dataSize) image
              [imageData mops.skipHeader
                (info.withHeader headerSize dataSize) image] mgr.hw := by
  have loads (next : Hw) := reads.loads_mapped_iff mgr info image next
  constructor
  · intro accepted
    obtain ⟨headerSize, dataSize, isHeader, fits, takes⟩ :=
      (loads _).mp
        (loads_of_accepted_mapped mops.toFpgaManagerOps mgr info image
          accepted)
    exact ⟨headerSize, dataSize, isHeader, fits, _, takes⟩
  · rintro ⟨headerSize, dataSize, isHeader, fits, next, takes⟩
    exact ((loads next).mpr ⟨headerSize, dataSize, isHeader, fits, takes⟩).1

/-- The header lies in the bytes in which it is found. -/
theorem FpgaManagerSgOps.Reads.within_headerCopy {krealloc : Nat → Bool}
    (memory : ∀ size, krealloc size = true) (mgr : FpgaManager Hw)
    {info : FpgaImageInfo}
    (initial : info.headerSize = mops.initialHeaderSize)
    (nonempty : sgt.flatten ≠ []) {headerSize dataSize : Nat}
    (isHeader : format.parse sgt.flatten = .header headerSize dataSize) :
    headerSize ≤ (format.headerCopy sgt).length :=
  ((reads.prepareSg_reads memory mgr initial nonempty).found
    headerSize dataSize isHeader).2

/-- What the driver has been given, if both ways are accepted. -/
theorem FpgaManagerSgOps.Reads.given_alike {krealloc : Nat → Bool}
    (memory : ∀ size, krealloc size = true) (mgr : FpgaManager Hw)
    {info : FpgaImageInfo}
    (initial : info.headerSize = mops.initialHeaderSize)
    (nonempty : sgt.flatten ≠ []) {log log' : Recorded Hw}
    (fromSg :
      Loads (fpgaMgrBufLoadSg mops.recorded krealloc mgr.recorded info sgt)
        log)
    (fromMapped :
      Loads
        (fpgaMgrBufLoadMapped mops.recorded.toFpgaManagerOps mgr.recorded
          info sgt.flatten) log') :
    log.headers = log'.headers ∧ log.written = log'.written := by
  obtain ⟨headerSize, dataSize, isHeader, takes⟩ :=
    (reads.recorded.loads_sg_iff memory mgr.recorded initial nonempty
      log).mp fromSg
  obtain ⟨otherSize, otherData, isOther, -, takes'⟩ :=
    (reads.recorded.loads_mapped_iff mgr.recorded info sgt.flatten
      log').mp fromMapped
  cases isHeader.symm.trans isOther
  obtain ⟨-, headers, written⟩ := (recorded_takes_iff mops _ _ _ _ _).mp takes
  obtain ⟨-, headers', written'⟩ :=
    (recorded_takes_iff mops _ _ _ _ _).mp takes'
  have within :=
    reads.within_headerCopy memory mgr initial nonempty isHeader
  constructor
  · rw [headers, headers']
    exact congrArg _ (headersGiven_headerCopy _ format within)
  · have data :
        (dataFragments mops.skipHeader
          (info.withHeader headerSize dataSize) sgt).flatten = _ :=
      flatten_dataFragments _ (format.within _ _ _ isHeader)
    rw [written, written', List.flatten_singleton]
    exact congrArg _ data

end Agreement

/--
A driver which takes its data in chunks of any size, and which prepares with no
more than the header.
-/
structure FpgaManagerSgOps.Streams (mops : FpgaManagerSgOps Hw)
    (format : HeaderFormat) : Prop extends mops.Reads format where
  init : ∀ info buf hw, info.headerSize ≤ buf.length →
    mops.init info buf hw = mops.init info (buf.take info.headerSize) hw
  write_nil : ∀ hw,
    fpgaMgrWrite mops.toFpgaManagerOps hw [] = (none, hw)
  write_append : ∀ first second hw next,
    fpgaMgrWrite mops.toFpgaManagerOps hw (first ++ second) = (none, next) ↔
      ∃ between,
        fpgaMgrWrite mops.toFpgaManagerOps hw first = (none, between) ∧
          fpgaMgrWrite mops.toFpgaManagerOps between second = (none, next)

/-- Chunks are written as their bytes in one piece are. -/
theorem FpgaManagerSgOps.Streams.writeAll_iff (streams : mops.Streams format)
    (chunks : List (List (BitVec 8))) (hw next : Hw) :
    mops.writeAll chunks hw = (none, next) ↔
      fpgaMgrWrite mops.toFpgaManagerOps hw chunks.flatten =
        (none, next) := by
  induction chunks generalizing hw with
  | nil => rw [List.flatten_nil, streams.write_nil, FpgaManagerOps.writeAll]
  | cons chunk rest induction =>
      rw [writeAll_cons_iff, List.flatten_cons, streams.write_append]
      simp only [induction]

/-- It makes no difference to such a driver how an image is given. -/
theorem FpgaManagerSgOps.Streams.takes_iff (streams : mops.Streams format)
    {info : FpgaImageInfo} {buf buf' : List (BitVec 8)}
    {chunks chunks' : List (List (BitVec 8))}
    (within : info.headerSize ≤ buf.length)
    (within' : info.headerSize ≤ buf'.length)
    (headers : buf.take info.headerSize = buf'.take info.headerSize)
    (data : chunks.flatten = chunks'.flatten) (hw next : Hw) :
    mops.Takes info buf chunks hw next ↔
      mops.Takes info buf' chunks' hw next := by
  have init :
      mops.init info (if info.headerSize = 0 then [] else buf) hw =
        mops.init info (if info.headerSize = 0 then [] else buf') hw := by
    by_cases empty : info.headerSize = 0
    · rw [if_pos empty, if_pos empty]
    · rw [if_neg empty, if_neg empty, streams.init _ _ _ within,
        streams.init _ _ _ within', headers]
  simp only [FpgaManagerOps.Takes, init, streams.writeAll_iff, data]

/-- Such a driver only has to refuse images shorter than they declare. -/
theorem FpgaManagerSgOps.Streams.indifferent_iff
    (streams : mops.Streams format) {info : FpgaImageInfo}
    {sgt : List (List (BitVec 8))} {hw : Hw}
    (initial : info.headerSize = mops.initialHeaderSize)
    (nonempty : sgt.flatten ≠ []) :
    mops.Indifferent format info sgt hw ↔
      ∀ headerSize dataSize,
        format.parse sgt.flatten = .header headerSize dataSize →
          mops.Accepts (info.withHeader headerSize dataSize) sgt.flatten
              [imageData mops.skipHeader
                (info.withHeader headerSize dataSize) sgt.flatten] hw →
            headerSize + dataSize ≤ sgt.flatten.length := by
  refine forall_congr' fun headerSize => forall_congr' fun dataSize =>
    forall_congr' fun isHeader => ?_
  have memory (size : Nat) : (fun _ : Nat => true) size = true := rfl
  have within :=
    streams.toReads.within_headerCopy memory ⟨0, .unknown, hw⟩ initial
      nonempty isHeader
  have alike :
      mops.Accepts (info.withHeader headerSize dataSize)
          (format.headerCopy sgt)
          (dataFragments mops.skipHeader
            (info.withHeader headerSize dataSize) sgt) hw ↔
        mops.Accepts (info.withHeader headerSize dataSize) sgt.flatten
          [imageData mops.skipHeader
            (info.withHeader headerSize dataSize) sgt.flatten] hw := by
    refine exists_congr fun next => ?_
    refine streams.takes_iff within (format.within _ _ _ isHeader)
      (format.take_headerCopy sgt within) ?_ hw next
    rw [List.flatten_singleton]
    exact flatten_dataFragments _ (format.within _ _ _ isHeader)
  dsimp only
  split_ifs with inside
  · simp only [alike, inside, implies_true]
  · simp only [alike, inside, imp_false]
    tauto

/-- Images whose first byte is the size of the data behind it. -/
def sizedFormat : HeaderFormat where
  initialHeaderSize := 1
  parse
    | [] => .more 1
    | size :: _ => .header 1 size.toNat
  initial buf short := by
    cases buf with
    | nil => exact ⟨1, rfl⟩
    | cons size rest => simp at short
  asks buf size more := by
    cases buf with
    | nil =>
        cases more
        exact Nat.zero_lt_one
    | cons first rest => cases more
  insists buf rest size more short := by
    cases buf with
    | nil =>
        cases more
        cases rest with
        | nil => exact ⟨1, rfl⟩
        | cons first rest => simp at short
    | cons first rest => cases more
  settled buf rest answers := by
    cases buf with
    | nil => exact absurd rfl (answers 1)
    | cons size others => rfl
  within buf headerSize dataSize isHeader := by
    cases buf with
    | nil => cases isHeader
    | cons size rest =>
        cases isHeader
        exact Nat.le_add_left 1 rest.length
  invalid buf ret isInvalid := by
    cases buf with
    | nil => cases isInvalid
    | cons size rest => cases isInvalid

/-- A driver of such images which takes whatever it is given. -/
def sizedDriver : FpgaManagerSgOps Unit where
  initialHeaderSize := 1
  skipHeader := true
  parseHeader := some sizedFormat.parseHeader
  writeInit := none
  write := some fun _ hw => (none, hw)
  writeComplete := none
  writeSg := none

theorem streams_sizedDriver : sizedDriver.Streams sizedFormat where
  initialHeaderSize := rfl
  parseHeader := rfl
  writeSg := rfl
  init _ _ _ _ := rfl
  write_nil _ := rfl
  write_append first second hw next := by
    constructor
    · intro _
      exact ⟨(), rfl, rfl⟩
    · intro _
      rfl

/-- The info of an image before its header is read. -/
def sizedInfo : FpgaImageInfo where
  ident := 0
  partialReconfig := false
  regionId := 0
  headerSize := 1
  dataSize := 0
  buf := []

def idleManager : FpgaManager Unit := ⟨0, .unknown, ()⟩

end LinuxDfl.Fpga

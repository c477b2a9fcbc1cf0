import LinuxDfl.Fpga.LoadAgreement
import LinuxDfl.Lib.Padding

/-!
# Drivers which write words

Three drivers push the image into a data register of 32 bits.  What does not
fill a word at the end of a buffer is filled up with zeros, and the manager
hands a scattered image over fragment by fragment.
-/

namespace LinuxDfl.Fpga.WordWriter

open LinuxDfl.Kernel
open LinuxDfl.Lib.LittleEndian

/-! ## The drivers -/

/-- What has been written to the data register, and everything else. -/
structure Port (Hw : Type) where
  written : List (BitVec 32)
  hw : Hw

/-- What the drivers meet outside of the functions which write data. -/
structure Platform (Hw : Type) where
  /-- The memory behind a buffer. -/
  beyond : List Byte → Nat → Byte
  /-- The control and status register of the PR IP core is read. -/
  csr : Hw → BitVec 32 × Hw
  /-- `write_init` and `write_complete` leave the data register alone. -/
  writeInit : FpgaImageInfo → List Byte → Hw → Option Errno × Hw
  writeComplete : FpgaImageInfo → Hw → Option Errno × Hw

variable {Hw : Type} (platform : Platform Hw)

/-- The four bytes of memory which make a word. -/
def loaded (buf : List Byte) (i : Nat) : List Byte :=
  (List.range 4).map fun byte =>
    (buf[4 * i + byte]?).getD (platform.beyond buf (4 * i + byte))

/-- `buffer_32[i]` -/
def buffer32 (buf : List Byte) (i : Nat) : BitVec 32 :=
  BitVec.ofNat 32 (ofBytes (loaded platform buf i))

/-- The loop of all three functions, and the `switch` behind it. -/
def writeWords (load : Nat → BitVec 32) (count i : Nat) :
    Option Errno × List (BitVec 32) :=
  if 4 ≤ count then
    let rest := writeWords load (count - 4) (i + 1)
    (rest.1, load i :: rest.2)
  else
    match count with
    | 3 => (none, [load i &&& 0x00ffffff])
    | 2 => (none, [load i &&& 0x0000ffff])
    | 1 => (none, [load i &&& 0x000000ff])
    | 0 => (none, [])
    | _ => (some .efault, [])

/-- What the functions share; `check` is what they do behind the words. -/
def writeBuffer (check : Hw → Option Errno × Hw) (buf : List Byte)
    (port : Port Hw) : Option Errno × Port Hw :=
  if buf.length ≤ 0 then
    (some .einval, port)
  else
    let pushed := writeWords (buffer32 platform buf) buf.length 0
    let written := port.written ++ pushed.2
    match pushed.1 with
    | some ret => (some ret, { port with written })
    | none =>
        let checked := check port.hw
        (checked.1, { written, hw := checked.2 })

/-- `socfpga_fpga_ops_configure_write` -/
def socfpgaFpgaOpsConfigureWrite (buf : List Byte) (port : Port Hw) :
    Option Errno × Port Hw :=
  writeBuffer platform (fun hw => (none, hw)) buf port

/-- `socfpga_a10_fpga_write` -/
def socfpgaA10FpgaWrite (buf : List Byte) (port : Port Hw) :
    Option Errno × Port Hw :=
  writeBuffer platform (fun hw => (none, hw)) buf port

/-- The states which `alt_pr_fpga_state` tells apart. -/
inductive AltPrStates where
  | unknown
  | reset
  | write
  | writeErr
  | operating
  deriving DecidableEq, Repr

/-- `ALT_PR_CSR_STATUS_MSK` -/
def altPrCsrStatusMsk : BitVec 32 := 7 <<< 2

/-- `alt_pr_fpga_state`, for a value of its register -/
def altPrFpgaState (val : BitVec 32) : AltPrStates :=
  match (val &&& altPrCsrStatusMsk).toNat >>> 2 with
  | 0 => .reset
  | 1 => .writeErr
  | 2 => .writeErr
  | 3 => .writeErr
  | 4 => .write
  | 5 => .operating
  | _ => .unknown

/-- `alt_pr_fpga_write` -/
def altPrFpgaWrite (buf : List Byte) (port : Port Hw) :
    Option Errno × Port Hw :=
  writeBuffer platform
    (fun hw =>
      let read := platform.csr hw
      (if altPrFpgaState read.1 = .writeErr then some .eio else none, read.2))
    buf port

/-- The drivers. -/
inductive WordDriver where
  | socfpga
  | socfpgaA10
  | alteraPrIpCore
  deriving DecidableEq, Repr

/-- `RBF_DECOMPRESS_OFFSET` -/
def rbfDecompressOffset : Nat := 229

def WordDriver.initialHeaderSize : WordDriver → Nat
  | .socfpga => 0
  | .socfpgaA10 => (rbfDecompressOffset + 1) * 4
  | .alteraPrIpCore => 0

def WordDriver.write : WordDriver → List Byte → Port Hw →
    Option Errno × Port Hw
  | .socfpga => socfpgaFpgaOpsConfigureWrite platform
  | .socfpgaA10 => socfpgaA10FpgaWrite platform
  | .alteraPrIpCore => altPrFpgaWrite platform

/-- An operation which leaves the data register alone. -/
def Port.apply (port : Port Hw) (operation : Hw → Option Errno × Hw) :
    Option Errno × Port Hw :=
  ((operation port.hw).1, { port with hw := (operation port.hw).2 })

/-- `socfpga_fpga_ops`, `socfpga_a10_fpga_mgr_ops` and `alt_pr_ops` -/
def WordDriver.mops (driver : WordDriver) : FpgaManagerSgOps (Port Hw) where
  initialHeaderSize := driver.initialHeaderSize
  skipHeader := false
  parseHeader := none
  writeInit :=
    some fun info buf port => port.apply (platform.writeInit info buf)
  write := some (driver.write platform)
  writeComplete :=
    some fun info port => port.apply (platform.writeComplete info)
  writeSg := none

/-! ## One buffer -/

/-- The words of a buffer, the last one filled up with zeros. -/
def wordsOf (buf : List Byte) : List (BitVec 32) :=
  (words 4 buf).map (BitVec.ofNat 32)

/-- The loaded bytes begin with those of the buffer. -/
theorem loaded_take (buf : List Byte) (i : Nat) :
    (loaded platform buf i).take (buf.length - 4 * i) =
      (buf.drop (4 * i)).take 4 := by
  apply List.ext_getElem?
  intro byte
  rw [List.getElem?_take, List.getElem?_take, List.getElem?_drop, loaded,
    List.getElem?_map]
  by_cases inBuffer : byte < buf.length - 4 * i
  · have inside : 4 * i + byte < buf.length := by omega
    by_cases inWord : byte < 4
    · simp [inBuffer, inWord, inside]
    · simp [inBuffer, inWord]
  · have outside : buf.length ≤ 4 * i + byte := by omega
    simp [inBuffer, outside]

/-- Four bytes of the buffer make a word of it. -/
theorem buffer32_of_room {buf : List Byte} {i : Nat}
    (room : 4 ≤ buf.length - 4 * i) :
    buffer32 platform buf i =
      BitVec.ofNat 32 (ofBytes ((buf.drop (4 * i)).take 4)) := by
  have length : (loaded platform buf i).length = 4 := by
    simp [loaded]
  rw [buffer32, ← loaded_take platform, List.take_of_length_le (by omega)]

/-- Of a word behind the end, a mask leaves what is in the buffer. -/
theorem buffer32_masked {buf : List Byte} {i count : Nat}
    (remains : buf.length - 4 * i = count) (short : count < 4) :
    buffer32 platform buf i &&& BitVec.ofNat 32 (256 ^ count - 1) =
      BitVec.ofNat 32 (ofBytes (buf.drop (4 * i))) := by
  have rest : (loaded platform buf i).take count = buf.drop (4 * i) := by
    rw [← remains, loaded_take, List.take_of_length_le]
    rw [List.length_drop]
    omega
  have value : ofBytes (loaded platform buf i) < 2 ^ 32 := by
    refine (ofBytes_lt _).trans_eq ?_
    simp [loaded]
  have small : 256 ^ count ≤ 256 ^ 3 :=
    Nat.pow_le_pow_right (by decide) (by omega)
  have mask : 256 ^ count - 1 < 2 ^ 32 := by omega
  have power : 256 ^ count = 2 ^ (8 * count) := by
    rw [Nat.pow_mul]
  rw [← rest, ← ofBytes_mod, buffer32]
  apply BitVec.eq_of_toNat_eq
  rw [BitVec.toNat_and, BitVec.toNat_ofNat, BitVec.toNat_ofNat,
    BitVec.toNat_ofNat, Nat.mod_eq_of_lt value, Nat.mod_eq_of_lt mask,
    Nat.mod_eq_of_lt ((Nat.mod_le _ _).trans_lt value), power,
    Nat.and_two_pow_sub_one_eq_mod]

/-- What is pushed are the words of the buffer. -/
theorem writeWords_buffer32 (buf : List Byte) (count i : Nat)
    (remains : buf.length - 4 * i = count) :
    writeWords (buffer32 platform buf) count i =
      (none, wordsOf (buf.drop (4 * i))) := by
  induction count using Nat.strong_induction_on generalizing i with
  | _ count ih =>
      have length : (buf.drop (4 * i)).length = count := by
        rw [List.length_drop, remains]
      unfold writeWords
      split
      case isTrue long =>
        have next : buf.length - 4 * (i + 1) = count - 4 := by omega
        have behind : (buf.drop (4 * i)).drop 4 = buf.drop (4 * (i + 1)) := by
          rw [List.drop_drop, Nat.mul_succ]
        have first := buffer32_of_room platform (remains.symm ▸ long)
        have split : words 4 (buf.drop (4 * i)) =
            ofBytes ((buf.drop (4 * i)).take 4) ::
              words 4 ((buf.drop (4 * i)).drop 4) :=
          words_cons (by decide) (by omega)
        rw [ih (count - 4) (by omega) (i + 1) next, first, wordsOf, wordsOf,
          split, behind]
        rfl
      case isFalse short =>
        have masked := buffer32_masked platform remains (by omega)
        have single (some : 0 < count) :
            wordsOf (buf.drop (4 * i)) =
              [BitVec.ofNat 32 (ofBytes (buf.drop (4 * i)))] := by
          rw [wordsOf, words_of_length_le (by omega) (by omega)]
          rfl
        match count, short, masked, single, length with
        | 0, _, _, _, length =>
            rw [List.length_eq_zero_iff.mp length]
            rfl
        | 1, _, masked, single, _ =>
            rw [single (by decide), ← masked]
            rfl
        | 2, _, masked, single, _ =>
            rw [single (by decide), ← masked]
            rfl
        | 3, _, masked, single, _ =>
            rw [single (by decide), ← masked]
            rfl
        | count + 4, short, _, _, _ => omega

/-- What becomes of a buffer with something in it. -/
theorem writeBuffer_of_nonempty {check : Hw → Option Errno × Hw}
    {buf : List Byte} (nonempty : buf ≠ []) (port : Port Hw) :
    writeBuffer platform check buf port =
      ((check port.hw).1,
        { written := port.written ++ wordsOf buf, hw := (check port.hw).2 }) := by
  have positive := List.length_pos_iff.mpr nonempty
  have pushed := writeWords_buffer32 platform buf buf.length 0 (by omega)
  rw [Nat.mul_zero, List.drop_zero] at pushed
  unfold writeBuffer
  rw [if_neg (Nat.not_le.mpr positive), pushed]

/-- A write which succeeds has pushed the words of its buffer. -/
theorem writeBuffer_succeeds {check : Hw → Option Errno × Hw}
    {buf : List Byte} {port : Port Hw}
    (succeeds : (writeBuffer platform check buf port).1 = none) :
    (writeBuffer platform check buf port).2.written =
      port.written ++ wordsOf buf := by
  by_cases empty : buf = []
  · subst empty
    cases succeeds
  · rw [writeBuffer_of_nonempty platform empty]

theorem WordDriver.write_succeeds {driver : WordDriver} {buf : List Byte}
    {port : Port Hw} (succeeds : (driver.write platform buf port).1 = none) :
    (driver.write platform buf port).2.written =
      port.written ++ wordsOf buf := by
  cases driver <;> exact writeBuffer_succeeds platform succeeds

/-! ## The manager -/

/-- The buffers which the loop over the fragments hands to the driver. -/
def pieces (dataSize : Nat) : List (List Byte) → Nat → List (List Byte)
  | [], _ => []
  | fragment :: rest, count =>
      let length :=
        if dataSize ≠ 0 then min fragment.length (dataSize - count)
        else fragment.length
      fragment.take length ::
        if dataSize ≠ 0 ∧ dataSize ≤ count + length then []
        else pieces dataSize rest (count + length)

/-- Without a size of the data, they are the fragments. -/
theorem pieces_zero (sgt : List (List Byte)) (count : Nat) :
    pieces 0 sgt count = sgt := by
  induction sgt generalizing count with
  | nil => rfl
  | cons fragment rest ih => simp [pieces, ih]

/-- Together they are the data of the image. -/
theorem flatten_pieces {dataSize : Nat} (sgt : List (List Byte)) {count : Nat}
    (below : dataSize ≠ 0 → count < dataSize) :
    (pieces dataSize sgt count).flatten =
      if dataSize ≠ 0 then sgt.flatten.take (dataSize - count)
      else sgt.flatten := by
  by_cases unlimited : dataSize = 0
  · subst unlimited
    rw [pieces_zero, if_neg (not_not.mpr rfl)]
  · rw [if_pos unlimited]
    have room := below unlimited
    clear below
    induction sgt generalizing count with
    | nil => rw [pieces, List.flatten_nil, List.take_nil]
    | cons fragment rest ih =>
        simp only [pieces, ne_eq, unlimited, not_false_eq_true, if_true,
          true_and, List.flatten_cons]
        by_cases last : dataSize - count ≤ fragment.length
        · have reached : dataSize ≤ count + (dataSize - count) := by omega
          rw [Nat.min_eq_right last, if_pos reached, List.flatten_nil,
            List.append_nil, List.take_append_of_le_length last]
        · have shorter : fragment.length ≤ dataSize - count := by omega
          have remains : ¬ dataSize ≤ count + fragment.length := by omega
          rw [Nat.min_eq_left shorter, if_neg remains, ih (by omega),
            List.take_length, List.take_append,
            List.take_of_length_le shorter, Nat.sub_add_eq]

section Load

variable (driver : WordDriver)

/-- The data register after a result of the manager. -/
def writtenBy (result : Option Errno × FpgaManager (Port Hw) × FpgaImageInfo) :
    List (BitVec 32) :=
  result.2.1.hw.written

theorem fpgaMgrWrite_succeeds {buf : List Byte} {port next : Port Hw}
    (writes : fpgaMgrWrite (driver.mops platform).toFpgaManagerOps port buf =
      (none, next)) :
    next.written = port.written ++ wordsOf buf := by
  have result : driver.write platform buf port = (none, next) := writes
  have succeeds := WordDriver.write_succeeds platform
    (congrArg Prod.fst result)
  rwa [result] at succeeds

/-- A loop which succeeds has pushed the words of each piece. -/
theorem writeFragments_succeeds {dataSize : Nat} (sgt : List (List Byte))
    {count : Nat} {port next : Port Hw}
    (writes : fpgaMgrWriteFragments (driver.mops platform).toFpgaManagerOps
      dataSize sgt count port = (none, next)) :
    next.written =
      port.written ++ (pieces dataSize sgt count).flatMap wordsOf := by
  induction sgt generalizing count port with
  | nil =>
      cases writes
      rw [pieces, List.flatMap_nil, List.append_nil]
  | cons fragment rest ih =>
      simp only [fpgaMgrWriteFragments] at writes
      simp only [pieces]
      generalize (if dataSize ≠ 0 then min fragment.length (dataSize - count)
        else fragment.length) = length at writes ⊢
      cases wrote : fpgaMgrWrite (driver.mops platform).toFpgaManagerOps port
          (fragment.take length) with
      | mk ret between =>
          rw [wrote] at writes
          cases ret with
          | some ret => cases writes
          | none =>
              have pushed := fpgaMgrWrite_succeeds platform driver wrote
              simp only at writes
              rw [List.flatMap_cons, ← List.append_assoc, ← pushed]
              split
              case isTrue last =>
                rw [if_pos last] at writes
                cases writes
                rw [List.flatMap_nil, List.append_nil]
              case isFalse more =>
                rw [if_neg more] at writes
                exact ih writes

/-- Preparing for an image leaves the data register alone. -/
theorem writeInitBuf_written (mgr : FpgaManager (Port Hw))
    (info : FpgaImageInfo) (buf : List Byte) :
    (fpgaMgrWriteInitBuf (driver.mops platform).toFpgaManagerOps mgr info
      buf).2.hw.written = mgr.hw.written := by
  unfold fpgaMgrWriteInitBuf
  simp only [WordDriver.mops, Port.apply]
  by_cases outruns : info.headerSize > buf.length
  · rw [if_pos outruns]
  · rw [if_neg outruns]
    cases (platform.writeInit info
      (if info.headerSize = 0 then [] else buf) mgr.hw.hw).1 <;> rfl

theorem writeComplete_written (mgr : FpgaManager (Port Hw))
    (info : FpgaImageInfo) :
    (fpgaMgrWriteComplete (driver.mops platform).toFpgaManagerOps mgr
      info).2.hw.written = mgr.hw.written := by
  unfold fpgaMgrWriteComplete
  simp only [WordDriver.mops, Port.apply]
  cases (platform.writeComplete info mgr.hw.hw).1 <;> rfl

/-- Without a parser, all that is copied of an image is its header. -/
theorem parseHeaderSgLoop_keeps (krealloc : Nat → Bool)
    (sgt : List (List Byte)) (info : FpgaImageInfo) (buf : List Byte)
    (port : Port Hw) :
    (fpgaMgrParseHeaderSgLoop (driver.mops platform).toFpgaManagerOps krealloc
      sgt info buf port).2 = (info, port) := by
  unfold fpgaMgrParseHeaderSgLoop
  simp only [fpgaMgrParseHeader, WordDriver.mops]
  split_ifs <;> rfl

theorem prepareCopied_keeps (krealloc : Nat → Bool)
    (mgr : FpgaManager (Port Hw)) (info : FpgaImageInfo)
    (sgt : List (List Byte)) :
    let prepared := fpgaMgrPrepareCopied
      (driver.mops platform).toFpgaManagerOps krealloc mgr info sgt
    prepared.2.2 = info ∧ prepared.2.1.hw.written = mgr.hw.written := by
  have keeps :=
    parseHeaderSgLoop_keeps platform driver krealloc sgt info [] mgr.hw
  unfold fpgaMgrPrepareCopied fpgaMgrParseHeaderSg
  cases parsed : fpgaMgrParseHeaderSgLoop
      (driver.mops platform).toFpgaManagerOps krealloc sgt info [] mgr.hw with
  | mk result rest =>
      rw [parsed] at keeps
      cases keeps
      cases result with
      | error ret => exact ⟨rfl, rfl⟩
      | ok buf =>
          exact ⟨rfl, writeInitBuf_written platform driver mgr info buf⟩

theorem prepareSg_keeps (krealloc : Nat → Bool)
    (mgr : FpgaManager (Port Hw)) (info : FpgaImageInfo)
    (sgt : List (List Byte)) :
    let prepared := fpgaMgrPrepareSg (driver.mops platform).toFpgaManagerOps
      krealloc mgr info sgt
    prepared.2.2 = info ∧ prepared.2.1.hw.written = mgr.hw.written := by
  have first : ∃ ret state, fpgaMgrParseHeaderSgFirst
      (driver.mops platform).toFpgaManagerOps mgr info sgt =
        (ret, { mgr with state := state }, info) := by
    unfold fpgaMgrParseHeaderSgFirst
    cases sgt with
    | nil => exact ⟨_, _, rfl⟩
    | cons fragment rest =>
        simp only [fpgaMgrParseHeader, WordDriver.mops]
        split_ifs <;> exact ⟨_, _, rfl⟩
  obtain ⟨ret, state, first⟩ := first
  unfold fpgaMgrPrepareSg
  rw [first]
  split
  · exact ⟨rfl, writeInitBuf_written platform driver mgr info []⟩
  · cases ret with
    | none =>
        cases sgt with
        | nil => exact prepareCopied_keeps platform driver krealloc _ info []
        | cons fragment rest =>
            exact ⟨rfl, writeInitBuf_written platform driver _ info fragment⟩
    | some ret =>
        have copied := prepareCopied_keeps platform driver krealloc
          { mgr with state := state } info sgt
        cases sgt with
        | nil =>
            dsimp only
            split
            · exact copied
            · exact ⟨rfl, rfl⟩
        | cons fragment rest =>
            dsimp only
            split
            · exact copied
            · exact ⟨rfl, rfl⟩

/-- A load which succeeds has written what its data operation has. -/
theorem loadPrepared_succeeds {info : FpgaImageInfo}
    {write : Port Hw → Option Errno × Port Hw}
    {init : Option Errno × FpgaManager (Port Hw)}
    (succeeds : (loadPrepared (driver.mops platform).toFpgaManagerOps info
      write init).1 = none) :
    ∃ next, write init.2.hw = (none, next) ∧
      writtenBy (loadPrepared (driver.mops platform).toFpgaManagerOps info
        write init) = next.written := by
  rcases init with ⟨_ | ret, mgr⟩
  · rcases wrote : write mgr.hw with ⟨_ | ret, next⟩
    · refine ⟨next, rfl, ?_⟩
      simp only [loadPrepared, wrote, writtenBy]
      exact writeComplete_written platform driver _ info
    · simp only [loadPrepared, wrote] at succeeds
      cases succeeds
  · cases succeeds

theorem bufLoadSg_written {krealloc : Nat → Bool}
    {mgr : FpgaManager (Port Hw)} {info : FpgaImageInfo}
    {sgt : List (List Byte)}
    (succeeds : (fpgaMgrBufLoadSg (driver.mops platform) krealloc mgr info
      sgt).1 = none) :
    writtenBy (fpgaMgrBufLoadSg (driver.mops platform) krealloc mgr info sgt) =
      mgr.hw.written ++ (pieces info.dataSize sgt 0).flatMap wordsOf := by
  have keeps := prepareSg_keeps platform driver krealloc mgr info sgt
  rw [fpgaMgrBufLoadSg_eq] at succeeds ⊢
  obtain ⟨next, writes, written⟩ :=
    loadPrepared_succeeds platform driver succeeds
  rw [written, ← keeps.2]
  rw [keeps.1] at writes
  exact writeFragments_succeeds platform driver sgt writes

theorem bufLoadMapped_written {mgr : FpgaManager (Port Hw)}
    {info : FpgaImageInfo} {image : List Byte}
    (succeeds : (fpgaMgrBufLoadMapped (driver.mops platform).toFpgaManagerOps
      mgr info image).1 = none) :
    writtenBy (fpgaMgrBufLoadMapped (driver.mops platform).toFpgaManagerOps mgr
        info image) =
      mgr.hw.written ++ wordsOf (imageData false info image) := by
  have parses : ∃ ret state, fpgaMgrParseHeaderMapped
      (driver.mops platform).toFpgaManagerOps mgr info image =
        (ret, { mgr with state := state }, info) := by
    unfold fpgaMgrParseHeaderMapped
    simp only [WordDriver.mops]
    split <;> exact ⟨_, _, rfl⟩
  obtain ⟨ret, state, parsed⟩ := parses
  rw [fpgaMgrBufLoadMapped_eq, parsed] at succeeds ⊢
  obtain ⟨next, writes, written⟩ :=
    loadPrepared_succeeds platform driver succeeds
  rw [written, fpgaMgrWrite_succeeds platform driver writes]
  cases ret with
  | none =>
      exact congrArg (· ++ wordsOf (imageData false info image))
        (writeInitBuf_written platform driver _ info image)
  | some ret => rfl

/-! ## The words of a scattered image -/

/--
A scattered load pushes the words of the image's data, which are those that
a load of the same image from one buffer pushes.
-/
structure SameWords (krealloc : Nat → Bool) (mgr : FpgaManager (Port Hw))
    (info : FpgaImageInfo) (sgt : List (List Byte))
    (pushed : List (BitVec 32)) : Prop where
  scattered : writtenBy (fpgaMgrBufLoadSg (driver.mops platform) krealloc mgr
    info sgt) = mgr.hw.written ++ pushed
  image : pushed = wordsOf (imageData false info sgt.flatten)
  mapped : ∀ other : FpgaManager (Port Hw),
    (fpgaMgrBufLoadMapped (driver.mops platform).toFpgaManagerOps other info
      sgt.flatten).1 = none →
        writtenBy (fpgaMgrBufLoadMapped (driver.mops platform).toFpgaManagerOps
          other info sgt.flatten) = other.hw.written ++ pushed

/-- The words of all buffers, as numbers. -/
theorem flatMap_wordsOf_eq_iff (buffers : List (List Byte)) :
    buffers.flatMap wordsOf = wordsOf buffers.flatten ↔
      buffers.flatMap (words 4) = words 4 buffers.flatten := by
  have numbers (values : List Nat) (small : ∀ value ∈ values, value < 256 ^ 4) :
      (values.map (BitVec.ofNat 32)).map BitVec.toNat = values := by
    rw [List.map_map]
    refine (List.map_congr_left fun value member => ?_).trans (List.map_id _)
    exact Nat.mod_eq_of_lt (small value member)
  have all : buffers.flatMap wordsOf =
      (buffers.flatMap (words 4)).map (BitVec.ofNat 32) := by
    rw [List.map_flatMap]
    rfl
  rw [all, wordsOf]
  constructor
  · intro same
    have back := congrArg (List.map BitVec.toNat) same
    rwa [numbers, numbers] at back
    · exact fun _ => lt_of_mem_words
    · intro value member
      obtain ⟨buffer, -, member⟩ := List.mem_flatMap.mp member
      exact lt_of_mem_words member
  · intro same
    rw [same]

/-- A load which succeeds pushes the words of each of its buffers. -/
theorem sameWords_iff_flatMap {krealloc : Nat → Bool}
    {mgr : FpgaManager (Port Hw)} {info : FpgaImageInfo}
    {sgt : List (List Byte)}
    (succeeds : (fpgaMgrBufLoadSg (driver.mops platform) krealloc mgr info
      sgt).1 = none) :
    (∃ pushed, SameWords platform driver krealloc mgr info sgt pushed) ↔
      (pieces info.dataSize sgt 0).flatMap wordsOf =
        wordsOf (pieces info.dataSize sgt 0).flatten := by
  have data : (pieces info.dataSize sgt 0).flatten =
      imageData false info sgt.flatten :=
    flatten_pieces sgt Nat.pos_of_ne_zero
  have scattered := bufLoadSg_written platform driver succeeds
  rw [data]
  constructor
  · rintro ⟨pushed, same⟩
    have pushedSame := same.scattered
    rw [scattered, List.append_cancel_left_eq] at pushedSame
    exact pushedSame.trans same.image
  · intro same
    refine ⟨_, scattered, same, fun other mapped => ?_⟩
    rw [bufLoadMapped_written platform driver mapped, same]

/--
A load from a scatter list which succeeds pushes the words of the image if and
only if its buffers, filled up one by one, take no more words, and there are
only zeros behind the first which does not end with a word.
-/
theorem sameWords_iff (krealloc : Nat → Bool) (mgr : FpgaManager (Port Hw))
    (info : FpgaImageInfo) (sgt : List (List Byte))
    (succeeds : (fpgaMgrBufLoadSg (driver.mops platform) krealloc mgr info
      sgt).1 = none) :
    (∃ pushed, SameWords platform driver krealloc mgr info sgt pushed) ↔
      pieceCount 4 (pieces info.dataSize sgt 0) =
          wordCount 4 (pieces info.dataSize sgt 0).flatten.length ∧
        ZerosBehind 4 (pieces info.dataSize sgt 0) := by
  rw [sameWords_iff_flatMap platform driver succeeds, flatMap_wordsOf_eq_iff,
    flatMap_words_eq_iff (by decide)]

end Load

/-! ## Fragments with a boundary inside a word -/

/-- A device which is always ready, with ones in the memory behind buffers. -/
def readyPlatform : Platform Unit where
  beyond _ _ := 0xff
  csr hw := (0, hw)
  writeInit _ _ hw := (none, hw)
  writeComplete _ hw := (none, hw)

def idlePort : FpgaManager (Port Unit) := ⟨0, .unknown, ⟨[], ()⟩⟩

def wholeImage : FpgaImageInfo where
  ident := 0
  partialReconfig := false
  regionId := 0
  headerSize := 0
  dataSize := 0
  buf := []

theorem writeFragments_readyPlatform {sgt : List (List Byte)}
    (nonempty : ∀ fragment ∈ sgt, fragment ≠ []) (count : Nat)
    (port : Port Unit) :
    (fpgaMgrWriteFragments
      (WordDriver.socfpga.mops readyPlatform).toFpgaManagerOps 0 sgt count
      port).1 = none := by
  induction sgt generalizing count port with
  | nil => rfl
  | cons fragment rest ih =>
      rw [List.forall_mem_cons] at nonempty
      have wrote : fpgaMgrWrite
          (WordDriver.socfpga.mops readyPlatform).toFpgaManagerOps port
          fragment = (none, ⟨port.written ++ wordsOf fragment, port.hw⟩) :=
        writeBuffer_of_nonempty readyPlatform nonempty.1 port
      simp only [fpgaMgrWriteFragments, ne_eq, not_true_eq_false, if_false,
        List.take_length, false_and, wrote]
      exact ih nonempty.2 _ _

theorem bufLoadSg_readyPlatform (sgt : List (List Byte))
    (nonempty : ∀ fragment ∈ sgt, fragment ≠ []) :
    (fpgaMgrBufLoadSg (WordDriver.socfpga.mops readyPlatform) (fun _ => true)
      idlePort wholeImage sgt).1 = none := by
  have writes : (fpgaMgrWriteData (WordDriver.socfpga.mops readyPlatform)
      wholeImage sgt ⟨[], ()⟩).1 = none :=
    writeFragments_readyPlatform nonempty 0 ⟨[], ()⟩
  have prepared : fpgaMgrPrepareSg
      (WordDriver.socfpga.mops readyPlatform).toFpgaManagerOps (fun _ => true)
      idlePort wholeImage sgt =
        (none, { idlePort with state := .writeInit }, wholeImage) := rfl
  rw [fpgaMgrBufLoadSg_eq, prepared]
  rcases wrote : fpgaMgrWriteData (WordDriver.socfpga.mops readyPlatform)
    wholeImage sgt ⟨[], ()⟩ with ⟨_ | ret, port⟩
  · simp only [loadPrepared, idlePort, wrote]
    rfl
  · rw [wrote] at writes
    cases writes

theorem aligned_fragments_sameWords :
    ∃ pushed, SameWords readyPlatform .socfpga (fun _ => true) idlePort
      wholeImage [[1, 2, 3, 4], [5]] pushed := by
  have zeros : ZerosBehind 4 (pieces wholeImage.dataSize
      [[1, 2, 3, 4], [5]] 0) := by
    simp [pieces, wholeImage, ZerosBehind]
  exact (sameWords_iff readyPlatform .socfpga (fun _ => true) idlePort
    wholeImage [[1, 2, 3, 4], [5]]
    (bufLoadSg_readyPlatform _ (by decide))).mpr ⟨by decide, zeros⟩

/-- Two bytes in two fragments become two words. -/
theorem split_word_not_sameWords :
    (fpgaMgrBufLoadSg (WordDriver.socfpga.mops readyPlatform) (fun _ => true)
        idlePort wholeImage [[1], [2]]).1 = none ∧
      ¬ ∃ pushed, SameWords readyPlatform .socfpga (fun _ => true) idlePort
        wholeImage [[1], [2]] pushed := by
  have succeeds := bufLoadSg_readyPlatform [[1], [2]] (by decide)
  refine ⟨succeeds, ?_⟩
  rw [sameWords_iff_flatMap readyPlatform .socfpga succeeds]
  decide

end LinuxDfl.Fpga.WordWriter

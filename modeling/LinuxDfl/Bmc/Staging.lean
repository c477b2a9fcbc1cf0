import Mathlib.Tactic.SplitIfs
import LinuxDfl.Bmc.SecUpdate

/-!
# The staging area

The driver writes the image block by block, and each block register by
register.  The bytes which are left over behind the last whole register are
taken from the start of the image instead of the start of the block.
-/

namespace LinuxDfl.Bmc

open LinuxDfl.Kernel
open LinuxDfl.ImageLoad
open LinuxDfl.Lib.LittleEndian
open LinuxDfl.Lib.ByteStore

/-! ## What is staged, and what should be -/

/-- The size of the image, down to a multiple of the stride. -/
def alignedSize (image : List Byte) (stride : Nat) : Nat :=
  image.length / stride * stride

/-- Where the last block starts which is not a whole one. -/
def lastBlock (image : List Byte) : Nat :=
  image.length / writeBlockSize * writeBlockSize

/-- The image, with zeros up to a multiple of the stride. -/
def paddedImage (image : List Byte) (stride : Nat) : List Byte :=
  image ++
    List.replicate
      (if image.length % stride = 0 then 0
        else stride - image.length % stride) 0

/-- The bytes which the driver takes for those behind the last register. -/
def leftover (image : List Byte) (stride : Nat) : List Byte :=
  (image.drop (alignedSize image stride - lastBlock image)).take
    (image.length % stride)

/-- What the driver puts behind the last whole register. -/
def leftoverRegister (image : List Byte) (stride : Nat) : List Byte :=
  if image.length % stride = 0 then []
  else toBytes stride (ofBytes (leftover image stride))

/-- What an upload stages. -/
def stagedImage (image : List Byte) (stride : Nat) : List Byte :=
  image.take (alignedSize image stride) ++ leftoverRegister image stride

/-- The bytes left over are those which the driver takes for them. -/
def TailRepeats (image : List Byte) (stride : Nat) : Prop :=
  leftover image stride = image.drop (alignedSize image stride)

/-- The strides for which the driver is meant. -/
def RegStride (stride : Nat) : Prop :=
  stride = 1 ∨ stride = 2 ∨ stride = 4

theorem RegStride.pos {stride : Nat} (isStride : RegStride stride) :
    0 < stride := by
  rcases isStride with rfl | rfl | rfl <;> decide

/-- The sizes of an image in blocks and registers. -/
theorem sizes (image : List Byte) {stride : Nat} (isStride : RegStride stride) :
    alignedSize image stride + image.length % stride = image.length ∧
      lastBlock image + image.length % writeBlockSize = image.length ∧
      image.length % stride < stride := by
  refine ⟨Nat.div_add_mod' _ _, Nat.div_add_mod' _ _, ?_⟩
  exact Nat.mod_lt _ isStride.pos

theorem length_leftover (image : List Byte) {stride : Nat}
    (isStride : RegStride stride) :
    (leftover image stride).length = image.length % stride := by
  obtain ⟨aligned, -, -⟩ := sizes image isStride
  simp only [leftover, List.length_take, List.length_drop]
  omega

/-- The register with the bytes left over, as bytes. -/
theorem leftoverRegister_eq (image : List Byte) {stride : Nat}
    (isStride : RegStride stride) :
    leftoverRegister image stride =
      leftover image stride ++
        List.replicate
          (if image.length % stride = 0 then 0
            else stride - image.length % stride) 0 := by
  have length := length_leftover image isStride
  obtain ⟨-, -, within⟩ := sizes image isStride
  unfold leftoverRegister
  split_ifs with whole
  · rw [whole] at length
    simp [List.length_eq_zero_iff.mp length]
  · have bytes := toBytes_ofBytes (leftover image stride)
      (stride - image.length % stride)
    rwa [length, Nat.add_sub_cancel' (Nat.le_of_lt within)] at bytes

/-- What is staged is the padded image exactly when the tail repeats. -/
theorem stagedImage_eq_paddedImage_iff (image : List Byte) {stride : Nat}
    (isStride : RegStride stride) :
    stagedImage image stride = paddedImage image stride ↔
      TailRepeats image stride := by
  have whole := List.take_append_drop (alignedSize image stride) image
  rw [stagedImage, leftoverRegister_eq image isStride, paddedImage,
    ← List.append_assoc, List.append_left_inj]
  constructor
  · intro same
    exact List.append_cancel_left (same.trans whole.symm)
  · intro repeats
    rw [repeats, whole]

/-- An image of equal bytes repeats its tail. -/
theorem tailRepeats_replicate (count : Nat) (byte : Byte) (stride : Nat) :
    TailRepeats (List.replicate count byte) stride := by
  have left : count - count / stride * stride = count % stride := by
    rw [Nat.mod_eq_sub_div_mul]
  have enough : count % stride ≤
      count - (alignedSize (List.replicate count byte) stride -
        lastBlock (List.replicate count byte)) := by
    unfold alignedSize
    rw [List.length_replicate, ← left]
    exact Nat.sub_le_sub_left (Nat.sub_le _ _) count
  unfold TailRepeats leftover
  rw [List.drop_replicate, List.take_replicate, List.drop_replicate,
    List.length_replicate, Nat.min_eq_left enough, alignedSize,
    List.length_replicate, left]

/-- The tail repeats if nothing is left over, or everything is one block. -/
theorem tailRepeats_iff (image : List Byte) {stride : Nat}
    (isStride : RegStride stride) :
    TailRepeats image stride ↔
      image.length % stride = 0 ∨ image.length ≤ writeBlockSize ∨
        TailRepeats image stride := by
  refine ⟨fun repeats => Or.inr (Or.inr repeats), ?_⟩
  obtain ⟨aligned, blocks, -⟩ := sizes image isStride
  have ofWhole (whole : image.length % stride = 0) :
      TailRepeats image stride := by
    have length := length_leftover image isStride
    rw [whole] at length aligned
    rw [TailRepeats, List.length_eq_zero_iff.mp length,
      List.drop_of_length_le (by omega)]
  rintro (whole | oneBlock | repeats)
  · exact ofWhole whole
  · by_cases whole : image.length % stride = 0
    · exact ofWhole whole
    · have notFull : image.length ≠ writeBlockSize := by
        intro full
        refine whole ?_
        rw [full]
        rcases isStride with rfl | rfl | rfl <;> rfl
      have first : lastBlock image = 0 := by
        rw [lastBlock, Nat.div_eq_of_lt (by omega), Nat.zero_mul]
      rw [TailRepeats, leftover, first, Nat.sub_zero,
        List.take_of_length_le]
      rw [List.length_drop]
      omega
  · exact repeats

/-! ## One block -/

variable {Bmc : Type} {board : Board Bmc} {staged : Bmc → Storage}

/-- A write which succeeds has stored whole registers, and the leftover. -/
theorem staged_m10bmcSecWrite
    (laws : StagingLaws board staged) (noFlash : board.flashBulkWrite = none)
    {buf : List Byte} {offset size : Nat} {bmc next : Bmc}
    (fits : offset + size ≤ m10bmcStagingSize)
    (succeeds : m10bmcSecWrite board buf offset size bmc = (none, next)) :
    let stride := board.regStride
    let aligned := size / stride * stride
    let registers := (buf.drop offset).take aligned
    let stored :=
      store (staged bmc) (m10bmcStagingBase + offset) registers
    staged next =
      if size % stride = 0 then stored
      else
        store stored (m10bmcStagingBase + (offset + aligned))
          (toBytes stride
            (ofBytes ((buf.drop aligned).take (size % stride)))) := by
  have aligned := Nat.div_add_mod' size board.regStride
  simp only [m10bmcStagingSize] at fits
  have baseOffset :
      Word.add 32 m10bmcStagingBase offset = m10bmcStagingBase + offset :=
    Word.add_of_lt (by simp only [m10bmcStagingBase]; omega)
  have baseLeftover :
      Word.add 32 (m10bmcStagingBase + offset)
          (size / board.regStride * board.regStride) =
        m10bmcStagingBase +
          (offset + size / board.regStride * board.regStride) := by
    rw [Word.add_of_lt, Nat.add_assoc]
    simp only [m10bmcStagingBase]
    omega
  have left :
      size - size / board.regStride * board.regStride =
        size % board.regStride := by omega
  simp only [m10bmcSecWrite, noFlash, baseOffset, baseLeftover, left]
    at succeeds
  by_cases wide : board.regStride > 4
  · rw [if_pos wide] at succeeds
    exact absurd succeeds (by simp)
  rw [if_neg wide] at succeeds
  rcases bulk : board.regmapBulkWrite (m10bmcStagingBase + offset)
    ((buf.drop offset).take (size / board.regStride * board.regStride)) bmc
    with ⟨_ | ret, written⟩
  · have registers := laws.bulkWrite _ _ _ _ bulk
    rw [bulk] at succeeds
    dsimp only at succeeds ⊢
    rw [← registers]
    by_cases whole : size % board.regStride = 0
    · rw [if_pos whole]
      rw [if_neg (not_not.mpr whole)] at succeeds
      obtain rfl : written = next := by simpa using succeeds
      rfl
    · rw [if_neg whole]
      rw [if_pos whole] at succeeds
      exact laws.write _ _ _ _ succeeds
  · rw [bulk] at succeeds
    exact absurd succeeds (by simp)

/-- The bytes which are staged once the worker has come to this offset. -/
def stagedPrefix (image : List Byte) (stride offset : Nat) : List Byte :=
  if offset = image.length then stagedImage image stride
  else image.take offset

/-- The offsets at which the worker calls the driver. -/
def OnBlock (image : List Byte) (offset : Nat) : Prop :=
  offset % writeBlockSize = 0 ∧ offset < image.length

theorem stagedImage_of_whole {image : List Byte} {stride : Nat}
    (whole : image.length % stride = 0) :
    stagedImage image stride = image := by
  have aligned : alignedSize image stride = image.length := by
    have := Nat.div_add_mod' image.length stride
    rw [alignedSize]
    omega
  rw [stagedImage, aligned, leftoverRegister, if_pos whole,
    List.take_length, List.append_nil]

theorem whole_of_blocks {stride size : Nat} (isStride : RegStride stride)
    (blocks : size % writeBlockSize = 0) : size % stride = 0 := by
  simp only [writeBlockSize] at blocks
  rcases isStride with rfl | rfl | rfl <;> omega

/-- Up to the end of a block, what is staged is the start of the image. -/
theorem stagedPrefix_of_blocks {image : List Byte} {stride offset : Nat}
    (isStride : RegStride stride) (blocks : offset % writeBlockSize = 0) :
    stagedPrefix image stride offset = image.take offset := by
  unfold stagedPrefix
  split_ifs with atEnd
  · have whole := whole_of_blocks isStride (atEnd ▸ blocks)
    rw [stagedImage_of_whole whole, atEnd, List.take_length]
  · rfl

/-- A whole block is stored as it is. -/
theorem holds_whole_block
    (laws : StagingLaws board staged) (noFlash : board.flashBulkWrite = none)
    (isStride : RegStride board.regStride)
    {image : List Byte} {offset : Nat} {bmc next : Bmc}
    (fits : image.length ≤ m10bmcStagingSize)
    (blocks : offset % writeBlockSize = 0)
    (whole : offset + writeBlockSize ≤ image.length)
    (holds : Holds (staged bmc) m10bmcStagingBase
      (stagedPrefix image board.regStride offset))
    (succeeds :
      m10bmcSecWrite board image offset writeBlockSize bmc = (none, next)) :
    Holds (staged next) m10bmcStagingBase
      (stagedPrefix image board.regStride (offset + writeBlockSize)) := by
  have noLeft : writeBlockSize % board.regStride = 0 :=
    whole_of_blocks isStride (Nat.mod_self _)
  have aligned :
      writeBlockSize / board.regStride * board.regStride =
        writeBlockSize := by
    have := Nat.div_add_mod' writeBlockSize board.regStride
    omega
  have stores :=
    staged_m10bmcSecWrite laws noFlash (Nat.le_trans whole fits) succeeds
  simp only [noLeft, if_true, aligned] at stores
  have nextBlocks : (offset + writeBlockSize) % writeBlockSize = 0 := by
    rw [Nat.add_mod_right, blocks]
  rw [stagedPrefix_of_blocks isStride blocks] at holds
  have appended := holds.store_append ((image.drop offset).take writeBlockSize)
  rw [List.length_take_of_le (by omega)] at appended
  rw [stagedPrefix_of_blocks isStride nextBlocks, stores, List.take_add]
  exact appended

/-- The sizes of the last block, which is not a whole one. -/
theorem last_block_sizes {size offset stride : Nat}
    (isStride : RegStride stride) (blocks : offset % writeBlockSize = 0)
    (inside : offset < size) (last : size < offset + writeBlockSize) :
    size / writeBlockSize * writeBlockSize = offset ∧
      (size - offset) % stride = size % stride ∧
      offset + (size - offset) / stride * stride =
        size / stride * stride := by
  simp only [writeBlockSize] at blocks last ⊢
  rcases isStride with rfl | rfl | rfl <;> omega

/-- The last block is stored with its leftover. -/
theorem holds_last_block
    (laws : StagingLaws board staged) (noFlash : board.flashBulkWrite = none)
    (isStride : RegStride board.regStride)
    {image : List Byte} {offset : Nat} {bmc next : Bmc}
    (fits : image.length ≤ m10bmcStagingSize)
    (blocks : offset % writeBlockSize = 0) (inside : offset < image.length)
    (last : image.length < offset + writeBlockSize)
    (holds : Holds (staged bmc) m10bmcStagingBase
      (stagedPrefix image board.regStride offset))
    (succeeds :
      m10bmcSecWrite board image offset (image.length - offset) bmc =
        (none, next)) :
    Holds (staged next) m10bmcStagingBase
      (stagedPrefix image board.regStride image.length) := by
  obtain ⟨atLast, sameTail, aligned⟩ :=
    last_block_sizes isStride blocks inside last
  have stores := staged_m10bmcSecWrite laws noFlash (by omega) succeeds
  rw [stagedPrefix_of_blocks isStride blocks] at holds
  have registers := holds.store_append
    ((image.drop offset).take
      ((image.length - offset) / board.regStride * board.regStride))
  rw [← List.take_add, aligned, List.length_take_of_le (by omega)]
    at registers
  rw [stagedPrefix, if_pos rfl, stagedImage, leftoverRegister,
    alignedSize]
  simp only [sameTail, aligned] at stores
  rw [stores]
  split_ifs
  · rw [List.append_nil]
    exact registers
  · have start :
        (image.length - offset) / board.regStride * board.regStride =
          alignedSize image board.regStride - lastBlock image := by
      rw [alignedSize, lastBlock, atLast]
      omega
    have appended := registers.store_append
      (toBytes board.regStride
        (ofBytes (leftover image board.regStride)))
    rw [List.length_take_of_le (Nat.div_mul_le_self _ _), leftover, ← start]
      at appended
    rw [leftover, ← start]
    exact appended

end LinuxDfl.Bmc

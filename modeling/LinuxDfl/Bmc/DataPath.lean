import LinuxDfl.Bmc.Staging
import LinuxDfl.Lib.Transition

/-!
# The data path of an upload

What the staging area holds when the worker has written the whole image, on
boards without bulk operations for the flash.
-/

namespace LinuxDfl.Bmc

open LinuxDfl.Kernel
open LinuxDfl.ImageLoad
open LinuxDfl.Lib.LittleEndian
open LinuxDfl.Lib.ByteStore
open LinuxDfl.Lib.Transition

variable {Bmc : Type} {board : Board Bmc} {staged : Bmc → Storage}

/-! ## What holds along an upload -/

/-- The upload of the image has been accepted, and waits for the worker. -/
structure StartsUpload (image : List Byte) (upload : Upload) : Prop where
  pc : upload.pc = .idle
  content : uploadContent upload = image
  remainingSize : upload.fwlp.remainingSize = image.length

/-- The image is at hand, and this much of it remains. -/
structure Remains (image : List Byte) (upload : Upload) (remaining : Nat) :
    Prop where
  content : uploadContent upload = image
  remainingSize : upload.fwlp.remainingSize = remaining

/-- The image is staged up to this offset, at the end of a block. -/
structure StagedTo (board : Board Bmc) (staged : Bmc → Storage)
    (image : List Byte) (bmc : Bmc) (offset : Nat) : Prop where
  le : offset ≤ image.length
  blocks : offset % writeBlockSize = 0 ∨ offset = image.length
  holds :
    Holds (staged bmc) m10bmcStagingBase
      (stagedPrefix image board.regStride offset)

/-- What holds at each point of the worker during the upload. -/
def UploadAt (board : Board Bmc) (staged : Bmc → Storage)
    (image : List Byte) (state : Upload × Bmc) : WorkerPc → Prop
  | .idle =>
      state.1.pending = true → Remains image state.1 image.length
  | .prepare | .startTransfer =>
      state.1.pending = false ∧ Remains image state.1 image.length
  | .loop offset =>
      state.1.pending = false ∧
        Remains image state.1 (image.length - offset) ∧
        StagedTo board staged image state.2 offset
  | .write offset =>
      state.1.pending = false ∧ offset < image.length ∧
        Remains image state.1 (image.length - offset) ∧
        StagedTo board staged image state.2 offset
  | .advance offset written =>
      state.1.pending = false ∧
        Remains image state.1 (image.length - offset) ∧
        StagedTo board staged image state.2 (offset + written)
  | .startProgram =>
      state.1.pending = false ∧
        Holds (staged state.2) m10bmcStagingBase
          (stagedImage image board.regStride)
  | _ => state.1.pending = false

theorem stagedTo_zero (board : Board Bmc) (staged : Bmc → Storage)
    {image : List Byte} (nonempty : image ≠ []) (bmc : Bmc) :
    StagedTo board staged image bmc 0 where
  le := Nat.zero_le _
  blocks := Or.inl rfl
  holds := by
    have notEnd : 0 ≠ image.length := fun atEnd =>
      nonempty (List.length_eq_zero_iff.mp atEnd.symm)
    rw [stagedPrefix, if_neg notEnd, List.take_zero]
    exact holds_nil _ _

/-- A cancelled upload ends with an error. -/
theorem rsuCancel_ne_none (board : Board Bmc) (bmc : Bmc) :
    (rsuCancel board bmc).1 ≠ .none := by
  unfold rsuCancel
  rcases board.readDoorbell bmc with ⟨_ | doorbell, read⟩
  · simp
  · dsimp only
    split_ifs
    · simp
    · rcases board.abortRsu read with ⟨_ | ret, aborted⟩ <;> simp

/-- A write which the driver reports as done is one `m10bmc_sec_write`. -/
theorem m10bmcSecFwWrite_done
    (laws : StagingLaws board staged) {cancelRequest : Bool}
    {data : List Byte} {offset size : Nat} {bmc next : Bmc}
    {answer : OpAnswer}
    (answers :
      (answer, next) =
        m10bmcSecFwWrite board cancelRequest data offset size bmc)
    (done : answer.ret = .none) :
    ∃ read, staged read = staged bmc ∧
      answer.written = min writeBlockSize size ∧
      m10bmcSecWrite board data offset (min writeBlockSize size) read =
        (none, next) := by
  unfold m10bmcSecFwWrite at answers
  cases cancelRequest with
  | true =>
      obtain ⟨rfl, -⟩ := Prod.mk.inj answers
      exact absurd done (rsuCancel_ne_none board bmc)
  | false =>
      have sameStaged := laws.readDoorbell bmc
      simp only [Bool.false_eq_true, if_false] at answers
      rcases reads : board.readDoorbell bmc with ⟨_ | doorbell, read⟩
      · rw [reads] at answers
        obtain ⟨rfl, -⟩ := Prod.mk.inj answers
        exact absurd done (by simp)
      · rw [reads] at answers sameStaged
        dsimp only at answers
        split_ifs at answers
        · obtain ⟨rfl, -⟩ := Prod.mk.inj answers
          exact absurd done (by simp)
        · refine ⟨read, sameStaged, ?_⟩
          rcases writes : m10bmcSecWrite board data offset
            (min writeBlockSize size) read with ⟨_ | ret, written⟩
          · rw [writes] at answers
            obtain ⟨rfl, rfl⟩ := Prod.mk.inj answers
            exact ⟨rfl, rfl⟩
          · rw [writes] at answers
            obtain ⟨rfl, -⟩ := Prod.mk.inj answers
            exact absurd done (by simp)

/-- A write which the driver reports as done stages one more block. -/
theorem StagedTo.write
    (laws : StagingLaws board staged) (noFlash : board.flashBulkWrite = none)
    (isStride : RegStride board.regStride)
    {image : List Byte} (fits : image.length ≤ m10bmcStagingSize)
    {offset : Nat} {bmc next : Bmc} {cancelRequest : Bool}
    {answer : OpAnswer}
    (stagedTo : StagedTo board staged image bmc offset)
    (inside : offset < image.length)
    (answers :
      (answer, next) =
        m10bmcSecFwWrite board cancelRequest image offset
          (image.length - offset) bmc)
    (done : answer.ret = .none) :
    StagedTo board staged image next (offset + answer.written) := by
  obtain ⟨read, sameStaged, written, succeeds⟩ :=
    m10bmcSecFwWrite_done laws answers done
  have blocks : offset % writeBlockSize = 0 :=
    stagedTo.blocks.resolve_right (Nat.ne_of_lt inside)
  have holds := stagedTo.holds
  rw [← sameStaged] at holds
  rw [written]
  by_cases whole : offset + writeBlockSize ≤ image.length
  · rw [Nat.min_eq_left (by omega)] at succeeds ⊢
    refine ⟨whole, Or.inl ?_,
      holds_whole_block laws noFlash isStride fits blocks whole holds
        succeeds⟩
    rw [Nat.add_mod_right, blocks]
  · rw [Nat.min_eq_right (by omega)] at succeeds ⊢
    have atEnd : offset + (image.length - offset) = image.length := by
      omega
    rw [atEnd]
    exact ⟨Nat.le_refl _, Or.inr rfl,
      holds_last_block laws noFlash isStride fits blocks inside
        (Nat.lt_of_not_le whole) holds succeeds⟩

theorem Remains.of_same {image : List Byte} {upload next : Upload}
    {remaining : Nat} (remains : Remains image upload remaining)
    (data : next.fwlp.data = upload.fwlp.data)
    (size : next.fwlp.remainingSize = upload.fwlp.remainingSize)
    (bufs : next.bufs = upload.bufs) : Remains image next remaining where
  content := by
    have same : uploadContent next = uploadContent upload := by
      simp only [uploadContent, data, bufs]
    rw [same, remains.content]
  remainingSize := size.trans remains.remainingSize

/-- The worker counts what the driver has written. -/
theorem Remains.advance
    {image : List Byte} (fits : image.length ≤ m10bmcStagingSize)
    {upload next : Upload} {bmc : Bmc} {offset written : Nat}
    (remains : Remains image upload (image.length - offset))
    (notPending : next.pending = false)
    (data : next.fwlp.data = upload.fwlp.data)
    (bufs : next.bufs = upload.bufs)
    (size :
      next.fwlp.remainingSize =
        Word.sub 32 upload.fwlp.remainingSize written)
    (stagedTo : StagedTo board staged image bmc (offset + written)) :
    UploadAt board staged image (next, bmc)
      (.loop (Word.add 32 offset written)) := by
  have le := stagedTo.le
  simp only [m10bmcStagingSize] at fits
  rw [Word.add_of_lt (by omega)]
  refine ⟨notPending, ⟨?_, ?_⟩, stagedTo⟩
  · have same : uploadContent next = uploadContent upload := by
      simp only [uploadContent, data, bufs]
    rw [same, remains.content]
  · rw [size, remains.remainingSize, Word.sub_of_le (by omega)]
    omega

/-- Each step of the worker keeps what holds at its points. -/
theorem UploadAt.drives
    (laws : StagingLaws board staged) (noFlash : board.flashBulkWrite = none)
    (isStride : RegStride board.regStride)
    {image : List Byte} (fits : image.length ≤ m10bmcStagingSize)
    (nonempty : image ≠ [])
    {source target : Upload × Bmc} {label : DriveLabel}
    (uploadAt : UploadAt board staged image source source.1.pc)
    (drives : Drives board source label target) :
    UploadAt board staged image target target.1.pc := by
  obtain ⟨upload, bmc⟩ := source
  obtain ⟨next, nextBmc⟩ := target
  obtain ⟨step, answers⟩ := drives
  simp only [workerStep] at step
  cases isPc : upload.pc with
  | idle =>
      simp only [isPc] at step uploadAt
      split_ifs at step with pending
      obtain rfl := Option.some.inj step
      exact ⟨rfl, (uploadAt pending).of_same rfl rfl rfl⟩
  | prepare =>
      simp only [isPc, Option.some.injEq] at step uploadAt
      subst step
      dsimp only
      split_ifs
      · exact ⟨uploadAt.1, uploadAt.2.of_same rfl rfl rfl⟩
      · exact uploadAt.1
  | setError ret prepared =>
      simp only [isPc, Option.some.injEq] at step uploadAt
      subst step
      cases prepared <;> exact uploadAt
  | startTransfer =>
      simp only [isPc, Option.some.injEq] at step uploadAt answers
      subst step answers
      exact ⟨uploadAt.1, uploadAt.2.of_same rfl rfl rfl,
        stagedTo_zero board staged nonempty nextBmc⟩
  | loop offset =>
      simp only [isPc, Option.some.injEq] at step uploadAt answers
      subst step answers
      obtain ⟨notPending, remains, stagedTo⟩ := uploadAt
      have size : upload.fwlp.remainingSize = image.length - offset :=
        remains.remainingSize
      have le := stagedTo.le
      dsimp only
      split_ifs with more
      · exact ⟨notPending, by omega, remains.of_same rfl rfl rfl, stagedTo⟩
      · have atEnd : offset = image.length := by omega
        have holds := stagedTo.holds
        rw [stagedPrefix, if_pos atEnd] at holds
        exact ⟨notPending, holds⟩
  | write offset =>
      simp only [isPc, Option.some.injEq] at step uploadAt answers
      obtain ⟨notPending, inside, remains, stagedTo⟩ := uploadAt
      rw [remains.content, remains.remainingSize] at answers
      subst step
      dsimp only
      split_ifs with failed nothing
      · exact notPending
      · exact notPending
      · exact ⟨notPending, remains.of_same rfl rfl rfl,
          stagedTo.write laws noFlash isStride fits inside answers
            (not_not.mp failed)⟩
  | advance offset written =>
      simp only [isPc, Option.some.injEq] at step uploadAt answers
      subst step answers
      obtain ⟨notPending, remains, stagedTo⟩ := uploadAt
      exact remains.advance fits notPending rfl rfl rfl stagedTo
  | startProgram =>
      simp only [isPc, Option.some.injEq] at step uploadAt
      subst step
      exact uploadAt.1
  | pollComplete =>
      simp only [isPc, Option.some.injEq] at step uploadAt
      subst step
      dsimp only
      split_ifs <;> exact uploadAt
  | cleanup =>
      simp only [isPc] at step uploadAt
      split_ifs at step <;> obtain rfl := Option.some.inj step <;>
        exact uploadAt
  | putDevice =>
      simp only [isPc, Option.some.injEq] at step uploadAt
      subst step
      exact uploadAt
  | vfree =>
      simp only [isPc, Option.some.injEq] at step uploadAt
      subst step
      exact uploadAt
  | clearData =>
      simp only [isPc, Option.some.injEq] at step uploadAt
      subst step
      exact uploadAt
  | complete =>
      simp only [isPc, Option.some.injEq] at step uploadAt
      subst step
      exact uploadAt
  | eventfdPut =>
      simp only [isPc, Option.some.injEq] at step uploadAt
      subst step
      exact uploadAt
  | clearFinished =>
      simp only [isPc, Option.some.injEq] at step uploadAt
      subst step
      intro pending
      exact absurd (uploadAt.symm.trans pending) (by decide)

/-! ## The whole upload -/

/-- The driver stages the registers, and the leftover as it reads it. -/
theorem holds_stagedImage
    (laws : StagingLaws board staged) (noFlash : board.flashBulkWrite = none)
    (isStride : RegStride board.regStride)
    {image : List Byte} (fits : image.length ≤ m10bmcStagingSize)
    (nonempty : image ≠ [])
    {upload : Upload} {bmc : Bmc} (starts : StartsUpload image upload)
    {path : List (DriveLabel × Upload × Bmc)}
    (isPath : IsPath (Drives board) (upload, bmc) path)
    {entry : DriveLabel × Upload × Bmc} (member : entry ∈ path)
    (written : entry.2.1.pc = .startProgram) :
    Holds (staged entry.2.2) m10bmcStagingBase
      (stagedImage image board.regStride) := by
  have initial :
      UploadAt board staged image (upload, bmc) (upload, bmc).1.pc := by
    rw [starts.pc]
    exact fun _ => ⟨starts.content, starts.remainingSize⟩
  have throughout :
      Throughout
        (fun state => UploadAt board staged image state state.1.pc)
        (upload, bmc) path :=
    throughout_of_invariant
      (fun _ _ _ uploadAt drives =>
        uploadAt.drives laws noFlash isStride fits nonempty drives)
      isPath initial
  have uploadAt : UploadAt board staged image entry.2 entry.2.1.pc :=
    throughout.2 entry member
  rw [written] at uploadAt
  exact uploadAt.2

theorem length_stagedImage (image : List Byte) {stride : Nat}
    (isStride : RegStride stride) :
    (stagedImage image stride).length =
      (paddedImage image stride).length := by
  obtain ⟨aligned, -, -⟩ := sizes image isStride
  rw [stagedImage, leftoverRegister_eq image isStride, paddedImage]
  simp only [List.length_append, length_leftover image isStride,
    List.length_take]
  omega

/--
When an upload has been written without an error, the staging area holds the
padded image if and only if nothing is left over behind the last register,
or the image is a single block, or the bytes left over happen to be those
which the driver reads instead.
-/
theorem staging_holds_image_iff
    (laws : StagingLaws board staged) (noFlash : board.flashBulkWrite = none)
    (isStride : RegStride board.regStride)
    {image : List Byte} (fits : image.length ≤ m10bmcStagingSize)
    (nonempty : image ≠ [])
    {upload : Upload} {bmc : Bmc} (starts : StartsUpload image upload)
    {path : List (DriveLabel × Upload × Bmc)}
    (isPath : IsPath (Drives board) (upload, bmc) path)
    {entry : DriveLabel × Upload × Bmc} (member : entry ∈ path)
    (written : entry.2.1.pc = .startProgram) :
    Holds (staged entry.2.2) m10bmcStagingBase
        (paddedImage image board.regStride) ↔
      image.length % board.regStride = 0 ∨
        image.length ≤ writeBlockSize ∨
          TailRepeats image board.regStride := by
  have holds :=
    holds_stagedImage laws noFlash isStride fits nonempty starts isPath
      member written
  rw [← tailRepeats_iff image isStride,
    ← stagedImage_eq_paddedImage_iff image isStride]
  constructor
  · intro padded
    exact holds.eq_of_length padded (length_stagedImage image isStride)
  · intro same
    rwa [← same]

/-! ## A board on which every access succeeds -/

/-- A board which is nothing but its staging area. -/
def memoryBoard (stride : Nat) : Board Storage where
  regStride := stride
  regmapBulkWrite reg bytes bmc := (none, store bmc reg bytes)
  regmapWrite reg value bmc := (none, store bmc reg (toBytes stride value))
  readDoorbell bmc := (.ok 0x30, bmc)
  abortRsu bmc := (none, bmc)
  flashBulkWrite := none

theorem stagingLaws_memoryBoard (stride : Nat) :
    StagingLaws (memoryBoard stride) id where
  bulkWrite _ _ _ _ writes := (congrArg Prod.snd writes).symm
  write _ _ _ _ writes := (congrArg Prod.snd writes).symm
  readDoorbell _ := rfl

/-- On this board the driver writes every block. -/
theorem m10bmcSecFwWrite_memoryBoard {stride : Nat}
    (isStride : RegStride stride) (data : List Byte) (offset size : Nat)
    (bmc : Storage) :
    ∃ next,
      m10bmcSecFwWrite (memoryBoard stride) false data offset size bmc =
        (⟨.none, min writeBlockSize size⟩, next) := by
  have narrow : ¬ stride > 4 := by
    rcases isStride with rfl | rfl | rfl <;> decide
  have ready : rsuProg (0x30 : BitVec 32) = rsuProgReady := by decide
  have succeeds :
      (m10bmcSecWrite (memoryBoard stride) data offset
        (min writeBlockSize size) bmc).1 = none := by
    simp only [m10bmcSecWrite, memoryBoard, narrow, if_false]
    exact (apply_ite Prod.fst _ _ _).trans (ite_self none)
  rcases writes :
    m10bmcSecWrite (memoryBoard stride) data offset
      (min writeBlockSize size) bmc with ⟨ret, next⟩
  rw [writes] at succeeds
  obtain rfl : ret = none := succeeds
  have reads : (memoryBoard stride).readDoorbell bmc = (.ok 0x30, bmc) := rfl
  refine ⟨next, ?_⟩
  simp only [m10bmcSecFwWrite, reads, writes, ready, Bool.false_eq_true,
    ne_eq, not_true_eq_false, if_false]

/-- The run reaches a state in which the whole image has been written. -/
def Writes (board : Board Bmc) (source : Upload × Bmc) : Prop :=
  ∃ path, IsPath (Drives board) source path ∧
    ∃ entry ∈ path, entry.2.1.pc = .startProgram

theorem Writes.cons {source target : Upload × Bmc} (label : DriveLabel)
    (drives : Drives board source label target)
    (writes : Writes board target) : Writes board source := by
  obtain ⟨path, isPath, entry, member, written⟩ := writes
  exact ⟨(label, target) :: path, ⟨drives, isPath⟩, entry,
    List.mem_cons_of_mem _ member, written⟩

/-- From each offset on, this board lets the worker write the rest. -/
theorem writes_from_loop {stride : Nat} (isStride : RegStride stride)
    (left : Nat) (upload : Upload) (bmc : Storage) (offset : Nat)
    (pc : upload.pc = .loop offset)
    (remaining : upload.fwlp.remainingSize = left) :
    Writes (memoryBoard stride) (upload, bmc) := by
  induction left using Nat.strongRecOn generalizing upload bmc offset with
  | ind left ih =>
      by_cases more : left = 0
      · refine ⟨[(⟨⟨.none, 0⟩, false⟩,
          { upload with pc := .startProgram }, bmc)], ⟨?_, trivial⟩,
          _, List.mem_singleton_self _, rfl⟩
        simp [Drives, workerStep, pc, remaining, more]
      · obtain ⟨next, writes⟩ :=
          m10bmcSecFwWrite_memoryBoard isStride (uploadContent upload)
            offset left bmc
        let size := min writeBlockSize left
        have positive : size ≠ 0 := by
          simp only [size, writeBlockSize]
          omega
        let atWrite : Upload := { upload with pc := .write offset }
        let atAdvance : Upload :=
          { upload.emit (.write upload.fwlp.data offset left) with
            pc := .advance offset size }
        let atLoop : Upload :=
          { atAdvance with
            fwlp := { upload.fwlp with
              remainingSize := Word.sub 32 left size }
            pc := .loop (Word.add 32 offset size) }
        have toWrite :
            Drives (memoryBoard stride) (upload, bmc)
              ⟨⟨.none, 0⟩, false⟩ (atWrite, bmc) := by
          simp [Drives, workerStep, pc, remaining, more, atWrite]
        have toAdvance :
            Drives (memoryBoard stride) (atWrite, bmc)
              ⟨⟨.none, size⟩, false⟩ (atAdvance, next) := by
          refine ⟨?_, ?_⟩
          · simp [workerStep, atWrite, atAdvance, Upload.emit, remaining,
              positive]
          · simp only [atWrite, remaining]
            exact writes.symm
        have toLoop :
            Drives (memoryBoard stride) (atAdvance, next)
              ⟨⟨.none, 0⟩, false⟩ (atLoop, next) := by
          simp [Drives, workerStep, atAdvance, atLoop, Upload.emit,
            remaining]
        refine Writes.cons _ toWrite
          (Writes.cons _ toAdvance (Writes.cons _ toLoop ?_))
        have less : Word.sub 32 left size < left := by
          rw [Word.sub_of_le (Nat.min_le_right _ _)]
          omega
        exact ih _ less atLoop next _ rfl rfl

/-- The upload of an image which has just been accepted. -/
def queued (image : List Byte) : Upload where
  fwlp := ⟨some 0, image.length, .receiving, .idle, .none, some 0⟩
  hasCleanup := false
  pending := true
  pc := .idle
  parentRefs := 1
  bufs := [image]
  history := []

theorem startsUpload_queued (image : List Byte) :
    StartsUpload image (queued image) := ⟨rfl, rfl, rfl⟩

/-- On this board every image can be written. -/
theorem writes_queued {stride : Nat} (isStride : RegStride stride)
    (image : List Byte) (bmc : Storage) :
    Writes (memoryBoard stride) (queued image, bmc) := by
  let begun : Upload :=
    { fwUploadUpdateProgress
        ({ queued image with pending := false }.emit .started)
        .preparing with
      pc := .prepare }
  let prepared : Upload :=
    { begun.emit (.prepare (some 0) image.length) with
      pc := .startTransfer }
  let atLoop : Upload :=
    { fwUploadUpdateProgress prepared .transferring with pc := .loop 0 }
  have begins :
      Drives (memoryBoard stride) (queued image, bmc)
        ⟨⟨.none, 0⟩, false⟩ (begun, bmc) := ⟨rfl, rfl⟩
  have prepares :
      Drives (memoryBoard stride) (begun, bmc)
        ⟨⟨.none, 0⟩, false⟩ (prepared, bmc) := ⟨rfl, trivial⟩
  have transfers :
      Drives (memoryBoard stride) (prepared, bmc)
        ⟨⟨.none, 0⟩, false⟩ (atLoop, bmc) := ⟨rfl, rfl⟩
  refine Writes.cons _ begins
    (Writes.cons _ prepares (Writes.cons _ transfers ?_))
  exact writes_from_loop isStride image.length atLoop bmc 0 rfl rfl

/-! ## Two images -/

/-- One block of zeros, and one byte behind it. -/
def zeroBlockAndByte : List Byte := List.replicate 0x4000 0 ++ [1]

theorem length_zeroBlockAndByte : zeroBlockAndByte.length = 0x4001 := by
  rw [zeroBlockAndByte, List.length_append, List.length_replicate,
    List.length_singleton]

theorem not_tailRepeats_zeroBlockAndByte :
    ¬ TailRepeats zeroBlockAndByte 4 := by
  have aligned : alignedSize zeroBlockAndByte 4 = 0x4000 := by
    rw [alignedSize, length_zeroBlockAndByte]
  have last : lastBlock zeroBlockAndByte = 0x4000 := by
    rw [lastBlock, length_zeroBlockAndByte]
    rfl
  have first : zeroBlockAndByte = 0 :: (List.replicate 0x3fff 0 ++ [1]) := by
    rw [zeroBlockAndByte, List.replicate_succ, List.cons_append]
  have tail : zeroBlockAndByte.drop 0x4000 = [1] := by
    rw [zeroBlockAndByte, List.drop_left' List.length_replicate]
  have read : leftover zeroBlockAndByte 4 = [0] := by
    rw [leftover, aligned, last, length_zeroBlockAndByte, first]
    rfl
  rw [TailRepeats, read, aligned, tail]
  decide

/-- The byte behind the block is not written, but the first of the block. -/
theorem staging_differs_behind_block :
    ∃ path, IsPath (Drives (memoryBoard 4))
        (queued zeroBlockAndByte, fun _ => 0) path ∧
      ∃ entry ∈ path, entry.2.1.pc = .startProgram ∧
        ¬ Holds entry.2.2 m10bmcStagingBase
          (paddedImage zeroBlockAndByte 4) := by
  have isStride : RegStride 4 := Or.inr (Or.inr rfl)
  have fits : zeroBlockAndByte.length ≤ m10bmcStagingSize := by
    rw [length_zeroBlockAndByte]
    decide
  have nonempty : zeroBlockAndByte ≠ [] := by
    intro empty
    have length := length_zeroBlockAndByte
    rw [empty] at length
    exact absurd length (by decide)
  obtain ⟨path, isPath, entry, member, written⟩ :=
    writes_queued isStride zeroBlockAndByte (fun _ => 0)
  refine ⟨path, isPath, entry, member, written, fun padded => ?_⟩
  have holds :=
    holds_stagedImage (stagingLaws_memoryBoard 4) rfl isStride fits nonempty
      (startsUpload_queued _) isPath member written
  refine not_tailRepeats_zeroBlockAndByte ?_
  rw [← stagedImage_eq_paddedImage_iff _ isStride]
  exact holds.eq_of_length padded (length_stagedImage _ isStride)

/-- One block and one byte behind it, which is the byte at its beginning. -/
theorem staging_holds_equal_bytes :
    ∃ path, IsPath (Drives (memoryBoard 4))
        (queued (List.replicate 0x4001 5), fun _ => 0) path ∧
      ∃ entry ∈ path, entry.2.1.pc = .startProgram ∧
        Holds entry.2.2 m10bmcStagingBase
          (paddedImage (List.replicate 0x4001 5) 4) := by
  have isStride : RegStride 4 := Or.inr (Or.inr rfl)
  have fits : (List.replicate 0x4001 (5 : Byte)).length ≤
      m10bmcStagingSize := by
    rw [List.length_replicate]
    decide
  have nonempty : List.replicate 0x4001 (5 : Byte) ≠ [] := by
    rw [Ne, List.replicate_eq_nil_iff]
    decide
  obtain ⟨path, isPath, entry, member, written⟩ :=
    writes_queued isStride (List.replicate 0x4001 5) (fun _ => 0)
  refine ⟨path, isPath, entry, member, written, ?_⟩
  exact (staging_holds_image_iff (stagingLaws_memoryBoard 4) rfl isStride fits
    nonempty (startsUpload_queued _) isPath member written).mpr
      (Or.inr (Or.inr (tailRepeats_replicate _ _ _)))

end LinuxDfl.Bmc

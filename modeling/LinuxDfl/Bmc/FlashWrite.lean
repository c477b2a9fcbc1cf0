import Mathlib.Tactic.SplitIfs
import LinuxDfl.Bmc.PmciFlash

/-!
# Bulk writes to the flash

What a bulk write leaves in the FIFO of the flash.  The loop takes the bytes
of each block for written, although it writes whole words only; so the bytes
behind the last word of a block are lost unless that block is less than a
word.
-/

namespace LinuxDfl.Bmc.PmciFlash

open LinuxDfl.Kernel
open LinuxDfl.Lib.LittleEndian
open LinuxDfl.Lib.ByteStore

variable {Env : Type}

/-! ## What a trace says -/

/-- The words which are written to the FIFO. -/
def fifoWrites : List Access → List (BitVec 32)
  | [] => []
  | .writel reg val :: rest =>
      if reg = flashFifo then val :: fifoWrites rest else fifoWrites rest
  | .readl _ _ :: rest => fifoWrites rest
  | .timeout :: rest => fifoWrites rest

/-- The space which is left behind some accesses. -/
def spaceLeft : Nat → List Access → Nat
  | granted, [] => granted
  | granted, .readl reg val :: rest =>
      spaceLeft (if reg = flashCtrl then flashFifoSpace val else granted) rest
  | granted, .writel reg _ :: rest =>
      spaceLeft (if reg = flashFifo then granted - 1 else granted) rest
  | _, .timeout :: rest => spaceLeft 0 rest

/--
No more words are written than there is space for by the last reading of
the space.
-/
def WithinSpace : Nat → List Access → Prop
  | _, [] => True
  | granted, .readl reg val :: rest =>
      WithinSpace (if reg = flashCtrl then flashFifoSpace val else granted)
        rest
  | granted, .writel reg _ :: rest =>
      if reg = flashFifo then 0 < granted ∧ WithinSpace (granted - 1) rest
      else WithinSpace granted rest
  | _, .timeout :: rest => WithinSpace 0 rest

theorem fifoWrites_append (left right : List Access) :
    fifoWrites (left ++ right) = fifoWrites left ++ fifoWrites right := by
  induction left with
  | nil => rfl
  | cons access left ih =>
      cases access with
      | readl reg val => exact ih
      | timeout => exact ih
      | writel reg val =>
          simp only [List.cons_append, fifoWrites, ih]
          split_ifs <;> rfl

theorem spaceLeft_append (granted : Nat) (left right : List Access) :
    spaceLeft granted (left ++ right) =
      spaceLeft (spaceLeft granted left) right := by
  induction left generalizing granted with
  | nil => rfl
  | cons access left ih => cases access <;> exact ih _

theorem withinSpace_append (granted : Nat) (left right : List Access) :
    WithinSpace granted (left ++ right) ↔
      WithinSpace granted left ∧
        WithinSpace (spaceLeft granted left) right := by
  induction left generalizing granted with
  | nil => simp [WithinSpace, spaceLeft]
  | cons access left ih =>
      cases access with
      | readl reg val => exact ih _
      | timeout => exact ih _
      | writel reg val =>
          simp only [List.cons_append, WithinSpace, spaceLeft]
          split_ifs
          · rw [ih, and_assoc]
          · exact ih _

/-- Readings of the control register. -/
def ctrlReads (vals : List (BitVec 32)) : List Access :=
  vals.map (.readl flashCtrl)

theorem fifoWrites_ctrlReads (vals : List (BitVec 32)) :
    fifoWrites (ctrlReads vals) = [] := by
  induction vals with
  | nil => rfl
  | cons val vals ih => exact ih

theorem withinSpace_ctrlReads (granted : Nat) (vals : List (BitVec 32)) :
    WithinSpace granted (ctrlReads vals) := by
  induction vals generalizing granted with
  | nil => trivial
  | cons val vals ih => exact ih _

/-- The last reading of the control register counts. -/
theorem spaceLeft_ctrlReads (granted : Nat) (vals : List (BitVec 32))
    (val : BitVec 32) :
    spaceLeft granted (ctrlReads (vals ++ [val])) = flashFifoSpace val := by
  induction vals generalizing granted with
  | nil => rfl
  | cons first vals ih => exact ih _

/-- Writes to the FIFO. -/
def fifoAccesses (words : List (BitVec 32)) : List Access :=
  words.map (.writel flashFifo)

theorem fifoWrites_fifoAccesses (words : List (BitVec 32)) :
    fifoWrites (fifoAccesses words) = words := by
  induction words with
  | nil => rfl
  | cons word words ih =>
      show fifoWrites (.writel flashFifo word :: fifoAccesses words) = _
      rw [fifoWrites, if_pos rfl, ih]

theorem withinSpace_fifoAccesses {granted : Nat} {words : List (BitVec 32)}
    (fits : words.length ≤ granted) :
    WithinSpace granted (fifoAccesses words) := by
  induction words generalizing granted with
  | nil => trivial
  | cons word words ih =>
      rw [List.length_cons] at fits
      show WithinSpace granted (.writel flashFifo word :: fifoAccesses words)
      rw [WithinSpace, if_pos rfl]
      exact ⟨by omega, ih (by omega)⟩

/-! ## The words of a buffer -/

/-- Words of the buffer from the offset on. -/
def wordsFrom (buf : List Byte) (offset count : Nat) : List (BitVec 32) :=
  (List.range count).map fun i => wordAt (buf.drop (offset + fifoWordSize * i))

/-- The words of the buffer, the last one filled up with zeros. -/
def paddedWords (buf : List Byte) : List (BitVec 32) :=
  wordsFrom buf 0 ((buf.length + fifoWordSize - 1) / fifoWordSize)

theorem length_wordsFrom (buf : List Byte) (offset count : Nat) :
    (wordsFrom buf offset count).length = count := by
  simp [wordsFrom]

theorem wordsFrom_succ (buf : List Byte) (offset count : Nat) :
    wordsFrom buf offset (count + 1) =
      wordAt (buf.drop offset) ::
        wordsFrom buf (offset + fifoWordSize) count := by
  have shift (i : Nat) :
      offset + fifoWordSize * (i + 1) =
        offset + fifoWordSize + fifoWordSize * i := by
    rw [Nat.mul_add, Nat.mul_one]
    omega
  rw [wordsFrom, List.range_succ_eq_map, List.map_cons, List.map_map,
    Nat.mul_zero, Nat.add_zero]
  refine congrArg (_ :: ·) (List.map_congr_left fun i _ => ?_)
  exact congrArg (fun position => wordAt (buf.drop position)) (shift i)

theorem wordsFrom_add (buf : List Byte) (offset left right : Nat) :
    wordsFrom buf offset (left + right) =
      wordsFrom buf offset left ++
        wordsFrom buf (offset + fifoWordSize * left) right := by
  induction left generalizing offset with
  | zero => rw [Nat.zero_add]; rfl
  | succ left ih =>
      have shift :
          offset + fifoWordSize + fifoWordSize * left =
            offset + fifoWordSize * (left + 1) := by
        rw [Nat.mul_add, Nat.mul_one]
        omega
      rw [Nat.add_right_comm, wordsFrom_succ, wordsFrom_succ, ih,
        List.cons_append, shift]

/-! ## One round -/

theorem pmciWriteFifo_trace (io : PmciIo Env) (buf : List Byte)
    (offset count : Nat) (pmci : Pmci Env) :
    (pmciWriteFifo io (buf.drop offset) count pmci).trace =
      pmci.trace ++ fifoAccesses (wordsFrom buf offset count) := by
  induction count generalizing offset pmci with
  | zero => exact (List.append_nil _).symm
  | succ count ih =>
      rw [pmciWriteFifo, List.drop_drop, ih, wordsFrom_succ, Pmci.writel,
        List.append_assoc]
      rfl

/-- A poll which succeeds ends with a reading which it waits for. -/
theorem pollLoop_none {io : PmciIo Env} {cond : BitVec 32 → Bool}
    {count : Nat} {pmci last : Pmci Env} {val : BitVec 32}
    (polls : pollLoop io cond count pmci = (none, val, last)) :
    cond val = true ∧
      ∃ vals, last.trace = pmci.trace ++ ctrlReads (vals ++ [val]) := by
  induction count generalizing pmci with
  | zero =>
      rw [pollLoop] at polls
      by_cases good : cond (pmci.readl io flashCtrl).1 = true
      · rw [if_pos good] at polls
        cases polls
        exact ⟨good, [], rfl⟩
      · rw [if_neg good] at polls
        cases polls
  | succ count ih =>
      rw [pollLoop] at polls
      by_cases good : cond (pmci.readl io flashCtrl).1 = true
      · rw [if_pos good] at polls
        cases polls
        exact ⟨good, [], rfl⟩
      · rw [if_neg good] at polls
        obtain ⟨whole, vals, trace⟩ := ih polls
        refine ⟨whole, (pmci.readl io flashCtrl).1 :: vals, trace.trans ?_⟩
        exact List.append_assoc _ _ _

/-- A poll which fails has timed out. -/
theorem pollLoop_some {io : PmciIo Env} {cond : BitVec 32 → Bool}
    {count : Nat} {pmci last : Pmci Env} {val : BitVec 32} {ret : Errno}
    (polls : pollLoop io cond count pmci = (some ret, val, last)) :
    ∃ vals, last.trace = pmci.trace ++ (ctrlReads vals ++ [.timeout]) := by
  induction count generalizing pmci with
  | zero =>
      rw [pollLoop] at polls
      by_cases good : cond (pmci.readl io flashCtrl).1 = true
      · rw [if_pos good] at polls
        cases polls
      · rw [if_neg good] at polls
        cases polls
        exact ⟨[(pmci.readl io flashCtrl).1], List.append_assoc _ _ _⟩
  | succ count ih =>
      rw [pollLoop] at polls
      by_cases good : cond (pmci.readl io flashCtrl).1 = true
      · rw [if_pos good] at polls
        cases polls
      · rw [if_neg good] at polls
        obtain ⟨vals, trace⟩ := ih polls
        refine ⟨(pmci.readl io flashCtrl).1 :: vals, trace.trans ?_⟩
        exact List.append_assoc _ _ _

/-- Unless the poll times out, the whole FIFO is granted. -/
theorem pmciGetWriteSpace_spec (io : PmciIo Env) (pmci : Pmci Env) :
    ∃ events,
      (pmciGetWriteSpace io pmci).2.trace = pmci.trace ++ events ∧
        fifoWrites events = [] ∧
        (Access.timeout ∉ events →
          (pmciGetWriteSpace io pmci).1 = fifoMaxBytes ∧
            ∀ granted, WithinSpace granted events ∧
              spaceLeft granted events = fifoMaxWords) := by
  unfold pmciGetWriteSpace readPollTimeout
  rcases polls : pollLoop _ _ _ _ with ⟨_ | ret, val, last⟩
  · obtain ⟨whole, vals, trace⟩ := pollLoop_none polls
    have whole : flashFifoSpace val = fifoMaxWords := by simpa using whole
    refine ⟨_, trace, fifoWrites_ctrlReads _, fun _ => ⟨?_, ?_⟩⟩
    · simp only [whole]
      decide
    · intro granted
      rw [spaceLeft_ctrlReads, whole]
      exact ⟨withinSpace_ctrlReads _ _, rfl⟩
  · obtain ⟨vals, trace⟩ := pollLoop_some polls
    refine ⟨_, trace, ?_, fun never => absurd ?_ never⟩
    · rw [fifoWrites_append, fifoWrites_ctrlReads]
      rfl
    · exact List.mem_append_right _ List.mem_cons_self

/-! ## The loop -/

/-- The bytes which are left to the remainder behind the loop. -/
def leftOver (size : Nat) : Nat :=
  if size % fifoMaxBytes < fifoWordSize then size % fifoMaxBytes else 0

/-- What the loop does, from this offset on, unless a poll times out. -/
structure LoopWrites (buf : List Byte) (size offset : Nat)
    (result : Option Errno × Nat × Nat × Pmci Env)
    (events : List Access) : Prop where
  succeeds : result.1 = none
  leaves : result.2.1 = leftOver size
  upTo : result.2.1 + result.2.2.1 = size + offset
  words : fifoWrites events = wordsFrom buf offset (size / fifoWordSize)
  within : ∀ granted, WithinSpace granted events
  space : result.2.1 ≠ 0 → ∀ granted, 0 < spaceLeft granted events

/-- The accesses of a poll which grants the whole FIFO. -/
structure Grants (polled : List Access) : Prop where
  noWrites : fifoWrites polled = []
  within : ∀ granted, WithinSpace granted polled
  space : ∀ granted, spaceLeft granted polled = fifoMaxWords

theorem LoopWrites.nothing (buf : List Byte) (offset : Nat)
    (pmci : Pmci Env) :
    LoopWrites buf 0 offset (none, 0, offset, pmci) [] where
  succeeds := rfl
  leaves := rfl
  upTo := rfl
  words := rfl
  within _ := trivial
  space more := absurd rfl more

/-- Less than a word is left to the remainder. -/
theorem Grants.remainder {polled : List Access} (grants : Grants polled)
    (buf : List Byte) {size : Nat} (short : size < fifoWordSize)
    (offset : Nat) (pmci : Pmci Env) :
    LoopWrites buf size offset (none, size, offset, pmci) polled where
  succeeds := rfl
  leaves := by
    have maximum := fifoMaxBytes_eq
    have word := fifoWordSize_eq
    rw [leftOver, Nat.mod_eq_of_lt (by omega), if_pos short]
  upTo := rfl
  words := by
    rw [grants.noWrites, Nat.div_eq_of_lt short]
    rfl
  within := grants.within
  space _ granted := by
    rw [grants.space]
    decide

/-- The words of a block are written in front of those of the others. -/
theorem Grants.block {polled : List Access} (grants : Grants polled)
    {buf : List Byte} {size offset : Nat} (long : fifoWordSize ≤ size)
    {result : Option Errno × Nat × Nat × Pmci Env} {events : List Access}
    (later :
      LoopWrites buf (size - min fifoMaxBytes size)
        (offset + min fifoMaxBytes size) result events) :
    LoopWrites buf size offset result
      (polled ++
        fifoAccesses
          (wordsFrom buf offset (min fifoMaxBytes size / fifoWordSize)) ++
        events) where
  succeeds := later.succeeds
  leaves := by
    have maximum := fifoMaxBytes_eq
    have word := fifoWordSize_eq
    rw [later.leaves]
    unfold leftOver
    by_cases more : fifoMaxBytes ≤ size
    · rw [Nat.min_eq_left more, ← Nat.mod_eq_sub_mod more]
    · rw [Nat.min_eq_right (by omega), Nat.sub_self, Nat.zero_mod,
        Nat.mod_eq_of_lt (by omega), if_pos (by omega), if_neg (by omega)]
  upTo := by
    have upTo := later.upTo
    omega
  words := by
    have maximum := fifoMaxBytes_eq
    have word := fifoWordSize_eq
    rw [fifoWrites_append, fifoWrites_append, grants.noWrites,
      fifoWrites_fifoAccesses, later.words, List.nil_append]
    by_cases more : fifoMaxBytes ≤ size
    · have total : size / 4 = 512 + (size - 2048) / 4 := by omega
      rw [Nat.min_eq_left more, maximum, word, total, wordsFrom_add, word]
    · rw [Nat.min_eq_right (by omega), Nat.sub_self, Nat.zero_div]
      exact List.append_nil _
  within granted := by
    have maximum := fifoMaxBytes_eq
    have words := fifoMaxWords_eq
    have word := fifoWordSize_eq
    rw [withinSpace_append, withinSpace_append, grants.space]
    refine ⟨⟨grants.within granted, withinSpace_fifoAccesses ?_⟩, ?_⟩
    · have most := Nat.min_le_left fifoMaxBytes size
      rw [length_wordsFrom, word, words]
      omega
    · exact later.within _
  space more granted := by
    rw [spaceLeft_append]
    exact later.space more _

theorem bulkWriteLoop_spec (io : PmciIo Env) (buf : List Byte)
    {fuel size : Nat} (enough : size ≤ fuel) (offset : Nat)
    (pmci : Pmci Env) :
    let result := bulkWriteLoop io buf fuel size offset pmci
    ∃ events, result.2.2.2.trace = pmci.trace ++ events ∧
      (Access.timeout ∉ events → LoopWrites buf size offset result events) := by
  induction fuel generalizing size offset pmci with
  | zero =>
      obtain rfl : size = 0 := by omega
      refine ⟨[], (List.append_nil _).symm, fun _ => ?_⟩
      exact LoopWrites.nothing buf offset pmci
  | succ fuel ih =>
      by_cases atEnd : size = 0
      · subst atEnd
        refine ⟨[], (List.append_nil _).symm, fun _ => ?_⟩
        exact LoopWrites.nothing buf offset pmci
      obtain ⟨polled, atSpace, noWrites, spec⟩ :=
        pmciGetWriteSpace_spec io pmci
      have grants (inTime : Access.timeout ∉ polled) : Grants polled :=
        ⟨noWrites, fun granted => ((spec inTime).2 granted).1,
          fun granted => ((spec inTime).2 granted).2⟩
      rw [bulkWriteLoop, if_neg atEnd]
      by_cases none : min (pmciGetWriteSpace io pmci).1 size = 0
      · refine ⟨polled, ?_, fun inTime => ?_⟩
        · simp only [if_pos none]
          exact atSpace
        · have maximum := fifoMaxBytes_eq
          rw [(spec inTime).1] at none
          omega
      simp only [if_neg none]
      by_cases short : size < fifoWordSize
      · simp only [if_pos short]
        exact ⟨polled, atSpace,
          fun inTime => (grants inTime).remainder buf short offset _⟩
      · simp only [if_neg short]
        have less :
            size - min (pmciGetWriteSpace io pmci).1 size ≤ fuel := by
          omega
        obtain ⟨events, trace, later⟩ :=
          ih less (offset + min (pmciGetWriteSpace io pmci).1 size)
            (pmciWriteFifo io (buf.drop offset)
              (min (pmciGetWriteSpace io pmci).1 size / fifoWordSize)
              (pmciGetWriteSpace io pmci).2)
        rw [pmciWriteFifo_trace, atSpace, List.append_assoc,
          List.append_assoc] at trace
        refine ⟨_, trace, fun inTime => ?_⟩
        simp only [List.mem_append, not_or] at inTime
        obtain ⟨inPoll, -, inLater⟩ := inTime
        have later := later inLater
        rw [(spec inPoll).1] at later ⊢
        rw [← List.append_assoc]
        exact (grants inPoll).block (Nat.not_lt.mp short) later

/-! ## The whole write -/

/-- What a bulk write should do with the FIFO. -/
structure WritesBuffer (buf : List Byte) (ret : Option Errno)
    (trace : List Access) : Prop where
  succeeds : ret = none
  words : fifoWrites trace = paddedWords buf
  within : WithinSpace 0 trace

/-- What a bulk write does, unless a poll times out. -/
theorem pmciFlashBulkWrite_spec (io : PmciIo Env) (buf : List Byte)
    (env : Env) :
    let result := pmciFlashBulkWrite io buf ⟨env, []⟩
    Access.timeout ∉ result.2.trace →
      result.1 = none ∧
        fifoWrites result.2.trace =
          wordsFrom buf 0
            (buf.length / fifoWordSize +
              if leftOver buf.length = 0 then 0 else 1) ∧
        WithinSpace 0 result.2.trace := by
  intro result inTime
  have isResult : result = pmciFlashBulkWrite io buf ⟨env, []⟩ := rfl
  obtain ⟨events, trace, spec⟩ :=
    bulkWriteLoop_spec io buf (Nat.le_refl buf.length) 0 ⟨env, []⟩
  rcases loop : bulkWriteLoop io buf buf.length buf.length 0 ⟨env, []⟩ with
    ⟨ret, size, offset, last⟩
  rw [loop] at trace spec
  obtain rfl : last.trace = events := trace
  rw [pmciFlashBulkWrite, loop] at isResult
  cases ret with
  | some ret =>
      rw [isResult] at inTime
      cases (spec inTime).succeeds
  | none =>
      by_cases whole : size = 0
      · simp only [whole, ne_eq, not_true_eq_false, if_false] at isResult
        rw [isResult] at inTime ⊢
        have writes := spec inTime
        have leaves : leftOver buf.length = 0 :=
          writes.leaves.symm.trans whole
        rw [if_pos leaves, Nat.add_zero]
        exact ⟨rfl, writes.words, writes.within 0⟩
      · simp only [ne_eq, whole, not_false_eq_true, if_true] at isResult
        have written :
            result.2.trace =
              last.trace ++
                fifoAccesses [wordAt ((buf.drop offset).take size)] := by
          rw [isResult]
          rfl
        rw [written, List.mem_append, not_or] at inTime
        have writes := spec inTime.1
        have leaves : size = leftOver buf.length := writes.leaves
        have upTo : size + offset = buf.length := writes.upTo
        have remainder :
            wordsFrom buf (0 + fifoWordSize * (buf.length / fifoWordSize)) 1 =
              [wordAt ((buf.drop offset).take size)] := by
          have maximum := fifoMaxBytes_eq
          have word := fifoWordSize_eq
          have short : buf.length % 2048 < 4 := by
            by_contra long
            rw [leftOver, maximum, word, if_neg long] at leaves
            exact whole leaves
          rw [leftOver, maximum, word, if_pos short] at leaves
          have position : 4 * (buf.length / 4) = offset := by omega
          have all : (buf.drop offset).take size = buf.drop offset := by
            refine List.take_of_length_le ?_
            rw [List.length_drop]
            omega
          rw [wordsFrom_succ, word, Nat.zero_add, position, all]
          rfl
        rw [written, fifoWrites_append, fifoWrites_fifoAccesses,
          writes.words, withinSpace_append, if_neg (leaves ▸ whole),
          wordsFrom_add, remainder]
        refine ⟨by rw [isResult], rfl, writes.within 0, ?_⟩
        exact withinSpace_fifoAccesses (writes.space whole 0)

/--
A bulk write of which no poll times out writes the buffer if and only if the
size is one of whole words, or less than a word is left behind the last whole
block.
-/
theorem pmciFlashBulkWrite_iff
    (io : PmciIo Env)
    (buf : List Byte)
    (env : Env)
    (inTime :
      Access.timeout ∉ (pmciFlashBulkWrite io buf ⟨env, []⟩).2.trace) :
    WritesBuffer buf (pmciFlashBulkWrite io buf ⟨env, []⟩).1
        (pmciFlashBulkWrite io buf ⟨env, []⟩).2.trace ↔
      buf.length % fifoWordSize = 0 ∨
        buf.length % fifoMaxBytes < fifoWordSize := by
  have maximum := fifoMaxBytes_eq
  have word := fifoWordSize_eq
  obtain ⟨succeeds, words, within⟩ := pmciFlashBulkWrite_spec io buf env inTime
  constructor
  · intro writes
    have lengths := congrArg List.length (words.symm.trans writes.words)
    rw [paddedWords, length_wordsFrom, length_wordsFrom, leftOver, maximum,
      word] at lengths
    rw [maximum, word]
    split_ifs at lengths <;> omega
  · intro aligned
    refine ⟨succeeds, words.trans ?_, within⟩
    have count :
        (buf.length / fifoWordSize +
            if leftOver buf.length = 0 then 0 else 1) =
          (buf.length + fifoWordSize - 1) / fifoWordSize := by
      rw [maximum, word] at aligned
      rw [leftOver, maximum, word]
      split_ifs <;> omega
    rw [paddedWords, count]

/-! ## A lost byte -/

/-- A device whose FIFO is always empty. -/
def emptyFifo : PmciIo Unit where
  readl := fun _ env => (0x2000, env)
  writel := fun _ _ env => env
  polls := fun _ => 0

theorem five_bytes_lost :
    ¬ WritesBuffer [1, 2, 3, 4, 5]
        (pmciFlashBulkWrite emptyFifo [1, 2, 3, 4, 5] ⟨(), []⟩).1
        (pmciFlashBulkWrite emptyFifo [1, 2, 3, 4, 5] ⟨(), []⟩).2.trace ∧
      Access.timeout ∉
        (pmciFlashBulkWrite emptyFifo [1, 2, 3, 4, 5] ⟨(), []⟩).2.trace := by
  constructor
  · intro writes
    have words := writes.words
    revert words
    decide
  · decide

theorem three_bytes_written :
    WritesBuffer [1, 2, 3]
      (pmciFlashBulkWrite emptyFifo [1, 2, 3] ⟨(), []⟩).1
      (pmciFlashBulkWrite emptyFifo [1, 2, 3] ⟨(), []⟩).2.trace :=
  (pmciFlashBulkWrite_iff emptyFifo [1, 2, 3] () (by decide)).mpr
    (Or.inr (by decide))

end LinuxDfl.Bmc.PmciFlash

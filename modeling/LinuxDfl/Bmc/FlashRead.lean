import LinuxDfl.Bmc.FlashWrite

/-!
# Bulk reads from the flash

What a bulk read leaves in the caller's buffer, given a device which fills its
FIFO with the words of the flash it is asked for.  As in a write, the loop
takes all bytes of the last block for read, so that the word which holds the
bytes behind the whole words stays in the FIFO, and the device in read mode.
-/

namespace LinuxDfl.Bmc.PmciFlash

open LinuxDfl.Kernel
open LinuxDfl.Lib.LittleEndian
open LinuxDfl.Lib.ByteStore

variable {Env : Type}

/-! ## The device -/

/-- What the device has for the driver. -/
structure FlashView where
  addr : BitVec 32
  ctrl : BitVec 32
  fifo : List (BitVec 32)
  /-- The FIFO has been seen to be filled. -/
  ready : Bool

/-- Bytes of the flash from this address on. -/
def flashBytes (flash : BitVec 32 → Byte) (addr : BitVec 32) (count : Nat) :
    List Byte :=
  (List.range count).map fun i => flash (addr + BitVec.ofNat 32 i)

/-- Words of the flash from this address on. -/
def flashWords (flash : BitVec 32 → Byte) (addr : BitVec 32) (count : Nat) :
    List (BitVec 32) :=
  (List.range count).map fun i =>
    wordAt
      (flashBytes flash (addr + BitVec.ofNat 32 (fifoWordSize * i))
        fifoWordSize)

/--
A device with this flash: a command to read fills the FIFO, the FIFO can be
read once the device is not busy any more, and reading the control register
changes nothing else.
-/
structure FlashLaws (io : PmciIo Env) (view : Env → FlashView)
    (flash : BitVec 32 → Byte) : Prop where
  setAddr : ∀ addr env,
    view (io.writel flashAddr addr env) = { view env with addr := addr }
  startRead : ∀ val env, val &&& flashRdMode ≠ 0 →
    view (io.writel flashCtrl val env) =
      { addr := (view env).addr
        ctrl := val
        fifo := flashWords flash (view env).addr (flashReadCount val)
        ready := false }
  stopRead : ∀ val env, val &&& flashRdMode = 0 →
    (view (io.writel flashCtrl val env)).ctrl = val
  readCtrl : ∀ env,
    view (io.readl flashCtrl env).2 =
      { view env with
        ready :=
          (view env).ready ||
            decide ((io.readl flashCtrl env).1 &&& flashBusy = 0) }
  readFifo : ∀ env word rest, (view env).ready = true →
    (view env).fifo = word :: rest →
      (io.readl flashFifo env).1 = word ∧
        view (io.readl flashFifo env).2 = { view env with fifo := rest }

/-- The words which a value of the control register requests. -/
def requested (val : BitVec 32) : Nat :=
  if val &&& flashRdMode = 0 then 0 else flashReadCount val

/-- Every command to read is followed by as many reads of the FIFO. -/
def ReadsRequested : Nat → List Access → Prop
  | outstanding, [] => outstanding = 0
  | outstanding, .writel reg val :: rest =>
      if reg = flashCtrl then
        outstanding = 0 ∧ ReadsRequested (requested val) rest
      else ReadsRequested outstanding rest
  | outstanding, .readl reg _ :: rest =>
      if reg = flashFifo then
        0 < outstanding ∧ ReadsRequested (outstanding - 1) rest
      else ReadsRequested outstanding rest
  | outstanding, .timeout :: rest => ReadsRequested outstanding rest

/-- What a bulk read should do. -/
structure ReadsFlash (flash : BitVec 32 → Byte) (view : Env → FlashView)
    (buf : Storage) (addr : BitVec 32) (size : Nat)
    (result : Option Errno × Storage × Pmci Env) : Prop where
  succeeds : result.1 = none
  content : load result.2.1 0 size = flashBytes flash addr size
  beyond : ∀ position, size ≤ position →
    result.2.1 position = buf position
  requests : ReadsRequested 0 result.2.2.trace
  stopped : (view result.2.2.env).ctrl = 0

/-! ## Traces and bytes -/

theorem readsRequested_ctrlReads (outstanding : Nat)
    (vals : List (BitVec 32)) (rest : List Access) :
    ReadsRequested outstanding (ctrlReads vals ++ rest) ↔
      ReadsRequested outstanding rest := by
  induction vals with
  | nil => exact Iff.rfl
  | cons val vals ih => exact ih

/-- Reads of the FIFO. -/
def fifoReads (words : List (BitVec 32)) : List Access :=
  words.map (.readl flashFifo)

theorem readsRequested_fifoReads (outstanding : Nat)
    (words : List (BitVec 32)) (rest : List Access) :
    ReadsRequested (words.length + outstanding) (fifoReads words ++ rest) ↔
      ReadsRequested outstanding rest := by
  induction words with
  | nil =>
      rw [List.length_nil, Nat.zero_add]
      exact Iff.rfl
  | cons word words ih =>
      show ReadsRequested ((words.length + 1) + outstanding)
        (.readl flashFifo word :: (fifoReads words ++ rest)) ↔ _
      have less :
          words.length + 1 + outstanding - 1 = words.length + outstanding := by
        omega
      have some : 0 < words.length + 1 + outstanding := by omega
      rw [ReadsRequested, if_pos rfl, less]
      simp only [some, true_and, ih]

theorem flashBytes_add (flash : BitVec 32 → Byte) (addr : BitVec 32)
    (left right : Nat) :
    flashBytes flash addr (left + right) =
      flashBytes flash addr left ++
        flashBytes flash (addr + BitVec.ofNat 32 left) right := by
  have shift (i : Nat) :
      addr + BitVec.ofNat 32 (left + i) =
        addr + BitVec.ofNat 32 left + BitVec.ofNat 32 i := by
    rw [BitVec.ofNat_add, BitVec.add_assoc]
  simp only [flashBytes, List.range_add, List.map_append, List.map_map,
    Function.comp_def, shift]

theorem length_flashBytes (flash : BitVec 32 → Byte) (addr : BitVec 32)
    (count : Nat) : (flashBytes flash addr count).length = count := by
  simp [flashBytes]

theorem length_flashWords (flash : BitVec 32 → Byte) (addr : BitVec 32)
    (count : Nat) : (flashWords flash addr count).length = count := by
  simp [flashWords]

/-- The bytes which are stored for words of the FIFO. -/
def bytesOfWords (words : List (BitVec 32)) : List Byte :=
  words.flatMap fun word => toBytes fifoWordSize word.toNat

theorem toBytes_wordAt {bytes : List Byte}
    (length : bytes.length = fifoWordSize) :
    toBytes fifoWordSize (wordAt bytes).toNat = bytes := by
  have bound : ofBytes bytes < 2 ^ 32 := by
    have lt := ofBytes_lt bytes
    rwa [length] at lt
  have stored := toBytes_ofBytes bytes 0
  have taken : bytes.take fifoWordSize = bytes :=
    List.take_of_length_le (Nat.le_of_eq length)
  rw [length] at stored
  rw [wordAt, taken, BitVec.toNat_ofNat, Nat.mod_eq_of_lt bound]
  simpa using stored

/-- The words of the flash hold its bytes. -/
theorem bytesOfWords_flashWords (flash : BitVec 32 → Byte)
    (addr : BitVec 32) (count : Nat) :
    bytesOfWords (flashWords flash addr count) =
      flashBytes flash addr (fifoWordSize * count) := by
  induction count with
  | zero => rfl
  | succ count ih =>
      have last :=
        toBytes_wordAt
          (length_flashBytes flash
            (addr + BitVec.ofNat 32 (fifoWordSize * count)) fifoWordSize)
      have words :
          flashWords flash addr (count + 1) =
            flashWords flash addr count ++
              [wordAt
                (flashBytes flash
                  (addr + BitVec.ofNat 32 (fifoWordSize * count))
                  fifoWordSize)] := by
        simp [flashWords, List.range_succ]
      rw [words, bytesOfWords, List.flatMap_append, ← bytesOfWords, ih,
        Nat.mul_add, Nat.mul_one, flashBytes_add]
      simp only [List.flatMap_cons, List.flatMap_nil, List.append_nil, last]

/-! ## The parts of a round -/

theorem flashReadCount_command (count : BitVec 10) :
    (((count.setWidth 32) <<< 16 ||| flashRdMode).extractLsb' 16 10) =
      count := by
  revert count
  decide

theorem command_readMode (count : Nat) :
    (prepReadCount count ||| flashRdMode) &&& flashRdMode ≠ 0 := by
  intro clear
  have bit := congrArg (fun val => val.getLsbD 1) clear
  simp [flashRdMode] at bit

theorem requested_command {count : Nat} (fits : count < 2 ^ 10) :
    requested (prepReadCount count ||| flashRdMode) = count := by
  rw [requested, if_neg (command_readMode count), flashReadCount,
    prepReadCount, flashReadCount_command, BitVec.toNat_ofNat,
    Nat.mod_eq_of_lt fits]

section

variable {io : PmciIo Env} {view : Env → FlashView}
  {flash : BitVec 32 → Byte}

/-- Behind a poll for the end of the work the FIFO is ready. -/
theorem FlashLaws.pollLoop (laws : FlashLaws io view flash) {count : Nat}
    {pmci last : Pmci Env} {val : BitVec 32}
    (polls :
      pollLoop io (fun val => val &&& flashBusy = 0) count pmci =
        (none, val, last)) :
    view last.env = { view pmci.env with ready := true } := by
  induction count generalizing pmci with
  | zero =>
      rw [PmciFlash.pollLoop] at polls
      by_cases idle : (pmci.readl io flashCtrl).1 &&& flashBusy = 0
      · rw [if_pos (decide_eq_true idle)] at polls
        cases polls
        have read := laws.readCtrl pmci.env
        rw [show (io.readl flashCtrl pmci.env).1 &&& flashBusy = 0 from idle]
          at read
        simpa using read
      · rw [if_neg (by simpa using idle)] at polls
        cases polls
  | succ count ih =>
      rw [PmciFlash.pollLoop] at polls
      by_cases idle : (pmci.readl io flashCtrl).1 &&& flashBusy = 0
      · rw [if_pos (decide_eq_true idle)] at polls
        cases polls
        have read := laws.readCtrl pmci.env
        rw [show (io.readl flashCtrl pmci.env).1 &&& flashBusy = 0 from idle]
          at read
        simpa using read
      · rw [if_neg (by simpa using idle)] at polls
        have read := laws.readCtrl pmci.env
        have later := ih polls
        rw [show (pmci.readl io flashCtrl).2.env =
          (io.readl flashCtrl pmci.env).2 from rfl, read] at later
        exact later

/-- The words of the FIFO are stored in their order. -/
theorem FlashLaws.readFifoBlock (laws : FlashLaws io view flash)
    {words rest : List (BitVec 32)} {pmci : Pmci Env}
    (ready : (view pmci.env).ready = true)
    (fifo : (view pmci.env).fifo = words ++ rest) (buf : Storage)
    (position : Nat) :
    let result := pmciReadFifo io words.length buf position pmci
    result.1 = store buf position (bytesOfWords words) ∧
      result.2.trace = pmci.trace ++ fifoReads words ∧
      view result.2.env = { view pmci.env with fifo := rest } := by
  induction words generalizing pmci buf position with
  | nil =>
      refine ⟨(store_nil buf position).symm, (List.append_nil _).symm, ?_⟩
      show view pmci.env = _
      have fifo : (view pmci.env).fifo = rest := fifo
      rw [← fifo]
  | cons word words ih =>
      obtain ⟨isWord, isView⟩ := laws.readFifo pmci.env word _ ready fifo
      have readyNext :
          (view (pmci.readl io flashFifo).2.env).ready = true := by
        show (view (io.readl flashFifo pmci.env).2).ready = true
        rw [isView]
        exact ready
      have fifoNext :
          (view (pmci.readl io flashFifo).2.env).fifo = words ++ rest := by
        show (view (io.readl flashFifo pmci.env).2).fifo = _
        rw [isView]
        rfl
      obtain ⟨stored, trace, last⟩ :=
        ih readyNext fifoNext
          (store buf position (toBytes fifoWordSize word.toNat))
          (position + fifoWordSize)
      have read : (pmci.readl io flashFifo).1 = word := isWord
      simp only [List.length_cons, pmciReadFifo, read]
      refine ⟨stored.trans ?_, trace.trans ?_, last.trans ?_⟩
      · have behind :=
          store_append buf position (toBytes fifoWordSize word.toNat)
            (bytesOfWords words)
        rw [length_toBytes] at behind
        exact behind
      · rw [Pmci.readl, List.append_assoc, isWord]
        rfl
      · show { view (io.readl flashFifo pmci.env).2 with fifo := rest } = _
        rw [isView]

/-- The words which are requested for a block of this size. -/
def blockReads (blkSize : Nat) : Nat :=
  if blkSize / fifoWordSize * fifoWordSize < blkSize then
    blkSize / fifoWordSize + 1
  else blkSize / fifoWordSize

/-- The command to read a block. -/
def readCommand (blkSize : Nat) : BitVec 32 :=
  prepReadCount (blockReads blkSize) ||| flashRdMode

/-- The accesses for a block up to its last whole word. -/
def blockAccesses (flash : BitVec 32 → Byte) (addr : BitVec 32)
    (blkSize : Nat) (vals : List (BitVec 32)) : List Access :=
  [.writel flashAddr addr, .writel flashCtrl (readCommand blkSize)] ++
    ctrlReads vals ++
    fifoReads (flashWords flash addr (blkSize / fifoWordSize))

theorem blockReads_eq (blkSize : Nat) :
    blockReads blkSize =
      blkSize / fifoWordSize + if blkSize % fifoWordSize = 0 then 0 else 1 := by
  have word := fifoWordSize_eq
  unfold blockReads
  rw [word]
  split_ifs <;> omega

/-- Of the words requested, those behind the whole ones are outstanding. -/
theorem readsRequested_block (flash : BitVec 32 → Byte) (addr : BitVec 32)
    {blkSize : Nat} (fits : blkSize ≤ readBlockSize)
    (vals : List (BitVec 32)) (rest : List Access) :
    ReadsRequested 0 (blockAccesses flash addr blkSize vals ++ rest) ↔
      ReadsRequested (if blkSize % fifoWordSize = 0 then 0 else 1) rest := by
  have block := readBlockSize_eq
  have word := fifoWordSize_eq
  have small : blockReads blkSize < 2 ^ 10 := by
    rw [blockReads_eq, word]
    split_ifs <;> omega
  have command :
      ReadsRequested 0 (blockAccesses flash addr blkSize vals ++ rest) ↔
        ReadsRequested (requested (readCommand blkSize))
          (ctrlReads vals ++
            (fifoReads (flashWords flash addr (blkSize / fifoWordSize)) ++
              rest)) := by
    simp only [blockAccesses, List.append_assoc]
    constructor
    · exact And.right
    · exact fun later => ⟨rfl, later⟩
  have split :=
    readsRequested_fifoReads (if blkSize % fifoWordSize = 0 then 0 else 1)
      (flashWords flash addr (blkSize / fifoWordSize)) rest
  rw [length_flashWords, ← blockReads_eq] at split
  rw [command, readsRequested_ctrlReads, readCommand,
    requested_command small, split]

/-- A block is stored, and its accesses are those of the block. -/
theorem FlashLaws.block (laws : FlashLaws io view flash)
    (addr : BitVec 32) {blkSize : Nat} (fits : blkSize ≤ readBlockSize)
    (buf : Storage) (position : Nat) {pmci polled : Pmci Env}
    {val : BitVec 32}
    (polls :
      readPollTimeout io (fun val => val &&& flashBusy = 0)
          ((pmci.writel io flashAddr addr).writel io flashCtrl
            (readCommand blkSize)) =
        (none, val, polled)) :
    let read :=
      pmciReadFifo io (blkSize / fifoWordSize) buf position polled
    read.1 =
        store buf position
          (flashBytes flash addr
            (fifoWordSize * (blkSize / fifoWordSize))) ∧
      ∃ vals,
        read.2.trace =
          pmci.trace ++ blockAccesses flash addr blkSize vals := by
  have block := readBlockSize_eq
  have word := fifoWordSize_eq
  have small : blockReads blkSize < 2 ^ 10 := by
    rw [blockReads_eq, word]
    split_ifs <;> omega
  obtain ⟨-, vals, trace⟩ := pollLoop_none polls
  have counted : flashReadCount (readCommand blkSize) = blockReads blkSize := by
    have spec := requested_command small
    rwa [requested, if_neg (command_readMode _)] at spec
  obtain ⟨rest, words⟩ :
      ∃ rest,
        flashWords flash addr (blockReads blkSize) =
          flashWords flash addr (blkSize / fifoWordSize) ++ rest := by
    rw [blockReads_eq]
    simp only [flashWords, List.range_add, List.map_append]
    exact ⟨_, rfl⟩
  have atPoll := laws.pollLoop polls
  have started := laws.startRead (readCommand blkSize)
    (pmci.writel io flashAddr addr).env (command_readMode _)
  have addressed : (view (pmci.writel io flashAddr addr).env).addr = addr :=
    congrArg FlashView.addr (laws.setAddr addr pmci.env)
  rw [addressed, counted, words] at started
  have isPolled :
      view polled.env =
        ⟨addr, readCommand blkSize,
          flashWords flash addr (blkSize / fifoWordSize) ++ rest, true⟩ := by
    refine atPoll.trans ?_
    show { view (io.writel flashCtrl (readCommand blkSize)
      (pmci.writel io flashAddr addr).env) with ready := true } = _
    rw [started]
  have reads :=
    laws.readFifoBlock (congrArg FlashView.ready isPolled)
      (congrArg FlashView.fifo isPolled) buf position
  rw [length_flashWords, bytesOfWords_flashWords] at reads
  obtain ⟨stored, behind, -⟩ := reads
  refine ⟨stored, vals ++ [val], ?_⟩
  rw [behind, trace, blockAccesses]
  simp only [Pmci.writel, List.append_assoc, List.cons_append,
    List.nil_append]

/-! ## The loop -/

/-- What the loop does, from this offset on, unless a poll times out. -/
structure LoopReads (flash : BitVec 32 → Byte) (view : Env → FlashView)
    (addr : BitVec 32) (size offset : Nat) (buf : Storage) (env : Env)
    (result : ReadLoop Env) (events : List Access) : Prop where
  succeeds : result.ret = none
  whole : result.size = 0
  stored :
    result.buf =
      store buf offset
        (flashBytes flash (addr + BitVec.ofNat 32 offset)
          (fifoWordSize * (size / fifoWordSize)))
  requests : ReadsRequested 0 events ↔ size % fifoWordSize = 0
  stopped : size % fifoWordSize = 0 → size ≠ 0 →
    (view result.pmci.env).ctrl = 0
  nothing : size = 0 → result.pmci.env = env

theorem loopReads_nothing (flash : BitVec 32 → Byte) (view : Env → FlashView)
    (addr : BitVec 32) (offset : Nat) (buf : Storage) (pmci : Pmci Env) :
    LoopReads flash view addr 0 offset buf pmci.env
      ⟨none, 0, offset, buf, pmci⟩ [] where
  succeeds := rfl
  whole := rfl
  stored := (store_nil buf offset).symm
  requests := by
    constructor
    · exact fun _ => rfl
    · exact fun _ => rfl
  stopped _ more := absurd rfl more
  nothing _ := rfl

/-- The last block, when its last word is not a whole one. -/
theorem loopReads_partial {flash : BitVec 32 → Byte} {view : Env → FlashView}
    {addr : BitVec 32} {size offset : Nat} {buf stored : Storage}
    (fits : size ≤ readBlockSize) (odd : ¬ size % fifoWordSize = 0)
    (isStored :
      stored =
        store buf offset
          (flashBytes flash (addr + BitVec.ofNat 32 offset)
            (fifoWordSize * (size / fifoWordSize))))
    (vals : List (BitVec 32)) (env : Env) (last : Pmci Env) :
    LoopReads flash view addr size offset buf env
      ⟨none, size - size, offset + size, stored, last⟩
      (blockAccesses flash (addr + BitVec.ofNat 32 offset) size vals) where
  succeeds := rfl
  whole := Nat.sub_self size
  stored := isStored
  requests := by
    have block :=
      readsRequested_block flash (addr + BitVec.ofNat 32 offset) fits vals []
    rw [List.append_nil, if_neg odd] at block
    rw [block]
    constructor
    · intro one
      exact absurd one Nat.one_ne_zero
    · exact fun even => absurd even odd
  stopped even := absurd even odd
  nothing empty := absurd (by rw [empty]; rfl) odd

/-- A block of whole words, in front of the others. -/
theorem loopReads_block {flash : BitVec 32 → Byte} {view : Env → FlashView}
    {addr : BitVec 32} {size offset blkSize : Nat} {buf stored : Storage}
    (positive : 0 < blkSize) (within : blkSize ≤ size)
    (fits : blkSize ≤ readBlockSize) (even : blkSize % fifoWordSize = 0)
    (isStored :
      stored =
        store buf offset
          (flashBytes flash (addr + BitVec.ofNat 32 offset)
            (fifoWordSize * (blkSize / fifoWordSize))))
    (vals : List (BitVec 32)) (env cleared : Env)
    (stops : (view cleared).ctrl = 0) {result : ReadLoop Env}
    {events : List Access}
    (later :
      LoopReads flash view addr (size - blkSize) (offset + blkSize) stored
        cleared result events) :
    LoopReads flash view addr size offset buf env result
      (blockAccesses flash (addr + BitVec.ofNat 32 offset) blkSize vals ++
        .writel flashCtrl 0 :: events) where
  succeeds := later.succeeds
  whole := later.whole
  stored := by
    have word := fifoWordSize_eq
    have isBlock : fifoWordSize * (blkSize / fifoWordSize) = blkSize := by
      rw [word] at even ⊢
      omega
    have total :
        fifoWordSize * (size / fifoWordSize) =
          blkSize + fifoWordSize * ((size - blkSize) / fifoWordSize) := by
      rw [word] at even ⊢
      omega
    have behind :=
      store_append buf offset
        (flashBytes flash (addr + BitVec.ofNat 32 offset) blkSize)
        (flashBytes flash (addr + BitVec.ofNat 32 (offset + blkSize))
          (fifoWordSize * ((size - blkSize) / fifoWordSize)))
    rw [length_flashBytes] at behind
    rw [later.stored, isStored, isBlock, behind, total, flashBytes_add,
      BitVec.ofNat_add, BitVec.add_assoc]
  requests := by
    have word := fifoWordSize_eq
    rw [readsRequested_block flash _ fits, if_pos even]
    have cleared :
        ReadsRequested 0 (.writel flashCtrl 0 :: events) ↔
          ReadsRequested 0 events := by
      constructor
      · exact And.right
      · exact fun rest => ⟨rfl, rest⟩
    rw [cleared, later.requests]
    rw [word] at even ⊢
    omega
  stopped even' _ := by
    have word := fifoWordSize_eq
    by_cases last : size - blkSize = 0
    · rw [later.nothing last]
      exact stops
    · refine later.stopped ?_ last
      rw [word] at even even' ⊢
      omega
  nothing empty := by omega

theorem bulkReadLoop_spec (laws : FlashLaws io view flash) (addr : BitVec 32)
    {fuel size : Nat} (enough : size ≤ fuel) (offset : Nat) (buf : Storage)
    (pmci : Pmci Env) :
    let result := bulkReadLoop io addr fuel size offset buf pmci
    ∃ events, result.pmci.trace = pmci.trace ++ events ∧
      (Access.timeout ∉ events →
        LoopReads flash view addr size offset buf pmci.env result events) := by
  induction fuel generalizing size offset buf pmci with
  | zero =>
      obtain rfl : size = 0 := by omega
      refine ⟨[], (List.append_nil _).symm, fun _ => ?_⟩
      exact loopReads_nothing flash view addr offset buf pmci
  | succ fuel ih =>
      by_cases atEnd : size = 0
      · subst atEnd
        refine ⟨[], (List.append_nil _).symm, fun _ => ?_⟩
        exact loopReads_nothing flash view addr offset buf pmci
      rw [bulkReadLoop, if_neg atEnd]
      have isCount :
          (if min size readBlockSize / fifoWordSize * fifoWordSize <
              min size readBlockSize
            then min size readBlockSize / fifoWordSize + 1
            else min size readBlockSize / fifoWordSize) =
            blockReads (min size readBlockSize) := rfl
      have isCommand :
          prepReadCount (blockReads (min size readBlockSize)) |||
              flashRdMode =
            readCommand (min size readBlockSize) := rfl
      simp only [isCount, isCommand]
      have fits : min size readBlockSize ≤ readBlockSize :=
        Nat.min_le_right _ _
      have within : min size readBlockSize ≤ size := Nat.min_le_left _ _
      have block := readBlockSize_eq
      have word := fifoWordSize_eq
      have positive : 0 < min size readBlockSize := by omega
      generalize isBlk : min size readBlockSize = blkSize at *
      rcases polls : readPollTimeout io _ _ with ⟨_ | ret, val, polled⟩
      · obtain ⟨stored, vals, trace⟩ :=
          laws.block (addr + BitVec.ofNat 32 offset) fits buf offset polls
        dsimp only
        have reads := blockReads_eq blkSize
        by_cases even : blkSize % fifoWordSize = 0
        · have notPartial :
              ¬ blkSize / fifoWordSize < blockReads blkSize := by
            rw [reads, if_pos even]
            omega
          rw [if_neg notPartial]
          obtain ⟨events, later, spec⟩ :=
            ih (by omega : size - blkSize ≤ fuel) (offset + blkSize)
              (pmciReadFifo io (blkSize / fifoWordSize) buf offset polled).1
              ((pmciReadFifo io (blkSize / fifoWordSize) buf offset
                polled).2.writel io flashCtrl 0)
          refine
            ⟨blockAccesses flash (addr + BitVec.ofNat 32 offset) blkSize vals
              ++ .writel flashCtrl 0 :: events, ?_, fun inTime => ?_⟩
          · rw [later, Pmci.writel, trace]
            simp only [List.append_assoc, List.cons_append, List.nil_append]
          · have inLater : Access.timeout ∉ events := by
              intro member
              exact inTime (List.mem_append_right _
                (List.mem_cons_of_mem _ member))
            have clears : (0 : BitVec 32) &&& flashRdMode = 0 := by decide
            have stops :=
              laws.stopRead 0
                (pmciReadFifo io (blkSize / fifoWordSize) buf offset
                  polled).2.env clears
            exact
              loopReads_block positive within fits even stored vals _ _ stops
                (spec inLater)
        · have isPartial : blkSize / fifoWordSize < blockReads blkSize := by
            rw [reads, if_neg even]
            omega
          have all : blkSize = size := by
            rw [word] at even
            omega
          subst all
          rw [if_pos isPartial]
          exact ⟨_, trace, fun _ =>
            loopReads_partial fits even stored vals _ _⟩
      · obtain ⟨vals, trace⟩ := pollLoop_some polls
        refine
          ⟨[.writel flashAddr (addr + BitVec.ofNat 32 offset),
            .writel flashCtrl (readCommand blkSize)] ++
              (ctrlReads vals ++ [.timeout]), ?_, fun inTime => ?_⟩
        · rw [trace]
          simp only [Pmci.writel, List.append_assoc, List.cons_append,
            List.nil_append]
        · refine absurd ?_ inTime
          simp

end

/-! ## The whole read -/

/--
A bulk read of which no poll times out reads the flash if and only if the size
is one of whole words; and a read of nothing leaves the mode as it is.
-/
theorem pmciFlashBulkRead_iff
    {io : PmciIo Env}
    {view : Env → FlashView}
    {flash : BitVec 32 → Byte}
    (laws : FlashLaws io view flash)
    (buf : Storage)
    (addr : BitVec 32)
    (size : Nat)
    (env : Env)
    (inTime :
      Access.timeout ∉
        (pmciFlashBulkRead io buf addr size ⟨env, []⟩).2.2.trace) :
    ReadsFlash flash view buf addr size
        (pmciFlashBulkRead io buf addr size ⟨env, []⟩) ↔
      size % fifoWordSize = 0 ∧ (size = 0 → (view env).ctrl = 0) := by
  obtain ⟨events, trace, spec⟩ :=
    bulkReadLoop_spec laws addr (Nat.le_refl size) 0 buf ⟨env, []⟩
  rcases loop : bulkReadLoop io addr size size 0 buf ⟨env, []⟩ with
    ⟨ret, left, offset, stored, last⟩
  rw [loop] at trace spec
  obtain rfl : last.trace = events := trace
  have inLoop : Access.timeout ∉ last.trace := by
    intro member
    apply inTime
    rw [pmciFlashBulkRead, loop]
    cases ret with
    | some ret => exact member
    | none =>
        by_cases more : left ≠ 0
        · simp only [if_pos more, Pmci.readl, Pmci.writel]
          exact List.mem_append_left _ (List.mem_append_left _ member)
        · simp only [if_neg more]
          exact member
  have reads := spec inLoop
  have isNone : ret = none := reads.succeeds
  have isWhole : left = 0 := reads.whole
  subst isNone isWhole
  have isResult :
      pmciFlashBulkRead io buf addr size ⟨env, []⟩ = (none, stored, last) := by
    rw [pmciFlashBulkRead, loop]
    rfl
  rw [isResult]
  constructor
  · intro whole
    refine ⟨reads.requests.mp whole.requests, fun empty => ?_⟩
    have same : last.env = env := reads.nothing empty
    rw [← same]
    exact whole.stopped
  · rintro ⟨even, atNothing⟩
    have word := fifoWordSize_eq
    have isSize : fifoWordSize * (size / fifoWordSize) = size := by
      rw [word] at even ⊢
      omega
    have isStored : stored = store buf 0 (flashBytes flash addr size) := by
      have content := reads.stored
      rwa [isSize, BitVec.add_zero] at content
    constructor
    · rfl
    · show load stored 0 size = _
      have held := (holds_store buf 0 (flashBytes flash addr size)).load_eq
      rwa [length_flashBytes, ← isStored] at held
    · intro position behind
      show stored position = _
      rw [isStored, store, if_neg]
      rw [length_flashBytes]
      omega
    · exact reads.requests.mpr even
    · by_cases empty : size = 0
      · have same : last.env = env := reads.nothing empty
        show (view last.env).ctrl = 0
        rw [same]
        exact atNothing empty
      · exact reads.stopped even empty

/-! ## A word left behind -/

/-- A flash whose bytes are the lowest ones of their addresses. -/
def countingFlash (addr : BitVec 32) : Byte :=
  addr.setWidth 8

/-- A device which is never busy. -/
def swiftFlash : PmciIo FlashView where
  readl := fun reg env =>
    if reg = flashFifo then
      match env.fifo with
      | [] => (0, env)
      | word :: rest => (word, { env with fifo := rest })
    else
      (env.ctrl,
        { env with
          ready := env.ready || decide (env.ctrl &&& flashBusy = 0) })
  writel := fun reg val env =>
    if reg = flashAddr then
      { env with addr := val }
    else if val &&& flashRdMode = 0 then
      { env with ctrl := val }
    else
      { addr := env.addr
        ctrl := val
        fifo := flashWords countingFlash env.addr (flashReadCount val)
        ready := false }
  polls := fun _ => 0

theorem swiftFlash_laws : FlashLaws swiftFlash id countingFlash where
  setAddr _ _ := rfl
  startRead val env reads := if_neg reads
  stopRead val env stops := congrArg FlashView.ctrl (if_pos stops)
  readCtrl _ := rfl
  readFifo env word rest _ fifo := by
    have fifo : env.fifo = word :: rest := fifo
    have read :
        swiftFlash.readl flashFifo env =
          (word, { env with fifo := rest }) := by
      unfold swiftFlash
      simp only [if_true, fifo]
    rw [read]
    exact ⟨rfl, rfl⟩

/-- The device before the first command. -/
def atRest : FlashView :=
  ⟨0, 0, [], false⟩

theorem five_bytes_read :
    FlashLaws swiftFlash id countingFlash ∧
      Access.timeout ∉
        (pmciFlashBulkRead swiftFlash (fun _ => 0) 0x100 5
          ⟨atRest, []⟩).2.2.trace ∧
      ¬ ReadsFlash countingFlash id (fun _ => 0) 0x100 5
        (pmciFlashBulkRead swiftFlash (fun _ => 0) 0x100 5 ⟨atRest, []⟩) := by
  refine ⟨swiftFlash_laws, by decide, fun reads => ?_⟩
  have stopped := reads.stopped
  revert stopped
  decide

theorem eight_bytes_read :
    ReadsFlash countingFlash id (fun _ => 0) 0x100 8
      (pmciFlashBulkRead swiftFlash (fun _ => 0) 0x100 8 ⟨atRest, []⟩) :=
  (pmciFlashBulkRead_iff swiftFlash_laws (fun _ => 0) 0x100 8 atRest
    (by decide)).mpr ⟨by decide, fun empty => absurd empty (by decide)⟩

end LinuxDfl.Bmc.PmciFlash

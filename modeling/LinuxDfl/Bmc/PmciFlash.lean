import LinuxDfl.Kernel.Errno
import LinuxDfl.Lib.ByteStore

/-!
# The flash behind the management component

Bulk transfers between a buffer and the flash of the board, through a FIFO of
words.  The registers are a parameter; each access to one of them is recorded,
and so is each poll which has timed out.
-/

namespace LinuxDfl.Bmc.PmciFlash

open LinuxDfl.Kernel
open LinuxDfl.Lib.LittleEndian
open LinuxDfl.Lib.ByteStore

/-! ## Registers -/

/-- `M10BMC_N6000_FLASH_CTRL` -/
def flashCtrl : Nat := 0x40
/-- `M10BMC_N6000_FLASH_ADDR` -/
def flashAddr : Nat := 0x44
/-- `M10BMC_N6000_FLASH_FIFO` -/
def flashFifo : Nat := 0x800

/-- `M10BMC_N6000_FLASH_RD_MODE` -/
def flashRdMode : BitVec 32 := 0x2
/-- `M10BMC_N6000_FLASH_BUSY` -/
def flashBusy : BitVec 32 := 0x4
/-- `M10BMC_N6000_FLASH_FIFO_SPACE`, as a number of words -/
def flashFifoSpace (val : BitVec 32) : Nat := (val.extractLsb' 4 10).toNat
/-- `M10BMC_N6000_FLASH_READ_COUNT`, as a number of words -/
def flashReadCount (val : BitVec 32) : Nat := (val.extractLsb' 16 10).toNat
/-- `FIELD_PREP` for `M10BMC_N6000_FLASH_READ_COUNT` -/
def prepReadCount (count : Nat) : BitVec 32 :=
  (BitVec.ofNat 10 count).setWidth 32 <<< 16

/-- `M10BMC_N6000_READ_BLOCK_SIZE` -/
def readBlockSize : Nat := 0x800
/-- `M10BMC_N6000_FIFO_MAX_BYTES` -/
def fifoMaxBytes : Nat := 0x800
/-- `M10BMC_N6000_FIFO_WORD_SIZE` -/
def fifoWordSize : Nat := 4
/-- `M10BMC_N6000_FIFO_MAX_WORDS` -/
def fifoMaxWords : Nat := fifoMaxBytes / fifoWordSize

theorem readBlockSize_eq : readBlockSize = 2048 := rfl

theorem fifoMaxBytes_eq : fifoMaxBytes = 2048 := rfl

theorem fifoWordSize_eq : fifoWordSize = 4 := rfl

theorem fifoMaxWords_eq : fifoMaxWords = 512 := rfl

/-- An access to a register, or a poll which has timed out. -/
inductive Access where
  | readl (reg : Nat) (val : BitVec 32)
  | writel (reg : Nat) (val : BitVec 32)
  | timeout
  deriving DecidableEq

/-- The registers of the device. -/
structure PmciIo (Env : Type) where
  readl : Nat → Env → BitVec 32 × Env
  writel : Nat → BitVec 32 → Env → Env
  /-- How many more reads a poll makes before its time has run out. -/
  polls : Env → Nat

/-- The device, with the accesses so far. -/
structure Pmci (Env : Type) where
  env : Env
  trace : List Access

variable {Env : Type}

/-- `readl` -/
def Pmci.readl (io : PmciIo Env) (reg : Nat) (pmci : Pmci Env) :
    BitVec 32 × Pmci Env :=
  let read := io.readl reg pmci.env
  (read.1, ⟨read.2, pmci.trace ++ [.readl reg read.1]⟩)

/-- `writel` -/
def Pmci.writel (io : PmciIo Env) (reg : Nat) (val : BitVec 32)
    (pmci : Pmci Env) : Pmci Env :=
  ⟨io.writel reg val pmci.env, pmci.trace ++ [.writel reg val]⟩

/--
The loop of `read_poll_timeout` on `FLASH_CTRL`, with this many reads before
the time has run out; then it reads once more.
-/
def pollLoop (io : PmciIo Env) (cond : BitVec 32 → Bool) :
    Nat → Pmci Env → Option Errno × BitVec 32 × Pmci Env
  | 0, pmci =>
      let read := pmci.readl io flashCtrl
      if cond read.1 then (none, read)
      else
        (some .etimedout, read.1,
          { read.2 with trace := read.2.trace ++ [.timeout] })
  | count + 1, pmci =>
      let read := pmci.readl io flashCtrl
      if cond read.1 then (none, read) else pollLoop io cond count read.2

/-- `read_poll_timeout` on `FLASH_CTRL` -/
def readPollTimeout (io : PmciIo Env) (cond : BitVec 32 → Bool)
    (pmci : Pmci Env) : Option Errno × BitVec 32 × Pmci Env :=
  pollLoop io cond (io.polls pmci.env + 1) pmci

/-! ## Writing -/

/-- The word at the start of these bytes. -/
def wordAt (bytes : List Byte) : BitVec 32 :=
  BitVec.ofNat 32 (ofBytes (bytes.take fifoWordSize))

/-- `pmci_write_fifo` -/
def pmciWriteFifo (io : PmciIo Env) : List Byte → Nat → Pmci Env → Pmci Env
  | _, 0, pmci => pmci
  | buf, count + 1, pmci =>
      pmciWriteFifo io (buf.drop fifoWordSize) count
        (pmci.writel io flashFifo (wordAt buf))

/-- `pmci_get_write_space` -/
def pmciGetWriteSpace (io : PmciIo Env) (pmci : Pmci Env) :
    Nat × Pmci Env :=
  match readPollTimeout io (fun val => flashFifoSpace val = fifoMaxWords) pmci
  with
  | (some _, _, pmci) => (0, pmci)
  | (none, val, pmci) => (flashFifoSpace val * fifoWordSize, pmci)

/--
The loop of `pmci_flash_bulk_write`, for at most `fuel` rounds, with the size
and the offset which are left behind it.
-/
def bulkWriteLoop (io : PmciIo Env) (buf : List Byte) :
    Nat → Nat → Nat → Pmci Env → Option Errno × Nat × Nat × Pmci Env
  | 0, size, offset, pmci => (none, size, offset, pmci)
  | fuel + 1, size, offset, pmci =>
      if size = 0 then
        (none, size, offset, pmci)
      else
        let space := pmciGetWriteSpace io pmci
        let blkSize := min space.1 size
        if blkSize = 0 then
          (some .eio, size, offset, space.2)
        else if size < fifoWordSize then
          (none, size, offset, space.2)
        else
          let writeCount := blkSize / fifoWordSize
          let pmci := pmciWriteFifo io (buf.drop offset) writeCount space.2
          bulkWriteLoop io buf fuel (size - blkSize) (offset + blkSize) pmci

/-- `pmci_flash_bulk_write`, of a whole buffer -/
def pmciFlashBulkWrite (io : PmciIo Env) (buf : List Byte)
    (pmci : Pmci Env) : Option Errno × Pmci Env :=
  match bulkWriteLoop io buf buf.length buf.length 0 pmci with
  | (some ret, _, _, pmci) => (some ret, pmci)
  | (none, size, offset, pmci) =>
      if size ≠ 0 then
        let tmp := (buf.drop offset).take size
        (none, pmciWriteFifo io tmp 1 pmci)
      else
        (none, pmci)

/-! ## Reading -/

/-- `pmci_read_fifo` to this position of a buffer -/
def pmciReadFifo (io : PmciIo Env) :
    Nat → Storage → Nat → Pmci Env → Storage × Pmci Env
  | 0, buf, _, pmci => (buf, pmci)
  | count + 1, buf, position, pmci =>
      let read := pmci.readl io flashFifo
      pmciReadFifo io count
        (store buf position (toBytes fifoWordSize read.1.toNat))
        (position + fifoWordSize) read.2

/-- What the loop of `pmci_flash_bulk_read` leaves behind. -/
structure ReadLoop (Env : Type) where
  ret : Option Errno
  size : Nat
  offset : Nat
  buf : Storage
  pmci : Pmci Env

/-- The loop of `pmci_flash_bulk_read`, for at most `fuel` rounds -/
def bulkReadLoop (io : PmciIo Env) (addr : BitVec 32) :
    Nat → Nat → Nat → Storage → Pmci Env → ReadLoop Env
  | 0, size, offset, buf, pmci => ⟨none, size, offset, buf, pmci⟩
  | fuel + 1, size, offset, buf, pmci =>
      if size = 0 then
        ⟨none, size, offset, buf, pmci⟩
      else
        let blkSize := min size readBlockSize
        let fullReadCount := blkSize / fifoWordSize
        let readCount :=
          if fullReadCount * fifoWordSize < blkSize then fullReadCount + 1
          else fullReadCount
        let pmci :=
          pmci.writel io flashAddr (addr + BitVec.ofNat 32 offset)
        let pmci :=
          pmci.writel io flashCtrl (prepReadCount readCount ||| flashRdMode)
        match readPollTimeout io (fun val => val &&& flashBusy = 0) pmci with
        | (some ret, _, pmci) => ⟨some ret, size, offset, buf, pmci⟩
        | (none, _, pmci) =>
            let read := pmciReadFifo io fullReadCount buf offset pmci
            let size := size - blkSize
            let offset := offset + blkSize
            if fullReadCount < readCount then
              ⟨none, size, offset, read.1, read.2⟩
            else
              let pmci := read.2.writel io flashCtrl 0
              bulkReadLoop io addr fuel size offset read.1 pmci

/-- `pmci_flash_bulk_read`, with the caller's buffer as it is afterwards -/
def pmciFlashBulkRead (io : PmciIo Env) (buf : Storage) (addr : BitVec 32)
    (size : Nat) (pmci : Pmci Env) : Option Errno × Storage × Pmci Env :=
  let loop := bulkReadLoop io addr size size 0 buf pmci
  match loop.ret with
  | some ret => (some ret, loop.buf, loop.pmci)
  | none =>
      if loop.size ≠ 0 then
        let tmp := loop.pmci.readl io flashFifo
        let rest := (toBytes fifoWordSize tmp.1.toNat).take loop.size
        (none, store loop.buf loop.offset rest,
          tmp.2.writel io flashCtrl 0)
      else
        (none, loop.buf, loop.pmci)

end LinuxDfl.Bmc.PmciFlash

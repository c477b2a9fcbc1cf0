import LinuxDfl.Kernel.Bitfield
import LinuxDfl.ImageLoad.Upload
import LinuxDfl.Lib.ByteStore

/-!
# Secure update of the board management controller

The `write` operation which the secure update driver gives to the image load
worker.  It writes one block of the image at a time to the staging area.  The
register map of the board is a parameter.
-/

namespace LinuxDfl.Bmc

open LinuxDfl.Kernel
open LinuxDfl.ImageLoad
open LinuxDfl.Lib.LittleEndian
open LinuxDfl.Lib.ByteStore

/-- `M10BMC_STAGING_BASE` -/
def m10bmcStagingBase : Nat := 0x18000000

/-- `M10BMC_STAGING_SIZE` -/
def m10bmcStagingSize : Nat := 0x3800000

/-- `DRBL_RSU_PROGRESS` -/
def drblRsuProgress : Field := genmask 7 4

/-- `RSU_PROG_READY` -/
def rsuProgReady : Nat := 0x3

/-- `rsu_prog` -/
def rsuProg (doorbell : BitVec 32) : Nat :=
  drblRsuProgress.get (doorbell.setWidth 64)

/--
The accesses to a board which the update uses.  Registers of the map have
`regStride` bytes.
-/
structure Board (Bmc : Type) where
  /-- `regmap_get_reg_stride` -/
  regStride : Nat
  /-- `regmap_bulk_write` of registers with these bytes -/
  regmapBulkWrite : Nat → List Byte → Bmc → Option Errno × Bmc
  /-- `regmap_write` -/
  regmapWrite : Nat → Nat → Bmc → Option Errno × Bmc
  /-- `m10bmc_sys_read` of the doorbell -/
  readDoorbell : Bmc → Except Errno (BitVec 32) × Bmc
  /-- `m10bmc_sys_update_bits` with `HOST_STATUS_ABORT_RSU` -/
  abortRsu : Bmc → Option Errno × Bmc
  /-- `flash_bulk_ops->write` -/
  flashBulkWrite :
    Option (List Byte → Nat → Nat → Bmc → Option Errno × Bmc)

variable {Bmc : Type}

/-- `m10bmc_sec_write` -/
def m10bmcSecWrite (board : Board Bmc) (buf : List Byte)
    (offset size : Nat) (bmc : Bmc) : Option Errno × Bmc :=
  let stride := board.regStride
  let writeCount := size / stride
  let leftoverOffset := writeCount * stride
  let leftoverSize := size - leftoverOffset
  match board.flashBulkWrite with
  | some write => write buf offset size bmc
  | none =>
      if stride > 4 then
        (some .einval, bmc)
      else
        match board.regmapBulkWrite (Word.add 32 m10bmcStagingBase offset)
            ((buf.drop offset).take (writeCount * stride)) bmc with
        | (some ret, bmc) => (some ret, bmc)
        | (none, bmc) =>
            if leftoverSize ≠ 0 then
              let leftoverTmp :=
                ofBytes ((buf.drop leftoverOffset).take leftoverSize)
              board.regmapWrite
                (Word.add 32 (Word.add 32 m10bmcStagingBase offset)
                  leftoverOffset)
                leftoverTmp bmc
            else
              (none, bmc)

/-- `rsu_cancel` -/
def rsuCancel (board : Board Bmc) (bmc : Bmc) : FwUploadErr × Bmc :=
  match board.readDoorbell bmc with
  | (.error _, bmc) => (.rwError, bmc)
  | (.ok doorbell, bmc) =>
      if rsuProg doorbell ≠ rsuProgReady then
        (.busy, bmc)
      else
        match board.abortRsu bmc with
        | (some _, bmc) => (.rwError, bmc)
        | (none, bmc) => (.canceled, bmc)

/-- `WRITE_BLOCK_SIZE` -/
def writeBlockSize : Nat := 0x4000

/-- `m10bmc_sec_fw_write` -/
def m10bmcSecFwWrite (board : Board Bmc) (cancelRequest : Bool)
    (data : List Byte) (offset size : Nat) (bmc : Bmc) : OpAnswer × Bmc :=
  if cancelRequest then
    let cancelled := rsuCancel board bmc
    (⟨cancelled.1, 0⟩, cancelled.2)
  else
    match board.readDoorbell bmc with
    | (.error _, bmc) => (⟨.rwError, 0⟩, bmc)
    | (.ok doorbell, bmc) =>
        if rsuProg doorbell ≠ rsuProgReady then
          (⟨.hwError, 0⟩, bmc)
        else
          let blkSize := min writeBlockSize size
          match m10bmcSecWrite board data offset blkSize bmc with
          | (some _, bmc) => (⟨.rwError, 0⟩, bmc)
          | (none, bmc) => (⟨.none, blkSize⟩, bmc)

/-! ## The worker and the board -/

/-- The bytes behind the data pointer of an upload. -/
def uploadContent (upload : Upload) : List Byte :=
  match upload.fwlp.data with
  | some buf => upload.bufs.getD buf []
  | none => []

/-- A step of the worker, and whether a cancellation was requested by then. -/
structure DriveLabel where
  answer : OpAnswer
  cancelRequest : Bool

/--
A step of the worker on a board.  Only the other driver operations change the
board in other ways than `m10bmc_sec_fw_write` does.
-/
def Drives (board : Board Bmc) (source : Upload × Bmc) (label : DriveLabel)
    (target : Upload × Bmc) : Prop :=
  workerStep label.answer source.1 = some target.1 ∧
    match source.1.pc with
    | .write offset =>
        (label.answer, target.2) =
          m10bmcSecFwWrite board label.cancelRequest (uploadContent source.1)
            offset source.1.fwlp.remainingSize source.2
    | .prepare | .pollComplete | .cleanup => True
    | _ => target.2 = source.2

/-- What the update relies on: register accesses store their bytes. -/
structure StagingLaws (board : Board Bmc) (staged : Bmc → Storage) :
    Prop where
  bulkWrite : ∀ reg bytes bmc next,
    board.regmapBulkWrite reg bytes bmc = (none, next) →
      staged next = store (staged bmc) reg bytes
  write : ∀ reg value bmc next,
    board.regmapWrite reg value bmc = (none, next) →
      staged next =
        store (staged bmc) reg (toBytes board.regStride value)
  readDoorbell : ∀ bmc,
    staged (board.readDoorbell bmc).2 = staged bmc

end LinuxDfl.Bmc

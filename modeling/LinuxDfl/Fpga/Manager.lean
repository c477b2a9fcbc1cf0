import LinuxDfl.Kernel.Errno

/-!
# FPGA manager

The part of the FPGA manager core which programs an image held in one
buffer: parse the header, let the driver prepare, hand it the image, and let
it complete.  A driver is a table of operations on its own state `Hw`.
-/

namespace LinuxDfl.Fpga

open LinuxDfl.Kernel

/-- `struct fpga_image_info`, for an image in a buffer. -/
structure FpgaImageInfo where
  /-- The identity which its allocation gave it. -/
  ident : Nat
  /-- `FPGA_MGR_PARTIAL_RECONFIG` is set in `flags`. -/
  partialReconfig : Bool
  regionId : Nat
  headerSize : Nat
  dataSize : Nat
  /-- `buf`, of which `count` is the length. -/
  buf : List (BitVec 8)
  deriving DecidableEq, Repr

/-- `enum fpga_mgr_states`, from the request for firmware on. -/
inductive FpgaMgrStates where
  | unknown
  | firmwareReq
  | firmwareReqErr
  | parseHeader
  | parseHeaderErr
  | writeInit
  | writeInitErr
  | write
  | writeErr
  | writeComplete
  | writeCompleteErr
  | operating
  deriving DecidableEq, Repr

/-- `struct fpga_manager_ops`, as far as buffers are concerned. -/
structure FpgaManagerOps (Hw : Type) where
  initialHeaderSize : Nat
  skipHeader : Bool
  parseHeader :
    Option
      (FpgaImageInfo → List (BitVec 8) → Hw →
        Option Errno × FpgaImageInfo × Hw)
  writeInit :
    Option (FpgaImageInfo → List (BitVec 8) → Hw → Option Errno × Hw)
  write : Option (List (BitVec 8) → Hw → Option Errno × Hw)
  writeComplete : Option (FpgaImageInfo → Hw → Option Errno × Hw)

/-- `struct fpga_manager`; `refMutex` counts how often it is held. -/
structure FpgaManager (Hw : Type) where
  refMutex : Int
  state : FpgaMgrStates
  hw : Hw
  deriving DecidableEq, Repr

variable {Hw : Type}

/-- `fpga_mgr_lock` -/
def fpgaMgrLock (trylock : Bool) (mgr : FpgaManager Hw) :
    Option Errno × FpgaManager Hw :=
  if trylock then (none, { mgr with refMutex := mgr.refMutex + 1 })
  else (some .ebusy, mgr)

@[simp]
theorem fpgaMgrLock_succeeds_iff (trylock : Bool) (mgr : FpgaManager Hw) :
    (fpgaMgrLock trylock mgr).1 = none ↔ trylock = true := by
  cases trylock <;> simp [fpgaMgrLock]

/-- `fpga_mgr_unlock` -/
def fpgaMgrUnlock (mgr : FpgaManager Hw) : FpgaManager Hw :=
  { mgr with refMutex := mgr.refMutex - 1 }

/-- `fpga_mgr_parse_header_mapped` with `fpga_mgr_parse_header` -/
def fpgaMgrParseHeaderMapped
    (mops : FpgaManagerOps Hw) (mgr : FpgaManager Hw)
    (info : FpgaImageInfo) (buf : List (BitVec 8)) :
    Option Errno × FpgaManager Hw × FpgaImageInfo :=
  let mgr := { mgr with state := .parseHeader }
  let parsed :=
    match mops.parseHeader with
    | some parseHeader => parseHeader info buf mgr.hw
    | none => (none, info, mgr.hw)
  let info := parsed.2.1
  let outruns := (info.headerSize + info.dataSize) % 2 ^ 64 > buf.length
  match if outruns then some .einval else parsed.1 with
  | some ret =>
      (some ret, { mgr with state := .parseHeaderErr, hw := parsed.2.2 },
        info)
  | none => (none, { mgr with hw := parsed.2.2 }, info)

/-- `fpga_mgr_write_init_buf` with `fpga_mgr_write_init` -/
def fpgaMgrWriteInitBuf
    (mops : FpgaManagerOps Hw) (mgr : FpgaManager Hw)
    (info : FpgaImageInfo) (buf : List (BitVec 8)) :
    Option Errno × FpgaManager Hw :=
  let mgr := { mgr with state := .writeInit }
  let init :=
    if info.headerSize > buf.length then
      (some .einval, mgr.hw)
    else
      match mops.writeInit with
      | some writeInit =>
          writeInit info (if info.headerSize = 0 then [] else buf) mgr.hw
      | none => (none, mgr.hw)
  match init with
  | (some ret, hw) =>
      (some ret, { mgr with state := .writeInitErr, hw := hw })
  | (none, hw) => (none, { mgr with hw := hw })

/-- `fpga_mgr_write` -/
def fpgaMgrWrite
    (mops : FpgaManagerOps Hw) (hw : Hw) (buf : List (BitVec 8)) :
    Option Errno × Hw :=
  match mops.write with
  | some write => write buf hw
  | none => (some .eopnotsupp, hw)

/-- `fpga_mgr_write_complete` -/
def fpgaMgrWriteComplete
    (mops : FpgaManagerOps Hw) (mgr : FpgaManager Hw)
    (info : FpgaImageInfo) : Option Errno × FpgaManager Hw :=
  let mgr := { mgr with state := .writeComplete }
  let completed :=
    match mops.writeComplete with
    | some writeComplete => writeComplete info mgr.hw
    | none => (none, mgr.hw)
  match completed with
  | (some ret, hw) =>
      (some ret, { mgr with state := .writeCompleteErr, hw := hw })
  | (none, hw) => (none, { mgr with state := .operating, hw := hw })

/-- `fpga_mgr_buf_load_mapped` -/
def fpgaMgrBufLoadMapped
    (mops : FpgaManagerOps Hw) (mgr : FpgaManager Hw)
    (info : FpgaImageInfo) (buf : List (BitVec 8)) :
    Option Errno × FpgaManager Hw × FpgaImageInfo :=
  match fpgaMgrParseHeaderMapped mops mgr info buf with
  | (some ret, mgr, info) => (some ret, mgr, info)
  | (none, mgr, info) =>
      match fpgaMgrWriteInitBuf mops mgr info buf with
      | (some ret, mgr) => (some ret, mgr, info)
      | (none, mgr) =>
          let buf := if mops.skipHeader then buf.drop info.headerSize else buf
          let buf := if info.dataSize ≠ 0 then buf.take info.dataSize else buf
          match fpgaMgrWrite mops mgr.hw buf with
          | (some ret, hw) =>
              (some ret, { mgr with state := .writeErr, hw := hw }, info)
          | (none, hw) =>
              let mgr := { mgr with state := .write, hw := hw }
              let completed := fpgaMgrWriteComplete mops mgr info
              (completed.1, completed.2, info)

end LinuxDfl.Fpga

import LinuxDfl.Fpga.Manager

/-!
# Loading from a scatter list

The part of the FPGA manager core which programs an image that is scattered
over fragments of memory.  A scatter list is given by the fragments which its
mapping iterator yields, and an image by their concatenation.
-/

namespace LinuxDfl.Fpga

open LinuxDfl.Kernel

/-- `struct fpga_manager_ops` with the operation for scatter lists -/
structure FpgaManagerSgOps (Hw : Type) extends FpgaManagerOps Hw where
  writeSg : Option (List (List (BitVec 8)) → Hw → Option Errno × Hw)

variable {Hw : Type}

/-! ## The header -/

/-- `fpga_mgr_parse_header` -/
def fpgaMgrParseHeader
    (mops : FpgaManagerOps Hw) (info : FpgaImageInfo)
    (buf : List (BitVec 8)) (hw : Hw) :
    Option Errno × FpgaImageInfo × Hw :=
  match mops.parseHeader with
  | some parseHeader => parseHeader info buf hw
  | none => (none, info, hw)

/-- `fpga_mgr_parse_header_sg_first` -/
def fpgaMgrParseHeaderSgFirst
    (mops : FpgaManagerOps Hw) (mgr : FpgaManager Hw)
    (info : FpgaImageInfo) (sgt : List (List (BitVec 8))) :
    Option Errno × FpgaManager Hw × FpgaImageInfo :=
  let mgr := { mgr with state := .parseHeader }
  let parsed :=
    match sgt with
    | [] => (some Errno.eagain, info, mgr.hw)
    | fragment :: _ =>
        if info.headerSize ≤ fragment.length then
          fpgaMgrParseHeader mops info fragment mgr.hw
        else
          (some Errno.eagain, info, mgr.hw)
  let failed := parsed.1 ≠ none ∧ parsed.1 ≠ some .eagain
  (parsed.1,
    { mgr with
      state := if failed then .parseHeaderErr else mgr.state
      hw := parsed.2.2 },
    parsed.2.1)

/-- `sg_pcopy_to_buffer`: copy up to `buflen` bytes from `skip` on -/
def sgPcopyToBuffer (sgt : List (List (BitVec 8))) (buflen skip : Nat) :
    List (BitVec 8) :=
  (sgt.flatten.drop skip).take buflen

/--
The loop of `fpga_mgr_parse_header_sg`, which has copied `buf` so far.
`krealloc` says whether memory of a size can be had.
-/
def fpgaMgrParseHeaderSgLoop
    (mops : FpgaManagerOps Hw) (krealloc : Nat → Bool)
    (sgt : List (List (BitVec 8))) (info : FpgaImageInfo)
    (buf : List (BitVec 8)) (hw : Hw) :
    Except Errno (List (BitVec 8)) × FpgaImageInfo × Hw :=
  let newHeaderSize := info.headerSize
  if newHeaderSize ≤ buf.length then
    (.error .efault, info, hw)
  else if !krealloc newHeaderSize then
    (.error .enomem, info, hw)
  else
    let copied :=
      sgPcopyToBuffer sgt (newHeaderSize - buf.length) buf.length
    if copied.length ≠ newHeaderSize - buf.length then
      (.error .efault, info, hw)
    else
      let parsed := fpgaMgrParseHeader mops info (buf ++ copied) hw
      match parsed.1 with
      | some ret =>
          if ret = .eagain then
            fpgaMgrParseHeaderSgLoop mops krealloc sgt parsed.2.1
              (buf ++ copied) parsed.2.2
          else
            (.error ret, parsed.2.1, parsed.2.2)
      | none => (.ok (buf ++ copied), parsed.2.1, parsed.2.2)
termination_by sgt.flatten.length - buf.length
decreasing_by
  rename_i notSmaller _ whole
  have copies :
      (sgPcopyToBuffer sgt (info.headerSize - buf.length)
        buf.length).length ≤ sgt.flatten.length - buf.length := by
    simp only [sgPcopyToBuffer, List.length_take, List.length_drop]
    exact Nat.min_le_right _ _
  have all :
      (sgPcopyToBuffer sgt (info.headerSize - buf.length)
        buf.length).length = info.headerSize - buf.length :=
    not_not.mp whole
  rw [List.length_append]
  omega

/-- `fpga_mgr_parse_header_sg` -/
def fpgaMgrParseHeaderSg
    (mops : FpgaManagerOps Hw) (krealloc : Nat → Bool)
    (mgr : FpgaManager Hw) (info : FpgaImageInfo)
    (sgt : List (List (BitVec 8))) :
    Except Errno (List (BitVec 8)) × FpgaManager Hw × FpgaImageInfo :=
  let parsed := fpgaMgrParseHeaderSgLoop mops krealloc sgt info [] mgr.hw
  match parsed.1 with
  | .error ret =>
      (.error ret,
        { mgr with state := .parseHeaderErr, hw := parsed.2.2 }, parsed.2.1)
  | .ok buf => (.ok buf, { mgr with hw := parsed.2.2 }, parsed.2.1)

/-- `fpga_mgr_prepare_sg`, once the header has to be copied -/
def fpgaMgrPrepareCopied
    (mops : FpgaManagerOps Hw) (krealloc : Nat → Bool)
    (mgr : FpgaManager Hw) (info : FpgaImageInfo)
    (sgt : List (List (BitVec 8))) :
    Option Errno × FpgaManager Hw × FpgaImageInfo :=
  match fpgaMgrParseHeaderSg mops krealloc mgr info sgt with
  | (.error ret, mgr, info) => (some ret, mgr, info)
  | (.ok buf, mgr, info) =>
      let init := fpgaMgrWriteInitBuf mops mgr info buf
      (init.1, init.2, info)

/-- `fpga_mgr_prepare_sg` -/
def fpgaMgrPrepareSg
    (mops : FpgaManagerOps Hw) (krealloc : Nat → Bool)
    (mgr : FpgaManager Hw) (info : FpgaImageInfo)
    (sgt : List (List (BitVec 8))) :
    Option Errno × FpgaManager Hw × FpgaImageInfo :=
  if mops.initialHeaderSize = 0 ∧ mops.parseHeader.isNone then
    let init := fpgaMgrWriteInitBuf mops mgr info []
    (init.1, init.2, info)
  else
    match fpgaMgrParseHeaderSgFirst mops mgr info sgt, sgt with
    | (none, mgr, info), fragment :: _ =>
        let init := fpgaMgrWriteInitBuf mops mgr info fragment
        (init.1, init.2, info)
    | (none, mgr, info), [] =>
        fpgaMgrPrepareCopied mops krealloc mgr info sgt
    | (some ret, mgr, info), _ =>
        if ret = .eagain then
          fpgaMgrPrepareCopied mops krealloc mgr info sgt
        else
          (some ret, mgr, info)

/-! ## The data -/

/-- `sg_miter_skip`: the fragments which are left, if there is so much to skip -/
def sgMiterSkip : Nat → List (List (BitVec 8)) → Option (List (List (BitVec 8)))
  | 0, sgt => some sgt
  | _ + 1, [] => none
  | offset + 1, fragment :: rest =>
      if offset + 1 < fragment.length then
        some (fragment.drop (offset + 1) :: rest)
      else
        sgMiterSkip (offset + 1 - fragment.length) rest

/-- The loop of `fpga_mgr_buf_load_sg` over the fragments. -/
def fpgaMgrWriteFragments
    (mops : FpgaManagerOps Hw) (dataSize : Nat) :
    List (List (BitVec 8)) → Nat → Hw → Option Errno × Hw
  | [], _, hw => (none, hw)
  | fragment :: rest, count, hw =>
      let length :=
        if dataSize ≠ 0 then min fragment.length (dataSize - count)
        else fragment.length
      match fpgaMgrWrite mops hw (fragment.take length) with
      | (some ret, hw) => (some ret, hw)
      | (none, hw) =>
          if dataSize ≠ 0 ∧ dataSize ≤ count + length then
            (none, hw)
          else
            fpgaMgrWriteFragments mops dataSize rest (count + length) hw

/-- The data which `fpga_mgr_buf_load_sg` writes. -/
def fpgaMgrWriteData
    (mops : FpgaManagerSgOps Hw) (info : FpgaImageInfo)
    (sgt : List (List (BitVec 8))) (hw : Hw) : Option Errno × Hw :=
  match mops.writeSg with
  | some writeSg => writeSg sgt hw
  | none =>
      match
        if mops.skipHeader then sgMiterSkip info.headerSize sgt else some sgt
      with
      | none => (some .einval, hw)
      | some sgt =>
          fpgaMgrWriteFragments mops.toFpgaManagerOps info.dataSize sgt 0 hw

/-- `fpga_mgr_buf_load_sg` -/
def fpgaMgrBufLoadSg
    (mops : FpgaManagerSgOps Hw) (krealloc : Nat → Bool)
    (mgr : FpgaManager Hw) (info : FpgaImageInfo)
    (sgt : List (List (BitVec 8))) :
    Option Errno × FpgaManager Hw × FpgaImageInfo :=
  match fpgaMgrPrepareSg mops.toFpgaManagerOps krealloc mgr info sgt with
  | (some ret, mgr, info) => (some ret, mgr, info)
  | (none, mgr, info) =>
      match fpgaMgrWriteData mops info sgt mgr.hw with
      | (some ret, hw) =>
          (some ret, { mgr with state := .writeErr, hw := hw }, info)
      | (none, hw) =>
          let mgr := { mgr with state := .write, hw := hw }
          let completed :=
            fpgaMgrWriteComplete mops.toFpgaManagerOps mgr info
          (completed.1, completed.2, info)

end LinuxDfl.Fpga

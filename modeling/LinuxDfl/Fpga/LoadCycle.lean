import LinuxDfl.Kernel.Page
import LinuxDfl.Fpga.LoadAgreement

/-!
# The life cycle of a load

An image is loaded from a scatter list, from a buffer or from a firmware file.
Whichever it is, the driver is called phase by phase, and a load which fails
leaves the manager in the error state of the phase it failed in.
-/

namespace LinuxDfl.Fpga

open LinuxDfl.Kernel

variable {Hw : Type}

/-! ## `fpga_mgr_load` -/

/-- Where an image is: `sgt`, `buf` and `firmware_name` of its info. -/
structure FpgaImageSource where
  sgt : Option (List (List (BitVec 8)))
  /-- The address of the buffer, of which the info has the content. -/
  buf : Option Nat
  firmwareName : Option String

/-- What a load meets outside the driver. -/
structure LoadResources where
  krealloc : Nat → Bool
  /-- `kmalloc_array` for so many pages -/
  kmallocArray : Nat → Bool
  /-- `vmalloc_to_page` or `kmap_to_page` at an address -/
  toPage : Nat → Bool
  /-- `sg_alloc_table_from_pages`, by the offset in the first page -/
  sgAllocTableFromPages :
    Nat → List (BitVec 8) → Except Errno (List (List (BitVec 8)))
  /-- `request_firmware`: the address and the content of the file -/
  requestFirmware : String → Except Errno (Nat × List (BitVec 8))

/-- `fpga_mgr_buf_load` of a buffer at this address -/
def fpgaMgrBufLoad
    (mops : FpgaManagerSgOps Hw) (resources : LoadResources)
    (mgr : FpgaManager Hw) (info : FpgaImageInfo)
    (addr : Nat) (buf : List (BitVec 8)) :
    Option Errno × FpgaManager Hw × FpgaImageInfo :=
  if mops.write.isSome then
    fpgaMgrBufLoadMapped mops.toFpgaManagerOps mgr info buf
  else
    let nrPages :=
      (addr + buf.length + (pageSize - 1)) / pageSize - addr / pageSize
    let first := addr - addr % pageSize
    if !resources.kmallocArray nrPages then
      (some .enomem, mgr, info)
    else if (List.range nrPages).any fun index =>
        !resources.toPage (first + index * pageSize) then
      (some .efault, mgr, info)
    else
      match resources.sgAllocTableFromPages (addr % pageSize) buf with
      | .error rc => (some rc, mgr, info)
      | .ok sgt => fpgaMgrBufLoadSg mops resources.krealloc mgr info sgt

/-- `fpga_mgr_firmware_load` -/
def fpgaMgrFirmwareLoad
    (mops : FpgaManagerSgOps Hw) (resources : LoadResources)
    (mgr : FpgaManager Hw) (info : FpgaImageInfo) (imageName : String) :
    Option Errno × FpgaManager Hw × FpgaImageInfo :=
  let mgr := { mgr with state := .firmwareReq }
  match resources.requestFirmware imageName with
  | .error ret => (some ret, { mgr with state := .firmwareReqErr }, info)
  | .ok (addr, data) => fpgaMgrBufLoad mops resources mgr info addr data

/-- `fpga_mgr_load`, once neither `sgt` nor `buf` is used -/
def fpgaMgrLoadNamed
    (mops : FpgaManagerSgOps Hw) (resources : LoadResources)
    (mgr : FpgaManager Hw) (info : FpgaImageInfo) :
    Option String → Option Errno × FpgaManager Hw × FpgaImageInfo
  | some name => fpgaMgrFirmwareLoad mops resources mgr info name
  | none => (some .einval, mgr, info)

/-- `fpga_mgr_load` -/
def fpgaMgrLoad
    (mops : FpgaManagerSgOps Hw) (resources : LoadResources)
    (mgr : FpgaManager Hw) (info : FpgaImageInfo)
    (source : FpgaImageSource) :
    Option Errno × FpgaManager Hw × FpgaImageInfo :=
  let info := { info with headerSize := mops.initialHeaderSize }
  match source.sgt, source.buf with
  | some sgt, _ => fpgaMgrBufLoadSg mops resources.krealloc mgr info sgt
  | none, some addr =>
      if info.buf.length ≠ 0 then
        fpgaMgrBufLoad mops resources mgr info addr info.buf
      else
        fpgaMgrLoadNamed mops resources mgr info source.firmwareName
  | none, none => fpgaMgrLoadNamed mops resources mgr info source.firmwareName

/-! ## The calls of a driver -/

/-- The operations of a driver; the header is parsed from some bytes. -/
inductive DriverOp where
  | parseHeader (buf : List (BitVec 8))
  | writeInit
  | write
  | writeSg
  | writeComplete
  deriving DecidableEq, Repr

/-- A call of the driver, and what it answered. -/
structure DriverCall where
  op : DriverOp
  ret : Option Errno
  deriving DecidableEq, Repr

/-- The state of a driver, and the calls so far. -/
structure Logged (Hw : Type) where
  hw : Hw
  calls : List DriverCall
  deriving DecidableEq, Repr

/-- One more call, which leaves the driver in a state. -/
def Logged.called (log : Logged Hw) (hw : Hw) (op : DriverOp)
    (ret : Option Errno) : Logged Hw :=
  ⟨hw, log.calls ++ [⟨op, ret⟩]⟩

/-- A driver whose calls are logged. -/
def FpgaManagerSgOps.logged (mops : FpgaManagerSgOps Hw) :
    FpgaManagerSgOps (Logged Hw) where
  initialHeaderSize := mops.initialHeaderSize
  skipHeader := mops.skipHeader
  parseHeader := mops.parseHeader.map fun parseHeader info buf log =>
    let parsed := parseHeader info buf log.hw
    (parsed.1, parsed.2.1,
      log.called parsed.2.2 (.parseHeader buf) parsed.1)
  writeInit := mops.writeInit.map fun writeInit info buf log =>
    let init := writeInit info buf log.hw
    (init.1, log.called init.2 .writeInit init.1)
  write := mops.write.map fun write buf log =>
    let wrote := write buf log.hw
    (wrote.1, log.called wrote.2 .write wrote.1)
  writeComplete := mops.writeComplete.map fun writeComplete info log =>
    let completed := writeComplete info log.hw
    (completed.1, log.called completed.2 .writeComplete completed.1)
  writeSg := mops.writeSg.map fun writeSg sgt log =>
    let wrote := writeSg sgt log.hw
    (wrote.1, log.called wrote.2 .writeSg wrote.1)

/-- A manager whose driver has not been called. -/
def FpgaManager.logged (mgr : FpgaManager Hw) : FpgaManager (Logged Hw) where
  refMutex := mgr.refMutex
  state := mgr.state
  hw := ⟨mgr.hw, []⟩

/-! ## Phases -/

/-- The phases of a load which call the driver. -/
inductive LoadPhase where
  | parseHeader
  | writeInit
  | write
  | writeComplete
  deriving DecidableEq, Repr

def DriverOp.phase : DriverOp → LoadPhase
  | .parseHeader _ => .parseHeader
  | .writeInit => .writeInit
  | .write | .writeSg => .write
  | .writeComplete => .writeComplete

namespace LoadPhase

/-- The state in which a load that fails in this phase leaves the manager. -/
def error : LoadPhase → FpgaMgrStates
  | .parseHeader => .parseHeaderErr
  | .writeInit => .writeInitErr
  | .write => .writeErr
  | .writeComplete => .writeCompleteErr

/-- `parse_header`, if there is one, has asked for more each time. -/
def Retries (mops : FpgaManagerSgOps Hw) (calls : List DriverCall) : Prop :=
  (mops.parseHeader = none → calls = []) ∧
    ∀ call ∈ calls, ∃ buf, call = ⟨.parseHeader buf, some .eagain⟩

/--
The calls of a phase which has succeeded.  Operations which the driver does
not have are not called.
-/
def Done (mops : FpgaManagerSgOps Hw) :
    LoadPhase → List DriverCall → Prop
  | .parseHeader, calls =>
      if mops.parseHeader.isSome then
        ∃ retries buf, Retries mops retries ∧
          calls = retries ++ [⟨.parseHeader buf, none⟩]
      else
        calls = []
  | .writeInit, calls =>
      calls = if mops.writeInit.isSome then [⟨.writeInit, none⟩] else []
  | .write, calls =>
      calls = [⟨.writeSg, none⟩] ∨
        ∃ count, calls = List.replicate count ⟨.write, none⟩
  | .writeComplete, calls =>
      calls =
        if mops.writeComplete.isSome then [⟨.writeComplete, none⟩] else []

/-- The calls of all phases before this one, each of which has succeeded. -/
def Reached (mops : FpgaManagerSgOps Hw) :
    LoadPhase → List DriverCall → Prop
  | .parseHeader, calls => calls = []
  | .writeInit, calls => Done mops .parseHeader calls
  | .write, calls =>
      ∃ parse init, Done mops .parseHeader parse ∧
        Done mops .writeInit init ∧ calls = parse ++ init
  | .writeComplete, calls =>
      ∃ parse init data, Done mops .parseHeader parse ∧
        Done mops .writeInit init ∧ Done mops .write data ∧
          calls = parse ++ init ++ data

end LoadPhase

/--
How a load ends: with the image in operation after all phases, without having
called the driver, or in the error state of the phase which failed.
-/
def LoadEnds (mops : FpgaManagerSgOps Hw) (ret : Option Errno)
    (mgr : FpgaManager (Logged Hw)) : Prop :=
  match ret with
  | none =>
      mgr.state = .operating ∧
        ∃ earlier complete, LoadPhase.writeComplete.Reached mops earlier ∧
          LoadPhase.writeComplete.Done mops complete ∧
            mgr.hw.calls = earlier ++ complete
  | some _ =>
      mgr.hw.calls = [] ∨
        ∃ phase : LoadPhase, mgr.state = phase.error ∧
          ∃ earlier failing, phase.Reached mops earlier ∧
            (∀ call ∈ failing, call.op.phase = phase) ∧
              mgr.hw.calls = earlier ++ failing

/-! ## Each phase -/

namespace LoadPhase

/-- The phase has succeeded, or has failed and left its error state. -/
def Ends (mops : FpgaManagerSgOps Hw) (phase : LoadPhase)
    (before : List DriverCall) (ret : Option Errno)
    (mgr : FpgaManager (Logged Hw)) : Prop :=
  ∃ calls, mgr.hw.calls = before ++ calls ∧
    match ret with
    | none => phase.Done mops calls
    | some _ =>
        mgr.state = phase.error ∧ ∀ call ∈ calls, call.op.phase = phase

variable {mops : FpgaManagerSgOps Hw}

theorem phase_of_mem_singleton {op : DriverOp} {ret : Option Errno} :
    ∀ call ∈ [(⟨op, ret⟩ : DriverCall)], call.op.phase = op.phase := by
  intro call member
  rw [List.mem_singleton.mp member]

theorem retries_nil : Retries mops [] :=
  ⟨fun _ => rfl, fun _ member => absurd member List.not_mem_nil⟩

theorem Retries.append {first second : List DriverCall}
    (left : Retries mops first) (right : Retries mops second) :
    Retries mops (first ++ second) := by
  constructor
  · intro missing
    rw [left.1 missing, right.1 missing]
    rfl
  · intro call member
    rcases List.mem_append.mp member with inFirst | inSecond
    · exact left.2 call inFirst
    · exact right.2 call inSecond

theorem Retries.phase {calls : List DriverCall} (retries : Retries mops calls) :
    ∀ call ∈ calls, call.op.phase = .parseHeader := by
  intro call member
  obtain ⟨buf, rfl⟩ := retries.2 call member
  rfl

/-- The header may be found after it has been asked for more. -/
theorem Retries.done {first second : List DriverCall}
    (retries : Retries mops first)
    (done : LoadPhase.parseHeader.Done mops second) :
    LoadPhase.parseHeader.Done mops (first ++ second) := by
  unfold Done at done ⊢
  cases parses : mops.parseHeader with
  | none =>
      simp only [parses, Option.isSome_none, Bool.false_eq_true, if_false]
        at done ⊢
      rw [retries.1 parses, done]
      rfl
  | some parseHeader =>
      simp only [parses, Option.isSome_some, if_true] at done ⊢
      obtain ⟨more, buf, others, rfl⟩ := done
      exact ⟨first ++ more, buf, retries.append others,
        (List.append_assoc _ _ _).symm⟩

/-- A call of `parse_header` which is logged. -/
theorem parseHeader_call (mops : FpgaManagerSgOps Hw)
    (info : FpgaImageInfo) (buf : List (BitVec 8)) (log : Logged Hw) :
    let parsed :=
      fpgaMgrParseHeader mops.logged.toFpgaManagerOps info buf log
    ∃ calls, parsed.2.2.calls = log.calls ++ calls ∧
      (parsed.1 = none → LoadPhase.parseHeader.Done mops calls) ∧
      (parsed.1 = some .eagain → Retries mops calls) ∧
        ∀ call ∈ calls, call.op.phase = .parseHeader := by
  intro parsed
  cases parses : mops.parseHeader with
  | none =>
      have unchanged : parsed = (none, info, log) := by
        simp [parsed, fpgaMgrParseHeader, FpgaManagerSgOps.logged, parses]
      rw [unchanged]
      refine ⟨[], (List.append_nil _).symm, ?_, ?_, ?_⟩
      · intro _
        simp [Done, parses]
      · intro impossible
        cases impossible
      · simp
  | some parseHeader =>
      have called : parsed =
          ((parseHeader info buf log.hw).1, (parseHeader info buf log.hw).2.1,
            log.called (parseHeader info buf log.hw).2.2 (.parseHeader buf)
              (parseHeader info buf log.hw).1) := by
        simp [parsed, fpgaMgrParseHeader, FpgaManagerSgOps.logged, parses]
      rw [called]
      refine ⟨_, rfl, ?_, ?_, ?_⟩
      · intro succeeds
        simp only [Done, parses, Option.isSome_some, if_true]
        exact ⟨[], buf, retries_nil, by rw [succeeds]; rfl⟩
      · intro again
        refine ⟨fun missing => absurd parses (by simp [missing]), ?_⟩
        intro call member
        exact ⟨buf, by rw [List.mem_singleton.mp member, again]⟩
      · exact phase_of_mem_singleton

theorem fpgaMgrParseHeaderMapped_eq (mops : FpgaManagerOps Hw)
    (mgr : FpgaManager Hw) (info : FpgaImageInfo) (buf : List (BitVec 8)) :
    fpgaMgrParseHeaderMapped mops mgr info buf =
      let parsed := fpgaMgrParseHeader mops info buf mgr.hw
      let outruns :=
        (parsed.2.1.headerSize + parsed.2.1.dataSize) % 2 ^ 64 > buf.length
      match if outruns then some .einval else parsed.1 with
      | some ret =>
          (some ret, { mgr with state := .parseHeaderErr, hw := parsed.2.2 },
            parsed.2.1)
      | none =>
          (none, { mgr with state := .parseHeader, hw := parsed.2.2 },
            parsed.2.1) := by
  unfold fpgaMgrParseHeaderMapped fpgaMgrParseHeader
  cases mops.parseHeader with
  | none => rfl
  | some parse => rfl

theorem parseHeaderMapped_ends (mops : FpgaManagerSgOps Hw)
    (mgr : FpgaManager (Logged Hw)) (info : FpgaImageInfo)
    (buf : List (BitVec 8)) :
    let parsed :=
      fpgaMgrParseHeaderMapped mops.logged.toFpgaManagerOps mgr info buf
    LoadPhase.parseHeader.Ends mops mgr.hw.calls parsed.1 parsed.2.1 := by
  obtain ⟨calls, logged, succeeds, -, phase⟩ :=
    parseHeader_call mops info buf mgr.hw
  rw [fpgaMgrParseHeaderMapped_eq]
  simp only
  split
  · exact ⟨calls, logged, rfl, phase⟩
  · rename_i accepted
    refine ⟨calls, logged, succeeds ?_⟩
    split at accepted
    · cases accepted
    · exact accepted

theorem parseHeaderSgFirst_ends (mops : FpgaManagerSgOps Hw)
    (mgr : FpgaManager (Logged Hw)) (info : FpgaImageInfo)
    (sgt : List (List (BitVec 8))) :
    let parsed :=
      fpgaMgrParseHeaderSgFirst mops.logged.toFpgaManagerOps mgr info sgt
    (parsed.1 ≠ some .eagain →
      LoadPhase.parseHeader.Ends mops mgr.hw.calls parsed.1 parsed.2.1) ∧
    (parsed.1 = some .eagain →
      ∃ calls, Retries mops calls ∧
        parsed.2.1.hw.calls = mgr.hw.calls ++ calls) := by
  intro parsed
  have given :
      parsed.1 = some .eagain ∧ parsed.2.1.hw = mgr.hw ∨
        ∃ fragment,
          parsed.1 = (fpgaMgrParseHeader mops.logged.toFpgaManagerOps info
            fragment mgr.hw).1 ∧
          parsed.2.1.hw = (fpgaMgrParseHeader mops.logged.toFpgaManagerOps
            info fragment mgr.hw).2.2 := by
    cases sgt with
    | nil => exact Or.inl ⟨rfl, rfl⟩
    | cons fragment rest =>
        by_cases fits : info.headerSize ≤ fragment.length
        · refine Or.inr ⟨fragment, ?_, ?_⟩ <;>
            simp [parsed, fpgaMgrParseHeaderSgFirst, fits]
        · refine Or.inl ⟨?_, ?_⟩ <;>
            simp [parsed, fpgaMgrParseHeaderSgFirst, fits]
  have failing : parsed.1 ≠ none → parsed.1 ≠ some .eagain →
      parsed.2.1.state = .parseHeaderErr := by
    intro fails notAgain
    exact if_pos ⟨fails, notAgain⟩
  rcases given with ⟨again, same⟩ | ⟨fragment, answers, state⟩
  · refine ⟨fun notAgain => absurd again notAgain, fun _ => ⟨[], ?_, ?_⟩⟩
    · exact retries_nil
    · rw [same, List.append_nil]
  · obtain ⟨calls, logged, succeeds, retries, phase⟩ :=
      parseHeader_call mops info fragment mgr.hw
    rw [← state] at logged
    rw [← answers] at succeeds retries
    refine ⟨fun notAgain => ⟨calls, logged, ?_⟩,
      fun again => ⟨calls, retries again, logged⟩⟩
    cases ret : parsed.1 with
    | none => exact succeeds ret
    | some errno =>
        exact ⟨failing (by simp [ret]) notAgain, phase⟩

theorem parseHeaderSgLoop_calls (mops : FpgaManagerSgOps Hw)
    (krealloc : Nat → Bool) (sgt : List (List (BitVec 8)))
    (info : FpgaImageInfo) (buf : List (BitVec 8)) (log : Logged Hw) :
    let parsed :=
      fpgaMgrParseHeaderSgLoop mops.logged.toFpgaManagerOps krealloc sgt info
        buf log
    ∃ calls, parsed.2.2.calls = log.calls ++ calls ∧
      (∀ found, parsed.1 = .ok found →
        LoadPhase.parseHeader.Done mops calls) ∧
        ∀ call ∈ calls, call.op.phase = .parseHeader := by
  fun_induction fpgaMgrParseHeaderSgLoop mops.logged.toFpgaManagerOps krealloc
      sgt info buf log with
  | case1 info buf log newHeaderSize notLarger =>
      exact ⟨[], (List.append_nil _).symm, by simp, by simp⟩
  | case2 info buf log newHeaderSize larger noMemory =>
      exact ⟨[], (List.append_nil _).symm, by simp, by simp⟩
  | case3 info buf log newHeaderSize larger memory copied short =>
      exact ⟨[], (List.append_nil _).symm, by simp, by simp⟩
  | case4 info buf log newHeaderSize larger memory copied whole parsed again
      ih =>
      obtain ⟨first, logged, -, retries, -⟩ :=
        parseHeader_call mops info (buf ++ copied) log
      have asked := retries again
      obtain ⟨others, more, found, phase⟩ := ih
      refine ⟨first ++ others, ?_, ?_, ?_⟩
      · rw [more, logged, List.append_assoc]
      · intro whole succeeds
        exact asked.done (found whole succeeds)
      · intro call member
        rcases List.mem_append.mp member with inFirst | inOthers
        · exact asked.phase call inFirst
        · exact phase call inOthers
  | case5 info buf log newHeaderSize larger memory copied whole parsed ret
      fails other =>
      obtain ⟨calls, logged, -, -, phase⟩ :=
        parseHeader_call mops info (buf ++ copied) log
      exact ⟨calls, logged, by simp, phase⟩
  | case6 info buf log newHeaderSize larger memory copied whole parsed
      succeeds =>
      obtain ⟨calls, logged, done, -, phase⟩ :=
        parseHeader_call mops info (buf ++ copied) log
      exact ⟨calls, logged, fun _ _ => done succeeds, phase⟩

theorem parseHeaderSg_ends (krealloc : Nat → Bool)
    (mgr : FpgaManager (Logged Hw)) (info : FpgaImageInfo)
    (sgt : List (List (BitVec 8))) (before : List DriverCall)
    {retries : List DriverCall}
    (asked : Retries mops retries) (calls : mgr.hw.calls = before ++ retries) :
    let parsed :=
      fpgaMgrParseHeaderSg mops.logged.toFpgaManagerOps krealloc mgr info sgt
    (∀ ret, parsed.1 = .error ret →
      LoadPhase.parseHeader.Ends mops before (some ret) parsed.2.1) ∧
    ∀ buf, parsed.1 = .ok buf →
      LoadPhase.parseHeader.Ends mops before none parsed.2.1 := by
  obtain ⟨others, logged, found, phase⟩ :=
    parseHeaderSgLoop_calls mops krealloc sgt info [] mgr.hw
  rw [calls, List.append_assoc] at logged
  simp only [fpgaMgrParseHeaderSg]
  split
  · refine ⟨fun _ _ => ⟨retries ++ others, logged, rfl, ?_⟩, by simp⟩
    intro call member
    rcases List.mem_append.mp member with inRetries | inOthers
    · exact asked.phase call inRetries
    · exact phase call inOthers
  · rename_i buf copied
    exact ⟨by simp, fun _ _ =>
      ⟨retries ++ others, logged, asked.done (found buf copied)⟩⟩

theorem writeInitBuf_ends (mgr : FpgaManager (Logged Hw))
    (info : FpgaImageInfo) (buf : List (BitVec 8)) :
    let init := fpgaMgrWriteInitBuf mops.logged.toFpgaManagerOps mgr info buf
    LoadPhase.writeInit.Ends mops mgr.hw.calls init.1 init.2 := by
  intro init
  by_cases larger : info.headerSize > buf.length
  · have refused : init = (some .einval,
        { mgr with state := .writeInitErr }) := by
      simp [init, fpgaMgrWriteInitBuf, larger]
    rw [refused]
    exact ⟨[], (List.append_nil _).symm, rfl, by simp⟩
  · cases inits : mops.writeInit with
    | none =>
        have nothing : init = (none, { mgr with state := .writeInit }) := by
          simp [init, fpgaMgrWriteInitBuf, larger, FpgaManagerSgOps.logged,
            inits]
        rw [nothing]
        exact ⟨[], (List.append_nil _).symm, by simp [Done, inits]⟩
    | some writeInit =>
        let seen := if info.headerSize = 0 then [] else buf
        cases answer : (writeInit info seen mgr.hw.hw).1 with
        | none =>
            have called : init = (none, { mgr with
                state := .writeInit
                hw := mgr.hw.called (writeInit info seen mgr.hw.hw).2
                  .writeInit none }) := by
              simp [init, fpgaMgrWriteInitBuf, larger,
                FpgaManagerSgOps.logged, inits, answer, seen]
            rw [called]
            exact ⟨[⟨.writeInit, none⟩], rfl, by simp [Done, inits]⟩
        | some ret =>
            have called : init = (some ret, { mgr with
                state := .writeInitErr
                hw := mgr.hw.called (writeInit info seen mgr.hw.hw).2
                  .writeInit (some ret) }) := by
              simp [init, fpgaMgrWriteInitBuf, larger,
                FpgaManagerSgOps.logged, inits, answer, seen]
            rw [called]
            exact ⟨[⟨.writeInit, some ret⟩], rfl, rfl, phase_of_mem_singleton⟩

theorem writeComplete_ends (mgr : FpgaManager (Logged Hw))
    (info : FpgaImageInfo) :
    let completed :=
      fpgaMgrWriteComplete mops.logged.toFpgaManagerOps mgr info
    LoadPhase.writeComplete.Ends mops mgr.hw.calls completed.1
      completed.2 := by
  intro completed
  cases completes : mops.writeComplete with
  | none =>
      have nothing : completed = (none, { mgr with state := .operating }) := by
        simp [completed, fpgaMgrWriteComplete, FpgaManagerSgOps.logged,
          completes]
      rw [nothing]
      exact ⟨[], (List.append_nil _).symm, by simp [Done, completes]⟩
  | some writeComplete =>
      cases answer : (writeComplete info mgr.hw.hw).1 with
      | none =>
          have called : completed = (none, { mgr with
              state := .operating
              hw := mgr.hw.called (writeComplete info mgr.hw.hw).2
                .writeComplete none }) := by
            simp [completed, fpgaMgrWriteComplete, FpgaManagerSgOps.logged,
              completes, answer]
          rw [called]
          exact ⟨[⟨.writeComplete, none⟩], rfl, by simp [Done, completes]⟩
      | some ret =>
          have called : completed = (some ret, { mgr with
              state := .writeCompleteErr
              hw := mgr.hw.called (writeComplete info mgr.hw.hw).2
                .writeComplete (some ret) }) := by
            simp [completed, fpgaMgrWriteComplete, FpgaManagerSgOps.logged,
              completes, answer]
          rw [called]
          exact ⟨[⟨.writeComplete, some ret⟩], rfl, rfl, phase_of_mem_singleton⟩

/-! ## The data -/

/-- What handing over data calls. -/
def Writes (mops : FpgaManagerSgOps Hw) (before : List DriverCall)
    (wrote : Option Errno × Logged Hw) : Prop :=
  ∃ calls, wrote.2.calls = before ++ calls ∧
    (wrote.1 = none → LoadPhase.write.Done mops calls) ∧
      ∀ call ∈ calls, call.op.phase = .write

/-- A call of `write`, if there is one. -/
theorem write_call (mops : FpgaManagerSgOps Hw) (buf : List (BitVec 8))
    (log : Logged Hw) :
    let wrote := fpgaMgrWrite mops.logged.toFpgaManagerOps log buf
    ∃ calls, wrote.2.calls = log.calls ++ calls ∧
      (wrote.1 = none → calls = [⟨.write, none⟩]) ∧
        ∀ call ∈ calls, call.op.phase = .write := by
  cases writes : mops.write with
  | none =>
      refine ⟨[], ?_, ?_, by simp⟩ <;>
        simp [fpgaMgrWrite, FpgaManagerSgOps.logged, writes]
  | some write =>
      refine ⟨[⟨.write, (write buf log.hw).1⟩], ?_, ?_, ?_⟩
      · simp [fpgaMgrWrite, FpgaManagerSgOps.logged, writes, Logged.called]
      · intro succeeds
        simp only [fpgaMgrWrite, FpgaManagerSgOps.logged, writes,
          Option.map_some] at succeeds
        rw [succeeds]
      · exact phase_of_mem_singleton

theorem write_writes (buf : List (BitVec 8)) (log : Logged Hw) :
    Writes mops log.calls
      (fpgaMgrWrite mops.logged.toFpgaManagerOps log buf) := by
  obtain ⟨calls, logged, succeeds, phase⟩ := write_call mops buf log
  exact ⟨calls, logged, fun fine => Or.inr ⟨1, succeeds fine⟩, phase⟩

theorem writeFragments_writes (mops : FpgaManagerSgOps Hw) (dataSize : Nat)
    (sgt : List (List (BitVec 8))) (count : Nat) (log : Logged Hw) :
    let wrote :=
      fpgaMgrWriteFragments mops.logged.toFpgaManagerOps dataSize sgt count log
    ∃ calls, wrote.2.calls = log.calls ++ calls ∧
      (wrote.1 = none → ∃ written, calls = .replicate written ⟨.write, none⟩) ∧
        ∀ call ∈ calls, call.op.phase = .write := by
  induction sgt generalizing count log with
  | nil => exact ⟨[], (List.append_nil _).symm, fun _ => ⟨0, rfl⟩, by simp⟩
  | cons fragment rest ih =>
      let length :=
        if dataSize ≠ 0 then min fragment.length (dataSize - count)
        else fragment.length
      obtain ⟨calls, logged, succeeds, phase⟩ :=
        write_call mops (fragment.take length) log
      rcases wrote : fpgaMgrWrite mops.logged.toFpgaManagerOps log
        (fragment.take length) with ⟨_ | ret, next⟩
      · rw [wrote] at logged succeeds
        by_cases last : dataSize ≠ 0 ∧ dataSize ≤ count + length
        · have ends : fpgaMgrWriteFragments mops.logged.toFpgaManagerOps
              dataSize (fragment :: rest) count log = (none, next) := by
            simp only [fpgaMgrWriteFragments, wrote, length]
            exact if_pos last
          rw [ends]
          exact ⟨calls, logged, fun _ => ⟨1, succeeds rfl⟩, phase⟩
        · have goesOn : fpgaMgrWriteFragments mops.logged.toFpgaManagerOps
              dataSize (fragment :: rest) count log =
                fpgaMgrWriteFragments mops.logged.toFpgaManagerOps dataSize
                  rest (count + length) next := by
            simp only [fpgaMgrWriteFragments, wrote, length]
            exact if_neg last
          rw [goesOn]
          obtain ⟨others, more, written, otherPhase⟩ := ih (count + length) next
          refine ⟨calls ++ others, ?_, ?_, ?_⟩
          · rw [more, logged, List.append_assoc]
          · intro fine
            obtain ⟨left, rfl⟩ := written fine
            exact ⟨left + 1, by rw [succeeds rfl]; rfl⟩
          · intro call member
            rcases List.mem_append.mp member with first | later
            · exact phase call first
            · exact otherPhase call later
      · have fails : fpgaMgrWriteFragments mops.logged.toFpgaManagerOps
            dataSize (fragment :: rest) count log = (some ret, next) := by
          simp only [fpgaMgrWriteFragments, wrote, length]
        rw [wrote] at logged
        rw [fails]
        exact ⟨calls, logged, by simp, phase⟩

theorem writeData_writes (info : FpgaImageInfo)
    (sgt : List (List (BitVec 8))) (log : Logged Hw) :
    Writes mops log.calls (fpgaMgrWriteData mops.logged info sgt log) := by
  cases writes : mops.writeSg with
  | some writeSg =>
      have called : fpgaMgrWriteData mops.logged info sgt log =
          ((writeSg sgt log.hw).1, log.called (writeSg sgt log.hw).2 .writeSg
            (writeSg sgt log.hw).1) := by
        simp [fpgaMgrWriteData, FpgaManagerSgOps.logged, writes]
      rw [called]
      refine ⟨[⟨.writeSg, (writeSg sgt log.hw).1⟩], rfl, ?_, ?_⟩
      · intro fine
        exact Or.inl (by rw [show (writeSg sgt log.hw).1 = none from fine])
      · exact phase_of_mem_singleton
  | none =>
      cases skipped :
          if mops.skipHeader then sgMiterSkip info.headerSize sgt
          else some sgt with
      | none =>
          have refused : fpgaMgrWriteData mops.logged info sgt log =
              (some .einval, log) := by
            simp only [fpgaMgrWriteData, FpgaManagerSgOps.logged, writes,
              Option.map_none, skipped]
          rw [refused]
          exact ⟨[], (List.append_nil _).symm, by simp, by simp⟩
      | some left =>
          have fragments : fpgaMgrWriteData mops.logged info sgt log =
              fpgaMgrWriteFragments mops.logged.toFpgaManagerOps info.dataSize
                left 0 log := by
            simp only [fpgaMgrWriteData, FpgaManagerSgOps.logged, writes,
              Option.map_none, skipped]
          rw [fragments]
          obtain ⟨calls, logged, written, phase⟩ :=
            writeFragments_writes mops info.dataSize left 0 log
          exact ⟨calls, logged, fun fine => Or.inr (written fine), phase⟩

end LoadPhase

/-! ## All phases -/

section Load

variable {mops : FpgaManagerSgOps Hw}

/-- A phase which fails, after the phases before it. -/
theorem LoadPhase.Reached.fails {phase : LoadPhase}
    {before : List DriverCall} {ret : Errno}
    {mgr : FpgaManager (Logged Hw)} (reached : phase.Reached mops before)
    (ends : phase.Ends mops before (some ret) mgr) :
    LoadEnds mops (some ret) mgr := by
  obtain ⟨failing, calls, error, inPhase⟩ := ends
  exact Or.inr ⟨phase, error, before, failing, reached, inPhase, calls⟩

/-- What is known of a load once its driver is prepared, or not. -/
def Prepares (mops : FpgaManagerSgOps Hw) (ret : Option Errno)
    (mgr : FpgaManager (Logged Hw)) : Prop :=
  match ret with
  | none => LoadPhase.write.Reached mops mgr.hw.calls
  | some ret => LoadEnds mops (some ret) mgr

theorem prepares_writeInit {mgr : FpgaManager (Logged Hw)}
    (parsed : LoadPhase.parseHeader.Done mops mgr.hw.calls)
    (info : FpgaImageInfo) (buf : List (BitVec 8)) :
    let init := fpgaMgrWriteInitBuf mops.logged.toFpgaManagerOps mgr info buf
    Prepares mops init.1 init.2 := by
  intro init
  have ends : LoadPhase.writeInit.Ends mops mgr.hw.calls init.1 init.2 :=
    LoadPhase.writeInitBuf_ends mgr info buf
  cases ret : init.1 with
  | none =>
      rw [ret] at ends
      obtain ⟨calls, logged, done⟩ := ends
      exact ⟨mgr.hw.calls, calls, parsed, done, logged⟩
  | some errno =>
      rw [ret] at ends
      have reached : LoadPhase.writeInit.Reached mops mgr.hw.calls := parsed
      exact reached.fails ends

theorem parsed_done {ret : Option Errno} {mgr : FpgaManager (Logged Hw)}
    (ends : LoadPhase.parseHeader.Ends mops [] ret mgr) (fine : ret = none) :
    LoadPhase.parseHeader.Done mops mgr.hw.calls := by
  subst fine
  obtain ⟨calls, logged, done⟩ := ends
  rw [logged]
  exact done

theorem parsed_fails {ret : Option Errno} {mgr : FpgaManager (Logged Hw)}
    (ends : LoadPhase.parseHeader.Ends mops [] ret mgr) {errno : Errno}
    (fails : ret = some errno) : LoadEnds mops (some errno) mgr := by
  subst fails
  have reached : LoadPhase.parseHeader.Reached mops [] := rfl
  exact reached.fails ends

theorem prepareCopied_prepares (krealloc : Nat → Bool)
    (mgr : FpgaManager (Logged Hw)) (info : FpgaImageInfo)
    (sgt : List (List (BitVec 8)))
    (asked : LoadPhase.Retries mops mgr.hw.calls) :
    let prepared :=
      fpgaMgrPrepareCopied mops.logged.toFpgaManagerOps krealloc mgr info sgt
    Prepares mops prepared.1 prepared.2.1 := by
  obtain ⟨fails, succeeds⟩ :=
    LoadPhase.parseHeaderSg_ends krealloc mgr info sgt [] asked rfl
  rcases parsed : fpgaMgrParseHeaderSg mops.logged.toFpgaManagerOps krealloc
    mgr info sgt with ⟨ret | buf, next, info⟩
  · rw [parsed] at fails
    simp only [fpgaMgrPrepareCopied, parsed]
    exact parsed_fails (fails ret rfl) rfl
  · rw [parsed] at succeeds
    simp only [fpgaMgrPrepareCopied, parsed]
    exact prepares_writeInit (parsed_done (succeeds buf rfl) rfl) _ _

theorem prepareSg_prepares (mops : FpgaManagerSgOps Hw)
    (krealloc : Nat → Bool) (mgr : FpgaManager (Logged Hw))
    (fresh : mgr.hw.calls = []) (info : FpgaImageInfo)
    (sgt : List (List (BitVec 8))) :
    let prepared :=
      fpgaMgrPrepareSg mops.logged.toFpgaManagerOps krealloc mgr info sgt
    Prepares mops prepared.1 prepared.2.1 := by
  obtain ⟨ends, again⟩ :=
    LoadPhase.parseHeaderSgFirst_ends mops mgr info sgt
  rw [fresh] at ends again
  simp only [fpgaMgrPrepareSg]
  split
  · rename_i short
    refine prepares_writeInit ?_ info []
    have missing : mops.parseHeader = none := by
      simpa [FpgaManagerSgOps.logged] using short.2
    rw [fresh]
    simp [LoadPhase.Done, missing]
  · split
    · rename_i next info fragment rest parsed
      rw [parsed] at ends
      exact prepares_writeInit
        (parsed_done (ends (by simp)) rfl) info fragment
    · rename_i next info parsed
      cases parsed
    · rename_i ret next info parsed
      rw [parsed] at ends again
      split
      · rename_i isAgain
        obtain ⟨calls, asked, logged⟩ := again (by rw [isAgain])
        rw [List.nil_append] at logged
        exact prepareCopied_prepares krealloc next info _
          (logged ▸ asked)
      · rename_i other
        exact parsed_fails (ends (by simpa using other)) rfl

/-- From the prepared driver on, however the data is handed over. -/
theorem loadPrepared_ends (info : FpgaImageInfo)
    (write : Logged Hw → Option Errno × Logged Hw)
    (writes : ∀ log, LoadPhase.Writes mops log.calls (write log))
    (init : Option Errno × FpgaManager (Logged Hw))
    (prepares : Prepares mops init.1 init.2) :
    let loaded := loadPrepared mops.logged.toFpgaManagerOps info write init
    LoadEnds mops loaded.1 loaded.2.1 := by
  rcases init with ⟨_ | ret, mgr⟩
  · obtain ⟨parse, init, parsed, ready, before⟩ := prepares
    obtain ⟨data, logged, succeeds, inPhase⟩ := writes mgr.hw
    rcases wrote : write mgr.hw with ⟨_ | ret, log⟩
    · rw [wrote] at logged succeeds
      simp only [loadPrepared, wrote]
      let next : FpgaManager (Logged Hw) :=
        { mgr with state := .write, hw := log }
      have ends : LoadPhase.Ends mops _ _ _ _ :=
        LoadPhase.writeComplete_ends next info
      have reached : LoadPhase.writeComplete.Reached mops next.hw.calls := by
        refine ⟨parse, init, data, parsed, ready, succeeds rfl, ?_⟩
        rw [show next.hw.calls = mgr.hw.calls ++ data from logged]
        exact congrArg (· ++ data) before
      cases ret : (fpgaMgrWriteComplete mops.logged.toFpgaManagerOps next
          info).1 with
      | none =>
          have operating := fpgaMgrWriteComplete_operating
            mops.logged.toFpgaManagerOps next info ret
          rw [ret] at ends
          obtain ⟨calls, more, done⟩ := ends
          exact ⟨operating, next.hw.calls, calls, reached, done, more⟩
      | some errno =>
          rw [ret] at ends
          exact reached.fails ends
    · rw [wrote] at logged
      simp only [loadPrepared, wrote]
      refine Or.inr ⟨.write, rfl, mgr.hw.calls, data, ?_, inPhase, logged⟩
      exact ⟨parse, init, parsed, ready, before⟩
  · exact prepares

theorem bufLoadSg_ends (krealloc : Nat → Bool)
    (mgr : FpgaManager (Logged Hw)) (fresh : mgr.hw.calls = [])
    (info : FpgaImageInfo) (sgt : List (List (BitVec 8))) :
    let loaded := fpgaMgrBufLoadSg mops.logged krealloc mgr info sgt
    LoadEnds mops loaded.1 loaded.2.1 := by
  intro loaded
  have prepares :=
    prepareSg_prepares mops krealloc mgr fresh info sgt
  rw [show loaded = _ from fpgaMgrBufLoadSg_eq mops.logged krealloc mgr info sgt]
  exact loadPrepared_ends _ _ (LoadPhase.writeData_writes _ sgt) _ prepares

theorem bufLoadMapped_ends (mgr : FpgaManager (Logged Hw))
    (fresh : mgr.hw.calls = []) (info : FpgaImageInfo)
    (buf : List (BitVec 8)) :
    let loaded :=
      fpgaMgrBufLoadMapped mops.logged.toFpgaManagerOps mgr info buf
    LoadEnds mops loaded.1 loaded.2.1 := by
  intro loaded
  have ends :=
    LoadPhase.parseHeaderMapped_ends mops mgr info buf
  rw [fresh] at ends
  rw [show loaded = _ from
    fpgaMgrBufLoadMapped_eq mops.logged.toFpgaManagerOps mgr info buf]
  refine loadPrepared_ends _ _ (fun log => LoadPhase.write_writes _ log) _ ?_
  split
  · rename_i ret fails
    exact parsed_fails ends fails
  · rename_i fine
    exact prepares_writeInit (parsed_done ends fine) _ _

theorem bufLoad_ends (resources : LoadResources)
    (mgr : FpgaManager (Logged Hw)) (fresh : mgr.hw.calls = [])
    (info : FpgaImageInfo) (addr : Nat) (buf : List (BitVec 8)) :
    let loaded := fpgaMgrBufLoad mops.logged resources mgr info addr buf
    LoadEnds mops loaded.1 loaded.2.1 := by
  simp only [fpgaMgrBufLoad]
  split
  · exact bufLoadMapped_ends mgr fresh info buf
  · split
    · exact Or.inl fresh
    · split
      · exact Or.inl fresh
      · split
        · exact Or.inl fresh
        · exact bufLoadSg_ends _ mgr fresh info _

theorem loadNamed_ends (resources : LoadResources)
    (mgr : FpgaManager (Logged Hw)) (fresh : mgr.hw.calls = [])
    (info : FpgaImageInfo) (firmwareName : Option String) :
    let loaded := fpgaMgrLoadNamed mops.logged resources mgr info firmwareName
    LoadEnds mops loaded.1 loaded.2.1 := by
  cases firmwareName with
  | none => exact Or.inl fresh
  | some name =>
      simp only [fpgaMgrLoadNamed, fpgaMgrFirmwareLoad]
      split
      · exact Or.inl fresh
      · exact bufLoad_ends resources { mgr with state := .firmwareReq } fresh
          info _ _

/--
A load succeeds with the manager in operation after its driver has been called
in the order of the phases and each phase has succeeded.  One which fails has
not called the driver, or leaves the error state of the phase that failed and
has called nothing of a later phase.
-/
theorem load_follows_phases (mops : FpgaManagerSgOps Hw)
    (resources : LoadResources) (mgr : FpgaManager Hw)
    (info : FpgaImageInfo) (source : FpgaImageSource) :
    let loaded := fpgaMgrLoad mops.logged resources mgr.logged info source
    LoadEnds mops loaded.1 loaded.2.1 := by
  simp only [fpgaMgrLoad]
  split
  · exact bufLoadSg_ends _ mgr.logged rfl _ _
  · split
    · exact bufLoad_ends resources mgr.logged rfl _ _ _
    · exact loadNamed_ends resources mgr.logged rfl _ _
  · exact loadNamed_ends resources mgr.logged rfl _ _

end Load

end LinuxDfl.Fpga

import LinuxDfl.Kernel.Errno
import LinuxDfl.Lib.Chunks
import LinuxDfl.Lib.LittleEndian
import Mathlib.Tactic.IntervalCases

/-!
# Altera passive serial configuration

The image goes out through SPI in chunks of 4 KiB, the most significant bit of
each byte first.  Unless the image says that its bits are in order, the driver
reverses the bytes of a chunk before it sends it, and does so in the buffer of
the caller.
-/

namespace LinuxDfl.Fpga.AlteraPs

open LinuxDfl.Kernel
open LinuxDfl.Lib.Chunks
open LinuxDfl.Lib.LittleEndian

/-! ## Reversing bits -/

/-- `bitrev8` -/
def bitrev8 (byte : Byte) : Byte := byte.reverse

/-- `bitrev32` -/
def bitrev32 (word : BitVec 32) : BitVec 32 := word.reverse

/-- `swab32` -/
def swab32 (word : BitVec 32) : BitVec 32 :=
  (word &&& 0x000000ff) <<< 24 ||| (word &&& 0x0000ff00) <<< 8 |||
    (word &&& 0x00ff0000) >>> 8 ||| (word &&& 0xff000000) >>> 24

/-- `bitrev8x4` -/
def bitrev8x4 (word : BitVec 32) : BitVec 32 := bitrev32 (swab32 word)

/-- The first loop of `rev_buf`, on the words up to its end. -/
def revWords : List Byte → List Byte
  | first :: second :: third :: fourth :: rest =>
      let fw32 := BitVec.ofNat 32 (ofBytes [first, second, third, fourth])
      toBytes 4 (bitrev8x4 fw32).toNat ++ revWords rest
  | rest => rest

/-- `rev_buf` -/
def revBuf (buf : List Byte) : List Byte :=
  let extraBytes := buf.length &&& 0x03
  let fwEnd := buf.length - extraBytes
  revWords (buf.take fwEnd) ++ (buf.drop fwEnd).map bitrev8

/-! ## The driver -/

/-- `FPGA_MGR_PARTIAL_RECONFIG` -/
def fpgaMgrPartialReconfig : BitVec 32 := 0x1

/-- `FPGA_MGR_BITSTREAM_LSB_FIRST` -/
def fpgaMgrBitstreamLsbFirst : BitVec 32 := 0x8

/-- `SZ_4K` -/
def sz4k : Nat := 4096

/-- `struct altera_ps_data` -/
structure AlteraPsData where
  statusWaitMinUs : Nat
  statusWaitMaxUs : Nat
  deriving DecidableEq, Repr

/-- `c5_data` -/
def c5Data : AlteraPsData := ⟨268, 1506⟩

/-- `struct altera_ps_conf` -/
structure AlteraPsConf where
  data : AlteraPsData
  infoFlags : BitVec 32
  deriving DecidableEq, Repr

/-- How often `altera_ps_write_init` waits for the status. -/
def AlteraPsData.waits (data : AlteraPsData) : Nat :=
  data.statusWaitMaxUs / data.statusWaitMinUs +
    if data.statusWaitMaxUs % data.statusWaitMinUs ≠ 0 then 1 else 0

/-- `altera_ps_write_init`, for the values which the status pin shows. -/
def alteraPsWriteInit (conf : AlteraPsConf) (flags : BitVec 32)
    (status : Nat → Bool) : Option Errno × AlteraPsConf :=
  let conf := { conf with infoFlags := flags }
  if flags &&& fpgaMgrPartialReconfig ≠ 0 then
    (some .einval, conf)
  else if !status 0 then
    (some .eio, conf)
  else if (List.range conf.data.waits).any fun turn => !status (turn + 1) then
    (none, conf)
  else
    (some .eio, conf)

/-- What a write leaves behind. -/
structure Written where
  ret : Option Errno
  /-- What was handed to `spi_write`, one after the other. -/
  sent : List (List Byte)
  /-- The buffer of the caller. -/
  buffer : List Byte
  deriving DecidableEq, Repr

/--
The loop of `altera_ps_write`, from `fw_data` on; `transfer` is what
`spi_write` answers to each chunk.
-/
def writeFrom (conf : AlteraPsConf) (transfer : Nat → Option Errno)
    (index : Nat) (fwData : List Byte) : Written :=
  if fwData = [] then
    { ret := none, sent := [], buffer := [] }
  else
    let stride := min fwData.length sz4k
    let shown :=
      if conf.infoFlags &&& fpgaMgrBitstreamLsbFirst = 0 then
        revBuf (fwData.take stride)
      else
        fwData.take stride
    match transfer index with
    | some ret =>
        { ret := some ret, sent := [shown]
          buffer := shown ++ fwData.drop stride }
    | none =>
        let rest := writeFrom conf transfer (index + 1) (fwData.drop stride)
        { ret := rest.ret, sent := shown :: rest.sent
          buffer := shown ++ rest.buffer }
termination_by fwData.length
decreasing_by
  have some := List.length_pos_iff.mpr ‹_›
  simp only [List.length_drop, sz4k]
  omega

/-- `altera_ps_write` -/
def alteraPsWrite (conf : AlteraPsConf) (transfer : Nat → Option Errno)
    (buf : List Byte) : Written :=
  writeFrom conf transfer 0 buf

/-! ## Attempts -/

/-- What one attempt to load the image meets. -/
structure Attempt where
  flags : BitVec 32
  status : Nat → Bool
  transfer : Nat → Option Errno

/-- The attempt gets as far as `altera_ps_write`. -/
def Attempt.Prepares (attempt : Attempt) (data : AlteraPsData) : Prop :=
  (alteraPsWriteInit ⟨data, 0⟩ attempt.flags attempt.status).1 = none

def Attempt.LsbFirst (attempt : Attempt) : Prop :=
  attempt.flags &&& fpgaMgrBitstreamLsbFirst ≠ 0

instance (attempt : Attempt) : Decidable attempt.LsbFirst :=
  inferInstanceAs (Decidable (_ ≠ _))

/-- One attempt: nothing is written unless the device is prepared. -/
def attemptLoad (conf : AlteraPsConf) (attempt : Attempt) (buf : List Byte) :
    AlteraPsConf × Written :=
  match alteraPsWriteInit conf attempt.flags attempt.status with
  | (some ret, conf) => (conf, { ret := some ret, sent := [], buffer := buf })
  | (none, conf) => (conf, alteraPsWrite conf attempt.transfer buf)

/-- Attempts on one buffer, one after the other. -/
def attemptLoads : AlteraPsConf → List Byte → List Attempt → List Written
  | _, _, [] => []
  | conf, buf, attempt :: rest =>
      let loaded := attemptLoad conf attempt buf
      loaded.2 :: attemptLoads loaded.1 loaded.2.buffer rest

/-! ## Reversing a buffer -/

theorem bitrev8x4_byte (word : BitVec 32) (index : Nat) (inside : index < 4) :
    (bitrev8x4 word >>> (8 * index)).setWidth 8 =
      bitrev8 ((word >>> (8 * index)).setWidth 8) := by
  apply BitVec.eq_of_getLsbD_eq
  intro bit small
  unfold bitrev8x4 bitrev32 bitrev8 swab32
  interval_cases index <;> interval_cases bit <;>
    simp [BitVec.getElem_reverse, BitVec.getMsbD_eq_getLsbD]

/-- A word is reversed byte by byte. -/
theorem toBytes_bitrev8x4 (word : BitVec 32) :
    toBytes 4 (bitrev8x4 word).toNat =
      (toBytes 4 word.toNat).map bitrev8 := by
  have byte := bitrev8x4_byte word
  have first := byte 0 (by decide)
  have second := byte 1 (by decide)
  have third := byte 2 (by decide)
  have fourth := byte 3 (by decide)
  simp only [Nat.mul_zero, BitVec.ushiftRight_zero] at first
  simp only [Nat.reduceMul] at second third fourth
  simp only [toBytes_toNat_succ, ← BitVec.shiftRight_add, Nat.reduceAdd]
  rw [first, second, third, fourth]
  rfl

/-- Whole words are reversed byte by byte. -/
theorem revWords_of_dvd (bytes : List Byte) (dvd : 4 ∣ bytes.length) :
    revWords bytes = bytes.map bitrev8 := by
  fun_induction revWords bytes with
  | case1 first second third fourth rest fw32 ih =>
      have restDvd : 4 ∣ rest.length := by
        simp only [List.length_cons] at dvd
        omega
      have back : toBytes 4 fw32.toNat = [first, second, third, fourth] := by
        have bound : ofBytes [first, second, third, fourth] < 2 ^ 32 :=
          (ofBytes_lt [first, second, third, fourth]).trans_eq (by simp)
        have same := toBytes_ofBytes [first, second, third, fourth] 0
        show toBytes 4 (BitVec.ofNat 32 _).toNat = _
        rw [BitVec.toNat_ofNat, Nat.mod_eq_of_lt bound]
        simpa using same
      rw [toBytes_bitrev8x4, back, ih restDvd]
      rfl
  | case2 bytes short =>
      match bytes, short, dvd with
      | [], _, _ => rfl
      | [_], _, dvd => exact absurd dvd (by simp)
      | [_, _], _, dvd => exact absurd dvd (by simp)
      | [_, _, _], _, dvd => exact absurd dvd (by simp)
      | first :: second :: third :: fourth :: rest, short, _ =>
          exact absurd rfl (short first second third fourth rest)

/-- The words and the bytes behind them are all bytes. -/
theorem revBuf_eq_map (buf : List Byte) : revBuf buf = buf.map bitrev8 := by
  have extra : buf.length &&& 3 = buf.length % 4 :=
    Nat.and_two_pow_sub_one_eq_mod buf.length 2
  have dvd : 4 ∣ (buf.take (buf.length - buf.length % 4)).length := by
    rw [List.length_take]
    omega
  unfold revBuf
  simp only [extra]
  rw [revWords_of_dvd _ dvd, ← List.map_append, List.take_append_drop]

@[simp]
theorem bitrev8_bitrev8 (byte : Byte) : bitrev8 (bitrev8 byte) = byte :=
  BitVec.reverse_reverse_eq

/-! ## One write -/

/-- What is to be sent for an image. -/
def shownAs (lsbFirst : Prop) [Decidable lsbFirst] (image : List Byte) :
    List Byte :=
  if lsbFirst then image else image.map bitrev8

section Write

variable (lsbFirst : Prop) [Decidable lsbFirst]

@[simp]
theorem length_shownAs (bytes : List Byte) :
    (shownAs lsbFirst bytes).length = bytes.length := by
  unfold shownAs
  split <;> simp

theorem shownAs_take (bytes : List Byte) (count : Nat) :
    shownAs lsbFirst (bytes.take count) =
      (shownAs lsbFirst bytes).take count := by
  unfold shownAs
  split <;> simp [List.map_take]

theorem shownAs_drop (bytes : List Byte) (count : Nat) :
    shownAs lsbFirst (bytes.drop count) =
      (shownAs lsbFirst bytes).drop count := by
  unfold shownAs
  split <;> simp [List.map_drop]

/-- A write, from a chunk on: what it sends, and what it does to the buffer. -/
structure WritesFrom (transfer : Nat → Option Errno) (first : Nat)
    (bytes : List Byte) (written : Written) : Prop where
  sent : written.sent =
    chunks sz4k (shownAs lsbFirst bytes) written.sent.length
  /-- A chunk is sent if there is one, and those before it went through. -/
  reached : ∀ index, index < written.sent.length ↔
    sz4k * index < bytes.length ∧
      ∀ earlier < index, transfer (first + earlier) = none
  /-- Whatever was sent is still in the buffer. -/
  buffer : written.buffer =
    (shownAs lsbFirst bytes).take (sz4k * written.sent.length) ++
      bytes.drop (sz4k * written.sent.length)
  whole : written.ret = none → bytes.length ≤ sz4k * written.sent.length

end Write

/-- Flags with which the bits are in order. -/
abbrev AlteraPsConf.LsbFirst (conf : AlteraPsConf) : Prop :=
  conf.infoFlags &&& fpgaMgrBitstreamLsbFirst ≠ 0

/-- What is sent of a chunk, whichever way it is made. -/
theorem shown_eq (conf : AlteraPsConf) (bytes : List Byte) :
    (if conf.infoFlags &&& fpgaMgrBitstreamLsbFirst = 0 then revBuf bytes
      else bytes) = shownAs conf.LsbFirst bytes := by
  unfold shownAs
  rw [revBuf_eq_map, ite_not]

theorem take_stride (bytes : List Byte) :
    bytes.take (min bytes.length sz4k) = bytes.take sz4k := by
  rcases Nat.le_total bytes.length sz4k with short | long
  · rw [Nat.min_eq_left short, List.take_length,
      List.take_of_length_le short]
  · rw [Nat.min_eq_right long]

theorem drop_stride (bytes : List Byte) :
    bytes.drop (min bytes.length sz4k) = bytes.drop sz4k := by
  rcases Nat.le_total bytes.length sz4k with short | long
  · rw [Nat.min_eq_left short, List.drop_eq_nil_of_le le_rfl,
      List.drop_eq_nil_of_le short]
  · rw [Nat.min_eq_right long]

/-- A chunk which does not go through is the last. -/
theorem WritesFrom.of_failed
    {lsbFirst : Prop} [Decidable lsbFirst] {transfer : Nat → Option Errno}
    {first : Nat} {bytes : List Byte} {ret : Errno}
    (nonempty : bytes ≠ []) (failed : transfer first = some ret) :
    WritesFrom lsbFirst transfer first bytes
      { ret := some ret, sent := [(shownAs lsbFirst bytes).take sz4k]
        buffer := (shownAs lsbFirst bytes).take sz4k ++ bytes.drop sz4k } := by
  have positive := List.length_pos_iff.mpr nonempty
  refine ⟨?_, fun index => ?_, ?_, fun ret => by cases ret⟩
  · rw [List.length_singleton, chunks_succ, chunks_zero]
  · cases index with
    | zero => simpa using positive
    | succ index =>
        constructor
        · intro inside
          exact absurd inside (by simp)
        · rintro ⟨-, went⟩
          have here := went 0 (Nat.succ_pos index)
          rw [Nat.add_zero, failed] at here
          cases here
  · rw [List.length_singleton, Nat.mul_one]

/-- A chunk which goes through is followed by the others. -/
theorem WritesFrom.cons
    {lsbFirst : Prop} [Decidable lsbFirst] {transfer : Nat → Option Errno}
    {first : Nat} {bytes : List Byte} {rest : Written}
    (nonempty : bytes ≠ []) (went : transfer first = none)
    (writes : WritesFrom lsbFirst transfer (first + 1) (bytes.drop sz4k) rest) :
    WritesFrom lsbFirst transfer first bytes
      { ret := rest.ret, sent := (shownAs lsbFirst bytes).take sz4k :: rest.sent
        buffer := (shownAs lsbFirst bytes).take sz4k ++ rest.buffer } := by
  have positive := List.length_pos_iff.mpr nonempty
  refine ⟨?_, fun index => ?_, ?_, fun ret => ?_⟩
  · rw [List.length_cons, chunks_succ, ← shownAs_drop, ← writes.sent]
  · cases index with
    | zero => simpa using positive
    | succ index =>
        have reached := writes.reached index
        have next : sz4k * (index + 1) = sz4k * index + sz4k :=
          Nat.mul_succ sz4k index
        rw [List.length_drop] at reached
        rw [List.length_cons, Nat.add_lt_add_iff_right, reached]
        constructor
        · rintro ⟨inside, earlierWent⟩
          refine ⟨by omega, fun earlier below => ?_⟩
          cases earlier with
          | zero => exact went
          | succ earlier =>
              have before := earlierWent earlier (Nat.lt_of_succ_lt_succ below)
              rwa [Nat.add_assoc, Nat.add_comm 1] at before
        · rintro ⟨inside, earlierWent⟩
          refine ⟨by omega, fun earlier below => ?_⟩
          rw [Nat.add_assoc, Nat.add_comm 1]
          exact earlierWent (earlier + 1) (Nat.succ_lt_succ below)
  · rw [List.length_cons, writes.buffer, shownAs_drop, List.drop_drop,
      ← List.append_assoc, Nat.mul_succ, Nat.add_comm (sz4k * _), List.take_add]
  · have whole := writes.whole ret
    rw [List.length_drop] at whole
    rw [List.length_cons, Nat.mul_succ]
    omega

theorem writeFrom_writes (conf : AlteraPsConf)
    (transfer : Nat → Option Errno) (first : Nat) (bytes : List Byte) :
    WritesFrom conf.LsbFirst transfer first bytes
      (writeFrom conf transfer first bytes) := by
  fun_induction writeFrom conf transfer first bytes with
  | case1 => exact ⟨rfl, by simp, rfl, by simp⟩
  | case2 first bytes nonempty stride shown ret failed =>
      have sent : shown = (shownAs conf.LsbFirst bytes).take sz4k := by
        rw [← shownAs_take, ← take_stride]
        exact shown_eq conf _
      have behind : bytes.drop stride = bytes.drop sz4k := drop_stride bytes
      rw [sent, behind]
      exact WritesFrom.of_failed nonempty failed
  | case3 first bytes nonempty stride shown went rest ih =>
      have sent : shown = (shownAs conf.LsbFirst bytes).take sz4k := by
        rw [← shownAs_take, ← take_stride]
        exact shown_eq conf _
      have behind : bytes.drop stride = bytes.drop sz4k := drop_stride bytes
      have writes : WritesFrom conf.LsbFirst transfer (first + 1)
          (bytes.drop sz4k) rest := by
        rw [← behind]
        exact ih
      rw [sent]
      exact WritesFrom.cons nonempty went writes

/-! ## Sequences of attempts -/

/-- An attempt which hands the image over and leaves the buffer as it was. -/
structure Delivers (image : List Byte) (attempt : Attempt) (written : Written) :
    Prop where
  inOrder : written.sent =
    chunks sz4k (shownAs attempt.LsbFirst image) written.sent.length
  starts : written.sent.flatten <+: shownAs attempt.LsbFirst image
  whole : written.ret = none →
    written.sent.flatten = shownAs attempt.LsbFirst image
  unchanged : written.buffer = image

/-- Reversing a chunk which the attempt gets to changes nothing. -/
def KeepsBytes (data : AlteraPsData) (image : List Byte) (attempt : Attempt) :
    Prop :=
  attempt.Prepares data → ¬ attempt.LsbFirst →
    ∀ index, (∀ earlier < index, attempt.transfer earlier = none) →
      ∀ byte ∈ chunk sz4k image index, bitrev8 byte = byte

/-- The flags of the attempt are those of the write. -/
theorem attemptLoad_eq (conf : AlteraPsConf) (attempt : Attempt)
    (buf : List Byte) :
    attemptLoad conf attempt buf =
      (⟨conf.data, attempt.flags⟩,
        match (alteraPsWriteInit ⟨conf.data, 0⟩ attempt.flags
          attempt.status).1 with
        | some ret => { ret := some ret, sent := [], buffer := buf }
        | none =>
            alteraPsWrite ⟨conf.data, attempt.flags⟩ attempt.transfer buf) := by
  unfold attemptLoad alteraPsWriteInit
  simp only
  split_ifs <;> rfl

/-- The buffer is as it was if what was sent is what was in it. -/
theorem WritesFrom.buffer_eq_iff
    {lsbFirst : Prop} [Decidable lsbFirst] {transfer : Nat → Option Errno}
    {bytes : List Byte} {written : Written}
    (writes : WritesFrom lsbFirst transfer 0 bytes written) :
    written.buffer = bytes ↔
      (¬ lsbFirst → ∀ index, (∀ earlier < index, transfer earlier = none) →
        ∀ byte ∈ chunk sz4k bytes index, bitrev8 byte = byte) := by
  have buffer := writes.buffer
  by_cases ordered : lsbFirst
  · rw [shownAs, if_pos ordered, List.take_append_drop] at buffer
    exact iff_of_true buffer fun unordered => absurd ordered unordered
  · rw [shownAs, if_neg ordered, ← List.map_take] at buffer
    have same : written.buffer = bytes ↔
        (bytes.take (sz4k * written.sent.length)).map bitrev8 =
          (bytes.take (sz4k * written.sent.length)).map id := by
      rw [buffer, List.map_id]
      constructor
      · intro unchanged
        have split := unchanged.trans
          (List.take_append_drop (sz4k * written.sent.length) bytes).symm
        exact List.append_cancel_right split
      · intro unchanged
        rw [unchanged, List.take_append_drop]
    rw [same, List.map_inj_left, ← flatten_chunks]
    constructor
    · intro kept _ index went byte member
      refine kept byte (List.mem_flatten.mpr ⟨_, ?_, member⟩)
      have inside : sz4k * index < bytes.length := by
        by_contra beyond
        rw [chunk, List.drop_eq_nil_of_le (Nat.le_of_not_lt beyond)] at member
        cases member
      have reached : index < written.sent.length :=
        (writes.reached index).mpr ⟨inside, by simpa using went⟩
      exact List.mem_map.mpr ⟨index, List.mem_range.mpr reached, rfl⟩
    · intro kept byte member
      obtain ⟨part, partMember, member⟩ := List.mem_flatten.mp member
      obtain ⟨index, below, rfl⟩ := List.mem_map.mp partMember
      have reached := (writes.reached index).mp (List.mem_range.mp below)
      exact kept ordered index (by simpa using reached.2) byte member

theorem attemptLoad_delivers_iff (conf : AlteraPsConf) (attempt : Attempt)
    (image : List Byte) :
    Delivers image attempt (attemptLoad conf attempt image).2 ↔
      KeepsBytes conf.data image attempt := by
  rw [attemptLoad_eq]
  unfold KeepsBytes Attempt.Prepares
  cases init : (alteraPsWriteInit ⟨conf.data, 0⟩ attempt.flags
      attempt.status).1 with
  | some ret =>
      refine iff_of_true ⟨rfl, List.nil_prefix, fun ret => ?_, rfl⟩ ?_
      · cases ret
      · intro ready
        cases ready
  | none =>
      have writes : WritesFrom attempt.LsbFirst attempt.transfer 0 image
          (alteraPsWrite ⟨conf.data, attempt.flags⟩ attempt.transfer image) :=
        writeFrom_writes ⟨conf.data, attempt.flags⟩ attempt.transfer 0 image
      have kept := writes.buffer_eq_iff
      constructor
      · intro delivers _
        exact kept.mp delivers.unchanged
      · intro keeps
        refine ⟨writes.sent, ?_, fun ret => ?_, kept.mpr (keeps rfl)⟩
        · rw [writes.sent, flatten_chunks]
          exact List.take_prefix _ _
        · rw [writes.sent, flatten_chunks]
          apply List.take_of_length_le
          rw [length_shownAs]
          exact writes.whole ret

/-- All attempts deliver the image if none changes a byte of the buffer. -/
theorem attemptLoads_deliver_iff (conf : AlteraPsConf) (image : List Byte)
    (attempts : List Attempt) :
    List.Forall₂ (Delivers image) attempts (attemptLoads conf image attempts) ↔
      ∀ attempt ∈ attempts, KeepsBytes conf.data image attempt := by
  induction attempts generalizing conf with
  | nil => simp [attemptLoads]
  | cons attempt rest ih =>
      rw [attemptLoads, List.forall₂_cons, List.forall_mem_cons,
        attemptLoad_delivers_iff]
      refine and_congr_right fun keeps => ?_
      have unchanged :=
        ((attemptLoad_delivers_iff conf attempt image).mpr keeps).unchanged
      have same : (attemptLoad conf attempt image).1.data = conf.data := by
        rw [attemptLoad_eq]
      rw [unchanged, ih, same]

/-- A device which is ready at once, with a transfer which fails. -/
def failingAttempt : Attempt where
  flags := 0
  status turn := turn == 0
  transfer _ := some .eio

/-- The first attempt leaves a reversed byte for the second. -/
theorem attemptLoads_of_retry :
    ¬ List.Forall₂ (Delivers [0x01]) [failingAttempt, failingAttempt]
      (attemptLoads ⟨c5Data, 0⟩ [0x01] [failingAttempt, failingAttempt]) := by
  intro delivers
  cases delivers with
  | cons first second =>
      have keeps := (attemptLoad_delivers_iff _ _ _).mp first
      have reversed : bitrev8 0x01 = 0x01 :=
        keeps rfl (by decide) 0
          (fun earlier below => absurd below (Nat.not_lt_zero earlier)) 0x01
          (by decide)
      exact absurd reversed (by decide)

end LinuxDfl.Fpga.AlteraPs

import Mathlib.Data.Nat.Basic
import Mathlib.Data.List.Basic
import Mathlib.Tactic.Ring

/-!
# Little-endian bytes

Numbers as sequences of bytes, the least significant byte first.
-/

namespace LinuxDfl.Lib.LittleEndian

abbrev Byte := BitVec 8

/-- The number whose bytes these are. -/
def ofBytes : List Byte → Nat
  | [] => 0
  | byte :: rest => byte.toNat + 256 * ofBytes rest

/-- The lowest `count` bytes of a number. -/
def toBytes : Nat → Nat → List Byte
  | 0, _ => []
  | count + 1, n => BitVec.ofNat 8 n :: toBytes count (n / 256)

theorem ofBytes_nil : ofBytes [] = 0 := rfl

theorem ofBytes_cons (byte : Byte) (rest : List Byte) :
    ofBytes (byte :: rest) = byte.toNat + 256 * ofBytes rest := rfl

theorem toBytes_succ (count n : Nat) :
    toBytes (count + 1) n = BitVec.ofNat 8 n :: toBytes count (n / 256) := rfl

@[simp]
theorem length_toBytes (count n : Nat) : (toBytes count n).length = count := by
  induction count generalizing n with
  | zero => rfl
  | succ count ih => simp [toBytes_succ, ih]

@[simp]
theorem toBytes_zero (count : Nat) :
    toBytes count 0 = List.replicate count 0 := by
  induction count with
  | zero => rfl
  | succ count ih => simp [toBytes_succ, ih, List.replicate_succ]

theorem ofBytes_lt (bytes : List Byte) :
    ofBytes bytes < 256 ^ bytes.length := by
  induction bytes with
  | nil => simp [ofBytes_nil]
  | cons byte rest ih =>
      have bound : byte.toNat < 256 := byte.isLt
      rw [ofBytes_cons, List.length_cons, Nat.pow_succ]
      omega

theorem ofBytes_eq_zero_iff (bytes : List Byte) :
    ofBytes bytes = 0 ↔ ∀ byte ∈ bytes, byte = 0 := by
  induction bytes with
  | nil => simp [ofBytes_nil]
  | cons byte rest ih =>
      have zero : byte.toNat = 0 ↔ byte = 0 := BitVec.toNat_inj (y := 0)
      rw [ofBytes_cons, List.forall_mem_cons, ← ih, ← zero]
      omega

/-- Reading bytes back, with as many zeros as there is room for. -/
theorem toBytes_ofBytes (bytes : List Byte) (extra : Nat) :
    toBytes (bytes.length + extra) (ofBytes bytes) =
      bytes ++ List.replicate extra 0 := by
  induction bytes with
  | nil => simp [ofBytes_nil]
  | cons byte rest ih =>
      have bound : byte.toNat < 256 := byte.isLt
      have low : BitVec.ofNat 8 (byte.toNat + 256 * ofBytes rest) = byte := by
        apply BitVec.eq_of_toNat_eq
        simp only [BitVec.toNat_ofNat]
        omega
      have high :
          (byte.toNat + 256 * ofBytes rest) / 256 = ofBytes rest := by
        omega
      have length :
          (byte :: rest).length + extra = (rest.length + extra) + 1 := by
        simp only [List.length_cons]
        omega
      rw [length, ofBytes_cons, toBytes_succ, low, high, ih, List.cons_append]

theorem ofBytes_toBytes (count n : Nat) :
    ofBytes (toBytes count n) = n % 256 ^ count := by
  induction count generalizing n with
  | zero => simp [toBytes, ofBytes_nil, Nat.mod_one]
  | succ count ih =>
      have low : (BitVec.ofNat 8 n).toNat = n % 256 := by simp
      rw [toBytes_succ, ofBytes_cons, ih, low, Nat.pow_succ, Nat.mul_comm (256 ^ count),
        Nat.mod_mul]

/-- The bits of a number, from its lowest byte and from the others. -/
theorem ofNat_ofBytes_cons (width : Nat) (byte : Byte) (rest : List Byte) :
    BitVec.ofNat width (ofBytes (byte :: rest)) =
      byte.setWidth width ||| BitVec.ofNat width (ofBytes rest) <<< 8 := by
  have bound : byte.toNat < 2 ^ 8 := byte.isLt
  apply BitVec.eq_of_getLsbD_eq
  intro i small
  rw [BitVec.getLsbD_or, BitVec.getLsbD_shiftLeft, BitVec.getLsbD_ofNat,
    BitVec.getLsbD_ofNat, BitVec.getLsbD_setWidth, ofBytes_cons, Nat.add_comm,
    show (256 : Nat) = 2 ^ 8 from rfl, Nat.testBit_two_pow_mul_add _ bound]
  by_cases low : i < 8
  · simp [small, low, BitVec.getLsbD]
  · have high : byte.getLsbD i = false :=
      BitVec.getLsbD_of_ge byte i (Nat.le_of_not_lt low)
    have below : i - 8 < width := by omega
    simp [small, low, high, below]

/-- The bytes of a word, from its lowest bits and from the others. -/
theorem toBytes_toNat_succ {width : Nat} (count : Nat) (word : BitVec width) :
    toBytes (count + 1) word.toNat =
      word.setWidth 8 :: toBytes count (word >>> 8).toNat := by
  rw [toBytes_succ, BitVec.toNat_ushiftRight, Nat.shiftRight_eq_div_pow,
    BitVec.ofNat_toNat]

/-- Some bytes from the start, of the number and of its bytes. -/
theorem ofBytes_mod (bytes : List Byte) (count : Nat) :
    ofBytes bytes % 256 ^ count = ofBytes (bytes.take count) := by
  induction bytes generalizing count with
  | nil => rw [List.take_nil, ofBytes_nil, Nat.zero_mod]
  | cons byte rest ih =>
      cases count with
      | zero => rw [Nat.pow_zero, Nat.mod_one, List.take_zero, ofBytes_nil]
      | succ count =>
          have bound : byte.toNat < 256 := byte.isLt
          have low : (byte.toNat + 256 * ofBytes rest) % 256 = byte.toNat := by
            omega
          have high : (byte.toNat + 256 * ofBytes rest) / 256 =
              ofBytes rest := by
            omega
          rw [List.take_succ_cons, ofBytes_cons, ofBytes_cons, ← ih, Nat.pow_succ,
            Nat.mul_comm (256 ^ count), Nat.mod_mul, low, high]

/-! ## Words -/

/-- The words of `size` bytes each, the last one filled up with zeros. -/
def words (size : Nat) (bytes : List Byte) : List Nat :=
  (List.range ((bytes.length + (size - 1)) / size)).map fun index =>
    ofBytes ((bytes.drop (size * index)).take size)

theorem words_nil (size : Nat) (positive : 0 < size) :
    words size [] = [] := by
  have none : (([] : List Byte).length + (size - 1)) / size = 0 :=
    Nat.div_eq_of_lt (by rw [List.length_nil]; omega)
  rw [words, none]
  rfl

/-- Bytes which fit one word. -/
theorem words_of_length_le {size : Nat} {bytes : List Byte}
    (some : 0 < bytes.length) (fits : bytes.length ≤ size) :
    words size bytes = [ofBytes bytes] := by
  have one : (bytes.length + (size - 1)) / size = 1 :=
    Nat.div_eq_of_lt_le (by omega) (by omega)
  rw [words, one]
  simp [List.take_of_length_le fits]

/-- Words may be cut anywhere between them. -/
theorem words_append_of_dvd {size : Nat} (positive : 0 < size)
    {first : List Byte} (dvd : size ∣ first.length) (rest : List Byte) :
    words size (first ++ rest) = words size first ++ words size rest := by
  obtain ⟨count, length⟩ := dvd
  have ofFirst : (first.length + (size - 1)) / size = count := by
    rw [length, Nat.mul_add_div positive, Nat.div_eq_of_lt (by omega),
      Nat.add_zero]
  have ofBoth : ((first ++ rest).length + (size - 1)) / size =
      count + (rest.length + (size - 1)) / size := by
    rw [List.length_append, length, Nat.add_assoc,
      Nat.mul_add_div positive]
  rw [words, ofBoth, List.range_add, List.map_append, List.map_map, words,
    ofFirst, words]
  congr 1
  · refine List.map_congr_left fun index inside => ?_
    have below : index < count := List.mem_range.mp inside
    have inFirst : size * index + size ≤ first.length := by
      rw [length, ← Nat.mul_succ]
      exact Nat.mul_le_mul_left size below
    rw [List.drop_append_of_le_length (by omega),
      List.take_append_of_le_length (by rw [List.length_drop]; omega)]
  · refine List.map_congr_left fun index _ => ?_
    have beyond : size * (count + index) = first.length + size * index := by
      rw [length, Nat.mul_add]
    show ofBytes (((first ++ rest).drop (size * (count + index))).take size) = _
    rw [beyond, List.drop_append, List.drop_eq_nil_of_le (by omega),
      List.nil_append, Nat.add_sub_cancel_left]

end LinuxDfl.Lib.LittleEndian

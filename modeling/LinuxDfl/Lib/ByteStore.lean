import Mathlib.Data.List.GetD
import LinuxDfl.Lib.LittleEndian

/-!
# Byte-addressed storage

A storage gives a byte for every address.  Storing a sequence of bytes at an
address overlays the storage there.
-/

namespace LinuxDfl.Lib.ByteStore

open LinuxDfl.Lib.LittleEndian

abbrev Storage := Nat → Byte

/-- The storage with these bytes from the address on. -/
def store (storage : Storage) (address : Nat) (bytes : List Byte) : Storage :=
  fun position =>
    if address ≤ position ∧ position < address + bytes.length then
      bytes.getD (position - address) 0
    else storage position

/-- The storage has these bytes from the address on. -/
def Holds (storage : Storage) (address : Nat) (bytes : List Byte) : Prop :=
  ∀ i, i < bytes.length → storage (address + i) = bytes.getD i 0

@[simp]
theorem holds_nil (storage : Storage) (address : Nat) :
    Holds storage address [] :=
  fun _ inside => absurd inside (Nat.not_lt_zero _)

/-- Bytes which are stored behind those already held are held as well. -/
theorem Holds.store_append
    {storage : Storage} {address : Nat} {held : List Byte}
    (holds : Holds storage address held) (bytes : List Byte) :
    Holds (store storage (address + held.length) bytes) address
      (held ++ bytes) := by
  intro i inside
  rw [List.length_append] at inside
  by_cases old : i < held.length
  · have before :
        ¬ (address + held.length ≤ address + i ∧
          address + i < address + held.length + bytes.length) := by omega
    rw [store, if_neg before, holds i old, List.getD_append _ _ _ _ old]
  · have within :
        address + held.length ≤ address + i ∧
          address + i < address + held.length + bytes.length := by omega
    have offset : address + i - (address + held.length) =
        i - held.length := by omega
    rw [store, if_pos within, offset,
      List.getD_append_right _ _ _ _ (Nat.le_of_not_lt old)]

/-- A storage holds two sequences of one length only if they are the same. -/
theorem Holds.eq_of_length
    {storage : Storage} {address : Nat} {left right : List Byte}
    (holdsLeft : Holds storage address left)
    (holdsRight : Holds storage address right)
    (length : left.length = right.length) : left = right := by
  refine List.ext_getElem length fun i inLeft inRight => ?_
  have same := (holdsLeft i inLeft).symm.trans (holdsRight i inRight)
  simpa [List.getD_eq_getElem?_getD, inLeft, inRight] using same

/-- Storing one sequence behind another is storing both. -/
theorem store_append
    (storage : Storage) (address : Nat) (left right : List Byte) :
    store (store storage address left) (address + left.length) right =
      store storage address (left ++ right) := by
  funext position
  simp only [store, List.length_append]
  by_cases inRight :
      address + left.length ≤ position ∧
        position < address + left.length + right.length
  · have within :
        address ≤ position ∧
          position < address + (left.length + right.length) := by omega
    rw [if_pos inRight, if_pos within,
      List.getD_append_right _ _ _ _ (by omega), Nat.sub_add_eq]
  · rw [if_neg inRight]
    by_cases inLeft :
        address ≤ position ∧ position < address + left.length
    · have within :
          address ≤ position ∧
            position < address + (left.length + right.length) := by omega
      rw [if_pos inLeft, if_pos within,
        List.getD_append _ _ _ _ (by omega)]
    · have without :
          ¬ (address ≤ position ∧
            position < address + (left.length + right.length)) := by omega
      rw [if_neg inLeft, if_neg without]

@[simp]
theorem store_nil (storage : Storage) (address : Nat) :
    store storage address [] = storage := by
  funext position
  have empty :
      ¬ (address ≤ position ∧
        position < address + ([] : List Byte).length) := by
    simp only [List.length_nil]
    omega
  rw [store, if_neg empty]

theorem holds_store (storage : Storage) (address : Nat) (bytes : List Byte) :
    Holds (store storage address bytes) address bytes :=
  (holds_nil storage address).store_append bytes

theorem Holds.left {storage : Storage} {address : Nat}
    {left right : List Byte} (holds : Holds storage address (left ++ right)) :
    Holds storage address left := by
  intro i inside
  rw [holds i (by rw [List.length_append]; omega),
    List.getD_append _ _ _ _ inside]

theorem Holds.right {storage : Storage} {address : Nat}
    {left right : List Byte} (holds : Holds storage address (left ++ right)) :
    Holds storage (address + left.length) right := by
  intro i inside
  rw [Nat.add_assoc, holds (left.length + i)
    (by rw [List.length_append]; omega),
    List.getD_append_right _ _ _ _ (by omega), Nat.add_sub_cancel_left]

/-! ## Loading -/

/-- The bytes of the storage from the address on. -/
def load (storage : Storage) (address count : Nat) : List Byte :=
  (List.range count).map fun i => storage (address + i)

@[simp]
theorem length_load (storage : Storage) (address count : Nat) :
    (load storage address count).length = count := by
  simp [load]

/-- What a storage holds is what is loaded from it. -/
theorem Holds.load_eq {storage : Storage} {address : Nat}
    {bytes : List Byte} (holds : Holds storage address bytes) :
    load storage address bytes.length = bytes := by
  refine List.ext_getElem (length_load _ _ _) fun i _ inside => ?_
  have held := holds i inside
  rw [List.getD_eq_getElem _ _ inside] at held
  simpa [load] using held

/-- What is stored elsewhere is not loaded. -/
theorem load_store_of_apart (storage : Storage) {address count position : Nat}
    {bytes : List Byte}
    (apart : address + count ≤ position ∨
      position + bytes.length ≤ address) :
    load (store storage position bytes) address count =
      load storage address count := by
  refine List.map_congr_left fun i inside => ?_
  have below := List.mem_range.mp inside
  rw [store, if_neg (by omega)]

/-! ## Moving and filling -/

/-- `memmove` -/
def move (storage : Storage) (dest source count : Nat) : Storage :=
  store storage dest (load storage source count)

/-- `memset` -/
def fill (storage : Storage) (address : Nat) (byte : Byte) (count : Nat) :
    Storage :=
  store storage address (List.replicate count byte)

/-- A store leaves what lies in front of it as it is. -/
theorem Holds.store_behind {storage : Storage} {address : Nat}
    {held : List Byte} (holds : Holds storage address held)
    {position : Nat} (behind : address + held.length ≤ position)
    (bytes : List Byte) :
    Holds (store storage position bytes) address held := by
  intro i inside
  have before :
      ¬ (position ≤ address + i ∧
        address + i < position + bytes.length) := by omega
  rw [store, if_neg before, holds i inside]

/-- A store leaves what lies behind it as it is. -/
theorem Holds.store_before {storage : Storage} {address : Nat}
    {held : List Byte} (holds : Holds storage address held)
    {position : Nat} {bytes : List Byte}
    (before : position + bytes.length ≤ address) :
    Holds (store storage position bytes) address held := by
  intro i inside
  have outside :
      ¬ (position ≤ address + i ∧
        address + i < position + bytes.length) := by omega
  rw [store, if_neg outside, holds i inside]

/-- Two sequences held one behind the other are held as one. -/
theorem Holds.append {storage : Storage} {address : Nat}
    {left right : List Byte} (holdsLeft : Holds storage address left)
    (holdsRight : Holds storage (address + left.length) right) :
    Holds storage address (left ++ right) := by
  intro i inside
  rw [List.length_append] at inside
  by_cases inLeft : i < left.length
  · rw [holdsLeft i inLeft, List.getD_append _ _ _ _ inLeft]
  · have held := holdsRight (i - left.length) (by omega)
    have position : address + left.length + (i - left.length) =
        address + i := by omega
    rw [position] at held
    rw [held, List.getD_append_right _ _ _ _ (by omega)]

/-- Moving the end of a sequence and filling the gap it leaves. -/
theorem Holds.insert_fill {storage : Storage} {address : Nat}
    {left right : List Byte} (holds : Holds storage address (left ++ right))
    (gap : Nat) (byte : Byte) :
    Holds
      (fill
        (move storage (address + left.length + gap) (address + left.length)
          right.length)
        (address + left.length) byte gap)
      address (left ++ List.replicate gap byte ++ right) := by
  have loaded := holds.right.load_eq
  rw [fill, move, loaded]
  have inFront :=
    holds.left.store_behind (Nat.le_add_right _ gap) right
  have filled := inFront.store_append (List.replicate gap byte)
  refine filled.append ?_
  rw [List.length_append, List.length_replicate, ← Nat.add_assoc]
  refine (holds_store _ _ right).store_before ?_
  rw [List.length_replicate]

end LinuxDfl.Lib.ByteStore

import Mathlib.Data.List.Basic

/-!
# Chunks of a list

A list, cut into chunks of one size, the last of which may be shorter.
-/

namespace LinuxDfl.Lib.Chunks

variable {α : Type*}

/-- The chunk of a list with a number. -/
def chunk (size : Nat) (list : List α) (index : Nat) : List α :=
  (list.drop (size * index)).take size

theorem chunk_zero (size : Nat) (list : List α) :
    chunk size list 0 = list.take size := by
  rw [chunk, Nat.mul_zero, List.drop_zero]

/-- The chunks behind the first. -/
theorem chunk_drop (size : Nat) (list : List α) (index : Nat) :
    chunk size (list.drop size) index = chunk size list (index + 1) := by
  rw [chunk, chunk, List.drop_drop, Nat.mul_succ, Nat.add_comm]

/-- The chunks from the first on, up to a number of them. -/
def chunks (size : Nat) (list : List α) (count : Nat) : List (List α) :=
  (List.range count).map (chunk size list)

@[simp]
theorem length_chunks (size : Nat) (list : List α) (count : Nat) :
    (chunks size list count).length = count := by
  rw [chunks, List.length_map, List.length_range]

@[simp]
theorem chunks_zero (size : Nat) (list : List α) : chunks size list 0 = [] :=
  rfl

/-- The first chunk, and those of the rest. -/
theorem chunks_succ (size : Nat) (list : List α) (count : Nat) :
    chunks size list (count + 1) =
      list.take size :: chunks size (list.drop size) count := by
  rw [chunks, List.range_succ_eq_map, List.map_cons, chunk_zero, List.map_map,
    chunks]
  congr 1
  exact List.map_congr_left fun index _ => (chunk_drop size list index).symm

/-- Together they are the list up to where they end. -/
theorem flatten_chunks (size : Nat) (list : List α) (count : Nat) :
    (chunks size list count).flatten = list.take (size * count) := by
  induction count generalizing list with
  | zero => rw [chunks_zero, List.flatten_nil, Nat.mul_zero, List.take_zero]
  | succ count ih =>
      rw [chunks_succ, List.flatten_cons, ih, Nat.mul_succ, Nat.add_comm,
        List.take_add]

end LinuxDfl.Lib.Chunks

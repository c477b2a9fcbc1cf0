import LinuxDfl.Lib.LittleEndian

/-!
# Words of bytes which come in pieces

The words of a sequence of bytes are those bytes, filled up with zeros.  If
the bytes come in pieces, and the words of each piece are taken, every piece
is filled up.
-/

namespace LinuxDfl.Lib.LittleEndian

/-! ## Filling up -/

/-- How many words there are in so many bytes. -/
def wordCount (size length : Nat) : Nat := (length + (size - 1)) / size

/-- The bytes, filled up to whole words. -/
def pad (size : Nat) (bytes : List Byte) : List Byte :=
  bytes ++
    List.replicate (size * wordCount size bytes.length - bytes.length) 0

theorem wordCount_add_of_dvd {size first : Nat} (positive : 0 < size)
    (dvd : size ∣ first) (rest : Nat) :
    wordCount size (first + rest) = first / size + wordCount size rest := by
  obtain ⟨count, rfl⟩ := dvd
  rw [wordCount, wordCount, Nat.add_assoc, Nat.mul_add_div positive,
    Nat.mul_div_cancel_left count positive]

theorem wordCount_of_dvd {size length : Nat} (positive : 0 < size)
    (dvd : size ∣ length) : wordCount size length = length / size := by
  have whole := wordCount_add_of_dvd positive dvd 0
  have none : wordCount size 0 = 0 := Nat.div_eq_of_lt (by omega)
  rwa [none, Nat.add_zero, Nat.add_zero] at whole

/-- There is room for the bytes in the words. -/
theorem le_size_mul_wordCount {size : Nat} (positive : 0 < size)
    (length : Nat) : length ≤ size * wordCount size length := by
  have split := Nat.div_add_mod (length + (size - 1)) size
  have rest := Nat.mod_lt (length + (size - 1)) positive
  unfold wordCount
  omega

/-- The bytes fill the words if and only if there are whole words of them. -/
theorem size_mul_wordCount_eq_iff {size : Nat} (positive : 0 < size)
    (length : Nat) : size * wordCount size length = length ↔ size ∣ length := by
  constructor
  · intro whole
    exact ⟨_, whole.symm⟩
  · intro dvd
    rw [wordCount_of_dvd positive dvd, Nat.mul_div_cancel' dvd]

theorem length_pad {size : Nat} (positive : 0 < size) (bytes : List Byte) :
    (pad size bytes).length = size * wordCount size bytes.length := by
  have room := le_size_mul_wordCount positive bytes.length
  rw [pad, List.length_append, List.length_replicate]
  omega

theorem pad_of_dvd {size : Nat} (positive : 0 < size) {bytes : List Byte}
    (dvd : size ∣ bytes.length) : pad size bytes = bytes := by
  rw [pad, (size_mul_wordCount_eq_iff positive _).mpr dvd, Nat.sub_self,
    List.replicate_zero, List.append_nil]

theorem pad_append_of_dvd {size : Nat} (positive : 0 < size)
    {first : List Byte} (dvd : size ∣ first.length) (rest : List Byte) :
    pad size (first ++ rest) = first ++ pad size rest := by
  have total : size * wordCount size (first ++ rest).length -
      (first ++ rest).length =
        size * wordCount size rest.length - rest.length := by
    rw [List.length_append, wordCount_add_of_dvd positive dvd, Nat.mul_add,
      Nat.mul_div_cancel' dvd]
    omega
  rw [pad, total, pad, List.append_assoc]

/-! ## Words and their bytes -/

/-- The bytes of words. -/
def unwords (size : Nat) (values : List Nat) : List Byte :=
  values.flatMap (toBytes size)

/-- A first word of bytes, and the others. -/
theorem words_cons {size : Nat} (positive : 0 < size) {bytes : List Byte}
    (long : size ≤ bytes.length) :
    words size bytes =
      ofBytes (bytes.take size) :: words size (bytes.drop size) := by
  have length : (bytes.take size).length = size := List.length_take_of_le long
  have first : words size (bytes.take size) = [ofBytes (bytes.take size)] :=
    words_of_length_le (by omega) length.le
  calc words size bytes
      = words size (bytes.take size ++ bytes.drop size) := by
        rw [List.take_append_drop]
    _ = _ := by
        rw [words_append_of_dvd positive (Dvd.intro 1 (by omega)), first]
        rfl

/-- The bytes of the words are the bytes, filled up. -/
theorem unwords_words {size : Nat} (positive : 0 < size)
    (bytes : List Byte) : unwords size (words size bytes) = pad size bytes := by
  induction length : bytes.length using Nat.strong_induction_on
    generalizing bytes with
  | _ count ih =>
      by_cases long : size ≤ bytes.length
      · have shorter : (bytes.drop size).length < count := by
          rw [List.length_drop]
          omega
        have firstLength : (bytes.take size).length = size :=
          List.length_take_of_le long
        have first : toBytes size (ofBytes (bytes.take size)) =
            bytes.take size := by
          have back := toBytes_ofBytes (bytes.take size) 0
          rw [Nat.add_zero, firstLength] at back
          simpa using back
        have whole : size ∣ (bytes.take size).length :=
          Dvd.intro 1 (by omega)
        rw [words_cons positive long, unwords, List.flatMap_cons, first]
        show _ ++ unwords size (words size (bytes.drop size)) = _
        rw [ih _ shorter _ rfl, ← pad_append_of_dvd positive whole,
          List.take_append_drop]
      · cases bytes with
        | nil =>
            rw [words_nil size positive, pad_of_dvd positive (Dvd.intro 0 rfl)]
            rfl
        | cons byte rest =>
            have fits : (byte :: rest).length ≤ size := by omega
            have one : wordCount size (byte :: rest).length = 1 :=
              Nat.div_eq_of_lt_le (by rw [List.length_cons] at *; omega)
                (by omega)
            have back := toBytes_ofBytes (byte :: rest)
              (size - (byte :: rest).length)
            rw [words_of_length_le (by simp) fits, pad, one, Nat.mul_one, unwords,
              List.flatMap_singleton, ← back]
            congr 1
            omega

/-- Words are found again in their bytes. -/
theorem words_unwords {size : Nat} (positive : 0 < size) {values : List Nat}
    (small : ∀ value ∈ values, value < 256 ^ size) :
    words size (unwords size values) = values := by
  induction values with
  | nil => exact words_nil size positive
  | cons value rest ih =>
      rw [List.forall_mem_cons] at small
      have length := length_toBytes size value
      have first : words size (toBytes size value) = [value] := by
        rw [words_of_length_le (by omega) length.le, ofBytes_toBytes,
          Nat.mod_eq_of_lt small.1]
      rw [unwords, List.flatMap_cons]
      show words size (_ ++ unwords size rest) = _
      rw [words_append_of_dvd positive (Dvd.intro 1 (by omega)), first,
        ih small.2]
      rfl

theorem lt_of_mem_words {size value : Nat} {bytes : List Byte}
    (member : value ∈ words size bytes) : value < 256 ^ size := by
  obtain ⟨index, -, rfl⟩ := List.mem_map.mp member
  refine (ofBytes_lt _).trans_le (Nat.pow_le_pow_right (by decide) ?_)
  exact List.length_take_le _ _

/-! ## Pieces -/

/-- How many words the pieces take, each on its own. -/
def pieceCount (size : Nat) (pieces : List (List Byte)) : Nat :=
  (pieces.map fun piece => wordCount size piece.length).sum

/-- Only zeros come behind the first piece which does not end with a word. -/
def ZerosBehind (size : Nat) : List (List Byte) → Prop
  | [] => True
  | piece :: rest =>
      if size ∣ piece.length then ZerosBehind size rest
      else ∀ byte ∈ rest.flatten, byte = 0

theorem length_flatMap_pad {size : Nat} (positive : 0 < size)
    (pieces : List (List Byte)) :
    (pieces.flatMap (pad size)).length = size * pieceCount size pieces := by
  induction pieces with
  | nil => rfl
  | cons piece rest ih =>
      rw [List.flatMap_cons, List.length_append, length_pad positive, ih,
        ← Nat.mul_add]
      rfl

/-- How many zeros the bytes begin with. -/
def leadingZeros (bytes : List Byte) : Nat :=
  (bytes.takeWhile fun byte => byte == 0).length

theorem leadingZeros_append_of_zeros {first : List Byte}
    (zeros : ∀ byte ∈ first, byte = 0) (rest : List Byte) :
    leadingZeros (first ++ rest) = first.length + leadingZeros rest := by
  induction first with
  | nil => rw [List.nil_append, List.length_nil, Nat.zero_add]
  | cons byte first ih =>
      rw [List.forall_mem_cons] at zeros
      obtain ⟨rfl, zeros⟩ := zeros
      have step : leadingZeros (0 :: (first ++ rest)) =
          leadingZeros (first ++ rest) + 1 := rfl
      rw [List.cons_append, step, ih zeros, List.length_cons]
      omega

theorem leadingZeros_append_of_byte {first : List Byte} {byte : Byte}
    (member : byte ∈ first) (nonzero : byte ≠ 0) (rest : List Byte) :
    leadingZeros (first ++ rest) = leadingZeros first := by
  induction first with
  | nil => cases member
  | cons head first ih =>
      by_cases zero : head = 0
      · subst zero
        have inRest : byte ∈ first :=
          (List.mem_cons.mp member).resolve_left nonzero
        have step (bytes : List Byte) :
            leadingZeros (0 :: bytes) = leadingZeros bytes + 1 := rfl
        rw [List.cons_append, step, step, ih inRest]
      · have step (bytes : List Byte) : leadingZeros (head :: bytes) = 0 := by
          rw [leadingZeros, List.takeWhile_cons, if_neg (by simpa using zero)]
          rfl
        rw [List.cons_append, step, step]

/-- Filling up the pieces moves their bytes back. -/
theorem leadingZeros_flatMap_pad {size : Nat} (positive : 0 < size)
    (pieces : List (List Byte)) :
    leadingZeros pieces.flatten ≤ leadingZeros (pieces.flatMap (pad size)) := by
  induction pieces with
  | nil => exact le_rfl
  | cons piece rest ih =>
      rw [List.flatten_cons, List.flatMap_cons]
      by_cases zeros : ∀ byte ∈ piece, byte = 0
      · have padZeros : ∀ byte ∈ pad size piece, byte = 0 := by
          intro byte member
          rcases List.mem_append.mp member with inside | behind
          · exact zeros byte inside
          · exact List.eq_of_mem_replicate behind
        rw [leadingZeros_append_of_zeros zeros,
          leadingZeros_append_of_zeros padZeros, length_pad positive]
        have room := le_size_mul_wordCount positive piece.length
        omega
      · push Not at zeros
        obtain ⟨byte, member, nonzero⟩ := zeros
        have inPad : byte ∈ pad size piece := List.mem_append_left _ member
        rw [leadingZeros_append_of_byte member nonzero,
          leadingZeros_append_of_byte inPad nonzero, pad,
          leadingZeros_append_of_byte member nonzero]

/-- Bytes which are moved back and stay the same are zeros. -/
theorem zeros_of_moved {size moved filled : Nat} (positive : 0 < size)
    (some : moved ≠ 0) {pieces : List (List Byte)}
    (same : List.replicate moved 0 ++ pieces.flatMap (pad size) =
      pieces.flatten ++ List.replicate filled 0) :
    ∀ byte ∈ pieces.flatten, byte = 0 := by
  by_contra different
  push Not at different
  obtain ⟨byte, member, nonzero⟩ := different
  have zeros := congrArg leadingZeros same
  rw [leadingZeros_append_of_byte member nonzero,
    leadingZeros_append_of_zeros fun _ => List.eq_of_mem_replicate,
    List.length_replicate] at zeros
  have moves := leadingZeros_flatMap_pad positive pieces
  omega

/-- Zeros are the same however they are cut. -/
theorem eq_of_zeros {first second : List Byte}
    (firstZeros : ∀ byte ∈ first, byte = 0)
    (secondZeros : ∀ byte ∈ second, byte = 0)
    (length : first.length = second.length) : first = second := by
  rw [List.eq_replicate_of_mem firstZeros, List.eq_replicate_of_mem secondZeros,
    length]

/-- When the pieces, filled up one by one, are the whole, filled up. -/
theorem flatMap_pad_eq_iff {size : Nat} (positive : 0 < size)
    (pieces : List (List Byte)) :
    pieces.flatMap (pad size) = pad size pieces.flatten ↔
      pieceCount size pieces = wordCount size pieces.flatten.length ∧
        ZerosBehind size pieces := by
  induction pieces with
  | nil =>
      have none : wordCount size 0 = 0 := Nat.div_eq_of_lt (by omega)
      have empty : pad size [] = [] :=
        pad_of_dvd positive (Dvd.intro 0 rfl)
      exact iff_of_true empty.symm ⟨none.symm, trivial⟩
  | cons piece rest ih =>
      have count : pieceCount size (piece :: rest) =
          wordCount size piece.length + pieceCount size rest := rfl
      rw [List.flatMap_cons, List.flatten_cons, count]
      by_cases dvd : size ∣ piece.length
      · rw [pad_of_dvd positive dvd, pad_append_of_dvd positive dvd,
          List.append_cancel_left_eq, ih, List.length_append,
          wordCount_add_of_dvd positive dvd, wordCount_of_dvd positive dvd,
          Nat.add_left_cancel_iff, ZerosBehind, if_pos dvd]
      · rw [ZerosBehind, if_neg dvd]
        have some : size * wordCount size piece.length - piece.length ≠ 0 := by
          have room := le_size_mul_wordCount positive piece.length
          have unequal := mt (size_mul_wordCount_eq_iff positive _).mp dvd
          omega
        constructor
        · intro same
          have length := congrArg List.length same
          rw [List.length_append, length_pad positive,
            length_flatMap_pad positive, length_pad positive,
            ← Nat.mul_add] at length
          refine ⟨Nat.eq_of_mul_eq_mul_left positive length, ?_⟩
          rw [pad, pad, List.append_assoc, List.append_assoc,
            List.append_cancel_left_eq] at same
          exact zeros_of_moved positive some same
        · rintro ⟨counts, zeros⟩
          have length : (pad size piece ++ rest.flatMap (pad size)).length =
              (pad size (piece ++ rest.flatten)).length := by
            rw [List.length_append, length_pad positive,
              length_flatMap_pad positive, length_pad positive,
              ← Nat.mul_add, counts]
          rw [pad, pad, List.append_assoc, List.append_assoc] at length ⊢
          rw [List.append_cancel_left_eq]
          refine eq_of_zeros ?_ ?_ ?_
          · intro byte member
            rcases List.mem_append.mp member with filled | moved
            · exact List.eq_of_mem_replicate filled
            · obtain ⟨other, inRest, member⟩ := List.mem_flatMap.mp moved
              rcases List.mem_append.mp member with inside | behind
              · exact zeros byte (List.mem_flatten_of_mem inRest inside)
              · exact List.eq_of_mem_replicate behind
          · intro byte member
            rcases List.mem_append.mp member with inside | behind
            · exact zeros byte inside
            · exact List.eq_of_mem_replicate behind
          · simp only [List.length_append] at length ⊢
            omega

/-- When the words of the pieces are the words of the whole. -/
theorem flatMap_words_eq_iff {size : Nat} (positive : 0 < size)
    (pieces : List (List Byte)) :
    pieces.flatMap (words size) = words size pieces.flatten ↔
      pieceCount size pieces = wordCount size pieces.flatten.length ∧
        ZerosBehind size pieces := by
  have bytes : unwords size (pieces.flatMap (words size)) =
      pieces.flatMap (pad size) := by
    rw [unwords, List.flatMap_assoc]
    exact List.flatMap_congr fun piece _ => unwords_words positive piece
  rw [← flatMap_pad_eq_iff positive, ← bytes, ← unwords_words positive]
  constructor
  · exact congrArg (unwords size)
  · intro same
    have back := congrArg (words size) same
    rwa [words_unwords positive, words_unwords positive] at back
    · exact fun _ => lt_of_mem_words
    · intro value member
      obtain ⟨piece, -, member⟩ := List.mem_flatMap.mp member
      exact lt_of_mem_words member

end LinuxDfl.Lib.LittleEndian

import LinuxDfl.Kernel.Errno
import Mathlib.Tactic.IntervalCases

/-!
# Tuning a Stratix 10 transceiver

The files of a channel show and change fields of the transceiver's registers.
Two of the fields lie in one register: a store reads the register and writes it
back with its own field changed.  This says which texts a file takes back.
-/

namespace LinuxDfl.Net.S10Phy

open LinuxDfl.Kernel

/-! ## Numbers in texts -/

/-- The value of a digit, which is no digit from `base` on. -/
def digitValue (base : Nat) (c : Char) : Option Nat :=
  let value :=
    if '0' ≤ c ∧ c ≤ '9' then some (c.toNat - '0'.toNat)
    else if 'a' ≤ c ∧ c ≤ 'f' then some (c.toNat - 'a'.toNat + 10)
    else if 'A' ≤ c ∧ c ≤ 'F' then some (c.toNat - 'A'.toNat + 10)
    else none
  value.filter fun value => value < base

/-- The digits in front, and what is behind them. -/
def parseInteger (base : Nat) : List Char → List Nat × List Char
  | [] => ([], [])
  | c :: rest =>
      match digitValue base c with
      | none => ([], c :: rest)
      | some value =>
          ((parseInteger base rest).1.cons value, (parseInteger base rest).2)

/-- The base which the text is written in, and its digits. -/
def parseRadix : List Char → Nat × List Char
  | '0' :: x :: d :: rest =>
      if (x = 'x' ∨ x = 'X') ∧ (digitValue 16 d).isSome then (16, d :: rest)
      else (8, '0' :: x :: d :: rest)
  | '0' :: rest => (8, '0' :: rest)
  | text => (10, text)

/-- `kstrtou8` with base zero -/
def kstrtou8 (text : List Char) : Except Errno (BitVec 8) :=
  -- The string ends at its first null character.
  let s := text.takeWhile fun c => c ≠ '\x00'
  let unsigned := if s.head? = some '+' then s.tail else s
  let (base, s) := parseRadix unsigned
  let (digits, rest) := parseInteger base s
  let value := digits.foldl (fun value digit => value * base + digit) 0
  if digits = [] then .error .einval
  else if 2 ^ 64 ≤ value then .error (.other 34)
  else if rest ≠ [] ∧ rest ≠ ['\n'] then .error .einval
  else if 2 ^ 8 ≤ value then .error (.other 34)
  else .ok (BitVec.ofNat 8 value)

/-- `%u` and a newline -/
def decimalLine (value : Nat) : List Char :=
  Nat.toDigits 10 value ++ ['\n']

/-! ## Fields -/

/-- The fields which are tuned. -/
inductive Tune where
  | txPreTap
  | txPostTap
  | txVod
  | txComp
  deriving DecidableEq, Repr

/-- The bits of the field, as they are given to `hssi_xcvr_rmw`. -/
def Tune.mask : Tune → BitVec 32
  | .txPreTap => 0x20 ||| 0x1f
  | .txPostTap => 0x40 ||| 0x1f
  | .txVod => 0x1f
  | .txComp => 0x20

/-- What a tap's file makes of its text: a sign, and a magnitude. -/
def tapStored (polarityBit max : BitVec 8) (text : List Char) :
    Except Errno (BitVec 32) :=
  let (polarity, p) :=
    match text with
    | '-' :: p => (polarityBit, p)
    | '+' :: p => (0, p)
    | p => (0, p)
  match kstrtou8 p with
  | .error ret => .error ret
  | .ok magnitude =>
      if max < magnitude then .error .einval
      else .ok ((polarity ||| magnitude).setWidth 32)

/-- `tx_pre_tap_store`, up to the data to be written -/
def txPreTapStored : List Char → Except Errno (BitVec 32) :=
  tapStored 0x20 15

/-- `tx_post_tap_store`, up to the data to be written -/
def txPostTapStored : List Char → Except Errno (BitVec 32) :=
  tapStored 0x40 24

/-- `tx_vod_store`, up to the data to be written -/
def txVodStored (text : List Char) : Except Errno (BitVec 32) :=
  match kstrtou8 text with
  | .error ret => .error ret
  | .ok vod =>
      if 31 < vod ∨ vod < 17 then .error .einval else .ok (vod.setWidth 32)

/-- `tx_comp_store`, up to the data to be written -/
def txCompStored (text : List Char) : Except Errno (BitVec 32) :=
  match kstrtou8 text with
  | .error ret => .error ret
  | .ok compensation =>
      if 1 < compensation then .error .einval
      else .ok (if compensation ≠ 0 then 0x20 else 0)

def Tune.stored : Tune → List Char → Except Errno (BitVec 32)
  | .txPreTap => txPreTapStored
  | .txPostTap => txPostTapStored
  | .txVod => txVodStored
  | .txComp => txCompStored

/-- What a tap's file shows; without a magnitude, `%c` writes a null. -/
def tapShown (polarityBit v : BitVec 32) : List Char :=
  let magnitude := v &&& 0x1f
  (if magnitude = 0 then '\x00'
    else if v &&& polarityBit ≠ 0 then '-' else '+') ::
      decimalLine magnitude.toNat

/-- `tx_pre_tap_show` of a register -/
def txPreTapShown : BitVec 32 → List Char := tapShown 0x20

/-- `tx_post_tap_show` of a register -/
def txPostTapShown : BitVec 32 → List Char := tapShown 0x40

/-- `tx_vod_show` of a register -/
def txVodShown (v : BitVec 32) : List Char :=
  decimalLine (v &&& 0x1f).toNat

/-- `tx_comp_show` of a register -/
def txCompShown (v : BitVec 32) : List Char :=
  decimalLine (if v &&& 0x20 ≠ 0 then 1 else 0)

def Tune.shown : Tune → BitVec 32 → List Char
  | .txPreTap => txPreTapShown
  | .txPostTap => txPostTapShown
  | .txVod => txVodShown
  | .txComp => txCompShown

/-- The new value in `hssi_xcvr_rmw` -/
def rmwValue (mask data value : BitVec 32) : BitVec 32 :=
  (value &&& ~~~mask) ||| (data &&& mask)

/-- The field is taken from what is written, and all else from the register. -/
theorem getLsbD_rmwValue (mask data value : BitVec 32) (i : Nat) :
    (rmwValue mask data value).getLsbD i =
      if mask.getLsbD i then data.getLsbD i else value.getLsbD i := by
  by_cases inside : i < 32
  · simp only [rmwValue, BitVec.getLsbD_or, BitVec.getLsbD_and,
      BitVec.getLsbD_not, inside, decide_true, Bool.true_and]
    cases mask.getLsbD i <;> simp
  · have beyond := Nat.le_of_not_lt inside
    simp only [BitVec.getLsbD_of_ge _ i beyond, ite_self]

theorem rmwValue_self (mask value : BitVec 32) :
    rmwValue mask value value = value := by
  apply BitVec.eq_of_getLsbD_eq
  intro i inside
  rw [getLsbD_rmwValue, ite_self]

theorem rmwValue_congr {mask data other : BitVec 32}
    (same : data &&& mask = other &&& mask) (value : BitVec 32) :
    rmwValue mask data value = rmwValue mask other value := by
  rw [rmwValue, rmwValue, same]

/-! ## What is shown and stored again -/

/-- The files which take what they show, by the value of the register. -/
def Tune.Restorable (v : BitVec 32) : Tune → Prop
  | .txPreTap => v &&& 0x1f ≠ 0 ∧ v &&& 0x1f ≤ 15
  | .txPostTap => v &&& 0x1f ≠ 0 ∧ v &&& 0x1f ≤ 24
  | .txVod => 17 ≤ v &&& 0x1f
  | .txComp => True

/-- A number which is written in decimal is read back. -/
theorem kstrtou8_decimalLine (value : Nat) (small : value < 32) :
    kstrtou8 (decimalLine value) = .ok (BitVec.ofNat 8 value) := by
  interval_cases value <;> rfl

theorem magnitude_lt (v : BitVec 32) : (v &&& 0x1f).toNat < 32 := by
  rw [BitVec.toNat_and]
  exact lt_of_le_of_lt Nat.and_le_right (by decide)

theorem setWidth_magnitude (v : BitVec 32) :
    (BitVec.ofNat 8 (v &&& 0x1f).toNat).setWidth 32 = v &&& 0x1f := by
  have small := magnitude_lt v
  apply BitVec.eq_of_toNat_eq
  rw [BitVec.toNat_setWidth, BitVec.toNat_ofNat]
  omega

/-- The single bit of a sign -/
theorem sign_eq_and (v : BitVec 32) (i : Nat) :
    (if v &&& BitVec.twoPow 32 i ≠ 0 then BitVec.twoPow 32 i else 0) =
      v &&& BitVec.twoPow 32 i := by
  by_cases none : v &&& BitVec.twoPow 32 i = 0
  · rw [if_neg (not_not.mpr none), none]
  · rw [if_pos none, BitVec.and_twoPow]
    rw [BitVec.and_twoPow] at none
    split_ifs with set
    · rfl
    · exact absurd (if_neg set) none

section

variable {polarityBit max : BitVec 8} {i : Nat}
  (single : polarityBit.setWidth 32 = BitVec.twoPow 32 i)

include single

/-- A tap with a magnitude is read back with its sign. -/
theorem tapStored_tapShown {v : BitVec 32} (tapped : v &&& 0x1f ≠ 0) :
    tapStored polarityBit max (tapShown (BitVec.twoPow 32 i) v) =
      if max < BitVec.ofNat 8 (v &&& 0x1f).toNat then .error .einval
      else .ok ((v &&& BitVec.twoPow 32 i) ||| (v &&& 0x1f)) := by
  have reads := kstrtou8_decimalLine _ (magnitude_lt v)
  by_cases sign : v &&& BitVec.twoPow 32 i ≠ 0
  · have data :
        (polarityBit ||| BitVec.ofNat 8 (v &&& 0x1f).toNat).setWidth 32 =
          (v &&& BitVec.twoPow 32 i) ||| (v &&& 0x1f) := by
      rw [BitVec.setWidth_or, single, setWidth_magnitude, ← sign_eq_and,
        if_pos sign]
    rw [tapShown, if_neg tapped, if_pos sign, ← data, tapStored]
    rw [reads]
  · have data :
        ((0 : BitVec 8) ||| BitVec.ofNat 8 (v &&& 0x1f).toNat).setWidth 32 =
          (v &&& BitVec.twoPow 32 i) ||| (v &&& 0x1f) := by
      rw [BitVec.setWidth_or, setWidth_magnitude, ← sign_eq_and, if_neg sign]
      rfl
    rw [tapShown, if_neg tapped, if_neg sign, ← data, tapStored]
    rw [reads]

end

/-- A tap without a magnitude is shown with a null, and not read back. -/
theorem tapStored_null {polarityBit max : BitVec 8} {bit v : BitVec 32}
    (untapped : v &&& 0x1f = 0) :
    tapStored polarityBit max (tapShown bit v) = .error .einval := by
  simp only [tapShown, untapped, if_true]
  rfl

/-- The field of a register is stored as it is. -/
theorem rmwValue_field (mask value : BitVec 32) :
    rmwValue mask (value &&& mask) value = value := by
  have same : (value &&& mask) &&& mask = value &&& mask := by
    rw [BitVec.and_assoc, BitVec.and_self]
  rw [rmwValue_congr same, rmwValue_self]

section

variable {polarityBit : BitVec 8} {i : Nat}
  (single : polarityBit.setWidth 32 = BitVec.twoPow 32 i)

include single

theorem tap_restored (max : BitVec 8) (v : BitVec 32) :
    (v &&& 0x1f ≠ 0 ∧ v &&& 0x1f ≤ max.setWidth 32 →
      ∃ data,
        tapStored polarityBit max (tapShown (BitVec.twoPow 32 i) v) =
            .ok data ∧
          rmwValue (BitVec.twoPow 32 i ||| 0x1f) data v = v) ∧
      (¬ (v &&& 0x1f ≠ 0 ∧ v &&& 0x1f ≤ max.setWidth 32) →
        tapStored polarityBit max (tapShown (BitVec.twoPow 32 i) v) =
          .error .einval) := by
  by_cases untapped : v &&& 0x1f = 0
  · exact ⟨fun restorable => absurd untapped restorable.1,
      fun _ => tapStored_null untapped⟩
  · have tooBig : max < BitVec.ofNat 8 (v &&& 0x1f).toNat ↔
        ¬ v &&& 0x1f ≤ max.setWidth 32 := by
      have small := magnitude_lt v
      have byte := max.isLt
      rw [BitVec.lt_def, BitVec.le_def, BitVec.toNat_ofNat,
        BitVec.toNat_setWidth]
      omega
    rw [tapStored_tapShown single untapped]
    constructor
    · rintro ⟨-, fits⟩
      refine ⟨_, if_neg fun big => tooBig.mp big fits, ?_⟩
      rw [← BitVec.and_or_distrib_left]
      exact rmwValue_field _ v
    · intro notRestorable
      exact if_pos (tooBig.mpr fun fits => notRestorable ⟨untapped, fits⟩)

end

/--
A file takes what it shows, and leaves the register as it is, unless a tap has
no magnitude or one that is too big, or the output swing is too small.
-/
theorem stored_shown (tune : Tune) (v : BitVec 32) :
    (tune.Restorable v →
      ∃ data, tune.stored (tune.shown v) = .ok data ∧
        rmwValue tune.mask data v = v) ∧
      (¬ tune.Restorable v →
        tune.stored (tune.shown v) = .error .einval) := by
  cases tune with
  | txPreTap =>
      exact tap_restored (show (0x20 : BitVec 8).setWidth 32 =
        BitVec.twoPow 32 5 by decide) 15 v
  | txPostTap =>
      exact tap_restored (show (0x40 : BitVec 8).setWidth 32 =
        BitVec.twoPow 32 6 by decide) 24 v
  | txVod =>
      have small := magnitude_lt v
      have outside : 31 < BitVec.ofNat 8 (v &&& 0x1f).toNat ∨
          BitVec.ofNat 8 (v &&& 0x1f).toNat < 17 ↔ ¬ 17 ≤ v &&& 0x1f := by
        rw [BitVec.lt_def, BitVec.lt_def, BitVec.le_def, BitVec.toNat_ofNat]
        show 31 < _ ∨ _ < 17 ↔ ¬ 17 ≤ (v &&& 0x1f).toNat
        omega
      have reads := kstrtou8_decimalLine _ small
      simp only [Tune.stored, txVodStored, Tune.shown, txVodShown, reads,
        outside, Tune.Restorable]
      constructor
      · intro swings
        refine ⟨_, if_neg (not_not.mpr swings), ?_⟩
        rw [setWidth_magnitude]
        exact rmwValue_field _ v
      · exact fun small => if_pos small
  | txComp =>
      refine ⟨fun _ => ?_, fun notRestorable => absurd trivial notRestorable⟩
      have field : (if v &&& 0x20 ≠ 0 then (0x20 : BitVec 32) else 0) =
          v &&& 0x20 := sign_eq_and v 5
      refine ⟨v &&& 0x20, ?_, rmwValue_field _ v⟩
      by_cases compensated : v &&& 0x20 = 0
      · rw [compensated]
        simp only [Tune.stored, Tune.shown, txCompShown, compensated]
        rfl
      · rw [if_pos compensated] at field
        simp only [Tune.stored, Tune.shown, txCompShown, ← field]
        rfl

end LinuxDfl.Net.S10Phy

import Mathlib.Tactic.SplitIfs
import LinuxDfl.Spi.Transmit

/-!
# Receiving an answer

The parser reads words of the answer until the packet is complete.  It finds
the payload of the response in every stream in which the layered encoding is
interspersed with idle bytes.
-/

namespace LinuxDfl.Spi

open LinuxDfl.Kernel
open LinuxDfl.Lib.LittleEndian
open LinuxDfl.Lib.ByteStore

/-! ## Words on the wire -/

theorem length_swab32Words (bytes : List Byte) :
    (swab32Words bytes).length = bytes.length := by
  fun_induction swab32Words bytes with
  | case1 b0 b1 b2 b3 rest ih => simp [ih]
  | case2 => rfl

theorem swab32Words_twice (bytes : List Byte) :
    swab32Words (swab32Words bytes) = bytes := by
  fun_induction swab32Words bytes with
  | case1 b0 b1 b2 b3 rest ih => simp [swab32Words, ih]
  | case2 rest short =>
      match rest, short with
      | [], _ | [_], _ | [_, _], _ | [_, _, _], _ => rfl
      | b0 :: b1 :: b2 :: b3 :: rest, short =>
          exact absurd rfl (short b0 b1 b2 b3 rest)

theorem length_onWire (wordLen : Nat) (bytes : List Byte) :
    (onWire wordLen bytes).length = bytes.length := by
  unfold onWire
  split
  · exact length_swab32Words bytes
  · rfl

/-- The driver and the wire undo each other's order of bytes. -/
theorem onWire_twice (wordLen : Nat) (bytes : List Byte) :
    onWire wordLen (onWire wordLen bytes) = bytes := by
  unfold onWire
  split
  · exact swab32Words_twice bytes
  · rfl

/-- The driver's callback puts the words in the order of the wire. -/
theorem load_swapped {br : SpiAvmmBridge} (generated : br.Generated)
    (buf : Storage) (len : Nat) :
    load (br.swapped buf len) 0 len = onWire br.wordLen (load buf 0 len) := by
  rcases generated with ⟨byteWise, swap⟩ | ⟨wordWise, swap⟩
  · have notWords : ¬ br.wordLen = 4 := by omega
    rw [SpiAvmmBridge.swapped, swap, onWire, if_neg notWords]
  · have stored := (holds_store buf 0 (swab32Words (load buf 0 len))).load_eq
    rw [length_swab32Words, length_load] at stored
    rw [SpiAvmmBridge.swapped, swap, onWire, if_pos wordWise]
    exact stored

/-! ## A parse which finishes -/

/-- The parser finishes within these bytes, with no packet begun twice. -/
inductive Finishes : PhyRx → List Byte → PhyRx → Prop
  | finished {rx next : PhyRx} {byte : Byte} {rest : List Byte}
      (takes : phyRxByte rx byte = some (.finished next)) :
      Finishes rx (byte :: rest) next
  | dropped {rx next : PhyRx} {byte : Byte} {rest : List Byte}
      (takes : phyRxByte rx byte = none)
      (finishes : Finishes rx rest next) :
      Finishes rx (byte :: rest) next
  | parsed {rx mid next : PhyRx} {byte : Byte} {rest : List Byte}
      (takes : phyRxByte rx byte = some (.parsed mid))
      (beginsOnce : byte = pktSop → rx.tb = none)
      (finishes : Finishes mid rest next) :
      Finishes rx (byte :: rest) next

/-- The parser drops the bytes with nothing in them. -/
theorem phyRxByte_eq_none_iff (rx : PhyRx) (byte : Byte) :
    phyRxByte rx byte = none ↔ ¬ Brings rx.tb.isSome [byte] := by
  have notIdle : pktSop ≠ phyIdle := by decide
  unfold phyRxByte Brings
  rcases rx.tb with _ | tb
  · by_cases sop : byte = pktSop
    · simp [sop, notIdle]
    · simp [sop, Ne.symm sop]
  · by_cases idle : byte = phyIdle <;> simp [idle]

theorem phyRxByte_eq_some {rx : PhyRx} {byte : Byte} {outcome : RxByte}
    (takes : phyRxByte rx byte = some outcome) :
    (rx.tb = none → byte = pktSop) ∧ phyRxValidByte rx byte = outcome := by
  unfold phyRxByte at takes
  split_ifs at takes with before
  refine ⟨fun noTb => ?_, Option.some.inj takes⟩
  by_contra notSop
  exact before ⟨noTb, notSop⟩

/-- Parsing a byte keeps the data in order. -/
theorem phyRxValidByte_parsed {rx mid : PhyRx} {byte : Byte}
    (takes : phyRxValidByte rx byte = .parsed mid) {n : Nat}
    (tb : rx.tb = some n) (notSop : byte ≠ pktSop) :
    ∃ m, mid.tb = some m ∧ n ≤ m := by
  unfold phyRxValidByte at takes
  split_ifs at takes <;> cases takes <;>
    first
      | exact ⟨n, tb, Nat.le_refl n⟩
      | exact ⟨n + 1, by simp [PhyRx.record, tb], Nat.le_succ n⟩

theorem phyRxValidByte_finished {rx next : PhyRx} {byte : Byte}
    (takes : phyRxValidByte rx byte = .finished next) {n : Nat}
    (tb : rx.tb = some n) : next.tb = some (n + 1) := by
  unfold phyRxValidByte at takes
  split_ifs at takes <;> cases takes <;> simp [PhyRx.record, tb]

theorem phyRxValidByte_sop {rx mid : PhyRx}
    (takes : phyRxValidByte rx pktSop = .parsed mid) : mid.tb = some 0 := by
  unfold phyRxValidByte at takes
  split_ifs at takes <;> cases takes <;> first | rfl | contradiction

/-- Until the parse finishes, there is room for what is still recorded. -/
theorem Finishes.tb_lt {rx next : PhyRx} {bytes : List Byte}
    (finishes : Finishes rx bytes next) {n : Nat} (tb : rx.tb = some n) :
    ∃ m, next.tb = some m ∧ n < m := by
  induction finishes generalizing n with
  | finished takes =>
      obtain ⟨-, finished⟩ := phyRxByte_eq_some takes
      exact ⟨n + 1, phyRxValidByte_finished finished tb, Nat.lt_succ_self n⟩
  | dropped takes _ ih => exact ih tb
  | parsed takes beginsOnce _ ih =>
      obtain ⟨-, parsed⟩ := phyRxByte_eq_some takes
      have notSop : _ ≠ pktSop := fun sop =>
        nomatch tb.symm.trans (beginsOnce sop)
      obtain ⟨mid, atMid, le⟩ := phyRxValidByte_parsed parsed tb notSop
      obtain ⟨last, atLast, lt⟩ := ih atMid
      exact ⟨last, atLast, Nat.lt_of_le_of_lt le lt⟩

/-! ## Word by word -/

theorem brings_cons (started : Bool) (byte : Byte) (rest : List Byte)
    (brings : ¬ Brings started [byte]) :
    Brings started (byte :: rest) ↔ Brings started rest := by
  cases started <;> simp_all [Brings]

theorem Brings.cons {started : Bool} {byte : Byte}
    (brings : Brings started [byte]) (rest : List Byte) :
    Brings started (byte :: rest) := by
  cases started <;> simp_all [Brings]

/-! ## The stream of an answer -/

/-- What comes before the packet is dropped. -/
theorem Finishes.of_junk {rx next : PhyRx} (noTb : rx.tb = none)
    {junk rest : List Byte} (noSop : pktSop ∉ junk)
    (finishes : Finishes rx rest next) :
    Finishes rx (junk ++ rest) next := by
  induction junk with
  | nil => exact finishes
  | cons byte junk ih =>
      rw [List.mem_cons, not_or] at noSop
      refine .dropped ?_ (ih noSop.2)
      rw [phyRxByte, if_pos ⟨noTb, Ne.symm noSop.1⟩]

theorem phyRxByte_idle (rx : PhyRx) : phyRxByte rx phyIdle = none := by
  unfold phyRxByte
  split_ifs with before idle
  · rfl
  · rfl
  · exact absurd rfl idle

/-- Idle bytes may be anywhere. -/
theorem Finishes.of_filter {rx next : PhyRx} {coded rest : List Byte}
    (finishes : Finishes rx (coded.filter (· ≠ phyIdle) ++ rest) next) :
    Finishes rx (coded ++ rest) next := by
  induction coded generalizing rx with
  | nil => exact finishes
  | cons byte coded ih =>
      by_cases idle : byte = phyIdle
      · subst idle
        rw [List.filter_cons_of_neg (by simp)] at finishes
        exact .dropped (phyRxByte_idle rx) (ih finishes)
      · rw [List.filter_cons_of_pos (by simpa using idle)] at finishes
        cases finishes with
        | finished takes => exact .finished takes
        | dropped takes finishes => exact .dropped takes (ih finishes)
        | parsed takes beginsOnce finishes =>
            exact .parsed takes beginsOnce (ih finishes)

/-- The parser within a packet, behind this much of the data. -/
def PhyRx.within (ending escaping : Bool) (tb : Nat) (buf : Storage) :
    PhyRx :=
  ⟨ending, false, escaping, some tb, buf⟩

/-- A byte which is special in neither layer is recorded. -/
theorem phyRxByte_plain {byte : Byte} (notPkt : pktSpecial byte = false)
    (notPhy : phySpecial byte = false) (ending escaping : Bool) (tb : Nat)
    (buf : Storage) :
    let datum := if escaping then byte ^^^ 0x20 else byte
    let next := PhyRx.within ending false (tb + 1) (store buf tb [datum])
    phyRxByte (.within ending escaping tb buf) byte =
      some (if ending then .finished next else .parsed next) := by
  simp only [pktSpecial, phySpecial, Bool.or_eq_false_iff,
    decide_eq_false_iff_not] at notPkt notPhy
  obtain ⟨⟨⟨notSop, notEop⟩, notChannel⟩, notEsc⟩ := notPkt
  obtain ⟨notIdle, notPhyEsc⟩ := notPhy
  simp only [phyRxByte, phyRxValidByte, PhyRx.within, PhyRx.record,
    reduceCtorEq, false_and, notSop, notEop, notChannel, notEsc, notIdle,
    notPhyEsc, or_self, Bool.false_eq_true, if_false, Option.getD_some]
  cases ending <;> rfl

/-- The parser notes either escape. -/
theorem phyRxByte_escape {byte : Byte} (isEscape : byte = pktEsc ∨ byte = phyEsc)
    (ending : Bool) (tb : Nat) (buf : Storage) :
    phyRxByte (.within ending false tb buf) byte =
      some (.parsed (.within ending true tb buf)) := by
  rcases isEscape with rfl | rfl <;> cases ending <;> rfl

theorem masked_plain {byte : Byte}
    (special : pktSpecial byte = true ∨ phySpecial byte = true) :
    pktSpecial (byte ^^^ 0x20) = false ∧
      phySpecial (byte ^^^ 0x20) = false := by
  simp only [pktSpecial, phySpecial, Bool.or_eq_true, decide_eq_true_eq]
    at special
  rcases special with (((rfl | rfl) | rfl) | rfl) | rfl | rfl <;> decide

theorem ne_pktSop_of_plain {byte : Byte} (notPkt : pktSpecial byte = false) :
    byte ≠ pktSop := by
  rintro rfl
  exact absurd notPkt (by decide)

/-- A byte in both layers is recorded; behind the marker it is the last. -/
theorem Finishes.of_escaped_byte (byte : Byte) (ending : Bool) (tb : Nat)
    (buf : Storage) {rest : List Byte} {next : PhyRx}
    (finishes :
      let recorded := PhyRx.within ending false (tb + 1) (store buf tb [byte])
      if ending then next = recorded else Finishes recorded rest next) :
    Finishes (.within ending false tb buf) (escaped [byte] ++ rest) next := by
  have takes {symbol : Byte} {escaping : Bool}
      (notPkt : pktSpecial symbol = false)
      (notPhy : phySpecial symbol = false)
      (datum : (if escaping then symbol ^^^ 0x20 else symbol) = byte) :
      Finishes (.within ending escaping tb buf) (symbol :: rest) next := by
    have plain := phyRxByte_plain notPkt notPhy ending escaping tb buf
    simp only [datum] at plain
    cases ending with
    | true =>
        obtain rfl := finishes
        exact .finished plain
    | false =>
        exact .parsed plain
          (fun sop => absurd sop (ne_pktSop_of_plain notPkt)) finishes
  have masked (special : pktSpecial byte = true ∨ phySpecial byte = true)
      {escape : Byte} (isEscape : escape = pktEsc ∨ escape = phyEsc) :
      Finishes (.within ending false tb buf)
        (escape :: (byte ^^^ 0x20) :: rest) next := by
    obtain ⟨notPkt, notPhy⟩ := masked_plain special
    refine .parsed (phyRxByte_escape isEscape ending tb buf) ?_
      (takes notPkt notPhy (xor_twice byte))
    rintro rfl
    exact absurd isEscape (by decide)
  cases isPkt : pktSpecial byte with
  | true =>
      rw [escaped_of_pktSpecial isPkt]
      exact masked (Or.inl isPkt) (Or.inl rfl)
  | false =>
      cases isPhy : phySpecial byte with
      | true =>
          rw [escaped_of_phySpecial isPhy]
          exact masked (Or.inr isPhy) (Or.inr rfl)
      | false =>
          rw [escaped_of_plain isPkt isPhy]
          exact takes isPkt isPhy rfl

theorem Finishes.of_escaped (bytes : List Byte) (tb : Nat) (buf : Storage)
    {rest : List Byte} {next : PhyRx}
    (finishes :
      Finishes (.within false false (tb + bytes.length) (store buf tb bytes))
        rest next) :
    Finishes (.within false false tb buf) (escaped bytes ++ rest) next := by
  induction bytes generalizing tb buf with
  | nil => simpa using finishes
  | cons byte bytes ih =>
      rw [escaped_cons, List.append_assoc]
      refine .of_escaped_byte byte false tb buf ?_
      refine ih (tb + 1) _ ?_
      have stored := store_append buf tb [byte] bytes
      rw [List.length_singleton, List.singleton_append] at stored
      rw [stored, Nat.add_assoc, Nat.add_comm 1]
      exact finishes

/-- The parser finishes on a packet, with its payload recorded. -/
theorem Finishes.of_layered {rx : PhyRx} (noTb : rx.tb = none)
    (noChannel : rx.channelFound = false) (init : List Byte) (last : Byte)
    (rest : List Byte) :
    Finishes rx (layered (init ++ [last]) ++ rest)
      (.within true false (init.length + 1)
        (store rx.transBuf 0 (init ++ [last]))) := by
  obtain ⟨eop, channel, esc, tb, buf⟩ := rx
  obtain rfl : tb = none := noTb
  obtain rfl : channel = false := noChannel
  have sop :
      phyRxByte ⟨eop, false, esc, none, buf⟩ pktSop =
        some (.parsed (.within false false 0 buf)) := rfl
  have channel :
      phyRxByte (.within false false 0 buf) pktChannel =
        some (.parsed ⟨false, true, false, some 0, buf⟩) := rfl
  have number :
      phyRxByte ⟨false, true, false, some 0, buf⟩ 0 =
        some (.parsed (.within false false 0 buf)) := rfl
  have marker (tb : Nat) (buf : Storage) :
      phyRxByte (.within false false tb buf) pktEop =
        some (.parsed (.within true false tb buf)) := rfl
  have others : pktChannel ≠ pktSop ∧ 0 ≠ pktSop ∧ pktEop ≠ pktSop := by
    decide
  rw [layered_append_last, List.append_assoc, List.append_assoc]
  refine .parsed sop (fun _ => rfl) ?_
  refine .parsed channel (fun sop => absurd sop others.1) ?_
  refine .parsed number (fun sop => absurd sop others.2.1) ?_
  refine .of_escaped init 0 buf ?_
  refine .parsed (marker _ _) (fun sop => absurd sop others.2.2) ?_
  refine .of_escaped_byte last true _ _ ?_
  rw [if_pos rfl, store_append, Nat.zero_add]

end LinuxDfl.Spi

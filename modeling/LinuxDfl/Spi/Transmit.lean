import Mathlib.Tactic.SplitIfs
import LinuxDfl.Spi.Protocol

/-!
# Transmitting a request

The encoder writes the bytes of both layers in one pass.  With its padding
dropped, its output is what the layers make of the payload one by one.
-/

namespace LinuxDfl.Spi

open LinuxDfl.Kernel
open LinuxDfl.Lib.LittleEndian
open LinuxDfl.Lib.ByteStore
open LinuxDfl.Lib.Escape
open LinuxDfl.Lib.Feed

/-! ## Both layers of escapes at once -/

/-- The bytes of a payload with the escapes of both layers. -/
def escaped (bytes : List Byte) : List Byte :=
  phyCode.encode (pktCode.encode bytes)

@[simp]
theorem escaped_nil : escaped [] = [] := rfl

theorem escaped_append (left right : List Byte) :
    escaped (left ++ right) = escaped left ++ escaped right := by
  simp [escaped]

theorem escaped_cons (byte : Byte) (rest : List Byte) :
    escaped (byte :: rest) = escaped [byte] ++ escaped rest :=
  escaped_append [byte] rest

theorem escaped_of_pktSpecial {byte : Byte}
    (special : pktSpecial byte = true) :
    escaped [byte] = [pktEsc, byte ^^^ 0x20] := by
  simp only [pktSpecial, Bool.or_eq_true, decide_eq_true_eq] at special
  rcases special with ((rfl | rfl) | rfl) | rfl <;> decide

theorem escaped_of_phySpecial {byte : Byte}
    (special : phySpecial byte = true) :
    escaped [byte] = [phyEsc, byte ^^^ 0x20] := by
  simp only [phySpecial, Bool.or_eq_true, decide_eq_true_eq] at special
  rcases special with rfl | rfl <;> decide

theorem escaped_of_plain {byte : Byte}
    (notPkt : pktSpecial byte = false) (notPhy : phySpecial byte = false) :
    escaped [byte] = [byte] := by
  have inPacket : pktCode.encode [byte] = [byte] := by
    rw [EscapeCode.encode_cons, pktCode.encodeSymbol_of_plain notPkt,
      EscapeCode.encode_nil, List.append_nil]
  rw [escaped, inPacket, EscapeCode.encode_cons,
    phyCode.encodeSymbol_of_plain notPhy, EscapeCode.encode_nil,
    List.append_nil]

theorem length_escaped_le (bytes : List Byte) :
    (escaped bytes).length ≤ 2 * bytes.length := by
  induction bytes with
  | nil => simp
  | cons byte rest ih =>
      have one : (escaped [byte]).length ≤ 2 := by
        cases isPkt : pktSpecial byte with
        | true => simp [escaped_of_pktSpecial isPkt]
        | false =>
            cases isPhy : phySpecial byte with
            | true => simp [escaped_of_phySpecial isPhy]
            | false => simp [escaped_of_plain isPkt isPhy]
      rw [escaped_cons, List.length_append, List.length_cons]
      omega

/-- The markers of a packet are the same in the physical layer. -/
theorem layered_append_last (init : List Byte) (last : Byte) :
    layered (init ++ [last]) =
      [pktSop, pktChannel, 0] ++ escaped init ++
        pktEop :: escaped [last] := by
  have markers : phyCode.encode [pktSop, pktChannel, 0] =
      [pktSop, pktChannel, 0] := by decide
  have eop : phyCode.encodeSymbol pktEop = [pktEop] := by decide
  simp only [layered, packet, List.dropLast_concat, List.getLast?_concat,
    Option.toList_some, EscapeCode.encode_append, EscapeCode.encode_cons,
    escaped, eop, List.append_assoc]
  rw [← markers]
  simp

/-! ## The loop -/

theorem phyTxLoop_done {transBuf : Storage} {tbEnd : Nat} {tx : PhyTx}
    (done : ¬ tx.tb < tbEnd) (room : Nat) :
    phyTxLoop transBuf tbEnd room tx = tx := by
  cases room with
  | zero => rfl
  | succ room => rw [phyTxLoop, if_neg done]

/-- The state after these bytes have been taken and put in both layers. -/
def PhyTx.afterBytes (tx : PhyTx) (bytes : List Byte) : PhyTx :=
  { tx with
    tb := tx.tb + bytes.length
    pb := tx.pb + (escaped bytes).length
    phyBuf := store tx.phyBuf tx.pb (escaped bytes) }

/-- The loop takes one byte, in one or two rounds. -/
theorem phyTxLoop_byte {transBuf : Storage} {tbEnd : Nat} (tx : PhyTx)
    (more : tx.tb < tbEnd) (noEsc : tx.needEsc = false)
    (notEop : ¬ (tx.tb + 1 = tbEnd ∧ tx.pbEop = none)) (room : Nat) :
    phyTxLoop transBuf tbEnd
        (room + (escaped [transBuf tx.tb]).length) tx =
      phyTxLoop transBuf tbEnd room (tx.afterBytes [transBuf tx.tb]) := by
  obtain ⟨tb, pb, pbEop, needEsc, phyBuf⟩ := tx
  obtain rfl : needEsc = false := noEsc
  have more : tb < tbEnd := more
  have notEop : ¬ (tb + 1 = tbEnd ∧ pbEop = none) := notEop
  have twoBytes (first second : Byte) :
      store (store phyBuf pb [first]) (pb + 1) [second] =
        store phyBuf pb [first, second] :=
    store_append phyBuf pb [first] [second]
  cases isPkt : pktSpecial (transBuf tb) with
  | true =>
      have coded := escaped_of_pktSpecial isPkt
      rw [show (escaped [transBuf tb]).length = 2 by rw [coded]; rfl,
        phyTxLoop, if_pos more, phyTxStep]
      simp only [Bool.false_eq_true, if_false, if_neg notEop, isPkt, if_true]
      rw [phyTxLoop, if_pos more, phyTxStep]
      simp only [if_true, twoBytes, PhyTx.afterBytes, coded,
        List.length_cons, List.length_nil]
  | false =>
      cases isPhy : phySpecial (transBuf tb) with
      | true =>
          have coded := escaped_of_phySpecial isPhy
          rw [show (escaped [transBuf tb]).length = 2 by rw [coded]; rfl,
            phyTxLoop, if_pos more, phyTxStep]
          simp only [Bool.false_eq_true, if_false, if_neg notEop, isPkt,
            isPhy, if_true]
          rw [phyTxLoop, if_pos more, phyTxStep]
          simp only [if_true, twoBytes, PhyTx.afterBytes, coded,
            List.length_cons, List.length_nil]
      | false =>
          have coded := escaped_of_plain isPkt isPhy
          rw [show (escaped [transBuf tb]).length = 1 by rw [coded]; rfl,
            phyTxLoop, if_pos more, phyTxStep]
          simp only [Bool.false_eq_true, if_false, if_neg notEop, isPkt,
            isPhy, PhyTx.afterBytes, coded, List.length_cons,
            List.length_nil]

/-- The loop takes all bytes but the last one. -/
theorem phyTxLoop_bytes {transBuf : Storage} {tbEnd : Nat}
    (bytes : List Byte) {tx : PhyTx}
    (holds : Holds transBuf tx.tb bytes)
    (more : tx.tb + bytes.length < tbEnd) (noEsc : tx.needEsc = false)
    (room : Nat) :
    phyTxLoop transBuf tbEnd (room + (escaped bytes).length) tx =
      phyTxLoop transBuf tbEnd room (tx.afterBytes bytes) := by
  induction bytes generalizing tx with
  | nil => simp [PhyTx.afterBytes]
  | cons byte rest ih =>
      have atByte : transBuf tx.tb = byte := holds 0 (by simp)
      rw [List.length_cons] at more
      have one :
          phyTxLoop transBuf tbEnd
              (room + (escaped rest).length +
                (escaped [transBuf tx.tb]).length) tx =
            phyTxLoop transBuf tbEnd (room + (escaped rest).length)
              (tx.afterBytes [transBuf tx.tb]) :=
        phyTxLoop_byte tx (by omega) noEsc (by omega) _
      rw [atByte] at one
      have others : Holds transBuf (tx.afterBytes [byte]).tb rest :=
        (List.singleton_append ▸ holds :
          Holds transBuf tx.tb ([byte] ++ rest)).right
      have next := ih others
        (by simp only [PhyTx.afterBytes, List.length_singleton]; omega) noEsc
      rw [escaped_cons, List.length_append, Nat.add_comm (escaped [byte]).length,
        ← Nat.add_assoc, one, next]
      congr 1
      simp only [PhyTx.afterBytes, store_append, ← escaped_cons,
        List.length_cons, List.length_nil]
      rw [escaped_cons byte rest, List.length_append]
      simp only [PhyTx.mk.injEq, and_true]
      omega

/-- The loop puts the rest of the packet behind its start. -/
theorem phyTxLoop_payload {transBuf : Storage} {init : List Byte}
    {last : Byte} (holds : Holds transBuf 0 (init ++ [last]))
    (phyBuf : Storage) (start room : Nat) :
    phyTxLoop transBuf (init.length + 1)
        (room + (escaped [last]).length + 1 + (escaped init).length)
        ⟨0, start, none, false, phyBuf⟩ =
      ⟨init.length + 1,
        start + (escaped init).length + 1 + (escaped [last]).length,
        some (start + (escaped init).length), false,
        store phyBuf start (escaped init ++ pktEop :: escaped [last])⟩ := by
  have atLast : transBuf init.length = last := by
    have held := holds init.length (by simp)
    simpa using held
  have first :
      phyTxLoop transBuf (init.length + 1)
          (room + (escaped [last]).length + 1 + (escaped init).length)
          ⟨0, start, none, false, phyBuf⟩ = _ :=
    phyTxLoop_bytes init holds.left (by simp) rfl _
  rw [first, phyTxLoop, if_pos (by simp [PhyTx.afterBytes]), phyTxStep]
  simp only [PhyTx.afterBytes, Nat.zero_add, Bool.false_eq_true, if_false,
    true_and, if_true]
  let atEop : PhyTx :=
    ⟨init.length, start + (escaped init).length + 1,
      some (start + (escaped init).length), false,
      store (store phyBuf start (escaped init))
        (start + (escaped init).length) [pktEop]⟩
  have notEop :
      ¬ (atEop.tb + 1 = init.length + 1 ∧ atEop.pbEop = none) := by
    simp [atEop]
  have second :
      phyTxLoop transBuf (init.length + 1)
          (room + (escaped [transBuf init.length]).length) atEop =
        phyTxLoop transBuf (init.length + 1) room
          (atEop.afterBytes [transBuf init.length]) :=
    phyTxLoop_byte atEop (Nat.lt_succ_self init.length) rfl notEop room
  rw [atLast] at second
  rw [second, phyTxLoop_done (by simp [PhyTx.afterBytes, atEop])]
  have buf :
      store
          (store (store phyBuf start (escaped init))
            (start + (escaped init).length) [pktEop])
          (start + (escaped init).length + 1) (escaped [last]) =
        store phyBuf start (escaped init ++ pktEop :: escaped [last]) := by
    have eop :=
      store_append (store phyBuf start (escaped init))
        (start + (escaped init).length) [pktEop] (escaped [last])
    rw [List.length_singleton] at eop
    rw [eop, store_append, List.singleton_append]
  simp only [PhyTx.afterBytes, atEop, List.length_singleton, buf]

/-! ## The padding -/

/-- What is sent, with idle bytes in front of the end of the packet. -/
def transmitted (init : List Byte) (last : Byte) (pad : Nat) : List Byte :=
  [pktSop, pktChannel, 0] ++ escaped init ++ List.replicate pad phyIdle ++
    pktEop :: escaped [last]

theorem length_transmitted (init : List Byte) (last : Byte) (pad : Nat) :
    (transmitted init last pad).length =
      3 + (escaped init).length + 1 + (escaped [last]).length + pad := by
  simp only [transmitted, List.length_append, List.length_cons,
    List.length_nil, List.length_replicate]
  omega

/-- The word lengths which the driver sets up, with their callbacks. -/
def SpiAvmmBridge.Generated (br : SpiAvmmBridge) : Prop :=
  br.wordLen = 1 ∧ br.swapWords = none ∨
    br.wordLen = 4 ∧ br.swapWords = some brSwapWords32

theorem SpiAvmmBridge.Generated.wordLen {br : SpiAvmmBridge}
    (generated : br.Generated) : br.wordLen = 1 ∨ br.wordLen = 4 :=
  generated.imp And.left And.left

theorem generated_of_spiAvmmBridgeCtxGen {setup32 setup8 : Option Errno}
    {kzalloc : Bool} {br : SpiAvmmBridge}
    (generates :
      spiAvmmBridgeCtxGen setup32 setup8 kzalloc = .ok br) :
    br.Generated := by
  unfold spiAvmmBridgeCtxGen at generates
  rcases setup32 with _ | _ <;> rcases setup8 with _ | _ <;>
    cases kzalloc <;> simp at generates <;> subst generates <;>
    simp [SpiAvmmBridge.Generated]

theorem align_four (n : Nat) :
    n ≤ align n 4 ∧ align n 4 % 4 = 0 ∧ align n 4 < n + 4 := by
  unfold align
  omega

/-- The end of the packet is moved, and the hole is filled with idle bytes. -/
theorem holds_padded {sent : Storage} {init : List Byte} {last : Byte}
    (held :
      Holds sent 0
        ([pktSop, pktChannel, 0] ++ escaped init ++
          pktEop :: escaped [last]))
    {eop pb aligned : Nat} (atEop : eop = 3 + (escaped init).length)
    (atEnd : pb = eop + 1 + (escaped [last]).length) (le : pb ≤ aligned) :
    Holds
      (fill (move sent (aligned - (pb - eop)) eop (pb - eop)) eop phyIdle
        (aligned - pb))
      0 (transmitted init last (aligned - pb)) := by
  have padded := held.insert_fill (aligned - pb) phyIdle
  have position :
      0 + ([pktSop, pktChannel, 0] ++ escaped init).length = eop := by
    simp only [List.length_append, List.length_cons, List.length_nil]
    omega
  have size : (pktEop :: escaped [last]).length = pb - eop := by
    rw [List.length_cons]
    omega
  have dest : eop + (aligned - pb) = aligned - (pb - eop) := by omega
  rwa [position, size, dest] at padded

/--
A payload is always encoded, with its padding in front of the end of the
packet and a length which is a multiple of the word length.
-/
theorem brPktPhyTxPrepare_spec {br : SpiAvmmBridge}
    (wordLen : br.wordLen = 1 ∨ br.wordLen = 4) {init : List Byte}
    {last : Byte}
    (holds : Holds br.transBuf 0 (init ++ [last]))
    (transLen : br.transLen = init.length + 1)
    (fits : init.length + 1 ≤ transTxMax) :
    ∃ pad phyBuf,
      brPktPhyTxPrepare br =
          (none,
            { br with
              phyBuf := phyBuf
              phyLen := (transmitted init last pad).length }) ∧
        Holds phyBuf 0 (transmitted init last pad) ∧
        (transmitted init last pad).length % br.wordLen = 0 ∧
        (transmitted init last pad).length ≤ phyTxMax := by
  have initBound := length_escaped_le init
  have lastBound : (escaped [last]).length ≤ 2 := length_escaped_le [last]
  have maxima : transTxMax = 12 ∧ phyTxMax = 28 := by decide
  obtain ⟨room, isRoom⟩ :
      ∃ room,
        phyTxMax - 3 =
          room + (escaped [last]).length + 1 + (escaped init).length :=
    ⟨phyTxMax - 3 - (escaped [last]).length - 1 - (escaped init).length,
      by omega⟩
  have start := holds_store br.phyBuf 0 [pktSop, pktChannel, 0]
  have held :=
    start.store_append (escaped init ++ pktEop :: escaped [last])
  have loop :=
    phyTxLoop_payload holds (store br.phyBuf 0 [pktSop, pktChannel, 0])
      3 room
  simp only [List.length_cons, List.length_nil, Nat.zero_add,
    Nat.reduceAdd, ← List.append_assoc] at held
  generalize
    store (store br.phyBuf 0 [pktSop, pktChannel, 0]) 3
      (escaped init ++ pktEop :: escaped [last]) = sent at held loop
  have heldZero : Holds sent 0 (transmitted init last 0) := by
    rwa [transmitted, List.replicate_zero, List.append_nil]
  have length := length_transmitted init last
  simp only [brPktPhyTxPrepare, List.length_cons, List.length_nil,
    Nat.zero_add, Nat.reduceAdd, isRoom, transLen, loop, Nat.lt_irrefl,
    if_false]
  rcases wordLen with byteWise | wordWise
  · refine ⟨0, sent, ?_, heldZero, ?_, ?_⟩
    · rw [if_pos byteWise, length]
      rfl
    · rw [byteWise, Nat.mod_one]
    · rw [length]
      omega
  · let pb := 3 + (escaped init).length + 1 + (escaped [last]).length
    obtain ⟨le, aligned, lt⟩ := align_four pb
    have notBytes : ¬ br.wordLen = 1 := by omega
    have fitsBuf : ¬ align pb 4 > phyTxMax := by omega
    have lengthPad :
        (transmitted init last (align pb 4 - pb)).length = align pb 4 := by
      rw [length]
      omega
    rw [if_neg notBytes, wordWise, if_neg fitsBuf]
    by_cases whole : align pb 4 = pb
    · refine ⟨0, sent, ?_, heldZero, ?_, ?_⟩
      · rw [if_pos whole, length]
        rfl
      · rw [length]
        omega
      · rw [length]
        omega
    · refine ⟨align pb 4 - pb, _, ?_, holds_padded held rfl rfl le, ?_, ?_⟩
      · rw [if_neg whole, lengthPad]
        rfl
      · rw [lengthPad]
        exact aligned
      · rw [lengthPad]
        omega

/-! ## What the slave receives -/

theorem phySpecial_mask (byte : Byte) (special : phySpecial byte = true) :
    phySpecial (byte ^^^ 0x20) = false := by
  simp only [phySpecial, Bool.or_eq_true, decide_eq_true_eq] at special
  rcases special with rfl | rfl <;> decide

theorem pktSpecial_mask (byte : Byte) (special : pktSpecial byte = true) :
    pktSpecial (byte ^^^ 0x20) = false := by
  simp only [pktSpecial, Bool.or_eq_true, decide_eq_true_eq] at special
  rcases special with ((rfl | rfl) | rfl) | rfl <;> decide

/-- The physical layer never sends an idle byte as data. -/
theorem ne_phyIdle_of_mem {bytes : List Byte} {byte : Byte}
    (member : byte ∈ phyCode.encode bytes) : byte ≠ phyIdle := by
  rintro rfl
  have isEscape : phyIdle = phyEsc :=
    phyCode.eq_escape_of_mem_encode phySpecial_mask member (by decide)
  exact absurd isEscape (by decide)

theorem filter_layered (payload : List Byte) :
    (layered payload).filter (· ≠ phyIdle) = layered payload := by
  refine List.filter_eq_self.mpr fun byte member => ?_
  exact decide_eq_true (ne_phyIdle_of_mem member)

/-- The padding is nothing but idle bytes. -/
theorem filter_transmitted (init : List Byte) (last : Byte) (pad : Nat) :
    (transmitted init last pad).filter (· ≠ phyIdle) =
      layered (init ++ [last]) := by
  have whole := filter_layered (init ++ [last])
  have idle :
      (List.replicate pad phyIdle).filter (· ≠ phyIdle) = [] := by
    simp
  rw [layered_append_last, List.filter_append] at whole
  rw [transmitted, List.filter_append, List.filter_append, idle,
    List.append_nil, whole, layered_append_last]

theorem phyReceive_transmitted (init : List Byte) (last : Byte) (pad : Nat) :
    phyReceive (transmitted init last pad) = packet (init ++ [last]) := by
  have decoded := phyCode.decode_encode (packet (init ++ [last])) []
  rwa [List.append_nil, EscapeCode.decode, List.append_nil, ← layered,
    ← filter_transmitted init last pad] at decoded

/-- Receiving a packet, with this much of its payload. -/
def PacketRx.within (payload : List Byte) (ending escaped : Bool) : PacketRx :=
  ⟨some payload, ending, false, escaped⟩

/-- A byte which is not special is data. -/
theorem PacketRx.step_plain {byte : Byte} (plain : pktSpecial byte = false)
    (payload : List Byte) (ending escaped : Bool) :
    (PacketRx.within payload ending escaped).step byte =
      let datum := if escaped then byte ^^^ 0x20 else byte
      if ending then (.idle, some (payload ++ [datum]))
      else (.within (payload ++ [datum]) false false, none) := by
  simp only [pktSpecial, Bool.or_eq_false_iff, decide_eq_false_iff_not]
    at plain
  obtain ⟨⟨⟨notSop, notEop⟩, notChannel⟩, notEsc⟩ := plain
  simp only [PacketRx.step, PacketRx.within, Bool.false_eq_true, if_false,
    notSop, notEop, notChannel, notEsc, pktCode]
  cases ending <;> rfl

/-- The packet layer reads a byte back as it was encoded. -/
theorem PacketRx.feed_encodeSymbol (byte : Byte) (payload : List Byte)
    (ending : Bool) :
    feed PacketRx.step (.within payload ending false)
        (pktCode.encodeSymbol byte) =
      if ending then (.idle, [payload ++ [byte]])
      else (.within (payload ++ [byte]) false false, []) := by
  cases isSpecial : pktSpecial byte with
  | true =>
      have escapes :
          (PacketRx.within payload ending false).step pktEsc =
            (.within payload ending true, none) := rfl
      have plain := pktSpecial_mask byte isSpecial
      rw [pktCode.encodeSymbol_of_special isSpecial, feed_cons]
      simp only [pktCode, escapes, feed_cons, feed_nil,
        PacketRx.step_plain plain, if_true, xor_twice]
      cases ending <;> rfl
  | false =>
      rw [pktCode.encodeSymbol_of_plain isSpecial, feed_cons,
        PacketRx.step_plain isSpecial]
      cases ending <;> rfl

theorem PacketRx.feed_encode (bytes payload : List Byte) :
    feed PacketRx.step (.within payload false false) (pktCode.encode bytes) =
      (.within (payload ++ bytes) false false, []) := by
  induction bytes generalizing payload with
  | nil => simp
  | cons byte rest ih =>
      rw [EscapeCode.encode_cons, feed_append, PacketRx.feed_encodeSymbol]
      simp only [Bool.false_eq_true, if_false, ih, List.append_assoc,
        List.singleton_append, List.nil_append]

/-- A packet is received as one packet, with its payload. -/
theorem packetsIn_transmitted (init : List Byte) (last : Byte) (pad : Nat) :
    packetsIn (transmitted init last pad) = [init ++ [last]] := by
  have begins :
      feed PacketRx.step .idle [pktSop, pktChannel, 0] =
        (.within [] false false, []) := rfl
  have ends :
      (PacketRx.within init false false).step pktEop =
        (.within init true false, none) := rfl
  rw [packetsIn, phyReceive_transmitted, packet, List.dropLast_concat,
    List.getLast?_concat, Option.toList_some, feed_append, feed_append,
    begins, PacketRx.feed_encode, feed_cons, List.nil_append]
  simp only [ends, EscapeCode.encode_cons, EscapeCode.encode_nil,
    List.append_nil, PacketRx.feed_encodeSymbol, if_true, Option.toList_none,
    List.nil_append]

/-! ## The request -/

theorem ofNat_ofBytes_toBytes (word : BitVec 32) :
    BitVec.ofNat 32 (ofBytes (toBytes 4 word.toNat)) = word := by
  have bound : word.toNat < 256 ^ 4 := word.isLt
  rw [ofBytes_toBytes, Nat.mod_eq_of_lt bound, BitVec.ofNat_toNat,
    BitVec.setWidth_eq]

theorem wordsOf_bytesOf (words : List (BitVec 32)) :
    wordsOf (bytesOf words) = words := by
  induction words with
  | nil => rfl
  | cons word rest ih =>
      have first := ofNat_ofBytes_toBytes word
      calc
        wordsOf (bytesOf (word :: rest))
            = BitVec.ofNat 32 (ofBytes (toBytes 4 word.toNat)) ::
                wordsOf (bytesOf rest) := rfl
        _ = word :: rest := by rw [first, ih]

theorem length_bytesOf (words : List (BitVec 32)) :
    (bytesOf words).length = 4 * words.length := by
  induction words with
  | nil => rfl
  | cons word rest ih =>
      have cons : bytesOf (word :: rest) =
          toBytes 4 word.toNat ++ bytesOf rest := rfl
      rw [cons, List.length_append, length_toBytes, ih, List.length_cons]
      omega

/-- The transaction code of a call. -/
def transCode (isRead : Bool) (count : Nat) : Byte :=
  if isRead then
    if count = 1 then transCodeRead else transCodeSeqRead
  else
    if count = 1 then transCodeWrite else transCodeSeqWrite

/-- The request of a call. -/
def requestOf (isRead : Bool) (reg : BitVec 32) (value : List (BitVec 32))
    (count : Nat) : Request where
  code := transCode isRead count
  size := 4 * count
  addr := reg
  data := if isRead then [] else value

/-- A request in the transaction layer. -/
def Request.encode (request : Request) : List Byte :=
  [request.code, 0] ++ toBytesBE 2 request.size ++
    toBytesBE 4 request.addr.toNat ++ bytesOf request.data

theorem Request.length_encode (request : Request) :
    request.encode.length = 8 + 4 * request.data.length := by
  simp only [Request.encode, toBytesBE, List.length_append,
    List.length_reverse, length_toBytes, length_bytesOf, List.length_cons,
    List.length_nil]

/-- A request whose size fits its field is read back as it was. -/
theorem Request.decode_encode (request : Request)
    (fits : request.size < 2 ^ 16) :
    Request.decode request.encode = some request := by
  have size : ofBytes (toBytes 2 request.size) = request.size := by
    rw [ofBytes_toBytes, Nat.mod_eq_of_lt (by omega)]
  have addr := ofNat_ofBytes_toBytes request.addr
  have data := wordsOf_bytesOf request.data
  calc
    Request.decode request.encode
        = some
            { code := request.code
              size := ofBytes (toBytes 2 request.size)
              addr :=
                BitVec.ofNat 32 (ofBytes (toBytes 4 request.addr.toNat))
              data := wordsOf (bytesOf request.data) } := rfl
    _ = some request := by rw [size, addr, data]

/-- The counts for which the regmap core calls the driver. -/
def CountOk (isRead : Bool) (count : Nat) : Prop :=
  1 ≤ count ∧ count ≤ if isRead then maxReadCnt else maxWriteCnt

/-- The transaction layer of a call is its request. -/
theorem brTransTxPrepare_spec (br : SpiAvmmBridge) {isRead : Bool}
    (reg : BitVec 32) {value : List (BitVec 32)} {count : Nat}
    (countOk : CountOk isRead count) (length : value.length = count) :
    let request := requestOf isRead reg value count
    ∃ transBuf,
      brTransTxPrepare br isRead reg value count =
          (none,
            { br with
              transBuf := transBuf
              transLen := request.encode.length }) ∧
        Holds transBuf 0 request.encode ∧
        request.encode.length ≤ transTxMax := by
  intro request
  obtain ⟨least, most⟩ := countOk
  have size : count % 2 ^ 16 * spiAvmmValSize = 4 * count := by
    cases isRead <;>
      simp only [maxReadCnt, maxWriteCnt, spiAvmmValSize, if_true,
        Bool.false_eq_true, if_false] at most ⊢ <;> omega
  let header := [request.code, 0] ++ toBytesBE 2 (4 * count) ++
    toBytesBE 4 reg.toNat
  have lengthHeader : header.length = 8 := by
    simp only [header, toBytesBE, List.length_append, List.length_reverse,
      length_toBytes, List.length_cons, List.length_nil]
  have start := holds_store br.transBuf 0 header
  have encodes : request.encode.length = _ := request.length_encode
  cases isRead with
  | true =>
      have whole : request.encode = header := List.append_nil _
      refine ⟨store br.transBuf 0 header, ?_, whole ▸ start, ?_⟩
      · rw [brTransTxPrepare, size, whole, lengthHeader]
        rfl
      · rw [whole, lengthHeader]
        decide
  | false =>
      have whole : request.encode = header ++ bytesOf value := rfl
      have one : count = 1 := by
        simp only [maxWriteCnt, Bool.false_eq_true, if_false] at most
        omega
      have lengthWhole : request.encode.length = 12 := by
        rw [whole, List.length_append, lengthHeader, length_bytesOf]
        omega
      have appended := start.store_append (bytesOf value)
      rw [lengthHeader] at appended
      have transLen :
          (transReqHdSize + spiAvmmValSize * count) % 2 ^ 32 = 12 := by
        rw [one]
        rfl
      have room : ¬ 12 > transBufSize := by decide
      have taken : value.take count = value :=
        List.take_of_length_le (Nat.le_of_eq length)
      refine ⟨_, ?_, whole ▸ appended, ?_⟩
      · simp only [brTransTxPrepare, size, transLen, room, taken,
          lengthWhole, Bool.false_eq_true, if_false]
        rfl
      · rw [lengthWhole]
        decide

end LinuxDfl.Spi

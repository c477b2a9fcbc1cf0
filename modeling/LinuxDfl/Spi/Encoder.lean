import LinuxDfl.Spi.Transmit

/-!
# What the encoder sends

For every payload of a request the encoder succeeds, and its buffer is the
packet with the escapes of both layers.  The padding stands in front of the
marker of the end, so that the buffer ends with the last byte of the payload.
-/

namespace LinuxDfl.Spi

open LinuxDfl.Kernel
open LinuxDfl.Lib.LittleEndian
open LinuxDfl.Lib.ByteStore

/-- A byte of the payload on the wire: escaped if it is special. -/
def encodeByte (byte : Byte) : List Byte :=
  if pktSpecial byte then [pktEsc, byte ^^^ 0x20]
  else if phySpecial byte then [phyEsc, byte ^^^ 0x20]
  else [byte]

/-- Bytes of the payload on the wire. -/
def encodeBytes (bytes : List Byte) : List Byte :=
  bytes.flatMap encodeByte

/-- What is sent for a payload, without the padding. -/
def encodePacket (init : List Byte) (last : Byte) : List Byte :=
  [pktSop, pktChannel, 0] ++ encodeBytes init ++ pktEop :: encodeByte last

/-- Byte by byte, the encoding is that of the two layers. -/
theorem escaped_singleton (byte : Byte) :
    escaped [byte] = encodeByte byte := by
  unfold encodeByte
  cases isPkt : pktSpecial byte with
  | true =>
      exact escaped_of_pktSpecial isPkt
  | false =>
      cases isPhy : phySpecial byte with
      | true => exact escaped_of_phySpecial isPhy
      | false => exact escaped_of_plain isPkt isPhy

theorem escaped_eq_encodeBytes (bytes : List Byte) :
    escaped bytes = encodeBytes bytes := by
  induction bytes with
  | nil => rfl
  | cons byte rest ih =>
      calc
        escaped (byte :: rest)
            = escaped [byte] ++ escaped rest := escaped_cons byte rest
        _ = encodeByte byte ++ encodeBytes rest := by
            rw [escaped_singleton, ih]
        _ = encodeBytes (byte :: rest) := rfl

theorem transmitted_eq (init : List Byte) (last : Byte) (pad : Nat) :
    transmitted init last pad =
      [pktSop, pktChannel, 0] ++ encodeBytes init ++
        List.replicate pad phyIdle ++ pktEop :: encodeByte last := by
  rw [transmitted, escaped_eq_encodeBytes, escaped_singleton]

theorem layered_eq_encodePacket (init : List Byte) (last : Byte) :
    layered (init ++ [last]) = encodePacket init last := by
  rw [layered_append_last, escaped_eq_encodeBytes, escaped_singleton,
    encodePacket]

theorem encodeByte_ne_nil (byte : Byte) : encodeByte byte ≠ [] := by
  unfold encodeByte
  split_ifs <;> exact List.cons_ne_nil _ _

/--
Every payload of a request is encoded: the length is one of whole words and
fits the buffer, the buffer without its idle bytes is the packet, and all the
padding is in front of the marker of the end, so that the buffer ends as the
encoding of the last byte does.
-/
theorem brPktPhyTxPrepare_encodes
    {br : SpiAvmmBridge}
    (wordLen : br.wordLen = 1 ∨ br.wordLen = 4)
    {payload : List Byte}
    (nonempty : payload ≠ [])
    (fits : payload.length ≤ transTxMax)
    (holds : Holds br.transBuf 0 payload)
    (transLen : br.transLen = payload.length) :
    let init := payload.dropLast
    let last := payload.getLast nonempty
    let sent := (brPktPhyTxPrepare br).2
    let buffer := load sent.phyBuf 0 sent.phyLen
    (brPktPhyTxPrepare br).1 = none ∧
      sent.phyLen % br.wordLen = 0 ∧
      sent.phyLen ≤ phyTxMax ∧
      buffer.filter (· ≠ phyIdle) = encodePacket init last ∧
      (∃ pad,
        buffer =
          [pktSop, pktChannel, 0] ++ encodeBytes init ++
            List.replicate pad phyIdle ++ pktEop :: encodeByte last) ∧
      buffer.getLast? = (encodeByte last).getLast? := by
  intro init last sent buffer
  have split : init ++ [last] = payload :=
    List.dropLast_append_getLast nonempty
  have length : payload.length = init.length + 1 := by
    rw [← split, List.length_append, List.length_singleton]
  obtain ⟨pad, phyBuf, prepares, held, whole, most⟩ :=
    brPktPhyTxPrepare_spec wordLen (split ▸ holds)
      (transLen.trans length) (length ▸ fits)
  have isSent : sent = _ := congrArg Prod.snd prepares
  have loads : buffer = transmitted init last pad := by
    show load sent.phyBuf 0 sent.phyLen = _
    rw [isSent]
    exact held.load_eq
  have shape := loads.trans (transmitted_eq init last pad)
  constructor
  · exact congrArg Prod.fst prepares
  constructor
  · rw [isSent]
    exact whole
  constructor
  · rw [isSent]
    exact most
  constructor
  · rw [loads, filter_transmitted, layered_eq_encodePacket]
  constructor
  · exact ⟨pad, shape⟩
  · rw [shape, List.getLast?_append, List.getLast?_cons]
    obtain ⟨final, ends⟩ :=
      Option.ne_none_iff_exists'.mp
        (mt List.getLast?_eq_none_iff.mp (encodeByte_ne_nil last))
    rw [ends]
    rfl

/-- A bridge for words of four bytes, with one special byte to send. -/
def bridgeWithEop : SpiAvmmBridge where
  wordLen := 4
  transLen := 1
  phyLen := 0
  transBuf := fun _ => pktEop
  phyBuf := fun _ => 0
  swapWords := some brSwapWords32

theorem bridgeWithEop_encodes :
    (brPktPhyTxPrepare bridgeWithEop).1 = none ∧
      load (brPktPhyTxPrepare bridgeWithEop).2.phyBuf 0
          (brPktPhyTxPrepare bridgeWithEop).2.phyLen =
        [pktSop, pktChannel, 0, phyIdle, phyIdle, pktEop, pktEsc,
          pktEop ^^^ 0x20] := by
  have holds : Holds bridgeWithEop.transBuf 0 [pktEop] := by
    intro i inside
    obtain rfl : i = 0 := Nat.lt_one_iff.mp inside
    rfl
  have encodes :=
    brPktPhyTxPrepare_encodes (Or.inr rfl) (List.cons_ne_nil _ _)
      (by decide) holds rfl
  exact ⟨encodes.1, by decide⟩

end LinuxDfl.Spi

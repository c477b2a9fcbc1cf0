import LinuxDfl.Kernel.Bitfield
import LinuxDfl.Lib.LittleEndian

/-!
# Transfers of the Altera SPI controller

A transfer is done word by word, in a loop which polls the controller or by
its interrupt handler.  The size of a word in memory is taken from the number
of its bits, and selects how it is put together.
-/

namespace LinuxDfl.Spi.Altera

open LinuxDfl.Kernel
open LinuxDfl.Lib.LittleEndian

/-! ## Registers -/

def alteraSpiRxdata : Nat := 0
def alteraSpiTxdata : Nat := 4
def alteraSpiStatus : Nat := 8
def alteraSpiControl : Nat := 12

/-- `ALTERA_SPI_CONTROL_IRRDY_MSK` -/
def alteraSpiControlIrrdyMsk : BitVec 32 := 0x80

/-- `DATA_WIDTH` -/
def dataWidth : Field := genmask 7 2

/-- `bits_per_word_mask`, which `config_spi_host` sets for a parameter of
the hardware. -/
def bitsPerWordMask (spiCoreParameter : BitVec 64) : BitVec 32 :=
  (BitVec.allOnes (dataWidth.get spiCoreParameter)).setWidth 32

/-- The allowed numbers of bits. -/
theorem bitsPerWordMask_getLsbD (spiCoreParameter : BitVec 64) (n : Nat) :
    (bitsPerWordMask spiCoreParameter).getLsbD n = true ↔
      n < dataWidth.get spiCoreParameter ∧ n < 32 := by
  rw [bitsPerWordMask, BitVec.getLsbD_setWidth, BitVec.getLsbD_allOnes,
    Bool.and_eq_true, decide_eq_true_iff, decide_eq_true_iff, and_comm]

/-! ## Data -/

/-- What the driver does to registers and to the buffer which it fills. -/
inductive SpiEvent where
  | writel (reg : Nat) (val : BitVec 32)
  | readl (reg : Nat)
  | store (index : Nat) (byte : Byte)
  /-- `spi_finalize_current_transfer` -/
  | finalize
  deriving DecidableEq, Repr

/-- `struct altera_spi` -/
structure AlteraSpi where
  len : Int
  count : Nat
  bytesPerWord : Nat
  imr : BitVec 32
  tx : Option (List Byte)
  /-- The size of the buffer which is filled. -/
  rx : Option Nat
  deriving DecidableEq, Repr

/-- `struct spi_transfer`; the buffer which is filled is as long as the other. -/
structure SpiTransfer where
  bitsPerWord : Nat
  len : Nat
  txBuf : Option (List Byte)
  rxBuf : Bool
  lenFits : len < 2 ^ 32
  txLength : ∀ tx, txBuf = some tx → tx.length = len

/-- What the controller answers. -/
structure Device where
  /-- How often `RRDY` is missing in the status before a word is there. -/
  waits : Nat → Nat
  /-- The words which are received. -/
  received : Nat → BitVec 32

/-! ## Words -/

/-- A value which is converted to `int`. -/
def cInt (n : Nat) : Int := (BitVec.ofNat 32 n).toInt

/-- A byte of a buffer, unless it is outside. -/
def byteAt (buf : List Byte) (index : Int) : Option Byte :=
  if index < 0 then none else buf[index.toNat]?

/-- A byte is stored in a buffer, unless this is outside. -/
def storeAt (size : Nat) (index : Int) (byte : Byte) : Option SpiEvent :=
  if 0 ≤ index ∧ index < size then some (.store index.toNat byte) else none

/-- The word which `altera_spi_tx_word` puts together. -/
def AlteraSpi.txd (hw : AlteraSpi) : Option (BitVec 32) :=
  match hw.tx with
  | none => some 0
  | some tx =>
      match hw.bytesPerWord with
      | 1 => do
          let byte ← byteAt tx (cInt hw.count)
          return byte.setWidth 32
      | 2 => do
          let low ← byteAt tx (cInt (hw.count * 2))
          let high ← byteAt tx (cInt (hw.count * 2 + 1))
          return low.setWidth 32 ||| high.setWidth 32 <<< 8
      | 4 => do
          let first ← byteAt tx (cInt (hw.count * 4))
          let second ← byteAt tx (cInt (hw.count * 4 + 1))
          let third ← byteAt tx (cInt (hw.count * 4 + 2))
          let fourth ← byteAt tx (cInt (hw.count * 4 + 3))
          return first.setWidth 32 ||| second.setWidth 32 <<< 8 |||
            third.setWidth 32 <<< 16 ||| fourth.setWidth 32 <<< 24
      | _ => some 0

/-- What `altera_spi_rx_word` stores of a word. -/
def AlteraSpi.stores (hw : AlteraSpi) (rxd : BitVec 32) :
    Option (List SpiEvent) :=
  match hw.rx with
  | none => some []
  | some size =>
      match hw.bytesPerWord with
      | 1 => do
          let byte ← storeAt size (cInt hw.count) (rxd.setWidth 8)
          return [byte]
      | 2 => do
          let low ← storeAt size (cInt (hw.count * 2)) (rxd.setWidth 8)
          let high ← storeAt size (cInt (hw.count * 2 + 1))
            ((rxd >>> 8).setWidth 8)
          return [low, high]
      | 4 => do
          let first ← storeAt size (cInt (hw.count * 4)) (rxd.setWidth 8)
          let second ← storeAt size (cInt (hw.count * 4 + 1))
            ((rxd >>> 8).setWidth 8)
          let third ← storeAt size (cInt (hw.count * 4 + 2))
            ((rxd >>> 16).setWidth 8)
          let fourth ← storeAt size (cInt (hw.count * 4 + 3))
            ((rxd >>> 24).setWidth 8)
          return [first, second, third, fourth]
      | _ => some []

/-- `altera_spi_tx_word` -/
def alteraSpiTxWord (hw : AlteraSpi) : Option (List SpiEvent) := do
  let txd ← hw.txd
  return [.writel alteraSpiTxdata txd]

/-- `altera_spi_rx_word` -/
def alteraSpiRxWord (device : Device) (hw : AlteraSpi) :
    Option (List SpiEvent) := do
  let stores ← hw.stores (device.received hw.count)
  return .readl alteraSpiRxdata :: stores

/-- `hw->count++` -/
def AlteraSpi.next (hw : AlteraSpi) : AlteraSpi :=
  { hw with count := hw.count + 1 }

@[simp]
theorem next_count (hw : AlteraSpi) : hw.next.count = hw.count + 1 := rfl

@[simp]
theorem next_len (hw : AlteraSpi) : hw.next.len = hw.len := rfl

/-! ## Transfers -/

/-- `altera_spi_txrx` takes over a transfer. -/
def AlteraSpi.start (transfer : SpiTransfer) (imr : BitVec 32) : AlteraSpi :=
  let bytesPerWord := (transfer.bitsPerWord + 7) / 8
  { len := cInt (transfer.len / bytesPerWord)
    count := 0
    bytesPerWord := bytesPerWord
    imr := imr
    tx := transfer.txBuf
    rx := if transfer.rxBuf then some transfer.len else none }

@[simp]
theorem start_count (transfer : SpiTransfer) (imr : BitVec 32) :
    (AlteraSpi.start transfer imr).count = 0 := rfl

/-- The loop of `altera_spi_txrx`, and what comes after it. -/
def alteraSpiPoll (device : Device) (hw : AlteraSpi) :
    Option (List SpiEvent) :=
  if hw.count < hw.len then do
    let sent ← alteraSpiTxWord hw
    let received ← alteraSpiRxWord device hw
    let rest ← alteraSpiPoll device hw.next
    return sent ++ (List.replicate (device.waits hw.count + 1)
      (.readl alteraSpiStatus) ++ (received ++ rest))
  else some [.finalize]
termination_by (hw.len - hw.count).toNat
decreasing_by
  rw [next_len, next_count]
  omega

/-- `altera_spi_irq`, each time a word is there until the transfer is over. -/
def alteraSpiIrqs (device : Device) (hw : AlteraSpi) :
    Option (List SpiEvent) := do
  let received ← alteraSpiRxWord device hw
  if hw.next.count < hw.next.len then do
    let sent ← alteraSpiTxWord hw.next
    let rest ← alteraSpiIrqs device hw.next
    return received ++ (sent ++ rest)
  else
    return received ++ [.writel alteraSpiControl
      (hw.imr &&& ~~~alteraSpiControlIrrdyMsk), .finalize]
termination_by (hw.len - hw.count).toNat
decreasing_by
  simp only [next_len, next_count] at *
  omega

/-- `altera_spi_txrx` without an interrupt -/
def polledRun (device : Device) (transfer : SpiTransfer) (imr : BitVec 32) :
    Option (List SpiEvent) :=
  alteraSpiPoll device (.start transfer imr)

/-- `altera_spi_txrx` with an interrupt, and the interrupts after it -/
def interruptRun (device : Device) (transfer : SpiTransfer)
    (imr : BitVec 32) : Option (List SpiEvent) := do
  let hw := AlteraSpi.start transfer (imr ||| alteraSpiControlIrrdyMsk)
  let sent ← alteraSpiTxWord hw
  let rest ← alteraSpiIrqs device hw
  return .writel alteraSpiControl hw.imr :: (sent ++ rest)

/-! ## What is to hold -/

/-- The size of a word in memory. -/
def wordSize (bitsPerWord : Nat) : Nat :=
  if bitsPerWord ≤ 8 then 1 else if bitsPerWord ≤ 16 then 2 else 4

/-- What is checked of a transfer before the driver gets it. -/
structure Validated (spiCoreParameter : BitVec 64) (transfer : SpiTransfer) :
    Prop where
  bits : 1 ≤ transfer.bitsPerWord ∧ transfer.bitsPerWord ≤ 32 ∧
    (bitsPerWordMask spiCoreParameter).getLsbD (transfer.bitsPerWord - 1) =
      true
  nonempty : 0 < transfer.len
  words : wordSize transfer.bitsPerWord ∣ transfer.len
  buffer : transfer.txBuf.isSome = true ∨ transfer.rxBuf = true

namespace SpiTransfer

variable (transfer : SpiTransfer)

/-- The number of words in memory. -/
def wordCount : Nat := transfer.len / wordSize transfer.bitsPerWord

/-- A little-endian word of `tx_buf`, or zero. -/
def word (k : Nat) : BitVec 32 :=
  match transfer.txBuf with
  | none => 0
  | some tx =>
      BitVec.ofNat 32 (ofBytes
        ((tx.drop (k * wordSize transfer.bitsPerWord)).take
          (wordSize transfer.bitsPerWord)))

/-- The bytes of a word at its place in `rx_buf`, if there is one. -/
def stored (received : BitVec 32) (k : Nat) : List SpiEvent :=
  if transfer.rxBuf then
    (toBytes (wordSize transfer.bitsPerWord) received.toNat).mapIdx
      fun j byte => .store (k * wordSize transfer.bitsPerWord + j) byte
  else []

end SpiTransfer

/-- What is written to `TXDATA`, in order. -/
def txdataOf (events : List SpiEvent) : List (BitVec 32) :=
  events.filterMap fun
    | .writel reg val => if reg = alteraSpiTxdata then some val else none
    | _ => none

/-- What is stored, in order. -/
def storesOf (events : List SpiEvent) : List SpiEvent :=
  events.filter fun
    | .store _ _ => true
    | _ => false

/-- Writes to registers and to the buffer, in order. -/
def effectsOf (events : List SpiEvent) : List SpiEvent :=
  events.filter fun
    | .writel _ _ => true
    | .store _ _ => true
    | _ => false

/--
The words of the transfer are sent and those which are received are stored.
The run with interrupts does the same between switching its interrupt on and
off.
-/
structure Transfers (device : Device) (transfer : SpiTransfer)
    (imr : BitVec 32) (polled interrupt : List SpiEvent) : Prop where
  polls : polledRun device transfer imr = some polled
  interrupts : interruptRun device transfer imr = some interrupt
  sent : txdataOf polled =
    (List.range transfer.wordCount).map transfer.word
  stored : storesOf polled =
    (List.range transfer.wordCount).flatMap fun k =>
      transfer.stored (device.received k) k
  same : effectsOf interrupt =
    .writel alteraSpiControl (imr ||| alteraSpiControlIrrdyMsk) ::
      (effectsOf polled ++
        [.writel alteraSpiControl
          ((imr ||| alteraSpiControlIrrdyMsk) &&& ~~~alteraSpiControlIrrdyMsk)])

/-- Words of three bytes, which the driver knows nothing of. -/
def ThreeBytes (transfer : SpiTransfer) : Prop :=
  16 < transfer.bitsPerWord ∧ transfer.bitsPerWord ≤ 24

/-- The words and the bytes of the transfer can be counted with an `int`. -/
def CountsFit (transfer : SpiTransfer) : Prop :=
  transfer.wordCount < 2 ^ 31 ∧ transfer.len ≤ 2 ^ 31

instance : DecidablePred ThreeBytes :=
  fun _ => inferInstanceAs (Decidable (_ ∧ _))

instance : DecidablePred CountsFit :=
  fun _ => inferInstanceAs (Decidable (_ ∧ _))

/-- Nothing is stored, and what is sent are no more than two words of zeros. -/
def FewZeros (transfer : SpiTransfer) : Prop :=
  transfer.rxBuf = false ∧ transfer.len ≤ 8 ∧
    ∀ tx, transfer.txBuf = some tx → ∀ byte ∈ tx, byte = 0

/-! ## Words in memory -/

theorem cInt_of_lt {n : Nat} (small : n < 2 ^ 31) : cInt n = n := by
  rw [cInt, BitVec.toInt_eq_toNat_of_lt] <;>
    rw [BitVec.toNat_ofNat, Nat.mod_eq_of_lt (by omega)]
  omega

theorem cInt_neg {n : Nat} (large : 2 ^ 31 ≤ n) (fits : n < 2 ^ 32) :
    cInt n < 0 := by
  rw [cInt, BitVec.toInt_neg_iff, BitVec.toNat_ofNat, Nat.mod_eq_of_lt fits]
  omega

theorem byteAt_of_lt {buf : List Byte} {index : Nat}
    (below : index < buf.length) (small : index < 2 ^ 31) :
    byteAt buf (cInt index) = some buf[index] := by
  rw [cInt_of_lt small, byteAt, if_neg (by omega), Int.toNat_natCast,
    List.getElem?_eq_getElem below]

theorem storeAt_of_lt {size index : Nat} (byte : Byte)
    (below : index < size) (small : index < 2 ^ 31) :
    storeAt size (cInt index) byte = some (.store index byte) := by
  rw [cInt_of_lt small, storeAt, if_pos (by omega), Int.toNat_natCast]

theorem txd_absent {hw : AlteraSpi} (absent : hw.tx = none) :
    hw.txd = some 0 := by
  rw [AlteraSpi.txd, absent]

theorem stores_absent {hw : AlteraSpi} (absent : hw.rx = none)
    (rxd : BitVec 32) : hw.stores rxd = some [] := by
  rw [AlteraSpi.stores, absent]

/-- A little-endian word, where the driver knows its size. -/
theorem txd_eq {hw : AlteraSpi} {tx : List Byte} (given : hw.tx = some tx)
    (known : hw.bytesPerWord = 1 ∨ hw.bytesPerWord = 2 ∨ hw.bytesPerWord = 4)
    (below : (hw.count + 1) * hw.bytesPerWord ≤ tx.length)
    (small : (hw.count + 1) * hw.bytesPerWord ≤ 2 ^ 31) :
    hw.txd = some (BitVec.ofNat 32 (ofBytes
      ((tx.drop (hw.count * hw.bytesPerWord)).take hw.bytesPerWord))) := by
  rw [AlteraSpi.txd, given]
  rcases known with one | two | four
  · rw [one] at below small ⊢
    simp only
    rw [byteAt_of_lt (by omega) (by omega), Nat.mul_one,
      List.drop_eq_getElem_cons (by omega)]
    simp only [List.take_succ_cons, ofNat_ofBytes_cons, List.take_zero]
    simp [ofBytes]
  · rw [two] at below small ⊢
    simp only
    rw [byteAt_of_lt (by omega) (by omega), byteAt_of_lt (by omega) (by omega),
      List.drop_eq_getElem_cons (by omega),
      List.drop_eq_getElem_cons (by omega)]
    simp only [List.take_succ_cons, ofNat_ofBytes_cons, List.take_zero]
    simp [ofBytes]
  · rw [four] at below small ⊢
    simp only
    rw [byteAt_of_lt (by omega) (by omega), byteAt_of_lt (by omega) (by omega),
      byteAt_of_lt (by omega) (by omega), byteAt_of_lt (by omega) (by omega),
      List.drop_eq_getElem_cons (by omega),
      List.drop_eq_getElem_cons (by omega),
      List.drop_eq_getElem_cons (by omega),
      List.drop_eq_getElem_cons (by omega)]
    simp only [List.take_succ_cons, ofNat_ofBytes_cons, List.take_zero]
    simp [ofBytes, BitVec.shiftLeft_or_distrib, ← BitVec.shiftLeft_add,
      BitVec.or_assoc]

theorem stores_eq {hw : AlteraSpi} {size : Nat} (given : hw.rx = some size)
    (rxd : BitVec 32)
    (known : hw.bytesPerWord = 1 ∨ hw.bytesPerWord = 2 ∨ hw.bytesPerWord = 4)
    (below : (hw.count + 1) * hw.bytesPerWord ≤ size)
    (small : (hw.count + 1) * hw.bytesPerWord ≤ 2 ^ 31) :
    hw.stores rxd = some ((toBytes hw.bytesPerWord rxd.toNat).mapIdx
      fun j byte => .store (hw.count * hw.bytesPerWord + j) byte) := by
  rw [AlteraSpi.stores, given]
  rcases known with one | two | four
  · rw [one] at below small ⊢
    simp only
    rw [storeAt_of_lt _ (by omega) (by omega)]
    simp [toBytes]
  · rw [two] at below small ⊢
    simp only
    rw [storeAt_of_lt _ (by omega) (by omega),
      storeAt_of_lt _ (by omega) (by omega)]
    simp only [toBytes_toNat_succ]
    simp [toBytes]
  · rw [four] at below small ⊢
    simp only
    rw [storeAt_of_lt _ (by omega) (by omega),
      storeAt_of_lt _ (by omega) (by omega),
      storeAt_of_lt _ (by omega) (by omega),
      storeAt_of_lt _ (by omega) (by omega)]
    simp only [toBytes_toNat_succ]
    simp [toBytes]

/-! ## The two runs -/

section Runs

/-- The word which the driver is at. -/
def AlteraSpi.at (hw : AlteraSpi) (k : Nat) : AlteraSpi :=
  { hw with count := k }

/-- What is sent and stored for a word. -/
structure Handles (device : Device) (hw : AlteraSpi) (k : Nat)
    (txd : BitVec 32) (stores : List SpiEvent) : Prop where
  sends : (hw.at k).txd = some txd
  receives : (hw.at k).stores (device.received k) = some stores
  onlyStores : storesOf stores = stores

theorem effectsOf_append (first second : List SpiEvent) :
    effectsOf (first ++ second) = effectsOf first ++ effectsOf second :=
  List.filter_append first second

theorem storesOf_append (first second : List SpiEvent) :
    storesOf (first ++ second) = storesOf first ++ storesOf second :=
  List.filter_append first second

theorem txdataOf_append (first second : List SpiEvent) :
    txdataOf (first ++ second) = txdataOf first ++ txdataOf second :=
  List.filterMap_append

/-- Stores are effects. -/
theorem effectsOf_storesOf (events : List SpiEvent) :
    effectsOf (storesOf events) = storesOf events := by
  refine List.filter_eq_self.mpr fun event member => ?_
  have isStore := (List.mem_filter.mp member).2
  cases event with
  | store => rfl
  | _ => cases isStore

theorem storesOf_effectsOf (events : List SpiEvent) :
    storesOf (effectsOf events) = storesOf events := by
  rw [storesOf, effectsOf, List.filter_filter]
  refine List.filter_congr fun event _ => ?_
  cases event <;> rfl

theorem txdataOf_effectsOf (events : List SpiEvent) :
    txdataOf (effectsOf events) = txdataOf events := by
  induction events with
  | nil => rfl
  | cons event rest ih =>
      cases event with
      | readl | finalize => exact ih
      | store => exact ih
      | writel reg val =>
          change List.filterMap _ (_ :: effectsOf rest) =
            List.filterMap _ (_ :: rest)
          rw [List.filterMap_cons, List.filterMap_cons]
          split
          · exact ih
          · exact congrArg (List.cons _) ih

theorem txdataOf_storesOf (events : List SpiEvent) :
    txdataOf (storesOf events) = [] := by
  refine List.filterMap_eq_nil_iff.mpr fun event member => ?_
  have isStore := (List.mem_filter.mp member).2
  cases event with
  | store => rfl
  | _ => cases isStore

theorem effectsOf_readl (reg count : Nat) :
    effectsOf (List.replicate count (.readl reg)) = [] := by
  refine List.filter_eq_nil_iff.mpr fun event member => ?_
  rw [List.eq_of_mem_replicate member]
  exact Bool.false_ne_true

theorem Handles.effects {device : Device} {hw : AlteraSpi} {k : Nat}
    {txd : BitVec 32} {stores : List SpiEvent}
    (handles : Handles device hw k txd stores) :
    effectsOf stores = stores := by
  rw [← handles.onlyStores, effectsOf_storesOf]

theorem Handles.next {device : Device} {hw : AlteraSpi} {k : Nat}
    {txd : BitVec 32} {stores : List SpiEvent}
    (handles : Handles device hw k txd stores) :
    Handles device hw.next k txd stores :=
  ⟨handles.sends, handles.receives, handles.onlyStores⟩

/-- What `altera_spi_tx_word` and `altera_spi_rx_word` do to the word. -/
theorem Handles.txWord {device : Device} {hw : AlteraSpi}
    {txd : BitVec 32} {stores : List SpiEvent}
    (handles : Handles device hw hw.count txd stores) :
    alteraSpiTxWord hw = some [.writel alteraSpiTxdata txd] := by
  have sends : hw.txd = some txd := handles.sends
  rw [alteraSpiTxWord, sends]
  rfl

theorem Handles.rxWord {device : Device} {hw : AlteraSpi}
    {txd : BitVec 32} {stores : List SpiEvent}
    (handles : Handles device hw hw.count txd stores) :
    alteraSpiRxWord device hw = some (.readl alteraSpiRxdata :: stores) := by
  have receives : hw.stores (device.received hw.count) = some stores :=
    handles.receives
  rw [alteraSpiRxWord, receives]
  rfl

variable {device : Device} {txd : Nat → BitVec 32}
  {stores : Nat → List SpiEvent}

/-- The effects of a word, and of the words after it. -/
def wordEffects (txd : Nat → BitVec 32) (stores : Nat → List SpiEvent)
    (first count : Nat) : List SpiEvent :=
  (List.range' first count).flatMap fun k =>
    .writel alteraSpiTxdata (txd k) :: stores k

theorem wordEffects_succ (first count : Nat) :
    wordEffects txd stores first (count + 1) =
      .writel alteraSpiTxdata (txd first) ::
        (stores first ++ wordEffects txd stores (first + 1) count) := by
  rw [wordEffects, List.range'_succ, List.flatMap_cons]
  rfl

theorem alteraSpiPoll_handles (remaining : Nat) {hw : AlteraSpi}
    (len : hw.len = hw.count + remaining)
    (handles : ∀ k, hw.count ≤ k → k < hw.count + remaining →
      Handles device hw k (txd k) (stores k)) :
    ∃ events, alteraSpiPoll device hw = some events ∧
      effectsOf events = wordEffects txd stores hw.count remaining := by
  induction remaining generalizing hw with
  | zero =>
      rw [alteraSpiPoll, if_neg (by omega)]
      exact ⟨_, rfl, rfl⟩
  | succ remaining ih =>
      have here := handles hw.count (Nat.le_refl _) (by omega)
      have nextLen : hw.next.len = hw.next.count + remaining := by
        rw [next_len, next_count]
        omega
      obtain ⟨rest, runs, effects⟩ := ih nextLen fun k above below => by
        rw [next_count] at above below
        exact (handles k (by omega) (by omega)).next
      rw [alteraSpiPoll, if_pos (by omega), here.txWord, here.rxWord, runs]
      refine ⟨_, rfl, ?_⟩
      rw [effectsOf_append, effectsOf_append, effectsOf_readl,
        effectsOf_append, effects, wordEffects_succ]
      change _ :: (effectsOf (stores hw.count) ++ _) = _
      rw [here.effects]
      rfl

/-- Interrupts store the word which has been sent, and send the next one. -/
theorem alteraSpiIrqs_handles (remaining : Nat) {hw : AlteraSpi}
    (len : hw.len = hw.count + (remaining + 1))
    (handles : ∀ k, hw.count ≤ k → k < hw.count + (remaining + 1) →
      Handles device hw k (txd k) (stores k)) :
    ∃ events, alteraSpiIrqs device hw = some events ∧
      effectsOf events = stores hw.count ++
        (wordEffects txd stores (hw.count + 1) remaining ++
          [.writel alteraSpiControl
            (hw.imr &&& ~~~alteraSpiControlIrrdyMsk)]) := by
  induction remaining generalizing hw with
  | zero =>
      have here := handles hw.count (Nat.le_refl _) (by omega)
      have last : ¬ (hw.next.count : Int) < hw.next.len := by
        rw [next_len, next_count]
        omega
      rw [alteraSpiIrqs, here.rxWord, Option.bind_eq_bind, Option.bind_some,
        if_neg last]
      refine ⟨_, rfl, ?_⟩
      rw [effectsOf_append]
      change effectsOf (stores hw.count) ++ _ = _
      rw [here.effects]
      rfl
  | succ remaining ih =>
      have here := handles hw.count (Nat.le_refl _) (by omega)
      have later := (handles (hw.count + 1) (by omega) (by omega)).next
      have goesOn : (hw.next.count : Int) < hw.next.len := by
        rw [next_len, next_count]
        omega
      have nextLen : hw.next.len = hw.next.count + (remaining + 1) := by
        rw [next_len, next_count]
        omega
      obtain ⟨rest, runs, effects⟩ := ih nextLen fun k above below => by
        rw [next_count] at above below
        exact (handles k (by omega) (by omega)).next
      rw [alteraSpiIrqs, here.rxWord, Option.bind_eq_bind, Option.bind_some,
        if_pos goesOn, Handles.txWord later, runs]
      refine ⟨_, rfl, ?_⟩
      rw [effectsOf_append, effectsOf_append, effects, wordEffects_succ]
      change effectsOf (stores hw.count) ++ _ = _
      rw [here.effects]
      simp only [next_count, List.cons_append, List.append_assoc]
      rfl

/-- What is sent and stored in all. -/
theorem txdataOf_wordEffects (first count : Nat)
    (onlyStores : ∀ k, first ≤ k → k < first + count →
      storesOf (stores k) = stores k) :
    txdataOf (wordEffects txd stores first count) =
      (List.range' first count).map txd := by
  induction count generalizing first with
  | zero => rfl
  | succ count ih =>
      have here : txdataOf (stores first) = [] := by
        rw [← onlyStores first (Nat.le_refl _) (by omega), txdataOf_storesOf]
      have rest := ih (first + 1) fun k above below =>
        onlyStores k (by omega) (by omega)
      rw [wordEffects_succ, List.range'_succ, List.map_cons, ← rest]
      change txd first :: txdataOf (stores first ++ _) = _
      rw [txdataOf_append, here, List.nil_append]

theorem storesOf_wordEffects (first count : Nat)
    (onlyStores : ∀ k, first ≤ k → k < first + count →
      storesOf (stores k) = stores k) :
    storesOf (wordEffects txd stores first count) =
      (List.range' first count).flatMap stores := by
  induction count generalizing first with
  | zero => rfl
  | succ count ih =>
      have here := onlyStores first (Nat.le_refl _) (by omega)
      have rest := ih (first + 1) fun k above below =>
        onlyStores k (by omega) (by omega)
      rw [wordEffects_succ, List.range'_succ, List.flatMap_cons, ← rest]
      change storesOf (stores first ++ _) = _
      rw [storesOf_append, here]

variable {transfer : SpiTransfer} {imr : BitVec 32} {count : Nat}

/-- Both runs do the same, word by word. -/
theorem runs_of_handles (positive : 0 < count)
    (len : ∀ mask, (AlteraSpi.start transfer mask).len = count)
    (handles : ∀ mask, ∀ k < count,
      Handles device (.start transfer mask) k (txd k) (stores k)) :
    ∃ polled interrupt, polledRun device transfer imr = some polled ∧
      interruptRun device transfer imr = some interrupt ∧
      effectsOf polled = wordEffects txd stores 0 count ∧
      effectsOf interrupt =
        .writel alteraSpiControl (imr ||| alteraSpiControlIrrdyMsk) ::
          (wordEffects txd stores 0 count ++
            [.writel alteraSpiControl
              ((imr ||| alteraSpiControlIrrdyMsk) &&&
                ~~~alteraSpiControlIrrdyMsk)]) := by
  obtain ⟨rest, rfl⟩ : ∃ rest, count = rest + 1 :=
    ⟨count - 1, by omega⟩
  have startLen : ∀ mask, (AlteraSpi.start transfer mask).len =
      (AlteraSpi.start transfer mask).count + (rest + 1 : Nat) := by
    intro mask
    rw [len, start_count, Int.natCast_zero, Int.zero_add]
  have startHandles : ∀ mask k, k < (AlteraSpi.start transfer mask).count +
      (rest + 1) → Handles device (.start transfer mask) k (txd k) (stores k) := by
    intro mask k below
    rw [start_count, Nat.zero_add] at below
    exact handles mask k below
  obtain ⟨polled, polls, polledEffects⟩ :=
    alteraSpiPoll_handles (rest + 1) (startLen imr)
      fun k _ below => startHandles imr k below
  obtain ⟨irqs, interrupts, irqEffects⟩ :=
    alteraSpiIrqs_handles rest (startLen (imr ||| alteraSpiControlIrrdyMsk))
      fun k _ below => startHandles _ k below
  have sends := (handles (imr ||| alteraSpiControlIrrdyMsk) 0 positive).txWord
  refine ⟨polled, .writel alteraSpiControl (imr ||| alteraSpiControlIrrdyMsk) ::
    .writel alteraSpiTxdata (txd 0) :: irqs, polls, ?_, polledEffects, ?_⟩
  · rw [interruptRun, sends, interrupts]
    rfl
  · change _ :: _ :: effectsOf irqs = _
    rw [irqEffects, wordEffects_succ, List.cons_append, List.append_assoc]
    rfl

/-- What remains is to compare words. -/
theorem transfers_iff_of_handles (positive : 0 < count)
    (len : ∀ mask, (AlteraSpi.start transfer mask).len = count)
    (handles : ∀ mask, ∀ k < count,
      Handles device (.start transfer mask) k (txd k) (stores k)) :
    (∃ polled interrupt, Transfers device transfer imr polled interrupt) ↔
      (List.range count).map txd =
        (List.range transfer.wordCount).map transfer.word ∧
      (List.range count).flatMap stores =
        (List.range transfer.wordCount).flatMap fun k =>
          transfer.stored (device.received k) k := by
  obtain ⟨polled, interrupt, polls, interrupts, polledEffects, irqEffects⟩ :=
    runs_of_handles positive len handles
  have onlyStores : ∀ k, 0 ≤ k → k < 0 + count →
      storesOf (stores k) = stores k := by
    intro k _ below
    rw [Nat.zero_add] at below
    exact (handles 0 k below).onlyStores
  have sent : txdataOf polled = (List.range count).map txd := by
    rw [← txdataOf_effectsOf, polledEffects,
      txdataOf_wordEffects 0 count onlyStores, List.range_eq_range']
  have stored : storesOf polled = (List.range count).flatMap stores := by
    rw [← storesOf_effectsOf, polledEffects,
      storesOf_wordEffects 0 count onlyStores, List.range_eq_range']
  constructor
  · intro ⟨polled', _, transfers⟩
    obtain rfl : polled = polled' :=
      Option.some.inj (polls.symm.trans transfers.polls)
    exact ⟨sent.symm.trans transfers.sent, stored.symm.trans transfers.stored⟩
  · intro ⟨sameWords, sameStores⟩
    exact ⟨polled, interrupt,
      { polls := polls
        interrupts := interrupts
        sent := sent.trans sameWords
        stored := stored.trans sameStores
        same := by rw [irqEffects, polledEffects] }⟩

end Runs

/-! ## Sizes of words -/

section Sizes

variable {v : BitVec 64} {transfer : SpiTransfer} {device : Device}
  {imr : BitVec 32}

theorem wordSize_known (bits : Nat) :
    wordSize bits = 1 ∨ wordSize bits = 2 ∨ wordSize bits = 4 := by
  unfold wordSize
  split
  · exact .inl rfl
  · split
    · exact .inr (.inl rfl)
    · exact .inr (.inr rfl)

theorem Validated.size (valid : Validated v transfer)
    (known : ¬ ThreeBytes transfer) :
    (transfer.bitsPerWord + 7) / 8 = wordSize transfer.bitsPerWord := by
  have ⟨atLeast, atMost, _⟩ := valid.bits
  rw [ThreeBytes] at known
  unfold wordSize
  split
  · omega
  · split <;> omega

theorem Validated.threeBytes (three : ThreeBytes transfer) :
    (transfer.bitsPerWord + 7) / 8 = 3 ∧ wordSize transfer.bitsPerWord = 4 := by
  obtain ⟨above, below⟩ := three
  rw [wordSize, if_neg (by omega), if_neg (by omega)]
  omega

/-- The words fill the buffers. -/
theorem Validated.wordCount_mul (valid : Validated v transfer) :
    transfer.wordCount * wordSize transfer.bitsPerWord = transfer.len :=
  Nat.div_mul_cancel valid.words

theorem Validated.wordCount_pos (valid : Validated v transfer) :
    0 < transfer.wordCount := by
  refine Nat.pos_of_ne_zero fun empty => ?_
  have filled := valid.wordCount_mul
  rw [empty, Nat.zero_mul] at filled
  exact valid.nonempty.ne filled

theorem stored_onlyStores (received : BitVec 32) (k : Nat) :
    storesOf (transfer.stored received k) = transfer.stored received k := by
  refine List.filter_eq_self.mpr fun event member => ?_
  rw [SpiTransfer.stored] at member
  split at member
  · obtain ⟨j, _, rfl⟩ := List.mem_mapIdx.mp member
    rfl
  · cases member

/-- A word of a known size, which an `int` can count. -/
theorem Validated.handles (valid : Validated v transfer)
    (known : ¬ ThreeBytes transfer) (fits : CountsFit transfer)
    (mask : BitVec 32) {k : Nat} (below : k < transfer.wordCount) :
    Handles device (.start transfer mask) k (transfer.word k)
      (transfer.stored (device.received k) k) := by
  have size := valid.size known
  have sizeKnown := wordSize_known transfer.bitsPerWord
  have inside : (k + 1) * wordSize transfer.bitsPerWord ≤ transfer.len := by
    rw [← valid.wordCount_mul]
    exact Nat.mul_le_mul_right _ below
  have counted := inside.trans fits.2
  rw [← size] at sizeKnown inside counted
  refine ⟨?_, ?_, stored_onlyStores _ _⟩
  · rw [SpiTransfer.word]
    split
    · next absent => exact txd_absent absent
    · next tx given =>
        rw [← size]
        refine txd_eq given sizeKnown ?_ counted
        rwa [transfer.txLength tx given]
  · rw [SpiTransfer.stored]
    cases given : transfer.rxBuf with
    | false =>
        refine stores_absent ?_ _
        change (if transfer.rxBuf then some transfer.len else none) = none
        rw [given]
        rfl
    | true =>
        rw [← size]
        refine stores_eq ?_ _ sizeKnown inside counted
        change (if transfer.rxBuf then some transfer.len else none) = _
        rw [given]
        rfl

/-- A word of three bytes is zero when it is sent, and is not stored. -/
theorem threeBytes_handles (three : ThreeBytes transfer) (mask : BitVec 32)
    (k : Nat) : Handles device (.start transfer mask) k 0 [] := by
  have size : ((AlteraSpi.start transfer mask).at k).bytesPerWord = 3 :=
    (Validated.threeBytes three).1
  refine ⟨?_, ?_, rfl⟩
  · rw [AlteraSpi.txd, size]
    split <;> rfl
  · rw [AlteraSpi.stores, size]
    split <;> rfl

theorem bytes_eq_zero {bytes : List Byte}
    (zero : BitVec.ofNat 32 (ofBytes bytes) = 0)
    (short : 256 ^ bytes.length ≤ 2 ^ 32) : ∀ byte ∈ bytes, byte = 0 := by
  have fits := (ofBytes_lt bytes).trans_le short
  have same := congrArg BitVec.toNat zero
  rw [BitVec.toNat_ofNat, Nat.mod_eq_of_lt fits] at same
  exact (ofBytes_eq_zero_iff bytes).mp same

/-- Every byte of the buffer is in a word. -/
theorem word_eq_zero_iff (valid : Validated v transfer) :
    (∀ k < transfer.wordCount, transfer.word k = 0) ↔
      ∀ tx, transfer.txBuf = some tx → ∀ byte ∈ tx, byte = 0 := by
  constructor
  · intro zeros tx given byte member
    obtain ⟨index, inside, rfl⟩ := List.getElem_of_mem member
    have filled := valid.wordCount_mul
    have size := wordSize_known transfer.bitsPerWord
    rw [transfer.txLength tx given] at inside
    generalize sizeEq : wordSize transfer.bitsPerWord = w at filled size
    have below : index / w < transfer.wordCount := by
      refine Nat.div_lt_of_lt_mul ?_
      rwa [Nat.mul_comm, filled]
    have zero := zeros (index / w) below
    rw [SpiTransfer.word, given, sizeEq] at zero
    have short : 256 ^ w ≤ 2 ^ 32 := by
      rcases size with rfl | rfl | rfl <;> decide
    refine bytes_eq_zero zero ?_ _ (List.mem_iff_getElem?.mpr ⟨index % w, ?_⟩)
    · exact (Nat.pow_le_pow_right (by decide) (List.length_take_le _ _)).trans
        short
    · rw [List.getElem?_take_of_lt (Nat.mod_lt _ (by omega)),
        List.getElem?_drop, Nat.div_add_mod']
      exact List.getElem?_eq_getElem _
  · intro zeros k below
    rw [SpiTransfer.word]
    split
    · rfl
    · next tx given =>
        rw [(ofBytes_eq_zero_iff _).mpr fun byte member =>
          zeros tx given byte
            (List.mem_of_mem_drop (List.mem_of_mem_take member))]
        rfl

theorem flatMap_stored_eq_nil_iff (valid : Validated v transfer)
    (received : Nat → BitVec 32) :
    ((List.range transfer.wordCount).flatMap fun k =>
      transfer.stored (received k) k) = [] ↔ transfer.rxBuf = false := by
  rw [List.flatMap_eq_nil_iff]
  constructor
  · intro nothing
    have first := nothing 0 (List.mem_range.mpr valid.wordCount_pos)
    cases given : transfer.rxBuf with
    | false => rfl
    | true =>
        rw [SpiTransfer.stored, if_pos given, List.mapIdx_eq_nil_iff] at first
        have size := congrArg List.length first
        rw [length_toBytes, List.length_nil] at size
        rcases wordSize_known transfer.bitsPerWord with one | two | four <;>
          omega
  · intro absent k _
    rw [SpiTransfer.stored, absent]
    rfl

/-- Zeros are sent for words of three bytes, and too many of them. -/
theorem Validated.transfers_iff_fewZeros (valid : Validated v transfer)
    (three : ThreeBytes transfer) :
    (∃ polled interrupt, Transfers device transfer imr polled interrupt) ↔
      FewZeros transfer := by
  obtain ⟨three', four⟩ := Validated.threeBytes three
  have filled := valid.wordCount_mul
  rw [four] at filled
  have count := valid.wordCount_pos
  have lenFits := transfer.lenFits
  have len : ∀ mask, (AlteraSpi.start transfer mask).len =
      (transfer.len / 3 : Nat) := by
    intro mask
    change cInt (transfer.len / ((transfer.bitsPerWord + 7) / 8)) = _
    rw [three', cInt_of_lt (by omega)]
  rw [transfers_iff_of_handles (by omega) len
    fun mask k _ => threeBytes_handles three mask k]
  have noStores : ((List.range (transfer.len / 3)).flatMap
      fun _ => ([] : List SpiEvent)) = [] :=
    List.flatMap_eq_nil_iff.mpr fun _ _ => rfl
  rw [noStores, eq_comm (a := []), flatMap_stored_eq_nil_iff valid, FewZeros,
    ← word_eq_zero_iff valid]
  constructor
  · intro ⟨sameWords, absent⟩
    have sameCount := congrArg List.length sameWords
    rw [List.length_map, List.length_map, List.length_range,
      List.length_range] at sameCount
    rw [sameCount] at sameWords
    refine ⟨absent, by omega, fun k below => ?_⟩
    exact (List.map_inj_left.mp sameWords k (List.mem_range.mpr below)).symm
  · intro ⟨absent, few, zeros⟩
    have sameCount : transfer.len / 3 = transfer.wordCount := by omega
    rw [sameCount]
    refine ⟨List.map_inj_left.mpr fun k member => ?_, absent⟩
    exact (zeros k (List.mem_range.mp member)).symm

/-- The `int` which counts the bytes becomes negative. -/
theorem index_neg_fails {hw : AlteraSpi}
    (known : hw.bytesPerWord = 2 ∨ hw.bytesPerWord = 4)
    (large : hw.count * hw.bytesPerWord = 2 ^ 31)
    (buffer : hw.tx ≠ none ∨ hw.rx ≠ none) (rxd : BitVec 32) :
    hw.txd = none ∨ hw.stores rxd = none := by
  have negative : cInt (2 ^ 31) < 0 := cInt_neg (by decide) (by decide)
  rcases buffer with given | given
  · obtain ⟨tx, given⟩ := Option.ne_none_iff_exists'.mp given
    refine .inl ?_
    rw [AlteraSpi.txd, given]
    rcases known with two | four
    · rw [two] at large ⊢
      simp only
      rw [large, byteAt, if_pos negative]
      rfl
    · rw [four] at large ⊢
      simp only
      rw [large, byteAt, if_pos negative]
      rfl
  · obtain ⟨size, given⟩ := Option.ne_none_iff_exists'.mp given
    refine .inr ?_
    rw [AlteraSpi.stores, given]
    rcases known with two | four
    · rw [two] at large ⊢
      simp only
      rw [large, storeAt, if_neg (by omega)]
      rfl
    · rw [four] at large ⊢
      simp only
      rw [large, storeAt, if_neg (by omega)]
      rfl

theorem alteraSpiPoll_none (remaining : Nat) {hw : AlteraSpi}
    (goesOn : (hw.count + remaining : Nat) < hw.len)
    (fails : (hw.at (hw.count + remaining)).txd = none ∨
      (hw.at (hw.count + remaining)).stores
        (device.received (hw.count + remaining)) = none) :
    alteraSpiPoll device hw = none := by
  induction remaining generalizing hw with
  | zero =>
      rw [Nat.add_zero] at goesOn fails
      rw [alteraSpiPoll, if_pos goesOn]
      rcases fails with sends | receives
      · rw [alteraSpiTxWord, show hw.txd = none from sends]
        rfl
      · rw [alteraSpiRxWord,
          show hw.stores (device.received hw.count) = none from receives]
        cases alteraSpiTxWord hw <;> rfl
  | succ remaining ih =>
      have shift : hw.next.count + remaining = hw.count + (remaining + 1) := by
        rw [next_count]
        omega
      have rest : alteraSpiPoll device hw.next = none := by
        refine ih ?_ ?_
        · rw [shift, next_len]
          exact goesOn
        · rw [shift]
          exact fails
      rw [alteraSpiPoll, if_pos (by omega), rest]
      cases alteraSpiTxWord hw with
      | none => rfl
      | some => cases alteraSpiRxWord device hw <;> rfl

theorem Validated.buffers (valid : Validated v transfer) (mask : BitVec 32) :
    (AlteraSpi.start transfer mask).tx ≠ none ∨
      (AlteraSpi.start transfer mask).rx ≠ none := by
  rcases valid.buffer with given | given
  · refine .inl fun absent => ?_
    rw [show transfer.txBuf = none from absent] at given
    cases given
  · refine .inr fun absent => ?_
    change (if transfer.rxBuf then some transfer.len else none) = none at absent
    rw [if_pos given] at absent
    cases absent

/-- A transfer whose words or bytes an `int` cannot count. -/
theorem Validated.no_transfer (valid : Validated v transfer)
    (known : ¬ ThreeBytes transfer) (large : ¬ CountsFit transfer) :
    ¬ ∃ polled interrupt,
      Transfers device transfer imr polled interrupt := by
  intro ⟨polled, interrupt, transfers⟩
  have size := valid.size known
  have filled := valid.wordCount_mul
  have lenFits := transfer.lenFits
  have len : (AlteraSpi.start transfer imr).len = cInt transfer.wordCount := by
    change cInt (transfer.len / ((transfer.bitsPerWord + 7) / 8)) = _
    rw [size]
    rfl
  rw [CountsFit] at large
  rcases wordSize_known transfer.bitsPerWord with one | more
  · rw [one] at filled
    have negative := cInt_neg (n := transfer.wordCount) (by omega) (by omega)
    have polls := transfers.polls
    rw [polledRun, alteraSpiPoll, if_neg] at polls
    · have sent := congrArg List.length transfers.sent
      rw [← Option.some.inj polls, List.length_map, List.length_range] at sent
      exact valid.wordCount_pos.ne sent
    · rw [len, start_count]
      omega
  · have reached : 2 ^ 31 / wordSize transfer.bitsPerWord <
          transfer.wordCount ∧ transfer.wordCount < 2 ^ 31 ∧
        2 ^ 31 / wordSize transfer.bitsPerWord *
          wordSize transfer.bitsPerWord = 2 ^ 31 := by
      rcases more with two | four
      · rw [two] at filled ⊢
        omega
      · rw [four] at filled ⊢
        omega
    have buffers : ((AlteraSpi.start transfer imr).at
          (2 ^ 31 / wordSize transfer.bitsPerWord)).tx ≠ none ∨
        ((AlteraSpi.start transfer imr).at
          (2 ^ 31 / wordSize transfer.bitsPerWord)).rx ≠ none :=
      valid.buffers imr
    have polls := transfers.polls
    rw [polledRun, alteraSpiPoll_none (2 ^ 31 / wordSize transfer.bitsPerWord)]
      at polls
    · cases polls
    · rw [len, start_count, Nat.zero_add, cInt_of_lt reached.2.1]
      exact Int.ofNat_lt.mpr reached.1
    · rw [start_count, Nat.zero_add]
      refine index_neg_fails ?_ ?_ buffers _
      · rw [← size] at more
        exact more
      · change _ * ((transfer.bitsPerWord + 7) / 8) = _
        rw [size]
        exact reached.2.2

/-- Which transfers the driver does as they are meant. -/
theorem transfers_iff (valid : Validated v transfer) (device : Device)
    (imr : BitVec 32) :
    (∃ polled interrupt, Transfers device transfer imr polled interrupt) ↔
      ¬ ThreeBytes transfer ∧ CountsFit transfer ∨
        ThreeBytes transfer ∧ FewZeros transfer := by
  by_cases three : ThreeBytes transfer
  · rw [valid.transfers_iff_fewZeros three]
    simp only [three, not_true_eq_false, false_and, true_and, false_or]
  · simp only [three, not_false_eq_true, false_and, true_and, or_false]
    by_cases fits : CountsFit transfer
    · have size := valid.size three
      have filled := valid.wordCount_mul
      have len : ∀ mask,
          (AlteraSpi.start transfer mask).len = transfer.wordCount := by
        intro mask
        change cInt (transfer.len / ((transfer.bitsPerWord + 7) / 8)) = _
        rw [size]
        exact cInt_of_lt fits.1
      simp only [fits, iff_true]
      rw [transfers_iff_of_handles valid.wordCount_pos len
        fun mask k below => valid.handles three fits mask below]
      exact ⟨rfl, rfl⟩
    · simp only [fits, iff_false]
      exact valid.no_transfer three fits

/-- Two bytes which are sent while two others are received. -/
def twoBytes : SpiTransfer where
  bitsPerWord := 8
  len := 2
  txBuf := some [0x12, 0x34]
  rxBuf := true
  lenFits := by decide
  txLength := by
    intro tx given
    rw [← Option.some.inj given]
    rfl

theorem twoBytes_transfers :
    ∃ polled interrupt,
      Transfers ⟨fun _ => 0, fun _ => 0x56⟩ twoBytes 0 polled interrupt :=
  (transfers_iff (v := 0x20)
    { bits := by decide
      nonempty := by decide
      words := by decide
      buffer := .inl rfl } _ _).mpr
    (.inl ⟨by decide, by decide⟩)

/-- A word of three bytes in the four bytes which it has in memory. -/
def threeBytes : SpiTransfer where
  bitsPerWord := 24
  len := 4
  txBuf := some [0x12, 0x34, 0x56, 0]
  rxBuf := false
  lenFits := by decide
  txLength := by
    intro tx given
    rw [← Option.some.inj given]
    rfl

theorem threeBytes_polled (device : Device) :
    polledRun device threeBytes 0 = some
      (.writel alteraSpiTxdata 0 ::
        (List.replicate (device.waits 0 + 1) (.readl alteraSpiStatus) ++
          [.readl alteraSpiRxdata, .finalize])) := by
  rw [polledRun, alteraSpiPoll, alteraSpiPoll]
  rfl

theorem threeBytes_sends_zero :
    Validated 0x60 threeBytes ∧
      ¬ ∃ polled interrupt, Transfers ⟨fun _ => 0, fun _ => 0⟩ threeBytes 0
        polled interrupt := by
  constructor
  · exact
      { bits := by decide
        nonempty := by decide
        words := by decide
        buffer := .inl rfl }
  · intro ⟨polled, interrupt, transfers⟩
    have polls := transfers.polls
    rw [threeBytes_polled] at polls
    have sent := transfers.sent
    rw [← Option.some.inj polls] at sent
    exact absurd sent (by decide)

end Sizes

end LinuxDfl.Spi.Altera

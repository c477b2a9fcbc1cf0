import LinuxDfl.Kernel.Errno
import LinuxDfl.Lib.ByteStore

/-!
# Register access over SPI

The regmap bus for chips with an SPI slave to Avalon master bridge.  A request
is formatted layer by layer into the buffers of the bridge, sent, and the
answer is parsed word by word.  The SPI controller and the clock are a
parameter.
-/

namespace LinuxDfl.Spi

open LinuxDfl.Kernel
open LinuxDfl.Lib.LittleEndian
open LinuxDfl.Lib.ByteStore

/-! ## The protocol's bytes and sizes -/

/-- `PKT_SOP` -/
def pktSop : Byte := 0x7a
/-- `PKT_EOP` -/
def pktEop : Byte := 0x7b
/-- `PKT_CHANNEL` -/
def pktChannel : Byte := 0x7c
/-- `PKT_ESC` -/
def pktEsc : Byte := 0x7d
/-- `PHY_IDLE` -/
def phyIdle : Byte := 0x4a
/-- `PHY_ESC` -/
def phyEsc : Byte := 0x4d

/-- `TRANS_CODE_WRITE` -/
def transCodeWrite : Byte := 0x0
/-- `TRANS_CODE_SEQ_WRITE` -/
def transCodeSeqWrite : Byte := 0x4
/-- `TRANS_CODE_READ` -/
def transCodeRead : Byte := 0x10
/-- `TRANS_CODE_SEQ_READ` -/
def transCodeSeqRead : Byte := 0x14

/-- `SPI_AVMM_REG_SIZE` -/
def spiAvmmRegSize : Nat := 4
/-- `SPI_AVMM_VAL_SIZE` -/
def spiAvmmValSize : Nat := 4
/-- `MAX_READ_CNT` -/
def maxReadCnt : Nat := 256
/-- `MAX_WRITE_CNT` -/
def maxWriteCnt : Nat := 1

/-- `TRANS_REQ_HD_SIZE` -/
def transReqHdSize : Nat := 8
/-- `TRANS_RESP_HD_SIZE` -/
def transRespHdSize : Nat := 4
/-- `TRANS_TX_MAX` -/
def transTxMax : Nat := transReqHdSize + spiAvmmValSize * maxWriteCnt
/-- `TRANS_RX_MAX` -/
def transRxMax : Nat := spiAvmmValSize * maxReadCnt
/-- `TRANS_BUF_SIZE` -/
def transBufSize : Nat :=
  if transTxMax > transRxMax then transTxMax else transRxMax

/-- `ALIGN` -/
def align (n size : Nat) : Nat := (n + size - 1) / size * size

/-- `PHY_TX_MAX`, which is `PHY_BUF_SIZE` -/
def phyTxMax : Nat := align (2 * transTxMax + 4) 4

/-- Numbers of a wire format, the most significant byte first. -/
def toBytesBE (count n : Nat) : List Byte := (toBytes count n).reverse

/-! ## The bridge -/

/-- `struct spi_avmm_bridge` -/
structure SpiAvmmBridge where
  wordLen : Nat
  transLen : Nat
  phyLen : Nat
  transBuf : Storage
  phyBuf : Storage
  swapWords : Option (Storage → Nat → Storage)

/-- `swab32` of each word -/
def swab32Words : List Byte → List Byte
  | b0 :: b1 :: b2 :: b3 :: rest => b3 :: b2 :: b1 :: b0 :: swab32Words rest
  | rest => rest

/-- `br_swap_words_32` -/
def brSwapWords32 (buf : Storage) (len : Nat) : Storage :=
  store buf 0 (swab32Words (load buf 0 len))

/-- The word swapping callback, if there is one. -/
def SpiAvmmBridge.swapped (br : SpiAvmmBridge) (buf : Storage) (len : Nat) :
    Storage :=
  match br.swapWords with
  | some swapWords => swapWords buf len
  | none => buf

/--
`spi_avmm_bridge_ctx_gen`, given the results of `spi_setup` with 32 and with
8 bits per word.
-/
def spiAvmmBridgeCtxGen (setup32 setup8 : Option Errno) (kzalloc : Bool) :
    Except Errno SpiAvmmBridge :=
  let zeroed (wordLen : Nat) : SpiAvmmBridge :=
    { wordLen := wordLen
      transLen := 0
      phyLen := 0
      transBuf := fun _ => 0
      phyBuf := fun _ => 0
      swapWords := if wordLen = 4 then some brSwapWords32 else none }
  let allocate (wordLen : Nat) : Except Errno SpiAvmmBridge :=
    if kzalloc then .ok (zeroed wordLen) else .error .enomem
  match setup32 with
  | none => allocate 4
  | some _ =>
      match setup8 with
      | none => allocate 1
      | some _ => .error .einval

/-! ## Formatting a request -/

/-- `br_trans_tx_prepare` -/
def brTransTxPrepare (br : SpiAvmmBridge) (isRead : Bool) (reg : BitVec 32)
    (wrVal : List (BitVec 32)) (count : Nat) :
    Option Errno × SpiAvmmBridge :=
  let code :=
    if isRead then
      if count = 1 then transCodeRead else transCodeSeqRead
    else
      if count = 1 then transCodeWrite else transCodeSeqWrite
  let header :=
    [code, 0] ++ toBytesBE 2 (count % 2 ^ 16 * spiAvmmValSize) ++
      toBytesBE 4 reg.toNat
  let br := { br with transBuf := store br.transBuf 0 header }
  if isRead then
    (none, { br with transLen := transReqHdSize })
  else
    let transLen := (transReqHdSize + spiAvmmValSize * count) % 2 ^ 32
    if transLen > transBufSize then
      (some .enomem, br)
    else
      let data := (wrVal.take count).flatMap fun val => toBytes 4 val.toNat
      (none,
        { br with
          transBuf := store br.transBuf transReqHdSize data
          transLen := transLen })

/-- The locals of the loop of `br_pkt_phy_tx_prepare`. -/
structure PhyTx where
  tb : Nat
  pb : Nat
  pbEop : Option Nat
  needEsc : Bool
  phyBuf : Storage

/-- The byte is special in the packet layer. -/
def pktSpecial (byte : Byte) : Bool :=
  byte = pktSop || byte = pktEop || byte = pktChannel || byte = pktEsc

/-- The byte is special in the physical layer. -/
def phySpecial (byte : Byte) : Bool :=
  byte = phyIdle || byte = phyEsc

/-- The body of the loop, which puts one byte. -/
def phyTxStep (transBuf : Storage) (tbEnd : Nat) (tx : PhyTx) : PhyTx :=
  let put (byte : Byte) : PhyTx :=
    { tx with phyBuf := store tx.phyBuf tx.pb [byte], pb := tx.pb + 1 }
  let byte := transBuf tx.tb
  if tx.needEsc then
    { put (byte ^^^ 0x20) with tb := tx.tb + 1, needEsc := false }
  else if tx.tb + 1 = tbEnd ∧ tx.pbEop = none then
    { put pktEop with pbEop := some tx.pb }
  else if pktSpecial byte then
    { put pktEsc with needEsc := true }
  else if phySpecial byte then
    { put phyEsc with needEsc := true }
  else
    { put byte with tb := tx.tb + 1 }

/-- The loop, with this much room left in the buffer. -/
def phyTxLoop (transBuf : Storage) (tbEnd : Nat) : Nat → PhyTx → PhyTx
  | 0, tx => tx
  | room + 1, tx =>
      if tx.tb < tbEnd then
        phyTxLoop transBuf tbEnd room (phyTxStep transBuf tbEnd tx)
      else tx

/-- `br_pkt_phy_tx_prepare` -/
def brPktPhyTxPrepare (br : SpiAvmmBridge) : Option Errno × SpiAvmmBridge :=
  let start := [pktSop, pktChannel, 0]
  let tx :=
    phyTxLoop br.transBuf br.transLen (phyTxMax - start.length)
      { tb := 0
        pb := start.length
        pbEop := none
        needEsc := false
        phyBuf := store br.phyBuf 0 start }
  let br := { br with phyBuf := tx.phyBuf }
  if tx.tb < br.transLen then
    (some .enomem, br)
  else
    let br := { br with phyLen := tx.pb }
    if br.wordLen = 1 then
      (none, br)
    else
      let alignedPhyLen := align br.phyLen br.wordLen
      if alignedPhyLen > phyTxMax then
        (some .enomem, br)
      else if alignedPhyLen = br.phyLen then
        (none, br)
      else
        -- a null `pb_eop` only when nothing was to be sent
        let pbEop := tx.pbEop.getD 0
        let moveSize := tx.pb - pbEop
        let moved := move br.phyBuf (alignedPhyLen - moveSize) pbEop moveSize
        (none,
          { br with
            phyBuf := fill moved pbEop phyIdle (alignedPhyLen - br.phyLen)
            phyLen := alignedPhyLen })

/-! ## The SPI controller -/

/-- The SPI controller and the clock, with what they do to their state. -/
structure SpiDevice (Env : Type) where
  /-- `spi_write` -/
  spiWrite : List Byte → Env → Option Errno × Env
  /-- `spi_read` of this many bytes -/
  spiRead : Nat → Env → Except Errno (List Byte) × Env
  /-- `jiffies` -/
  jiffies : Env → BitVec 64 × Env
  /-- `SPI_AVMM_XFER_TIMEOUT` -/
  xferTimeout : BitVec 64

variable {Env : Type}

/-- `br_do_tx` -/
def brDoTx (spi : SpiDevice Env) (br : SpiAvmmBridge) (env : Env) :
    Option Errno × SpiAvmmBridge × Env :=
  let br := { br with phyBuf := br.swapped br.phyBuf br.phyLen }
  let sent := spi.spiWrite (load br.phyBuf 0 br.phyLen) env
  (sent.1, br, sent.2)

/-- `time_after(a, b)` -/
def timeAfter (a b : BitVec 64) : Bool := (b - a).slt 0

/-! ## Parsing the answer -/

/-- The locals of `br_do_rx_and_pkt_phy_parse` which a byte can change. -/
structure PhyRx where
  eopFound : Bool
  channelFound : Bool
  escFound : Bool
  tb : Option Nat
  transBuf : Storage

/-- What the parser makes of a byte which it does not drop. -/
inductive RxByte where
  | parsed (rx : PhyRx)
  | fault
  | finished (rx : PhyRx)

/-- Record a normal byte in `trans_buf`. -/
def PhyRx.record (rx : PhyRx) (datum : Byte) : PhyRx :=
  let tb := rx.tb.getD 0
  { rx with
    transBuf := store rx.transBuf tb [datum]
    tb := some (tb + 1)
    escFound := false }

/-- The body of the inner loop, behind the bytes which are dropped. -/
def phyRxValidByte (rx : PhyRx) (byte : Byte) : RxByte :=
  if rx.channelFound then
    if byte ≠ 0 then .fault else .parsed { rx with channelFound := false }
  else if byte = pktSop then
    .parsed
      { rx with
        tb := some 0
        eopFound := false
        channelFound := false
        escFound := false }
  else if byte = pktEop then
    if rx.escFound || rx.eopFound then .fault
    else .parsed { rx with eopFound := true }
  else if byte = pktChannel then
    if rx.escFound || rx.eopFound then .fault
    else .parsed { rx with channelFound := true }
  else if byte = pktEsc ∨ byte = phyEsc then
    if rx.escFound then .fault else .parsed { rx with escFound := true }
  else
    let datum := if rx.escFound then byte ^^^ 0x20 else byte
    if rx.eopFound then .finished (rx.record datum)
    else .parsed (rx.record datum)

/-- The body of the inner loop; nothing if the byte is dropped. -/
def phyRxByte (rx : PhyRx) (byte : Byte) : Option RxByte :=
  if rx.tb = none ∧ byte ≠ pktSop then none
  else if byte = phyIdle then none
  else some (phyRxValidByte rx byte)

/-- What the parser makes of a word. -/
inductive RxWord where
  | more (validWord : Bool) (rx : PhyRx)
  | fault
  | finished (rx : PhyRx)

/-- The inner loop over the bytes of a word. -/
def phyRxWord : List Byte → Bool → PhyRx → RxWord
  | [], validWord, rx => .more validWord rx
  | byte :: rest, validWord, rx =>
      match phyRxByte rx byte with
      | none => phyRxWord rest validWord rx
      | some (.parsed rx) => phyRxWord rest true rx
      | some .fault => .fault
      | some (.finished rx) => .finished rx

/--
The outer loop, for at most `fuel` words.  The last components are the error
which is returned, the parser's state and the buffer for words.
-/
def phyRxLoop (spi : SpiDevice Env) (br : SpiAvmmBridge) :
    Nat → PhyRx → Storage → BitVec 64 → Bool → Env →
      Option (Option Errno × PhyRx × Storage × Env)
  | 0, _, _, _, _, _ => none
  | fuel + 1, rx, phyBuf, pollTimeout, lastTry, env =>
      if rx.tb.any (transBufSize ≤ ·) then
        some (some .efault, rx, phyBuf, env)
      else
        match spi.spiRead br.wordLen env with
        | (.error ret, env) => some (some ret, rx, phyBuf, env)
        | (.ok word, env) =>
            let phyBuf := store phyBuf 0 (word.take br.wordLen)
            let phyBuf := br.swapped phyBuf br.wordLen
            match phyRxWord (load phyBuf 0 br.wordLen) false rx with
            | .fault => some (some .efault, rx, phyBuf, env)
            | .finished rx => some (none, rx, phyBuf, env)
            | .more true rx =>
                let now := spi.jiffies env
                phyRxLoop spi br fuel rx phyBuf (now.1 + spi.xferTimeout)
                  false now.2
            | .more false rx =>
                if lastTry then
                  some (some .etimedout, rx, phyBuf, env)
                else
                  let now := spi.jiffies env
                  phyRxLoop spi br fuel rx phyBuf pollTimeout
                    (timeAfter now.1 pollTimeout) now.2

/-- `br_do_rx_and_pkt_phy_parse`, for at most `fuel` words -/
def brDoRxAndPktPhyParse (spi : SpiDevice Env) (fuel : Nat) (br : SpiAvmmBridge)
    (env : Env) : Option (Option Errno × SpiAvmmBridge × Env) :=
  let now := spi.jiffies env
  let rx : PhyRx :=
    { eopFound := false
      channelFound := false
      escFound := false
      tb := none
      transBuf := br.transBuf }
  (phyRxLoop spi br fuel rx br.phyBuf (now.1 + spi.xferTimeout) false now.2).map
    fun (ret, rx, phyBuf, env) =>
      let br := { br with transBuf := rx.transBuf, phyBuf := phyBuf }
      match ret with
      | some ret => (some ret, br, env)
      | none => (none, { br with transLen := rx.tb.getD 0 }, env)

/-- `br_rd_trans_rx_parse`, with the values which it stores -/
def brRdTransRxParse (br : SpiAvmmBridge) (val : List (BitVec 32))
    (expectedCount : Nat) : Option Errno × List (BitVec 32) :=
  if expectedCount * spiAvmmValSize ≠ br.transLen then
    (some .efault, val)
  else
    let data := (List.range expectedCount).map fun i =>
      BitVec.ofNat 32 (ofBytes (load br.transBuf (4 * i) 4))
    (none, data ++ val.drop expectedCount)

/-- `br_wr_trans_rx_parse` -/
def brWrTransRxParse (br : SpiAvmmBridge) (expectedCount : Nat) :
    Option Errno :=
  if br.transLen ≠ transRespHdSize then
    some .efault
  else
    let code := br.transBuf 0 ^^^ 0x80
    let valLen := ofBytes (load br.transBuf 2 2).reverse
    if valLen = 0 ∨ valLen ≠ expectedCount * spiAvmmValSize then
      some .efault
    else if (valLen = spiAvmmValSize ∧ code ≠ transCodeWrite) ∨
        (valLen > spiAvmmValSize ∧ code ≠ transCodeSeqWrite) then
      some .efault
    else
      none

/--
`do_reg_access`, with at most `fuel` words of answer.  It returns the caller's
values as they are afterwards.
-/
def doRegAccess (spi : SpiDevice Env) (fuel : Nat) (br : SpiAvmmBridge)
    (isRead : Bool) (reg : BitVec 32) (value : List (BitVec 32))
    (count : Nat) (env : Env) :
    Option (Option Errno × List (BitVec 32) × SpiAvmmBridge × Env) :=
  let br := { br with transLen := 0, phyLen := 0 }
  match brTransTxPrepare br isRead reg value count with
  | (some ret, br) => some (some ret, value, br, env)
  | (none, br) =>
      match brPktPhyTxPrepare br with
      | (some ret, br) => some (some ret, value, br, env)
      | (none, br) =>
          match brDoTx spi br env with
          | (some ret, br, env) => some (some ret, value, br, env)
          | (none, br, env) =>
              (brDoRxAndPktPhyParse spi fuel br env).map
                fun (ret, br, env) =>
                  match ret with
                  | some ret => (some ret, value, br, env)
                  | none =>
                      if isRead then
                        let parsed := brRdTransRxParse br value count
                        (parsed.1, parsed.2, br, env)
                      else
                        (brWrTransRxParse br count, value, br, env)

end LinuxDfl.Spi

import LinuxDfl.Lib.Escape
import LinuxDfl.Lib.Feed
import LinuxDfl.Spi.Bridge

/-!
# The three layers of the protocol

What the slave makes of the bytes it receives, and what it answers: the
physical layer, the packet layer and the transaction layer, each of its own.
-/

namespace LinuxDfl.Spi

open LinuxDfl.Lib.LittleEndian
open LinuxDfl.Lib.Escape
open LinuxDfl.Lib.Feed

/-! ## The physical and the packet layer -/

theorem xor_twice (byte : Byte) : byte ^^^ 0x20 ^^^ 0x20 = byte := by
  rw [BitVec.xor_assoc, BitVec.xor_self, BitVec.xor_zero]

/-- The escapes of the packet layer. -/
def pktCode : EscapeCode Byte where
  special := pktSpecial
  escape := pktEsc
  mask byte := byte ^^^ 0x20
  special_escape := by decide
  mask_mask := xor_twice

/-- The escapes of the physical layer. -/
def phyCode : EscapeCode Byte where
  special := phySpecial
  escape := phyEsc
  mask byte := byte ^^^ 0x20
  special_escape := by decide
  mask_mask := xor_twice

/-- The packet with this payload. -/
def packet (payload : List Byte) : List Byte :=
  [pktSop, pktChannel, 0] ++ pktCode.encode payload.dropLast ++
    pktEop :: pktCode.encode payload.getLast?.toList

/-- The packet with this payload in the physical layer. -/
def layered (payload : List Byte) : List Byte :=
  phyCode.encode (packet payload)

/-- The receiver of packets; there is a payload once a packet has begun. -/
structure PacketRx where
  payload : Option (List Byte)
  ending : Bool
  channel : Bool
  escaped : Bool

/-- No packet has begun. -/
def PacketRx.idle : PacketRx := ⟨none, false, false, false⟩

/-- One byte of the packet layer, and the payload if it is the last. -/
def PacketRx.step (rx : PacketRx) (byte : Byte) :
    PacketRx × Option (List Byte) :=
  if rx.channel then
    ({ rx with channel := false }, none)
  else if byte = pktSop then
    (⟨some [], false, false, false⟩, none)
  else if byte = pktEop then
    ({ rx with ending := true }, none)
  else if byte = pktChannel then
    ({ rx with channel := true }, none)
  else if byte = pktEsc then
    ({ rx with escaped := true }, none)
  else
    let datum := if rx.escaped then pktCode.mask byte else byte
    match rx.payload with
    | none => ({ rx with escaped := false }, none)
    | some payload =>
        if rx.ending then
          (.idle, some (payload ++ [datum]))
        else
          ({ rx with payload := some (payload ++ [datum]), escaped := false },
            none)

/-- The bytes of the physical layer, as the packet layer gets them. -/
def phyReceive (bytes : List Byte) : List Byte :=
  phyCode.decode false (bytes.filter (· ≠ phyIdle))

/-- The payloads of the packets in these bytes. -/
def packetsIn (bytes : List Byte) : List (List Byte) :=
  (feed PacketRx.step .idle (phyReceive bytes)).2

/-! ## The transaction layer -/

/-- A request, as the slave understands it. -/
structure Request where
  code : Byte
  size : Nat
  addr : BitVec 32
  data : List (BitVec 32)
  deriving DecidableEq

/-- The little-endian words in these bytes. -/
def wordsOf : List Byte → List (BitVec 32)
  | b0 :: b1 :: b2 :: b3 :: rest =>
      BitVec.ofNat 32 (ofBytes [b0, b1, b2, b3]) :: wordsOf rest
  | _ => []

/-- The bytes of little-endian words. -/
def bytesOf (words : List (BitVec 32)) : List Byte :=
  words.flatMap fun word => toBytes 4 word.toNat

/-- Size and address come with the most significant byte first. -/
def Request.decode : List Byte → Option Request
  | code :: _ :: s1 :: s0 :: a3 :: a2 :: a1 :: a0 :: data =>
      some
        { code := code
          size := ofBytes [s0, s1]
          addr := BitVec.ofNat 32 (ofBytes [a0, a1, a2, a3])
          data := wordsOf data }
  | _ => none

/-- The bus of the slave, with what its registers do. -/
structure Avalon (Bus : Type) where
  read : BitVec 32 → Bus → BitVec 32 × Bus
  write : BitVec 32 → BitVec 32 → Bus → Bus

variable {Bus : Type}

/-- Read from addresses which are this far apart. -/
def Avalon.readBurst (avalon : Avalon Bus) (stride : BitVec 32) :
    Nat → BitVec 32 → Bus → List (BitVec 32) × Bus
  | 0, _, bus => ([], bus)
  | count + 1, addr, bus =>
      let first := avalon.read addr bus
      let rest := avalon.readBurst stride count (addr + stride) first.2
      (first.1 :: rest.1, rest.2)

/-- Write to addresses which are this far apart. -/
def Avalon.writeBurst (avalon : Avalon Bus) (stride : BitVec 32) :
    List (BitVec 32) → BitVec 32 → Bus → Bus
  | [], _, bus => bus
  | word :: rest, addr, bus =>
      avalon.writeBurst stride rest (addr + stride)
        (avalon.write addr word bus)

/-- How far apart the addresses of a request are. -/
def Request.stride (request : Request) : BitVec 32 :=
  if request.code = transCodeSeqRead ∨ request.code = transCodeSeqWrite then 4
  else 0

/-- Execute a request; the answer is the payload of the response. -/
def Avalon.execute (avalon : Avalon Bus) (request : Request) (bus : Bus) :
    List Byte × Bus :=
  if request.code = transCodeRead ∨ request.code = transCodeSeqRead then
    let read :=
      avalon.readBurst request.stride (request.size / 4) request.addr bus
    (bytesOf read.1, read.2)
  else if request.code = transCodeWrite ∨
      request.code = transCodeSeqWrite then
    ([request.code ^^^ 0x80, 0] ++ toBytesBE 2 request.size,
      avalon.writeBurst request.stride request.data request.addr bus)
  else
    ([request.code ^^^ 0x80, 0, 0, 0], bus)

/-! ## The slave -/

/--
A slave, with the packets it has received (those which are no request among
them) and the response it is to send.
-/
structure Slave (Bus : Type) where
  bus : Bus
  received : List (Option Request)
  response : Option (List Byte)

/-- The slave receives one packet. -/
def Slave.accept (avalon : Avalon Bus) (slave : Slave Bus)
    (payload : List Byte) : Slave Bus :=
  match Request.decode payload with
  | none => { slave with received := slave.received ++ [none] }
  | some request =>
      let executed := avalon.execute request slave.bus
      { bus := executed.2
        received := slave.received ++ [some request]
        response := some executed.1 }

/-- The slave receives the bytes of one transfer. -/
def Slave.receive (avalon : Avalon Bus) (slave : Slave Bus)
    (bytes : List Byte) : Slave Bus :=
  (packetsIn bytes).foldl (Slave.accept avalon)
    { slave with response := none }

/-! ## The transport -/

/--
The bytes on the wire, of a buffer.  Words are sent with the most significant
byte first.
-/
def onWire (wordLen : Nat) (buf : List Byte) : List Byte :=
  if wordLen = 4 then swab32Words buf else buf

/-- The word has something for the packet layer. -/
def Brings (started : Bool) (word : List Byte) : Prop :=
  if started then ∃ byte ∈ word, byte ≠ phyIdle else pktSop ∈ word

instance (started : Bool) (word : List Byte) :
    Decidable (Brings started word) := by
  unfold Brings
  infer_instance

variable {Env : Type}

/--
The controller reads these words, within the timeouts: a word with nothing in
it which is read past the deadline is followed by one with something in it.
-/
def Delivers (spi : SpiDevice Env) (wordLen : Nat) :
    BitVec 64 → Bool → Bool → List (List Byte) → Env → Prop
  | _, _, _, [], _ => True
  | deadline, started, late, word :: rest, env =>
      ∃ next,
        spi.spiRead wordLen env = (.ok (onWire wordLen word), next) ∧
          let now := spi.jiffies next
          (Brings started word →
            Delivers spi wordLen (now.1 + spi.xferTimeout) true false rest
              now.2) ∧
          (¬ Brings started word →
            late = false ∧
              Delivers spi wordLen deadline started
                (timeAfter now.1 deadline) rest now.2)

/--
From here on the slave answers with the response, with idle bytes anywhere,
behind bytes which do not begin a packet.
-/
def Answers (spi : SpiDevice Env) (wordLen : Nat) (response : List Byte)
    (env : Env) : Prop :=
  ∃ words junk coded tail,
    words.flatten = junk ++ coded ++ tail ∧
      (∀ word ∈ words, word.length = wordLen) ∧
      pktSop ∉ junk ∧
      coded.filter (· ≠ phyIdle) = layered response ∧
      let now := spi.jiffies env
      Delivers spi wordLen (now.1 + spi.xferTimeout) false false words now.2

/-- The slave behind the controller conforms to the protocol. -/
structure Conforming (spi : SpiDevice Env) (wordLen : Nat)
    (avalon : Avalon Bus) (slave : Env → Slave Bus) : Prop where
  write : ∀ bytes env,
    ∃ next, spi.spiWrite bytes env = (none, next) ∧
      slave next = (slave env).receive avalon (onWire wordLen bytes)
  answers : ∀ bytes env response,
    (slave (spi.spiWrite bytes env).2).response = some response →
      Answers spi wordLen response (spi.spiWrite bytes env).2
  read : ∀ env,
    (slave (spi.spiRead wordLen env).2).received = (slave env).received ∧
      (slave (spi.spiRead wordLen env).2).bus = (slave env).bus
  jiffies : ∀ env,
    (slave (spi.jiffies env).2).received = (slave env).received ∧
      (slave (spi.jiffies env).2).bus = (slave env).bus

end LinuxDfl.Spi

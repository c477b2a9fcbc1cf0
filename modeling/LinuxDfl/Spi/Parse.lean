import LinuxDfl.Spi.Rounds

/-!
# The parser accepts its grammar

On words which are delivered in time the receiver succeeds on the complete
packets of the grammar, with their data, and fails on its violations.  The
bytes behind the decision do not matter, nor how the bytes are cut into words.
-/

namespace LinuxDfl.Spi

open LinuxDfl.Kernel
open LinuxDfl.Lib.LittleEndian
open LinuxDfl.Lib.ByteStore

variable {Env : Type}

/-! ## The call -/

/-- The head of the loop in its first round. -/
def RxHead.start (spi : SpiDevice Env) (br : SpiAvmmBridge) (env : Env) :
    RxHead Env :=
  let now := spi.jiffies env
  ⟨PhyRx.start br.transBuf, br.phyBuf, now.1 + spi.xferTimeout, false, now.2⟩

/-- The caller's view of the result, with the data of a packet. -/
def callerView : Option Errno × SpiAvmmBridge × Env → Except Errno (List Byte)
  | (none, br, _) => .ok (load br.transBuf 0 br.transLen)
  | (some ret, _, _) => .error ret

/-- What the receiver returns when it has read these words, if it does. -/
def parsed (spi : SpiDevice Env) (br : SpiAvmmBridge)
    (words : List (List Byte)) (env : Env) :
    Option (Except Errno (List Byte)) :=
  (brDoRxAndPktPhyParse spi words.length br env).map callerView

/-- The data of a packet on which the parser has finished. -/
def PhyRx.data (rx : PhyRx) : List Byte :=
  load rx.transBuf 0 (rx.tb.getD 0)

theorem parsed_eq_rxRounds (spi : SpiDevice Env) (br : SpiAvmmBridge)
    (words : List (List Byte)) (env : Env) :
    parsed spi br words env =
      match rxRounds spi br words.length (RxHead.start spi br env) with
      | .inl _ => none
      | .inr (none, rx, _, _) => some (.ok rx.data)
      | .inr (some ret, _, _, _) => some (.error ret) := by
  have loop :=
    phyRxLoop_eq_rxRounds spi br words.length (RxHead.start spi br env)
  simp only [RxHead.start, PhyRx.start] at loop
  rw [parsed, brDoRxAndPktPhyParse]
  simp only [loop, RxHead.start, PhyRx.start]
  rcases rxRounds _ _ _ _ with head | ⟨_ | ret, rx, buf, env⟩ <;> rfl

/-- The controller reads these words, each of the bridge's length, in time. -/
structure Received (spi : SpiDevice Env) (br : SpiAvmmBridge)
    (words : List (List Byte)) (env : Env) : Prop where
  lengths : ∀ word ∈ words, word.length = br.wordLen
  inTime : (RxHead.start spi br env).Delivers spi br words

/-! ## Room for the data -/

/-- No unfinished packet on the way through these bytes fills the buffer. -/
def HasRoom (bytes : List Byte) : Prop :=
  ∀ before rest data, bytes = before ++ rest →
    Pending (clean before) data → data.length < transBufSize

/-- One of two beginnings of a stream is the beginning of the other. -/
theorem prefixes {left right rest rest' : List Byte}
    (same : left ++ rest = right ++ rest') :
    (∃ more, right = left ++ more) ∨ ∃ more, left = right ++ more := by
  rcases List.append_eq_append_iff.mp same with
    ⟨more, isRight, -⟩ | ⟨more, isLeft, -⟩
  · exact Or.inl ⟨more, isRight⟩
  · exact Or.inr ⟨more, isLeft⟩

/-- Room up to the decision is room at the head of every round. -/
theorem HasRoom.rounds {spi : SpiDevice Env} {br : SpiAvmmBridge}
    {words : List (List Byte)} {env : Env} {before rest : List Byte}
    (split : words.flatten = before ++ rest) (room : HasRoom before)
    (decides : ∀ mid, (PhyRx.start br.transBuf).feed before ≠ .parsed mid) :
    (RxHead.start spi br env).HasRoom words := by
  intro earlier later mid isWords _ goesOn
  have goesOn :
      (PhyRx.start br.transBuf).feed earlier.flatten = .parsed mid := goesOn
  have flatten : earlier.flatten ++ later.flatten = before ++ rest := by
    rw [← split, isWords, List.flatten_append]
  rcases prefixes flatten with ⟨more, isBefore⟩ | ⟨more, isEarlier⟩
  · obtain ⟨data, pending, tb⟩ := pending_of_feed goesOn
    rw [tb]
    exact room earlier.flatten more data isBefore pending
  · rw [isEarlier, PhyRx.feed_append] at goesOn
    cases outcome : (PhyRx.start br.transBuf).feed before with
    | parsed early => exact absurd outcome (decides early)
    | fault =>
        rw [outcome] at goesOn
        cases goesOn
    | finished next =>
        rw [outcome] at goesOn
        cases goesOn

theorem Items.length_le {coded data : List Byte}
    (items : Items coded data) : data.length ≤ coded.length := by
  induction items with
  | nil => exact Nat.le_refl _
  | channel _ ih => exact Nat.le_trans ih (Nat.le_add_right _ 2)
  | datum datum _ ih =>
      cases datum <;>
        simp only [List.length_cons, List.length_append, List.length_nil] <;>
        omega

theorem Pending.length_le {bytes data : List Byte}
    (pending : Pending bytes data) : data.length ≤ bytes.length := by
  cases pending with
  | silent => exact Nat.le_refl _
  | packet _ items _ =>
      have le := items.length_le
      simp only [List.length_append, List.length_cons]
      omega
  | channel _ items =>
      have le := items.length_le
      simp only [List.length_append, List.length_cons]
      omega

theorem length_clean_le (bytes : List Byte) :
    (clean bytes).length ≤ bytes.length :=
  calc
    (clean bytes).length
        ≤ (bytes.dropWhile (· ≠ pktSop)).length := List.length_filter_le _ _
    _ ≤ bytes.length := (List.dropWhile_suffix _).length_le

/-- Short streams have room. -/
theorem hasRoom_of_length {bytes : List Byte}
    (short : bytes.length < transBufSize) : HasRoom bytes := by
  rintro before rest data rfl pending
  have data := pending.length_le
  have cleaned := length_clean_le before
  rw [List.length_append] at short
  omega

/-! ## The grammar decides -/

/-- The receiver succeeds on a complete packet for which there is room. -/
theorem parsed_of_accepted {spi : SpiDevice Env} {br : SpiAvmmBridge}
    (generated : br.Generated) {words : List (List Byte)} {env : Env}
    (receives : Received spi br words env) {before rest data : List Byte}
    (split : words.flatten = before ++ rest)
    (accepted : Accepted (clean before) data) (room : HasRoom before) :
    parsed spi br words env = some (.ok data) := by
  have whole : AcceptedIn before data :=
    ⟨before, [], (List.append_nil before).symm, accepted⟩
  obtain ⟨buf, finishes⟩ := whole.feed br.transBuf
  have roomy : (RxHead.start spi br env).HasRoom words := by
    refine room.rounds split fun mid goesOn => ?_
    cases finishes.symm.trans goesOn
  have rounds :=
    rxRounds_of_delivers generated receives.lengths receives.inTime roomy
  have atEnd :
      (RxHead.start spi br env).rx.feed words.flatten =
        .finished (.within true false data.length (store buf 0 data)) := by
    show (PhyRx.start br.transBuf).feed words.flatten = _
    rw [split, PhyRx.feed_append, finishes]
  rw [atEnd] at rounds
  obtain ⟨phyBuf, last, returns⟩ := rounds
  have loaded : load (store buf 0 data) 0 data.length = data :=
    (holds_store buf 0 data).load_eq
  rw [parsed_eq_rxRounds, returns]
  exact congrArg (fun data => some (Except.ok data)) loaded

/-- The receiver fails on a violation. -/
theorem parsed_of_rejected {spi : SpiDevice Env} {br : SpiAvmmBridge}
    (generated : br.Generated) {words : List (List Byte)} {env : Env}
    (receives : Received spi br words env)
    (rejected : RejectedIn words.flatten) :
    parsed spi br words env = some (.error .efault) := by
  obtain ⟨rx, buf, last, returns⟩ :=
    rxRounds_of_fault generated receives.lengths receives.inTime
      (rejected.feed br.transBuf)
  rw [parsed_eq_rxRounds, returns]

/-- The receiver succeeds only on a complete packet. -/
theorem acceptedIn_of_parsed {spi : SpiDevice Env} {br : SpiAvmmBridge}
    (generated : br.Generated) {words : List (List Byte)} {env : Env}
    (receives : Received spi br words env) {data : List Byte}
    (succeeds : parsed spi br words env = some (.ok data)) :
    AcceptedIn words.flatten data := by
  rw [parsed_eq_rxRounds] at succeeds
  rcases returns :
      rxRounds spi br words.length (RxHead.start spi br env) with
    head | ⟨_ | ret, rx, phyBuf, last⟩
  · rw [returns] at succeeds
    cases succeeds
  · rw [returns] at succeeds
    have finishes :=
      feed_of_rxRounds generated receives.lengths receives.inTime returns
    obtain ⟨data', buf, accepted, isRx⟩ := acceptedIn_of_feed finishes
    have same : rx.data = data := by
      have both := Option.some.inj succeeds
      exact Except.ok.inj both
    have loaded : rx.data = data' := by
      rw [isRx]
      exact (holds_store buf 0 data').load_eq
    rw [← same, loaded]
    exact accepted
  · rw [returns] at succeeds
    cases succeeds

/-- Two streams are decided at the same byte, with room up to it. -/
def DecidedTogether (left right : List Byte) : Prop :=
  ∃ before rest rest', left = before ++ rest ∧ right = before ++ rest' ∧
    (Rejected (clean before) ∨
      (∃ data, Accepted (clean before) data) ∧ HasRoom before)

/--
The receiver succeeds if and only if there is a complete packet, with its
data; it fails on a violation; and its result is the same for every stream
which is the same up to the byte which decides, however it is cut into words.
-/
theorem parsed_iff_grammar
    {spi : SpiDevice Env}
    {br : SpiAvmmBridge}
    (generated : br.Generated)
    {words : List (List Byte)}
    {env : Env}
    (receives : Received spi br words env) :
    (∀ data,
      (∀ before rest, words.flatten = before ++ rest →
        Accepted (clean before) data → HasRoom before) →
      (parsed spi br words env = some (.ok data) ↔
        AcceptedIn words.flatten data)) ∧
      (RejectedIn words.flatten →
        parsed spi br words env = some (.error .efault)) ∧
      ∀ {Other : Type} {other : SpiDevice Other} {bridge : SpiAvmmBridge}
        {cut : List (List Byte)} {there : Other},
        bridge.Generated → Received other bridge cut there →
          DecidedTogether words.flatten cut.flatten →
            parsed other bridge cut there = parsed spi br words env := by
  constructor
  · intro data room
    constructor
    · exact acceptedIn_of_parsed generated receives
    · rintro ⟨before, rest, split, accepted⟩
      exact
        parsed_of_accepted generated receives split accepted
          (room before rest split accepted)
  constructor
  · exact parsed_of_rejected generated receives
  · rintro Other other bridge cut there alsoGenerated alsoReceives
      ⟨before, rest, rest', split, split', rejected | ⟨⟨data, accepted⟩, room⟩⟩
    · rw [parsed_of_rejected generated receives ⟨before, rest, split, rejected⟩]
      exact
        parsed_of_rejected alsoGenerated alsoReceives
          ⟨before, rest', split', rejected⟩
    · rw [parsed_of_accepted generated receives split accepted room]
      exact
        parsed_of_accepted alsoGenerated alsoReceives split' accepted room

/-! ## Words which are still read -/

/-- At the head of each round which reads one of these words there is room. -/
def StillReading (words : List (List Byte)) : Prop :=
  ∀ earlier later, words = earlier ++ later → later ≠ [] →
    ∃ data, Pending (clean earlier.flatten) data ∧ data.length < transBufSize

theorem StillReading.hasRoom {spi : SpiDevice Env} {br : SpiAvmmBridge}
    {env : Env} {words : List (List Byte)} (reading : StillReading words) :
    (RxHead.start spi br env).HasRoom words := by
  intro earlier later mid split nonempty goesOn
  obtain ⟨data, pending, fits⟩ := reading earlier later split nonempty
  obtain ⟨same, parsed, count⟩ := pending.feed_clean br.transBuf
  obtain rfl := RxByte.parsed.inj (parsed.symm.trans goesOn)
  omega

theorem StillReading.left {words more : List (List Byte)}
    (reading : StillReading (words ++ more)) : StillReading words := by
  rintro earlier later rfl nonempty
  refine reading earlier (later ++ more) (List.append_assoc _ _ _) ?_
  exact List.append_ne_nil_of_left_ne_nil nonempty more

/-- The loop still reads at a head which it has come to with room left. -/
theorem stillReading_of_parsed {spi : SpiDevice Env} {br : SpiAvmmBridge}
    {env : Env} {words : List (List Byte)} {last : PhyRx}
    (room : (RxHead.start spi br env).HasRoom words)
    (parsed : (PhyRx.start br.transBuf).feed words.flatten = .parsed last)
    (notFull : last.tb.getD 0 < transBufSize) (word : List Byte) :
    StillReading (words ++ [word]) := by
  intro earlier later split nonempty
  obtain ⟨others, same, isLater⟩ :
      ∃ others same, later = others ++ [same] :=
    ⟨_, _, (List.dropLast_append_getLast nonempty).symm⟩
  rw [isLater, ← List.append_assoc] at split
  obtain ⟨isWords, -⟩ := List.append_inj' split rfl
  have whole := parsed
  rw [isWords, List.flatten_append, PhyRx.feed_append] at whole
  cases outcome : (PhyRx.start br.transBuf).feed earlier.flatten with
  | fault =>
      rw [outcome] at whole
      cases whole
  | finished next =>
      rw [outcome] at whole
      cases whole
  | parsed mid =>
      obtain ⟨data, pending, count⟩ := pending_of_feed outcome
      have fits : mid.tb.getD 0 < transBufSize := by
        by_cases atEnd : others = []
        · subst atEnd
          rw [outcome] at whole
          obtain rfl := RxByte.parsed.inj whole
          exact notFull
        · exact room earlier others mid isWords atEnd outcome
      exact ⟨data, pending, by omega⟩

/-! ## A replayed answer -/

/--
A controller which reads these words one by one, and never waits; a word of
another length than the one asked for is an error.
-/
def replay : SpiDevice (List (List Byte)) where
  spiWrite := fun _ words => (none, words)
  spiRead := fun wordLen words =>
    match words with
    | [] => (.error .eio, [])
    | word :: rest =>
        if word.length = wordLen then (.ok (onWire wordLen word), rest)
        else (.error .eio, rest)
  jiffies := fun words => (0, words)
  xferTimeout := 1

theorem delivers_replay {wordLen : Nat} {words : List (List Byte)}
    (lengths : ∀ word ∈ words, word.length = wordLen) (started : Bool) :
    Delivers replay wordLen 1 started false words words := by
  induction words generalizing started with
  | nil => trivial
  | cons word words ih =>
      obtain ⟨length, lengths⟩ := List.forall_mem_cons.mp lengths
      have notAfter : timeAfter 0 1 = false := by decide
      refine ⟨words, if_pos length, fun _ => ih lengths true, fun _ => ?_⟩
      refine ⟨rfl, ?_⟩
      show Delivers replay wordLen 1 started (timeAfter 0 1) words words
      rw [notAfter]
      exact ih lengths started

/-- A bridge with these words' length, before its first transfer. -/
def byteReader : SpiAvmmBridge where
  wordLen := 1
  transLen := 0
  phyLen := 0
  transBuf := fun _ => 0
  phyBuf := fun _ => 0
  swapWords := none

/-- The same bridge for words of four bytes. -/
def wordReader : SpiAvmmBridge :=
  { byteReader with wordLen := 4, swapWords := some brSwapWords32 }

theorem wordReader_generated : wordReader.Generated :=
  Or.inr ⟨rfl, rfl⟩

theorem received_replay {words : List (List Byte)}
    (lengths : ∀ word ∈ words, word.length = 4) :
    Received replay wordReader words words :=
  ⟨lengths, delivers_replay lengths false⟩

/-- Data of two bytes, with a restart, an idle byte and a byte too many. -/
def answer : List (List Byte) :=
  [[pktSop, 5, pktSop, pktChannel], [0, pktEsc, phyIdle, 1],
    [pktEop, 2, 9, phyIdle]]

theorem answer_parsed :
    parsed replay wordReader answer answer = some (.ok [0x21, 2]) := by
  have lengths : ∀ word ∈ answer, word.length = 4 := by decide
  have grammar :=
    parsed_iff_grammar wordReader_generated (received_replay lengths)
  have plain : Plain 5 ∧ Plain 1 ∧ Plain 2 := by
    refine ⟨⟨?_, ?_⟩, ⟨?_, ?_⟩, ⟨?_, ?_⟩⟩ <;> decide
  have first : Items [5] [5] :=
    Items.datum (Datum.plain plain.1) Items.nil
  have restarted : Abandoned [pktSop, 5] :=
    Abandoned.packet Abandoned.none first Unfinished.items
  have second : Items [pktChannel, 0, pktEsc, 1] [1 ^^^ 0x20] :=
    Items.channel
      (Items.datum (Datum.escaped (Or.inl rfl) plain.2.1) Items.nil)
  have accepted :=
    Accepted.packet restarted second (Datum.plain plain.2.2)
  refine (grammar.1 _ fun before rest split _ => ?_).mpr ?_
  · refine hasRoom_of_length ?_
    have short := congrArg List.length split
    rw [List.length_append] at short
    have total : answer.flatten.length = 12 := by decide
    have size : transBufSize = 1024 := by decide
    omega
  · refine ⟨answer.flatten.take 10, answer.flatten.drop 10,
      (List.take_append_drop _ _).symm, ?_⟩
    exact accepted

end LinuxDfl.Spi

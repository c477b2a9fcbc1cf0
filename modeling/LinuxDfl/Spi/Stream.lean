import LinuxDfl.Spi.Grammar
import LinuxDfl.Spi.Receive

/-!
# The parser on a stream

What the inner loop makes of a stream of bytes, however it is cut into words.
It goes on exactly while the stream is unfinished, and it finishes with the
data of the packet.
-/

namespace LinuxDfl.Spi

open LinuxDfl.Kernel
open LinuxDfl.Lib.LittleEndian
open LinuxDfl.Lib.ByteStore

/-- The inner loop over bytes which may belong to several words. -/
@[simp]
def PhyRx.feed (rx : PhyRx) : List Byte → RxByte
  | [] => .parsed rx
  | byte :: rest =>
      match phyRxByte rx byte with
      | none => rx.feed rest
      | some (.parsed mid) => mid.feed rest
      | some .fault => .fault
      | some (.finished next) => .finished next

/-- The parser before the first byte. -/
def PhyRx.start (transBuf : Storage) : PhyRx :=
  ⟨false, false, false, none, transBuf⟩

/-! ## Bytes behind each other -/

theorem PhyRx.feed_append (rx : PhyRx) (left right : List Byte) :
    rx.feed (left ++ right) =
      match rx.feed left with
      | .parsed mid => mid.feed right
      | .fault => .fault
      | .finished next => .finished next := by
  induction left generalizing rx with
  | nil => rfl
  | cons byte left ih =>
      simp only [List.cons_append, PhyRx.feed]
      cases phyRxByte rx byte with
      | none => exact ih rx
      | some outcome =>
          cases outcome with
          | parsed mid => exact ih mid
          | fault => rfl
          | finished next => rfl

theorem PhyRx.feed_append_of_parsed {rx mid : PhyRx} {left : List Byte}
    (parsed : rx.feed left = .parsed mid) (right : List Byte) :
    rx.feed (left ++ right) = mid.feed right := by
  rw [PhyRx.feed_append, parsed]

theorem PhyRx.feed_cons_of_parsed {rx mid : PhyRx} {byte : Byte}
    (parsed : phyRxByte rx byte = some (.parsed mid)) (rest : List Byte) :
    rx.feed (byte :: rest) = mid.feed rest := by
  rw [PhyRx.feed, parsed]

theorem PhyRx.feed_of_dropped {rx : PhyRx} {byte : Byte}
    (dropped : phyRxByte rx byte = none) (rest : List Byte) :
    rx.feed (byte :: rest) = rx.feed rest := by
  rw [PhyRx.feed, dropped]

/-- Idle bytes change nothing. -/
theorem PhyRx.feed_filter (rx : PhyRx) (bytes : List Byte) :
    rx.feed (bytes.filter (· ≠ phyIdle)) = rx.feed bytes := by
  induction bytes generalizing rx with
  | nil => rfl
  | cons byte bytes ih =>
      by_cases idle : byte = phyIdle
      · subst idle
        rw [List.filter_cons_of_neg (by simp),
          rx.feed_of_dropped (phyRxByte_idle rx)]
        exact ih rx
      · rw [List.filter_cons_of_pos (by simpa using idle)]
        simp only [PhyRx.feed, ih]

/-- Nor do the bytes before the first beginning of a packet. -/
theorem PhyRx.feed_clean {rx : PhyRx} (noTb : rx.tb = none)
    (bytes : List Byte) : rx.feed (clean bytes) = rx.feed bytes := by
  rw [clean, PhyRx.feed_filter]
  induction bytes with
  | nil => rfl
  | cons byte bytes ih =>
      by_cases sop : byte = pktSop
      · rw [List.dropWhile_cons_of_neg (by simpa using sop)]
      · rw [List.dropWhile_cons_of_pos (by simpa using sop), ih]
        refine (rx.feed_of_dropped ?_ bytes).symm
        rw [phyRxByte, if_pos ⟨noTb, sop⟩]

/-! ## Words -/

/-- The outcome for a word whose bytes have this outcome. -/
@[simp]
def RxByte.inWord (validWord : Bool) : RxByte → RxWord
  | .parsed rx => .more validWord rx
  | .fault => .fault
  | .finished rx => .finished rx

/-- The parser has begun a packet once it has taken a byte. -/
theorem phyRxByte_started {rx mid : PhyRx} {byte : Byte}
    (takes : phyRxByte rx byte = some (.parsed mid)) :
    mid.tb.isSome = true := by
  obtain ⟨begins, parsed⟩ := phyRxByte_eq_some takes
  by_cases sop : byte = pktSop
  · rw [sop] at parsed
    rw [phyRxValidByte_sop parsed]
    rfl
  · cases tb : rx.tb with
    | none => exact absurd (begins tb) sop
    | some n =>
        obtain ⟨m, atMid, -⟩ := phyRxValidByte_parsed parsed tb sop
        rw [atMid]
        rfl

/-- The parser takes a byte if and only if there is something in it. -/
theorem phyRxByte_brings {rx : PhyRx} {byte : Byte} {outcome : RxByte}
    (takes : phyRxByte rx byte = some outcome) :
    Brings rx.tb.isSome [byte] := by
  by_contra nothing
  rw [(phyRxByte_eq_none_iff rx byte).mpr nothing] at takes
  cases takes

theorem not_brings_nil (started : Bool) : ¬ Brings started [] := by
  cases started <;> simp [Brings]

/-- The inner loop takes a word for a valid one if there is something in it. -/
theorem phyRxWord_eq_feed (word : List Byte) (validWord : Bool) (rx : PhyRx) :
    phyRxWord word validWord rx =
      (rx.feed word).inWord
        (validWord || decide (Brings rx.tb.isSome word)) := by
  induction word generalizing rx validWord with
  | nil => simp [phyRxWord, PhyRx.feed, RxByte.inWord, not_brings_nil]
  | cons byte word ih =>
      cases takes : phyRxByte rx byte with
      | none =>
          have brings :=
            brings_cons rx.tb.isSome byte word
              ((phyRxByte_eq_none_iff rx byte).mp takes)
          rw [phyRxWord, takes, rx.feed_of_dropped takes]
          simp only [brings]
          exact ih validWord rx
      | some outcome =>
          have brings := (phyRxByte_brings takes).cons word
          rw [phyRxWord, takes, PhyRx.feed, takes]
          simp only [brings, decide_true, Bool.or_true]
          cases outcome with
          | parsed mid =>
              have next := ih true mid
              rwa [Bool.true_or] at next
          | fault => rfl
          | finished next => rfl

/-- A packet has begun if there was something in the bytes. -/
theorem PhyRx.feed_started {rx mid : PhyRx} {word : List Byte}
    (parsed : rx.feed word = .parsed mid) :
    mid.tb.isSome =
      (rx.tb.isSome || decide (Brings rx.tb.isSome word)) := by
  induction word generalizing rx with
  | nil =>
      obtain rfl := RxByte.parsed.inj parsed
      simp [not_brings_nil]
  | cons byte word ih =>
      cases takes : phyRxByte rx byte with
      | none =>
          have brings :=
            brings_cons rx.tb.isSome byte word
              ((phyRxByte_eq_none_iff rx byte).mp takes)
          rw [rx.feed_of_dropped takes] at parsed
          simp only [brings]
          exact ih parsed
      | some outcome =>
          have brings := (phyRxByte_brings takes).cons word
          rw [PhyRx.feed, takes] at parsed
          simp only [brings, decide_true, Bool.or_true]
          cases outcome with
          | parsed next =>
              rw [ih parsed, phyRxByte_started takes, Bool.true_or]
          | fault => cases parsed
          | finished next => cases parsed

/-! ## The parts of a packet -/

/-- A beginning is taken anywhere but in place of a channel number. -/
theorem phyRxByte_sop {rx : PhyRx} (noChannel : rx.channelFound = false) :
    phyRxByte rx pktSop = some (.parsed (.within false false 0 rx.transBuf)) := by
  have notIdle : pktSop ≠ phyIdle := by decide
  obtain ⟨eop, channel, esc, tb, buf⟩ := rx
  obtain rfl : channel = false := noChannel
  rw [phyRxByte, if_neg (fun before => before.2 rfl), if_neg notIdle]
  rfl

/-- A datum is recorded; behind the marker it is the last one. -/
theorem Datum.feed {code : List Byte} {byte : Byte} (datum : Datum code byte)
    (ending : Bool) (tb : Nat) (buf : Storage) (rest : List Byte) :
    let recorded := PhyRx.within ending false (tb + 1) (store buf tb [byte])
    (PhyRx.within ending false tb buf).feed (code ++ rest) =
      if ending then .finished recorded else recorded.feed rest := by
  cases datum with
  | plain plain =>
      have takes := phyRxByte_plain plain.notPkt plain.notPhy ending false tb buf
      simp only [List.cons_append, PhyRx.feed, takes]
      cases ending <;> rfl
  | escaped isEscape plain =>
      have notes := phyRxByte_escape isEscape ending tb buf
      have takes := phyRxByte_plain plain.notPkt plain.notPhy ending true tb buf
      simp only [List.cons_append, PhyRx.feed, notes, takes]
      cases ending <;> rfl

/-- The data of the items are recorded, and channel numbers are dropped. -/
theorem Items.feed {coded data : List Byte} (items : Items coded data)
    (tb : Nat) (buf : Storage) (rest : List Byte) :
    (PhyRx.within false false tb buf).feed (coded ++ rest) =
      (PhyRx.within false false (tb + data.length) (store buf tb data)).feed
        rest := by
  induction items generalizing tb buf with
  | nil => rw [store_nil]; rfl
  | channel items ih => exact ih tb buf
  | @datum code coded data byte datum items ih =>
      have takes := datum.feed false tb buf (coded ++ rest)
      have stored := store_append buf tb [byte] data
      rw [List.length_singleton, List.singleton_append] at stored
      simp only [Bool.false_eq_true, if_false] at takes
      rw [List.append_assoc, takes, ih, stored, List.length_cons]
      congr 2
      omega

/-- Behind an unfinished packet the parser expects no channel number. -/
theorem Unfinished.feed {tail : List Byte} (unfinished : Unfinished tail)
    (tb : Nat) (buf : Storage) :
    ∃ ending escaping,
      (PhyRx.within false false tb buf).feed tail =
        .parsed (.within ending escaping tb buf) := by
  cases unfinished with
  | items => exact ⟨false, false, rfl⟩
  | escape isEscape =>
      refine ⟨false, true, ?_⟩
      rw [PhyRx.feed, phyRxByte_escape isEscape]
      rfl
  | ending => exact ⟨true, false, rfl⟩
  | endingEscape isEscape =>
      have marker :
          phyRxByte (.within false false tb buf) pktEop =
            some (.parsed (.within true false tb buf)) := rfl
      refine ⟨true, true, ?_⟩
      rw [PhyRx.feed_cons_of_parsed marker, PhyRx.feed,
        phyRxByte_escape isEscape]
      rfl

/-- Behind a channel marker only the number zero is taken. -/
theorem phyRxByte_number {number : Byte} (nonzero : number ≠ 0)
    (notIdle : number ≠ phyIdle) (tb : Nat) (buf : Storage) :
    phyRxByte ⟨false, true, false, some tb, buf⟩ number = some .fault := by
  rw [phyRxByte, if_neg (fun before => Option.some_ne_none _ before.1),
    if_neg notIdle, phyRxValidByte, if_pos rfl, if_pos nonzero]

/-- Behind an escape, escapes and markers are not taken. -/
theorem phyRxByte_escaped_fault {byte : Byte}
    (special : IsEscape byte ∨ IsMarker byte) (ending : Bool) (tb : Nat)
    (buf : Storage) :
    phyRxByte (.within ending true tb buf) byte = some .fault := by
  rcases special with (rfl | rfl) | rfl | rfl <;> cases ending <;> rfl

theorem phyRxByte_ending_fault {byte : Byte} (isMarker : IsMarker byte)
    (escaping : Bool) (tb : Nat) (buf : Storage) :
    phyRxByte (.within true escaping tb buf) byte = some .fault := by
  rcases isMarker with rfl | rfl <;> cases escaping <;> rfl

/-- A violation is noticed at its last byte. -/
theorem Violation.feed {fault : List Byte} (violation : Violation fault)
    (notIdle : phyIdle ∉ fault) (tb : Nat) (buf : Storage)
    (rest : List Byte) :
    (PhyRx.within false false tb buf).feed (fault ++ rest) = .fault := by
  have channel :
      phyRxByte (.within false false tb buf) pktChannel =
        some (.parsed ⟨false, true, false, some tb, buf⟩) := rfl
  have eop :
      phyRxByte (.within false false tb buf) pktEop =
        some (.parsed (.within true false tb buf)) := rfl
  cases violation with
  | @channelNumber number nonzero =>
      have expected : number ≠ phyIdle := by
        rintro rfl
        simp at notIdle
      simp only [List.cons_append, PhyRx.feed, channel,
        phyRxByte_number nonzero expected]
  | twoEscapes isEscape isAgain =>
      simp only [List.cons_append, PhyRx.feed,
        phyRxByte_escape isEscape, phyRxByte_escaped_fault (Or.inl isAgain)]
  | escapedMarker isEscape isMarker =>
      simp only [List.cons_append, PhyRx.feed,
        phyRxByte_escape isEscape, phyRxByte_escaped_fault (Or.inr isMarker)]
  | endingMarker isMarker =>
      simp only [List.cons_append, PhyRx.feed, eop,
        phyRxByte_ending_fault isMarker]
  | endingTwoEscapes isEscape isAgain =>
      simp only [List.cons_append, PhyRx.feed, eop,
        phyRxByte_escape isEscape, phyRxByte_escaped_fault (Or.inl isAgain)]
  | endingEscapedMarker isEscape isMarker =>
      simp only [List.cons_append, PhyRx.feed, eop,
        phyRxByte_escape isEscape, phyRxByte_escaped_fault (Or.inr isMarker)]

/-! ## Streams -/

/-- The parser takes a beginning behind abandoned packets. -/
theorem Abandoned.feed {before : List Byte} (abandoned : Abandoned before)
    (transBuf : Storage) (rest : List Byte) :
    ∃ buf,
      (PhyRx.start transBuf).feed (before ++ pktSop :: rest) =
        (PhyRx.within false false 0 buf).feed rest := by
  induction abandoned generalizing rest with
  | none =>
      exact ⟨transBuf, PhyRx.feed_cons_of_parsed (phyRxByte_sop rfl) rest⟩
  | @packet before coded data tail _ items unfinished ih =>
      obtain ⟨buf, before⟩ := ih (coded ++ (tail ++ pktSop :: rest))
      obtain ⟨ending, escaping, goesOn⟩ :=
        unfinished.feed (0 + data.length) (store buf 0 data)
      refine ⟨store buf 0 data, ?_⟩
      rw [List.append_assoc, List.cons_append, List.append_assoc, before,
        items.feed, PhyRx.feed_append_of_parsed goesOn]
      exact PhyRx.feed_cons_of_parsed (phyRxByte_sop rfl) rest

/-- The parser finishes on a complete packet, with its data. -/
theorem Accepted.feed {bytes data : List Byte}
    (accepted : Accepted bytes data) (transBuf : Storage) :
    ∃ buf,
      (PhyRx.start transBuf).feed bytes =
        .finished (.within true false data.length (store buf 0 data)) := by
  cases accepted with
  | @packet before coded code init last abandoned items datum =>
      obtain ⟨buf, begins⟩ :=
        abandoned.feed transBuf (coded ++ pktEop :: code)
      have marker :
          phyRxByte
              (.within false false (0 + init.length) (store buf 0 init))
              pktEop =
            some (.parsed
              (.within true false (0 + init.length) (store buf 0 init))) := rfl
      have ends :=
        datum.feed true (0 + init.length) (store buf 0 init) []
      rw [List.append_nil] at ends
      refine ⟨buf, ?_⟩
      rw [begins, items.feed, PhyRx.feed_cons_of_parsed marker, ends,
        if_pos rfl, store_append, List.length_append, List.length_singleton,
        Nat.zero_add]

/-- The parser fails on a violation. -/
theorem Rejected.feed {bytes : List Byte} (rejected : Rejected bytes)
    (noIdle : phyIdle ∉ bytes) (transBuf : Storage) :
    (PhyRx.start transBuf).feed bytes = .fault := by
  cases rejected with
  | @packet before coded data fault abandoned items violation =>
      obtain ⟨buf, begins⟩ := abandoned.feed transBuf (coded ++ fault)
      have notIdle : phyIdle ∉ fault := by
        intro member
        exact noIdle (by simp [member])
      have fails :=
        violation.feed notIdle (0 + data.length) (store buf 0 data) []
      rw [List.append_nil] at fails
      rw [begins, items.feed, fails]

/-- The parser goes on behind an unfinished stream. -/
theorem Pending.feed {bytes data : List Byte} (pending : Pending bytes data)
    (transBuf : Storage) :
    ∃ mid,
      (PhyRx.start transBuf).feed bytes = .parsed mid ∧
        mid.tb.getD 0 = data.length := by
  cases pending with
  | silent => exact ⟨_, rfl, rfl⟩
  | @packet before coded data tail abandoned items unfinished =>
      obtain ⟨buf, begins⟩ := abandoned.feed transBuf (coded ++ tail)
      obtain ⟨ending, escaping, goesOn⟩ :=
        unfinished.feed (0 + data.length) (store buf 0 data)
      refine
        ⟨.within ending escaping (0 + data.length) (store buf 0 data), ?_,
          Nat.zero_add _⟩
      rw [begins, items.feed, goesOn]
  | @channel before coded data abandoned items =>
      obtain ⟨buf, begins⟩ :=
        abandoned.feed transBuf (coded ++ [pktChannel])
      refine
        ⟨⟨false, true, false, some (0 + data.length), store buf 0 data⟩, ?_,
          Nat.zero_add _⟩
      rw [begins, items.feed]
      rfl

theorem phyIdle_notMem_clean (bytes : List Byte) : phyIdle ∉ clean bytes := by
  simp [clean]

/-- Bytes behind a complete packet are not looked at. -/
theorem AcceptedIn.feed {bytes data : List Byte}
    (accepted : AcceptedIn bytes data) (transBuf : Storage) :
    ∃ buf,
      (PhyRx.start transBuf).feed bytes =
        .finished (.within true false data.length (store buf 0 data)) := by
  obtain ⟨before, rest, rfl, accepted⟩ := accepted
  obtain ⟨buf, finishes⟩ := accepted.feed transBuf
  rw [PhyRx.feed_clean rfl] at finishes
  refine ⟨buf, ?_⟩
  rw [PhyRx.feed_append, finishes]

theorem RejectedIn.feed {bytes : List Byte} (rejected : RejectedIn bytes)
    (transBuf : Storage) : (PhyRx.start transBuf).feed bytes = .fault := by
  obtain ⟨before, rest, rfl, rejected⟩ := rejected
  have fails := rejected.feed (phyIdle_notMem_clean before) transBuf
  rw [PhyRx.feed_clean rfl] at fails
  rw [PhyRx.feed_append, fails]

theorem Pending.feed_clean {bytes data : List Byte}
    (pending : Pending (clean bytes) data) (transBuf : Storage) :
    ∃ mid,
      (PhyRx.start transBuf).feed bytes = .parsed mid ∧
        mid.tb.getD 0 = data.length := by
  obtain ⟨mid, parsed, tb⟩ := pending.feed transBuf
  rw [PhyRx.feed_clean rfl] at parsed
  exact ⟨mid, parsed, tb⟩

/-! ## What the outcome says about the stream -/

/-- The parser finishes only on a complete packet. -/
theorem acceptedIn_of_feed {transBuf : Storage} {bytes : List Byte}
    {next : PhyRx}
    (finishes : (PhyRx.start transBuf).feed bytes = .finished next) :
    ∃ data buf,
      AcceptedIn bytes data ∧
        next = .within true false data.length (store buf 0 data) := by
  rcases pending_or_decided bytes with
    ⟨data, pending⟩ | ⟨data, accepted⟩ | rejected
  · obtain ⟨mid, parsed, -⟩ := pending.feed_clean transBuf
    cases finishes.symm.trans parsed
  · obtain ⟨buf, finished⟩ := accepted.feed transBuf
    exact ⟨data, buf, accepted,
      RxByte.finished.inj (finishes.symm.trans finished)⟩
  · cases finishes.symm.trans (rejected.feed transBuf)

/-- The parser fails only on a violation. -/
theorem rejectedIn_of_feed {transBuf : Storage} {bytes : List Byte}
    (fails : (PhyRx.start transBuf).feed bytes = .fault) :
    RejectedIn bytes := by
  rcases pending_or_decided bytes with
    ⟨data, pending⟩ | ⟨data, accepted⟩ | rejected
  · obtain ⟨mid, parsed, -⟩ := pending.feed_clean transBuf
    cases fails.symm.trans parsed
  · obtain ⟨buf, finished⟩ := accepted.feed transBuf
    cases fails.symm.trans finished
  · exact rejected

/-- The parser goes on only while the stream is unfinished. -/
theorem pending_of_feed {transBuf : Storage} {bytes : List Byte}
    {mid : PhyRx} (parsed : (PhyRx.start transBuf).feed bytes = .parsed mid) :
    ∃ data, Pending (clean bytes) data ∧ mid.tb.getD 0 = data.length := by
  rcases pending_or_decided bytes with
    ⟨data, pending⟩ | ⟨data, accepted⟩ | rejected
  · obtain ⟨same, goesOn, tb⟩ := pending.feed_clean transBuf
    obtain rfl := RxByte.parsed.inj (parsed.symm.trans goesOn)
    exact ⟨data, pending, tb⟩
  · obtain ⟨buf, finished⟩ := accepted.feed transBuf
    cases parsed.symm.trans finished
  · cases parsed.symm.trans (rejected.feed transBuf)

end LinuxDfl.Spi

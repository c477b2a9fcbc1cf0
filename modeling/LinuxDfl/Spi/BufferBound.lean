import LinuxDfl.Spi.Parse

/-!
# Stores of the receiver

The receiver compares its position with the end of the buffer once for each
word.  All its stores are inside the buffer exactly if no word takes the data
of a packet from below the size of the buffer to above it; words of one byte
never do.
-/

namespace LinuxDfl.Spi

open LinuxDfl.Kernel
open LinuxDfl.Lib.LittleEndian
open LinuxDfl.Lib.ByteStore

variable {Env : Type}

/-! ## The stores of a word -/

/-- The index of `trans_buf` at which the byte is stored, if it is. -/
def phyRxStore (rx : PhyRx) (byte : Byte) : Option Nat :=
  if rx.tb = none ∧ byte ≠ pktSop then none
  else if byte = phyIdle ∨ rx.channelFound = true then none
  else if pktSpecial byte = true ∨ byte = phyEsc then none
  else some (rx.tb.getD 0)

/-- The indexes of the stores for a word, in their order. -/
def wordStores : List Byte → PhyRx → List Nat
  | [], _ => []
  | byte :: rest, rx =>
      (phyRxStore rx byte).toList ++
        match phyRxByte rx byte with
        | none => wordStores rest rx
        | some (.parsed mid) => wordStores rest mid
        | some .fault => []
        | some (.finished _) => []

/-- The stores for what follows a byte with this outcome. -/
def RxByte.stores (outcome : RxByte) (rest : List Byte) : List Nat :=
  match outcome with
  | .parsed mid => wordStores rest mid
  | .fault => []
  | .finished _ => []

/-- The parser behind a byte with this outcome. -/
def RxByte.feed (outcome : RxByte) (rest : List Byte) : RxByte :=
  match outcome with
  | .parsed mid => mid.feed rest
  | .fault => .fault
  | .finished next => .finished next

/-- The data which the parser has recorded since the last beginning. -/
def RxByte.count : RxByte → Nat
  | .parsed rx => rx.tb.getD 0
  | .fault => 0
  | .finished rx => rx.tb.getD 0

/-- The buffer behind the byte. -/
def RxByte.buffer : RxByte → Option Storage
  | .parsed rx => some rx.transBuf
  | .fault => none
  | .finished rx => some rx.transBuf

/--
A byte changes the buffer at the index of its store, which is behind the data
recorded so far; another byte leaves the buffer alone.
-/
theorem phyRxByte_store {rx : PhyRx} {byte : Byte} {outcome : RxByte}
    (takes : phyRxByte rx byte = some outcome) :
    match phyRxStore rx byte with
    | some index =>
        index = rx.tb.getD 0 ∧ outcome.count = index + 1 ∧
          ∃ datum,
            outcome.buffer = some (store rx.transBuf index [datum])
    | none =>
        outcome.count ≤ rx.tb.getD 0 ∧
          ∀ buffer, outcome.buffer = some buffer → buffer = rx.transBuf := by
  unfold phyRxByte at takes
  split_ifs at takes with before idle
  obtain rfl := Option.some.inj takes
  unfold phyRxStore phyRxValidByte
  rw [if_neg before]
  by_cases channel : rx.channelFound = true
  · rw [if_pos (Or.inr channel), if_pos channel]
    split_ifs <;> simp [RxByte.count, RxByte.buffer]
  rw [if_neg (not_or.mpr ⟨idle, channel⟩), if_neg channel]
  by_cases special : pktSpecial byte = true ∨ byte = phyEsc
  · rw [if_pos special]
    simp only [pktSpecial, Bool.or_eq_true, decide_eq_true_eq] at special
    rcases special with (((rfl | rfl) | rfl) | rfl) | rfl <;>
      cases rx.escFound <;> cases rx.eopFound <;>
      simp [RxByte.count, RxByte.buffer, pktSop, pktEop, pktChannel, pktEsc,
        phyEsc]
  · rw [if_neg special]
    simp only [pktSpecial, Bool.or_eq_true, decide_eq_true_eq, not_or]
      at special
    obtain ⟨⟨⟨⟨notSop, notEop⟩, notChannel⟩, notEsc⟩, notPhyEsc⟩ := special
    simp only [notSop, notEop, notChannel, notEsc, notPhyEsc, or_self,
      if_false]
    cases rx.eopFound <;> exact ⟨trivial, rfl, _, rfl⟩

theorem phyRxStore_of_dropped {rx : PhyRx} {byte : Byte}
    (dropped : phyRxByte rx byte = none) : phyRxStore rx byte = none := by
  unfold phyRxByte at dropped
  split_ifs at dropped with before idle
  · rw [phyRxStore, if_pos before]
  · rw [phyRxStore, if_neg before, if_pos (Or.inl idle)]

theorem wordStores_of_dropped {rx : PhyRx} {byte : Byte}
    (dropped : phyRxByte rx byte = none) (rest : List Byte) :
    wordStores (byte :: rest) rx = wordStores rest rx := by
  rw [wordStores, phyRxStore_of_dropped dropped, dropped]
  rfl

theorem wordStores_of_taken {rx : PhyRx} {byte : Byte} {outcome : RxByte}
    (takes : phyRxByte rx byte = some outcome) (rest : List Byte) :
    wordStores (byte :: rest) rx =
      (phyRxStore rx byte).toList ++ outcome.stores rest := by
  rw [wordStores, takes]
  cases outcome <;> rfl

theorem PhyRx.feed_of_taken {rx : PhyRx} {byte : Byte} {outcome : RxByte}
    (takes : phyRxByte rx byte = some outcome) (rest : List Byte) :
    rx.feed (byte :: rest) = outcome.feed rest := by
  rw [PhyRx.feed, takes]
  cases outcome <;> rfl

/-- The data recorded never exceed the limit while the word is parsed. -/
def CountsWithin (limit : Nat) (outcome : List Byte → RxByte)
    (word : List Byte) : Prop :=
  ∀ before rest, word = before ++ rest → (outcome before).count ≤ limit

theorem countsWithin_nil (limit : Nat) (outcome : List Byte → RxByte) :
    CountsWithin limit outcome [] ↔ (outcome []).count ≤ limit := by
  constructor
  · exact fun all => all [] [] rfl
  · intro first before rest split
    obtain ⟨rfl, -⟩ := List.append_eq_nil_iff.mp split.symm
    exact first

theorem countsWithin_cons (limit : Nat) (outcome : List Byte → RxByte)
    (byte : Byte) (word : List Byte) :
    CountsWithin limit outcome (byte :: word) ↔
      (outcome []).count ≤ limit ∧
        CountsWithin limit (fun before => outcome (byte :: before)) word := by
  constructor
  · intro all
    exact ⟨all [] _ rfl,
      fun before rest split => all (byte :: before) rest (by rw [split]; rfl)⟩
  · rintro ⟨first, others⟩ before rest split
    cases before with
    | nil => exact first
    | cons same before =>
        obtain ⟨rfl, behind⟩ := List.cons.inj split
        exact others before rest behind

/-- Nothing more is recorded behind the last byte. -/
theorem RxByte.countsWithin_of_end {limit : Nat} {outcome : RxByte}
    (ends : ∀ rest, outcome.feed rest = outcome)
    (fits : outcome.count ≤ limit) (word : List Byte) :
    CountsWithin limit outcome.feed word := by
  intro before rest _
  rw [ends]
  exact fits

/--
The stores of a word are below the limit if and only if the data recorded
never exceed it.
-/
theorem wordStores_lt_iff {limit : Nat} (word : List Byte) {rx : PhyRx}
    (within : rx.tb.getD 0 ≤ limit) :
    (∀ index ∈ wordStores word rx, index < limit) ↔
      CountsWithin limit rx.feed word := by
  induction word generalizing rx with
  | nil =>
      rw [countsWithin_nil]
      simp [wordStores, PhyRx.feed, RxByte.count, within]
  | cons byte word ih =>
      rw [countsWithin_cons]
      have first : (rx.feed []).count ≤ limit := within
      simp only [first, true_and]
      cases takes : phyRxByte rx byte with
      | none =>
          simp only [wordStores_of_dropped takes, rx.feed_of_dropped takes]
          exact ih within
      | some outcome =>
          have later (fits : outcome.count ≤ limit) :
              (∀ index ∈ outcome.stores word, index < limit) ↔
                CountsWithin limit outcome.feed word := by
            cases outcome with
            | parsed mid => exact ih fits
            | fault =>
                have ends := RxByte.countsWithin_of_end (fun _ => rfl) fits word
                simp [RxByte.stores, ends]
            | finished next =>
                have ends := RxByte.countsWithin_of_end (fun _ => rfl) fits word
                simp [RxByte.stores, ends]
          have stores := phyRxByte_store takes
          simp only [wordStores_of_taken takes, PhyRx.feed_of_taken takes]
          cases stored : phyRxStore rx byte with
          | none =>
              rw [stored] at stores
              exact later (Nat.le_trans stores.1 within)
          | some index =>
              rw [stored] at stores
              obtain ⟨-, count, -⟩ := stores
              simp only [Option.toList_some, List.singleton_append,
                List.forall_mem_cons]
              by_cases fits : index < limit
              · simp only [fits, true_and]
                exact later (by omega)
              · have exceeds : ¬ (outcome.feed []).count ≤ limit := by
                  have same : outcome.feed [] = outcome := by
                    cases outcome <;> rfl
                  rw [same, count]
                  omega
                constructor
                · exact fun all => absurd all.1 fits
                · exact fun all => absurd (all [] word rfl) exceeds

/-- Where a word stores nothing, it leaves the buffer as it is. -/
theorem buffer_of_notMem_wordStores {rx : PhyRx} {word : List Byte}
    {buffer : Storage} (isBuffer : (rx.feed word).buffer = some buffer)
    {position : Nat} (untouched : position ∉ wordStores word rx) :
    buffer position = rx.transBuf position := by
  induction word generalizing rx with
  | nil =>
      obtain rfl := Option.some.inj isBuffer
      rfl
  | cons byte word ih =>
      cases takes : phyRxByte rx byte with
      | none =>
          rw [wordStores_of_dropped takes] at untouched
          rw [rx.feed_of_dropped takes] at isBuffer
          exact ih isBuffer untouched
      | some outcome =>
          rw [wordStores_of_taken takes, List.mem_append, not_or] at untouched
          rw [PhyRx.feed_of_taken takes] at isBuffer
          have one (behind : Storage)
              (isBehind : outcome.buffer = some behind) :
              behind position = rx.transBuf position := by
            have stores := phyRxByte_store takes
            cases stored : phyRxStore rx byte with
            | none =>
                rw [stored] at stores
                rw [stores.2 behind isBehind]
            | some index =>
                rw [stored] at stores untouched
                obtain ⟨-, -, datum, isStore⟩ := stores
                obtain rfl := Option.some.inj (isStore.symm.trans isBehind)
                have other : position ≠ index := by
                  simpa using untouched.1
                rw [store, if_neg]
                simp only [List.length_singleton]
                omega
          cases outcome with
          | parsed mid =>
              exact (ih isBuffer untouched.2).trans (one mid.transBuf rfl)
          | fault => cases isBuffer
          | finished next => exact one buffer isBuffer

/-! ## The stores of a run -/

/-- The stores of one round. -/
def RxHead.stores (spi : SpiDevice Env) (br : SpiAvmmBridge)
    (head : RxHead Env) : List Nat :=
  if head.full then []
  else
    match spi.spiRead br.wordLen head.env with
    | (.error _, _) => []
    | (.ok word, _) =>
        let stored := store head.phyBuf 0 (word.take br.wordLen)
        let phyBuf := br.swapped stored br.wordLen
        wordStores (load phyBuf 0 br.wordLen) head.rx

/-- The stores of some rounds. -/
def loopStores (spi : SpiDevice Env) (br : SpiAvmmBridge) :
    Nat → RxHead Env → List Nat
  | 0, _ => []
  | count + 1, head =>
      head.stores spi br ++
        match rxRound spi br head with
        | .inl next => loopStores spi br count next
        | .inr _ => []

/-- However long the receiver runs, its stores are inside the buffer. -/
def StoresInside (spi : SpiDevice Env) (br : SpiAvmmBridge) (env : Env) :
    Prop :=
  ∀ fuel, ∀ index ∈ loopStores spi br fuel (RxHead.start spi br env),
    index < transBufSize

/-- Each store is one of a round which the loop comes to. -/
theorem mem_loopStores_iff {spi : SpiDevice Env} {br : SpiAvmmBridge}
    {head : RxHead Env} {index : Nat} :
    (∃ fuel, index ∈ loopStores spi br fuel head) ↔
      ∃ count next, rxRounds spi br count head = .inl next ∧
        index ∈ next.stores spi br := by
  constructor
  · rintro ⟨fuel, member⟩
    induction fuel generalizing head with
    | zero => cases member
    | succ fuel ih =>
        rw [loopStores, List.mem_append] at member
        rcases member with now | later
        · exact ⟨0, head, rfl, now⟩
        · cases round : rxRound spi br head with
          | inr result =>
              rw [round] at later
              cases later
          | inl next =>
              rw [round] at later
              obtain ⟨count, last, comes, member⟩ := ih later
              refine ⟨count + 1, last, ?_, member⟩
              rw [rxRounds, round]
              exact comes
  · rintro ⟨count, next, comes, member⟩
    refine ⟨count + 1, ?_⟩
    induction count generalizing head with
    | zero =>
        obtain rfl := Sum.inl.inj comes
        rw [loopStores, List.mem_append]
        exact Or.inl member
    | succ count ih =>
        rw [rxRounds] at comes
        cases round : rxRound spi br head with
        | inr result =>
            rw [round] at comes
            cases comes
        | inl mid =>
            rw [round] at comes
            rw [loopStores, round, List.mem_append]
            exact Or.inr (ih comes)

/-- The stores of a round in which a word is delivered. -/
theorem stores_of_delivers {spi : SpiDevice Env} {br : SpiAvmmBridge}
    (generated : br.Generated) {head : RxHead Env}
    (notFull : head.full = false) {word : List Byte}
    {rest : List (List Byte)} (length : word.length = br.wordLen)
    (delivers : head.Delivers spi br (word :: rest)) :
    head.stores spi br = wordStores word head.rx := by
  obtain ⟨atRead, reads, -⟩ := delivers
  have wire : (onWire br.wordLen word).length = br.wordLen := by
    rw [length_onWire, length]
  have arrives := word_arrives generated wire head.phyBuf
  rw [onWire_twice] at arrives
  simp only [RxHead.stores, notFull, Bool.false_eq_true, if_false, reads,
    arrives]

/-- A word with a store has something in it. -/
theorem brings_of_mem_wordStores {word : List Byte} {rx : PhyRx}
    {index : Nat} (member : index ∈ wordStores word rx) :
    Brings rx.tb.isSome word := by
  induction word with
  | nil => cases member
  | cons byte word ih =>
      cases takes : phyRxByte rx byte with
      | none =>
          have nothing := (phyRxByte_eq_none_iff rx byte).mp takes
          rw [wordStores_of_dropped takes] at member
          exact (brings_cons _ byte word nothing).mpr (ih member)
      | some outcome => exact (phyRxByte_brings takes).cons word

/-- A round with a store reads a word which stores there. -/
theorem delivers_of_mem_stores {spi : SpiDevice Env} {br : SpiAvmmBridge}
    (generated : br.Generated) (readsWords : ReadsWords spi br.wordLen)
    {head : RxHead Env} {index : Nat}
    (member : index ∈ head.stores spi br) :
    head.full = false ∧
      ∃ word, word.length = br.wordLen ∧ head.Delivers spi br [word] ∧
        index ∈ wordStores word head.rx := by
  unfold RxHead.stores at member
  cases full : head.full with
  | true =>
      rw [full] at member
      cases member
  | false =>
      simp only [full, Bool.false_eq_true, if_false] at member
      rcases reads : spi.spiRead br.wordLen head.env with ⟨ret | raw, atRead⟩
      · rw [reads] at member
        cases member
      · have length := readsWords _ _ _ reads
        rw [reads] at member
        simp only [word_arrives generated length] at member
        refine ⟨rfl, onWire br.wordLen raw, ?_, ?_, member⟩
        · rw [length_onWire, length]
        · exact
            delivers_of_read reads
              (Or.inl (brings_of_mem_wordStores member))

/-! ## The condition on the answer -/

/--
The last of these words takes the data of a packet beyond the buffer, while
the receiver still reads.
-/
def Overruns (words : List (List Byte)) (word : List Byte) : Prop :=
  StillReading (words ++ [word]) ∧
    ∃ before rest data, word = before ++ rest ∧
      (Pending (clean (words.flatten ++ before)) data ∨
        AcceptedIn (words.flatten ++ before) data) ∧
      transBufSize < data.length

theorem lt_count_iff (transBuf : Storage) (bytes : List Byte) (limit : Nat) :
    limit < ((PhyRx.start transBuf).feed bytes).count ↔
      ∃ data, (Pending (clean bytes) data ∨ AcceptedIn bytes data) ∧
        limit < data.length := by
  constructor
  · intro exceeds
    cases outcome : (PhyRx.start transBuf).feed bytes with
    | fault =>
        rw [outcome] at exceeds
        exact absurd exceeds (Nat.not_lt_zero limit)
    | parsed mid =>
        obtain ⟨data, pending, count⟩ := pending_of_feed outcome
        rw [outcome, RxByte.count, count] at exceeds
        exact ⟨data, Or.inl pending, exceeds⟩
    | finished next =>
        obtain ⟨data, buf, accepted, rfl⟩ := acceptedIn_of_feed outcome
        rw [outcome] at exceeds
        exact ⟨data, Or.inr accepted, exceeds⟩
  · rintro ⟨data, pending | accepted, exceeds⟩
    · obtain ⟨mid, outcome, count⟩ := pending.feed_clean transBuf
      rwa [outcome, RxByte.count, count]
    · obtain ⟨buf, outcome⟩ := accepted.feed transBuf
      rw [outcome]
      exact exceeds

/--
All stores of every run are inside the buffer if and only if no word of the
answer which is delivered takes the data of a packet beyond the buffer.
-/
theorem storesInside_iff
    {spi : SpiDevice Env}
    {br : SpiAvmmBridge}
    (generated : br.Generated)
    (readsWords : ReadsWords spi br.wordLen)
    (env : Env) :
    StoresInside spi br env ↔
      ∀ words word, Received spi br (words ++ [word]) env →
        ¬ Overruns words word := by
  constructor
  · rintro inside words word receives
      ⟨reading, before, rest, data, split, counted, exceeds⟩
    have delivers :
        (RxHead.start spi br env).Delivers spi br words :=
      delivers_of_append receives.inTime
    have lengths := List.forall_mem_append.mp receives.lengths
    obtain ⟨early, pending, fits⟩ :=
      reading words [word] rfl (List.cons_ne_nil _ _)
    obtain ⟨mid, parsed, count⟩ := pending.feed_clean br.transBuf
    have rounds :=
      rxRounds_of_delivers generated lengths.1 delivers reading.left.hasRoom
    rw [show (RxHead.start spi br env).rx.feed words.flatten = .parsed mid
      from parsed] at rounds
    obtain ⟨head, comes, rfl, continues⟩ := rounds
    have atHead := (continues [word]).mp receives.inTime
    have notFull : head.full = false := by
      rw [Bool.eq_false_iff, ne_eq, head.full_iff]
      omega
    have stores :=
      stores_of_delivers generated notFull
        (lengths.2 word List.mem_cons_self) atHead
    have within :
        CountsWithin transBufSize head.rx.feed word := by
      refine (wordStores_lt_iff word (by omega)).mp fun index member => ?_
      obtain ⟨fuel, stored⟩ :=
        mem_loopStores_iff.mpr ⟨_, head, comes, stores ▸ member⟩
      exact inside fuel index stored
    have tooMany :=
      (lt_count_iff br.transBuf (words.flatten ++ before) transBufSize).mpr
        ⟨data, counted, exceeds⟩
    rw [PhyRx.feed_append_of_parsed parsed] at tooMany
    exact Nat.not_lt.mpr (within before rest split) tooMany
  · intro never fuel index member
    obtain ⟨count, head, comes, stored⟩ :=
      mem_loopStores_iff.mp ⟨fuel, member⟩
    obtain ⟨words, -, lengths, room, parsed, continues⟩ :=
      words_of_rxRounds generated readsWords comes
    obtain ⟨notFull, word, length, delivers, inWord⟩ :=
      delivers_of_mem_stores generated readsWords stored
    have fits : head.rx.tb.getD 0 < transBufSize := by
      have notLe := mt head.full_iff.mpr (Bool.eq_false_iff.mp notFull)
      omega
    have parsed :
        (PhyRx.start br.transBuf).feed words.flatten = .parsed head.rx :=
      parsed
    refine
      (wordStores_lt_iff word (Nat.le_of_lt fits)).mpr ?_ index inWord
    intro before rest split
    by_contra exceeds
    refine never words word ⟨?_, (continues [word]).mpr delivers⟩ ⟨?_, ?_⟩
    · exact
        List.forall_mem_append.mpr
          ⟨lengths, List.forall_mem_singleton.mpr length⟩
    · exact stillReading_of_parsed room parsed fits word
    · rw [← PhyRx.feed_append_of_parsed parsed, Nat.not_le, lt_count_iff]
        at exceeds
      obtain ⟨data, counted, exceeds⟩ := exceeds
      exact ⟨before, rest, data, split, counted, exceeds⟩

/-- No byte adds more than one datum. -/
theorem PhyRx.count_feed_le (rx : PhyRx) (bytes : List Byte) :
    (rx.feed bytes).count ≤ rx.tb.getD 0 + bytes.length := by
  induction bytes generalizing rx with
  | nil => exact Nat.le_refl _
  | cons byte bytes ih =>
      rw [List.length_cons]
      cases takes : phyRxByte rx byte with
      | none =>
          rw [rx.feed_of_dropped takes]
          exact Nat.le_trans (ih rx) (by omega)
      | some outcome =>
          have one : outcome.count ≤ rx.tb.getD 0 + 1 := by
            have stores := phyRxByte_store takes
            cases stored : phyRxStore rx byte with
            | none =>
                rw [stored] at stores
                exact Nat.le_succ_of_le stores.1
            | some index =>
                rw [stored] at stores
                omega
          rw [PhyRx.feed_of_taken takes]
          cases outcome with
          | parsed mid =>
              have step : mid.tb.getD 0 ≤ rx.tb.getD 0 + 1 := one
              exact Nat.le_trans (ih mid) (by omega)
          | fault => exact Nat.zero_le _
          | finished next => exact Nat.le_trans one (by omega)

/-- Words of one byte are compared with the end of the buffer byte by byte. -/
theorem storesInside_of_bytes
    {spi : SpiDevice Env}
    {br : SpiAvmmBridge}
    (generated : br.Generated)
    (readsWords : ReadsWords spi br.wordLen)
    (bytes : br.wordLen = 1)
    (env : Env) : StoresInside spi br env := by
  intro fuel index member
  obtain ⟨count, head, comes, stored⟩ := mem_loopStores_iff.mp ⟨fuel, member⟩
  obtain ⟨notFull, word, length, -, inWord⟩ :=
    delivers_of_mem_stores generated readsWords stored
  have fits : head.rx.tb.getD 0 < transBufSize := by
    have notLe := mt head.full_iff.mpr (Bool.eq_false_iff.mp notFull)
    omega
  refine (wordStores_lt_iff word (Nat.le_of_lt fits)).mpr ?_ index inWord
  intro before rest split
  have le := head.rx.count_feed_le before
  have short := congrArg List.length split
  rw [List.length_append] at short
  omega

/-! ## A flood -/

theorem readsWords_replay (wordLen : Nat) : ReadsWords replay wordLen := by
  rintro (_ | ⟨word, rest⟩) raw next reads
  · cases reads
  · unfold replay at reads
    by_cases length : word.length = wordLen
    · simp only [if_pos length, Prod.mk.injEq, Except.ok.injEq] at reads
      rw [← reads.1, length_onWire, length]
    · simp only [if_neg length] at reads
      cases reads

/-- Words of data without an end, behind one byte in the first word. -/
def flood : List (List Byte) :=
  [pktSop, pktChannel, 0, 1] :: List.replicate 256 [1, 1, 1, 1]

/-- A byte of data is recorded behind those before. -/
theorem feed_replicate_one (count tb : Nat) (buffer : Storage) :
    ∃ behind, (PhyRx.mk false false false (some tb) buffer).feed
        (List.replicate count 1) =
      .parsed ⟨false, false, false, some (tb + count), behind⟩ := by
  induction count generalizing tb buffer with
  | zero => exact ⟨buffer, rfl⟩
  | succ count ih =>
      obtain ⟨behind, records⟩ := ih (tb + 1) (store buffer tb [1])
      refine ⟨behind, ?_⟩
      rw [Nat.add_right_comm] at records
      exact records

/-- The first 1021 data are recorded, and another word is read. -/
theorem flood_rounds : ∃ head buffer,
    rxRounds replay wordReader 256 (RxHead.start replay wordReader flood) =
        .inl head ∧
      head.rx = ⟨false, false, false, some 1021, buffer⟩ ∧
        head.Delivers replay wordReader [[1, 1, 1, 1]] := by
  obtain ⟨words, isFront⟩ : ∃ words : List (List Byte), words =
      [pktSop, pktChannel, 0, 1] :: List.replicate 255 [1, 1, 1, 1] :=
    ⟨_, rfl⟩
  have split : flood = words ++ [[1, 1, 1, 1]] := by
    rw [flood, List.replicate_succ', isFront]
    rfl
  have each : ∀ word ∈ flood, word.length = 4 := by
    intro word member
    rcases List.mem_cons.mp member with rfl | member
    · rfl
    · rw [List.eq_of_mem_replicate member]
      rfl
  have lengths : ∀ word ∈ words, word.length = 4 := fun word member =>
    each word (split ▸ List.mem_append_left _ member)
  have inTime : ∀ parts, flood = parts →
      (RxHead.start replay wordReader flood).Delivers replay wordReader
        parts := by
    rintro _ rfl
    exact (received_replay each).inTime
  have delivers := inTime _ split
  have room : (RxHead.start replay wordReader flood).HasRoom words := by
    intro earlier later mid isWords isMore goesOn
    have le :=
      (PhyRx.start wordReader.transBuf).count_feed_le earlier.flatten
    rw [show (PhyRx.start wordReader.transBuf).feed earlier.flatten =
      .parsed mid from goesOn] at le
    have size : earlier.flatten.length = earlier.length * 4 := by
      have same : ∀ word ∈ earlier, word.length = 4 := fun word member =>
        lengths word (isWords ▸ List.mem_append_left _ member)
      rw [List.length_flatten, List.map_congr_left same]
      simp
    have total := congrArg List.length isWords
    have some := List.length_pos_iff.mpr isMore
    simp only [isFront, List.length_cons, List.length_replicate,
      List.length_append] at total
    have begun : (PhyRx.start wordReader.transBuf).tb.getD 0 = 0 := rfl
    have bound : transBufSize = 1024 := rfl
    rw [RxByte.count, begun] at le
    omega
  have early :
      (RxHead.start replay wordReader flood).Delivers replay wordReader words :=
    delivers_of_append delivers
  have rounds := rxRounds_of_delivers wordReader_generated lengths early room
  have flatten : words.flatten =
      [pktSop, pktChannel, 0, 1] ++ List.replicate (255 * 4) 1 := by
    have ones : ([1, 1, 1, 1] : List Byte) = List.replicate 4 1 := rfl
    simp only [isFront, List.flatten_cons, ones,
      List.flatten_replicate_replicate]
  obtain ⟨buffer, records⟩ := feed_replicate_one (255 * 4) 1
    (store wordReader.transBuf 0 [1])
  have start : (RxHead.start replay wordReader flood).rx.feed
      ([pktSop, pktChannel, 0, 1] ++ List.replicate (255 * 4) 1) =
        .parsed ⟨false, false, false, some (1 + 255 * 4), buffer⟩ := by
    rw [← records, PhyRx.feed_append]
    rfl
  rw [flatten, start] at rounds
  obtain ⟨head, comes, isRx, continues⟩ := rounds
  have count : words.length = 256 := by
    rw [isFront, List.length_cons, List.length_replicate]
  rw [count] at comes
  exact ⟨head, buffer, comes, isRx, (continues _).mp delivers⟩

theorem flood_overruns : ¬ StoresInside replay wordReader flood := by
  intro inside
  obtain ⟨head, buffer, comes, isRx, delivers⟩ := flood_rounds
  have notFull : head.full = false := by
    rw [RxHead.full, isRx]
    rfl
  have stores :=
    stores_of_delivers wordReader_generated notFull rfl delivers
  have stored : 1024 ∈ head.stores replay wordReader := by
    rw [stores, isRx, show wordStores [1, 1, 1, 1]
      ⟨false, false, false, some 1021, buffer⟩ = [1021, 1022, 1023, 1024]
        from rfl]
    decide
  obtain ⟨fuel, member⟩ := mem_loopStores_iff.mpr ⟨256, head, comes, stored⟩
  exact absurd (inside fuel 1024 member) (by decide)

/-- A replay delivers nothing but its own words. -/
theorem prefix_of_delivers_replay {wordLen : Nat} {deadline : BitVec 64}
    {started late : Bool} {words answer : List (List Byte)}
    (lengths : ∀ word ∈ answer, word.length = wordLen)
    (delivers :
      Delivers replay wordLen deadline started late words answer) :
    words <+: answer := by
  induction words generalizing deadline started late answer with
  | nil => exact List.nil_prefix
  | cons word words ih =>
      obtain ⟨atRead, reads, inTime, notLate⟩ := delivers
      cases answer with
      | nil => cases reads
      | cons first rest =>
          obtain ⟨length, lengths⟩ := List.forall_mem_cons.mp lengths
          have read :
              replay.spiRead wordLen (first :: rest) =
                (.ok (onWire wordLen first), rest) := if_pos length
          rw [read] at reads
          obtain ⟨isFirst, isRest⟩ := Prod.mk.inj reads
          obtain rfl : rest = atRead := isRest
          have same : first = word := by
            rw [← onWire_twice wordLen first, Except.ok.inj isFirst,
              onWire_twice]
          rw [same]
          refine (List.prefix_cons_inj word).mpr ?_
          by_cases brings : Brings started word
          · exact ih lengths (inTime brings)
          · exact ih lengths (notLate brings).2

theorem answer_storesInside : StoresInside replay wordReader answer := by
  have lengths : ∀ word ∈ answer, word.length = 4 := by decide
  refine
    (storesInside_iff wordReader_generated (readsWords_replay 4) answer).mpr ?_
  rintro words word receives
    ⟨-, before, rest, data, split, counted, exceeds⟩
  have tooMany :=
    (lt_count_iff wordReader.transBuf (words.flatten ++ before)
      transBufSize).mpr ⟨data, counted, exceeds⟩
  have le :=
    (PhyRx.start wordReader.transBuf).count_feed_le (words.flatten ++ before)
  obtain ⟨more, read⟩ := prefix_of_delivers_replay lengths receives.inTime
  have total : answer.flatten.length = 12 := by decide
  have size : transBufSize = 1024 := by decide
  have begun : (PhyRx.start wordReader.transBuf).tb.getD 0 = 0 := rfl
  rw [← read, split] at total
  simp only [List.flatten_append, List.flatten_singleton, List.length_append]
    at total le
  omega

end LinuxDfl.Spi

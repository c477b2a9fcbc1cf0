import LinuxDfl.Spi.Stream

/-!
# The rounds of the receiver

One round of the outer loop reads a word and either returns or comes to the
head of the loop again.  Behind words which are delivered in time, the head has
what the parser makes of their bytes.
-/

namespace LinuxDfl.Spi

open LinuxDfl.Kernel
open LinuxDfl.Lib.LittleEndian
open LinuxDfl.Lib.ByteStore

variable {Env : Type}

/-! ## One round -/

/-- The head of the outer loop. -/
structure RxHead (Env : Type) where
  rx : PhyRx
  phyBuf : Storage
  pollTimeout : BitVec 64
  lastTry : Bool
  env : Env

/-- What the loop returns. -/
abbrev RxResult (Env : Type) : Type :=
  Option Errno × PhyRx × Storage × Env

/-- The transaction buffer has no room left at the head of the loop. -/
def RxHead.full (head : RxHead Env) : Bool :=
  head.rx.tb.any (transBufSize ≤ ·)

/-- One round of the outer loop. -/
def rxRound (spi : SpiDevice Env) (br : SpiAvmmBridge) (head : RxHead Env) :
    RxHead Env ⊕ RxResult Env :=
  if head.full then
    .inr (some .efault, head.rx, head.phyBuf, head.env)
  else
    match spi.spiRead br.wordLen head.env with
    | (.error ret, env) => .inr (some ret, head.rx, head.phyBuf, env)
    | (.ok word, env) =>
        let stored := store head.phyBuf 0 (word.take br.wordLen)
        let phyBuf := br.swapped stored br.wordLen
        match phyRxWord (load phyBuf 0 br.wordLen) false head.rx with
        | .fault => .inr (some .efault, head.rx, phyBuf, env)
        | .finished rx => .inr (none, rx, phyBuf, env)
        | .more true rx =>
            let now := spi.jiffies env
            .inl ⟨rx, phyBuf, now.1 + spi.xferTimeout, false, now.2⟩
        | .more false rx =>
            if head.lastTry then
              .inr (some .etimedout, rx, phyBuf, env)
            else
              let now := spi.jiffies env
              .inl
                ⟨rx, phyBuf, head.pollTimeout,
                  timeAfter now.1 head.pollTimeout, now.2⟩

/-- Some rounds, until the loop returns. -/
def rxRounds (spi : SpiDevice Env) (br : SpiAvmmBridge) :
    Nat → RxHead Env → RxHead Env ⊕ RxResult Env
  | 0, head => .inl head
  | count + 1, head =>
      match rxRound spi br head with
      | .inl next => rxRounds spi br count next
      | .inr result => .inr result

/-- The outer loop is its rounds. -/
theorem phyRxLoop_eq_rxRounds (spi : SpiDevice Env) (br : SpiAvmmBridge)
    (fuel : Nat) (head : RxHead Env) :
    phyRxLoop spi br fuel head.rx head.phyBuf head.pollTimeout head.lastTry
        head.env =
      (rxRounds spi br fuel head).getRight? := by
  induction fuel generalizing head with
  | zero => rfl
  | succ fuel ih =>
      obtain ⟨rx, phyBuf, pollTimeout, lastTry, env⟩ := head
      simp only [phyRxLoop, rxRounds, rxRound, RxHead.full]
      by_cases full : rx.tb.any (transBufSize ≤ ·) = true
      · simp only [full, if_true, Sum.getRight?]
      simp only [if_neg full]
      rcases spi.spiRead br.wordLen env with ⟨ret | word, env⟩
      · rfl
      dsimp only
      generalize br.swapped _ _ = buf
      cases phyRxWord (load buf 0 br.wordLen) false rx with
      | fault => rfl
      | finished next => rfl
      | more validWord next =>
          cases validWord with
          | true => exact ih ⟨_, _, _, _, _⟩
          | false =>
              cases lastTry with
              | true => rfl
              | false => exact ih ⟨_, _, _, _, _⟩

theorem rxRounds_add (spi : SpiDevice Env) (br : SpiAvmmBridge)
    (left right : Nat) (head : RxHead Env) :
    rxRounds spi br (left + right) head =
      match rxRounds spi br left head with
      | .inl next => rxRounds spi br right next
      | .inr result => .inr result := by
  induction left generalizing head with
  | zero => rw [Nat.zero_add]; rfl
  | succ left ih =>
      rw [Nat.add_right_comm, rxRounds, rxRounds]
      cases rxRound spi br head with
      | inl next => exact ih next
      | inr result => rfl

/-! ## Words which are delivered -/

/-- The controller reads these words from here on, within the timeouts. -/
def RxHead.Delivers (spi : SpiDevice Env) (br : SpiAvmmBridge)
    (head : RxHead Env) (words : List (List Byte)) : Prop :=
  Spi.Delivers spi br.wordLen head.pollTimeout head.rx.tb.isSome head.lastTry
    words head.env

/-- Words which are delivered are delivered one after the other. -/
theorem delivers_of_append {spi : SpiDevice Env} {wordLen : Nat}
    {deadline : BitVec 64} {started late : Bool}
    {words more : List (List Byte)} {env : Env}
    (delivers :
      Spi.Delivers spi wordLen deadline started late (words ++ more) env) :
    Spi.Delivers spi wordLen deadline started late words env := by
  induction words generalizing deadline started late env with
  | nil => trivial
  | cons word words ih =>
      obtain ⟨atRead, reads, inTime, notLate⟩ := delivers
      refine ⟨atRead, reads, fun brings => ih (inTime brings), fun nothing => ?_⟩
      obtain ⟨inTime, delivers⟩ := notLate nothing
      exact ⟨inTime, ih delivers⟩

theorem RxHead.full_iff (head : RxHead Env) :
    head.full = true ↔ transBufSize ≤ head.rx.tb.getD 0 := by
  have positive : ¬ transBufSize ≤ 0 := by decide
  unfold RxHead.full
  cases head.rx.tb <;> simp [positive]

/-- What the parser gets of a word which is read. -/
theorem word_arrives {br : SpiAvmmBridge} (generated : br.Generated)
    {word : List Byte} (length : word.length = br.wordLen)
    (phyBuf : Storage) :
    load
        (br.swapped (store phyBuf 0 (word.take br.wordLen)) br.wordLen) 0
        br.wordLen =
      onWire br.wordLen word := by
  have stored := (holds_store phyBuf 0 word).load_eq
  rw [length] at stored
  rw [List.take_of_length_le (Nat.le_of_eq length), load_swapped generated,
    stored]

/-- The round of a word which is delivered. -/
theorem rxRound_of_delivers {spi : SpiDevice Env} {br : SpiAvmmBridge}
    (generated : br.Generated) {head : RxHead Env}
    (notFull : head.full = false) {word : List Byte}
    {rest : List (List Byte)} (length : word.length = br.wordLen)
    (delivers : head.Delivers spi br (word :: rest)) :
    match head.rx.feed word with
    | .parsed mid =>
        ∃ next,
          rxRound spi br head = .inl next ∧ next.rx = mid ∧
            ∀ more,
              head.Delivers spi br (word :: more) ↔
                next.Delivers spi br more
    | .fault =>
        ∃ rx buf env, rxRound spi br head = .inr (some .efault, rx, buf, env)
    | .finished next =>
        ∃ buf env, rxRound spi br head = .inr (none, next, buf, env) := by
  obtain ⟨rx, phyBuf, pollTimeout, lastTry, env⟩ := head
  obtain ⟨atRead, reads, inTime, notLate⟩ := delivers
  have reads :
      spi.spiRead br.wordLen env = (.ok (onWire br.wordLen word), atRead) :=
    reads
  have wire : (onWire br.wordLen word).length = br.wordLen := by
    rw [length_onWire, length]
  have arrives := word_arrives generated wire phyBuf
  rw [onWire_twice] at arrives
  have others (more : List (List Byte)) :
      RxHead.Delivers spi br ⟨rx, phyBuf, pollTimeout, lastTry, env⟩
          (word :: more) ↔
        (Brings rx.tb.isSome word →
            Delivers spi br.wordLen
              ((spi.jiffies atRead).1 + spi.xferTimeout) true false more
              (spi.jiffies atRead).2) ∧
          (¬ Brings rx.tb.isSome word →
            lastTry = false ∧
              Delivers spi br.wordLen pollTimeout rx.tb.isSome
                (timeAfter (spi.jiffies atRead).1 pollTimeout) more
                (spi.jiffies atRead).2) := by
    constructor
    · rintro ⟨same, sameReads, continues⟩
      obtain rfl : same = atRead :=
        congrArg Prod.snd (sameReads.symm.trans reads)
      exact continues
    · exact fun continues => ⟨atRead, reads, continues⟩
  simp only [rxRound, notFull, Bool.false_eq_true, if_false, reads, arrives,
    phyRxWord_eq_feed, Bool.false_or]
  generalize br.swapped _ br.wordLen = buf
  cases outcome : rx.feed word with
  | fault => exact ⟨_, _, _, rfl⟩
  | finished next => exact ⟨_, _, rfl⟩
  | parsed mid =>
      have started := PhyRx.feed_started outcome
      by_cases brings : Brings rx.tb.isSome word
      · simp only [brings, decide_true, Bool.or_true] at started
        simp only [RxByte.inWord, brings, decide_true]
        refine ⟨_, rfl, rfl, fun more => (others more).trans ?_⟩
        simp only [brings, not_true_eq_false, false_implies, and_true,
          true_implies, RxHead.Delivers, started]
      · simp only [brings, decide_false, Bool.or_false] at started
        obtain ⟨notLate, -⟩ := notLate brings
        have notLate : lastTry = false := notLate
        simp only [RxByte.inWord, brings, decide_false, notLate,
          Bool.false_eq_true, if_false]
        refine ⟨_, rfl, rfl, fun more => ?_⟩
        rw [← notLate]
        refine (others more).trans ?_
        simp only [brings, not_false_eq_true, true_implies, false_implies,
          true_and, notLate, RxHead.Delivers, started]

/-! ## Some rounds -/

/-- There is room at the head of each round which reads one of these words. -/
def RxHead.HasRoom (head : RxHead Env) (words : List (List Byte)) : Prop :=
  ∀ earlier later mid, words = earlier ++ later → later ≠ [] →
    head.rx.feed earlier.flatten = .parsed mid →
      mid.tb.getD 0 < transBufSize

theorem RxHead.HasRoom.notFull {head : RxHead Env} {word : List Byte}
    {rest : List (List Byte)} (room : head.HasRoom (word :: rest)) :
    head.full = false := by
  have first :=
    room [] (word :: rest) head.rx rfl (List.cons_ne_nil _ _) rfl
  rw [← Bool.not_eq_true, head.full_iff]
  omega

theorem RxHead.HasRoom.tail {head next : RxHead Env} {word : List Byte}
    {rest : List (List Byte)} (room : head.HasRoom (word :: rest))
    (parsed : head.rx.feed word = .parsed next.rx) : next.HasRoom rest := by
  intro earlier later mid split nonempty goesOn
  refine room (word :: earlier) later mid (by rw [split]; rfl) nonempty ?_
  rw [List.flatten_cons, PhyRx.feed_append_of_parsed parsed, goesOn]

theorem RxHead.HasRoom.cons {head next : RxHead Env} {word : List Byte}
    {rest : List (List Byte)} (notFull : head.full = false)
    (parsed : head.rx.feed word = .parsed next.rx)
    (room : next.HasRoom rest) : head.HasRoom (word :: rest) := by
  intro earlier later mid split nonempty goesOn
  cases earlier with
  | nil =>
      obtain rfl := RxByte.parsed.inj goesOn
      have notLe := mt head.full_iff.mpr (Bool.eq_false_iff.mp notFull)
      omega
  | cons same earlier =>
      obtain ⟨rfl, behind⟩ := List.cons.inj split
      rw [List.flatten_cons, PhyRx.feed_append_of_parsed parsed] at goesOn
      exact room earlier later mid behind nonempty goesOn

/-- The rounds of words which are delivered, as long as there is room. -/
theorem rxRounds_of_delivers {spi : SpiDevice Env} {br : SpiAvmmBridge}
    (generated : br.Generated) {words : List (List Byte)} {head : RxHead Env}
    (lengths : ∀ word ∈ words, word.length = br.wordLen)
    (delivers : head.Delivers spi br words) (room : head.HasRoom words) :
    match head.rx.feed words.flatten with
    | .parsed mid =>
        ∃ next,
          rxRounds spi br words.length head = .inl next ∧ next.rx = mid ∧
            ∀ more,
              head.Delivers spi br (words ++ more) ↔
                next.Delivers spi br more
    | .fault =>
        ∃ rx buf env,
          rxRounds spi br words.length head =
            .inr (some .efault, rx, buf, env)
    | .finished next =>
        ∃ buf env,
          rxRounds spi br words.length head = .inr (none, next, buf, env) := by
  induction words generalizing head with
  | nil => exact ⟨head, rfl, rfl, fun more => Iff.rfl⟩
  | cons word words ih =>
      have round :=
        rxRound_of_delivers generated room.notFull
          (lengths word List.mem_cons_self) delivers
      rw [List.flatten_cons, PhyRx.feed_append, List.length_cons]
      simp only [rxRounds]
      cases outcome : head.rx.feed word with
      | fault =>
          rw [outcome] at round
          obtain ⟨rx, buf, env, returns⟩ := round
          exact ⟨rx, buf, env, by rw [returns]⟩
      | finished next =>
          rw [outcome] at round
          obtain ⟨buf, env, returns⟩ := round
          exact ⟨buf, env, by rw [returns]⟩
      | parsed mid =>
          rw [outcome] at round
          obtain ⟨next, goesOn, rfl, continues⟩ := round
          have later :=
            ih (fun word member => lengths word (List.mem_cons_of_mem _ member))
              ((continues words).mp delivers) (room.tail outcome)
          rw [goesOn]
          dsimp only
          cases rest : next.rx.feed words.flatten with
          | fault =>
              rw [rest] at later
              exact later
          | finished last =>
              rw [rest] at later
              exact later
          | parsed last =>
              rw [rest] at later
              obtain ⟨final, comes, atFinal, others⟩ := later
              exact ⟨final, comes, atFinal,
                fun more => (continues (words ++ more)).trans (others more)⟩

/--
The rounds of words which are delivered do what the parser makes of their
bytes, unless they fail; where there is no room left, they fail as well.
-/
theorem rxRounds_outcome {spi : SpiDevice Env} {br : SpiAvmmBridge}
    (generated : br.Generated) {words : List (List Byte)} {head : RxHead Env}
    (lengths : ∀ word ∈ words, word.length = br.wordLen)
    (delivers : head.Delivers spi br words) :
    match rxRounds spi br words.length head with
    | .inl next => head.rx.feed words.flatten = .parsed next.rx
    | .inr (none, rx, _, _) => head.rx.feed words.flatten = .finished rx
    | .inr (some ret, _, _, _) => ret = .efault := by
  induction words generalizing head with
  | nil => rfl
  | cons word words ih =>
      simp only [List.length_cons, rxRounds]
      cases full : head.full with
      | true =>
          rw [rxRound, if_pos full]
      | false =>
          have round :=
            rxRound_of_delivers generated full
              (lengths word List.mem_cons_self) delivers
          rw [List.flatten_cons, PhyRx.feed_append]
          cases outcome : head.rx.feed word with
          | finished next =>
              rw [outcome] at round
              obtain ⟨buf, env, finishes⟩ := round
              rw [finishes]
          | fault =>
              rw [outcome] at round
              obtain ⟨rx, buf, env, fails⟩ := round
              rw [fails]
          | parsed mid =>
              rw [outcome] at round
              obtain ⟨next, goesOn, rfl, continues⟩ := round
              rw [goesOn]
              exact
                ih
                  (fun word member =>
                    lengths word (List.mem_cons_of_mem _ member))
                  ((continues words).mp delivers)

/-- Where the bytes are at fault, the loop fails, full or not. -/
theorem rxRounds_of_fault {spi : SpiDevice Env} {br : SpiAvmmBridge}
    (generated : br.Generated) {words : List (List Byte)} {head : RxHead Env}
    (lengths : ∀ word ∈ words, word.length = br.wordLen)
    (delivers : head.Delivers spi br words)
    (fails : head.rx.feed words.flatten = .fault) :
    ∃ rx buf env,
      rxRounds spi br words.length head =
        .inr (some .efault, rx, buf, env) := by
  have outcome := rxRounds_outcome generated lengths delivers
  rw [fails] at outcome
  rcases rounds : rxRounds spi br words.length head with
    next | ⟨_ | ret, rx, buf, env⟩ <;> rw [rounds] at outcome
  · cases outcome
  · cases outcome
  · cases outcome
    exact ⟨rx, buf, env, rfl⟩

/-- The loop succeeds only where the parser finishes. -/
theorem feed_of_rxRounds {spi : SpiDevice Env} {br : SpiAvmmBridge}
    (generated : br.Generated) {words : List (List Byte)} {head : RxHead Env}
    (lengths : ∀ word ∈ words, word.length = br.wordLen)
    (delivers : head.Delivers spi br words) {rx : PhyRx} {buf : Storage}
    {env : Env}
    (returns :
      rxRounds spi br words.length head = .inr (none, rx, buf, env)) :
    head.rx.feed words.flatten = .finished rx := by
  have outcome := rxRounds_outcome generated lengths delivers
  rw [returns] at outcome
  exact outcome

/-! ## The words of a run -/

/-- The controller reads words of the length it is asked for. -/
def ReadsWords (spi : SpiDevice Env) (wordLen : Nat) : Prop :=
  ∀ env word next,
    spi.spiRead wordLen env = (.ok word, next) → word.length = wordLen

/-- A round which reads a word that the loop goes on for has it delivered. -/
theorem delivers_of_read {spi : SpiDevice Env} {br : SpiAvmmBridge}
    {head : RxHead Env} {raw : List Byte} {atRead : Env}
    (reads : spi.spiRead br.wordLen head.env = (.ok raw, atRead))
    (goesOn :
      Brings head.rx.tb.isSome (onWire br.wordLen raw) ∨
        head.lastTry = false) :
    head.Delivers spi br [onWire br.wordLen raw] := by
  refine ⟨atRead, ?_, fun _ => trivial, fun nothing => ⟨?_, trivial⟩⟩
  · rw [onWire_twice]
    exact reads
  · exact goesOn.resolve_left nothing

/-- What a round which reads a word leaves behind when the loop goes on. -/
theorem rxRound_next {spi : SpiDevice Env} {br : SpiAvmmBridge}
    (generated : br.Generated) {head next : RxHead Env} {raw : List Byte}
    {atRead : Env} (length : raw.length = br.wordLen)
    (reads : spi.spiRead br.wordLen head.env = (.ok raw, atRead))
    (goesOn : rxRound spi br head = .inl next) :
    let word := onWire br.wordLen raw
    head.full = false ∧
      head.rx.feed word = .parsed next.rx ∧
      next.env = (spi.jiffies atRead).2 ∧
      (¬ Brings head.rx.tb.isSome word →
        head.lastTry = false ∧ next.pollTimeout = head.pollTimeout ∧
          next.lastTry =
            timeAfter (spi.jiffies atRead).1 head.pollTimeout) := by
  intro word
  unfold rxRound at goesOn
  cases full : head.full with
  | true =>
      rw [full] at goesOn
      cases goesOn
  | false =>
      simp only [full, Bool.false_eq_true, if_false, reads,
        word_arrives generated length, phyRxWord_eq_feed, Bool.false_or]
        at goesOn
      cases outcome : head.rx.feed (onWire br.wordLen raw) with
      | fault =>
          rw [outcome] at goesOn
          cases goesOn
      | finished last =>
          rw [outcome] at goesOn
          cases goesOn
      | parsed mid =>
          rw [outcome] at goesOn
          by_cases brings : Brings head.rx.tb.isSome (onWire br.wordLen raw)
          · simp only [RxByte.inWord, brings, decide_true] at goesOn
            obtain rfl := Sum.inl.inj goesOn
            exact ⟨rfl, rfl, rfl, fun nothing => absurd brings nothing⟩
          · simp only [RxByte.inWord, brings, decide_false] at goesOn
            cases late : head.lastTry with
            | true =>
                rw [late, if_pos rfl] at goesOn
                cases goesOn
            | false =>
                rw [late, if_neg Bool.false_ne_true] at goesOn
                obtain rfl := Sum.inl.inj goesOn
                exact ⟨rfl, rfl, rfl, fun _ => ⟨rfl, rfl, rfl⟩⟩

/-- A round behind which the loop goes on reads a word. -/
theorem delivers_of_next {spi : SpiDevice Env} {br : SpiAvmmBridge}
    (generated : br.Generated) (readsWords : ReadsWords spi br.wordLen)
    {head next : RxHead Env} (goesOn : rxRound spi br head = .inl next) :
    head.full = false ∧
      ∃ word, word.length = br.wordLen ∧ head.Delivers spi br [word] := by
  rcases reads : spi.spiRead br.wordLen head.env with ⟨ret | raw, atRead⟩
  · unfold rxRound at goesOn
    cases full : head.full <;> simp [full, reads] at goesOn
  · have length := readsWords _ _ _ reads
    obtain ⟨notFull, -, -, late⟩ :=
      rxRound_next generated length reads goesOn
    refine ⟨notFull, onWire br.wordLen raw, ?_, delivers_of_read reads ?_⟩
    · rw [length_onWire, length]
    · by_cases brings : Brings head.rx.tb.isSome (onWire br.wordLen raw)
      · exact Or.inl brings
      · exact Or.inr (late brings).1

/-- A loop which has come to a head has read words with room for their data. -/
theorem words_of_rxRounds {spi : SpiDevice Env} {br : SpiAvmmBridge}
    (generated : br.Generated) (readsWords : ReadsWords spi br.wordLen)
    {count : Nat} {head last : RxHead Env}
    (comes : rxRounds spi br count head = .inl last) :
    ∃ words : List (List Byte),
      words.length = count ∧
        (∀ word ∈ words, word.length = br.wordLen) ∧ head.HasRoom words ∧
        head.rx.feed words.flatten = .parsed last.rx ∧
        ∀ more,
          head.Delivers spi br (words ++ more) ↔ last.Delivers spi br more := by
  induction count generalizing head with
  | zero =>
      obtain rfl := Sum.inl.inj comes
      refine ⟨[], rfl, List.forall_mem_nil _, ?_, rfl, fun _ => Iff.rfl⟩
      intro earlier later mid split nonempty
      exact absurd (List.append_eq_nil_iff.mp split.symm).2 nonempty
  | succ count ih =>
      rw [rxRounds] at comes
      cases round : rxRound spi br head with
      | inr result =>
          rw [round] at comes
          cases comes
      | inl next =>
          rw [round] at comes
          obtain ⟨words, total, lengths, room, parsed, later⟩ := ih comes
          obtain ⟨notFull, word, length, delivers⟩ :=
            delivers_of_next generated readsWords round
          have spec := rxRound_of_delivers generated notFull length delivers
          cases outcome : head.rx.feed word with
          | fault =>
              rw [outcome] at spec
              obtain ⟨_, _, _, returns⟩ := spec
              cases round.symm.trans returns
          | finished done =>
              rw [outcome] at spec
              obtain ⟨_, _, returns⟩ := spec
              cases round.symm.trans returns
          | parsed mid =>
              rw [outcome] at spec
              obtain ⟨same, goesOn, rfl, continues⟩ := spec
              obtain rfl : same = next :=
                Sum.inl.inj (goesOn.symm.trans round)
              refine ⟨word :: words, congrArg (· + 1) total, ?_, ?_, ?_, ?_⟩
              · exact List.forall_mem_cons.mpr ⟨length, lengths⟩
              · exact RxHead.HasRoom.cons notFull outcome room
              · rw [List.flatten_cons,
                  PhyRx.feed_append_of_parsed outcome, parsed]
              · exact fun more =>
                  (continues (words ++ more)).trans (later more)

/-! ## A parse which finishes -/

theorem Finishes.feed {rx next : PhyRx} {bytes : List Byte}
    (finishes : Finishes rx bytes next) : rx.feed bytes = .finished next := by
  induction finishes with
  | finished takes => rw [PhyRx.feed, takes]
  | dropped takes _ ih => rw [PhyRx.feed_of_dropped takes, ih]
  | parsed takes _ _ ih => rw [PhyRx.feed_cons_of_parsed takes, ih]

/-- The parse still finishes behind the bytes which have been taken. -/
theorem Finishes.behind {rx mid next : PhyRx} {left right : List Byte}
    (finishes : Finishes rx (left ++ right) next)
    (parsed : rx.feed left = .parsed mid) : Finishes mid right next := by
  induction left generalizing rx with
  | nil =>
      obtain rfl := RxByte.parsed.inj parsed
      exact finishes
  | cons byte left ih =>
      cases finishes with
      | finished takes =>
          rw [PhyRx.feed, takes] at parsed
          cases parsed
      | dropped takes finishes =>
          rw [PhyRx.feed_of_dropped takes] at parsed
          exact ih finishes parsed
      | parsed takes _ finishes =>
          rw [PhyRx.feed_cons_of_parsed takes] at parsed
          exact ih finishes parsed

/-- A parse which finishes in time has room in each of its rounds. -/
theorem Finishes.hasRoom {head : RxHead Env} {words : List (List Byte)}
    {next : PhyRx} (finishes : Finishes head.rx words.flatten next)
    {last : Nat} (atLast : next.tb = some last) (room : last ≤ transBufSize) :
    head.HasRoom words := by
  intro earlier later mid split _ parsed
  rw [split, List.flatten_append] at finishes
  have positive : 0 < transBufSize := by decide
  cases tb : mid.tb with
  | none => exact positive
  | some n =>
      obtain ⟨m, atNext, lt⟩ := (finishes.behind parsed).tb_lt tb
      obtain rfl := Option.some.inj (atNext.symm.trans atLast)
      exact Nat.lt_of_lt_of_le lt room

/-- Where a round ends. -/
def roundEnv : RxHead Env ⊕ RxResult Env → Env
  | .inl head => head.env
  | .inr result => result.2.2.2

section Keeps

variable {View : Type} {spi : SpiDevice Env} {br : SpiAvmmBridge}
  {view : Env → View}

/-- What reading leaves as it is stays so in a round. -/
theorem rxRound_keeps
    (readKeeps : ∀ env, view (spi.spiRead br.wordLen env).2 = view env)
    (jiffiesKeeps : ∀ env, view (spi.jiffies env).2 = view env)
    (head : RxHead Env) :
    view (roundEnv (rxRound spi br head)) = view head.env := by
  have kept := readKeeps head.env
  unfold rxRound
  by_cases full : head.full = true
  · rw [if_pos full]
    rfl
  rw [if_neg full]
  rcases reads : spi.spiRead br.wordLen head.env with ⟨ret | word, env⟩
  · rw [reads] at kept
    exact kept
  rw [reads] at kept
  dsimp only
  generalize br.swapped _ _ = buf
  cases phyRxWord (load buf 0 br.wordLen) false head.rx with
  | fault => exact kept
  | finished next => exact kept
  | more validWord next =>
      cases validWord with
      | true => exact (jiffiesKeeps env).trans kept
      | false =>
          dsimp only
          by_cases last : head.lastTry = true
          · rw [if_pos last]
            exact kept
          · rw [if_neg last]
            exact (jiffiesKeeps env).trans kept

theorem rxRounds_keeps
    (readKeeps : ∀ env, view (spi.spiRead br.wordLen env).2 = view env)
    (jiffiesKeeps : ∀ env, view (spi.jiffies env).2 = view env)
    (count : Nat) (head : RxHead Env) :
    view (roundEnv (rxRounds spi br count head)) = view head.env := by
  induction count generalizing head with
  | zero => rfl
  | succ count ih =>
      have kept := rxRound_keeps readKeeps jiffiesKeeps head
      rw [rxRounds]
      cases round : rxRound spi br head with
      | inl next =>
          rw [round] at kept
          exact (ih next).trans kept
      | inr result =>
          rw [round] at kept
          exact kept

/--
The loop finishes on words which are delivered within the timeouts, and what
reading leaves as it is stays so.
-/
theorem phyRxLoop_finishes (generated : br.Generated)
    (readKeeps : ∀ env, view (spi.spiRead br.wordLen env).2 = view env)
    (jiffiesKeeps : ∀ env, view (spi.jiffies env).2 = view env)
    {words : List (List Byte)}
    (lengths : ∀ word ∈ words, word.length = br.wordLen)
    {rx next : PhyRx} (finishes : Finishes rx words.flatten next)
    {last : Nat} (atLast : next.tb = some last) (room : last ≤ transBufSize)
    {deadline : BitVec 64} {late : Bool} {env : Env}
    (delivers :
      Delivers spi br.wordLen deadline rx.tb.isSome late words env)
    (phyBuf : Storage) :
    ∃ fuel buf env',
      phyRxLoop spi br fuel rx phyBuf deadline late env =
          some (none, next, buf, env') ∧
        view env' = view env := by
  let head : RxHead Env := ⟨rx, phyBuf, deadline, late, env⟩
  have atHead : head.Delivers spi br words := delivers
  have rounds := rxRounds_of_delivers generated lengths atHead
    (Finishes.hasRoom finishes atLast room)
  have kept := rxRounds_keeps readKeeps jiffiesKeeps words.length head
  rw [finishes.feed] at rounds
  obtain ⟨buf, final, returns⟩ := rounds
  rw [returns] at kept
  refine ⟨words.length, buf, final, ?_, kept⟩
  rw [phyRxLoop_eq_rxRounds spi br words.length head, returns]
  rfl

end Keeps

end LinuxDfl.Spi

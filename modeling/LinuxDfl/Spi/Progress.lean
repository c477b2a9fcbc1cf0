import LinuxDfl.Spi.Parse

/-!
# Whether the receiver returns

The receiver waits with a deadline which each word with something in it puts
off, and it returns unless the slave goes on for ever without a packet that
is complete, wrong or too long.  A slave can do so only with markers which
begin packets or name channels, again and again.
-/

namespace LinuxDfl.Spi

open LinuxDfl.Kernel
open LinuxDfl.Lib.LittleEndian
open LinuxDfl.Lib.ByteStore

/-! ## Endless streams -/

/-- The words of a slave, and the clock behind each of the reads. -/
structure Stream where
  words : Nat → List Byte
  clock : Nat → BitVec 64
  xferTimeout : BitVec 64

/-- The controller with this stream; its state is the number of reads. -/
def Stream.device (stream : Stream) : SpiDevice Nat where
  spiWrite := fun _ count => (none, count)
  spiRead := fun wordLen count =>
    (.ok (onWire wordLen (stream.words count)), count + 1)
  jiffies := fun count => (stream.clock count, count)
  xferTimeout := stream.xferTimeout

/-- The first words of the stream. -/
def Stream.first (stream : Stream) (count : Nat) : List (List Byte) :=
  (List.range count).map stream.words

/-- Past every deadline the clock is seen after some more reads. -/
def Stream.Advances (stream : Stream) : Prop :=
  ∀ deadline count, ∃ later, count ≤ later ∧
    timeAfter (stream.clock later) deadline = true

/-- The receiver returns after some reads. -/
def Returns (stream : Stream) (br : SpiAvmmBridge) : Prop :=
  ∃ fuel, (brDoRxAndPktPhyParse stream.device fuel br 0).isSome = true

/--
Behind every word the packet is neither complete nor wrong, has room, and is
in time.
-/
structure Endless (stream : Stream) (br : SpiAvmmBridge) : Prop where
  reading : ∀ count, StillReading (stream.first count)
  inTime : ∀ count,
    (RxHead.start stream.device br 0).Delivers stream.device br
      (stream.first count)

theorem Stream.first_succ (stream : Stream) (count : Nat) :
    stream.first (count + 1) = stream.first count ++ [stream.words count] := by
  simp [Stream.first, List.range_succ]

theorem Stream.length_first (stream : Stream) (count : Nat) :
    (stream.first count).length = count := by
  simp [Stream.first]

theorem returns_iff (stream : Stream) (br : SpiAvmmBridge) :
    Returns stream br ↔
      ∃ count result,
        rxRounds stream.device br count (RxHead.start stream.device br 0) =
          .inr result := by
  have loop (fuel : Nat) :=
    phyRxLoop_eq_rxRounds stream.device br fuel
      (RxHead.start stream.device br 0)
  simp only [RxHead.start, PhyRx.start] at loop
  unfold Returns brDoRxAndPktPhyParse
  simp only [Option.isSome_map, loop, RxHead.start, PhyRx.start]
  refine exists_congr fun count => ?_
  rcases rxRounds _ _ _ _ with head | result <;> simp

/-- The controller delivers nothing but the words of the stream. -/
theorem words_of_delivers {stream : Stream} {wordLen : Nat}
    {deadline : BitVec 64} {started late : Bool} {words : List (List Byte)}
    {count : Nat}
    (delivers :
      Delivers stream.device wordLen deadline started late words count) :
    words = (List.range words.length).map fun i => stream.words (count + i) := by
  induction words generalizing deadline started late count with
  | nil => rfl
  | cons word words ih =>
      obtain ⟨atRead, reads, inTime, notLate⟩ := delivers
      obtain ⟨isWord, isNext⟩ := Prod.mk.inj reads
      obtain rfl : count + 1 = atRead := isNext
      have same : stream.words count = word := by
        rw [← onWire_twice wordLen (stream.words count),
          Except.ok.inj isWord, onWire_twice]
      have later :
          words =
            (List.range words.length).map fun i =>
              stream.words (count + 1 + i) := by
        by_cases brings : Brings started word
        · exact ih (inTime brings)
        · exact ih (notLate brings).2
      rw [List.length_cons, List.range_succ_eq_map, List.map_cons,
        List.map_map, Nat.add_zero, same]
      refine congrArg (word :: ·) (later.trans ?_)
      refine List.map_congr_left fun i _ => ?_
      rw [Function.comp_apply, Nat.add_assoc, Nat.add_comm 1]

theorem Stream.readsWords {stream : Stream} {wordLen : Nat}
    (lengths : ∀ count, (stream.words count).length = wordLen) :
    ReadsWords stream.device wordLen := by
  intro count word next reads
  obtain ⟨isWord, -⟩ := Prod.mk.inj reads
  rw [← Except.ok.inj isWord, length_onWire, lengths]

/-- A loop which has come this far has read the first words of the stream. -/
theorem first_of_rxRounds {stream : Stream} {br : SpiAvmmBridge}
    (generated : br.Generated)
    (lengths : ∀ count, (stream.words count).length = br.wordLen)
    {count : Nat} {head : RxHead Nat}
    (comes :
      rxRounds stream.device br count (RxHead.start stream.device br 0) =
        .inl head) :
    let start := RxHead.start stream.device br 0
    start.HasRoom (stream.first count) ∧
      start.rx.feed (stream.first count).flatten = .parsed head.rx ∧
      start.Delivers stream.device br (stream.first count) := by
  obtain ⟨words, total, -, room, parsed, continues⟩ :=
    words_of_rxRounds generated (Stream.readsWords lengths) comes
  have delivers := (continues []).mpr trivial
  rw [List.append_nil] at delivers
  have isFirst : words = stream.first count := by
    have same :
        words = (List.range words.length).map fun i => stream.words (0 + i) :=
      words_of_delivers delivers
    simpa only [total, Nat.zero_add, Stream.first] using same
  rw [← isFirst]
  exact ⟨room, parsed, delivers⟩

/-- The receiver does not return if and only if the stream is endless. -/
theorem endless_iff {stream : Stream} {br : SpiAvmmBridge}
    (generated : br.Generated)
    (lengths : ∀ count, (stream.words count).length = br.wordLen) :
    Endless stream br ↔
      ∀ count, ∃ head,
        rxRounds stream.device br count (RxHead.start stream.device br 0) =
          .inl head := by
  constructor
  · intro endless count
    have more := endless.reading (count + 1)
    rw [stream.first_succ] at more
    obtain ⟨data, pending, -⟩ :=
      more (stream.first count) _ rfl (List.cons_ne_nil _ _)
    obtain ⟨mid, parsed, -⟩ := pending.feed_clean br.transBuf
    have wordLengths :
        ∀ word ∈ stream.first count, word.length = br.wordLen := by
      intro word member
      obtain ⟨i, -, rfl⟩ := List.mem_map.mp member
      exact lengths i
    have rounds :=
      rxRounds_of_delivers generated wordLengths (endless.inTime count)
        (endless.reading count).hasRoom
    have atHead :
        (RxHead.start stream.device br 0).rx.feed
          (stream.first count).flatten = .parsed mid := parsed
    rw [atHead, stream.length_first] at rounds
    obtain ⟨head, comes, -⟩ := rounds
    exact ⟨head, comes⟩
  · intro all
    constructor
    · intro count
      cases count with
      | zero =>
          intro earlier later split nonempty
          exact absurd (List.append_eq_nil_iff.mp split.symm).2 nonempty
      | succ count =>
          obtain ⟨head, comes⟩ := all count
          obtain ⟨next, goesOn⟩ := all (count + 1)
          rw [rxRounds_add, comes] at goesOn
          have goesOn : rxRounds stream.device br 1 head = .inl next := goesOn
          have notFull : head.rx.tb.getD 0 < transBufSize := by
            cases round : rxRound stream.device br head with
            | inr result =>
                rw [rxRounds, round] at goesOn
                cases goesOn
            | inl after =>
                obtain ⟨notFull, -⟩ :=
                  delivers_of_next generated (Stream.readsWords lengths) round
                have notLe :=
                  mt head.full_iff.mpr (Bool.eq_false_iff.mp notFull)
                omega
          obtain ⟨room, parsed, -⟩ :=
            first_of_rxRounds generated lengths comes
          rw [stream.first_succ]
          exact stillReading_of_parsed room parsed notFull _
    · intro count
      obtain ⟨head, comes⟩ := all count
      obtain ⟨-, -, delivers⟩ := first_of_rxRounds generated lengths comes
      exact delivers

/-! ## What keeps a stream endless -/

/-- A bounded potential grows only finitely often. -/
theorem finally_not_of_bounded (grows : Nat → Prop) {potential : Nat → Nat}
    {bound first : Nat} (bounded : ∀ n, first ≤ n → potential n ≤ bound)
    (keeps : ∀ n, first ≤ n → potential n ≤ potential (n + 1))
    (grown : ∀ n, first ≤ n → grows n → potential n < potential (n + 1)) :
    ∃ last, first ≤ last ∧ ∀ n, last ≤ n → ¬ grows n := by
  induction room : bound - potential first using Nat.strong_induction_on
    generalizing first with
  | _ room ih =>
      by_cases more : ∃ n, first ≤ n ∧ grows n
      · obtain ⟨n, le, grow⟩ := more
        have below : ∀ n, first ≤ n → potential first ≤ potential n := by
          intro n le
          induction n, le using Nat.le_induction with
          | base => exact Nat.le_refl _
          | succ n le below => exact Nat.le_trans below (keeps n le)
        have less := grown n le grow
        have most := bounded (n + 1) (Nat.le_succ_of_le le)
        have least := below n le
        obtain ⟨last, behind, never⟩ :=
          ih (bound - potential (n + 1)) (by omega)
            (fun m after => bounded m (by omega))
            (fun m after => keeps m (by omega))
            (fun m after => grown m (by omega)) rfl
        exact ⟨last, by omega, never⟩
      · push Not at more
        exact ⟨first, Nat.le_refl _, more⟩

/-- What a byte adds to, unless it begins a packet or names a channel. -/
def PhyRx.potential (rx : PhyRx) : Nat :=
  2 * rx.tb.getD 0 + rx.escFound.toNat + rx.eopFound.toNat +
    (!rx.channelFound).toNat

theorem phyRxByte_potential {rx mid : PhyRx} {byte : Byte}
    (takes : phyRxByte rx byte = some (.parsed mid))
    (notSop : byte ≠ pktSop) (notChannel : byte ≠ pktChannel) :
    rx.potential < mid.potential := by
  obtain ⟨-, parsed⟩ := phyRxByte_eq_some takes
  unfold phyRxValidByte at parsed
  obtain ⟨eop, channel, esc, tb, buf⟩ := rx
  simp only [notSop, notChannel, if_false] at parsed
  cases channel <;> cases eop <;> cases esc <;>
    simp only [if_true, Bool.false_eq_true, if_false, Bool.or_true,
      Bool.or_false] at parsed <;>
    split_ifs at parsed <;> cases parsed <;>
    (simp only [PhyRx.potential, PhyRx.record, Option.getD_some,
      Bool.toNat_true, Bool.toNat_false, Bool.not_true, Bool.not_false]
     omega)

/-- Words without such markers add to it if there is something in them. -/
theorem PhyRx.potential_feed {rx mid : PhyRx} {word : List Byte}
    (parsed : rx.feed word = .parsed mid) (noSop : pktSop ∉ word)
    (noChannel : pktChannel ∉ word) :
    rx.potential ≤ mid.potential ∧
      (Brings rx.tb.isSome word → rx.potential < mid.potential) := by
  induction word generalizing rx with
  | nil =>
      obtain rfl := RxByte.parsed.inj parsed
      exact ⟨Nat.le_refl _, fun brings => absurd brings (not_brings_nil _)⟩
  | cons byte word ih =>
      rw [List.mem_cons, not_or] at noSop noChannel
      cases takes : phyRxByte rx byte with
      | none =>
          have nothing := (phyRxByte_eq_none_iff rx byte).mp takes
          rw [rx.feed_of_dropped takes] at parsed
          rw [brings_cons _ byte word nothing]
          exact ih parsed noSop.2 noChannel.2
      | some outcome =>
          rw [PhyRx.feed, takes] at parsed
          cases outcome with
          | fault => cases parsed
          | finished next => cases parsed
          | parsed next =>
              have more :=
                phyRxByte_potential takes (Ne.symm noSop.1)
                  (Ne.symm noChannel.1)
              have rest := (ih parsed noSop.2 noChannel.2).1
              exact ⟨by omega, fun _ => by omega⟩

/-- The heads of the rounds on an endless stream. -/
structure Heads (stream : Stream) (br : SpiAvmmBridge)
    (heads : Nat → RxHead Nat) : Prop where
  start : heads 0 = RxHead.start stream.device br 0
  round : ∀ count,
    rxRound stream.device br (heads count) = .inl (heads (count + 1))

theorem Endless.heads {stream : Stream} {br : SpiAvmmBridge}
    (endless : Endless stream br) (generated : br.Generated)
    (lengths : ∀ count, (stream.words count).length = br.wordLen) :
    ∃ heads, Heads stream br heads := by
  choose heads comes using (endless_iff generated lengths).mp endless
  refine ⟨heads, ?_, fun count => ?_⟩
  · exact (Sum.inl.inj (comes 0)).symm
  · have next := comes (count + 1)
    rw [rxRounds_add, comes count] at next
    have next :
        rxRounds stream.device br 1 (heads count) =
          .inl (heads (count + 1)) := next
    rw [rxRounds] at next
    cases round : rxRound stream.device br (heads count) with
    | inr result =>
        rw [round] at next
        cases next
    | inl after =>
        rw [round] at next
        exact next

section

variable {stream : Stream} {br : SpiAvmmBridge} {heads : Nat → RxHead Nat}

theorem Heads.env (isHeads : Heads stream br heads) (generated : br.Generated)
    (lengths : ∀ count, (stream.words count).length = br.wordLen)
    (count : Nat) : (heads count).env = count := by
  induction count with
  | zero => rw [isHeads.start]; rfl
  | succ count ih =>
      have reads :
          stream.device.spiRead br.wordLen (heads count).env =
            (.ok (onWire br.wordLen (stream.words count)), count + 1) := by
        rw [ih]
        rfl
      have length :
          (onWire br.wordLen (stream.words count)).length = br.wordLen := by
        rw [length_onWire, lengths]
      exact
        (rxRound_next generated length reads (isHeads.round count)).2.2.1

/-- What each word leaves behind. -/
theorem Heads.next (isHeads : Heads stream br heads)
    (generated : br.Generated)
    (lengths : ∀ count, (stream.words count).length = br.wordLen)
    (count : Nat) :
    (heads count).full = false ∧
      (heads count).rx.feed (stream.words count) =
        .parsed (heads (count + 1)).rx ∧
      (¬ Brings (heads count).rx.tb.isSome (stream.words count) →
        (heads count).lastTry = false ∧
          (heads (count + 1)).pollTimeout = (heads count).pollTimeout ∧
          (heads (count + 1)).lastTry =
            timeAfter (stream.clock (count + 1))
              (heads count).pollTimeout) := by
  have reads :
      stream.device.spiRead br.wordLen (heads count).env =
        (.ok (onWire br.wordLen (stream.words count)), count + 1) := by
    rw [isHeads.env generated lengths]
    rfl
  have length :
      (onWire br.wordLen (stream.words count)).length = br.wordLen := by
    rw [length_onWire, lengths]
  obtain ⟨notFull, parsed, -, late⟩ :=
    rxRound_next generated length reads (isHeads.round count)
  rw [onWire_twice] at parsed late
  exact ⟨notFull, parsed, late⟩

/-- Again and again there is something in a word, or the deadline passes. -/
theorem Heads.brings_again (isHeads : Heads stream br heads)
    (generated : br.Generated)
    (lengths : ∀ count, (stream.words count).length = br.wordLen)
    (advances : stream.Advances) (first : Nat) :
    ∃ later, first ≤ later ∧
      Brings (heads later).rx.tb.isSome (stream.words later) := by
  by_contra never
  push Not at never
  have late (count : Nat) (behind : first ≤ count) :=
    (isHeads.next generated lengths count).2.2 (never count behind)
  have deadline :
      ∀ count, first ≤ count →
        (heads count).pollTimeout = (heads first).pollTimeout := by
    intro count behind
    induction count, behind using Nat.le_induction with
    | base => rfl
    | succ count behind ih => rw [(late count behind).2.1, ih]
  obtain ⟨count, behind, passed⟩ :=
    advances (heads first).pollTimeout (first + 1)
  obtain ⟨before, rfl⟩ : ∃ before, count = before + 1 :=
    ⟨count - 1, by omega⟩
  have stale := (late before (by omega)).2.2
  rw [deadline before (by omega), passed] at stale
  have fresh := (late (before + 1) (by omega)).1
  exact Bool.false_ne_true (fresh.symm.trans stale)

/-- Without markers which begin packets or name channels a stream ends. -/
theorem Heads.markers_again (isHeads : Heads stream br heads)
    (generated : br.Generated)
    (lengths : ∀ count, (stream.words count).length = br.wordLen)
    (advances : stream.Advances) (first : Nat) :
    ∃ later, first ≤ later ∧
      (pktSop ∈ stream.words later ∨ pktChannel ∈ stream.words later) := by
  by_contra never
  push Not at never
  have potential (count : Nat) (behind : first ≤ count) :=
    PhyRx.potential_feed (isHeads.next generated lengths count).2.1
      (never count behind).1 (never count behind).2
  have bounded :
      ∀ count, first ≤ count →
        (heads count).rx.potential ≤ 2 * transBufSize + 3 := by
    intro count _
    have notFull := (isHeads.next generated lengths count).1
    have notLe := mt (heads count).full_iff.mpr (Bool.eq_false_iff.mp notFull)
    have flags (flag : Bool) : flag.toNat ≤ 1 := Bool.toNat_le flag
    have esc := flags (heads count).rx.escFound
    have eop := flags (heads count).rx.eopFound
    have channel := flags (!(heads count).rx.channelFound)
    unfold PhyRx.potential
    omega
  obtain ⟨last, behind, nothing⟩ :=
    finally_not_of_bounded
      (fun count =>
        Brings (heads count).rx.tb.isSome (stream.words count))
      bounded (fun count behind => (potential count behind).1)
      (fun count behind => (potential count behind).2)
  obtain ⟨later, after, brings⟩ :=
    isHeads.brings_again generated lengths advances last
  exact nothing later after brings

end

/-- The receiver returns if and only if the stream is not endless. -/
theorem returns_iff_not_endless
    {stream : Stream}
    {br : SpiAvmmBridge}
    (generated : br.Generated)
    (lengths : ∀ count, (stream.words count).length = br.wordLen)
    (advances : stream.Advances) :
    (Returns stream br ↔ ¬ Endless stream br) ∧
      (Endless stream br → ∀ first, ∃ later, first ≤ later ∧
        (pktSop ∈ stream.words later ∨ pktChannel ∈ stream.words later)) := by
  constructor
  · rw [returns_iff, endless_iff generated lengths, not_forall]
    refine exists_congr fun count => ?_
    rcases rxRounds _ _ _ _ with head | result <;> simp
  · intro endless first
    obtain ⟨heads, isHeads⟩ := endless.heads generated lengths
    exact isHeads.markers_again generated lengths advances first

/-! ## Beginnings without an end -/

/-- The clock goes on by one with each read. -/
def tick (count : Nat) : BitVec 64 :=
  BitVec.ofNat 64 count

theorem tick_advances (words : Nat → List Byte) (xferTimeout : BitVec 64) :
    (Stream.mk words tick xferTimeout).Advances := by
  intro deadline count
  refine ⟨deadline.toNat + 1 + 2 ^ 64 * count, by omega, ?_⟩
  have isNext : tick (deadline.toNat + 1 + 2 ^ 64 * count) = deadline + 1 := by
    apply BitVec.eq_of_toNat_eq
    have one : (1 : BitVec 64).toNat = 1 := rfl
    simp only [tick, BitVec.toNat_ofNat, BitVec.toNat_add, one]
    omega
  have passed : deadline - (deadline + 1) = -1 := by
    grind
  show (deadline - tick (deadline.toNat + 1 + 2 ^ 64 * count)).slt 0 = true
  rw [isNext, passed]
  decide

/-- A slave which begins a packet in every word. -/
def beginnings : Stream :=
  ⟨fun _ => [pktSop], tick, 1⟩

theorem beginnings_goesOn (count : Nat) {head : RxHead Nat}
    (notFull : head.full = false)
    (noChannel : head.rx.channelFound = false) :
    ∃ last, rxRounds beginnings.device byteReader count head = .inl last := by
  induction count generalizing head with
  | zero => exact ⟨head, rfl⟩
  | succ count ih =>
      have brings : Brings head.rx.tb.isSome [pktSop] := by
        cases head.rx.tb.isSome <;> decide
      have delivers :
          head.Delivers beginnings.device byteReader [[pktSop]] :=
        ⟨head.env + 1, rfl, fun _ => trivial,
          fun nothing => absurd brings nothing⟩
      have round :=
        rxRound_of_delivers (Or.inl ⟨rfl, rfl⟩) notFull rfl delivers
      have begins :
          head.rx.feed [pktSop] =
            .parsed (.within false false 0 head.rx.transBuf) :=
        PhyRx.feed_cons_of_parsed (phyRxByte_sop noChannel) []
      rw [begins] at round
      obtain ⟨next, goesOn, atNext, -⟩ := round
      have empty : next.full = false := by
        rw [RxHead.full, atNext]
        rfl
      obtain ⟨last, comes⟩ := ih empty (by rw [atNext]; rfl)
      refine ⟨last, ?_⟩
      rw [rxRounds, goesOn]
      exact comes

theorem beginnings_never_return :
    (∀ count, (beginnings.words count).length = byteReader.wordLen) ∧
      beginnings.Advances ∧ ¬ Returns beginnings byteReader := by
  refine ⟨fun _ => rfl, tick_advances _ _, ?_⟩
  rw [returns_iff]
  rintro ⟨count, result, returns⟩
  have notFull :
      (RxHead.start beginnings.device byteReader 0).full = false := rfl
  obtain ⟨last, goesOn⟩ := beginnings_goesOn count notFull rfl
  cases returns.symm.trans goesOn

/-- A slave which sends nothing but idle bytes. -/
def silence : Stream :=
  ⟨fun _ => [phyIdle], tick, 1⟩

theorem silence_returns : Returns silence byteReader := by
  have generated : byteReader.Generated := Or.inl ⟨rfl, rfl⟩
  have lengths (count : Nat) :
      (silence.words count).length = byteReader.wordLen := rfl
  have advances : silence.Advances := tick_advances _ _
  have spec := returns_iff_not_endless generated lengths advances
  refine spec.1.mpr fun endless => ?_
  obtain ⟨later, -, marker⟩ := spec.2 endless 0
  have neither : ¬ (pktSop ∈ [phyIdle] ∨ pktChannel ∈ [phyIdle]) := by decide
  exact neither marker

end LinuxDfl.Spi

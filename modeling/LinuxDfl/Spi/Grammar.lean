import Mathlib.Data.List.Induction
import LinuxDfl.Spi.Protocol

/-!
# The grammar of an answer

What a slave may send, as a language over the bytes behind the first marker
of a beginning, without the idle ones.  A packet may be abandoned anywhere but
in front of a channel number, by the beginning of another one.  Every stream
is unfinished, or begins with a complete packet or with a violation.
-/

namespace LinuxDfl.Spi

open LinuxDfl.Lib.LittleEndian

/-! ## The parts of a packet -/

/-- The escapes of both layers. -/
def IsEscape (byte : Byte) : Prop :=
  byte = pktEsc ∨ byte = phyEsc

/-- The markers which may not follow an escape, nor each other at the end. -/
def IsMarker (byte : Byte) : Prop :=
  byte = pktEop ∨ byte = pktChannel

/-- The byte is special in neither layer. -/
structure Plain (byte : Byte) : Prop where
  notPkt : pktSpecial byte = false
  notPhy : phySpecial byte = false

/-- A datum, with the bytes which stand for it. -/
inductive Datum : List Byte → Byte → Prop
  | plain {byte : Byte} (plain : Plain byte) : Datum [byte] byte
  | escaped {escape byte : Byte} (isEscape : IsEscape escape)
      (plain : Plain byte) : Datum [escape, byte] (byte ^^^ 0x20)

/-- Data and channel numbers, with the data in them. -/
inductive Items : List Byte → List Byte → Prop
  | nil : Items [] []
  | channel {coded data : List Byte} (items : Items coded data) :
      Items (pktChannel :: 0 :: coded) data
  | datum {code coded data : List Byte} {byte : Byte}
      (datum : Datum code byte) (items : Items coded data) :
      Items (code ++ coded) (byte :: data)

/-- What may stand behind the items when a packet is abandoned. -/
inductive Unfinished : List Byte → Prop
  | items : Unfinished []
  | escape {escape : Byte} (isEscape : IsEscape escape) : Unfinished [escape]
  | ending : Unfinished [pktEop]
  | endingEscape {escape : Byte} (isEscape : IsEscape escape) :
      Unfinished [pktEop, escape]

/-- What may not stand behind the items. -/
inductive Violation : List Byte → Prop
  | channelNumber {number : Byte} (nonzero : number ≠ 0) :
      Violation [pktChannel, number]
  | twoEscapes {escape again : Byte} (isEscape : IsEscape escape)
      (isAgain : IsEscape again) : Violation [escape, again]
  | escapedMarker {escape marker : Byte} (isEscape : IsEscape escape)
      (isMarker : IsMarker marker) : Violation [escape, marker]
  | endingMarker {marker : Byte} (isMarker : IsMarker marker) :
      Violation [pktEop, marker]
  | endingTwoEscapes {escape again : Byte} (isEscape : IsEscape escape)
      (isAgain : IsEscape again) : Violation [pktEop, escape, again]
  | endingEscapedMarker {escape marker : Byte} (isEscape : IsEscape escape)
      (isMarker : IsMarker marker) : Violation [pktEop, escape, marker]

/-! ## Streams -/

/-- Packets which are abandoned, the last one by what follows. -/
inductive Abandoned : List Byte → Prop
  | none : Abandoned []
  | packet {before coded data tail : List Byte}
      (abandoned : Abandoned before) (items : Items coded data)
      (unfinished : Unfinished tail) :
      Abandoned (before ++ pktSop :: (coded ++ tail))

/-- The last packet is not complete, with its data so far. -/
inductive Pending : List Byte → List Byte → Prop
  | silent : Pending [] []
  | packet {before coded data tail : List Byte}
      (abandoned : Abandoned before) (items : Items coded data)
      (unfinished : Unfinished tail) :
      Pending (before ++ pktSop :: (coded ++ tail)) data
  | channel {before coded data : List Byte}
      (abandoned : Abandoned before) (items : Items coded data) :
      Pending (before ++ pktSop :: (coded ++ [pktChannel])) data

/-- The last packet is complete, with its data. -/
inductive Accepted : List Byte → List Byte → Prop
  | packet {before coded code init : List Byte} {last : Byte}
      (abandoned : Abandoned before) (items : Items coded init)
      (datum : Datum code last) :
      Accepted (before ++ pktSop :: (coded ++ pktEop :: code))
        (init ++ [last])

/-- The last packet ends in a violation. -/
inductive Rejected : List Byte → Prop
  | packet {before coded data fault : List Byte}
      (abandoned : Abandoned before) (items : Items coded data)
      (violation : Violation fault) :
      Rejected (before ++ pktSop :: (coded ++ fault))

/-- The stream from the first beginning of a packet, without idle bytes. -/
def clean (bytes : List Byte) : List Byte :=
  (bytes.dropWhile (· ≠ pktSop)).filter (· ≠ phyIdle)

/-- A packet is complete somewhere in these bytes. -/
def AcceptedIn (bytes data : List Byte) : Prop :=
  ∃ before rest, bytes = before ++ rest ∧ Accepted (clean before) data

/-- There is a violation somewhere in these bytes. -/
def RejectedIn (bytes : List Byte) : Prop :=
  ∃ before rest, bytes = before ++ rest ∧ Rejected (clean before)

/-! ## Every stream is one of these -/

/-- Bytes which are not idle are escapes, markers, beginnings or plain. -/
theorem byte_kinds {byte : Byte} (notIdle : byte ≠ phyIdle) :
    byte = pktSop ∨ IsEscape byte ∨ IsMarker byte ∨ Plain byte := by
  by_cases sop : byte = pktSop
  · exact Or.inl sop
  by_cases isEscape : IsEscape byte
  · exact Or.inr (Or.inl isEscape)
  by_cases isMarker : IsMarker byte
  · exact Or.inr (Or.inr (Or.inl isMarker))
  · rw [IsEscape, not_or] at isEscape
    rw [IsMarker, not_or] at isMarker
    refine Or.inr (Or.inr (Or.inr ⟨?_, ?_⟩))
    · simp [pktSpecial, sop, isMarker.1, isMarker.2, isEscape.1]
    · simp [phySpecial, notIdle, isEscape.2]

theorem Items.append {coded more data others : List Byte}
    (items : Items coded data) (rest : Items more others) :
    Items (coded ++ more) (data ++ others) := by
  induction items with
  | nil => exact rest
  | channel _ ih => exact Items.channel ih
  | datum datum _ ih =>
      rw [List.append_assoc]
      exact Items.datum datum ih

theorem Items.concat {coded code data : List Byte} {byte : Byte}
    (items : Items coded data) (datum : Datum code byte) :
    Items (coded ++ code) (data ++ [byte]) := by
  have one : Items (code ++ []) [byte] := Items.datum datum Items.nil
  rw [List.append_nil] at one
  exact items.append one

theorem Items.concatChannel {coded data : List Byte}
    (items : Items coded data) : Items (coded ++ [pktChannel, 0]) data := by
  have both := items.append (Items.channel Items.nil)
  rwa [List.append_nil] at both

/-- A stream is unfinished, or has just been decided. -/
def Known (bytes : List Byte) : Prop :=
  (∃ data, Pending bytes data) ∨ (∃ data, Accepted bytes data) ∨
    Rejected bytes

/-- A beginning abandons what has not been finished. -/
theorem Abandoned.known_sop {before : List Byte}
    (abandoned : Abandoned before) : Known (before ++ [pktSop]) :=
  Or.inl ⟨[], Pending.packet abandoned Items.nil Unfinished.items⟩

/-- One more byte behind an unfinished packet, before a channel number. -/
theorem Unfinished.known_concat {before coded data tail : List Byte}
    (abandoned : Abandoned before) (items : Items coded data)
    (unfinished : Unfinished tail) {byte : Byte} (notIdle : byte ≠ phyIdle) :
    Known (before ++ pktSop :: (coded ++ (tail ++ [byte]))) := by
  have rejected {fault : List Byte} (violation : Violation fault) :
      Known (before ++ pktSop :: (coded ++ fault)) :=
    Or.inr (Or.inr (Rejected.packet abandoned items violation))
  have pending {tail : List Byte} (unfinished : Unfinished tail) :
      Known (before ++ pktSop :: (coded ++ tail)) :=
    Or.inl ⟨data, Pending.packet abandoned items unfinished⟩
  have recorded {code : List Byte} {last : Byte} (datum : Datum code last) :
      Known (before ++ pktSop :: (coded ++ code)) := by
    have more :=
      Pending.packet abandoned (items.concat datum) Unfinished.items
    rw [List.append_nil] at more
    exact Or.inl ⟨_, more⟩
  have accepted {code : List Byte} {last : Byte} (datum : Datum code last) :
      Known (before ++ pktSop :: (coded ++ pktEop :: code)) :=
    Or.inr (Or.inl ⟨_, Accepted.packet abandoned items datum⟩)
  rcases byte_kinds notIdle with rfl | isEscape | isMarker | plain
  · have restarts :=
      (Abandoned.packet abandoned items unfinished).known_sop
    simpa only [List.append_assoc, List.cons_append] using restarts
  · cases unfinished with
    | items => exact pending (Unfinished.escape isEscape)
    | escape isFirst => exact rejected (Violation.twoEscapes isFirst isEscape)
    | ending => exact pending (Unfinished.endingEscape isEscape)
    | endingEscape isFirst =>
        exact rejected (Violation.endingTwoEscapes isFirst isEscape)
  · cases unfinished with
    | items =>
        rcases isMarker with rfl | rfl
        · exact pending Unfinished.ending
        · exact Or.inl ⟨data, Pending.channel abandoned items⟩
    | escape isFirst =>
        exact rejected (Violation.escapedMarker isFirst isMarker)
    | ending => exact rejected (Violation.endingMarker isMarker)
    | endingEscape isFirst =>
        exact rejected (Violation.endingEscapedMarker isFirst isMarker)
  · cases unfinished with
    | items => exact recorded (Datum.plain plain)
    | escape isFirst => exact recorded (Datum.escaped isFirst plain)
    | ending => exact accepted (Datum.plain plain)
    | endingEscape isFirst => exact accepted (Datum.escaped isFirst plain)

/-- Behind an unfinished stream, the next byte leaves no other case. -/
theorem Pending.known_concat {bytes data : List Byte}
    (pending : Pending bytes data) {byte : Byte} (notIdle : byte ≠ phyIdle)
    (begins : bytes = [] → byte = pktSop) : Known (bytes ++ [byte]) := by
  cases pending with
  | silent =>
      rw [begins rfl]
      exact Abandoned.none.known_sop
  | packet abandoned items unfinished =>
      simpa only [List.append_assoc, List.cons_append] using
        unfinished.known_concat abandoned items notIdle
  | @channel before coded data abandoned items =>
      by_cases zero : byte = 0
      · subst zero
        have more :=
          Pending.packet abandoned items.concatChannel Unfinished.items
        refine Or.inl ⟨data, ?_⟩
        simpa only [List.append_assoc, List.cons_append, List.nil_append,
          List.append_nil] using more
      · have rejected :=
          Rejected.packet abandoned items (Violation.channelNumber zero)
        refine Or.inr (Or.inr ?_)
        simpa only [List.append_assoc, List.cons_append, List.nil_append]
          using rejected

/-- A byte is dropped if it is idle, or if no packet has begun. -/
theorem clean_concat (bytes : List Byte) (byte : Byte) :
    clean (bytes ++ [byte]) =
      if byte = phyIdle ∨ (clean bytes = [] ∧ byte ≠ pktSop) then clean bytes
      else clean bytes ++ [byte] := by
  have sopNotIdle : pktSop ≠ phyIdle := by decide
  unfold clean
  rw [List.dropWhile_append]
  cases begun : bytes.dropWhile (· ≠ pktSop) with
  | nil =>
      by_cases sop : byte = pktSop
      · simp [sop, sopNotIdle]
      · simp [sop]
  | cons first rest =>
      have isSop : first = pktSop := by
        have kept := List.head?_dropWhile_not (· ≠ pktSop) bytes
        rw [begun] at kept
        simpa using kept
      subst isSop
      by_cases idle : byte = phyIdle
      · simp [idle, sopNotIdle]
      · simp [idle, sopNotIdle]

/--
Every stream is unfinished, or there is a complete packet or a violation
somewhere in it.
-/
theorem pending_or_decided (bytes : List Byte) :
    (∃ data, Pending (clean bytes) data) ∨ (∃ data, AcceptedIn bytes data) ∨
      RejectedIn bytes := by
  induction bytes using List.reverseRecOn with
  | nil => exact Or.inl ⟨[], Pending.silent⟩
  | append_singleton bytes byte ih =>
      rcases ih with ⟨data, pending⟩ | ⟨data, before, rest, rfl, accepted⟩ |
        ⟨before, rest, rfl, rejected⟩
      · have cleaned := clean_concat bytes byte
        split_ifs at cleaned with dropped
        · rw [cleaned]
          exact Or.inl ⟨data, pending⟩
        · rw [not_or, not_and, not_not] at dropped
          have known := pending.known_concat dropped.1 dropped.2
          rw [← cleaned] at known
          rcases known with unfinished | ⟨data, accepted⟩ | rejected
          · exact Or.inl unfinished
          · exact Or.inr (Or.inl ⟨data, _, [], by simp, accepted⟩)
          · exact Or.inr (Or.inr ⟨_, [], by simp, rejected⟩)
      · exact Or.inr (Or.inl
          ⟨data, before, rest ++ [byte], by simp, accepted⟩)
      · exact Or.inr (Or.inr ⟨before, rest ++ [byte], by simp, rejected⟩)

end LinuxDfl.Spi

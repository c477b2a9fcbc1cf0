import LinuxDfl.Fpga.Cvp

/-!
# Credits and words of CvP transfers

The counter of blocks sent is truncated, and so is the one the device shows.
Since the device is never more than 255 blocks ahead, they differ only while
there is credit left.
-/

namespace LinuxDfl.Fpga.Cvp

open LinuxDfl.Kernel
open LinuxDfl.Lib.LittleEndian
open LinuxDfl.Lib.Traced
open LinuxDfl.Lib.Traced.Program

/-! ## What is said of a transfer -/

/-- The words written to the device. -/
def wordsOf (events : List Event) : List (BitVec 32) :=
  events.filterMap fun
    | .block _ _ => none
    | .word data => some data

theorem wordsOf_append (first second : List Event) :
    wordsOf (first ++ second) = wordsOf first ++ wordsOf second :=
  List.filterMap_append

/-- Each block was sent while fewer had been sent than were granted. -/
def Credited (events : List Event) : Prop :=
  ∀ granted sent, .block granted sent ∈ events → sent < granted

theorem Credited.append_word {events : List Event}
    (credited : Credited events) (data : BitVec 32) :
    Credited (events ++ [.word data]) := by
  intro granted sent member
  rcases List.mem_append.mp member with member | member
  · exact credited granted sent member
  · cases List.mem_singleton.mp member

theorem Credited.append_block {events : List Event}
    (credited : Credited events) {granted sent : Nat}
    (credit : sent < granted) :
    Credited (events ++ [.block granted sent]) := by
  intro granted sent member
  rcases List.mem_append.mp member with member | member
  · exact credited granted sent member
  · cases List.mem_singleton.mp member
    exact credit

/-- The counters, when `ahead` blocks are on their way. -/
structure Agrees (version : Version) (ahead : Nat) (conf : CvpConf) :
    Prop where
  packets : conf.sentPackets + BitVec.ofNat 32 ahead =
    BitVec.ofNat 32 conf.sent
  window : conf.granted ≤ conf.sent + 255
  credit : version = .v2 → conf.sent ≤ conf.granted

/-- There is credit left, if the device works with credits. -/
structure HasCredit (version : Version) (conf : CvpConf) : Prop where
  agrees : Agrees version 0 conf
  left : version = .v2 → conf.sent < conf.granted

/-- What has been written so far, and what holds of the state. -/
structure Holding (version : Version) (written : List (BitVec 32))
    (holds : CvpConf → Prop) (past : List Event) (conf : CvpConf) : Prop where
  words : wordsOf past = written
  credited : version = .v2 → Credited past
  state : holds conf

/-- What holds when a call fails. -/
structure Failed (version : Version) (past : List Event) (conf : CvpConf) :
    Prop where
  credited : version = .v2 → Credited past
  agrees : Agrees version 0 conf

variable {env : CvpEnv} {version : Version} {written : List (BitVec 32)}
  {holds : CvpConf → Prop} {fails : Assertion Event CvpConf}

theorem Holding.mono {weaker : CvpConf → Prop}
    (implies : ∀ conf, holds conf → weaker conf) {past : List Event}
    {conf : CvpConf} (holding : Holding version written holds past conf) :
    Holding version written weaker past conf :=
  ⟨holding.words, holding.credited, implies conf holding.state⟩

/-! ## The device grants blocks -/

/-- The device may grant blocks at any time. -/
def Stable (env : CvpEnv) (holds : CvpConf → Prop) : Prop :=
  ∀ conf, holds conf → holds (conf.next env)

theorem agrees_stable (version : Version) (ahead : Nat) :
    Stable env (Agrees version ahead) := by
  intro conf agrees
  refine ⟨agrees.packets, ?_, fun isV2 => ?_⟩
  · exact max_le agrees.window (min_le_right _ _)
  · exact (agrees.credit isV2).trans (le_max_left _ _)

theorem access_holding (stable : Stable env holds) :
    Triple (Holding version written holds) (access env)
      (fun _ => Holding version written holds) fails := by
  intro past conf holding
  show Holding version written holds (past ++ []) (conf.next env)
  rw [List.append_nil]
  exact ⟨holding.words, holding.credited, stable conf holding.state⟩

/-! ## Waiting for credit -/

theorem readTxCredits_holding :
    Triple (Holding version written (Agrees version 0)) (readTxCredits env)
      (fun val => Holding version written fun conf =>
        Agrees version 0 conf ∧ val = BitVec.ofNat 8 conf.granted)
      (Failed version) := by
  refine Triple.bind (access_holding (agrees_stable version 0)) ?_
  intro number
  cases env.creditRead number with
  | some ret =>
      exact Triple.fail fun _ _ holding => ⟨holding.credited, holding.state⟩
  | none =>
      refine Triple.withState fun seen => Triple.ret ?_
      rintro past conf ⟨holding, rfl⟩
      exact ⟨holding.words, holding.credited, holding.state, rfl⟩

theorem alteraCvpChkError_holding :
    Triple (Holding version written (Agrees version 0))
      (alteraCvpChkError env)
      (fun _ => Holding version written (Agrees version 0)) fails := by
  refine Triple.bind (access_holding (agrees_stable version 0)) ?_
  intro number
  cases env.status number with
  | error ret => exact Triple.ret fun _ _ => id
  | ok val =>
      dsimp only
      split
      · exact Triple.ret fun _ _ => id
      · exact Triple.ret fun _ _ => id

/-- The counters differ modulo 256 only if there is credit left. -/
theorem Agrees.hasCredit {conf : CvpConf} (agrees : Agrees version 0 conf)
    (differs : ((BitVec.ofNat 8 conf.granted).toNat : Int) -
      (conf.sentPackets.setWidth 8).toNat ≠ 0) :
    HasCredit version conf := by
  refine ⟨agrees, fun isV2 => ?_⟩
  refine lt_of_le_of_ne (agrees.credit isV2) fun same => differs ?_
  have packets := agrees.packets
  rw [BitVec.add_zero] at packets
  rw [packets, ← same, BitVec.toNat_setWidth, BitVec.toNat_ofNat,
    BitVec.toNat_ofNat, Nat.mod_mod_of_dvd _ (by decide)]
  exact sub_self _

theorem creditTurn_holding {next : CvpProgram Unit}
    (onwards : Triple (Holding version written (Agrees version 0)) next
      (fun _ => Holding version written (HasCredit version))
      (Failed version)) :
    Triple (Holding version written (Agrees version 0)) (creditTurn env next)
      (fun _ => Holding version written (HasCredit version))
      (Failed version) := by
  refine Triple.bind readTxCredits_holding fun val => ?_
  refine Triple.withState fun seen => ?_
  split
  case isTrue differs =>
    refine Triple.ret ?_
    rintro past conf ⟨holding, rfl⟩
    obtain ⟨agrees, rfl⟩ := holding.state
    exact ⟨holding.words, holding.credited, agrees.hasCredit differs⟩
  case isFalse =>
    refine Triple.of_pre ?_ fun past conf found =>
      found.1.mono fun _ state => state.1
    refine Triple.bind alteraCvpChkError_holding fun ret => ?_
    cases ret with
    | some ret =>
        exact Triple.fail fun _ _ holding => ⟨holding.credited, holding.state⟩
    | none => exact onwards

theorem creditLoop_holding (timeout : Nat) :
    Triple (Holding version written (Agrees version 0))
      (creditLoop env timeout)
      (fun _ => Holding version written (HasCredit version))
      (Failed version) := by
  induction timeout with
  | zero =>
      exact creditTurn_holding
        (Triple.fail fun _ _ holding => ⟨holding.credited, holding.state⟩)
  | succ timeout ih => exact creditTurn_holding ih

theorem waitCredit_holding :
    Triple (Holding version written (Agrees version 0))
      (waitCredit env version)
      (fun _ => Holding version written (HasCredit version))
      (Failed version) := by
  cases version with
  | v1 =>
      exact Triple.ret fun _ _ holding =>
        holding.mono fun _ agrees => ⟨agrees, nofun⟩
  | v2 => exact creditLoop_holding _

/-! ## Sending blocks -/

theorem startBlock_holding :
    Triple (Holding version written (HasCredit version)) startBlock
      (fun _ => Holding version written (Agrees version 1)) fails := by
  intro past conf holding
  obtain ⟨agrees, left⟩ := holding.state
  show Holding version written (Agrees version 1)
    (past ++ [.block conf.granted conf.sent])
    { conf with sent := conf.sent + 1 }
  refine ⟨?_, fun isV2 => (holding.credited isV2).append_block (left isV2),
    ?_, ?_, left⟩
  · rw [wordsOf_append, holding.words]
    exact List.append_nil _
  · rw [BitVec.ofNat_add, ← agrees.packets, BitVec.add_zero]
  · exact agrees.window.trans (Nat.add_le_add_right (Nat.le_succ _) 255)

theorem writeData_holding (stable : Stable env holds) (data : BitVec 32) :
    Triple (Holding version written holds) (writeData env data)
      (fun _ => Holding version (written ++ [data]) holds) fails := by
  refine Triple.bind (access_holding stable) fun _ => Triple.emit ?_
  intro past conf holding
  refine ⟨?_, fun isV2 => (holding.credited isV2).append_word data,
    holding.state⟩
  rw [wordsOf_append, holding.words]
  rfl

/-- The words of some bytes, the last one filled up with zeros. -/
def imageWords (bytes : List Byte) : List (BitVec 32) :=
  (words 4 bytes).map (BitVec.ofNat 32)

@[simp]
theorem length_bytesAt (memory : Nat → Byte) (start length : Nat) :
    (bytesAt memory start length).length = length := by
  rw [bytesAt, List.length_map, List.length_range]

theorem bytesAt_add (memory : Nat → Byte) (start first rest : Nat) :
    bytesAt memory start (first + rest) =
      bytesAt memory start first ++ bytesAt memory (start + first) rest := by
  rw [bytesAt, List.range_add, List.map_append, List.map_map]
  simp only [bytesAt, Function.comp_def, Nat.add_assoc]

theorem imageWords_add {first : Nat} (dvd : 4 ∣ first)
    (memory : Nat → Byte) (start rest : Nat) :
    imageWords (bytesAt memory start (first + rest)) =
      imageWords (bytesAt memory start first) ++
        imageWords (bytesAt memory (start + first) rest) := by
  rw [bytesAt_add, imageWords, words_append_of_dvd (by decide)
    ((length_bytesAt memory start first).symm ▸ dvd), List.map_append]
  rfl

theorem imageWords_zero (memory : Nat → Byte) (start : Nat) :
    imageWords (bytesAt memory start 0) = [] := by
  have none : bytesAt memory start 0 = [] := rfl
  rw [imageWords, none, words_nil 4 (by decide)]
  rfl

theorem imageWords_four (memory : Nat → Byte) (data : Nat) :
    imageWords (bytesAt memory (4 * data) 4) = [wordAt memory data] := by
  rw [imageWords, words_of_length_le (by rw [length_bytesAt]; decide)
    (by rw [length_bytesAt])]
  rfl

/-- What is left of a word under a mask. -/
theorem ofNat_and_mask (value : Nat) {remainder : Nat}
    (some : 0 < remainder) (few : remainder < 4) :
    BitVec.ofNat 32 (value % 256 ^ remainder) =
      BitVec.ofNat 32 value &&& trailingMask remainder := by
  have mask : (trailingMask remainder).toNat = 2 ^ (8 * remainder) - 1 := by
    obtain rfl | rfl | rfl : remainder = 1 ∨ remainder = 2 ∨ remainder = 3 := by
      omega
    all_goals rfl
  have dvd : 2 ^ (8 * remainder) ∣ 2 ^ 32 := Nat.pow_dvd_pow 2 (by omega)
  have small : value % 2 ^ (8 * remainder) < 2 ^ 32 :=
    (Nat.mod_lt _ (Nat.two_pow_pos _)).trans_le
      (Nat.le_of_dvd (by decide) dvd)
  apply BitVec.eq_of_toNat_eq
  rw [BitVec.toNat_and, mask, Nat.and_two_pow_sub_one_eq_mod,
    BitVec.toNat_ofNat, BitVec.toNat_ofNat, Nat.mod_mod_of_dvd _ dvd,
    show 256 = 2 ^ 8 from rfl, ← Nat.pow_mul, Nat.mod_eq_of_lt small]

/-- The bytes which are left are those of the word which is masked. -/
theorem imageWords_remainder (memory : Nat → Byte) (data : Nat)
    {remainder : Nat} (some : 0 < remainder) (few : remainder < 4) :
    imageWords (bytesAt memory (4 * data) remainder) =
      [wordAt memory data &&& trailingMask remainder] := by
  have whole : remainder + (4 - remainder) = 4 := by omega
  have first : bytesAt memory (4 * data) remainder =
      (bytesAt memory (4 * data) 4).take remainder := by
    rw [← whole, bytesAt_add, List.take_left' (length_bytesAt ..)]
  rw [imageWords, words_of_length_le (by rw [length_bytesAt]; exact some)
    (by rw [length_bytesAt]; omega), first, ← ofBytes_mod, List.map_singleton,
    ofNat_and_mask _ some few, wordAt]

theorem sendWords_holding (stable : Stable env holds)
    (memory : Nat → Byte) (data count : Nat) :
    Triple (Holding version written holds) (sendWords env memory data count)
      (fun _ => Holding version
        (written ++ imageWords (bytesAt memory (4 * data) (4 * count))) holds)
      fails := by
  induction count generalizing data written with
  | zero =>
      rw [Nat.mul_zero, imageWords_zero, List.append_nil]
      exact Triple.ret fun _ _ => id
  | succ count ih =>
      have cut : 4 * (count + 1) = 4 + 4 * count := by omega
      have next : 4 * data + 4 = 4 * (data + 1) := by omega
      rw [cut, imageWords_add (Nat.dvd_refl 4), imageWords_four, next,
        ← List.append_assoc]
      exact Triple.bind (writeData_holding stable _) fun _ => ih (data + 1)

theorem alteraCvpSendBlock_holding (memory : Nat → Byte) (data len : Nat) :
    Triple (Holding version written (HasCredit version))
      (alteraCvpSendBlock env memory data len)
      (fun _ => Holding version
        (written ++ imageWords (bytesAt memory (4 * data) len))
        (Agrees version 1))
      fails := by
  have stable : Stable env (Agrees version 1) := agrees_stable version 1
  have parts : 4 * (len / 4) + len % 4 = len := Nat.div_add_mod len 4
  have rest : 4 * data + 4 * (len / 4) = 4 * (data + len / 4) := by omega
  have few : len % 4 < 4 := Nat.mod_lt _ (by decide)
  conv in bytesAt memory (4 * data) len => rw [← parts]
  rw [imageWords_add (Nat.dvd_mul_right 4 _), rest, ← List.append_assoc]
  refine Triple.bind startBlock_holding fun _ =>
    Triple.bind (sendWords_holding stable memory data (len / 4)) fun _ => ?_
  dsimp only
  split
  case isTrue left =>
    have some : 0 < len % 4 := Nat.pos_of_ne_zero left.1
    rw [imageWords_remainder memory _ some few]
    exact writeData_holding stable _
  case isFalse noMask =>
    -- the mask of some bytes is not zero
    have none : len % 4 = 0 := by
      by_contra some
      refine noMask ⟨some, ?_⟩
      obtain is | is | is : len % 4 = 1 ∨ len % 4 = 2 ∨ len % 4 = 3 := by omega
      all_goals
        rw [is]
        decide
    rw [none, imageWords_zero, List.append_nil]
    exact Triple.ret fun _ _ => id

/-! ## A whole call -/

theorem chkcfgError_holding :
    Triple (Holding version written (Agrees version 0)) (chkcfgError env)
      (fun _ => Holding version written (Agrees version 0))
      (Failed version) := by
  refine Triple.bind (access_holding (agrees_stable version 0)) ?_
  intro number
  split
  · refine Triple.bind alteraCvpChkError_holding fun status => ?_
    cases status with
    | some ret =>
        exact Triple.fail fun _ _ holding => ⟨holding.credited, holding.state⟩
    | none => exact Triple.ret fun _ _ => id
  · exact Triple.ret fun _ _ => id

theorem countBlock_holding :
    Triple (Holding version written (Agrees version 1)) countBlock
      (fun _ => Holding version written (Agrees version 0)) fails := by
  refine Triple.update fun past conf holding => ?_
  obtain ⟨packets, window, credit⟩ := holding.state
  refine ⟨holding.words, holding.credited, ?_, window, credit⟩
  rw [BitVec.add_zero]
  exact packets

theorem oneBlock_holding (memory : Nat → Byte) (data done len : Nat) :
    Triple (Holding version written (Agrees version 0))
      (oneBlock env version memory data done len)
      (fun _ => Holding version
        (written ++ imageWords (bytesAt memory (4 * data) len))
        (Agrees version 0))
      (Failed version) := by
  refine Triple.bind waitCredit_holding fun _ =>
    Triple.bind (alteraCvpSendBlock_holding memory data len) fun _ =>
    Triple.bind countBlock_holding fun _ => ?_
  split
  · exact chkcfgError_holding
  · exact Triple.ret fun _ _ => id

theorem writeLoop_holding (memory : Nat → Byte) (data done remaining : Nat) :
    Triple (Holding version written (Agrees version 0))
      (writeLoop env version memory data done remaining)
      (fun _ => Holding version
        (written ++ imageWords (bytesAt memory (4 * data) remaining))
        (Agrees version 0))
      (Failed version) := by
  induction remaining using Nat.strong_induction_on
    generalizing data done written with
  | _ remaining ih =>
  rw [writeLoop]
  split
  case isTrue none =>
    rw [none, imageWords_zero, List.append_nil]
    exact Triple.ret fun _ _ => id
  case isFalse some =>
    have positive := blockSize_pos version
    have dvdBlock : 4 ∣ version.blockSize := by
      cases version <;> decide
    let len := min version.blockSize remaining
    have less : remaining - len < remaining := by omega
    have parts : len + (remaining - len) = remaining := by omega
    -- only the last block may end within a word
    have words : imageWords (bytesAt memory (4 * data) remaining) =
        imageWords (bytesAt memory (4 * data) len) ++
          imageWords (bytesAt memory (4 * (data + len / 4))
            (remaining - len)) := by
      by_cases whole : 4 ∣ len
      · have next : 4 * (data + len / 4) = 4 * data + len := by omega
        rw [next, ← imageWords_add whole, parts]
      · have last : len = remaining := by
          rcases min_choice version.blockSize remaining with is | is
          · exact absurd (show 4 ∣ min version.blockSize remaining from
              is.symm ▸ dvdBlock) whole
          · exact is
        rw [last, Nat.sub_self, imageWords_zero, List.append_nil]
    rw [words, ← List.append_assoc]
    exact Triple.bind (oneBlock_holding memory data done len) fun _ =>
      ih (remaining - len) less (data + len / 4) (done + len)

theorem alteraCvpWrite_holding (env : CvpEnv) (memory : Nat → Byte) (count : Nat) :
    Triple (Holding version [] (Agrees version 0))
      (alteraCvpWrite env version memory count)
      (fun _ => Holding version (imageWords (bytesAt memory 0 count))
        (Agrees version 0))
      (Failed version) := by
  refine Triple.bind (writeLoop_holding memory 0 0 count) fun _ => ?_
  rw [List.nil_append]
  exact chkcfgError_holding

/-! ## Any calls after one preparation -/

/-- What a call is to do. -/
structure Throttled (version : Version) (call : WriteCall)
    (run : Run Event Errno CvpConf Unit) : Prop where
  credited : version = .v2 → Credited run.events
  words : run.result = .ok () → wordsOf run.events = imageWords call.buf

theorem alteraCvpWrite_throttled (env : CvpEnv) {conf : CvpConf}
    (agrees : Agrees version 0 conf) (call : WriteCall) :
    let run := alteraCvpWrite env version call.memory call.count conf
    Throttled version call run ∧ Agrees version 0 run.state := by
  have initial : Holding version [] (Agrees version 0) [] conf :=
    ⟨rfl, fun _ _ _ member => (nomatch member), agrees⟩
  have holds := alteraCvpWrite_holding env call.memory call.count [] conf
    initial
  dsimp only
  cases result :
      (alteraCvpWrite env version call.memory call.count conf).result with
  | error ret =>
      rw [result] at holds
      exact ⟨⟨holds.credited, fun isOk => nomatch result.symm.trans isOk⟩,
        holds.agrees⟩
  | ok value =>
      rw [result] at holds
      exact ⟨⟨holds.credited, fun _ => holds.words⟩, holds.state⟩

theorem writeCalls_throttled (calls : List WriteCall) {conf : CvpConf}
    (agrees : Agrees version 0 conf) :
    ∀ entry ∈ writeCalls env version calls conf,
      Throttled version entry.1 entry.2 := by
  induction calls generalizing conf with
  | nil => exact fun _ member => nomatch member
  | cons call rest ih =>
      obtain ⟨throttled, next⟩ :=
        alteraCvpWrite_throttled env agrees call
      intro entry member
      rcases List.mem_cons.mp member with rfl | member
      · exact throttled
      · exact ih next entry member

/--
However the device grants its blocks, it is never sent a block for which there
is no credit left, and each call which returns zero has written its buffer.
-/
theorem alteraCvp_throttled (env : CvpEnv) (version : Version)
    (conf : CvpConf) (calls : List WriteCall) :
    ∀ entry ∈ writeCalls env version calls conf.writeInit,
      Throttled version entry.1 entry.2 :=
  writeCalls_throttled calls
    ⟨rfl, Nat.zero_le _, fun _ => Nat.le_refl _⟩

/-! ## One short image -/

/-- A device which grants one block with each access, without errors. -/
def granting : CvpEnv where
  grant _ := 1
  creditRead _ := none
  status _ := .ok 0
  chkcfg _ := false

/-- Five bytes, and others behind them. -/
def fiveBytes : WriteCall where
  memory i := BitVec.ofNat 8 (17 * (i + 1))
  count := 5

theorem writeLoop_fiveBytes :
    writeLoop granting .v2 fiveBytes.memory 0 0 5 =
      (do
        oneBlock granting .v2 fiveBytes.memory 0 0 5
        pure ()) := by
  have rest : writeLoop granting .v2 fiveBytes.memory (0 + 5 / 4) (0 + 5) 0 =
      pure () := by
    rw [writeLoop, if_pos rfl]
  rw [writeLoop, if_neg (by decide), ← rest]
  rfl

/-- The second word holds one byte of the image and three zeros. -/
theorem fiveBytes_throttled :
    let run := alteraCvpWrite granting .v2 fiveBytes.memory 5
      (CvpConf.writeInit ⟨7, 0, 9, 9⟩)
    run.result = .ok () ∧ Credited run.events ∧
      wordsOf run.events = [0x44332211, 0x55] := by
  have throttled := alteraCvp_throttled granting .v2 ⟨7, 0, 9, 9⟩ [fiveBytes]
    _ List.mem_cons_self
  have result : (alteraCvpWrite granting .v2 fiveBytes.memory 5
      (CvpConf.writeInit ⟨7, 0, 9, 9⟩)).result = .ok () := by
    rw [alteraCvpWrite, writeLoop_fiveBytes]
    rfl
  exact ⟨result, throttled.credited rfl, throttled.words result⟩

end LinuxDfl.Fpga.Cvp

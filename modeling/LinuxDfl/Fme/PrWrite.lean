import LinuxDfl.Kernel.Bitfield
import LinuxDfl.Kernel.Errno
import LinuxDfl.Lib.Credit
import LinuxDfl.Lib.LittleEndian

/-!
# Pushing an image into the PR engine

The `write` operation of the FME manager, which pushes an image word by word
into a queue of the hardware.  The registers are a parameter, and each access
to one of them is recorded.
-/

namespace LinuxDfl.Fme.PrWrite

open LinuxDfl.Kernel
open LinuxDfl.Lib
open LinuxDfl.Lib.LittleEndian

/-! ## Registers -/

/-- `FME_PR_CTRL` -/
def fmePrCtrl : Nat := 0x8
/-- `FME_PR_STS` -/
def fmePrSts : Nat := 0x10
/-- `FME_PR_DATA` -/
def fmePrData : Nat := 0x18

/-- `FME_PR_CTRL_PR_START` -/
def fmePrCtrlPrStart : Field := bit 12
/-- `FME_PR_STS_PR_CREDIT` -/
def fmePrStsPrCredit : Field := genmask 8 0

/-- `PR_WAIT_TIMEOUT` -/
def prWaitTimeout : Nat := 8000000

/-- An access to a register. -/
inductive Access where
  | readq (reg : Nat) (val : BitVec 64)
  | writeq (reg : Nat) (val : BitVec 64)
  deriving DecidableEq

/-- The registers of the PR engine. -/
structure PrIo (Env : Type) where
  readq : Nat → Env → BitVec 64 × Env
  writeq : Nat → BitVec 64 → Env → Env

/-- The PR engine, with the accesses so far. -/
structure PrEngine (Env : Type) where
  env : Env
  trace : List Access

variable {Env : Type}

/-- `readq` -/
def PrEngine.readq (io : PrIo Env) (reg : Nat) (engine : PrEngine Env) :
    BitVec 64 × PrEngine Env :=
  let read := io.readq reg engine.env
  (read.1, ⟨read.2, engine.trace ++ [.readq reg read.1]⟩)

/-- `writeq` -/
def PrEngine.writeq (io : PrIo Env) (reg : Nat) (val : BitVec 64)
    (engine : PrEngine Env) : PrEngine Env :=
  ⟨io.writeq reg val engine.env, engine.trace ++ [.writeq reg val]⟩

/-! ## `fme_mgr_write` -/

/--
The inner loop of `fme_mgr_write`, which waits for credit: the delay and the
credit behind it.
-/
def waitCredit (io : PrIo Env) (delay prCredit : Nat)
    (engine : PrEngine Env) :
    Option Errno × Nat × Nat × PrEngine Env :=
  if prCredit ≤ 1 then
    if delay > prWaitTimeout then
      (some .etimedout, delay + 1, prCredit, engine)
    else
      let prStatus := engine.readq io fmePrSts
      waitCredit io (delay + 1) (fmePrStsPrCredit.get prStatus.1) prStatus.2
  else
    (none, delay, prCredit, engine)
termination_by prWaitTimeout + 1 - delay

/-- The outer loop of `fme_mgr_write`, over the bytes which are left. -/
def pushLoop (io : PrIo Env) (buf : List Byte) (delay prCredit : Nat)
    (engine : PrEngine Env) : Option Errno × PrEngine Env :=
  if buf.length > 0 then
    match waitCredit io delay prCredit engine with
    | (some ret, _, _, engine) => (some ret, engine)
    | (none, delay, prCredit, engine) =>
        let chunkSize := min buf.length 4
        let prData := BitVec.ofNat 64 (ofBytes (buf.take chunkSize))
        pushLoop io (buf.drop chunkSize) delay (prCredit - 1)
          (engine.writeq io fmePrData prData)
  else
    (none, engine)
termination_by buf.length

/-- `fme_mgr_write` -/
def fmeMgrWrite (io : PrIo Env) (buf : List Byte) (engine : PrEngine Env) :
    Option Errno × PrEngine Env :=
  let prCtrl := engine.readq io fmePrCtrl
  let engine :=
    prCtrl.2.writeq io fmePrCtrl (prCtrl.1 ||| fmePrCtrlPrStart.mask)
  let prStatus := engine.readq io fmePrSts
  pushLoop io buf 0 (fmePrStsPrCredit.get prStatus.1) prStatus.2

/-! ## What a trace says -/

/-- The words which are pushed. -/
def pushedWords (trace : List Access) : List (BitVec 64) :=
  trace.filterMap fun access =>
    match access with
    | .writeq reg val => if reg = fmePrData then some val else none
    | .readq _ _ => none

/-- The readings of the status register. -/
def statusReads (trace : List Access) : List (BitVec 64) :=
  trace.filterMap fun access =>
    match access with
    | .readq reg val => if reg = fmePrSts then some val else none
    | .writeq _ _ => none

/--
A reading of the status register allows one push less than it reports credit,
in place of what was left before.
-/
def prFlow : Access → Credit.Flow
  | .readq reg val =>
      if reg = fmePrSts then .grant (fmePrStsPrCredit.get val - 1) else .other
  | .writeq reg _ => if reg = fmePrData then .use else .other

/--
Behind each reading of the status register, and up to the next one, at most
one word less is pushed than it has reported credit.
-/
def WithinCredit (trace : List Access) : Prop :=
  ∀ before status between after,
    trace = before ++ .readq fmePrSts status :: (between ++ after) →
      statusReads between = [] →
        (pushedWords between).length ≤ fmePrStsPrCredit.get status - 1

/--
Of the credit which has been reported last, at most one is left: as many words
but one have been pushed since.
-/
def CreditUsedUp (trace : List Access) : Prop :=
  ∃ before status after, trace = before ++ .readq fmePrSts status :: after ∧
    statusReads after = [] ∧
      fmePrStsPrCredit.get status ≤ (pushedWords after).length + 1

/-- The words of an image: four bytes each, the last filled up with zeros. -/
def imageWords (buf : List Byte) : List (BitVec 64) :=
  (List.range ((buf.length + 3) / 4)).map fun index =>
    BitVec.ofNat 64 (ofBytes ((buf.drop (4 * index)).take 4))

theorem pushedWords_append (first second : List Access) :
    pushedWords (first ++ second) =
      pushedWords first ++ pushedWords second :=
  List.filterMap_append

theorem statusReads_append (first second : List Access) :
    statusReads (first ++ second) =
      statusReads first ++ statusReads second :=
  List.filterMap_append

theorem length_pushedWords (trace : List Access) :
    (pushedWords trace).length = Credit.uses prFlow trace := by
  induction trace with
  | nil => rfl
  | cons access rest ih =>
      unfold Credit.uses at ih ⊢
      rw [List.countP_cons, ← ih]
      cases access with
      | readq reg val =>
          by_cases status : reg = fmePrSts <;>
            simp [pushedWords, prFlow, status]
      | writeq reg val =>
          by_cases data : reg = fmePrData <;>
            simp [pushedWords, prFlow, data]

theorem prFlow_ne_grant {trace : List Access}
    (noRead : statusReads trace = []) :
    ∀ access ∈ trace, ∀ new, prFlow access ≠ .grant new := by
  intro access member new grants
  cases access with
  | readq reg val =>
      by_cases status : reg = fmePrSts
      · have read : val ∈ statusReads trace :=
          List.mem_filterMap.mpr ⟨_, member, if_pos status⟩
        rw [noRead] at read
        exact List.not_mem_nil read
      · simp [prFlow, status] at grants
  | writeq reg val =>
      by_cases data : reg = fmePrData <;> simp [prFlow, data] at grants

theorem withinCredit_of_within {trace : List Access} {credit : Nat}
    (within : Credit.Within prFlow credit trace) : WithinCredit trace := by
  intro before status between after split noRead
  rw [split] at within
  rw [length_pushedWords]
  have grants : prFlow (.readq fmePrSts status) =
      .grant (fmePrStsPrCredit.get status - 1) := by
    simp [prFlow]
  exact Credit.uses_le_of_grant within grants (prFlow_ne_grant noRead)

theorem exists_last_read {trace : List Access}
    (reads : statusReads trace ≠ []) :
    ∃ before status after,
      trace = before ++ .readq fmePrSts status :: after ∧
        statusReads after = [] := by
  induction trace with
  | nil => exact absurd rfl reads
  | cons access rest ih =>
      by_cases later : statusReads rest = []
      · cases access with
        | readq reg val =>
            by_cases status : reg = fmePrSts
            · subst status
              exact ⟨[], val, rest, rfl, later⟩
            · have unread : statusReads (.readq reg val :: rest) =
                  statusReads rest := by
                simp [statusReads, status]
              exact absurd (unread.trans later) reads
        | writeq reg val => exact absurd later reads
      · obtain ⟨before, status, after, split, last⟩ := ih later
        exact ⟨access :: before, status, after, by rw [split]; rfl, last⟩

theorem creditUsedUp_of_left {trace : List Access}
    (reads : statusReads trace ≠ [])
    (nothing : Credit.left prFlow 0 trace = 0) : CreditUsedUp trace := by
  obtain ⟨before, status, after, split, last⟩ := exists_last_read reads
  refine ⟨before, status, after, split, last, ?_⟩
  have grants : prFlow (.readq fmePrSts status) =
      .grant (fmePrStsPrCredit.get status - 1) := by
    simp [prFlow]
  rw [split, Credit.left_append] at nothing
  simp only [Credit.left, grants] at nothing
  rw [Credit.left_eq_sub (prFlow_ne_grant last)] at nothing
  rw [length_pushedWords]
  exact Nat.le_add_of_sub_le (Nat.le_of_sub_eq_zero nothing)

/-! ## The words of an image -/

@[simp]
theorem imageWords_nil : imageWords [] = [] := rfl

/-- The first word, and the words of what is left. -/
theorem imageWords_of_ne_nil {buf : List Byte} (nonempty : buf ≠ []) :
    imageWords buf =
      BitVec.ofNat 64 (ofBytes (buf.take 4)) :: imageWords (buf.drop 4) := by
  have positive : 0 < buf.length := List.length_pos_iff.mpr nonempty
  have count : (buf.length + 3) / 4 = ((buf.drop 4).length + 3) / 4 + 1 := by
    rw [List.length_drop]
    omega
  unfold imageWords
  rw [count, List.range_succ_eq_map, List.map_cons, List.map_map]
  congr 1
  refine List.map_congr_left fun index _ => ?_
  show BitVec.ofNat 64 (ofBytes ((buf.drop (4 * (index + 1))).take 4)) = _
  rw [List.drop_drop, Nat.mul_succ, Nat.add_comm]

theorem length_imageWords (buf : List Byte) :
    (imageWords buf).length = (buf.length + 3) / 4 := by
  simp [imageWords]

/-- What one turn of the loop pushes, and the words of what is left. -/
theorem imageWords_chunk {buf : List Byte} (nonempty : 0 < buf.length) :
    imageWords buf =
      BitVec.ofNat 64 (ofBytes (buf.take (min buf.length 4))) ::
        imageWords (buf.drop (min buf.length 4)) := by
  rw [imageWords_of_ne_nil (List.length_pos_iff.mp nonempty)]
  rcases Nat.le_total buf.length 4 with short | long
  · rw [Nat.min_eq_left short, List.take_length, List.drop_length,
      List.take_of_length_le short, List.drop_of_length_le short]
  · rw [Nat.min_eq_right long]

/-! ## Accesses -/

namespace PrEngine

variable (engine : PrEngine Env) (io : PrIo Env)

@[simp]
theorem pushedWords_readq (reg : Nat) :
    pushedWords (engine.readq io reg).2.trace = pushedWords engine.trace := by
  show pushedWords (engine.trace ++ _) = _
  rw [pushedWords_append]
  exact List.append_nil _

@[simp]
theorem statusReads_writeq (reg : Nat) (val : BitVec 64) :
    statusReads (engine.writeq io reg val).trace =
      statusReads engine.trace := by
  show statusReads (engine.trace ++ _) = _
  rw [statusReads_append]
  exact List.append_nil _

theorem statusReads_readSts :
    statusReads (engine.readq io fmePrSts).2.trace =
      statusReads engine.trace ++ [(engine.readq io fmePrSts).1] :=
  statusReads_append _ _

theorem pushedWords_push (prData : BitVec 64) :
    pushedWords (engine.writeq io fmePrData prData).trace =
      pushedWords engine.trace ++ [prData] :=
  pushedWords_append _ _

end PrEngine

/-! ## The loops -/

/-- What is known of an engine whose credit was this when it was last read. -/
structure PrEngine.Sound (engine : PrEngine Env) (prCredit : Nat) : Prop where
  within : Credit.Within prFlow 0 engine.trace
  left : Credit.left prFlow 0 engine.trace = prCredit - 1

/-- Reading the status gives new credit. -/
theorem PrEngine.Sound.readSts {engine : PrEngine Env} {prCredit : Nat}
    (sound : engine.Sound prCredit) (io : PrIo Env) :
    (engine.readq io fmePrSts).2.Sound
      (fmePrStsPrCredit.get (engine.readq io fmePrSts).1) where
  within := by
    refine (Credit.within_append _ _ _).mpr ⟨sound.within, ?_⟩
    simp [Credit.Within, prFlow]
  left := by
    show Credit.left prFlow 0 (engine.trace ++ _) = _
    rw [Credit.left_append]
    simp [Credit.left, prFlow]
    rfl

/-- A push uses up credit which there must be. -/
theorem PrEngine.Sound.push {engine : PrEngine Env} {prCredit : Nat}
    (sound : engine.Sound prCredit) (enough : 1 < prCredit) (io : PrIo Env)
    (prData : BitVec 64) :
    (engine.writeq io fmePrData prData).Sound (prCredit - 1) where
  within := by
    refine (Credit.within_append _ _ _).mpr ⟨sound.within, ?_⟩
    rw [sound.left]
    simp only [Credit.Within, prFlow, if_true]
    exact ⟨by omega, trivial⟩
  left := by
    show Credit.left prFlow 0 (engine.trace ++ _) = _
    rw [Credit.left_append, sound.left]
    simp [Credit.left, prFlow]

/-- Waiting reads the status and pushes nothing. -/
theorem waitCredit_spec (io : PrIo Env) (delay prCredit : Nat)
    (engine : PrEngine Env) (sound : engine.Sound prCredit) :
    let waited := waitCredit io delay prCredit engine
    waited.2.2.2.Sound waited.2.2.1 ∧
      pushedWords waited.2.2.2.trace = pushedWords engine.trace ∧
        (statusReads waited.2.2.2.trace).length + delay ≤
          (statusReads engine.trace).length + max delay (prWaitTimeout + 1) ∧
          (waited.1 = none ∧ 1 < waited.2.2.1 ∧ delay ≤ waited.2.1 ∧
              (statusReads waited.2.2.2.trace).length + delay =
                (statusReads engine.trace).length + waited.2.1 ∨
            waited.1 = some .etimedout ∧ waited.2.2.1 ≤ 1 ∧
              (statusReads waited.2.2.2.trace).length + delay =
                (statusReads engine.trace).length +
                  max delay (prWaitTimeout + 1)) := by
  fun_induction waitCredit io delay prCredit engine with
  | case1 delay prCredit engine low timeout =>
      exact ⟨sound, rfl, by dsimp only; omega,
        Or.inr ⟨rfl, low, by dsimp only; omega⟩⟩
  | case2 delay prCredit engine low inTime prStatus ih =>
      obtain ⟨next, pushed, bound, ends⟩ := ih (sound.readSts io)
      have noPush :
          pushedWords prStatus.2.trace = pushedWords engine.trace :=
        engine.pushedWords_readq io fmePrSts
      have oneRead : (statusReads prStatus.2.trace).length =
          (statusReads engine.trace).length + 1 := by
        rw [engine.statusReads_readSts io, List.length_append]
        rfl
      refine ⟨next, pushed.trans noPush, by omega, ?_⟩
      rcases ends with ⟨fine, enough, later, counted⟩ | ⟨fails, few, counted⟩
      · exact Or.inl ⟨fine, enough, by omega, by omega⟩
      · exact Or.inr ⟨fails, few, by omega⟩
  | case3 delay prCredit engine enough =>
      refine ⟨sound, rfl, by dsimp only; omega,
        Or.inl ⟨rfl, ?_, Nat.le_refl delay, rfl⟩⟩
      exact Nat.lt_of_not_le enough

/-- What the outer loop has done when it is left. -/
structure Pushes (buf : List Byte) (delay : Nat) (before : PrEngine Env)
    (ret : Option Errno) (engine : PrEngine Env) : Prop where
  within : Credit.Within prFlow 0 engine.trace
  bounded :
    (statusReads engine.trace).length + delay ≤
      (statusReads before.trace).length + max delay (prWaitTimeout + 1)
  pushed :
    ∃ words, pushedWords engine.trace = pushedWords before.trace ++ words ∧
      (ret = none ∧ words = imageWords buf ∨
        ret = some .etimedout ∧ words <+: imageWords buf ∧
          words.length < (imageWords buf).length)
  /-- It gives up when all polling is used up, and all credit. -/
  exhausted :
    ret = some .etimedout →
      (statusReads engine.trace).length + delay =
          (statusReads before.trace).length + max delay (prWaitTimeout + 1) ∧
        Credit.left prFlow 0 engine.trace = 0

/-- Credit does not come in time: nothing is pushed. -/
theorem Pushes.timeout {buf : List Byte} {delay prCredit : Nat}
    {before engine : PrEngine Env} (nonempty : 0 < buf.length)
    (sound : engine.Sound prCredit) (few : prCredit ≤ 1)
    (counted :
      (statusReads engine.trace).length + delay =
        (statusReads before.trace).length + max delay (prWaitTimeout + 1))
    (noPush : pushedWords engine.trace = pushedWords before.trace) :
    Pushes buf delay before (some .etimedout) engine where
  within := sound.within
  bounded := Nat.le_of_eq counted
  pushed := by
    refine ⟨[], by rw [noPush, List.append_nil],
      .inr ⟨rfl, List.nil_prefix, ?_⟩⟩
    rw [imageWords_chunk nonempty]
    exact Nat.succ_pos _
  exhausted _ := ⟨counted, by rw [sound.left]; omega⟩

/-- Credit has come, a word is pushed, and the rest of the loop follows. -/
theorem Pushes.push {io : PrIo Env} {buf : List Byte} {delay delay' : Nat}
    {before waited engine : PrEngine Env} {ret : Option Errno}
    (nonempty : 0 < buf.length)
    (noPush : pushedWords waited.trace = pushedWords before.trace)
    (bounded :
      (statusReads waited.trace).length + delay ≤
        (statusReads before.trace).length + max delay (prWaitTimeout + 1))
    (later : delay ≤ delay')
    (counted :
      (statusReads waited.trace).length + delay =
        (statusReads before.trace).length + delay')
    (rest :
      Pushes (buf.drop (min buf.length 4)) delay'
        (waited.writeq io fmePrData
          (BitVec.ofNat 64 (ofBytes (buf.take (min buf.length 4)))))
        ret engine) :
    Pushes buf delay before ret engine where
  within := rest.within
  bounded := by
    have limit := rest.bounded
    rw [waited.statusReads_writeq io] at limit
    omega
  pushed := by
    obtain ⟨words, all, ends⟩ := rest.pushed
    rw [waited.pushedWords_push io, noPush, List.append_assoc] at all
    refine ⟨_, all, ?_⟩
    rw [imageWords_chunk nonempty]
    rcases ends with ⟨fine, whole⟩ | ⟨fails, isPrefix, shorter⟩
    · rw [whole]
      exact .inl ⟨fine, rfl⟩
    · exact .inr ⟨fails, (List.prefix_cons_inj _).mpr isPrefix,
        Nat.succ_lt_succ shorter⟩
  exhausted fails := by
    obtain ⟨all, nothing⟩ := rest.exhausted fails
    rw [waited.statusReads_writeq io] at all
    exact ⟨by omega, nothing⟩

theorem pushLoop_spec (io : PrIo Env) (buf : List Byte)
    (delay prCredit : Nat) (engine : PrEngine Env)
    (sound : engine.Sound prCredit) :
    let pushed := pushLoop io buf delay prCredit engine
    Pushes buf delay engine pushed.1 pushed.2 := by
  fun_induction pushLoop io buf delay prCredit engine with
  | case1 buf delay prCredit engine left ret delay' prCredit' engine' waits =>
      obtain ⟨next, noPush, bound, ends⟩ :=
        waitCredit_spec io delay prCredit engine sound
      rw [waits] at next noPush bound ends
      rcases ends with ⟨fine, -⟩ | fails
      · cases fine
      · obtain ⟨fails, few, counted⟩ := fails
        cases fails
        exact .timeout left next few counted noPush
  | case2 buf delay prCredit engine left delay' prCredit' engine' waits
      chunkSize prData ih =>
      obtain ⟨next, noPush, bound, ends⟩ :=
        waitCredit_spec io delay prCredit engine sound
      rw [waits] at next noPush bound ends
      rcases ends with ⟨-, enough, later, counted⟩ | ⟨fails, -⟩
      · exact .push left noPush bound later counted
          (ih (next.push enough io prData))
      · cases fails
  | case3 buf delay prCredit engine empty =>
      have nothing : buf = [] :=
        List.length_eq_zero_iff.mp (Nat.eq_zero_of_not_pos empty)
      refine ⟨sound.within, Nat.add_le_add_left (Nat.le_max_left _ _) _,
        ⟨[], (List.append_nil _).symm, ?_⟩, fun fails => by cases fails⟩
      exact Or.inl ⟨rfl, by rw [nothing]; rfl⟩

/--
The image is pushed in words, all of it or, if credit does not come in time,
the beginning of it.  Never is more pushed than credit allows, and the status
is read a limited number of times: all of them when the rest is given up, with
no credit for another word.
-/
theorem fmeMgrWrite_pushes (io : PrIo Env) (buf : List Byte) (env : Env) :
    let written := fmeMgrWrite io buf ⟨env, []⟩
    let pushed := pushedWords written.2.trace
    (written.1 = none ∧ pushed = imageWords buf ∧
          pushed.length = (buf.length + 3) / 4 ∨
        written.1 = some .etimedout ∧ pushed <+: imageWords buf ∧
          pushed.length < (buf.length + 3) / 4 ∧
          (statusReads written.2.trace).length = prWaitTimeout + 2 ∧
          CreditUsedUp written.2.trace) ∧
      WithinCredit written.2.trace ∧
        (statusReads written.2.trace).length ≤ prWaitTimeout + 2 := by
  intro written pushed
  let prCtrl := (⟨env, []⟩ : PrEngine Env).readq io fmePrCtrl
  let started :=
    prCtrl.2.writeq io fmePrCtrl (prCtrl.1 ||| fmePrCtrlPrStart.mask)
  let prStatus := started.readq io fmePrSts
  have fresh : started.Sound 0 :=
    ⟨by simp [started, prCtrl, PrEngine.writeq, PrEngine.readq,
        Credit.Within, prFlow, fmePrCtrl, fmePrSts, fmePrData],
      by simp [started, prCtrl, PrEngine.writeq, PrEngine.readq,
        Credit.left, prFlow, fmePrCtrl, fmePrSts, fmePrData]⟩
  have pushes : Pushes buf 0 prStatus.2 written.1 written.2 :=
    pushLoop_spec io buf 0 _ prStatus.2 (fresh.readSts io)
  have noPush : pushedWords prStatus.2.trace = [] := by
    simp [prStatus, started, prCtrl, PrEngine.writeq, PrEngine.readq,
      pushedWords, fmePrCtrl, fmePrData]
  have oneRead : (statusReads prStatus.2.trace).length = 1 := by
    simp [prStatus, started, prCtrl, PrEngine.writeq, PrEngine.readq,
      statusReads, fmePrCtrl, fmePrSts]
  obtain ⟨words, all, ends⟩ := pushes.pushed
  rw [noPush, List.nil_append] at all
  have limit := pushes.bounded
  refine ⟨?_, withinCredit_of_within pushes.within, by omega⟩
  rcases ends with ⟨fine, whole⟩ | ⟨fails, isPrefix, shorter⟩
  · have same : pushed = imageWords buf := all.trans whole
    exact Or.inl ⟨fine, same, by rw [same, length_imageWords]⟩
  · obtain ⟨polled, nothing⟩ := pushes.exhausted fails
    have same : pushed = words := all
    rw [← length_imageWords, same]
    have reads : (statusReads written.2.trace).length = prWaitTimeout + 2 := by
      omega
    refine Or.inr ⟨fails, isPrefix, shorter, reads, ?_⟩
    refine creditUsedUp_of_left (fun none => ?_) nothing
    rw [none] at reads
    exact absurd reads (Nat.succ_ne_zero _).symm

end LinuxDfl.Fme.PrWrite

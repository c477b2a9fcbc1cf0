import LinuxDfl.Lib.Iteration
import LinuxDfl.Fpga.LoadCycle

/-!
# The copy of a scattered header

The loop of `fpga_mgr_parse_header_sg`, pass by pass: the buffer is grown to
what the driver has asked for, filled up from the fragments, and given to the
driver again.
-/

namespace LinuxDfl.Fpga

open LinuxDfl.Kernel
open LinuxDfl.Lib.Iteration

variable {Hw : Type}

/-! ## The loop -/

/-- The variables of the loop of `fpga_mgr_parse_header_sg`. -/
structure HeaderLoop (Hw : Type) where
  headerSize : Nat
  /-- What has been allocated. -/
  buf : List (BitVec 8)
  ret : Option Errno
  info : FpgaImageInfo
  hw : Hw

/-- `krealloc`: what was there stays, and new bytes are `left` as they are. -/
def reallocated (buf : List (BitVec 8)) (size : Nat) (left : Nat → BitVec 8) :
    List (BitVec 8) :=
  (List.range size).map fun index => buf.getD index (left index)

/-- Bytes which are stored in a buffer from an offset on. -/
def overwrite (buf : List (BitVec 8)) (offset : Nat)
    (bytes : List (BitVec 8)) : List (BitVec 8) :=
  buf.take offset ++ bytes ++ buf.drop (offset + bytes.length)

/--
One pass of the loop.  `krealloc` of a size fails, or gives memory with
something in it.
-/
def headerPass (mops : FpgaManagerOps Hw)
    (krealloc : Nat → Option (Nat → BitVec 8))
    (sgt : List (List (BitVec 8))) (loop : HeaderLoop Hw) : HeaderLoop Hw :=
  let newHeaderSize := loop.info.headerSize
  if newHeaderSize ≤ loop.headerSize then
    { loop with ret := some .efault }
  else
    match krealloc newHeaderSize with
    | none => { loop with ret := some .enomem }
    | some left =>
        let room := newHeaderSize - loop.headerSize
        let copied := sgPcopyToBuffer sgt room loop.headerSize
        let buf :=
          overwrite (reallocated loop.buf newHeaderSize left) loop.headerSize
            copied
        if copied.length ≠ room then
          { loop with buf := buf, ret := some .efault }
        else
          let parsed := fpgaMgrParseHeader mops loop.info buf loop.hw
          { headerSize := newHeaderSize
            buf := buf
            ret := parsed.1
            info := parsed.2.1
            hw := parsed.2.2 }

/-- The condition of the loop is tested behind each pass. -/
def headerNext (mops : FpgaManagerOps Hw)
    (krealloc : Nat → Option (Nat → BitVec 8))
    (sgt : List (List (BitVec 8))) (loop : HeaderLoop Hw) :
    Option (HeaderLoop Hw) :=
  if loop.ret = some .eagain then some (headerPass mops krealloc sgt loop)
  else none

/-- Before the first pass, which is made in any case. -/
def headerStart (info : FpgaImageInfo) (hw : Hw) : HeaderLoop Hw :=
  ⟨0, [], some .eagain, info, hw⟩

/-- What `fpga_mgr_parse_header_sg` returns behind the loop. -/
def HeaderLoop.returned (loop : HeaderLoop Hw) :
    Except Errno (List (BitVec 8)) :=
  match loop.ret with
  | some ret => .error ret
  | none => .ok loop.buf

/-- `*ret_size` -/
def HeaderLoop.retSize (loop : HeaderLoop Hw) : Nat := loop.headerSize

/-! ## The copy -/

section Copy

variable {mops : FpgaManagerOps Hw}
  {krealloc : Nat → Option (Nat → BitVec 8)} {sgt : List (List (BitVec 8))}

/-- The buffer holds the beginning of the image, and nothing else. -/
structure HeaderLoop.Copied (image : List (BitVec 8))
    (loop : HeaderLoop Hw) : Prop where
  content : loop.buf = image.take loop.headerSize
  length : loop.buf.length = loop.headerSize

/-- A larger buffer which is filled up behind its old content. -/
theorem overwrite_reallocated (buf bytes : List (BitVec 8))
    (left : Nat → BitVec 8) :
    overwrite (reallocated buf (buf.length + bytes.length) left) buf.length
      bytes = buf ++ bytes := by
  have length : (reallocated buf (buf.length + bytes.length) left).length =
      buf.length + bytes.length := by
    simp [reallocated]
  have old : (reallocated buf (buf.length + bytes.length) left).take
      buf.length = buf := by
    refine List.ext_getElem (by simp [length]) fun index _ inside => ?_
    simp [reallocated, inside]
  have nothing : (reallocated buf (buf.length + bytes.length) left).drop
      (buf.length + bytes.length) = [] :=
    List.drop_eq_nil_of_le (Nat.le_of_eq length)
  unfold overwrite
  rw [old, nothing, List.append_nil]

/-- The ways a pass can go. -/
theorem headerPass_cases (mops : FpgaManagerOps Hw)
    (krealloc : Nat → Option (Nat → BitVec 8)) {loop : HeaderLoop Hw}
    (copied : loop.Copied sgt.flatten) :
    let pass := headerPass mops krealloc sgt loop
    (pass.ret ≠ some .eagain ∧ pass.ret ≠ none ∧
        pass.headerSize = loop.headerSize ∧ pass.hw = loop.hw) ∨
      ∃ buf, buf = sgt.flatten.take buf.length ∧
        buf.length = loop.info.headerSize ∧ loop.headerSize < buf.length ∧
          pass = (let parsed :=
              fpgaMgrParseHeader mops loop.info buf loop.hw
            ⟨buf.length, buf, parsed.1, parsed.2.1, parsed.2.2⟩) := by
  intro pass
  by_cases notLarger : loop.info.headerSize ≤ loop.headerSize
  · have refused : pass = { loop with ret := some .efault } := by
      simp [pass, headerPass, notLarger]
    exact Or.inl (by simp [refused])
  · cases memory : krealloc loop.info.headerSize with
    | none =>
        have refused : pass = { loop with ret := some .enomem } := by
          simp [pass, headerPass, notLarger, memory]
        exact Or.inl (by simp [refused])
    | some left =>
        let room := loop.info.headerSize - loop.headerSize
        by_cases whole :
            (sgPcopyToBuffer sgt room loop.headerSize).length = room
        · let bytes := sgPcopyToBuffer sgt room loop.headerSize
          have size : loop.buf.length + bytes.length =
              loop.info.headerSize := by
            rw [copied.length, show bytes.length = room from whole]
            omega
          have filled := overwrite_reallocated loop.buf bytes left
          rw [size, copied.length] at filled
          refine Or.inr ⟨loop.buf ++ bytes, ?_, ?_, ?_, ?_⟩
          · rw [List.length_append, copied.length,
              show bytes.length = room from whole, List.take_add,
              ← copied.content]
            rfl
          · rw [List.length_append, size]
          · rw [List.length_append, size]
            omega
          · simp only [pass, headerPass, notLarger, if_false, memory]
            rw [if_neg (not_not.mpr whole), filled, List.length_append, size]
        · refine Or.inl ?_
          have short : pass.ret = some .efault ∧
              pass.headerSize = loop.headerSize ∧ pass.hw = loop.hw := by
            simp only [pass, headerPass, notLarger, if_false, memory]
            rw [if_pos whole]
            exact ⟨rfl, rfl, rfl⟩
          simp [short]

end Copy

/-! ## The loop as one function -/

section Whole

variable {mops : FpgaManagerOps Hw}
  {krealloc : Nat → Option (Nat → BitVec 8)} {sgt : List (List (BitVec 8))}

/-- The loop from here on, where only the beginning of the buffer counts. -/
def HeaderLoop.whole (mops : FpgaManagerOps Hw)
    (krealloc : Nat → Option (Nat → BitVec 8))
    (sgt : List (List (BitVec 8))) (loop : HeaderLoop Hw) :
    Except Errno (List (BitVec 8)) × FpgaImageInfo × Hw :=
  fpgaMgrParseHeaderSgLoop mops (fun size => (krealloc size).isSome) sgt
    loop.info loop.buf loop.hw

/-- The function makes a pass, and goes on as the loop does. -/
theorem whole_pass {loop : HeaderLoop Hw}
    (copied : loop.Copied sgt.flatten) :
    loop.whole mops krealloc sgt =
      let pass := headerPass mops krealloc sgt loop
      if pass.ret = some .eagain then pass.whole mops krealloc sgt
      else (pass.returned, pass.info, pass.hw) := by
  unfold HeaderLoop.whole
  rw [fpgaMgrParseHeaderSgLoop]
  simp only [copied.length]
  by_cases notLarger : loop.info.headerSize ≤ loop.headerSize
  · simp [headerPass, notLarger, HeaderLoop.returned]
  · cases memory : krealloc loop.info.headerSize with
    | none => simp [headerPass, notLarger, memory, HeaderLoop.returned]
    | some left =>
        let room := loop.info.headerSize - loop.headerSize
        let bytes := sgPcopyToBuffer sgt room loop.headerSize
        by_cases whole : bytes.length = room
        · have size : loop.buf.length + bytes.length =
              loop.info.headerSize := by
            rw [copied.length, whole]
            omega
          have filled := overwrite_reallocated loop.buf bytes left
          rw [size, copied.length] at filled
          simp only [headerPass, notLarger, if_false, memory,
            Option.isSome_some, Bool.not_true, Bool.false_eq_true]
          rw [if_neg (not_not.mpr whole), if_neg (not_not.mpr whole), filled]
          rcases parsed : fpgaMgrParseHeader mops loop.info
            (loop.buf ++ bytes) loop.hw with ⟨_ | ret, info, hw⟩
          · simp [bytes, room, HeaderLoop.returned]
          · by_cases again : ret = .eagain
            · simp [bytes, room, again]
            · simp [again, HeaderLoop.returned]
        · simp only [headerPass, notLarger, if_false, memory,
            Option.isSome_some, Bool.not_true, Bool.false_eq_true]
          rw [if_pos whole, if_pos whole]
          simp [HeaderLoop.returned]

theorem copied_of_again {loop : HeaderLoop Hw}
    (copied : loop.Copied sgt.flatten)
    (again : (headerPass mops krealloc sgt loop).ret = some .eagain) :
    (headerPass mops krealloc sgt loop).Copied sgt.flatten := by
  rcases headerPass_cases mops krealloc copied with
    ⟨notAgain, -⟩ | ⟨buf, isPrefix, -, -, pass⟩
  · exact absurd again notAgain
  · rw [pass]
    exact ⟨isPrefix, rfl⟩

/-- The function returns what the last pass leaves. -/
theorem whole_of_after {count : Nat} {loop last : HeaderLoop Hw}
    (copied : loop.Copied sgt.flatten) (goesOn : loop.ret = some .eagain)
    (reaches : after (headerNext mops krealloc sgt) count loop = some last)
    (ends : headerNext mops krealloc sgt last = none) :
    loop.whole mops krealloc sgt = (last.returned, last.info, last.hw) := by
  induction count generalizing loop with
  | zero =>
      cases reaches
      rw [headerNext, if_pos goesOn] at ends
      cases ends
  | succ count ih =>
      rw [after_succ, headerNext, if_pos goesOn, Option.bind_some] at reaches
      rw [whole_pass copied]
      by_cases again : (headerPass mops krealloc sgt loop).ret = some .eagain
      · rw [if_pos again]
        exact ih (copied_of_again copied again) again reaches
      · rw [if_neg again]
        cases count with
        | zero =>
            cases reaches
            rfl
        | succ count =>
            rw [after_succ, headerNext, if_neg again] at reaches
            cases reaches

/-- The passes of the loop and the function which models it as a whole. -/
theorem parseHeaderSgLoop_of_after {count : Nat} {info : FpgaImageInfo}
    {hw : Hw} {last : HeaderLoop Hw}
    (reaches :
      after (headerNext mops krealloc sgt) count (headerStart info hw) =
        some last)
    (ends : headerNext mops krealloc sgt last = none) :
    fpgaMgrParseHeaderSgLoop mops (fun size => (krealloc size).isSome) sgt
        info [] hw = (last.returned, last.info, last.hw) :=
  whole_of_after ⟨rfl, rfl⟩ rfl reaches ends

end Whole

/-! ## What the driver is given -/

/-- The bytes which `parse_header` has been given. -/
def headersGiven (calls : List DriverCall) : List (List (BitVec 8)) :=
  calls.filterMap fun call =>
    match call.op with
    | .parseHeader buf => some buf
    | _ => none

/-- More and more of the image, each time from its beginning. -/
structure GivenInPrefixes (image : List (BitVec 8))
    (given : List (List (BitVec 8))) : Prop where
  increasing : given.Pairwise fun earlier later =>
    earlier.length < later.length
  isPrefix : ∀ buf ∈ given, buf = image.take buf.length
  inside : ∀ buf ∈ given, buf.length ≤ image.length

theorem givenInPrefixes_nil (image : List (BitVec 8)) :
    GivenInPrefixes image [] where
  increasing := List.Pairwise.nil
  isPrefix _ member := absurd member List.not_mem_nil
  inside _ member := absurd member List.not_mem_nil

theorem GivenInPrefixes.append {image buf : List (BitVec 8)}
    {given : List (List (BitVec 8))} (prefixes : GivenInPrefixes image given)
    (isPrefix : buf = image.take buf.length)
    (longer : ∀ earlier ∈ given, earlier.length < buf.length) :
    GivenInPrefixes image (given ++ [buf]) where
  increasing := by
    rw [List.pairwise_append]
    refine ⟨prefixes.increasing, List.pairwise_singleton _ _, ?_⟩
    intro earlier member later isLast
    rw [List.mem_singleton.mp isLast]
    exact longer earlier member
  isPrefix := by
    intro other member
    rcases List.mem_append.mp member with old | new
    · exact prefixes.isPrefix other old
    · rw [List.mem_singleton.mp new]
      exact isPrefix
  inside := by
    intro other member
    rcases List.mem_append.mp member with old | new
    · exact prefixes.inside other old
    · rw [List.mem_singleton.mp new, isPrefix]
      exact List.length_take_le' _ _

section Given

variable {mops : FpgaManagerSgOps Hw}

theorem parseHeader_given (mops : FpgaManagerSgOps Hw)
    (info : FpgaImageInfo) (buf : List (BitVec 8)) (log : Logged Hw) :
    let parsed :=
      fpgaMgrParseHeader mops.logged.toFpgaManagerOps info buf log
    headersGiven parsed.2.2.calls = headersGiven log.calls ∨
      headersGiven parsed.2.2.calls = headersGiven log.calls ++ [buf] := by
  cases parses : mops.parseHeader with
  | none =>
      refine Or.inl ?_
      simp [fpgaMgrParseHeader, FpgaManagerSgOps.logged, parses]
  | some parseHeader =>
      refine Or.inr ?_
      simp [fpgaMgrParseHeader, FpgaManagerSgOps.logged, parses,
        Logged.called, headersGiven]

/-- A driver which parses headers has been called last, and has answered. -/
theorem parseHeader_answers (mops : FpgaManagerSgOps Hw)
    (info : FpgaImageInfo) (buf : List (BitVec 8)) (log : Logged Hw)
    (parses : mops.parseHeader.isSome) :
    let parsed :=
      fpgaMgrParseHeader mops.logged.toFpgaManagerOps info buf log
    parsed.2.2.calls.getLast? = some ⟨.parseHeader buf, parsed.1⟩ := by
  obtain ⟨parseHeader, isParser⟩ := Option.isSome_iff_exists.mp parses
  simp [fpgaMgrParseHeader, FpgaManagerSgOps.logged, isParser, Logged.called]

/-- The first fragment is the beginning of the image. -/
theorem parseHeaderSgFirst_given (mgr : FpgaManager Hw)
    (info : FpgaImageInfo) (sgt : List (List (BitVec 8))) :
    GivenInPrefixes sgt.flatten (headersGiven
      (fpgaMgrParseHeaderSgFirst mops.logged.toFpgaManagerOps mgr.logged info
        sgt).2.1.hw.calls) := by
  have nothing : headersGiven mgr.logged.hw.calls = [] := rfl
  cases sgt with
  | nil => exact givenInPrefixes_nil _
  | cons fragment rest =>
      simp only [fpgaMgrParseHeaderSgFirst]
      split
      · rcases parseHeader_given mops info fragment mgr.logged.hw
          with unchanged | given
        · rw [unchanged, nothing]
          exact givenInPrefixes_nil _
        · rw [given, nothing]
          refine (givenInPrefixes_nil _).append ?_ ?_
          · rw [List.flatten_cons, List.take_left]
          · intro earlier member
            exact absurd member List.not_mem_nil
      · rw [nothing]
        exact givenInPrefixes_nil _

/-! ## The invariant of the loop -/

/-- The driver has been given this buffer last, and has accepted it. -/
def Logged.Accepted (log : Logged Hw) (buf : List (BitVec 8)) : Prop :=
  log.calls.getLast? = some ⟨.parseHeader buf, none⟩

/-- What holds before and after each pass, the driver's calls being logged. -/
structure HeaderLoop.Sound (parses : Bool) (image : List (BitVec 8))
    (loop : HeaderLoop (Logged Hw)) : Prop where
  copied : loop.ret = some .eagain ∨ loop.ret = none → loop.Copied image
  prefixes : GivenInPrefixes image (headersGiven loop.hw.calls)
  shorter :
    ∀ buf ∈ headersGiven loop.hw.calls, buf.length ≤ loop.headerSize
  /-- A driver which does not parse headers is not asked. -/
  accepted :
    loop.ret = none → parses = true → loop.hw.Accepted loop.buf

variable {krealloc : Nat → Option (Nat → BitVec 8)}
  {sgt : List (List (BitVec 8))}

theorem sound_start (parses : Bool) (image : List (BitVec 8))
    (info : FpgaImageInfo) (hw : Hw) :
    (headerStart info (⟨hw, []⟩ : Logged Hw)).Sound parses image where
  copied _ := ⟨rfl, rfl⟩
  prefixes := givenInPrefixes_nil image
  shorter _ member := absurd member List.not_mem_nil
  accepted succeeds := by cases succeeds

/-- How many more bytes can be asked for, until the loop is left. -/
def HeaderLoop.remaining (image : List (BitVec 8)) (loop : HeaderLoop Hw) :
    Nat :=
  if loop.ret = some .eagain then image.length - loop.headerSize + 1 else 0

/-- A pass which is refused ends the loop. -/
theorem HeaderLoop.Sound.refused {parses : Bool} {image : List (BitVec 8)}
    {loop target : HeaderLoop (Logged Hw)} (sound : loop.Sound parses image)
    (notAgain : target.ret ≠ some .eagain) (fails : target.ret ≠ none)
    (size : target.headerSize = loop.headerSize)
    (same : target.hw = loop.hw) : target.Sound parses image where
  copied := by
    rintro (again | succeeds)
    · exact absurd again notAgain
    · exact absurd succeeds fails
  prefixes := by
    rw [same]
    exact sound.prefixes
  shorter := by
    rw [same, size]
    exact sound.shorter
  accepted succeeds := absurd succeeds fails

/-- A pass gives more of the image to the driver. -/
theorem HeaderLoop.Sound.asked {image buf : List (BitVec 8)}
    {loop : HeaderLoop (Logged Hw)}
    (sound : loop.Sound mops.parseHeader.isSome image)
    (isPrefix : buf = image.take buf.length)
    (larger : loop.headerSize < buf.length) :
    let parsed :=
      fpgaMgrParseHeader mops.logged.toFpgaManagerOps loop.info buf loop.hw
    HeaderLoop.Sound mops.parseHeader.isSome image
      ⟨buf.length, buf, parsed.1, parsed.2.1, parsed.2.2⟩ := by
  intro parsed
  have accepted (succeeds : parsed.1 = none)
      (parses : mops.parseHeader.isSome = true) :
      parsed.2.2.Accepted buf := by
    have answers :
        parsed.2.2.calls.getLast? = some ⟨.parseHeader buf, parsed.1⟩ :=
      parseHeader_answers mops loop.info buf loop.hw parses
    rwa [succeeds] at answers
  have longer : ∀ earlier ∈ headersGiven loop.hw.calls,
      earlier.length < buf.length := fun earlier member =>
    Nat.lt_of_le_of_lt (sound.shorter earlier member) larger
  rcases parseHeader_given mops loop.info buf loop.hw with unchanged | given
  · refine ⟨fun _ => ⟨isPrefix, rfl⟩, ?_, ?_, accepted⟩
    · rw [unchanged]
      exact sound.prefixes
    · intro earlier member
      rw [unchanged] at member
      exact Nat.le_of_lt (longer earlier member)
  · refine ⟨fun _ => ⟨isPrefix, rfl⟩, ?_, ?_, accepted⟩
    · rw [given]
      exact sound.prefixes.append isPrefix longer
    · intro earlier member
      rw [given] at member
      rcases List.mem_append.mp member with old | new
      · exact Nat.le_of_lt (longer earlier old)
      · rw [List.mem_singleton.mp new]

/-- A pass keeps what holds of the loop, and comes closer to its end. -/
theorem headerNext_sound (loop target : HeaderLoop (Logged Hw))
    (sound : loop.Sound mops.parseHeader.isSome sgt.flatten)
    (moves :
      headerNext mops.logged.toFpgaManagerOps krealloc sgt loop =
        some target) :
    target.Sound mops.parseHeader.isSome sgt.flatten ∧
      target.remaining sgt.flatten < loop.remaining sgt.flatten := by
  by_cases goesOn : loop.ret = some .eagain
  swap
  · rw [headerNext, if_neg goesOn] at moves
    cases moves
  rw [headerNext, if_pos goesOn] at moves
  obtain rfl := Option.some.inj moves
  have copied := sound.copied (Or.inl goesOn)
  have remains : loop.remaining sgt.flatten =
      sgt.flatten.length - loop.headerSize + 1 := if_pos goesOn
  rw [remains]
  rcases headerPass_cases mops.logged.toFpgaManagerOps krealloc copied
    with
    ⟨notAgain, fails, size, same⟩ | ⟨buf, isPrefix, size, larger, pass⟩
  · refine ⟨sound.refused notAgain fails size same, ?_⟩
    rw [HeaderLoop.remaining, if_neg notAgain]
    exact Nat.succ_pos _
  · have inside : buf.length ≤ sgt.flatten.length := by
      rw [isPrefix]
      exact List.length_take_le' _ _
    rw [pass]
    refine ⟨sound.asked isPrefix larger, ?_⟩
    unfold HeaderLoop.remaining
    split
    · show sgt.flatten.length - buf.length + 1 < _
      omega
    · exact Nat.succ_pos _

/--
Whatever the driver asks for, the loop ends.  The driver is given more of the
image in each pass and never more than there is, always from the beginning,
and what is returned in the end is the beginning of the image, which the
driver has been given last and has accepted.  The passes together are the
function which the load calls.
-/
theorem header_parsed_in_prefixes (mops : FpgaManagerSgOps Hw)
    (krealloc : Nat → Option (Nat → BitVec 8))
    (sgt : List (List (BitVec 8))) (info : FpgaImageInfo)
    (mgr : FpgaManager Hw) :
    let start := headerStart info mgr.logged.hw
    let next := headerNext mops.logged.toFpgaManagerOps krealloc sgt
    GivenInPrefixes sgt.flatten (headersGiven
        (fpgaMgrParseHeaderSgFirst mops.logged.toFpgaManagerOps mgr.logged
          info sgt).2.1.hw.calls) ∧
      Ends next start ∧
        ∀ count loop, after next count start = some loop →
          GivenInPrefixes sgt.flatten (headersGiven loop.hw.calls) ∧
            (∀ buf, loop.returned = .ok buf →
              buf = sgt.flatten.take loop.retSize ∧
                buf.length = loop.retSize ∧
                  (mops.parseHeader.isSome → loop.hw.Accepted buf)) ∧
              (next loop = none →
                fpgaMgrParseHeaderSgLoop mops.logged.toFpgaManagerOps
                    (fun size => (krealloc size).isSome) sgt info []
                    mgr.logged.hw =
                  (loop.returned, loop.info, loop.hw)) := by
  intro start next
  have initial : start.Sound mops.parseHeader.isSome sgt.flatten :=
    sound_start _ _ info mgr.hw
  refine ⟨parseHeaderSgFirst_given mgr info sgt, ?_, ?_⟩
  · exact ends_of_measure (HeaderLoop.remaining sgt.flatten)
      headerNext_sound initial
  · intro count loop reaches
    have sound : loop.Sound mops.parseHeader.isSome sgt.flatten := by
      refine after_induction (fun state target holds moves => ?_) initial
        reaches
      exact (headerNext_sound state target holds moves).1
    refine ⟨sound.prefixes, fun buf returns => ?_,
      parseHeaderSgLoop_of_after reaches⟩
    cases ret : loop.ret with
    | some errno =>
        rw [HeaderLoop.returned, ret] at returns
        cases returns
    | none =>
        rw [HeaderLoop.returned, ret] at returns
        cases returns
        have copied := sound.copied (Or.inr ret)
        exact ⟨copied.content, copied.length, sound.accepted ret⟩

end Given

end LinuxDfl.Fpga

import LinuxDfl.Ptp.Tod
import Mathlib.Tactic.Ring

/-!
# How far the clock is moved

The time of the clock is to be moved by so many nanoseconds.  Small moves are
made with adjusted periods, larger ones by setting the clock.
-/

namespace LinuxDfl.Ptp

open LinuxDfl.Kernel
open LinuxDfl.Lib.Traced
open LinuxDfl.Lib.Traced.Program

/-! ## Runs -/

variable {Value : Type} (tod : Tod)

theorem divU64Rem_bind (dividend : BitVec 64) {divisor : BitVec 32}
    (nonzero : divisor ≠ 0)
    (rest : BitVec 64 × BitVec 32 → TodProgram Value) :
    (divU64Rem dividend divisor >>= rest) tod =
      rest (dividend / divisor.setWidth 64,
        (dividend % divisor.setWidth 64).setWidth 32) tod := by
  rw [divU64Rem, if_neg nonzero]
  rfl

/-- The amount of a change of time, without its sign. -/
def absDelta (delta : BitVec 64) : BitVec 64 :=
  if delta.slt 0 then -delta else delta

/-- The `diff` for a change of time. -/
def diffOf (delta : BitVec 64) (period : BitVec 32) : BitVec 32 :=
  maxDiff (delta.slt 0) period

/-- The `count` for a change of time. -/
def countOf (delta : BitVec 64) (period : BitVec 32) : BitVec 64 :=
  absDelta delta / (diffOf delta period).setWidth 64

/-- The `rem` for a change of time. -/
def remOf (delta : BitVec 64) (period : BitVec 32) : BitVec 32 :=
  (absDelta delta % (diffOf delta period).setWidth 64).setWidth 32

/-- The steps of a fine adjustment of the time. -/
def fineSteps (adjPeriod remPeriod : BitVec 32) (count : BitVec 64)
    (rem : BitVec 32) : TodProgram (Option Errno) :=
  countStep adjPeriod count >>= remStep remPeriod rem

theorem dflTodAdjustTime_of_diff_zero (delta : BitVec 64)
    (zero : diffOf delta (tod.regs todPeriod) = 0) :
    dflTodAdjustTime delta tod = ⟨[], .error .divideError, tod⟩ := by
  have divides : ∀ diff, diff = 0 → ∀ rest : BitVec 64 × BitVec 32 →
      TodProgram (Option Errno),
        (divU64Rem (absDelta delta) diff >>= rest) tod =
          ⟨[], .error .divideError, tod⟩ := by
    rintro diff rfl rest
    rfl
  exact divides _ zero _

theorem dflTodAdjustTime_run (delta : BitVec 64)
    (nonzero : diffOf delta (tod.regs todPeriod) ≠ 0) :
    dflTodAdjustTime delta tod =
      if countOf delta (tod.regs todPeriod) > todAdjustCountMax then
        coarseAdjustTodClock (absDelta delta) tod
      else
        fineSteps
          (offsetPeriod (delta.slt 0) (tod.regs todPeriod)
            (diffOf delta (tod.regs todPeriod)))
          (offsetPeriod (delta.slt 0) (tod.regs todPeriod)
            (remOf delta (tod.regs todPeriod)))
          (countOf delta (tod.regs todPeriod))
          (remOf delta (tod.regs todPeriod)) tod := by
  refine (divU64Rem_bind tod (absDelta delta) nonzero _).trans ?_
  by_cases coarse : countOf delta (tod.regs todPeriod) > todAdjustCountMax
  · rw [if_pos coarse]
    exact congrFun (if_pos coarse) tod
  · rw [if_neg coarse]
    exact congrFun (if_neg coarse) tod

/-! ## Numbers -/

theorem slt_zero_iff (delta : BitVec 64) :
    delta.slt 0 = true ↔ delta.toInt < 0 := by
  rw [BitVec.slt_iff_toInt_lt]
  rfl

theorem absDelta_toNat (delta : BitVec 64) :
    (absDelta delta).toNat = delta.toInt.natAbs := by
  have bound := delta.isLt
  have value := BitVec.toInt_eq_toNat_cond delta
  unfold absDelta
  by_cases negative : delta.slt 0 = true
  · have below := (slt_zero_iff delta).mp negative
    rw [if_pos negative, BitVec.toNat_neg]
    split at value <;> omega
  · have above := mt (slt_zero_iff delta).mpr negative
    rw [if_neg negative]
    split at value <;> omega

theorem maxDiff_true_toNat (period : BitVec 32) :
    (maxDiff true period).toNat = period.toNat / 2 ^ 16 := by
  show ((period - 0#32) >>> 16).toNat = _
  rw [BitVec.toNat_ushiftRight, Nat.shiftRight_eq_div_pow, BitVec.sub_zero]

theorem maxDiff_false_toNat (period : BitVec 32) :
    (maxDiff false period).toNat =
      (2 ^ 64 - period.toNat + 0xfffff) % 2 ^ 64 / 2 ^ 16 % 2 ^ 32 := by
  have wide : (period.setWidth 64).toNat = period.toNat :=
    BitVec.toNat_setWidth_of_le (by decide)
  show (((0xfffff#64 - period.setWidth 64) >>> 16).setWidth 32).toNat = _
  rw [BitVec.toNat_setWidth, BitVec.toNat_ushiftRight,
    Nat.shiftRight_eq_div_pow, BitVec.toNat_sub, wide]
  rfl

theorem offsetPeriod_true_toNat (period offset : BitVec 32) :
    (offsetPeriod true period offset).toNat =
      (2 ^ 32 - offset.toNat * 2 ^ 16 % 2 ^ 32 + period.toNat) % 2 ^ 32 := by
  show (period - (offset <<< 16)).toNat = _
  rw [BitVec.toNat_sub, BitVec.toNat_shiftLeft, Nat.shiftLeft_eq]

theorem offsetPeriod_false_toNat (period offset : BitVec 32) :
    (offsetPeriod false period offset).toNat =
      (period.toNat + offset.toNat * 2 ^ 16 % 2 ^ 32) % 2 ^ 32 := by
  show (period + (offset <<< 16)).toNat = _
  rw [BitVec.toNat_add, BitVec.toNat_shiftLeft, Nat.shiftLeft_eq]

theorem countOf_toNat (delta : BitVec 64) (period : BitVec 32) :
    (countOf delta period).toNat =
      delta.toInt.natAbs / (diffOf delta period).toNat := by
  rw [countOf, BitVec.toNat_udiv, absDelta_toNat,
    BitVec.toNat_setWidth_of_le (by decide)]

theorem remOf_toNat (delta : BitVec 64) {period : BitVec 32}
    (nonzero : diffOf delta period ≠ 0) :
    (remOf delta period).toNat =
      delta.toInt.natAbs % (diffOf delta period).toNat := by
  have bound := (diffOf delta period).isLt
  have positive : 0 < (diffOf delta period).toNat := by
    apply Nat.pos_of_ne_zero
    intro zero
    exact nonzero (BitVec.eq_of_toNat_eq zero)
  have small := Nat.mod_lt delta.toInt.natAbs positive
  have wide : ((diffOf delta period).setWidth 64).toNat =
      (diffOf delta period).toNat :=
    BitVec.toNat_setWidth_of_le (by decide)
  rw [remOf, BitVec.toNat_setWidth, BitVec.toNat_umod, absDelta_toNat, wide,
    Nat.mod_eq_of_lt (by omega)]

/-! ## Setting the clock -/

theorem calSeconds_toNat (msb lsb : BitVec 32) :
    (calSeconds msb lsb).toNat =
      msb.toNat % 2 ^ 16 * 2 ^ 32 + lsb.toNat := by
  have low := lsb.isLt
  have wide (val : BitVec 32) : (val.setWidth 64).toNat = val.toNat :=
    BitVec.toNat_setWidth_of_le (by decide)
  have high : todSecondshSecMsb.get (msb.setWidth 64) =
      msb.toNat % 2 ^ 16 := by
    show ((msb.setWidth 64).extractLsb' 0 16).toNat = _
    rw [BitVec.extractLsb'_toNat, wide, Nat.shiftRight_zero]
  have shifted : (BitVec.ofNat 64 (msb.toNat % 2 ^ 16) <<< 32).toNat =
      (msb.toNat % 2 ^ 16) <<< 32 := by
    rw [BitVec.toNat_shiftLeft, BitVec.toNat_ofNat, Nat.shiftLeft_eq,
      Nat.shiftLeft_eq]
    omega
  rw [calSeconds, high, BitVec.toNat_or, shifted, wide,
    ← Nat.shiftLeft_add_eq_or_of_lt low, Nat.shiftLeft_eq]

/-- The time to which the clock is set, in 64 bits. -/
def coarseNow (delta : BitVec 64) : BitVec 64 :=
  calSeconds (tod.regs todSecondsh) (tod.regs todSecondsl) *
      nsecPerSec.setWidth 64 + (tod.regs todNanosec).setWidth 64 + delta

theorem coarseNow_toNat (delta : BitVec 64) :
    (coarseNow tod delta).toNat = (tod.time + delta.toNat) % 2 ^ 64 := by
  have seconds :=
    calSeconds_toNat (tod.regs todSecondsh) (tod.regs todSecondsl)
  have wide : ((tod.regs todNanosec).setWidth 64).toNat =
      (tod.regs todNanosec).toNat :=
    BitVec.toNat_setWidth_of_le (by decide)
  have second : (nsecPerSec.setWidth 64).toNat = 10 ^ 9 := rfl
  rw [coarseNow, BitVec.toNat_add, BitVec.toNat_add, BitVec.toNat_mul, wide,
    second, seconds, Tod.time]
  omega

/-- The clock after it has been set. -/
def setClock (now : BitVec 64) : Tod :=
  let seconds := now / nsecPerSec.setWidth 64
  let nanosec := (now % nsecPerSec.setWidth 64).setWidth 32
  ((tod.write todSecondsh (BitVec.ofNat 32 (secondsMsb.get seconds))).write
    todSecondsl (BitVec.ofNat 32 (secondsLsb.get seconds))).write
      todNanosec nanosec

/-- The registers can show all times of 64 bits. -/
theorem setClock_time (now : BitVec 64) :
    (setClock tod now).time = now.toNat := by
  have bound := now.isLt
  have second : (nsecPerSec.setWidth 64).toNat = 10 ^ 9 := rfl
  have seconds : (now / nsecPerSec.setWidth 64).toNat =
      now.toNat / 10 ^ 9 := by
    rw [BitVec.toNat_udiv, second]
  have nanosec : ((now % nsecPerSec.setWidth 64).setWidth 32).toNat =
      now.toNat % 10 ^ 9 := by
    rw [BitVec.toNat_setWidth, BitVec.toNat_umod, second]
    omega
  have high : (BitVec.ofNat 32
      (secondsMsb.get (now / nsecPerSec.setWidth 64))).toNat =
        now.toNat / 10 ^ 9 / 2 ^ 32 := by
    show (BitVec.ofNat 32
      ((now / nsecPerSec.setWidth 64).extractLsb' 32 16).toNat).toNat = _
    rw [BitVec.toNat_ofNat, BitVec.extractLsb'_toNat, seconds,
      Nat.shiftRight_eq_div_pow]
    omega
  have low : (BitVec.ofNat 32
      (secondsLsb.get (now / nsecPerSec.setWidth 64))).toNat =
        now.toNat / 10 ^ 9 % 2 ^ 32 := by
    show (BitVec.ofNat 32
      ((now / nsecPerSec.setWidth 64).extractLsb' 0 32).toNat).toNat = _
    rw [BitVec.toNat_ofNat, BitVec.extractLsb'_toNat, seconds,
      Nat.shiftRight_zero]
    omega
  have shows : (setClock tod now).time =
      ((BitVec.ofNat 32
          (secondsMsb.get (now / nsecPerSec.setWidth 64))).toNat % 2 ^ 16 *
            2 ^ 32 +
        (BitVec.ofNat 32
          (secondsLsb.get (now / nsecPerSec.setWidth 64))).toNat) * 10 ^ 9 +
      ((now % nsecPerSec.setWidth 64).setWidth 32).toNat := by
    simp [Tod.time, setClock, Tod.write, todSecondsh, todSecondsl,
      todNanosec]
  rw [shows, high, low, nanosec]
  omega

theorem setClock_moved (now : BitVec 64) :
    (setClock tod now).moved = tod.moved := rfl

theorem coarseAdjustTodClock_run {delta : BitVec 64} (nonzero : delta ≠ 0) :
    (coarseAdjustTodClock delta tod).result = .ok none ∧
      (coarseAdjustTodClock delta tod).state =
        setClock tod (coarseNow tod delta) ∧
      ∀ event ∈ (coarseAdjustTodClock delta tod).events,
        ∃ reg val, event = .writel reg val := by
  rw [coarseAdjustTodClock, if_neg nonzero]
  refine ⟨rfl, rfl, ?_⟩
  show ∀ event ∈ [TodEvent.writel _ _, .writel _ _, .writel _ _], _
  simp

/-! ## Fine adjustments -/

/-- The clock after a fine adjustment. -/
def afterFine (adjustPeriod adjustCount : BitVec 32) : Tod :=
  let written := (tod.write todAdjustPeriod adjustPeriod).write
    todAdjustCount adjustCount
  { written with timeouts := tod.timeouts.tail }

theorem fineAdjustTodClock_run (adjustPeriod adjustCount : BitVec 32) :
    fineAdjustTodClock adjustPeriod adjustCount tod =
      ⟨[.writel todAdjustPeriod adjustPeriod,
          .writel todAdjustCount adjustCount,
          .adjusted (tod.timeouts.headD false)],
        .ok (if tod.timeouts.headD false then some .etimedout else none),
        afterFine tod adjustPeriod adjustCount⟩ := rfl

theorem afterFine_time (adjustPeriod adjustCount : BitVec 32) :
    (afterFine tod adjustPeriod adjustCount).time = tod.time := by
  simp [Tod.time, afterFine, Tod.write, todSecondsh, todSecondsl,
    todNanosec, todAdjustPeriod, todAdjustCount]

theorem afterFine_period (adjustPeriod adjustCount : BitVec 32) :
    (afterFine tod adjustPeriod adjustCount).regs todPeriod =
      tod.regs todPeriod := by
  simp [afterFine, Tod.write, todPeriod, todAdjustPeriod, todAdjustCount]

theorem afterFine_moved (adjustPeriod adjustCount : BitVec 32) :
    (afterFine tod adjustPeriod adjustCount).moved =
      tod.moved + (adjustCount.toNat : Int) *
        (adjustPeriod.toNat - (tod.regs todPeriod).toNat) := by
  simp [afterFine, Tod.write, todPeriod, todAdjustPeriod, todAdjustCount]

/-! ## What is asked of a change of time -/

/-- How far the clock has been moved, in `2 ^ -16` ns. -/
def clockShift (before after : Tod) : Int :=
  2 ^ 16 * ((after.time : Int) - before.time) + (after.moved - before.moved)

/-- A run which has moved the clock by `delta` ns unless it returns an error. -/
structure TimeAdjusted (delta : BitVec 64) (before : Tod)
    (run : Run TodEvent DivideError Tod (Option Errno)) : Prop where
  shift : run.result = .ok none →
    clockShift before run.state = 2 ^ 16 * delta.toInt
  timeouts : .adjusted true ∈ run.events → ∃ ret, run.result = .ok (some ret)

/-- The clock is set rather than adjusted. -/
def IsCoarse (delta : BitVec 64) (period : BitVec 32) : Prop :=
  0xfffff < delta.toInt.natAbs / (diffOf delta period).toNat

instance (delta : BitVec 64) (period : BitVec 32) :
    Decidable (IsCoarse delta period) :=
  inferInstanceAs (Decidable (_ < _))

/-- The first of two adjustments times out, and the second does not. -/
def TimeoutLost (count : BitVec 64) (rem : BitVec 32) (tod : Tod) : Prop :=
  count ≠ 0 ∧ rem ≠ 0 ∧ tod.timeouts.headD false = true ∧
    tod.timeouts.tail.headD false = false

/-- One of the adjustments times out. -/
def TimesOut (count : BitVec 64) (rem : BitVec 32) (tod : Tod) : Prop :=
  if count = 0 then
    rem ≠ 0 ∧ tod.timeouts.headD false = true
  else
    tod.timeouts.headD false = true ∨
      rem ≠ 0 ∧ tod.timeouts.tail.headD false = true

/-- The periods do not wrap around. -/
def PeriodsFit (delta : BitVec 64) (period : BitVec 32) : Prop :=
  delta.toInt < 0 ∨ period.toNat ≤ 0xfffff ∨
    period.toNat + delta.toInt * 2 ^ 16 < 2 ^ 32

/-! ## The steps of a fine adjustment -/

section FineSteps

variable {adjPeriod remPeriod : BitVec 32} {count : BitVec 64}
  {rem : BitVec 32}

theorem remStep_of_made (made : rem ≠ 0) (ret : Option Errno) :
    remStep remPeriod rem ret = fineAdjustTodClock remPeriod 1 :=
  if_pos made

theorem fineSteps_of_nothing :
    fineSteps adjPeriod remPeriod 0 0 tod = ⟨[], .ok none, tod⟩ := rfl

theorem fineSteps_of_rem (made : rem ≠ 0) :
    fineSteps adjPeriod remPeriod 0 rem tod =
      fineAdjustTodClock remPeriod 1 tod :=
  congrFun (remStep_of_made made none) tod

/-- The run of the first adjustment. -/
def countRun (adjPeriod : BitVec 32) (count : BitVec 64) (tod : Tod) :
    Run TodEvent DivideError Tod (Option Errno) :=
  let run := fineAdjustTodClock adjPeriod (count.setWidth 32) tod
  ⟨.narrow count :: run.events, run.result, run.state⟩

theorem countStep_of_made (made : count ≠ 0) :
    countStep adjPeriod count tod = countRun adjPeriod count tod := by
  rw [countStep, if_pos made]
  rfl

theorem fineSteps_of_count (made : count ≠ 0) :
    fineSteps adjPeriod remPeriod count 0 tod =
      countRun adjPeriod count tod := by
  have returns : (countStep adjPeriod count tod).result =
      .ok (if tod.timeouts.headD false then some .etimedout else none) := by
    rw [countStep_of_made tod made]
    rfl
  rw [fineSteps, bind_of_ok returns, countStep_of_made tod made]
  rfl

theorem fineSteps_of_both (counts : count ≠ 0) (remains : rem ≠ 0) :
    let first := countRun adjPeriod count tod
    let second := fineAdjustTodClock remPeriod 1 first.state
    fineSteps adjPeriod remPeriod count rem tod =
      ⟨first.events ++ second.events, second.result, second.state⟩ := by
  intro first second
  have returns : (countStep adjPeriod count tod).result =
      .ok (if tod.timeouts.headD false then some .etimedout else none) := by
    rw [countStep_of_made tod counts]
    rfl
  rw [fineSteps, bind_of_ok returns, countStep_of_made tod counts,
    remStep_of_made remains]

/-- How far the adjustments move the clock together. -/
def fineMoved (adjPeriod remPeriod : BitVec 32) (count : BitVec 64)
    (period : BitVec 32) : Int :=
  ((count.setWidth 32).toNat : Int) *
      ((adjPeriod.toNat : Int) - period.toNat) +
    ((remPeriod.toNat : Int) - period.toNat)

/--
Of a run which returns the outcome of its last adjustment, in terms of this
outcome and of whether any adjustment has timed out.
-/
theorem timeAdjusted_iff {delta : BitVec 64}
    {run : Run TodEvent DivideError Tod (Option Errno)} {moved : Int}
    (last any : Bool) (implies : last = true → any = true)
    (result : run.result = .ok (if last then some .etimedout else none))
    (shift : clockShift tod run.state = moved)
    (events : .adjusted true ∈ run.events ↔ any = true) :
    TimeAdjusted delta tod run ↔
      ¬ (any = true ∧ last = false) ∧
        (any = true ∨ moved = 2 ^ 16 * delta.toInt) := by
  cases last with
  | true =>
      have timedOut := implies rfl
      have notFine : run.result ≠ .ok none := by
        rw [result]
        simp
      constructor
      · intro _
        exact ⟨fun lost => Bool.noConfusion lost.2, Or.inl timedOut⟩
      · intro _
        exact ⟨fun fine => absurd fine notFine, fun _ => ⟨_, result⟩⟩
  | false =>
      constructor
      · intro adjusted
        have none : any = false := by
          rw [← Bool.not_eq_true]
          intro timedOut
          obtain ⟨ret, fails⟩ := adjusted.timeouts (events.mpr timedOut)
          rw [result] at fails
          cases fails
        rw [none]
        exact ⟨fun lost => Bool.noConfusion lost.1,
          Or.inr (shift ▸ adjusted.shift result)⟩
      · rintro ⟨kept, moves⟩
        have none : any ≠ true := fun timedOut => kept ⟨timedOut, rfl⟩
        exact ⟨fun _ => shift.trans (moves.resolve_left none),
          fun member => absurd (events.mp member) none⟩

/-- Of a run which makes one adjustment, or none. -/
theorem timeAdjusted_once_iff {delta : BitVec 64}
    {run : Run TodEvent DivideError Tod (Option Errno)} {moved : Int}
    (timeout : Bool)
    (result : run.result = .ok (if timeout then some .etimedout else none))
    (shift : clockShift tod run.state = moved)
    (events : .adjusted true ∈ run.events ↔ timeout = true) :
    TimeAdjusted delta tod run ↔
      timeout = true ∨ moved = 2 ^ 16 * delta.toInt := by
  refine (timeAdjusted_iff tod timeout timeout id result shift events).trans ?_
  apply and_iff_right
  rintro ⟨timedOut, inTime⟩
  rw [timedOut] at inTime
  cases inTime

/-- A fine adjustment moves the clock by the change of the period. -/
theorem clockShift_afterFine (adjustPeriod adjustCount : BitVec 32) :
    clockShift tod (afterFine tod adjustPeriod adjustCount) =
      (adjustCount.toNat : Int) *
        ((adjustPeriod.toNat : Int) - (tod.regs todPeriod).toNat) := by
  rw [clockShift, afterFine_time, afterFine_moved]
  simp

/-- What is asked of the steps of a fine adjustment. -/
def FineExact (adjPeriod remPeriod : BitVec 32) (count : BitVec 64)
    (rem : BitVec 32) (delta : BitVec 64) (tod : Tod) : Prop :=
  ¬ TimeoutLost count rem tod ∧ (TimesOut count rem tod ∨
    fineMoved adjPeriod remPeriod count (tod.regs todPeriod) =
      2 ^ 16 * delta.toInt)

theorem fineExact_of_count_or_rem {delta : BitVec 64} {moved : Int}
    (single : count = 0 ∨ rem = 0)
    (timesOut : TimesOut count rem tod ↔ tod.timeouts.headD false = true)
    (moves : fineMoved adjPeriod remPeriod count (tod.regs todPeriod) =
      moved) :
    FineExact adjPeriod remPeriod count rem delta tod ↔
      tod.timeouts.headD false = true ∨ moved = 2 ^ 16 * delta.toInt := by
  rw [FineExact, timesOut, moves]
  apply and_iff_right
  rintro ⟨counts, remains, -⟩
  exact single.elim counts remains

theorem fineSteps_adjusted_of_nothing {delta : BitVec 64}
    (same : remPeriod = tod.regs todPeriod) :
    TimeAdjusted delta tod (fineSteps adjPeriod remPeriod 0 0 tod) ↔
      FineExact adjPeriod remPeriod 0 0 delta tod := by
  have moved : fineMoved adjPeriod remPeriod 0 (tod.regs todPeriod) = 0 := by
    simp [fineMoved, same]
  have onTime : ¬ TimesOut 0 0 tod := by
    simp [TimesOut]
  have notLost : ¬ TimeoutLost 0 0 tod := fun lost => lost.1 rfl
  have still : clockShift tod tod = 0 := by
    simp [clockShift]
  have events : TodEvent.adjusted true ∈ [] ↔ false = true := by
    simp
  rw [fineSteps_of_nothing, FineExact, moved]
  refine Iff.trans (timeAdjusted_once_iff tod false rfl still events) ?_
  simp only [notLost, onTime, Bool.false_eq_true, not_false_eq_true, true_and]

theorem fineSteps_adjusted_of_rem {delta : BitVec 64} (remains : rem ≠ 0) :
    TimeAdjusted delta tod (fineSteps adjPeriod remPeriod 0 rem tod) ↔
      FineExact adjPeriod remPeriod 0 rem delta tod := by
  have timesOut : TimesOut 0 rem tod ↔
      tod.timeouts.headD false = true := by
    rw [TimesOut, if_pos rfl, and_iff_right remains]
  have moved : fineMoved adjPeriod remPeriod 0 (tod.regs todPeriod) =
      clockShift tod (afterFine tod remPeriod 1) := by
    rw [clockShift_afterFine]
    simp [fineMoved]
  rw [fineSteps_of_rem tod remains, fineAdjustTodClock_run,
    fineExact_of_count_or_rem tod (.inl rfl) timesOut moved]
  generalize tod.timeouts.headD false = timeout
  refine timeAdjusted_once_iff tod timeout rfl rfl ?_
  simp [eq_comm]

theorem fineSteps_adjusted_of_count {delta : BitVec 64} (counts : count ≠ 0)
    (same : remPeriod = tod.regs todPeriod) :
    TimeAdjusted delta tod (fineSteps adjPeriod remPeriod count 0 tod) ↔
      FineExact adjPeriod remPeriod count 0 delta tod := by
  have timesOut : TimesOut count 0 tod ↔
      tod.timeouts.headD false = true := by
    rw [TimesOut, if_neg counts]
    simp
  have moved : fineMoved adjPeriod remPeriod count (tod.regs todPeriod) =
      clockShift tod (afterFine tod adjPeriod (count.setWidth 32)) := by
    rw [clockShift_afterFine, fineMoved, same, sub_self, add_zero]
  rw [fineSteps_of_count tod counts, countRun, fineAdjustTodClock_run,
    fineExact_of_count_or_rem tod (.inr rfl) timesOut moved]
  generalize tod.timeouts.headD false = timeout
  refine timeAdjusted_once_iff tod timeout rfl rfl ?_
  simp [eq_comm]

theorem fineSteps_adjusted_of_both {delta : BitVec 64} (counts : count ≠ 0)
    (remains : rem ≠ 0) :
    TimeAdjusted delta tod (fineSteps adjPeriod remPeriod count rem tod) ↔
      FineExact adjPeriod remPeriod count rem delta tod := by
  let counted := afterFine tod adjPeriod (count.setWidth 32)
  let ended := afterFine counted remPeriod 1
  have shift : clockShift tod ended =
      fineMoved adjPeriod remPeriod count (tod.regs todPeriod) := by
    have first : clockShift tod counted = _ := clockShift_afterFine tod _ _
    have second : clockShift counted ended =
        (remPeriod.toNat : Int) - (tod.regs todPeriod).toNat := by
      rw [clockShift_afterFine, afterFine_period]
      simp
    rw [fineMoved, ← first, ← second]
    simp only [clockShift]
    omega
  have lost : TimeoutLost count rem tod ↔
      tod.timeouts.headD false = true ∧
        tod.timeouts.tail.headD false = false := by
    rw [TimeoutLost, and_iff_right counts, and_iff_right remains]
  have timesOut : TimesOut count rem tod ↔
      tod.timeouts.headD false = true ∨
        tod.timeouts.tail.headD false = true := by
    rw [TimesOut, if_neg counts, and_iff_right remains]
  have next : counted.timeouts = tod.timeouts.tail := rfl
  rw [fineSteps_of_both tod counts remains, FineExact, lost, timesOut]
  simp only [countRun, fineAdjustTodClock_run]
  rw [next]
  generalize tod.timeouts.headD false = first
  generalize tod.timeouts.tail.headD false = second
  have events : TodEvent.adjusted true ∈
      .narrow count :: [.writel todAdjustPeriod adjPeriod,
        .writel todAdjustCount (count.setWidth 32), .adjusted first] ++
          [.writel todAdjustPeriod remPeriod, .writel todAdjustCount 1,
            .adjusted second] ↔ (first || second) = true := by
    cases first <;> cases second <;> simp
  have implies : second = true → (first || second) = true := by
    rintro rfl
    exact Bool.or_true first
  refine Iff.trans (timeAdjusted_iff tod second (first || second)
    implies rfl shift events) ?_
  rw [Bool.or_eq_true_iff]
  refine and_congr_left fun _ => not_congr ?_
  cases second <;> simp

/--
A fine adjustment does what is asked of it if no timeout is lost, and the
adjustments together move the clock as far as they should.
-/
theorem fineSteps_adjusted_iff {delta : BitVec 64}
    (same : rem = 0 → remPeriod = tod.regs todPeriod) :
    TimeAdjusted delta tod (fineSteps adjPeriod remPeriod count rem tod) ↔
      FineExact adjPeriod remPeriod count rem delta tod := by
  by_cases counts : count = 0
  · subst counts
    by_cases remains : rem = 0
    · subst remains
      exact fineSteps_adjusted_of_nothing tod (same rfl)
    · exact fineSteps_adjusted_of_rem tod remains
  · by_cases remains : rem = 0
    · subst remains
      exact fineSteps_adjusted_of_count tod counts (same rfl)
    · exact fineSteps_adjusted_of_both tod counts remains

end FineSteps

/-! ## Exactness -/

/-- Adjustments which change the period by whole nanoseconds add up. -/
theorem fineMoved_eq {adjPeriod remPeriod period : BitVec 32}
    {count : BitVec 64} {sign diff rem : Int}
    (few : count.toNat < 2 ^ 32)
    (adjusted : (adjPeriod.toNat : Int) - period.toNat =
      sign * (diff * 2 ^ 16))
    (remains : (remPeriod.toNat : Int) - period.toNat =
      sign * (rem * 2 ^ 16)) :
    fineMoved adjPeriod remPeriod count period =
      2 ^ 16 * (sign * (diff * count.toNat + rem)) := by
  have narrow : (count.setWidth 32).toNat = count.toNat := by
    rw [BitVec.toNat_setWidth]
    exact Nat.mod_eq_of_lt few
  rw [fineMoved, narrow, adjusted, remains]
  ring

theorem offsetPeriod_true_sub {period offset : BitVec 32}
    (fits : offset.toNat * 2 ^ 16 ≤ period.toNat) :
    ((offsetPeriod true period offset).toNat : Int) - period.toNat =
      -1 * ((offset.toNat : Int) * 2 ^ 16) := by
  have bound := period.isLt
  rw [offsetPeriod_true_toNat]
  omega

theorem offsetPeriod_false_sub {period offset : BitVec 32}
    (fits : period.toNat + offset.toNat * 2 ^ 16 < 2 ^ 32) :
    ((offsetPeriod false period offset).toNat : Int) - period.toNat =
      1 * ((offset.toNat : Int) * 2 ^ 16) := by
  rw [offsetPeriod_false_toNat]
  omega

/-- The steps of a fine adjustment, which make up the change of time. -/
structure FineParts (delta : BitVec 64) (period : BitVec 32) : Prop where
  few : (countOf delta period).toNat < 2 ^ 32
  small : (remOf delta period).toNat < (diffOf delta period).toNat
  whole : ((diffOf delta period).toNat : Int) *
      (countOf delta period).toNat + (remOf delta period).toNat =
    delta.toInt.natAbs

theorem fineParts {delta : BitVec 64} {period : BitVec 32}
    (nonzero : diffOf delta period ≠ 0) (fine : ¬ IsCoarse delta period) :
    FineParts delta period where
  few := by
    rw [countOf_toNat delta period]
    exact Nat.lt_of_le_of_lt (Nat.le_of_not_lt fine) (by decide)
  small := by
    rw [remOf_toNat delta nonzero]
    apply Nat.mod_lt
    apply Nat.pos_of_ne_zero
    intro zero
    exact nonzero (BitVec.eq_of_toNat_eq zero)
  whole := by
    rw [countOf_toNat delta period, remOf_toNat delta nonzero]
    exact_mod_cast Nat.div_add_mod _ _

/-- Towards earlier times, the periods never wrap around. -/
theorem fineMoved_of_negative {delta : BitVec 64} {period : BitVec 32}
    (parts : FineParts delta period) (negative : delta.slt 0 = true) :
    fineMoved (offsetPeriod true period (diffOf delta period))
        (offsetPeriod true period (remOf delta period))
        (countOf delta period) period = 2 ^ 16 * delta.toInt := by
  have below := (slt_zero_iff delta).mp negative
  have small := parts.small
  have diffNat : (diffOf delta period).toNat = period.toNat / 2 ^ 16 := by
    rw [diffOf, negative, maxDiff_true_toNat]
  have adjusted := offsetPeriod_true_sub
    (show (diffOf delta period).toNat * 2 ^ 16 ≤ period.toNat by omega)
  have remains := offsetPeriod_true_sub
    (show (remOf delta period).toNat * 2 ^ 16 ≤ period.toNat by omega)
  rw [fineMoved_eq parts.few adjusted remains, parts.whole]
  omega

/-- Towards later times, they do not if the period is a valid one. -/
theorem fineMoved_of_low {delta : BitVec 64} {period : BitVec 32}
    (parts : FineParts delta period) (positive : delta.slt 0 = false)
    (low : period.toNat ≤ 0xfffff) :
    fineMoved (offsetPeriod false period (diffOf delta period))
        (offsetPeriod false period (remOf delta period))
        (countOf delta period) period = 2 ^ 16 * delta.toInt := by
  have above : ¬ delta.toInt < 0 := by
    rw [← slt_zero_iff, positive]
    exact Bool.false_ne_true
  have small := parts.small
  have diffNat : (diffOf delta period).toNat =
      (0xfffff - period.toNat) / 2 ^ 16 := by
    rw [diffOf, positive, maxDiff_false_toNat]
    omega
  have adjusted := offsetPeriod_false_sub
    (show period.toNat + (diffOf delta period).toNat * 2 ^ 16 < 2 ^ 32 by
      omega)
  have remains := offsetPeriod_false_sub
    (show period.toNat + (remOf delta period).toNat * 2 ^ 16 < 2 ^ 32 by
      omega)
  rw [fineMoved_eq parts.few adjusted remains, parts.whole]
  omega

/-- With a period which is too large, they do unless the change is small. -/
theorem fineMoved_of_high_iff {delta : BitVec 64} {period : BitVec 32}
    (parts : FineParts delta period) (positive : delta.slt 0 = false)
    (high : 0xfffff < period.toNat) :
    fineMoved (offsetPeriod false period (diffOf delta period))
        (offsetPeriod false period (remOf delta period))
        (countOf delta period) period = 2 ^ 16 * delta.toInt ↔
      period.toNat + delta.toInt * 2 ^ 16 < 2 ^ 32 := by
  have above : ¬ delta.toInt < 0 := by
    rw [← slt_zero_iff, positive]
    exact Bool.false_ne_true
  have bound := period.isLt
  have whole := parts.whole
  have diffBound : 2 ^ 32 - 2 ^ 16 ≤ (diffOf delta period).toNat := by
    rw [diffOf, positive, maxDiff_false_toNat]
    omega
  have adjusted := (offsetPeriod false period (diffOf delta period)).isLt
  have remains := offsetPeriod_false_toNat period (remOf delta period)
  have narrow : ((countOf delta period).setWidth 32).toNat =
      (countOf delta period).toNat := by
    rw [BitVec.toNat_setWidth]
    exact Nat.mod_eq_of_lt parts.few
  rw [fineMoved, narrow]
  rcases Nat.eq_zero_or_pos (countOf delta period).toNat with none | some
  · rw [none] at whole ⊢
    simp only [Nat.cast_zero, mul_zero, zero_mul, zero_add] at whole ⊢
    omega
  · -- one cycle alone would have to move the clock too far
    have counts : (0 : Int) < (countOf delta period).toNat :=
      Int.natCast_pos.mpr some
    have cycles : ((diffOf delta period).toNat : Int) ≤
        (diffOf delta period).toNat * (countOf delta period).toNat :=
      le_mul_of_one_le_right (Int.natCast_nonneg _) counts
    have short : ((countOf delta period).toNat : Int) *
        (((offsetPeriod false period (diffOf delta period)).toNat : Int) -
          period.toNat) <
        (countOf delta period).toNat *
          ((diffOf delta period).toNat * 2 ^ 16) :=
      mul_lt_mul_of_pos_left (by omega) counts
    have same : ((countOf delta period).toNat : Int) *
        ((diffOf delta period).toNat * 2 ^ 16) =
        2 ^ 16 * ((diffOf delta period).toNat *
          (countOf delta period).toNat) := by
      ring
    rw [same] at short
    generalize ((countOf delta period).toNat : Int) * (_ - _) = moved
      at short ⊢
    generalize ((diffOf delta period).toNat : Int) *
      (countOf delta period).toNat = product at short whole cycles
    omega

/-- The periods and the count of a fine adjustment. -/
theorem fineMoved_exact_iff {delta : BitVec 64} {period : BitVec 32}
    (nonzero : diffOf delta period ≠ 0) (fine : ¬ IsCoarse delta period) :
    fineMoved
        (offsetPeriod (delta.slt 0) period (diffOf delta period))
        (offsetPeriod (delta.slt 0) period (remOf delta period))
        (countOf delta period) period = 2 ^ 16 * delta.toInt ↔
      PeriodsFit delta period := by
  have parts := fineParts nonzero fine
  cases sign : delta.slt 0 with
  | true =>
      exact iff_of_true (fineMoved_of_negative parts sign)
        (Or.inl ((slt_zero_iff delta).mp sign))
  | false =>
      have above : ¬ delta.toInt < 0 := by
        rw [← slt_zero_iff, sign]
        exact Bool.false_ne_true
      by_cases low : period.toNat ≤ 0xfffff
      · exact iff_of_true (fineMoved_of_low parts sign low)
          (Or.inr (Or.inl low))
      · rw [fineMoved_of_high_iff parts sign (Nat.lt_of_not_le low),
          PeriodsFit, or_iff_right above, or_iff_right low]

/-! ## Changes of time -/

/-- When a change of time is made as it should be. -/
def AdjustExact (delta : BitVec 64) (tod : Tod) : Prop :=
  let period := tod.regs todPeriod
  let count := countOf delta period
  let rem := remOf delta period
  if IsCoarse delta period then
    0 < delta.toInt ∧ tod.time + delta.toInt < 2 ^ 64
  else
    ¬ TimeoutLost count rem tod ∧
      (TimesOut count rem tod ∨ PeriodsFit delta period)

/-- Setting the clock adds the change without its sign, in 64 bits. -/
theorem coarse_adjusted_iff {delta : BitVec 64} (moves : delta.toInt ≠ 0)
    (notMin : delta ≠ BitVec.intMin 64) :
    TimeAdjusted delta tod (coarseAdjustTodClock (absDelta delta) tod) ↔
      0 < delta.toInt ∧ tod.time + delta.toInt < 2 ^ 64 := by
  have amount := absDelta_toNat delta
  have nonzero : absDelta delta ≠ 0 := by
    intro zero
    rw [zero] at amount
    exact moves (Int.natAbs_eq_zero.mp amount.symm)
  have least : delta.toInt ≠ -2 ^ 63 := fun same =>
    notMin (BitVec.eq_of_toInt_eq same)
  have lower : -2 ^ 64 ≤ 2 * delta.toInt := BitVec.le_two_mul_toInt
  have upper : 2 * delta.toInt < 2 ^ 64 := BitVec.two_mul_toInt_lt
  obtain ⟨result, state, events⟩ := coarseAdjustTodClock_run tod nonzero
  have shift : clockShift tod
      (coarseAdjustTodClock (absDelta delta) tod).state =
        2 ^ 16 * (((tod.time + delta.toInt.natAbs) % 2 ^ 64 : Nat) -
          (tod.time : Int)) := by
    rw [state, clockShift, setClock_time, setClock_moved, coarseNow_toNat,
      amount, sub_self, add_zero]
  constructor
  · intro adjusted
    have exact := adjusted.shift result
    rw [shift] at exact
    omega
  · rintro ⟨forward, fits⟩
    refine ⟨fun _ => ?_, fun timedOut => ?_⟩
    · rw [shift]
      omega
    · obtain ⟨reg, val, isWrite⟩ := events _ timedOut
      cases isWrite

/--
Where the period can be changed by a nanosecond or more: a change of time is
made as it should be if and only if the clock is set to a later time which it
can show, or fine adjustments are made, no timeout of them is lost and their
periods are valid.
-/
theorem adjust_time_exact_iff (delta : BitVec 64) (tod : Tod)
    (nonzero : diffOf delta (tod.regs todPeriod) ≠ 0)
    (notMin : delta ≠ BitVec.intMin 64) :
    TimeAdjusted delta tod (dflTodAdjustTime delta tod) ↔
      AdjustExact delta tod := by
  have coarse : countOf delta (tod.regs todPeriod) > todAdjustCountMax ↔
      IsCoarse delta (tod.regs todPeriod) := by
    rw [gt_iff_lt, BitVec.lt_def, countOf_toNat]
    rfl
  rw [dflTodAdjustTime_run tod delta nonzero]
  unfold AdjustExact
  by_cases isCoarse : IsCoarse delta (tod.regs todPeriod)
  · have moves : delta.toInt ≠ 0 := by
      intro zero
      rw [IsCoarse, zero, Int.natAbs_zero, Nat.zero_div] at isCoarse
      exact absurd isCoarse (by decide)
    rw [if_pos (coarse.mpr isCoarse)]
    exact (coarse_adjusted_iff tod moves notMin).trans
      (iff_of_eq (if_pos isCoarse).symm)
  · rw [if_neg (mt coarse.mp isCoarse)]
    refine Iff.trans ?_ (iff_of_eq (if_neg isCoarse).symm)
    rw [← fineMoved_exact_iff nonzero isCoarse]
    apply fineSteps_adjusted_iff
    intro noRem
    rw [noRem]
    cases delta.slt 0 <;> simp [offsetPeriod]

/-- A clock with a period of 6 ns which shows one second. -/
def oneSecond (timeouts : List Bool) : Tod where
  regs reg :=
    if reg = todPeriod then 0x60000 else if reg = todSecondsl then 1 else 0
  moved := 0
  timeouts := timeouts

theorem adjust_one_second :
    TimeAdjusted 1000 (oneSecond [])
      (dflTodAdjustTime 1000 (oneSecond [])) := by
  refine (adjust_time_exact_iff 1000 (oneSecond []) (by decide)
    (by decide)).mpr ?_
  rw [AdjustExact, if_neg (by decide)]
  refine ⟨fun lost => ?_, Or.inr (Or.inr (Or.inl (by decide)))⟩
  exact absurd lost.2.2.1 (by decide)

/-- To set the clock back by 10 ms sets it forward. -/
theorem adjust_back_sets_forward :
    ¬ TimeAdjusted (-10000000) (oneSecond [])
      (dflTodAdjustTime (-10000000) (oneSecond [])) := by
  intro adjusted
  have shift := adjusted.shift (by decide)
  exact absurd shift (by decide)

end LinuxDfl.Ptp

import LinuxDfl.Ptp.AdjustTime

/-!
# The divisions of the adjustments

The divisors of both adjustments come from registers.  When they are not zero,
and when the quotients are not cut off.
-/

namespace LinuxDfl.Ptp

open LinuxDfl.Kernel
open LinuxDfl.Lib.Traced
open LinuxDfl.Lib.Traced.Program

/-- A run which does not divide by zero and cuts no quotient off. -/
structure DividesSafely
    (run : Run TodEvent DivideError Tod (Option Errno)) : Prop where
  divides : run.result ≠ .error .divideError
  narrows : ∀ quotient, .narrow quotient ∈ run.events →
    quotient.toNat < 2 ^ 32

variable (tod : Tod)

/-! ## Adjusting the time -/

theorem diffOf_ne_zero_iff {delta : BitVec 64} {period : BitVec 32}
    (valid : period.toNat ≤ 0xfffff) :
    diffOf delta period ≠ 0 ↔
      if delta.toInt < 0 then 2 ^ 16 ≤ period.toNat
      else period.toNat ≤ 0xeffff := by
  have asNat : diffOf delta period ≠ 0 ↔
      (diffOf delta period).toNat ≠ 0 := by
    rw [ne_eq, ← BitVec.toNat_inj]
    rfl
  rw [asNat, diffOf]
  by_cases negative : delta.toInt < 0
  · rw [if_pos negative, (slt_zero_iff delta).mpr negative,
      maxDiff_true_toNat]
    omega
  · have positive : delta.slt 0 = false := by
      rw [← Bool.not_eq_true]
      exact mt (slt_zero_iff delta).mp negative
    rw [if_neg negative, positive, maxDiff_false_toNat]
    omega

/-- What a run of fine adjustments shows. -/
theorem fineSteps_dividesSafely {adjPeriod remPeriod rem : BitVec 32}
    {count : BitVec 64} (few : count.toNat < 2 ^ 32) :
    DividesSafely (fineSteps adjPeriod remPeriod count rem tod) := by
  by_cases counts : count = 0
  · subst counts
    by_cases remains : rem = 0
    · subst remains
      rw [fineSteps_of_nothing]
      exact ⟨by simp, by simp⟩
    · rw [fineSteps_of_rem tod remains, fineAdjustTodClock_run]
      exact ⟨by simp, by simp⟩
  · by_cases remains : rem = 0
    · subst remains
      rw [fineSteps_of_count tod counts, countRun, fineAdjustTodClock_run]
      refine ⟨by simp, fun quotient member => ?_⟩
      have same : quotient = count := by
        simpa using member
      rw [same]
      exact few
    · rw [fineSteps_of_both tod counts remains]
      simp only [countRun, fineAdjustTodClock_run]
      refine ⟨by simp, fun quotient member => ?_⟩
      have same : quotient = count := by
        simpa using member
      rw [same]
      exact few

theorem coarse_dividesSafely (delta : BitVec 64) :
    DividesSafely (coarseAdjustTodClock delta tod) := by
  by_cases zero : delta = 0
  · rw [coarseAdjustTodClock, if_pos zero]
    refine ⟨fun fails => ?_, fun _ member => absurd member List.not_mem_nil⟩
    cases fails
  · obtain ⟨result, -, events⟩ := coarseAdjustTodClock_run tod zero
    refine ⟨fun fails => ?_, fun quotient member => ?_⟩
    · rw [result] at fails
      cases fails
    · obtain ⟨reg, val, isWrite⟩ := events _ member
      cases isWrite

theorem adjustTime_dividesSafely_iff (delta : BitVec 64) :
    DividesSafely (dflTodAdjustTime delta tod) ↔
      diffOf delta (tod.regs todPeriod) ≠ 0 := by
  constructor
  · intro safe zero
    apply safe.divides
    rw [dflTodAdjustTime_of_diff_zero tod delta zero]
  · intro nonzero
    rw [dflTodAdjustTime_run tod delta nonzero]
    split_ifs with coarse
    · exact coarse_dividesSafely tod (absDelta delta)
    · apply fineSteps_dividesSafely
      have few : (countOf delta (tod.regs todPeriod)).toNat ≤ 0xfffff :=
        BitVec.le_def.mp (BitVec.not_lt.mp coarse)
      exact Nat.lt_of_le_of_lt few (by decide)

/-! ## Adjusting the rate -/

/-- The parts per billion of the nominal rate, for a change of it. -/
def nominalPpb (scaledPpm : BitVec 64) : Int :=
  (scaledPpmToPpb scaledPpm).toInt + 10 ^ 9

/-- The quotient which becomes the period. -/
def periodQuotient (scaledPpm : BitVec 64) (rate : BitVec 32) : BitVec 64 :=
  ((scaledPpmToPpb scaledPpm + giga) <<< periodFracOffset) /
    rate.setWidth 64

theorem divide_bind {Value : Type} (dividend : Nat) {divisor : Nat}
    (nonzero : divisor ≠ 0) (rest : Nat → TodProgram Value) :
    (divide dividend divisor >>= rest) tod =
      rest (dividend / divisor) tod := by
  rw [divide, if_neg nonzero]
  rfl

/-- A rate of zero is divided by. -/
theorem dflTodAdjustFine_of_rate_zero (scaledPpm : BitVec 64)
    (zero : tod.regs todClkFreq = 0) :
    (dflTodAdjustFine scaledPpm tod).result = .error .divideError := by
  have divides : ∀ rate, rate = 0 → ∀ rest : BitVec 64 × BitVec 32 →
      TodProgram (Option Errno),
        ((divU64Rem ((scaledPpmToPpb scaledPpm + giga) <<<
          periodFracOffset) rate >>= rest) tod).result =
            .error .divideError := by
    rintro rate rfl rest
    rfl
  exact divides _ zero _

/-- The greatest common divisor with a rate is not zero. -/
theorem setPeriod_run (period rem : BitVec 32) {rate : BitVec 32}
    (nonzero : rate ≠ 0) :
    (setPeriod period rem rate tod).result = .ok none ∧
      ∀ event ∈ (setPeriod period rem rate tod).events,
        ∃ reg val, event = .writel reg val := by
  have rateNat : rate.toNat ≠ 0 := by
    intro zero
    exact nonzero (BitVec.eq_of_toNat_eq zero)
  have common : Nat.gcd rem.toNat rate.toNat ≠ 0 :=
    Nat.gcd_ne_zero_right rateNat
  unfold setPeriod
  dsimp only
  rw [divide_bind tod _ common, divide_bind tod _ common]
  generalize halveDrift _ _ = drift
  refine ⟨rfl, ?_⟩
  show ∀ event ∈ [TodEvent.writel _ _, .writel _ _, .writel _ _,
    .writel _ _, .writel _ _], _
  simp

/-- What is done with a quotient and its remainder. -/
def useQuotient (rate : BitVec 32) (divided : BitVec 64 × BitVec 32) :
    TodProgram (Option Errno) := do
  let period ← toU32 divided.1
  if period.setWidth 64 > todPeriodMax then
    return some erange
  else
    setPeriod period divided.2 rate

theorem useQuotient_run {rate : BitVec 32} (nonzero : rate ≠ 0)
    (quotient : BitVec 64) (rem : BitVec 32) :
    let run := useQuotient rate (quotient, rem) tod
    run.result = .ok
        (if (quotient.setWidth 32).setWidth 64 > todPeriodMax then some erange
          else none) ∧
      ∃ writes, run.events = .narrow quotient :: writes ∧
        ∀ event ∈ writes, ∃ reg val, event = .writel reg val := by
  intro run
  let rest : TodProgram (Option Errno) :=
    if (quotient.setWidth 32).setWidth 64 > todPeriodMax then
      pure (some erange)
    else
      setPeriod (quotient.setWidth 32) rem rate
  have runs : run =
      ⟨.narrow quotient :: (rest tod).events, (rest tod).result,
        (rest tod).state⟩ := rfl
  rw [runs]
  by_cases exceeds : (quotient.setWidth 32).setWidth 64 > todPeriodMax
  · have stops : rest = pure (some erange) := if_pos exceeds
    rw [stops, if_pos exceeds]
    exact ⟨rfl, [], rfl, fun _ member => absurd member List.not_mem_nil⟩
  · have goesOn : rest = setPeriod (quotient.setWidth 32) rem rate :=
      if_neg exceeds
    obtain ⟨result, writes⟩ :=
      setPeriod_run tod (quotient.setWidth 32) rem nonzero
    rw [goesOn, if_neg exceeds]
    exact ⟨result, _, rfl, writes⟩

theorem dflTodAdjustFine_run (scaledPpm : BitVec 64)
    (nonzero : tod.regs todClkFreq ≠ 0) :
    ∃ rem, dflTodAdjustFine scaledPpm tod =
      useQuotient (tod.regs todClkFreq)
        (periodQuotient scaledPpm (tod.regs todClkFreq), rem) tod := by
  have divides : dflTodAdjustFine scaledPpm tod =
      (divU64Rem ((scaledPpmToPpb scaledPpm + giga) <<< periodFracOffset)
        (tod.regs todClkFreq) >>= useQuotient (tod.regs todClkFreq)) tod :=
    rfl
  exact ⟨_, divides.trans (divU64Rem_bind tod _ nonzero _)⟩

/-! ## Numbers -/

theorem periodQuotient_toNat {scaledPpm : BitVec 64}
    (lower : -todMaxAdj ≤ (scaledPpmToPpb scaledPpm).toInt)
    (upper : (scaledPpmToPpb scaledPpm).toInt ≤ todMaxAdj)
    (rate : BitVec 32) :
    ((periodQuotient scaledPpm rate).toNat : Int) =
      nominalPpb scaledPpm * 2 ^ 16 / rate.toNat := by
  have wide : (rate.setWidth 64).toNat = rate.toNat :=
    BitVec.toNat_setWidth_of_le (by decide)
  have bound := (scaledPpmToPpb scaledPpm).isLt
  have value := BitVec.toInt_eq_toNat_cond (scaledPpmToPpb scaledPpm)
  have sum : ((scaledPpmToPpb scaledPpm + giga).toNat : Int) =
      nominalPpb scaledPpm := by
    rw [BitVec.toNat_add, nominalPpb]
    show ((((scaledPpmToPpb scaledPpm).toNat + 1000000000) % 2 ^ 64 : Nat) :
      Int) = _
    unfold todMaxAdj at lower upper
    split at value <;> omega
  have shifted :
      (((scaledPpmToPpb scaledPpm + giga) <<< periodFracOffset).toNat :
        Int) = nominalPpb scaledPpm * 2 ^ 16 := by
    have small : nominalPpb scaledPpm < 2 ^ 32 := by
      unfold nominalPpb todMaxAdj at *
      omega
    rw [BitVec.toNat_shiftLeft, Nat.shiftLeft_eq, ← sum,
      Nat.mod_eq_of_lt (by unfold periodFracOffset; omega)]
    push_cast
    rfl
  rw [periodQuotient, BitVec.toNat_udiv, wide, Int.natCast_ediv, shifted]

theorem periodQuotient_lt_iff {nominal : Int} {quotient rate : Nat}
    (positive : 0 < rate)
    (divides : (quotient : Int) = nominal * 2 ^ 16 / rate) :
    quotient < 2 ^ 32 ↔ nominal < 2 ^ 16 * rate := by
  have asInt : quotient < 2 ^ 32 ↔ nominal * 2 ^ 16 / rate < 2 ^ 32 := by
    rw [← divides]
    exact_mod_cast Iff.rfl
  rw [asInt, Int.ediv_lt_iff_lt_mul (by exact_mod_cast positive)]
  omega

/-- The error of `dfl_tod_adjust_fine` is that of the exact quotient. -/
def RangeExact (scaledPpm : BitVec 64) (rate : BitVec 32)
    (run : Run TodEvent DivideError Tod (Option Errno)) : Prop :=
  run.result = .ok (some erange) ↔
    0xfffff < nominalPpb scaledPpm * 2 ^ 16 / rate.toNat

theorem adjustFine_safe_iff {scaledPpm : BitVec 64}
    (lower : -todMaxAdj ≤ (scaledPpmToPpb scaledPpm).toInt)
    (upper : (scaledPpmToPpb scaledPpm).toInt ≤ todMaxAdj) :
    DividesSafely (dflTodAdjustFine scaledPpm tod) ∧
        RangeExact scaledPpm (tod.regs todClkFreq)
          (dflTodAdjustFine scaledPpm tod) ↔
      nominalPpb scaledPpm < 2 ^ 16 * (tod.regs todClkFreq).toNat := by
  by_cases zero : tod.regs todClkFreq = 0
  · have fails := dflTodAdjustFine_of_rate_zero tod scaledPpm zero
    have above : 0 ≤ nominalPpb scaledPpm := by
      unfold nominalPpb todMaxAdj at *
      omega
    rw [zero]
    refine iff_of_false (fun safe => safe.1.divides fails) ?_
    exact not_lt.mpr above
  · have positive : 0 < (tod.regs todClkFreq).toNat := by
      apply Nat.pos_of_ne_zero
      intro isZero
      exact zero (BitVec.eq_of_toNat_eq isZero)
    have exact :=
      periodQuotient_toNat lower upper (tod.regs todClkFreq)
    obtain ⟨rem, runs⟩ := dflTodAdjustFine_run tod scaledPpm zero
    obtain ⟨result, writes, events, only⟩ := useQuotient_run tod zero
      (periodQuotient scaledPpm (tod.regs todClkFreq)) rem
    rw [runs, ← periodQuotient_lt_iff positive exact]
    generalize periodQuotient scaledPpm (tod.regs todClkFreq) = quotient
      at *
    constructor
    · intro safe
      apply safe.1.narrows quotient
      rw [events]
      exact List.mem_cons_self
    · intro fits
      refine ⟨⟨?_, fun other member => ?_⟩, ?_⟩
      · rw [result]
        simp
      · rw [events] at member
        rcases List.mem_cons.mp member with same | written
        · cases same
          exact fits
        · obtain ⟨reg, val, isWrite⟩ := only _ written
          cases isWrite
      · have kept : ((quotient.setWidth 32).setWidth 64).toNat =
            quotient.toNat := by
          rw [BitVec.toNat_setWidth, BitVec.toNat_setWidth]
          omega
        have exceeds : (quotient.setWidth 32).setWidth 64 > todPeriodMax ↔
            0xfffff < nominalPpb scaledPpm * 2 ^ 16 /
              (tod.regs todClkFreq).toNat := by
          rw [gt_iff_lt, BitVec.lt_def, kept, ← exact]
          exact_mod_cast Iff.rfl
        rw [RangeExact, result, ← exceeds]
        split_ifs with above
        · exact iff_of_true rfl above
        · exact iff_of_false (by simp) above

/--
For a valid period and a change of the rate which is in range: neither
adjustment divides by zero or cuts a quotient off, and the error of the range
is that of the exact quotient, if and only if the rate is fast enough and the
period may be changed by a nanosecond in the direction of the change of time.
-/
theorem adjust_arithmetic_iff (scaledPpm delta : BitVec 64) (tod : Tod)
    (valid : (tod.regs todPeriod).toNat ≤ 0xfffff)
    (lower : -todMaxAdj ≤ (scaledPpmToPpb scaledPpm).toInt)
    (upper : (scaledPpmToPpb scaledPpm).toInt ≤ todMaxAdj) :
    (DividesSafely (dflTodAdjustFine scaledPpm tod) ∧
        DividesSafely (dflTodAdjustTime delta tod) ∧
          RangeExact scaledPpm (tod.regs todClkFreq)
            (dflTodAdjustFine scaledPpm tod)) ↔
      nominalPpb scaledPpm < 2 ^ 16 * (tod.regs todClkFreq).toNat ∧
        if delta.toInt < 0 then 2 ^ 16 ≤ (tod.regs todPeriod).toNat
        else (tod.regs todPeriod).toNat ≤ 0xeffff := by
  rw [← diffOf_ne_zero_iff valid, ← adjustTime_dividesSafely_iff,
    ← adjustFine_safe_iff tod lower upper]
  constructor
  · rintro ⟨fine, time, range⟩
    exact ⟨⟨fine, range⟩, time⟩
  · rintro ⟨⟨fine, range⟩, time⟩
    exact ⟨fine, time, range⟩

/-- A clock of 156.25 MHz. -/
def usualClock : Tod where
  regs reg :=
    if reg = todPeriod then 0x66666
    else if reg = todClkFreq then 156250000 else 0
  moved := 0
  timeouts := []

theorem usualClock_arithmetic :
    DividesSafely (dflTodAdjustFine 0 usualClock) ∧
      DividesSafely (dflTodAdjustTime 1000 usualClock) ∧
        RangeExact 0 (usualClock.regs todClkFreq)
          (dflTodAdjustFine 0 usualClock) :=
  (adjust_arithmetic_iff 0 1000 usualClock (by decide) (by decide)
    (by decide)).mpr ⟨by decide, by decide⟩

/-- With a period of 15 ns or more, a move to later times divides by zero. -/
theorem slow_clock_divides_by_zero :
    ¬ ∀ (scaledPpm delta : BitVec 64) (tod : Tod),
      (tod.regs todPeriod).toNat ≤ 0xfffff →
        -todMaxAdj ≤ (scaledPpmToPpb scaledPpm).toInt →
          (scaledPpmToPpb scaledPpm).toInt ≤ todMaxAdj →
            DividesSafely (dflTodAdjustFine scaledPpm tod) ∧
              DividesSafely (dflTodAdjustTime delta tod) ∧
                RangeExact scaledPpm (tod.regs todClkFreq)
                  (dflTodAdjustFine scaledPpm tod) := by
  intro safe
  let slow : Tod := ⟨fun _ => 0xf0000, 0, []⟩
  obtain ⟨-, time, -⟩ := safe 0 1 slow (by decide) (by decide) (by decide)
  exact absurd time.divides (by decide)

end LinuxDfl.Ptp

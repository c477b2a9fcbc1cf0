import LinuxDfl.Lib.Truncation
import LinuxDfl.Ptp.Divisions

/-!
# The drift of the clock

The remainder of the period is made up for by a correction every so many
cycles.  Correction and rate have 16 bits each, and both are halved until they
fit.  How close their quotient stays to the exact one.
-/

namespace LinuxDfl.Ptp

open LinuxDfl.Kernel
open LinuxDfl.Lib.Traced
open LinuxDfl.Lib.Truncation

/-! ## The loop -/

/-- What the loop ends with, after so many turns. -/
structure HalvedBy (shift fns rate : Nat) (drift : Nat × Nat) : Prop where
  shifted : drift = (fns >>> shift, rate >>> shift)
  fnsFits : drift.1 ≤ todDriftAdjustFnsMax
  rateFits : drift.2 ≤ todDriftAdjustFnsMax
  /-- One turn less was not enough. -/
  needed : ∀ turn < shift, fns >>> turn > todDriftAdjustFnsMax ∨
    rate >>> turn > todDriftAdjustFnsMax

theorem exists_halvedBy (fns rate : Nat) :
    ∃ shift, HalvedBy shift fns rate (halveDrift fns rate) := by
  fun_induction halveDrift fns rate with
  | case1 fns rate exceeds ih =>
      obtain ⟨shift, halved⟩ := ih
      refine ⟨shift + 1, ?_, halved.fnsFits, halved.rateFits, ?_⟩
      · rw [halved.shifted, ← Nat.shiftRight_add, ← Nat.shiftRight_add,
          Nat.add_comm 1 shift]
      · intro turn below
        cases turn with
        | zero => exact exceeds
        | succ turn =>
            have needed := halved.needed turn (Nat.lt_of_succ_lt_succ below)
            rwa [← Nat.shiftRight_add, ← Nat.shiftRight_add,
              Nat.add_comm 1 turn] at needed
  | case2 fns rate fits =>
      rw [not_or, Nat.not_lt, Nat.not_lt] at fits
      exact ⟨0, rfl, fits.1, fits.2,
        fun turn below => absurd below (Nat.not_lt_zero turn)⟩

/-- The rate is not halved below a half of its maximum. -/
theorem HalvedBy.rate_ge {shift fns rate : Nat} {drift : Nat × Nat}
    (halved : HalvedBy shift fns rate drift) (proper : fns < rate)
    (turns : shift ≠ 0) : 2 ^ 15 ≤ drift.2 := by
  obtain ⟨before, rfl⟩ := Nat.exists_eq_succ_of_ne_zero turns
  have needed := halved.needed before (Nat.lt_succ_self before)
  have le : fns >>> before ≤ rate >>> before := by
    rw [Nat.shiftRight_eq_div_pow, Nat.shiftRight_eq_div_pow]
    exact Nat.div_le_div_right proper.le
  rw [halved.shifted]
  show 2 ^ 15 ≤ rate >>> (before + 1)
  rw [Nat.shiftRight_succ]
  unfold todDriftAdjustFnsMax at needed
  omega

theorem HalvedBy.rate_pos {shift fns rate : Nat} {drift : Nat × Nat}
    (halved : HalvedBy shift fns rate drift) (proper : fns < rate) :
    0 < drift.2 := by
  by_cases turns : shift = 0
  · subst turns
    rw [halved.shifted]
    exact Nat.zero_lt_of_lt proper
  · exact Nat.lt_of_lt_of_le (by decide) (halved.rate_ge proper turns)

/-- Halving moves the quotient by less than `2 ^ -15`. -/
theorem HalvedBy.close {shift fns rate : Nat} {drift : Nat × Nat}
    (halved : HalvedBy shift fns rate drift) (proper : fns < rate) :
    |(drift.1 : ℚ) / drift.2 - fns / rate| < 1 / 2 ^ 15 := by
  by_cases turns : shift = 0
  · subst turns
    rw [halved.shifted]
    simp
  · have large := halved.rate_ge proper turns
    have positive := halved.rate_pos proper
    rw [halved.shifted] at large positive ⊢
    simp only [Nat.shiftRight_eq_div_pow] at large positive ⊢
    refine (abs_div_sub_div_lt proper positive).trans_le ?_
    apply one_div_le_one_div_of_le (by norm_num)
    exact_mod_cast large

/-! ## The registers -/

/-- The correction and the rate which `dfl_tod_adjust_fine` writes. -/
def reducedDrift (rem rate : Nat) : Nat × Nat :=
  let common := Nat.gcd rem rate
  let drift := halveDrift (rem / common) (rate / common)
  (drift.1, if drift.1 = 0 then 0 else drift.2)

theorem setPeriod_events (tod : Tod) (period rem : BitVec 32)
    {rate : BitVec 32} (nonzero : rate ≠ 0) :
    (setPeriod period rem rate tod).events =
      [.writel todPeriod period, .writel todAdjustPeriod 0,
        .writel todAdjustCount 0,
        .writel todDriftAdjust
          (BitVec.ofNat 32 (reducedDrift rem.toNat rate.toNat).1),
        .writel todDriftAdjustRate
          (BitVec.ofNat 32 (reducedDrift rem.toNat rate.toNat).2)] := by
  have rateNat : rate.toNat ≠ 0 := by
    intro zero
    exact nonzero (BitVec.eq_of_toNat_eq zero)
  have common : Nat.gcd rem.toNat rate.toNat ≠ 0 :=
    Nat.gcd_ne_zero_right rateNat
  unfold setPeriod reducedDrift
  dsimp only
  rw [divide_bind tod _ common, divide_bind tod _ common]
  rfl

/-- So many halvings make both terms fit. -/
def FitHalved (fns rate shift : Nat) : Prop :=
  fns >>> shift ≤ todDriftAdjustFnsMax ∧ rate >>> shift ≤ todDriftAdjustFnsMax

theorem HalvedBy.isLeast {shift fns rate : Nat} {drift : Nat × Nat}
    (halved : HalvedBy shift fns rate drift) :
    IsLeast (FitHalved fns rate) shift := by
  have fnsFits := halved.fnsFits
  have rateFits := halved.rateFits
  rw [halved.shifted] at fnsFits rateFits
  refine ⟨⟨fnsFits, rateFits⟩, fun other fits => ?_⟩
  by_contra below
  rcases halved.needed other (Nat.lt_of_not_le below) with exceeds | exceeds
  · exact absurd fits.1 (Nat.not_le_of_lt exceeds)
  · exact absurd fits.2 (Nat.not_le_of_lt exceeds)

/-- A correction every so many cycles which makes up for a remainder. -/
structure MakesUpFor (rem rate : Nat) (drift : Nat × Nat) : Prop where
  /-- Both terms are halved as often as needed, and no more. -/
  least : ∃ shift,
    IsLeast (FitHalved (rem / Nat.gcd rem rate) (rate / Nat.gcd rem rate))
        shift ∧
      drift = (let fns := (rem / Nat.gcd rem rate) >>> shift
        (fns, if fns = 0 then 0 else (rate / Nat.gcd rem rate) >>> shift))
  fnsFits : drift.1 ≤ todDriftAdjustFnsMax
  rateFits : drift.2 ≤ todDriftAdjustFnsMax
  exact : rem ≠ 0 → rem / Nat.gcd rem rate ≤ todDriftAdjustFnsMax →
    rate / Nat.gcd rem rate ≤ todDriftAdjustFnsMax →
      drift = (rem / Nat.gcd rem rate, rate / Nat.gcd rem rate)
  vanishes : drift = (0, 0) ↔
    (halveDrift (rem / Nat.gcd rem rate) (rate / Nat.gcd rem rate)).1 = 0
  close : drift ≠ (0, 0) →
    0 < drift.2 ∧ |(drift.1 : ℚ) / drift.2 - rem / rate| < 1 / 2 ^ 15

/-- Nothing is halved if both fit. -/
theorem halveDrift_of_fits {fns rate : Nat}
    (fnsFits : fns ≤ todDriftAdjustFnsMax)
    (rateFits : rate ≤ todDriftAdjustFnsMax) :
    halveDrift fns rate = (fns, rate) := by
  rw [halveDrift, if_neg]
  rw [not_or, Nat.not_lt, Nat.not_lt]
  exact ⟨fnsFits, rateFits⟩

theorem reducedDrift_makesUpFor {rem rate : Nat} (proper : rem < rate) :
    MakesUpFor rem rate (reducedDrift rem rate) := by
  have positive : 0 < rate := Nat.zero_lt_of_lt proper
  have common : 0 < Nat.gcd rem rate := Nat.gcd_pos_of_pos_right rem positive
  have reduced : rem / Nat.gcd rem rate < rate / Nat.gcd rem rate :=
    Nat.div_lt_div_of_lt_of_dvd (Nat.gcd_dvd_right rem rate) proper
  obtain ⟨shift, halved⟩ :=
    exists_halvedBy (rem / Nat.gcd rem rate) (rate / Nat.gcd rem rate)
  have ratePos := halved.rate_pos reduced
  have close := halved.close reduced
  rw [div_gcd_div_div_gcd positive] at close
  have least : reducedDrift rem rate =
      (let fns := (rem / Nat.gcd rem rate) >>> shift
      (fns, if fns = 0 then 0 else (rate / Nat.gcd rem rate) >>> shift)) := by
    simp only [reducedDrift, halved.shifted]
  by_cases fnsZero :
      (halveDrift (rem / Nat.gcd rem rate) (rate / Nat.gcd rem rate)).1 = 0
  · have zero : reducedDrift rem rate = (0, 0) := by
      simp only [reducedDrift, fnsZero, if_true]
    rw [zero] at least ⊢
    refine ⟨⟨shift, halved.isLeast, least⟩, Nat.zero_le _, Nat.zero_le _,
      fun remains fnsFits rateFits => ?_, iff_of_true rfl fnsZero,
      fun different => absurd rfl different⟩
    rw [halveDrift_of_fits fnsFits rateFits] at fnsZero
    have le := Nat.le_of_dvd (Nat.pos_of_ne_zero remains)
      (Nat.gcd_dvd_left rem rate)
    exact absurd fnsZero (Nat.div_pos le common).ne'
  · have same : reducedDrift rem rate =
        halveDrift (rem / Nat.gcd rem rate) (rate / Nat.gcd rem rate) := by
      simp only [reducedDrift, fnsZero, if_false]
    rw [same] at least ⊢
    refine ⟨⟨shift, halved.isLeast, least⟩, halved.fnsFits, halved.rateFits,
      fun _ fnsFits rateFits => halveDrift_of_fits fnsFits rateFits,
      iff_of_false (fun zero => fnsZero (congrArg Prod.fst zero)) fnsZero,
      fun _ => ⟨ratePos, close⟩⟩

/-- What is written to the registers of the drift makes up for the remainder. -/
theorem setPeriod_drift (tod : Tod) (period rem rate : BitVec 32)
    (proper : rem.toNat < rate.toNat) :
    ∃ drift : Nat × Nat,
      (setPeriod period rem rate tod).result = .ok none ∧
        (setPeriod period rem rate tod).events =
          [.writel todPeriod period, .writel todAdjustPeriod 0,
            .writel todAdjustCount 0,
            .writel todDriftAdjust (BitVec.ofNat 32 drift.1),
            .writel todDriftAdjustRate (BitVec.ofNat 32 drift.2)] ∧
          MakesUpFor rem.toNat rate.toNat drift := by
  have nonzero : rate ≠ 0 := by
    rintro rfl
    exact Nat.not_lt_zero _ proper
  exact ⟨reducedDrift rem.toNat rate.toNat,
    (setPeriod_run tod period rem nonzero).1,
    setPeriod_events tod period rem nonzero, reducedDrift_makesUpFor proper⟩

/-- The adjustment does so with the remainder of its division. -/
theorem dflTodAdjustFine_rem (tod : Tod) (scaledPpm : BitVec 64)
    (nonzero : tod.regs todClkFreq ≠ 0) :
    ∃ rem : BitVec 32, rem.toNat < (tod.regs todClkFreq).toNat ∧
      rem.toNat = ((scaledPpmToPpb scaledPpm + giga) <<<
        periodFracOffset).toNat % (tod.regs todClkFreq).toNat ∧
      dflTodAdjustFine scaledPpm tod =
        useQuotient (tod.regs todClkFreq)
          (periodQuotient scaledPpm (tod.regs todClkFreq), rem) tod := by
  have positive : 0 < (tod.regs todClkFreq).toNat := by
    apply Nat.pos_of_ne_zero
    intro zero
    exact nonzero (BitVec.eq_of_toNat_eq zero)
  have divides : dflTodAdjustFine scaledPpm tod =
      (divU64Rem ((scaledPpmToPpb scaledPpm + giga) <<< periodFracOffset)
        (tod.regs todClkFreq) >>= useQuotient (tod.regs todClkFreq)) tod :=
    rfl
  refine ⟨_, ?_, ?_, divides.trans (divU64Rem_bind tod _ nonzero _)⟩
  all_goals
    have wide : ((tod.regs todClkFreq).setWidth 64).toNat =
        (tod.regs todClkFreq).toNat :=
      BitVec.toNat_setWidth_of_le (by decide)
    have below := Nat.mod_lt ((scaledPpmToPpb scaledPpm + giga) <<<
      periodFracOffset).toNat positive
    have fits := (tod.regs todClkFreq).isLt
    rw [BitVec.toNat_setWidth, BitVec.toNat_umod, wide,
      Nat.mod_eq_of_lt (below.trans fits)]
  exact below

/-- A remainder for which the terms are halved. -/
theorem usualClock_drift :
    ∃ drift : Nat × Nat,
      (setPeriod 0x66666 62500000 156250001 usualClock).result = .ok none ∧
        (setPeriod 0x66666 62500000 156250001 usualClock).events =
          [.writel todPeriod 0x66666, .writel todAdjustPeriod 0,
            .writel todAdjustCount 0,
            .writel todDriftAdjust (BitVec.ofNat 32 drift.1),
            .writel todDriftAdjustRate (BitVec.ofNat 32 drift.2)] ∧
          MakesUpFor (62500000#32).toNat (156250001#32).toNat drift :=
  setPeriod_drift usualClock 0x66666 62500000 156250001 (by decide)

end LinuxDfl.Ptp

import LinuxDfl.Kernel.Bitfield
import LinuxDfl.Kernel.Errno
import LinuxDfl.Lib.Traced

/-!
# The time-of-day clock

The clock of the card and the two operations which adjust it.  A run records
what is written, which quotients are put into fewer bits, and how the fine
adjustments end; it fails where the code divides by zero.
-/

namespace LinuxDfl.Ptp

open LinuxDfl.Kernel
open LinuxDfl.Lib.Traced
open LinuxDfl.Lib.Traced.Program

/-! ## Registers -/

/-- `TOD_CLK_FREQ` -/
def todClkFreq : Nat := 0x038
/-- `TOD_SECONDSH` -/
def todSecondsh : Nat := 0x100
/-- `TOD_SECONDSL` -/
def todSecondsl : Nat := 0x104
/-- `TOD_NANOSEC` -/
def todNanosec : Nat := 0x108
/-- `TOD_PERIOD` -/
def todPeriod : Nat := 0x110
/-- `TOD_ADJUST_PERIOD` -/
def todAdjustPeriod : Nat := 0x114
/-- `TOD_ADJUST_COUNT` -/
def todAdjustCount : Nat := 0x118
/-- `TOD_DRIFT_ADJUST` -/
def todDriftAdjust : Nat := 0x11c
/-- `TOD_DRIFT_ADJUST_RATE` -/
def todDriftAdjustRate : Nat := 0x120

/-- `PERIOD_FRAC_OFFSET` -/
def periodFracOffset : Nat := 16
/-- `SECONDS_MSB` -/
def secondsMsb : Field := genmask 47 32
/-- `SECONDS_LSB` -/
def secondsLsb : Field := genmask 31 0
/-- `TOD_SECONDSH_SEC_MSB` -/
def todSecondshSecMsb : Field := genmask 15 0

/-- `TOD_PERIOD_MAX` -/
def todPeriodMax : BitVec 64 := 0xfffff
/-- `TOD_PERIOD_MIN` -/
def todPeriodMin : BitVec 32 := 0
/-- `TOD_DRIFT_ADJUST_FNS_MAX`, which is `TOD_DRIFT_ADJUST_RATE_MAX` -/
def todDriftAdjustFnsMax : Nat := 0xffff
/-- `TOD_ADJUST_COUNT_MAX` -/
def todAdjustCountMax : BitVec 64 := 0xfffff
/-- `TOD_MAX_ADJ` -/
def todMaxAdj : Int := 500 * 1000000

/-- `NSEC_PER_SEC` -/
def nsecPerSec : BitVec 32 := 1000000000
/-- `GIGA` -/
def giga : BitVec 64 := 1000000000

/-- `ERANGE` -/
def erange : Errno := .other 34

/-! ## The hardware -/

/-- The clock of the card. -/
structure Tod where
  regs : Nat → BitVec 32
  /-- How far fine adjustments have moved the clock, in `2 ^ -16` ns. -/
  moved : Int
  /-- Whether the adjustments which follow time out. -/
  timeouts : List Bool

/-- `CAL_SECONDS` -/
def calSeconds (msb lsb : BitVec 32) : BitVec 64 :=
  (BitVec.ofNat 64 (todSecondshSecMsb.get (msb.setWidth 64)) <<< 32) |||
    lsb.setWidth 64

/-- The time which the registers show, in nanoseconds. -/
def Tod.time (tod : Tod) : Nat :=
  ((tod.regs todSecondsh).toNat % 2 ^ 16 * 2 ^ 32 +
      (tod.regs todSecondsl).toNat) * 10 ^ 9 +
    (tod.regs todNanosec).toNat

/--
A register is written.  With the count, a fine adjustment is made: for so many
cycles the clock advances by the adjusted period in place of its own.
-/
def Tod.write (tod : Tod) (reg : Nat) (val : BitVec 32) : Tod :=
  { tod with
    regs := Function.update tod.regs reg val
    moved :=
      if reg = todAdjustCount then
        tod.moved + (val.toNat : Int) *
          ((tod.regs todAdjustPeriod).toNat - (tod.regs todPeriod).toNat)
      else
        tod.moved }

/-! ## Programs -/

/-- What a run of the driver shows. -/
inductive TodEvent where
  | writel (reg : Nat) (val : BitVec 32)
  /-- A quotient of 64 bits is put into 32 bits. -/
  | narrow (quotient : BitVec 64)
  /-- The wait for a fine adjustment has ended. -/
  | adjusted (timedOut : Bool)
  deriving DecidableEq

/-- The driver has divided by zero. -/
inductive DivideError where
  | divideError
  deriving DecidableEq, Repr

abbrev TodProgram := Program TodEvent DivideError Tod

/-- `readl` -/
def readl (reg : Nat) : TodProgram (BitVec 32) := do
  let tod ← read
  return tod.regs reg

/-- `writel` -/
def writel (reg : Nat) (val : BitVec 32) : TodProgram Unit := do
  emit (.writel reg val)
  update fun tod => tod.write reg val

/-- `div_u64_rem` -/
def divU64Rem (dividend : BitVec 64) (divisor : BitVec 32) :
    TodProgram (BitVec 64 × BitVec 32) :=
  if divisor = 0 then
    fail .divideError
  else
    return (dividend / divisor.setWidth 64,
      (dividend % divisor.setWidth 64).setWidth 32)

/-- The `/` of the language, on unsigned numbers. -/
def divide (dividend divisor : Nat) : TodProgram Nat :=
  if divisor = 0 then fail .divideError else return dividend / divisor

/-- A quotient of 64 bits becomes a `u32`. -/
def toU32 (quotient : BitVec 64) : TodProgram (BitVec 32) := do
  emit (.narrow quotient)
  return quotient.setWidth 32

/-! ## Adjusting the time -/

/-- `readl_poll_timeout_atomic`, until the count reads as zero -/
def pollAdjustCount : TodProgram (Option Errno) := do
  let tod ← read
  let timedOut := tod.timeouts.headD false
  update fun tod => { tod with timeouts := tod.timeouts.tail }
  emit (.adjusted timedOut)
  return if timedOut then some .etimedout else none

/-- `fine_adjust_tod_clock` -/
def fineAdjustTodClock (adjustPeriod adjustCount : BitVec 32) :
    TodProgram (Option Errno) := do
  writel todAdjustPeriod adjustPeriod
  writel todAdjustCount adjustCount
  pollAdjustCount

/-- `coarse_adjust_tod_clock` -/
def coarseAdjustTodClock (delta : BitVec 64) : TodProgram (Option Errno) :=
  if delta = 0 then
    return none
  else do
    let nanosec ← readl todNanosec
    let secondsLow ← readl todSecondsl
    let secondsHigh ← readl todSecondsh
    let seconds := calSeconds secondsHigh secondsLow
    let now :=
      seconds * nsecPerSec.setWidth 64 + nanosec.setWidth 64 + delta
    let (seconds, nanosec) ← divU64Rem now nsecPerSec
    writel todSecondsh (BitVec.ofNat 32 (secondsMsb.get seconds))
    writel todSecondsl (BitVec.ofNat 32 (secondsLsb.get seconds))
    writel todNanosec nanosec
    return none

/--
`diff` of `dfl_tod_adjust_time`: by how many whole nanoseconds the period may
be changed.  `TOD_PERIOD_MAX` has 64 bits, `TOD_PERIOD_MIN` has 32.
-/
def maxDiff (negAdj : Bool) (period : BitVec 32) : BitVec 32 :=
  if negAdj then
    (period - todPeriodMin) >>> periodFracOffset
  else
    ((todPeriodMax - period.setWidth 64) >>> periodFracOffset).setWidth 32

/-- The period, changed by so many nanoseconds. -/
def offsetPeriod (negAdj : Bool) (period offset : BitVec 32) : BitVec 32 :=
  if negAdj then period - (offset <<< periodFracOffset)
  else period + (offset <<< periodFracOffset)

/-- The first step of a fine adjustment of the time: the cycles. -/
def countStep (adjPeriod : BitVec 32) (count : BitVec 64) :
    TodProgram (Option Errno) :=
  if count ≠ 0 then do
    let adjustCount ← toU32 count
    fineAdjustTodClock adjPeriod adjustCount
  else
    return none

/-- The second step: the cycle for what remains. -/
def remStep (remPeriod rem : BitVec 32) (ret : Option Errno) :
    TodProgram (Option Errno) :=
  if rem ≠ 0 then
    fineAdjustTodClock remPeriod 1
  else
    return ret

/-- `dfl_tod_adjust_time` -/
def dflTodAdjustTime (delta : BitVec 64) : TodProgram (Option Errno) := do
  let negAdj := delta.slt 0
  let delta := if negAdj then -delta else delta
  let period ← readl todPeriod
  let diff := maxDiff negAdj period
  let adjPeriod := offsetPeriod negAdj period diff
  let (count, rem) ← divU64Rem delta diff
  let remPeriod := offsetPeriod negAdj period rem
  if count > todAdjustCountMax then
    coarseAdjustTodClock delta
  else do
    let ret ← countStep adjPeriod count
    remStep remPeriod rem ret

/-! ## Adjusting the rate -/

/-- `scaled_ppm_to_ppb` -/
def scaledPpmToPpb (ppm : BitVec 64) : BitVec 64 :=
  ((1 + ppm) * 125).sshiftRight 13

/-- The loop of `dfl_tod_adjust_fine`, on the correction and its rate. -/
def halveDrift (fns rate : Nat) : Nat × Nat :=
  if fns > todDriftAdjustFnsMax ∨ rate > todDriftAdjustFnsMax then
    halveDrift (fns >>> 1) (rate >>> 1)
  else
    (fns, rate)
termination_by fns + rate
decreasing_by
  simp only [Nat.shiftRight_one, todDriftAdjustFnsMax] at *
  omega

/-- The end of `dfl_tod_adjust_fine`, which sets the period and its drift. -/
def setPeriod (period rem rate : BitVec 32) : TodProgram (Option Errno) := do
  let common := Nat.gcd rem.toNat rate.toNat
  let fns ← divide rem.toNat common
  let driftRate ← divide rate.toNat common
  let (fns, driftRate) := halveDrift fns driftRate
  let driftRate := if fns = 0 then 0 else driftRate
  writel todPeriod period
  writel todAdjustPeriod 0
  writel todAdjustCount 0
  writel todDriftAdjust (BitVec.ofNat 32 fns)
  writel todDriftAdjustRate (BitVec.ofNat 32 driftRate)
  return none

/-- `dfl_tod_adjust_fine` -/
def dflTodAdjustFine (scaledPpm : BitVec 64) :
    TodProgram (Option Errno) := do
  let rate ← readl todClkFreq
  let ppb := scaledPpmToPpb scaledPpm + giga
  let (quotient, rem) ← divU64Rem (ppb <<< periodFracOffset) rate
  let period ← toU32 quotient
  if period.setWidth 64 > todPeriodMax then
    return some erange
  else
    setPeriod period rem rate

end LinuxDfl.Ptp

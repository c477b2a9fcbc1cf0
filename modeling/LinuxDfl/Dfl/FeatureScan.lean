import Mathlib.Tactic.SplitIfs
import Mathlib.Order.Interval.Finset.Nat
import LinuxDfl.Dfl.Enumerate
import LinuxDfl.Lib.Iteration

/-!
# The scan for the size of a feature

A feature extends over the interfaces which follow it.  This says when the scan
over them ends, and that it adds up their offsets.
-/

namespace LinuxDfl.Dfl

open LinuxDfl.Kernel
open LinuxDfl.Lib.Traced
open LinuxDfl.Lib.Traced.Program
open LinuxDfl.Lib.Iteration

variable {platform : Platform} {dfhIoaddr limit : Int}

/-! ## One header -/

/-- The offset behind the header at this offset. -/
def behindHeader (platform : Platform) (dfhIoaddr : Int) (ofst : Nat) : Nat :=
  Word.add 32 ofst (dfhNextHdrOfst.get (platform.reg (dfhIoaddr + ofst)))

/-- The offset to which the scan goes on from the header at this offset. -/
def interfaceNext (platform : Platform) (dfhIoaddr limit : Int) (ofst : Nat) :
    Option Nat :=
  let value := platform.reg (dfhIoaddr + ofst)
  if dfhType.get value = dfhTypeInterface ∧ dfhEol.get value = 0 ∧
      dfhIoaddr + behindHeader platform dfhIoaddr ofst < limit then
    some (behindHeader platform dfhIoaddr ofst)
  else
    none

/-- What the scan returns at the header at this offset, if it ends there. -/
def sizeAt (platform : Platform) (dfhIoaddr : Int) (ofst : Nat) : Nat :=
  let value := platform.reg (dfhIoaddr + ofst)
  if dfhType.get value ≠ dfhTypeInterface then ofst
  else if dfhEol.get value ≠ 0 then behindHeader platform dfhIoaddr ofst
  else 0

theorem featureSizeLoop_succ (fuel ofst : Nat) (state : Enumeration) :
    (featureSizeLoop platform dfhIoaddr limit (fuel + 1) ofst state).result =
      (interfaceNext platform dfhIoaddr limit ofst).elim
        (.ok (sizeAt platform dfhIoaddr ofst)) fun next =>
          (featureSizeLoop platform dfhIoaddr limit fuel next
            state).result := by
  rw [featureSizeLoop]
  change ((ite _ _ _ : Build Nat) state).result = _
  unfold interfaceNext sizeAt behindHeader
  generalize platform.reg (dfhIoaddr + ofst) = value
  by_cases interface : dfhType.get value = dfhTypeInterface
  · by_cases last : dfhEol.get value = 0
    · by_cases below :
          dfhIoaddr + Word.add 32 ofst (dfhNextHdrOfst.get value) < limit
      · simp only [interface, last, below, ne_eq, not_true_eq_false, if_false,
          if_true, and_self, Option.elim_some]
      · simp only [interface, last, below, ne_eq, not_true_eq_false, if_false,
          and_false]
        rfl
    · simp only [interface, last, ne_eq, not_true_eq_false, if_false,
        not_false_eq_true, if_true, false_and, and_false]
      rfl
  · simp only [interface, ne_eq, not_false_eq_true, if_true, false_and,
      if_false]
    rfl

/-- The scan returns if it ends, and it does not return otherwise. -/
theorem featureSizeLoop_result (fuel ofst : Nat) (state : Enumeration) :
    (after (interfaceNext platform dfhIoaddr limit) fuel ofst = none ∧
        ∃ size, (featureSizeLoop platform dfhIoaddr limit fuel ofst
          state).result = .ok size) ∨
      (∃ ofst', after (interfaceNext platform dfhIoaddr limit) fuel ofst =
          some ofst') ∧
        (featureSizeLoop platform dfhIoaddr limit fuel ofst state).result =
          .error .stuck := by
  induction fuel generalizing ofst with
  | zero => exact .inr ⟨⟨ofst, rfl⟩, rfl⟩
  | succ fuel ih =>
      rw [featureSizeLoop_succ, after_succ]
      cases interfaceNext platform dfhIoaddr limit ofst with
      | none => exact .inl ⟨rfl, _, rfl⟩
      | some next => exact ih next

theorem featureSizeLoop_mono {fuel more ofst size : Nat}
    {state : Enumeration} (le : fuel ≤ more)
    (returns : (featureSizeLoop platform dfhIoaddr limit fuel ofst
      state).result = .ok size) (other : Enumeration) :
    (featureSizeLoop platform dfhIoaddr limit more ofst other).result =
      .ok size := by
  induction fuel generalizing more ofst with
  | zero => cases returns
  | succ fuel ih =>
      obtain ⟨more, rfl⟩ := Nat.exists_eq_add_of_lt le
      rw [featureSizeLoop_succ] at returns ⊢
      cases nextOf : interfaceNext platform dfhIoaddr limit ofst with
      | none =>
          rw [nextOf] at returns
          exact returns
      | some next =>
          rw [nextOf] at returns
          exact ih (Nat.le_add_right fuel more) returns

/-- The offsets of the scan are unsigned integers of 32 bits. -/
theorem behindHeader_lt {ofst : Nat} (bound : ofst < 2 ^ 32) :
    behindHeader platform dfhIoaddr ofst < 2 ^ 32 := by
  refine Word.add_lt bound (Nat.lt_trans (Field.get_lt _ _) ?_)
  decide

theorem interfaceNext_lt {source target : Nat} (bound : source < 2 ^ 32)
    (next : interfaceNext platform dfhIoaddr limit source = some target) :
    target < 2 ^ 32 := by
  unfold interfaceNext at next
  rw [Option.ite_none_right_eq_some] at next
  obtain ⟨-, next⟩ := next
  exact Option.some.inj next ▸ behindHeader_lt bound

theorem featureSizeLoop_lt {fuel ofst size : Nat} {state : Enumeration}
    (bound : ofst < 2 ^ 32)
    (returns : (featureSizeLoop platform dfhIoaddr limit fuel ofst
      state).result = .ok size) : size < 2 ^ 32 := by
  induction fuel generalizing ofst with
  | zero => cases returns
  | succ fuel ih =>
      rw [featureSizeLoop_succ] at returns
      cases nextOf : interfaceNext platform dfhIoaddr limit ofst with
      | none =>
          rw [nextOf] at returns
          obtain rfl := Except.ok.inj returns
          unfold sizeAt
          dsimp only
          split_ifs
          · exact bound
          · exact behindHeader_lt bound
          · decide
      | some next =>
          rw [nextOf] at returns
          exact ih (interfaceNext_lt bound nextOf) returns

/-- The scan ends exactly if it comes back to no header. -/
theorem scan_ends_iff {ofst : Nat} (bound : ofst < 2 ^ 32) :
    Ends (interfaceNext platform dfhIoaddr limit) ofst ↔
      ¬ ComesBack (interfaceNext platform dfhIoaddr limit) ofst :=
  ends_iff_not_comesBack (Set.finite_Iio (2 ^ 32)) bound
    fun _ _ => interfaceNext_lt

/-! ## Chains of interfaces -/

/--
The interfaces from this address on, which end inside the window: at a header
of another type, or at the end of the list.  Their offsets are listed.
-/
inductive InterfaceChain (platform : Platform) (limit : Int) :
    Int → List Nat → Prop where
  | other {address : Int} :
      address < limit →
      dfhType.get (platform.reg address) ≠ dfhTypeInterface →
      InterfaceChain platform limit address []
  | last {address : Int} :
      address < limit →
      dfhType.get (platform.reg address) = dfhTypeInterface →
      dfhEol.get (platform.reg address) ≠ 0 →
      InterfaceChain platform limit address
        [dfhNextHdrOfst.get (platform.reg address)]
  | next {address : Int} {offsets : List Nat} :
      address < limit →
      dfhType.get (platform.reg address) = dfhTypeInterface →
      dfhEol.get (platform.reg address) = 0 →
      InterfaceChain platform limit
        (address + dfhNextHdrOfst.get (platform.reg address)) offsets →
      InterfaceChain platform limit address
        (dfhNextHdrOfst.get (platform.reg address) :: offsets)

theorem InterfaceChain.address_lt {address : Int} {offsets : List Nat}
    (chain : InterfaceChain platform limit address offsets) :
    address < limit := by
  cases chain with
  | other below => exact below
  | last below => exact below
  | next below => exact below

/-- The scan over a chain adds up its offsets. -/
theorem InterfaceChain.scan {address : Int} {offsets : List Nat}
    (chain : InterfaceChain platform limit address offsets) {ofst : Nat}
    (here : address = dfhIoaddr + ofst) (fits : ofst + offsets.sum < 2 ^ 32)
    (state : Enumeration) :
    ∃ fuel, (featureSizeLoop platform dfhIoaddr limit fuel ofst
      state).result = .ok (ofst + offsets.sum) := by
  induction chain generalizing ofst with
  | other below other =>
      subst here
      refine ⟨1, ?_⟩
      have ends : interfaceNext platform dfhIoaddr limit ofst = none :=
        if_neg fun continues => other continues.1
      rw [featureSizeLoop_succ, ends]
      exact congrArg Except.ok (if_pos other)
  | last below interface last =>
      subst here
      refine ⟨1, ?_⟩
      rw [List.sum_singleton] at fits ⊢
      have ends : interfaceNext platform dfhIoaddr limit ofst = none :=
        if_neg fun continues => last continues.2.1
      have size : sizeAt platform dfhIoaddr ofst =
          ofst + dfhNextHdrOfst.get (platform.reg (dfhIoaddr + ofst)) := by
        unfold sizeAt
        dsimp only
        rw [if_neg (not_not.mpr interface), if_pos last]
        exact Word.add_of_lt fits
      rw [featureSizeLoop_succ, ends, size]
      rfl
  | next below interface notLast rest ih =>
      subst here
      rw [List.sum_cons, ← Nat.add_assoc] at fits ⊢
      have behind : behindHeader platform dfhIoaddr ofst =
          ofst + dfhNextHdrOfst.get (platform.reg (dfhIoaddr + ofst)) :=
        Word.add_of_lt (by omega)
      have atNext :
          dfhIoaddr + ofst +
              dfhNextHdrOfst.get (platform.reg (dfhIoaddr + ofst)) =
            dfhIoaddr + behindHeader platform dfhIoaddr ofst := by
        rw [behind]
        push_cast
        rw [Int.add_assoc]
      rw [← behind] at fits ⊢
      obtain ⟨fuel, returns⟩ := ih atNext fits
      refine ⟨fuel + 1, ?_⟩
      have continues : interfaceNext platform dfhIoaddr limit ofst =
          some (behindHeader platform dfhIoaddr ofst) :=
        if_pos ⟨interface, notLast, atNext ▸ rest.address_lt⟩
      rw [featureSizeLoop_succ, continues]
      exact returns

/-! ## The size of a feature -/

/-- The feature is followed by interfaces with these offsets. -/
def FollowedBy (platform : Platform) (dfhIoaddr limit : Int)
    (value : BitVec 64) (offsets : List Nat) : Prop :=
  dfhNextHdrOfst.get value ≠ 0 ∧
    if dfhEol.get value ≠ 0 then offsets = []
    else
      InterfaceChain platform limit (dfhIoaddr + dfhNextHdrOfst.get value)
        offsets

/-- `feature_size`, with any number of rounds -/
abbrev featureSizeOf (platform : Platform) (dfhIoaddr limit : Int)
    (value : BitVec 64) (fuel : Nat) : Build Nat :=
  featureSize (platform.withFuel fuel) dfhIoaddr limit value

/-- What the size of a feature has to be. -/
structure SizeScanned (platform : Platform) (dfhIoaddr limit : Int)
    (value : BitVec 64) : Prop where
  returns :
    ∃ size, Returns (featureSizeOf platform dfhIoaddr limit value) size
  sums : ∀ offsets, FollowedBy platform dfhIoaddr limit value offsets →
    Returns (featureSizeOf platform dfhIoaddr limit value)
      (dfhNextHdrOfst.get value + offsets.sum)

/-- When the scan ends, with a sum which the size can hold. -/
structure ScanSettles (platform : Platform) (dfhIoaddr limit : Int)
    (value : BitVec 64) : Prop where
  ends : dfhNextHdrOfst.get value ≠ 0 → dfhEol.get value = 0 →
    ¬ ComesBack (interfaceNext platform dfhIoaddr limit)
      (dfhNextHdrOfst.get value)
  fits : ∀ offsets, FollowedBy platform dfhIoaddr limit value offsets →
    dfhNextHdrOfst.get value + offsets.sum < 2 ^ 32

theorem featureSizeLoop_withFuel (fuel rounds ofst : Nat) :
    featureSizeLoop (platform.withFuel rounds) dfhIoaddr limit fuel ofst =
      featureSizeLoop platform dfhIoaddr limit fuel ofst := by
  induction fuel generalizing ofst with
  | zero => rfl
  | succ fuel ih =>
      rw [featureSizeLoop, featureSizeLoop]
      refine congrArg (readq platform _ >>= ·) (funext fun value => ?_)
      dsimp only
      rw [ih]

theorem featureSizeOf_eq (value : BitVec 64) (fuel : Nat) :
    featureSizeOf platform dfhIoaddr limit value fuel =
      if dfhNextHdrOfst.get value = 0 then pure 4096
      else if dfhEol.get value ≠ 0 then pure (dfhNextHdrOfst.get value)
      else
        featureSizeLoop platform dfhIoaddr limit fuel
          (dfhNextHdrOfst.get value) := by
  rw [← featureSizeLoop_withFuel fuel fuel]
  rfl

theorem nextHdrOfst_lt (value : BitVec 64) :
    dfhNextHdrOfst.get value < 2 ^ 32 :=
  Nat.lt_trans (Field.get_lt _ _) (by decide)

/-- The size of a feature without an offset. -/
theorem returns_of_zero {value : BitVec 64}
    (zero : dfhNextHdrOfst.get value = 0) :
    Returns (featureSizeOf platform dfhIoaddr limit value) 4096 := by
  refine ⟨0, fun fuel _ state => ?_⟩
  rw [featureSizeOf_eq, if_pos zero]
  rfl

/-- The size of the last feature of a list. -/
theorem returns_of_last {value : BitVec 64}
    (nonzero : dfhNextHdrOfst.get value ≠ 0)
    (last : dfhEol.get value ≠ 0) :
    Returns (featureSizeOf platform dfhIoaddr limit value)
      (dfhNextHdrOfst.get value) := by
  refine ⟨0, fun fuel _ state => ?_⟩
  rw [featureSizeOf_eq, if_neg nonzero, if_pos last]
  rfl

section Scanned

variable {value : BitVec 64} (nonzero : dfhNextHdrOfst.get value ≠ 0)
  (notLast : dfhEol.get value = 0)

include nonzero notLast

theorem featureSizeOf_scans (fuel : Nat) :
    featureSizeOf platform dfhIoaddr limit value fuel =
      featureSizeLoop platform dfhIoaddr limit fuel
        (dfhNextHdrOfst.get value) := by
  rw [featureSizeOf_eq, if_neg nonzero, if_neg (not_not.mpr notLast)]

theorem returns_of_scan {fuel size : Nat} {state : Enumeration}
    (scans : (featureSizeLoop platform dfhIoaddr limit fuel
      (dfhNextHdrOfst.get value) state).result = .ok size) :
    Returns (featureSizeOf platform dfhIoaddr limit value) size := by
  refine ⟨fuel, fun more enough other => ?_⟩
  rw [featureSizeOf_scans nonzero notLast]
  exact featureSizeLoop_mono enough scans other

/-- Some size is returned exactly if the scan comes back to no header. -/
theorem returns_iff_not_comesBack :
    (∃ size, Returns (featureSizeOf platform dfhIoaddr limit value) size) ↔
      ¬ ComesBack (interfaceNext platform dfhIoaddr limit)
        (dfhNextHdrOfst.get value) := by
  rw [← scan_ends_iff (nextHdrOfst_lt value)]
  constructor
  · rintro ⟨size, enough, returns⟩
    have scans := returns enough (Nat.le_refl _) (initialEnumeration 0)
    rw [featureSizeOf_scans nonzero notLast] at scans
    rcases featureSizeLoop_result enough (dfhNextHdrOfst.get value)
        (initialEnumeration 0) with ⟨ended, -⟩ | ⟨-, stuck⟩
    · exact ⟨enough, ended⟩
    · rw [stuck] at scans
      cases scans
  · rintro ⟨fuel, ended⟩
    rcases featureSizeLoop_result fuel (dfhNextHdrOfst.get value)
        (initialEnumeration 0) with ⟨-, size, scans⟩ | ⟨⟨ofst, goesOn⟩, -⟩
    · exact ⟨size, returns_of_scan nonzero notLast scans⟩
    · rw [goesOn] at ended
      cases ended

end Scanned

/-- What is returned is an unsigned integer of 32 bits. -/
theorem Returns.size_lt {value : BitVec 64} {size : Nat}
    (returns : Returns (featureSizeOf platform dfhIoaddr limit value) size) :
    size < 2 ^ 32 := by
  by_cases zero : dfhNextHdrOfst.get value = 0
  · rw [returns.unique (returns_of_zero zero)]
    decide
  by_cases notLast : dfhEol.get value = 0
  · obtain ⟨enough, returns⟩ := returns
    have scans := returns enough (Nat.le_refl _) (initialEnumeration 0)
    rw [featureSizeOf_scans zero notLast] at scans
    exact featureSizeLoop_lt (nextHdrOfst_lt value) scans
  · rw [returns.unique (returns_of_last zero notLast)]
    exact nextHdrOfst_lt value

/--
The size of a feature is found, as the sum of the offsets of the feature and the
interfaces which follow it, exactly if the scan comes back to no header and the
sum has at most 32 bits.
-/
theorem size_scanned_iff (platform : Platform) (dfhIoaddr limit : Int)
    (value : BitVec 64) :
    SizeScanned platform dfhIoaddr limit value ↔
      ScanSettles platform dfhIoaddr limit value := by
  constructor
  · intro scanned
    refine ⟨fun nonzero notLast => ?_, fun offsets followed => ?_⟩
    · exact (returns_iff_not_comesBack nonzero notLast).mp scanned.returns
    · exact (scanned.sums offsets followed).size_lt
  · intro settles
    refine ⟨?_, fun offsets followed => ?_⟩
    · by_cases zero : dfhNextHdrOfst.get value = 0
      · exact ⟨4096, returns_of_zero zero⟩
      by_cases notLast : dfhEol.get value = 0
      · exact (returns_iff_not_comesBack zero notLast).mpr
          (settles.ends zero notLast)
      · exact ⟨_, returns_of_last zero notLast⟩
    · have fits := settles.fits offsets followed
      obtain ⟨nonzero, chain⟩ := followed
      by_cases notLast : dfhEol.get value = 0
      · rw [if_neg (not_not.mpr notLast)] at chain
        obtain ⟨fuel, scans⟩ := chain.scan rfl fits (initialEnumeration 0)
        exact returns_of_scan nonzero notLast scans
      · rw [if_pos notLast] at chain
        subst chain
        exact returns_of_last nonzero notLast

/-- Wherever a header is read, it is that of an interface without an offset. -/
def interfaceWithoutOffset : Platform where
  mmio _ := 0x5000000000000000
  external _ := none
  irqTable _ := 0
  nrIrqsMax := 0
  beyond := 0
  fuel := 0

/-- The scan never gets past an interface without an offset. -/
theorem scan_stays_at_interface :
    ¬ SizeScanned interfaceWithoutOffset 0x40000 0x80000
        0x3000000010000000 := by
  intro scanned
  have never := (returns_iff_not_comesBack (by decide) (by decide)).mp
    scanned.returns
  exact never ⟨0, 1, 0x1000, by decide, by decide, by decide⟩

end LinuxDfl.Dfl

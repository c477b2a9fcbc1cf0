import LinuxDfl.Kernel.Errno
import LinuxDfl.Lib.Transition
import Mathlib.Data.List.Nodup

/-!
# The numbers of the CXL cache devices

One counter of the module gives each device its number and tells whether a
device is the last.  A number is taken before the device is created, and is
not given back when this fails; the counter is tested before it is lowered.
-/

namespace LinuxDfl.Cxl.Numbering

open LinuxDfl.Kernel
open LinuxDfl.Lib.Transition

/-! ## Data -/

/-- A device which is bound to the driver. -/
structure CacheDevice where
  ddev : Nat
  id : BitVec 32
  devt : BitVec 32
  deriving DecidableEq, Repr

/-- The variables of the module, and the devices which are bound to it. -/
structure CacheModule where
  /-- `dfl_cxl_cache_class` is there. -/
  cacheClass : Bool
  /-- The major of `dfl_cxl_cache_devt`, unless it is 0. -/
  major : Option (BitVec 12)
  /-- `dfl_cxl_cache_devices` -/
  devices : BitVec 32
  bound : List CacheDevice
  deriving DecidableEq, Repr

/-- What a probe meets. -/
structure ProbeAnswers where
  classCreate : Option Errno
  allocChrdevRegion : Except Errno (BitVec 12)
  ioremap : Option Errno
  kzalloc : Bool
  deviceCreate : Option Errno
  cdevAdd : Option Errno

/-- `MKDEV` -/
def mkdev (major : BitVec 12) (id : BitVec 32) : BitVec 32 :=
  major.setWidth 32 <<< 20 ||| id

/-- `MINOR` -/
def minor (devt : BitVec 32) : BitVec 32 := devt &&& 0xfffff#32

/-! ## Operations -/

/-- `cxl_cache_chardev_init` -/
def cxlCacheChardevInit (answers : ProbeAnswers) (ddev : Nat)
    (cache : CacheModule) : Except Errno CacheDevice × CacheModule :=
  let id := cache.devices
  let cache := { cache with devices := cache.devices + 1 }
  match answers.deviceCreate with
  | some ret => (.error ret, cache)
  | none =>
      match answers.cdevAdd with
      | some ret => (.error ret, cache)
      | none => (.ok ⟨ddev, id, mkdev (cache.major.getD 0) id⟩, cache)

/-- The class is created unless it is there. -/
def ensureClass (answers : ProbeAnswers) (cache : CacheModule) :
    Option Errno × CacheModule :=
  if cache.cacheClass then (none, cache)
  else
    match answers.classCreate with
    | some ret => (some ret, cache)
    | none => (none, { cache with cacheClass := true })

/-- The chrdev region is allocated unless it is there. -/
def ensureChrdev (answers : ProbeAnswers) (cache : CacheModule) :
    Option Errno × CacheModule :=
  match cache.major with
  | some _ => (none, cache)
  | none =>
      match answers.allocChrdevRegion with
      | .error ret => (some ret, cache)
      | .ok major => (none, { cache with major := some major })

/-- `dfl_cxl_cache_probe` -/
def dflCxlCacheProbe (answers : ProbeAnswers) (ddev : Nat)
    (cache : CacheModule) : Except Errno CacheDevice × CacheModule :=
  match ensureClass answers cache with
  | (some ret, cache) => (.error ret, cache)
  | (none, cache) =>
      match ensureChrdev answers cache with
      | (some ret, cache) => (.error ret, cache)
      | (none, cache) =>
          match answers.ioremap with
          | some ret => (.error ret, cache)
          | none =>
              if !answers.kzalloc then (.error .enomem, cache)
              else cxlCacheChardevInit answers ddev cache

/-- `dfl_cxl_cache_remove`, of which the class and the region are left -/
def dflCxlCacheRemove (cache : CacheModule) : CacheModule :=
  let devices := cache.devices
  let cache := { cache with devices := cache.devices - 1 }
  if devices = 0 then { cache with cacheClass := false, major := none }
  else cache

/-! ## Sequences of operations -/

inductive CacheModuleOp where
  | probe (ddev : Nat) (answers : ProbeAnswers)
  | remove (ddev : Nat)

/-- The devices which stay bound when one is removed. -/
def CacheModule.others (cache : CacheModule) (ddev : Nat) :
    List CacheDevice :=
  cache.bound.filter fun dev => dev.ddev ≠ ddev

/-- A device is bound when its probe succeeds. -/
def CacheModule.bind (cache : CacheModule) :
    Except Errno CacheDevice → CacheModule
  | .error _ => cache
  | .ok dev => { cache with bound := dev :: cache.bound }

/-- The state after an operation. -/
def CacheModule.apply (cache : CacheModule) : CacheModuleOp → CacheModule
  | .probe ddev answers =>
      let (ret, cache) := dflCxlCacheProbe answers ddev cache
      cache.bind ret
  | .remove ddev =>
      { dflCxlCacheRemove cache with bound := cache.others ddev }

/-- A device is probed while it is not bound, and removed while it is. -/
def CacheModule.enabled (cache : CacheModule) : CacheModuleOp → Bool
  | .probe ddev _ => decide (ddev ∉ cache.bound.map CacheDevice.ddev)
  | .remove ddev => decide (ddev ∈ cache.bound.map CacheDevice.ddev)

def CacheModule.Step (cache : CacheModule) (op : CacheModuleOp)
    (next : CacheModule) : Prop :=
  cache.enabled op = true ∧ cache.apply op = next

/-- The module has been loaded. -/
def cacheModuleInit : CacheModule := ⟨false, none, 0, []⟩

/-! ## What is to hold -/

/-- Devices have their own minors, and the class and the region exist. -/
structure NumbersSound (cache : CacheModule) : Prop where
  ids : (cache.bound.map CacheDevice.id).Nodup
  minors : (cache.bound.map fun dev => minor dev.devt).Nodup
  exist : cache.bound ≠ [] → cache.cacheClass = true ∧ cache.major.isSome = true

/-- The operation removes the last device. -/
def CacheModule.RemovesLast (cache : CacheModule) : CacheModuleOp → Prop
  | .probe _ _ => False
  | .remove ddev => cache.others ddev = []

/-- The class and the region are released exactly with the last device. -/
def ReleasedWithLast (cache : CacheModule) (op : CacheModuleOp) : Prop :=
  (cache.cacheClass = true ∧ (cache.apply op).cacheClass = false ↔
      cache.RemovesLast op) ∧
    (cache.major.isSome = true ∧ (cache.apply op).major.isSome = false ↔
      cache.RemovesLast op)

/-- A probe takes a number. -/
def ProbeAnswers.numbers (answers : ProbeAnswers) (cache : CacheModule) :
    Bool :=
  (cache.cacheClass || answers.classCreate.isNone) &&
    (cache.major.isSome || answers.allocChrdevRegion.isOk) &&
      answers.ioremap.isNone && answers.kzalloc

/-- The device is created. -/
def ProbeAnswers.creates (answers : ProbeAnswers) : Bool :=
  answers.deviceCreate.isNone && answers.cdevAdd.isNone

/-- A number is taken by a probe which fails. -/
def LosesNumber (cache : CacheModule) : CacheModuleOp → Prop
  | .probe _ answers =>
      answers.numbers cache = true ∧ answers.creates = false
  | .remove _ => False

/--
When a device would be given this number: no device is created with the minor
of another one, and the number of a removal is a multiple of `2 ^ 32` exactly
if it removes the last device.
-/
def NumberFits (number : Nat) (cache : CacheModule) : CacheModuleOp → Prop
  | .probe _ answers =>
      answers.numbers cache = true → answers.creates = true →
        ∀ dev ∈ cache.bound, dev.id.toNat % 2 ^ 20 ≠ number % 2 ^ 20
  | .remove ddev => number % 2 ^ 32 = 0 ↔ cache.others ddev = []

/-! ## What a probe does -/

/-- The ways in which a probe changes the module. -/
inductive ProbeOutcome (cache : CacheModule) (ddev : Nat)
    (answers : ProbeAnswers) (next : CacheModule) : Prop where
  | stops (stopped : answers.numbers cache = false)
      (devices : next.devices = cache.devices)
      (bound : next.bound = cache.bound)
  | loses (numbered : answers.numbers cache = true)
      (failed : answers.creates = false)
      (devices : next.devices = cache.devices + 1)
      (bound : next.bound = cache.bound)
  | binds (numbered : answers.numbers cache = true)
      (created : answers.creates = true)
      (devices : next.devices = cache.devices + 1)
      (exist : next.cacheClass = true ∧ next.major.isSome = true)
      (major : BitVec 12)
      (bound : next.bound =
        ⟨ddev, cache.devices, mkdev major cache.devices⟩ :: cache.bound)

/-- The class and the region which are there stay. -/
structure Stays (cache next : CacheModule) : Prop where
  cacheClass : cache.cacheClass = true → next.cacheClass = true
  major : cache.major.isSome = true → next.major.isSome = true

theorem ensureClass_cases (answers : ProbeAnswers) (cache : CacheModule) :
    (∃ ret, ensureClass answers cache = (some ret, cache) ∧
      (cache.cacheClass || answers.classCreate.isNone) = false) ∨
    (ensureClass answers cache = (none, { cache with cacheClass := true }) ∧
      (cache.cacheClass || answers.classCreate.isNone) = true) := by
  unfold ensureClass
  obtain ⟨cacheClass, major, devices, bound⟩ := cache
  cases cacheClass with
  | true => exact Or.inr ⟨rfl, rfl⟩
  | false =>
      cases create : answers.classCreate with
      | some ret => exact Or.inl ⟨ret, rfl, rfl⟩
      | none => exact Or.inr ⟨rfl, rfl⟩

theorem ensureChrdev_cases (answers : ProbeAnswers) (cache : CacheModule) :
    (∃ ret, ensureChrdev answers cache = (some ret, cache) ∧
      (cache.major.isSome || answers.allocChrdevRegion.isOk) = false) ∨
    ((∃ major,
        ensureChrdev answers cache = (none, { cache with major := some major })) ∧
      (cache.major.isSome || answers.allocChrdevRegion.isOk) = true) := by
  unfold ensureChrdev
  obtain ⟨cacheClass, major, devices, bound⟩ := cache
  cases major with
  | some major => exact Or.inr ⟨⟨major, rfl⟩, rfl⟩
  | none =>
      cases alloc : answers.allocChrdevRegion with
      | error ret => exact Or.inl ⟨ret, rfl, rfl⟩
      | ok major => exact Or.inr ⟨⟨major, rfl⟩, rfl⟩

/-- What is done once the class and the region are there. -/
theorem chardevInit_cases (answers : ProbeAnswers) (ddev : Nat)
    (cache : CacheModule) :
    (∃ ret, cxlCacheChardevInit answers ddev cache =
        (.error ret, { cache with devices := cache.devices + 1 }) ∧
      answers.creates = false) ∨
    (cxlCacheChardevInit answers ddev cache =
        (.ok ⟨ddev, cache.devices,
          mkdev (cache.major.getD 0) cache.devices⟩,
          { cache with devices := cache.devices + 1 }) ∧
      answers.creates = true) := by
  unfold cxlCacheChardevInit ProbeAnswers.creates
  cases answers.deviceCreate with
  | some ret => exact Or.inl ⟨ret, rfl, rfl⟩
  | none =>
      cases answers.cdevAdd with
      | some ret => exact Or.inl ⟨ret, rfl, rfl⟩
      | none => exact Or.inr ⟨rfl, rfl⟩

theorem probe_outcome (cache : CacheModule) (ddev : Nat)
    (answers : ProbeAnswers) :
    Stays cache (cache.apply (.probe ddev answers)) ∧
      ProbeOutcome cache ddev answers (cache.apply (.probe ddev answers)) := by
  unfold CacheModule.apply dflCxlCacheProbe
  rcases ensureClass_cases answers cache with
    ⟨ret, noClass, refused⟩ | ⟨isClass, allowed⟩
  · have stopped : answers.numbers cache = false := by
      rw [ProbeAnswers.numbers, refused]
      rfl
    simp only [noClass]
    exact ⟨⟨id, id⟩, .stops stopped rfl rfl⟩
  simp only [isClass]
  rcases ensureChrdev_cases answers { cache with cacheClass := true } with
    ⟨ret, noRegion, refused⟩ | ⟨⟨major, isRegion⟩, alsoAllowed⟩
  · have stopped : answers.numbers cache = false := by
      rw [ProbeAnswers.numbers, allowed, Bool.true_and]
      dsimp only at refused
      rw [refused]
      rfl
    simp only [noRegion]
    exact ⟨⟨fun _ => rfl, id⟩, .stops stopped rfl rfl⟩
  have stays : ∀ devices bound, Stays cache
      ⟨true, some major, devices, bound⟩ :=
    fun _ _ => ⟨fun _ => rfl, fun _ => rfl⟩
  have numbers : answers.numbers cache =
      (answers.ioremap.isNone && answers.kzalloc) := by
    dsimp only at alsoAllowed
    rw [ProbeAnswers.numbers, allowed, alsoAllowed]
    rfl
  simp only [isRegion]
  cases remaps : answers.ioremap with
  | some ret =>
      rw [remaps] at numbers
      exact ⟨stays _ _, .stops numbers rfl rfl⟩
  | none =>
      rw [remaps, Option.isNone_none, Bool.true_and] at numbers
      dsimp only
      cases allocates : answers.kzalloc with
      | false =>
          rw [allocates] at numbers
          exact ⟨stays _ _, .stops numbers rfl rfl⟩
      | true =>
          rw [allocates] at numbers
          rw [if_neg (by decide)]
          rcases chardevInit_cases answers ddev
              { cache with cacheClass := true, major := some major } with
            ⟨ret, fails, failed⟩ | ⟨creates, created⟩
          · simp only [fails]
            exact ⟨stays _ _, .loses numbers failed rfl rfl⟩
          · simp only [creates]
            exact ⟨stays _ _,
              .binds numbers created rfl ⟨rfl, rfl⟩ major rfl⟩

/-! ## The invariant -/

theorem minor_mkdev (major : BitVec 12) (id : BitVec 32) :
    (minor (mkdev major id)).toNat = id.toNat % 2 ^ 20 := by
  have high : (major.setWidth 32 <<< 20).toNat % 2 ^ 20 = 0 := by
    rw [BitVec.toNat_shiftLeft, Nat.shiftLeft_eq,
      Nat.mod_mod_of_dvd _ (by decide), Nat.mul_mod_left]
  have mask : (0xfffff#32).toNat = 2 ^ 20 - 1 := rfl
  rw [minor, mkdev, BitVec.toNat_and, mask, Nat.and_two_pow_sub_one_eq_mod,
    BitVec.toNat_or, Nat.or_mod_two_pow, high, Nat.zero_or]

/-- The counter counts the devices and the numbers which were lost. -/
structure Numbered (lost : Nat) (cache : CacheModule) : Prop where
  devices : cache.devices.toNat = (cache.bound.length + lost) % 2 ^ 32
  distinct : (cache.bound.map CacheDevice.ddev).Nodup
  minors : ∀ dev ∈ cache.bound,
    (minor dev.devt).toNat = dev.id.toNat % 2 ^ 20

theorem numbered_init : Numbered 0 cacheModuleInit where
  devices := rfl
  distinct := List.nodup_nil
  minors _ member := absurd member List.not_mem_nil

/-- Counting on and being counted agree modulo the width of the counter. -/
theorem succ_toNat {devices : BitVec 32} {number : Nat}
    (counts : devices.toNat = number % 2 ^ 32) :
    (devices + 1).toNat = (number + 1) % 2 ^ 32 := by
  rw [BitVec.toNat_add, counts]
  exact (Nat.add_mod number 1 (2 ^ 32)).symm

theorem pred_toNat {devices : BitVec 32} {number : Nat}
    (counts : devices.toNat = (number + 1) % 2 ^ 32) :
    (devices - 1).toNat = number % 2 ^ 32 := by
  rw [BitVec.toNat_sub, counts]
  have one : (1 : BitVec 32).toNat = 1 := rfl
  omega

/-- A removal takes one device out. -/
theorem others_length {cache : CacheModule} {ddev : Nat}
    (distinct : (cache.bound.map CacheDevice.ddev).Nodup)
    (isBound : ddev ∈ cache.bound.map CacheDevice.ddev) :
    cache.bound.length = (cache.others ddev).length + 1 := by
  have once : (cache.bound.map CacheDevice.ddev).count ddev = 1 :=
    List.count_eq_one_of_mem distinct isBound
  rw [List.count, List.countP_map] at once
  rw [List.length_eq_countP_add_countP (fun dev => dev.ddev ≠ ddev),
    CacheModule.others, List.countP_eq_length_filter]
  congr 1
  rw [← once]
  apply List.countP_congr
  intro dev _
  simp

theorem Numbered.loses {lost : Nat} {cache next : CacheModule}
    {op : CacheModuleOp} (numbered : Numbered lost cache)
    (step : cache.Step op next) (loses : LosesNumber cache op) :
    Numbered (lost + 1) next := by
  obtain ⟨-, rfl⟩ := step
  cases op with
  | remove ddev => exact absurd loses id
  | probe ddev answers =>
      obtain ⟨isNumbered, failed⟩ := loses
      cases (probe_outcome cache ddev answers).2 with
      | stops stopped devices bound =>
          rw [stopped] at isNumbered
          cases isNumbered
      | binds _ created devices exist major bound =>
          rw [failed] at created
          cases created
      | loses _ _ devices bound =>
          constructor
          · rw [devices, bound]
            exact succ_toNat numbered.devices
          · rw [bound]
            exact numbered.distinct
          · rw [bound]
            exact numbered.minors

theorem Numbered.keeps {lost : Nat} {cache next : CacheModule}
    {op : CacheModuleOp} (numbered : Numbered lost cache)
    (step : cache.Step op next) (keeps : ¬ LosesNumber cache op) :
    Numbered lost next := by
  obtain ⟨enabled, rfl⟩ := step
  cases op with
  | probe ddev answers =>
      cases (probe_outcome cache ddev answers).2 with
      | stops stopped devices bound =>
          constructor
          · rw [devices, bound]
            exact numbered.devices
          · rw [bound]
            exact numbered.distinct
          · rw [bound]
            exact numbered.minors
      | loses isNumbered failed _ _ =>
          exact absurd ⟨isNumbered, failed⟩ keeps
      | binds isNumbered created devices exist major bound =>
          constructor
          · rw [devices, bound, List.length_cons, Nat.add_right_comm]
            exact succ_toNat numbered.devices
          · rw [bound]
            exact List.nodup_cons.mpr
              ⟨of_decide_eq_true enabled, numbered.distinct⟩
          · rw [bound]
            intro dev member
            rcases List.mem_cons.mp member with rfl | old
            · exact minor_mkdev major cache.devices
            · exact numbered.minors dev old
  | remove ddev =>
      have isBound := of_decide_eq_true enabled
      have counts := numbered.devices
      rw [others_length numbered.distinct isBound,
        Nat.add_right_comm] at counts
      have kept : ∀ dev ∈ cache.others ddev, dev ∈ cache.bound :=
        fun _ member => (List.mem_filter.mp member).1
      constructor
      · unfold CacheModule.apply dflCxlCacheRemove
        dsimp only
        split <;> exact pred_toNat counts
      · exact numbered.distinct.sublist
          (List.filter_sublist.map CacheDevice.ddev)
      · exact fun dev member => numbered.minors dev (kept dev member)

/-! ## Steps -/

theorem numbered_step {cache next : CacheModule} {op : CacheModuleOp}
    (numbered : ∃ lost, Numbered lost cache)
    (step : cache.Step op next) : ∃ lost, Numbered lost next := by
  obtain ⟨lost, numbered⟩ := numbered
  by_cases loses : LosesNumber cache op
  · exact ⟨lost + 1, numbered.loses step loses⟩
  · exact ⟨lost, numbered.keeps step loses⟩

/-- The numbers of a step fit as counted or as the counter says. -/
theorem numberFits_congr {lost : Nat} {cache : CacheModule}
    (numbered : Numbered lost cache) (op : CacheModuleOp) :
    NumberFits cache.devices.toNat cache op ↔
      NumberFits (cache.bound.length + lost) cache op := by
  rw [numbered.devices]
  cases op with
  | probe ddev answers =>
      unfold NumberFits
      rw [Nat.mod_mod_of_dvd _ (by decide)]
  | remove ddev =>
      unfold NumberFits
      rw [Nat.mod_mod]

/-- A probe releases nothing. -/
theorem probe_released (cache : CacheModule) (ddev : Nat)
    (answers : ProbeAnswers) :
    ReleasedWithLast cache (.probe ddev answers) := by
  obtain ⟨stays, -⟩ := probe_outcome cache ddev answers
  constructor
  · refine iff_of_false ?_ id
    rintro ⟨isThere, isGone⟩
    rw [stays.cacheClass isThere] at isGone
    cases isGone
  · refine iff_of_false ?_ id
    rintro ⟨isThere, isGone⟩
    rw [stays.major isThere] at isGone
    cases isGone

/-- What is there for bound devices is there for them after a probe. -/
theorem NumbersSound.of_stays {cache next : CacheModule}
    (sound : NumbersSound cache) (stays : Stays cache next)
    (bound : next.bound = cache.bound) : NumbersSound next := by
  constructor
  · rw [bound]
    exact sound.ids
  · rw [bound]
    exact sound.minors
  · rw [bound]
    intro used
    obtain ⟨isClass, isRegion⟩ := sound.exist used
    exact ⟨stays.cacheClass isClass, stays.major isRegion⟩

/-- A probe keeps the numbers sound exactly if its minor is free. -/
theorem probe_sound_iff {lost : Nat} {cache : CacheModule}
    (numbered : Numbered lost cache) (sound : NumbersSound cache)
    (ddev : Nat) (answers : ProbeAnswers) :
    (NumbersSound (cache.apply (.probe ddev answers)) ∧
        ReleasedWithLast cache (.probe ddev answers)) ↔
      NumberFits cache.devices.toNat cache (.probe ddev answers) := by
  rw [and_iff_left (probe_released cache ddev answers)]
  obtain ⟨stays, outcome⟩ := probe_outcome cache ddev answers
  cases outcome with
  | stops stopped devices bound =>
      refine iff_of_true (sound.of_stays stays bound) ?_
      intro isNumbered
      rw [stopped] at isNumbered
      cases isNumbered
  | loses isNumbered failed devices bound =>
      refine iff_of_true (sound.of_stays stays bound) ?_
      intro _ created
      rw [failed] at created
      cases created
  | binds isNumbered created devices exist major bound =>
      have fits : NumberFits cache.devices.toNat cache
            (.probe ddev answers) ↔
          ∀ dev ∈ cache.bound,
            minor dev.devt ≠ minor (mkdev major cache.devices) := by
        unfold NumberFits
        simp only [isNumbered, created, true_implies]
        refine forall₂_congr fun dev member => not_congr ?_
        rw [← BitVec.toNat_inj, numbered.minors dev member, minor_mkdev]
      rw [fits]
      constructor
      · intro next dev member same
        have minors := next.minors
        rw [bound, List.map_cons, List.nodup_cons] at minors
        exact minors.1 (List.mem_map.mpr ⟨dev, member, same⟩)
      · intro free
        constructor
        · rw [bound, List.map_cons, List.nodup_cons]
          refine ⟨?_, sound.ids⟩
          intro taken
          obtain ⟨dev, member, same⟩ := List.mem_map.mp taken
          apply free dev member
          rw [← BitVec.toNat_inj, numbered.minors dev member, minor_mkdev,
            same]
        · rw [bound, List.map_cons, List.nodup_cons]
          refine ⟨?_, sound.minors⟩
          intro taken
          obtain ⟨dev, member, same⟩ := List.mem_map.mp taken
          exact free dev member same
        · exact fun _ => exist

/-- The devices which stay keep their numbers. -/
theorem NumbersSound.others {cache : CacheModule}
    (sound : NumbersSound cache) (ddev : Nat) :
    ((cache.others ddev).map CacheDevice.id).Nodup ∧
      ((cache.others ddev).map fun dev => minor dev.devt).Nodup :=
  ⟨sound.ids.sublist (List.filter_sublist.map _),
    sound.minors.sublist (List.filter_sublist.map _)⟩

/-- A removal keeps the numbers sound exactly if its number fits. -/
theorem remove_sound_iff {cache : CacheModule} (sound : NumbersSound cache)
    {ddev : Nat} (isBound : ddev ∈ cache.bound.map CacheDevice.ddev) :
    (NumbersSound (cache.apply (.remove ddev)) ∧
        ReleasedWithLast cache (.remove ddev)) ↔
      NumberFits cache.devices.toNat cache (.remove ddev) := by
  have used : cache.bound ≠ [] := by
    intro none
    rw [none] at isBound
    exact absurd isBound List.not_mem_nil
  obtain ⟨isClass, isRegion⟩ := sound.exist used
  obtain ⟨ids, minors⟩ := sound.others ddev
  have zero : cache.devices.toNat % 2 ^ 32 = 0 ↔ cache.devices = 0 := by
    rw [Nat.mod_eq_of_lt cache.devices.isLt, ← BitVec.toNat_inj]
    rfl
  unfold NumberFits ReleasedWithLast CacheModule.RemovesLast
  rw [zero]
  by_cases last : cache.devices = 0
  · have next : cache.apply (.remove ddev) =
        ⟨false, none, cache.devices - 1, cache.others ddev⟩ := by
      unfold CacheModule.apply dflCxlCacheRemove
      simp only [if_pos last]
    rw [next]
    constructor
    · rintro ⟨-, released, -⟩
      exact iff_of_true last (released.mp ⟨isClass, rfl⟩)
    · intro fits
      have alone := fits.mp last
      refine ⟨⟨ids, minors, fun others => absurd alone others⟩, ?_, ?_⟩
      · exact iff_of_true ⟨isClass, rfl⟩ alone
      · exact iff_of_true ⟨isRegion, rfl⟩ alone
  · have next : cache.apply (.remove ddev) =
        ⟨cache.cacheClass, cache.major, cache.devices - 1,
          cache.others ddev⟩ := by
      unfold CacheModule.apply dflCxlCacheRemove
      simp only [if_neg last]
    rw [next]
    constructor
    · rintro ⟨-, released, -⟩
      refine iff_of_false last ?_
      intro alone
      have gone := (released.mpr alone).2
      rw [isClass] at gone
      cases gone
    · intro fits
      have more : cache.others ddev ≠ [] := fun alone => last (fits.mpr alone)
      refine ⟨⟨ids, minors, fun _ => ⟨isClass, isRegion⟩⟩, ?_, ?_⟩
      · refine iff_of_false ?_ more
        rintro ⟨-, gone⟩
        rw [isClass] at gone
        cases gone
      · refine iff_of_false ?_ more
        rintro ⟨-, gone⟩
        rw [isRegion] at gone
        cases gone

/--
Along every sequence of probes and removals: bound devices have their own
numbers and minors, the class and the region are there for them, and are
released exactly with the last device, if and only if at every step the number
fits which comes of the devices bound and the numbers lost so far.
-/
theorem numbers_sound_iff (path : List (CacheModuleOp × CacheModule))
    (isPath : IsPath CacheModule.Step cacheModuleInit path) :
    (Throughout NumbersSound cacheModuleInit path ∧
        StepsMeet ReleasedWithLast cacheModuleInit path) ↔
      StepsMeetCounting LosesNumber
        (fun lost cache => NumberFits (cache.bound.length + lost) cache)
        0 cacheModuleInit path := by
  have preserved : ∀ cache op next, (∃ lost, Numbered lost cache) →
      CacheModule.Step cache op next → ∃ lost, Numbered lost next :=
    fun _ _ _ => numbered_step
  have exactly : ∀ cache op next, (∃ lost, Numbered lost cache) →
      NumbersSound cache → CacheModule.Step cache op next →
        (NumbersSound next ∧ ReleasedWithLast cache op ↔
          NumberFits cache.devices.toNat cache op) := by
    rintro cache op _ ⟨lost, numbered⟩ sound ⟨enabled, rfl⟩
    cases op with
    | probe ddev answers =>
        exact probe_sound_iff numbered sound ddev answers
    | remove ddev =>
        exact remove_sound_iff sound (of_decide_eq_true enabled)
  have initial : NumbersSound cacheModuleInit :=
    ⟨List.nodup_nil, List.nodup_nil, fun used => absurd rfl used⟩
  rw [throughout_and_stepsMeet_iff (fun cache => ∃ lost, Numbered lost cache)
    preserved exactly isPath ⟨0, numbered_init⟩ initial]
  exact stepsMeet_iff_stepsMeetCounting Numbered
    (fun _ _ _ _ numbered step => numbered.loses step)
    (fun _ _ _ _ numbered step => numbered.keeps step)
    (fun _ _ op numbered => numberFits_congr numbered op)
    isPath numbered_init

theorem CacheModule.step_apply {cache : CacheModule} {op : CacheModuleOp}
    (enabled : cache.enabled op = true) : cache.Step op (cache.apply op) :=
  ⟨enabled, rfl⟩

/-- A probe which meets no error. -/
def succeedingProbe : ProbeAnswers := ⟨none, .ok 240, none, true, none, none⟩

/-- Two devices are probed, and one of them is removed. -/
def oneOfTwoRemoved : List CacheModuleOp :=
  [.probe 5 succeedingProbe, .probe 6 succeedingProbe, .remove 5]

/-- The device which stays has its number, its class and its region. -/
theorem one_of_two_removed :
    Throughout NumbersSound cacheModuleInit
      (pathOf CacheModule.apply cacheModuleInit oneOfTwoRemoved) := by
  refine ((numbers_sound_iff _ ?_).mpr ?_).1
  · apply isPath_of_enabledAlong fun _ _ => CacheModule.step_apply
    decide
  · have first : NumberFits 0 cacheModuleInit (.probe 5 succeedingProbe) :=
      fun _ _ dev member => absurd member List.not_mem_nil
    have second : NumberFits 1
        (cacheModuleInit.apply (.probe 5 succeedingProbe))
        (.probe 6 succeedingProbe) := by
      intro _ _ dev member
      rw [List.mem_singleton.mp member]
      decide
    have third : NumberFits 2
        ((cacheModuleInit.apply (.probe 5 succeedingProbe)).apply
          (.probe 6 succeedingProbe)) (.remove 5) :=
      iff_of_false (by decide) (by decide)
    exact ⟨first, nofun, fun _ =>
      ⟨second, nofun, fun _ => ⟨third, nofun, fun _ => trivial⟩⟩⟩

/-- The class is not released with the only device. -/
theorem last_removal_releases_nothing :
    ∃ path, IsPath CacheModule.Step cacheModuleInit path ∧
      ¬ StepsMeet ReleasedWithLast cacheModuleInit path := by
  refine ⟨pathOf CacheModule.apply cacheModuleInit
    [.probe 5 succeedingProbe, .remove 5], ?_, ?_⟩
  · apply isPath_of_enabledAlong fun _ _ => CacheModule.step_apply
    decide
  · rintro ⟨-, ⟨released, -⟩, -⟩
    exact absurd (released.mpr rfl).2 (by decide)

end LinuxDfl.Cxl.Numbering

import LinuxDfl.Kernel.Errno
import LinuxDfl.Lib.Answers
import LinuxDfl.Lib.ByteStore
import LinuxDfl.Lib.Transition
import Mathlib.Logic.Function.Basic

/-!
# Register maps over memory

The bus which a register map uses for registers in the memory of a device.
When the context is made, the accessors are chosen by the width and the byte
order of the values, and the clock of the device is prepared.
-/

namespace LinuxDfl.Mmio

open LinuxDfl.Kernel
open LinuxDfl.Lib.Answers
open LinuxDfl.Lib.ByteStore
open LinuxDfl.Lib.LittleEndian
open LinuxDfl.Lib.Transition

/-! ## Accessors -/

/-- What is known when the bus is built. -/
structure Machine where
  /-- `CONFIG_64BIT` -/
  config64Bit : Bool
  /-- `__BIG_ENDIAN` instead of `__LITTLE_ENDIAN` -/
  bigEndian : Bool

/-- `enum regmap_endian` -/
inductive RegmapEndian where
  | default
  | big
  | little
  | native
  deriving DecidableEq, Repr

/-- `struct regmap_config` -/
structure RegmapConfig where
  regBits : Nat
  padBits : Nat
  valBits : Nat
  regStride : Int
  /-- What `regmap_get_val_endian` makes of it. -/
  valEndian : RegmapEndian

/-- A clock pointer, which may be an error or null. -/
inductive Clk where
  | err
  | null
  | clk (id : Nat)
  deriving DecidableEq, Repr

/-- A value as so many bytes in memory. -/
def bytesOf (count : Nat) (big : Bool) (val : BitVec 32) : List Byte :=
  if big then (toBytes count val.toNat).reverse else toBytes count val.toNat

/-- The value of some bytes, as an `unsigned int`. -/
def valueOf (big : Bool) (bytes : List Byte) : BitVec 32 :=
  BitVec.ofNat 32 (ofBytes (if big then bytes.reverse else bytes))

/-- A write of so many bytes, in one of the byte orders. -/
def writeIo (count : Nat) (big : Bool) (regs : Nat) (reg val : BitVec 32)
    (storage : Storage) : Storage :=
  store storage (regs + reg.toNat) (bytesOf count big val)

/-- A read of so many bytes, in one of the byte orders. -/
def readIo (count : Nat) (big : Bool) (regs : Nat) (reg : BitVec 32)
    (storage : Storage) : BitVec 32 :=
  valueOf big (load storage (regs + reg.toNat) count)

/-- `regmap_mmio_write8` -/
def regmapMmioWrite8 := writeIo 1 false
/-- `regmap_mmio_write16le` -/
def regmapMmioWrite16le := writeIo 2 false
/-- `regmap_mmio_write16be` -/
def regmapMmioWrite16be := writeIo 2 true
/-- `regmap_mmio_write32le` -/
def regmapMmioWrite32le := writeIo 4 false
/-- `regmap_mmio_write32be` -/
def regmapMmioWrite32be := writeIo 4 true
/-- `regmap_mmio_write64le` -/
def regmapMmioWrite64le := writeIo 8 false

/-- `regmap_mmio_read8` -/
def regmapMmioRead8 := readIo 1 false
/-- `regmap_mmio_read16le` -/
def regmapMmioRead16le := readIo 2 false
/-- `regmap_mmio_read16be` -/
def regmapMmioRead16be := readIo 2 true
/-- `regmap_mmio_read32le` -/
def regmapMmioRead32le := readIo 4 false
/-- `regmap_mmio_read32be` -/
def regmapMmioRead32be := readIo 4 true
/-- `regmap_mmio_read64le` -/
def regmapMmioRead64le := readIo 8 false

/-- `struct regmap_mmio_context` -/
structure RegmapMmioContext where
  regs : Nat
  valBytes : Nat
  attachedClk : Bool
  clk : Clk
  regWrite : Nat → BitVec 32 → BitVec 32 → Storage → Storage
  regRead : Nat → BitVec 32 → Storage → BitVec 32

/-! ## Accesses -/

/-- `clk_enable`, which has nothing to do for a null pointer -/
def clkEnable (clk : Clk) (answer : Option Errno) : Option Errno :=
  if clk = .null then none else answer

/-- `regmap_mmio_write`, given what the clock answers -/
def regmapMmioWrite (ctx : RegmapMmioContext) (answer : Option Errno)
    (reg val : BitVec 32) (storage : Storage) : Option Errno × Storage :=
  match if ctx.clk ≠ .err then clkEnable ctx.clk answer else none with
  | some ret => (some ret, storage)
  | none => (none, ctx.regWrite ctx.regs reg val storage)

/-- `regmap_mmio_read`, given what the clock answers -/
def regmapMmioRead (ctx : RegmapMmioContext) (answer : Option Errno)
    (reg : BitVec 32) (storage : Storage) : Except Errno (BitVec 32) :=
  match if ctx.clk ≠ .err then clkEnable ctx.clk answer else none with
  | some ret => .error ret
  | none => .ok (ctx.regRead ctx.regs reg storage)

/-! ## Clocks -/

/-- How often clocks have been got and prepared. -/
structure Clocks where
  gets : Nat → Int
  prepares : Nat → Int

/-- `clk_get` and `clk_put`, of a clock -/
def Clocks.get (clocks : Clocks) (id : Nat) (change : Int) : Clocks :=
  { clocks with
    gets := Function.update clocks.gets id (clocks.gets id + change) }

/-- `clk_prepare` and `clk_unprepare`, of a clock -/
def Clocks.prepare (clocks : Clocks) (id : Nat) (change : Int) : Clocks :=
  { clocks with
    prepares := Function.update clocks.prepares id
      (clocks.prepares id + change) }

/-- `clk_put` -/
def Clocks.clkPut (clocks : Clocks) : Clk → Clocks
  | .clk id => clocks.get id (-1)
  | .err | .null => clocks

/-- `clk_unprepare` -/
def Clocks.clkUnprepare (clocks : Clocks) : Clk → Clocks
  | .clk id => clocks.prepare id (-1)
  | .err | .null => clocks

/-- `clk_prepare`, and what it returns -/
def Clocks.clkPrepare (clocks : Clocks) (id : Nat) :
    Option Errno → Option Errno × Clocks
  | none => (none, clocks.prepare id 1)
  | some ret => (some ret, clocks)

/-! ## The context -/

/-- `regmap_mmio_regbits_check` -/
def regmapMmioRegbitsCheck (machine : Machine) (regBits : Nat) :
    Option Errno :=
  if regBits = 8 ∨ regBits = 16 ∨ regBits = 32 then none
  else if regBits = 64 ∧ machine.config64Bit = true then none
  else some .einval

/-- `regmap_mmio_get_min_stride` -/
def regmapMmioGetMinStride (machine : Machine) (valBits : Nat) :
    Except Errno Int :=
  if valBits = 8 then .ok 0
  else if valBits = 16 then .ok 2
  else if valBits = 32 then .ok 4
  else if valBits = 64 ∧ machine.config64Bit = true then .ok 8
  else .error .einval

/-- The byte order of the values, if the bus can have it. -/
def bigValues (machine : Machine) : RegmapEndian → Bool
  | .default | .little => false
  | .big => true
  | .native => machine.bigEndian

/-- The accessors for the width and the byte order. -/
def accessors (machine : Machine) (config : RegmapConfig) :
    Option ((Nat → BitVec 32 → BitVec 32 → Storage → Storage) ×
      (Nat → BitVec 32 → Storage → BitVec 32)) :=
  if bigValues machine config.valEndian then
    if config.valBits = 8 then some (regmapMmioWrite8, regmapMmioRead8)
    else if config.valBits = 16 then
      some (regmapMmioWrite16be, regmapMmioRead16be)
    else if config.valBits = 32 then
      some (regmapMmioWrite32be, regmapMmioRead32be)
    else none
  else
    if config.valBits = 8 then some (regmapMmioWrite8, regmapMmioRead8)
    else if config.valBits = 16 then
      some (regmapMmioWrite16le, regmapMmioRead16le)
    else if config.valBits = 32 then
      some (regmapMmioWrite32le, regmapMmioRead32le)
    else if config.valBits = 64 ∧ machine.config64Bit = true then
      some (regmapMmioWrite64le, regmapMmioRead64le)
    else none

/--
How getting and preparing the clock of an id ends.  Where there is no
framework for clocks, `clk_get` gives a null pointer.
-/
structure ClkAnswers where
  get : Except Errno (Option Nat)
  prepare : Option Errno

/-- The checks of `regmap_mmio_gen_context`, up to the allocation -/
def regmapMmioCheck (machine : Machine) (config : RegmapConfig) :
    Option Errno :=
  match regmapMmioRegbitsCheck machine config.regBits with
  | some ret => some ret
  | none =>
      if config.padBits ≠ 0 then some .einval
      else
        match regmapMmioGetMinStride machine config.valBits with
        | .error ret => some ret
        | .ok minStride =>
            if config.regStride < minStride then some .einval else none

/-- `regmap_mmio_gen_context`; there may be no `clk_id`, and no memory. -/
def regmapMmioGenContext (machine : Machine) (clkId : Option ClkAnswers)
    (memory : Bool) (regs : Nat) (config : RegmapConfig) (clocks : Clocks) :
    Except Errno RegmapMmioContext × Clocks :=
  match regmapMmioCheck machine config with
  | some ret => (.error ret, clocks)
  | none =>
      if memory = false then (.error .enomem, clocks)
      else
        match accessors machine config with
        | none => (.error .einval, clocks)
        | some (regWrite, regRead) =>
            let ctx : RegmapMmioContext :=
              { regs, valBytes := config.valBits / 8, attachedClk := false
                clk := .err, regWrite, regRead }
            match clkId with
            | none => (.ok ctx, clocks)
            | some answers =>
                match answers.get with
                | .error ret => (.error ret, clocks)
                | .ok none => (.ok { ctx with clk := .null }, clocks)
                | .ok (some id) =>
                    match (clocks.get id 1).clkPrepare id answers.prepare with
                    | (some ret, clocks) =>
                        (.error ret, clocks.clkPut (.clk id))
                    | (none, clocks) =>
                        (.ok { ctx with clk := .clk id }, clocks)

/-- A clock has been got for the context. -/
def hasClk : Option ClkAnswers → Bool
  | some answers => answers.get.toOption.join.isSome
  | none => false

/-! ## A register file -/

/-- What of an `unsigned int` a register keeps. -/
def keptBits (valBits : Nat) (val : BitVec 32) : BitVec 32 :=
  BitVec.ofNat 32 (val.toNat % 2 ^ valBits)

/-- `reg_stride`, where the core takes one for zero -/
def RegmapConfig.stride (config : RegmapConfig) : Nat :=
  if config.regStride = 0 then 1 else config.regStride.toNat

/-- What the core asks of the bus, and what the clock would answer. -/
inductive Access where
  | read (reg : BitVec 32) (answer : Option Errno)
  | write (reg val : BitVec 32) (answer : Option Errno)

def Access.reg : Access → BitVec 32
  | .read reg _ | .write reg _ _ => reg

/-- One access: the value of a read or nothing, and the memory. -/
def RegmapMmioContext.access (ctx : RegmapMmioContext) (storage : Storage) :
    Access → Except Errno (Option (BitVec 32)) × Storage
  | .read reg answer =>
      ((regmapMmioRead ctx answer reg storage).map some, storage)
  | .write reg val answer =>
      match regmapMmioWrite ctx answer reg val storage with
      | (some ret, storage) => (.error ret, storage)
      | (none, storage) => (.ok none, storage)

/-- The registers, each of which has a value of its own. -/
abbrev RegFile := BitVec 32 → BitVec 32

/--
One access to the registers.  It fails only for a clock which cannot be
enabled; a write keeps what fits the register.
-/
def plainAccess (valBits : Nat) (clocked : Bool) (file : RegFile) :
    Access → Except Errno (Option (BitVec 32)) × RegFile
  | .read reg answer =>
      match if clocked then answer else none with
      | some ret => (.error ret, file)
      | none => (.ok (some (file reg)), file)
  | .write reg val answer =>
      match if clocked then answer else none with
      | some ret => (.error ret, file)
      | none => (.ok none, Function.update file reg (keptBits valBits val))

/-! ## One register -/

theorem valueOf_bytesOf (count : Nat) (big : Bool) (val : BitVec 32) :
    valueOf big (bytesOf count big val) = keptBits (8 * count) val := by
  have power : (256 : Nat) ^ count = 2 ^ (8 * count) := by
    rw [Nat.pow_mul]
  cases big with
  | true =>
      simp only [valueOf, bytesOf, if_true, List.reverse_reverse,
        ofBytes_toBytes, power, keptBits]
  | false =>
      simp only [valueOf, bytesOf, Bool.false_eq_true, if_false,
        ofBytes_toBytes, power, keptBits]

@[simp]
theorem length_bytesOf (count : Nat) (big : Bool) (val : BitVec 32) :
    (bytesOf count big val).length = count := by
  cases big <;> simp [bytesOf]

/-- What is written to a register is read from it. -/
theorem readIo_writeIo_self (count : Nat) (big : Bool) (regs : Nat)
    (reg val : BitVec 32) (storage : Storage) :
    readIo count big regs reg (writeIo count big regs reg val storage) =
      keptBits (8 * count) val := by
  have loaded := (holds_store storage (regs + reg.toNat)
    (bytesOf count big val)).load_eq
  rw [length_bytesOf] at loaded
  rw [readIo, writeIo, loaded, valueOf_bytesOf]

/-- Registers at different multiples of a stride do not overlap. -/
theorem apart_of_dvd {stride first second : Nat} (dvdFirst : stride ∣ first)
    (dvdSecond : stride ∣ second) (distinct : first ≠ second) :
    first + stride ≤ second ∨ second + stride ≤ first := by
  obtain ⟨front, rfl⟩ := dvdFirst
  obtain ⟨back, rfl⟩ := dvdSecond
  rcases Nat.lt_trichotomy front back with below | rfl | above
  · exact .inl (Nat.mul_le_mul_left stride below)
  · exact absurd rfl distinct
  · exact .inr (Nat.mul_le_mul_left stride above)

/-- A write to one register is not seen in another one. -/
theorem readIo_writeIo_other {count stride : Nat} (fits : count ≤ stride)
    (big : Bool) (regs : Nat) {reg other : BitVec 32} (val : BitVec 32)
    (storage : Storage) (aligned : stride ∣ reg.toNat)
    (otherAligned : stride ∣ other.toNat) (distinct : other ≠ reg) :
    readIo count big regs other (writeIo count big regs reg val storage) =
      readIo count big regs other storage := by
  have apart := apart_of_dvd aligned otherAligned
    fun same => distinct (BitVec.eq_of_toNat_eq same.symm)
  rw [readIo, writeIo, readIo, load_store_of_apart]
  rw [length_bytesOf]
  omega

/-! ## The context is fit for its registers -/

/-- The accessors of a context, and how they fit the stride. -/
structure Fits (config : RegmapConfig) (clocked : Bool)
    (ctx : RegmapMmioContext) (count : Nat) (big : Bool) : Prop where
  regWrite : ctx.regWrite = writeIo count big
  regRead : ctx.regRead = readIo count big
  width : config.valBits = 8 * count
  stride : count ≤ config.stride
  clk : if clocked then ∃ id, ctx.clk = .clk id
    else ctx.clk = .err ∨ ctx.clk = .null

theorem minStride_of_check {machine : Machine} {config : RegmapConfig}
    (passes : regmapMmioCheck machine config = none) :
    ∃ minStride, regmapMmioGetMinStride machine config.valBits =
      .ok minStride ∧ minStride ≤ config.regStride := by
  unfold regmapMmioCheck at passes
  cases bits : regmapMmioRegbitsCheck machine config.regBits with
  | some ret =>
      rw [bits] at passes
      cases passes
  | none =>
      rw [bits] at passes
      dsimp only at passes
      split_ifs at passes with padded
      cases least : regmapMmioGetMinStride machine config.valBits with
      | error ret =>
          rw [least] at passes
          cases passes
      | ok minStride =>
          rw [least] at passes
          dsimp only at passes
          split_ifs at passes with short
          exact ⟨minStride, rfl, not_lt.mp short⟩

theorem minStride_nonneg {machine : Machine} {valBits : Nat}
    {minStride : Int}
    (found : regmapMmioGetMinStride machine valBits = .ok minStride) :
    0 ≤ minStride := by
  unfold regmapMmioGetMinStride at found
  split_ifs at found <;> cases found <;> decide

/-- The accessors are for as many bytes as the values have. -/
theorem accessors_eq_some {machine : Machine} {config : RegmapConfig}
    {regWrite : Nat → BitVec 32 → BitVec 32 → Storage → Storage}
    {regRead : Nat → BitVec 32 → Storage → BitVec 32}
    (chosen : accessors machine config = some (regWrite, regRead)) :
    ∃ count big, regWrite = writeIo count big ∧ regRead = readIo count big ∧
      config.valBits = 8 * count ∧
      (count = 1 ∨ ∀ minStride,
        regmapMmioGetMinStride machine config.valBits = .ok minStride →
          minStride = count) := by
  unfold accessors at chosen
  have least : ∀ count : Nat, count ≠ 1 → config.valBits = 8 * count →
      ∀ minStride,
        regmapMmioGetMinStride machine config.valBits = .ok minStride →
          minStride = count := by
    intro count several bits minStride found
    unfold regmapMmioGetMinStride at found
    rw [bits] at found
    split_ifs at found with one two four eight
    · omega
    · cases found
      omega
    · cases found
      omega
    · cases found
      omega
  split_ifs at chosen with isBig one two four isOne isTwo isFour isEight
  · cases chosen
    exact ⟨1, false, rfl, rfl, one, .inl rfl⟩
  · cases chosen
    exact ⟨2, true, rfl, rfl, two, .inr (least 2 (by decide) two)⟩
  · cases chosen
    exact ⟨4, true, rfl, rfl, four, .inr (least 4 (by decide) four)⟩
  · cases chosen
    exact ⟨1, false, rfl, rfl, isOne, .inl rfl⟩
  · cases chosen
    exact ⟨2, false, rfl, rfl, isTwo, .inr (least 2 (by decide) isTwo)⟩
  · cases chosen
    exact ⟨4, false, rfl, rfl, isFour, .inr (least 4 (by decide) isFour)⟩
  · cases chosen
    exact ⟨8, false, rfl, rfl, isEight.1,
      .inr (least 8 (by decide) isEight.1)⟩

/-- How a context comes to be made. -/
theorem genContext_eq_ok {machine : Machine} {clkId : Option ClkAnswers}
    {memory : Bool} {regs : Nat} {config : RegmapConfig} {clocks : Clocks}
    {ctx : RegmapMmioContext}
    (made : (regmapMmioGenContext machine clkId memory regs config clocks).1 =
      .ok ctx) :
    ∃ regWrite regRead, regmapMmioCheck machine config = none ∧
      accessors machine config = some (regWrite, regRead) ∧
      ((hasClk clkId = false ∧ ∃ clk, (clk = .err ∨ clk = .null) ∧
        regmapMmioGenContext machine clkId memory regs config clocks =
          (.ok ⟨regs, config.valBits / 8, false, clk, regWrite, regRead⟩,
            clocks)) ∨
      ∃ id, hasClk clkId = true ∧
        regmapMmioGenContext machine clkId memory regs config clocks =
          (.ok ⟨regs, config.valBits / 8, false, .clk id, regWrite, regRead⟩,
            (clocks.get id 1).prepare id 1)) := by
  unfold regmapMmioGenContext at made ⊢
  cases check : regmapMmioCheck machine config with
  | some ret =>
      rw [check] at made
      cases made
  | none =>
      rw [check] at made
      dsimp only at made ⊢
      split_ifs at made with noMemory
      rw [if_neg noMemory]
      cases chosen : accessors machine config with
      | none =>
          rw [chosen] at made
          cases made
      | some pair =>
          obtain ⟨regWrite, regRead⟩ := pair
          rw [chosen] at made
          refine ⟨regWrite, regRead, rfl, rfl, ?_⟩
          cases clkId with
          | none => exact .inl ⟨rfl, .err, .inl rfl, rfl⟩
          | some answers =>
              dsimp only at made ⊢
              rw [hasClk]
              rcases got : answers.get with ret | _ | id
              · rw [got] at made
                cases made
              · exact .inl ⟨rfl, .null, .inr rfl, rfl⟩
              · rw [got] at made
                dsimp only at made ⊢
                cases prepared : answers.prepare with
                | some ret =>
                    rw [prepared] at made
                    cases made
                | none => exact .inr ⟨id, rfl, rfl⟩

theorem fits_of_genContext {machine : Machine} {clkId : Option ClkAnswers}
    {memory : Bool} {regs : Nat} {config : RegmapConfig} {clocks : Clocks}
    {ctx : RegmapMmioContext}
    (made : (regmapMmioGenContext machine clkId memory regs config clocks).1 =
      .ok ctx) :
    ∃ count big, Fits config (hasClk clkId) ctx count big := by
  obtain ⟨regWrite, regRead, check, chosen, rest⟩ := genContext_eq_ok made
  obtain ⟨count, big, isWrite, isRead, width, least⟩ :=
    accessors_eq_some chosen
  obtain ⟨minStride, found, atLeast⟩ := minStride_of_check check
  have stride : count ≤ config.stride := by
    have positive := minStride_nonneg found
    unfold RegmapConfig.stride
    rcases least with rfl | same
    · split_ifs with isZero <;> omega
    · have isLeast := same minStride found
      split_ifs with isZero <;> omega
  refine ⟨count, big, ?_⟩
  rcases rest with ⟨clocked, clk, isClk, same⟩ | ⟨id, clocked, same⟩
  · rw [same] at made
    cases made
    rw [clocked]
    exact ⟨isWrite, isRead, width, stride, isClk⟩
  · rw [same] at made
    cases made
    rw [clocked]
    exact ⟨isWrite, isRead, width, stride, id, rfl⟩

/-! ## All accesses -/

/-- Aligned registers of a context have the values of the file. -/
def Shows (config : RegmapConfig) (ctx : RegmapMmioContext)
    (storage : Storage) (file : RegFile) : Prop :=
  ∀ reg : BitVec 32, config.stride ∣ reg.toNat →
    ctx.regRead ctx.regs reg storage = file reg

theorem refusal_eq {config : RegmapConfig} {clocked : Bool}
    {ctx : RegmapMmioContext} {count : Nat} {big : Bool}
    (fits : Fits config clocked ctx count big) (answer : Option Errno) :
    (if ctx.clk ≠ .err then clkEnable ctx.clk answer else none) =
      if clocked then answer else none := by
  have clk := fits.clk
  cases clocked with
  | true =>
      obtain ⟨id, isClk⟩ := clk
      rw [isClk]
      rfl
  | false =>
      rcases clk with isErr | isNull
      · rw [isErr]
        rfl
      · rw [isNull]
        rfl

theorem access_agree {config : RegmapConfig} {clocked : Bool}
    {ctx : RegmapMmioContext} {count : Nat} {big : Bool}
    (fits : Fits config clocked ctx count big) {access : Access}
    (aligned : config.stride ∣ access.reg.toNat) :
    Agree ctx.access (plainAccess config.valBits clocked)
      (Shows config ctx) access := by
  intro storage file shows
  cases access with
  | read reg answer =>
      simp only [RegmapMmioContext.access, regmapMmioRead, plainAccess,
        refusal_eq fits]
      cases (if clocked = true then answer else none) with
      | some ret => exact ⟨rfl, shows⟩
      | none =>
          refine ⟨?_, shows⟩
          rw [← shows reg aligned]
          rfl
  | write reg val answer =>
      simp only [RegmapMmioContext.access, regmapMmioWrite, plainAccess,
        refusal_eq fits]
      cases (if clocked = true then answer else none) with
      | some ret => exact ⟨rfl, shows⟩
      | none =>
          refine ⟨rfl, fun other otherAligned => ?_⟩
          have before := shows other otherAligned
          dsimp only
          rw [fits.regRead] at before ⊢
          rw [fits.regWrite]
          by_cases same : other = reg
          · subst same
            rw [readIo_writeIo_self, Function.update_self, fits.width]
          · have onStride : config.stride ∣ reg.toNat := aligned
            rw [Function.update_of_ne same,
              readIo_writeIo_other fits.stride big ctx.regs val storage
                onStride otherAligned same]
            exact before

/-- The memory after some accesses -/
def memoryAfter (ctx : RegmapMmioContext) (storage : Storage)
    (accesses : List Access) : Storage :=
  accesses.foldl (fun storage access => (ctx.access storage access).2) storage

/-- The position is in no register which is written. -/
def Outside (config : RegmapConfig) (regs : Nat) (accesses : List Access)
    (position : Nat) : Prop :=
  ∀ reg val answer, .write reg val answer ∈ accesses →
    position < regs + reg.toNat ∨
      regs + reg.toNat + config.valBits / 8 ≤ position

theorem access_outside {config : RegmapConfig} {clocked : Bool}
    {ctx : RegmapMmioContext} {count : Nat} {big : Bool}
    (fits : Fits config clocked ctx count big) (access : Access)
    (storage : Storage) {position : Nat}
    (outside : ∀ reg val answer, access = .write reg val answer →
      position < ctx.regs + reg.toNat ∨
        ctx.regs + reg.toNat + config.valBits / 8 ≤ position) :
    (ctx.access storage access).2 position = storage position := by
  cases access with
  | read reg answer => rfl
  | write reg val answer =>
      simp only [RegmapMmioContext.access, regmapMmioWrite, refusal_eq fits]
      cases (if clocked = true then answer else none) with
      | some ret => rfl
      | none =>
          have apart := outside reg val answer rfl
          rw [fits.width, Nat.mul_div_cancel_left count (by decide)] at apart
          dsimp only
          rw [fits.regWrite, writeIo, store, length_bytesOf]
          exact if_neg (by omega)

theorem memoryAfter_outside {config : RegmapConfig} {clocked : Bool}
    {ctx : RegmapMmioContext} {count : Nat} {big : Bool}
    (fits : Fits config clocked ctx count big) {accesses : List Access}
    {position : Nat} (outside : Outside config ctx.regs accesses position)
    (storage : Storage) :
    memoryAfter ctx storage accesses position = storage position := by
  induction accesses generalizing storage with
  | nil => rfl
  | cons access rest ih =>
      have first := access_outside fits access storage
        fun reg val answer same =>
          outside reg val answer (same ▸ List.mem_cons_self)
      have later := ih (fun reg val answer member =>
        outside reg val answer (List.mem_cons_of_mem access member))
        (ctx.access storage access).2
      exact later.trans first

/--
Whatever the width and the byte order of the values, a context which could be
made accesses a register file: reads give back what was written, as far as it
fits, no register is changed by a write to another one, and an access fails
only if there is a clock which cannot be enabled.  No other memory is changed.
-/
theorem mmio_isRegFile {machine : Machine} {clkId : Option ClkAnswers}
    {memory : Bool} {regs : Nat} {config : RegmapConfig} {clocks : Clocks}
    {ctx : RegmapMmioContext}
    (made : (regmapMmioGenContext machine clkId memory regs config clocks).1 =
      .ok ctx)
    (accesses : List Access)
    (aligned : ∀ access ∈ accesses, config.stride ∣ access.reg.toNat)
    (storage : Storage) :
    answers ctx.access storage accesses =
        answers (plainAccess config.valBits (hasClk clkId))
          (fun reg => ctx.regRead ctx.regs reg storage) accesses ∧
      ∀ position, Outside config ctx.regs accesses position →
        memoryAfter ctx storage accesses position = storage position := by
  obtain ⟨count, big, fits⟩ := fits_of_genContext made
  constructor
  · have agree : ∀ access ∈ accesses, Agree ctx.access
        (plainAccess config.valBits (hasClk clkId)) (Shows config ctx) access :=
      fun access member => access_agree fits (aligned access member)
    exact answers_eq agree fun reg _ => rfl
  · exact fun position outside => memoryAfter_outside fits outside storage

/-- Registers of 16 bits, the high byte first -/
def sixteenBits : RegmapConfig := ⟨8, 0, 16, 2, .big⟩

def sixteenBitsCtx : RegmapMmioContext :=
  ⟨0, 2, false, .err, regmapMmioWrite16be, regmapMmioRead16be⟩

/-- Two neighbours are written, the first with more than fits. -/
def neighbours : List Access :=
  [.write 2 0x12345 none, .write 4 7 none, .read 2 none]

theorem mmio_sixteenBits :
    answers sixteenBitsCtx.access (fun _ => 0) neighbours =
      [.ok none, .ok none, .ok (some 0x2345)] := by
  have made : (regmapMmioGenContext ⟨true, false⟩ none true 0 sixteenBits
      ⟨fun _ => 0, fun _ => 0⟩).1 = .ok sixteenBitsCtx := rfl
  have aligned : ∀ access ∈ neighbours,
      sixteenBits.stride ∣ access.reg.toNat := by decide
  rw [(mmio_isRegFile made neighbours aligned (fun _ => 0)).1]
  rfl

/-! ## The clock of a context -/

/-- A register map with its context, and the clocks. -/
structure ClkMap where
  ctx : RegmapMmioContext
  freed : Bool
  clocks : Clocks

/-- What becomes of the clock of a register map. -/
inductive ClkAct where
  /-- `regmap_mmio_attach_clk`, and what preparing the clock returns -/
  | attachClk (id : Nat) (answer : Option Errno)
  /-- `regmap_mmio_detach_clk` -/
  | detachClk
  /-- `regmap_mmio_free_context` -/
  | freeContext
  deriving DecidableEq

/-- `regmap_mmio_attach_clk` -/
def regmapMmioAttachClk (map : ClkMap) (id : Nat) (answer : Option Errno) :
    Option Errno × ClkMap :=
  let prepared := map.clocks.clkPrepare id answer
  (prepared.1, { map with
    ctx := { map.ctx with clk := .clk id, attachedClk := true }
    clocks := prepared.2 })

/-- `regmap_mmio_detach_clk` -/
def regmapMmioDetachClk (map : ClkMap) : ClkMap :=
  { map with
    ctx := { map.ctx with clk := .null, attachedClk := false }
    clocks := map.clocks.clkUnprepare map.ctx.clk }

/-- `regmap_mmio_free_context` -/
def regmapMmioFreeContext (map : ClkMap) : ClkMap :=
  if map.ctx.clk ≠ .err then
    let clocks := map.clocks.clkUnprepare map.ctx.clk
    { map with
      freed := true
      clocks :=
        if map.ctx.attachedClk = false then clocks.clkPut map.ctx.clk
        else clocks }
  else { map with freed := true }

/-- An act, on a map which has not been freed. -/
def ClkMap.perform (map : ClkMap) : ClkAct → Option ClkMap
  | .attachClk id answer =>
      if map.freed then none else some (regmapMmioAttachClk map id answer).2
  | .detachClk => if map.freed then none else some (regmapMmioDetachClk map)
  | .freeContext =>
      if map.freed then none else some (regmapMmioFreeContext map)

/-- The clock which the map has. -/
def ClkMap.clk (map : ClkMap) : Clk :=
  if map.freed then .err else map.ctx.clk

/-- The clock which the map has got itself. -/
def ClkMap.ownClk (map : ClkMap) : Clk :=
  if map.ctx.attachedClk then .err else map.clk

/--
The clock of the map is prepared once more than before, and so it is got
unless it has been attached; every other clock is as it was.
-/
structure Balanced (before : Clocks) (map : ClkMap) : Prop where
  prepares : ∀ id, map.clocks.prepares id =
    before.prepares id + if map.clk = .clk id then 1 else 0
  gets : ∀ id, map.clocks.gets id =
    before.gets id + if map.ownClk = .clk id then 1 else 0

/--
A clock is attached where there is none, and can be prepared; only a clock
which has been attached is detached.  To attach the same clock once more does
no harm when it cannot be prepared.
-/
def Careful (map : ClkMap) : ClkAct → Prop
  | .attachClk id answer =>
      (map.ctx.clk = .err ∨ map.ctx.clk = .null) ∧ answer = none ∨
        (map.ctx.clk = .clk id ∧ map.ctx.attachedClk = true) ∧ answer ≠ none
  | .detachClk =>
      map.ctx.clk = .err ∨ map.ctx.clk = .null ∨ map.ctx.attachedClk = true
  | .freeContext => True

instance (map : ClkMap) : ∀ act, Decidable (Careful map act)
  | .attachClk _ _ => inferInstanceAs (Decidable (_ ∧ _ ∨ _ ∧ _))
  | .detachClk => inferInstanceAs (Decidable (_ ∨ _ ∨ _))
  | .freeContext => isTrue trivial

theorem prepares_prepare (clocks : Clocks) (id other : Nat) (change : Int) :
    (clocks.prepare id change).prepares other =
      clocks.prepares other + if id = other then change else 0 := by
  by_cases same : id = other
  · subst same
    rw [if_pos rfl]
    exact Function.update_self ..
  · rw [if_neg same, Int.add_zero]
    exact Function.update_of_ne (Ne.symm same) ..

theorem gets_get (clocks : Clocks) (id other : Nat) (change : Int) :
    (clocks.get id change).gets other =
      clocks.gets other + if id = other then change else 0 := by
  by_cases same : id = other
  · subst same
    rw [if_pos rfl]
    exact Function.update_self ..
  · rw [if_neg same, Int.add_zero]
    exact Function.update_of_ne (Ne.symm same) ..

@[simp]
theorem gets_clkUnprepare (clocks : Clocks) (clk : Clk) :
    (clocks.clkUnprepare clk).gets = clocks.gets := by
  cases clk <;> rfl

variable {before : Clocks} {map next : ClkMap}

/-- What a map which lives is balanced against. -/
theorem balanced_iff_held (lives : map.freed = false) :
    Balanced before map ↔
      (∀ id, map.clocks.prepares id =
        before.prepares id + if map.ctx.clk = .clk id then 1 else 0) ∧
      ∀ id, map.clocks.gets id = before.gets id +
        if map.ctx.attachedClk = false ∧ map.ctx.clk = .clk id then 1
        else 0 := by
  have own : ∀ id, (map.ownClk = .clk id) =
      (map.ctx.attachedClk = false ∧ map.ctx.clk = .clk id) := by
    intro id
    cases attached : map.ctx.attachedClk <;>
      simp [ClkMap.ownClk, ClkMap.clk, attached, lives]
  have clk : map.clk = map.ctx.clk := by
    rw [ClkMap.clk, lives]
    rfl
  constructor
  · rintro ⟨prepares, gets⟩
    exact ⟨by simpa only [clk] using prepares, by simpa only [own] using gets⟩
  · rintro ⟨prepares, gets⟩
    exact ⟨by simpa only [clk] using prepares, by simpa only [own] using gets⟩

/-- Attaching keeps the balance exactly when it is careful. -/
theorem balanced_attachClk {id : Nat} {answer : Option Errno}
    (balanced : Balanced before map) (lives : map.freed = false) :
    Balanced before (regmapMmioAttachClk map id answer).2 ↔
      Careful map (.attachClk id answer) := by
  rw [balanced_iff_held
    (show (regmapMmioAttachClk map id answer).2.freed = false from lives)]
  obtain ⟨prepares, gets⟩ := (balanced_iff_held lives).mp balanced
  simp only [regmapMmioAttachClk, Careful, Clk.clk.injEq, Bool.true_eq_false,
    false_and, if_false, Int.add_zero]
  constructor
  · rintro ⟨attached, got⟩
    cases isClk : map.ctx.clk with
    | err =>
        cases answer with
        | none => exact .inl ⟨.inl rfl, rfl⟩
        | some ret =>
            have one := attached id
            rw [Clocks.clkPrepare, prepares, isClk, if_pos rfl] at one
            simp at one
    | null =>
        cases answer with
        | none => exact .inl ⟨.inr rfl, rfl⟩
        | some ret =>
            have one := attached id
            rw [Clocks.clkPrepare, prepares, isClk, if_pos rfl] at one
            simp at one
    | clk had =>
        have one := attached had
        cases answer with
        | none =>
            simp only [Clocks.clkPrepare, prepares_prepare, prepares, isClk,
              if_true] at one
            omega
        | some ret =>
            simp only [Clocks.clkPrepare, prepares, isClk, if_true] at one
            have same : id = had := by
              by_contra distinct
              rw [if_neg distinct] at one
              omega
            subst same
            refine .inr ⟨⟨rfl, ?_⟩, by simp⟩
            by_contra notAttached
            have none := got id
            rw [Clocks.clkPrepare, gets, isClk,
              if_pos ⟨Bool.eq_false_of_not_eq_true notAttached, rfl⟩] at none
            omega
  · rintro (⟨isNone, rfl⟩ | ⟨⟨isClk, attached⟩, fails⟩)
    · have other : ∀ other, map.ctx.clk ≠ .clk other := by
        rcases isNone with isErr | isNull
        · simp [isErr]
        · simp [isNull]
      constructor
      · intro id
        rw [Clocks.clkPrepare, prepares_prepare, prepares,
          if_neg (other id), Int.add_zero]
      · intro id
        show map.clocks.gets id = _
        rw [gets, if_neg fun own => other id own.2, Int.add_zero]
    · obtain ⟨ret, rfl⟩ := Option.ne_none_iff_exists'.mp fails
      constructor
      · intro other
        rw [Clocks.clkPrepare, prepares, isClk]
        simp
      · intro other
        rw [Clocks.clkPrepare, gets, attached]
        simp

/-- The clock which is unprepared is the one which has been prepared. -/
theorem prepares_clkUnprepare {had : Nat} (balanced : Balanced before map)
    (lives : map.freed = false) (isClk : map.ctx.clk = .clk had) (id : Nat) :
    (map.clocks.clkUnprepare (.clk had)).prepares id = before.prepares id := by
  have prepares := ((balanced_iff_held lives).mp balanced).1 id
  rw [isClk] at prepares
  rw [Clocks.clkUnprepare, prepares_prepare, prepares]
  simp only [Clk.clk.injEq]
  split_ifs <;> omega

/-- So does detaching. -/
theorem balanced_detachClk (balanced : Balanced before map)
    (lives : map.freed = false) :
    Balanced before (regmapMmioDetachClk map) ↔ Careful map .detachClk := by
  rw [balanced_iff_held
    (show (regmapMmioDetachClk map).freed = false from lives)]
  obtain ⟨prepares, gets⟩ := (balanced_iff_held lives).mp balanced
  simp only [regmapMmioDetachClk, Careful, reduceCtorEq, and_false, if_false,
    Int.add_zero]
  cases isClk : map.ctx.clk with
  | err =>
      refine iff_of_true ⟨fun id => ?_, fun id => ?_⟩ (.inl rfl)
      · simpa [isClk, Clocks.clkUnprepare] using prepares id
      · simpa [isClk, Clocks.clkUnprepare] using gets id
  | null =>
      refine iff_of_true ⟨fun id => ?_, fun id => ?_⟩ (.inr (.inl rfl))
      · simpa [isClk, Clocks.clkUnprepare] using prepares id
      · simpa [isClk, Clocks.clkUnprepare] using gets id
  | clk had =>
      have taken := prepares_clkUnprepare balanced lives isClk
      constructor
      · rintro ⟨-, got⟩
        refine .inr (.inr ?_)
        by_contra notAttached
        have none : map.clocks.gets had = before.gets had := got had
        rw [gets, isClk,
          if_pos ⟨Bool.eq_false_of_not_eq_true notAttached, rfl⟩] at none
        omega
      · rintro (isErr | isNull | attached)
        · cases isErr
        · cases isNull
        · refine ⟨taken, fun id => ?_⟩
          show map.clocks.gets id = _
          rw [gets, attached]
          simp

/-- Freeing takes everything back. -/
theorem balanced_freeContext (balanced : Balanced before map)
    (lives : map.freed = false) :
    Balanced before (regmapMmioFreeContext map) := by
  obtain ⟨prepares, gets⟩ := (balanced_iff_held lives).mp balanced
  unfold regmapMmioFreeContext
  cases isClk : map.ctx.clk with
  | err =>
      constructor
      · intro id
        simpa [isClk, ClkMap.clk] using prepares id
      · intro id
        simpa [isClk, ClkMap.clk, ClkMap.ownClk] using gets id
  | null =>
      constructor
      · intro id
        simpa [isClk, ClkMap.clk, Clocks.clkUnprepare, Clocks.clkPut]
          using prepares id
      · intro id
        simpa [isClk, ClkMap.clk, ClkMap.ownClk, Clocks.clkUnprepare,
          Clocks.clkPut] using gets id
  | clk had =>
      have taken := prepares_clkUnprepare balanced lives isClk
      rw [if_pos (by simp)]
      dsimp only
      cases attached : map.ctx.attachedClk with
      | true =>
          rw [if_neg (by decide)]
          constructor
          · intro id
            simpa [ClkMap.clk] using taken id
          · intro id
            simpa [ClkMap.clk, ClkMap.ownClk, attached] using gets id
      | false =>
          rw [if_pos rfl]
          constructor
          · intro id
            simpa [ClkMap.clk, Clocks.clkPut, Clocks.get] using taken id
          · intro id
            have got := gets id
            simp only [attached, isClk, Clk.clk.injEq, true_and] at got
            simp only [ClkMap.clk, ClkMap.ownClk, Clocks.clkPut, gets_get,
              gets_clkUnprepare, got, if_true, ite_self, reduceCtorEq,
              if_false]
            split_ifs <;> omega

/-- A map which has not been freed keeps the balance if it takes care. -/
theorem balanced_perform {act : ClkAct} (balanced : Balanced before map)
    (performed : map.perform act = some next) :
    Balanced before next ↔ Careful map act := by
  have lives : map.freed = false := by
    by_contra isFreed
    rw [Bool.not_eq_false] at isFreed
    cases act <;> simp [ClkMap.perform, isFreed] at performed
  cases act with
  | attachClk id answer =>
      simp only [ClkMap.perform, lives, Bool.false_eq_true, if_false,
        Option.some.injEq] at performed
      rw [← performed]
      exact balanced_attachClk balanced lives
  | detachClk =>
      simp only [ClkMap.perform, lives, Bool.false_eq_true, if_false,
        Option.some.injEq] at performed
      rw [← performed]
      exact balanced_detachClk balanced lives
  | freeContext =>
      simp only [ClkMap.perform, lives, Bool.false_eq_true, if_false,
        Option.some.injEq] at performed
      rw [← performed]
      exact iff_of_true (balanced_freeContext balanced lives) trivial

/-- A context which could be made has its clock, if it is to have one. -/
theorem genContext_balanced {machine : Machine} {clkId : Option ClkAnswers}
    {memory : Bool} {regs : Nat} {config : RegmapConfig}
    {ctx : RegmapMmioContext}
    (made : (regmapMmioGenContext machine clkId memory regs config before).1 =
      .ok ctx) :
    Balanced before ⟨ctx, false,
      (regmapMmioGenContext machine clkId memory regs config before).2⟩ := by
  obtain ⟨regWrite, regRead, -, -, rest⟩ := genContext_eq_ok made
  rcases rest with ⟨-, clk, isClk, same⟩ | ⟨id, -, same⟩
  · rw [same] at made ⊢
    cases made
    rcases isClk with rfl | rfl
    all_goals
      constructor
      · intro other
        simp [ClkMap.clk]
      · intro other
        simp [ClkMap.clk, ClkMap.ownClk]
  · rw [same] at made ⊢
    cases made
    constructor
    · intro other
      rw [prepares_prepare]
      simp [ClkMap.clk, Clocks.get]
    · intro other
      show ((before.get id 1).gets other) = _
      rw [gets_get]
      simp [ClkMap.clk, ClkMap.ownClk]

/--
From a context which could be made, the clocks are got and prepared as often
as the map has them, and not at all once it has been freed, if and only if
attaching and detaching is done with care.
-/
theorem mmioClk_balanced_iff {machine : Machine} {clkId : Option ClkAnswers}
    {memory : Bool} {regs : Nat} {config : RegmapConfig}
    {ctx : RegmapMmioContext}
    (made : (regmapMmioGenContext machine clkId memory regs config before).1 =
      .ok ctx)
    {path : List (ClkAct × ClkMap)}
    (isPath : IsPath
      (fun (map : ClkMap) act next => map.perform act = some next)
      ⟨ctx, false,
        (regmapMmioGenContext machine clkId memory regs config before).2⟩
      path) :
    Throughout (Balanced before)
        ⟨ctx, false,
          (regmapMmioGenContext machine clkId memory regs config before).2⟩
        path ↔
      StepsMeet Careful
        ⟨ctx, false,
          (regmapMmioGenContext machine clkId memory regs config before).2⟩
        path :=
  throughout_iff_stepsMeet (fun _ => True) (fun _ _ _ _ _ => trivial)
    (fun _ _ _ _ balanced performed => balanced_perform balanced performed)
    isPath trivial (genContext_balanced made)

/-- A clock which cannot be prepared, and the end of its map -/
def brokenClk : List ClkAct := [.attachClk 3 (some .eio), .freeContext]

def unclocked : ClkMap :=
  ⟨sixteenBitsCtx, false, ⟨fun _ => 0, fun _ => 0⟩⟩

theorem mmioClk_brokenClk :
    ¬ Throughout (Balanced ⟨fun _ => 0, fun _ => 0⟩) unclocked
      (pathOf (orSame ClkMap.perform) unclocked brokenClk) := by
  have made : (regmapMmioGenContext ⟨true, false⟩ none true 0 sixteenBits
      ⟨fun _ => 0, fun _ => 0⟩).1 = .ok sixteenBitsCtx := rfl
  exact (mmioClk_balanced_iff made (isPath_of_allTaken (by decide))).not.mpr
    (not_stepsMeet_of_enabledAlong (by decide))

end LinuxDfl.Mmio

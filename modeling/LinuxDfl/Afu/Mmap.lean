import LinuxDfl.Afu.MmioRegion

/-!
# Mapping MMIO regions

Which physical bytes a user gets who maps a range of the device file.  Regions
are found by their offsets, which are whole pages, while their physical
addresses are as the feature list gives them.
-/

namespace LinuxDfl.Afu

open LinuxDfl.Kernel
open LinuxDfl.Lib.Extents

/-! ## The request -/

/-- `DFL_PORT_REGION_READ` -/
def dflPortRegionRead : BitVec 32 := 1#32

/-- `DFL_PORT_REGION_WRITE` -/
def dflPortRegionWrite : BitVec 32 := 2#32

/-- `DFL_PORT_REGION_MMAP` -/
def dflPortRegionMmap : BitVec 32 := 4#32

/-- `struct vm_area_struct`; its addresses are those of whole pages. -/
structure VmAreaStruct where
  vmStart : BitVec 64
  vmEnd : BitVec 64
  vmPgoff : BitVec 64
  /-- `VM_SHARED` -/
  vmShared : Bool
  /-- `VM_READ` -/
  vmRead : Bool
  /-- `VM_WRITE` -/
  vmWrite : Bool
  start_lt_end : vmStart.toNat < vmEnd.toNat
  start_mod : vmStart.toNat % pageSize = 0
  end_mod : vmEnd.toNat % pageSize = 0

/-- The number of bytes which are to be mapped. -/
def VmAreaStruct.size (vma : VmAreaStruct) : BitVec 64 :=
  vma.vmEnd - vma.vmStart

/-- The offset in the device file from which on they are to be mapped. -/
def VmAreaStruct.offset (vma : VmAreaStruct) : BitVec 64 :=
  pfnPhys vma.vmPgoff

/-- What `remap_pfn_range` is called for. -/
structure PfnRange where
  addr : BitVec 64
  pfn : BitVec 64
  size : BitVec 64
  deriving DecidableEq, Repr

/-- The physical byte to which this byte of the range is mapped. -/
def PfnRange.physical (range : PfnRange) (byte : Nat) : Nat :=
  range.pfn.toNat * pageSize + byte

/-- `afu_mmap`, when `remap_pfn_range` returns `remap` -/
def afuMmap (remap : Option Errno) (vma : VmAreaStruct) (afu : AfuMmio) :
    Except Errno PfnRange :=
  if !vma.vmShared then
    .error .einval
  else
    match afuMmioRegionGetByOffset afu vma.offset vma.size with
    | .error ret => .error ret
    | .ok region =>
        if region.flags &&& dflPortRegionMmap = 0 then
          .error .einval
        else if vma.vmRead ∧ region.flags &&& dflPortRegionRead = 0 then
          .error .eperm
        else if vma.vmWrite ∧ region.flags &&& dflPortRegionWrite = 0 then
          .error .eperm
        else
          match remap with
          | some ret => .error ret
          | none =>
              .ok
                { addr := vma.vmStart
                  pfn :=
                    pfnDown (region.phys + (vma.offset - region.offset))
                  size := vma.size }

/-- What is mapped when the request is accepted. -/
theorem afuMmap_ok {remap : Option Errno} {vma : VmAreaStruct}
    {afu : AfuMmio} {range : PfnRange}
    (accepts : afuMmap remap vma afu = .ok range) :
    ∃ region,
      afuMmioRegionGetByOffset afu vma.offset vma.size = .ok region ∧
        range.pfn = pfnDown (region.phys + (vma.offset - region.offset)) := by
  unfold afuMmap at accepts
  split_ifs at accepts
  split at accepts
  · cases accepts
  · rename_i region found
    split_ifs at accepts
    split at accepts
    · cases accepts
    · obtain rfl := Except.ok.inj accepts
      exact ⟨region, found, rfl⟩

/-! ## The translation -/

/-- The bytes of the request are mapped to those of the region. -/
structure PfnRange.Exact (range : PfnRange) (region : DflAfuMmioRegion)
    (offset size : BitVec 64) : Prop where
  bytes : ∀ byte < size.toNat,
    (range.physical byte : Int) =
      region.phys.toNat + ((offset.toNat : Int) - region.offset.toNat) + byte
  inside : ∀ byte < size.toNat,
    region.phys.toNat ≤ range.physical byte ∧
      range.physical byte < region.phys.toNat + region.size.toNat

/-- When a range of the region can be mapped exactly. -/
structure DflAfuMmioRegion.Mappable (region : DflAfuMmioRegion)
    (offset size : BitVec 64) : Prop where
  phys : pageAligned region.phys = true
  /-- The physical address of the range does not wrap around. -/
  address :
    region.phys.toNat + (offset.toNat - region.offset.toNat) < 2 ^ 64
  /-- The end of the range wraps around only if that of the region does. -/
  limit : 2 ^ 64 ≤ offset.toNat + size.toNat →
    2 ^ 64 ≤ region.offset.toNat + region.size.toNat

/-- A range which passes the check lies in the region, but for a carry. -/
theorem limit_le_iff {region : DflAfuMmioRegion} {offset size : BitVec 64}
    (first : region.offset ≤ offset)
    (last : offset + size ≤ region.offset + region.size) :
    offset.toNat + size.toNat ≤ region.offset.toNat + region.size.toNat ↔
      (2 ^ 64 ≤ offset.toNat + size.toNat →
        2 ^ 64 ≤ region.offset.toNat + region.size.toNat) := by
  rw [BitVec.le_def] at first last
  rw [BitVec.toNat_add, BitVec.toNat_add] at last
  have offsetBound := offset.isLt
  have sizeBound := size.isLt
  have regionOffsetBound := region.offset.isLt
  have regionSizeBound := region.size.isLt
  omega

/-- The frame of a range whose offsets are those of whole pages. -/
theorem PfnRange.exact_iff {range : PfnRange} {region : DflAfuMmioRegion}
    {offset size : BitVec 64}
    (pfn : range.pfn = pfnDown (region.phys + (offset - region.offset)))
    (nonempty : 0 < size.toNat) (first : region.offset ≤ offset)
    (last : offset + size ≤ region.offset + region.size)
    (offsetMod : offset.toNat % pageSize = 0)
    (regionMod : region.offset.toNat % pageSize = 0) :
    range.Exact region offset size ↔ region.Mappable offset size := by
  have limit := limit_le_iff first last
  have firstNat : region.offset.toNat ≤ offset.toNat :=
    BitVec.le_def.mp first
  have distance :
      (offset - region.offset).toNat =
        offset.toNat - region.offset.toNat :=
    BitVec.toNat_sub_of_le first
  have physical (byte : Nat) :
      range.physical byte =
        (region.phys.toNat + (offset.toNat - region.offset.toNat)) %
          2 ^ 64 / pageSize * pageSize + byte := by
    rw [PfnRange.physical, pfn, pfnDown, BitVec.toNat_ushiftRight,
      Nat.shiftRight_eq_div_pow, BitVec.toNat_add, distance]
    rfl
  unfold pageSize pageShift at physical offsetMod regionMod
  constructor
  · intro exact
    have start := exact.bytes 0 nonempty
    rw [physical] at start
    refine ⟨?_, ?_, ?_⟩
    · rw [pageAligned, decide_eq_true_iff]
      unfold pageSize pageShift
      omega
    · omega
    · refine limit.mp ?_
      have within := (exact.inside (size.toNat - 1) (by omega)).2
      have ends := exact.bytes (size.toNat - 1) (by omega)
      omega
  · intro mappable
    have aligned := mappable.phys
    have inRegion := limit.mpr mappable.limit
    have small := mappable.address
    rw [pageAligned, decide_eq_true_iff] at aligned
    unfold pageSize pageShift at aligned
    have bytes (byte : Nat) :
        range.physical byte =
          region.phys.toNat + (offset.toNat - region.offset.toNat) +
            byte := by
      rw [physical, Nat.mod_eq_of_lt small]
      omega
    refine ⟨fun byte inside => ?_, fun byte inside => ?_⟩
    · rw [bytes]
      omega
    · rw [bytes]
      omega

/--
A request which is accepted maps each byte to the byte of the region at its
offset, and none beyond the region, exactly if the region can be mapped so.
-/
theorem mmap_exact_iff (requests : List MmioRegionRequest)
    (remap : Option Errno) (vma : VmAreaStruct) (range : PfnRange)
    (accepts : afuMmap remap vma (mmioRegionsOf requests) = .ok range) :
    ∃ region,
      afuMmioRegionGetByOffset (mmioRegionsOf requests) vma.offset
          vma.size = .ok region ∧
        (range.Exact region vma.offset vma.size ↔
          region.Mappable vma.offset vma.size) := by
  obtain ⟨region, found, pfn⟩ := afuMmap_ok accepts
  obtain ⟨member, first, last⟩ := afuMmioRegionGetByOffset_ok found
  have nonempty : 0 < vma.size.toNat := by
    have ordered := vma.start_lt_end
    rw [VmAreaStruct.size, BitVec.toNat_sub_of_le (Nat.le_of_lt ordered)]
    omega
  exact ⟨region, found,
    PfnRange.exact_iff pfn nonempty first last (pfnPhys_mod _)
      ((mmioRegionsOf_aligned requests).regions region member)⟩

/-- One page, the first of the device file. -/
def firstPage : VmAreaStruct where
  vmStart := 0x7f0000000000
  vmEnd := 0x7f0000001000
  vmPgoff := 0
  vmShared := true
  vmRead := true
  vmWrite := true
  start_lt_end := by decide
  start_mod := by decide
  end_mod := by decide

/-- The first page of a region which begins at a page is mapped. -/
theorem first_page_mapped :
    afuMmap none firstPage (mmioRegionsOf [mmioRequest 0 0x2000]) =
        .ok ⟨0x7f0000000000, 0x10000, 0x1000⟩ ∧
      ∃ region,
        afuMmioRegionGetByOffset (mmioRegionsOf [mmioRequest 0 0x2000])
            firstPage.offset firstPage.size = .ok region ∧
          (PfnRange.Exact ⟨0x7f0000000000, 0x10000, 0x1000⟩ region
              firstPage.offset firstPage.size ↔
            region.Mappable firstPage.offset firstPage.size) :=
  ⟨by decide,
    mmap_exact_iff [mmioRequest 0 0x2000] none firstPage _ (by decide)⟩

/-- A region which begins in the middle of a page is mapped from its start. -/
theorem unaligned_region_mapped_short :
    let region : DflAfuMmioRegion := ⟨0, 7, 0x2000, 0, 0x10000800⟩
    let afu := mmioRegionsOf [⟨0, 0x2000, 0x10000800, 7, true⟩]
    ∃ range,
      afuMmap none firstPage afu = .ok range ∧
        afuMmioRegionGetByOffset afu firstPage.offset firstPage.size =
            .ok region ∧
          range.physical 0 = 0x10000000 ∧
            ¬ range.Exact region firstPage.offset firstPage.size := by
  intro region afu
  refine ⟨⟨0x7f0000000000, 0x10000, 0x1000⟩, by decide, by decide, by decide,
    fun exact => ?_⟩
  exact absurd (exact.bytes 0 (by decide)) (by decide)

end LinuxDfl.Afu

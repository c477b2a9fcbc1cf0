import LinuxDfl.Lib.SearchTree
import LinuxDfl.Port.FeatureDev
import LinuxDfl.Kernel.Page

/-!
# DMA regions of an accelerated function unit

The memory which a user maps for an AFU: the pages are charged to the user's
limit and pinned, mapped for the device, and kept in a tree by their DMA
address until they are unmapped, the last file is closed or the device is
removed.  What memory management and the DMA interface answer is a parameter
of an operation.
-/

namespace LinuxDfl.Afu

open LinuxDfl.Kernel
open LinuxDfl.Port
open LinuxDfl.Lib.SearchTree

/-! ## Regions -/

/-- `enum dma_data_direction` -/
inductive DmaDataDirection where
  | bidirectional
  | toDevice
  | fromDevice
  deriving DecidableEq, Repr

/-- `struct dfl_afu_dma_region`; the pages are known by their frames. -/
structure DflAfuDmaRegion where
  userAddr : BitVec 64
  length : BitVec 64
  iova : BitVec 64
  pages : Option (List Nat)
  inUse : Bool
  direction : DmaDataDirection
  deriving DecidableEq, Repr

/-- What `dma_map_page` and `dma_unmap_page` are called for. -/
structure DmaMapping where
  iova : BitVec 64
  length : BitVec 64
  direction : DmaDataDirection
  deriving DecidableEq, Repr

def DflAfuDmaRegion.mapping (region : DflAfuDmaRegion) : DmaMapping :=
  ⟨region.iova, region.length, region.direction⟩

/-- What happens to the user's limit, the user's pages and the mappings. -/
inductive DmaEvent where
  /-- `account_locked_vm` adds pages to the limit. -/
  | charge (pages : Nat)
  | uncharge (pages : Nat)
  | pin (pages : Nat)
  | unpin (pages : Nat)
  | map (mapping : DmaMapping)
  | unmap (mapping : DmaMapping)
  deriving DecidableEq, Repr

/-- The feature device of an AFU, with what has happened so far. -/
structure AfuDma where
  fdata : FeatureDevData
  /-- The files which are open. -/
  files : Nat
  /-- The driver is bound, and its private data exists. -/
  bound : Bool
  /-- `dma_regions` -/
  dmaRegions : RbTree DflAfuDmaRegion
  events : List DmaEvent

def AfuDma.emit (dma : AfuDma) (events : List DmaEvent) : AfuDma :=
  { dma with events := dma.events ++ events }

/-! ## Pages -/

/-- What a request to map memory meets. -/
structure MapAnswers where
  kzalloc : Bool
  /-- `account_locked_vm` -/
  account : Option Errno
  kcalloc : Bool
  /-- `pin_user_pages_fast`: frames, of which it pins at most the number asked. -/
  pin : Except Errno (List Nat)
  /-- `dma_map_page`, which may fail -/
  dmaMap : Option (BitVec 64)

/-- `afu_dma_pin_pages` -/
def afuDmaPinPages (answers : MapAnswers) (length : BitVec 64) :
    Except Errno (List Nat) × List DmaEvent :=
  let npages := intPages length
  let charged := unsignedLong npages
  match answers.account with
  | some ret => (.error ret, [])
  | none =>
      if !kcallocPointers answers.kcalloc (unsignedLong npages) then
        (.error .enomem, [.charge charged, .uncharge charged])
      else
        match answers.pin with
        | .error ret => (.error ret, [.charge charged, .uncharge charged])
        | .ok frames =>
            let pinned := frames.take npages.toNat
            if (pinned.length : Int) ≠ npages.toInt then
              (.error .efault,
                [.charge charged, .pin pinned.length,
                  .unpin pinned.length, .uncharge charged])
            else
              (.ok pinned, [.charge charged, .pin pinned.length])

/-- `afu_dma_unpin_pages` -/
def afuDmaUnpinPages (length : BitVec 64) : List DmaEvent :=
  [.unpin (longPages length), .uncharge (longPages length)]

/-- `afu_dma_check_continuous_pages`, of as many pages as were pinned -/
def afuDmaCheckContinuousPages (pages : List Nat) : Bool :=
  continuousFrames pages

/-! ## The tree of regions -/

section Tree

variable (ops : Balancing DflAfuDmaRegion)

/-- `dma_region_check_iova` -/
def dmaRegionCheckIova (region : DflAfuDmaRegion) (iova size : BitVec 64) :
    Bool :=
  if size = 0 ∧ region.iova ≠ iova then false
  else region.iova ≤ iova && iova + size ≤ region.length + region.iova

/-- The key of a region in the tree. -/
def DflAfuDmaRegion.key (region : DflAfuDmaRegion) : Nat :=
  region.iova.toNat

/-- `afu_dma_region_add`, which refuses with `-EEXIST` -/
def afuDmaRegionAdd (region : DflAfuDmaRegion)
    (regions : RbTree DflAfuDmaRegion) :
    Option (RbTree DflAfuDmaRegion) :=
  (regions.link
    (fun this => dmaRegionCheckIova this region.iova region.length)
    (turnTo DflAfuDmaRegion.key region.key) region).map ops.insertColor

theorem afuDmaRegionAdd_perm {ops : Balancing DflAfuDmaRegion}
    {region : DflAfuDmaRegion} {regions added : RbTree DflAfuDmaRegion}
    (adds : afuDmaRegionAdd ops region regions = some added) :
    added.inorder.Perm (region :: regions.inorder) := by
  unfold afuDmaRegionAdd at adds
  obtain ⟨linked, links, rfl⟩ := Option.map_eq_some_iff.mp adds
  rw [ops.inorder_insertColor]
  exact RbTree.link_perm links

/-- `afu_dma_region_remove`, of the region at this place in the tree -/
def afuDmaRegionRemove (place : Nat) (regions : RbTree DflAfuDmaRegion) :
    RbTree DflAfuDmaRegion :=
  ops.erase regions place

/-- `afu_dma_region_find` -/
def afuDmaRegionFind (iova size : BitVec 64)
    (regions : RbTree DflAfuDmaRegion) : Option (Nat × DflAfuDmaRegion) :=
  regions.find (fun region => dmaRegionCheckIova region iova size)
    (turnTo DflAfuDmaRegion.key iova.toNat)

/-- `afu_dma_region_find_iova` -/
def afuDmaRegionFindIova (iova : BitVec 64)
    (regions : RbTree DflAfuDmaRegion) : Option (Nat × DflAfuDmaRegion) :=
  afuDmaRegionFind iova 0 regions

/-- What `afu_dma_region_destroy` does to a region. -/
def destroyEvents (region : DflAfuDmaRegion) : List DmaEvent :=
  (if region.iova ≠ 0 then
      [.unmap ⟨region.iova, region.length, .bidirectional⟩]
    else []) ++
    if region.pages.isSome then afuDmaUnpinPages region.length else []

/--
`afu_dma_region_destroy`.  The successor of a node which was erased from the
front is the new front.
-/
def afuDmaRegionDestroy (dma : AfuDma) : AfuDma :=
  let (regions, rest) :=
    ops.drain dma.dmaRegions.inorder.length dma.dmaRegions
  { dma with dmaRegions := rest }.emit (regions.flatMap destroyEvents)

/-! ## Mapping and unmapping -/

/-- `DFL_DMA_MAP_FLAG_READ` -/
def dflDmaMapFlagRead : BitVec 32 := 1#32

/-- `DFL_DMA_MAP_FLAG_WRITE` -/
def dflDmaMapFlagWrite : BitVec 32 := 2#32

/-- `dma_flag_to_dir` -/
def dmaFlagToDir (flags : BitVec 32) : DmaDataDirection :=
  let mask := dflDmaMapFlagRead ||| dflDmaMapFlagWrite
  if flags &&& mask = dflDmaMapFlagRead then .toDevice
  else if flags &&& mask = dflDmaMapFlagWrite then .fromDevice
  else .bidirectional

/-- The checks of `afu_dma_map_region` on its arguments. -/
def mapArgsOk (userAddr length : BitVec 64) : Bool :=
  pageAligned userAddr && pageAligned length && decide (length ≠ 0) &&
    !decide (userAddr + length < userAddr)

/--
`afu_dma_map_region`.  There is no answer when it reads the first of no pages.
-/
def afuDmaMapRegion (userAddr length : BitVec 64) (flags : BitVec 32)
    (answers : MapAnswers) (dma : AfuDma) :
    Option (Except Errno (BitVec 64) × AfuDma) :=
  if !mapArgsOk userAddr length then
    some (.error .einval, dma)
  else if !answers.kzalloc then
    some (.error .enomem, dma)
  else
    match afuDmaPinPages answers length with
    | (.error ret, events) => some (.error ret, dma.emit events)
    | (.ok pages, events) =>
        let unpin := afuDmaUnpinPages length
        if !afuDmaCheckContinuousPages pages then
          some (.error .einval, dma.emit (events ++ unpin))
        else if pages.isEmpty then
          none
        else
          match answers.dmaMap with
          | none => some (.error .efault, dma.emit (events ++ unpin))
          | some iova =>
              let region : DflAfuDmaRegion :=
                ⟨userAddr, length, iova, some pages, false,
                  dmaFlagToDir flags⟩
              let mapped := dma.emit (events ++ [.map region.mapping])
              match afuDmaRegionAdd ops region dma.dmaRegions with
              | none =>
                  some (.error .eexist,
                    mapped.emit (.unmap region.mapping :: unpin))
              | some regions =>
                  some (.ok iova, { mapped with dmaRegions := regions })

/-- `afu_dma_unmap_region` -/
def afuDmaUnmapRegion (iova : BitVec 64) (dma : AfuDma) :
    Option Errno × AfuDma :=
  match afuDmaRegionFindIova iova dma.dmaRegions with
  | none => (some .einval, dma)
  | some (place, region) =>
      if region.inUse then
        (some .ebusy, dma)
      else
        (none,
          { dma with dmaRegions := ops.erase dma.dmaRegions place }.emit
            (.unmap region.mapping :: afuDmaUnpinPages region.length))

/-! ## The file operations -/

/-- `struct dfl_fpga_port_dma_map`, and what the request meets. -/
structure DmaMapRequest where
  copyFromUser : Bool
  argsz : Nat
  flags : BitVec 32
  userAddr : BitVec 64
  length : BitVec 64
  answers : MapAnswers
  copyToUser : Bool

/-- `struct dfl_fpga_port_dma_unmap` -/
structure DmaUnmapRequest where
  copyFromUser : Bool
  argsz : Nat
  flags : BitVec 32
  iova : BitVec 64

/-- `afu_ioctl_dma_map` -/
def afuIoctlDmaMap (request : DmaMapRequest) (dma : AfuDma) :
    Option (Option Errno × AfuDma) :=
  let minsz := 32
  let dmaMask := dflDmaMapFlagRead ||| dflDmaMapFlagWrite
  if !request.copyFromUser then
    some (some .efault, dma)
  else if request.argsz < minsz ∨ request.flags &&& ~~~ dmaMask ≠ 0 then
    some (some .einval, dma)
  else
    (afuDmaMapRegion ops request.userAddr request.length request.flags
      request.answers dma).map fun
      | (.error ret, dma) => (some ret, dma)
      | (.ok iova, dma) =>
          if !request.copyToUser then
            (some .efault, (afuDmaUnmapRegion ops iova dma).2)
          else
            (none, dma)

/-- `afu_ioctl_dma_unmap` -/
def afuIoctlDmaUnmap (request : DmaUnmapRequest) (dma : AfuDma) :
    Option Errno × AfuDma :=
  let minsz := 16
  if !request.copyFromUser then
    (some .efault, dma)
  else if request.argsz < minsz ∨ request.flags ≠ 0 then
    (some .einval, dma)
  else
    afuDmaUnmapRegion ops request.iova dma

/-- `afu_open` -/
def afuOpen (excl : Bool) (dma : AfuDma) : Option Errno × AfuDma :=
  let (ret, fdata) := dflFeatureDevUseBegin dma.fdata excl
  (ret,
    { dma with
      fdata := fdata
      files := if ret.isNone then dma.files + 1 else dma.files })

/-- `afu_release`, as far as it concerns the regions -/
def afuRelease (dma : AfuDma) : AfuDma :=
  let closed :=
    { dma with
      fdata := dflFeatureDevUseEnd dma.fdata
      files := dma.files - 1 }
  if closed.fdata.openCount = 0 then afuDmaRegionDestroy ops closed
  else closed

/-- `afu_dev_destroy` -/
def afuDevDestroy (dma : AfuDma) : AfuDma :=
  { afuDmaRegionDestroy ops dma with bound := false }

/-! ## Sequences of operations -/

inductive AfuOp where
  | openFile (excl : Bool)
  | release
  | dmaMap (request : DmaMapRequest)
  | dmaUnmap (request : DmaUnmapRequest)
  /-- The driver is removed from the device. -/
  | remove

/--
One operation.  Requests and releases need an open file; there are no regions
to work on once the driver is gone.
-/
def AfuDma.Step (dma : AfuDma) : AfuOp → AfuDma → Prop
  | .openFile excl, next => dma.bound = true ∧ (afuOpen excl dma).2 = next
  | .release, next =>
      dma.bound = true ∧ 0 < dma.files ∧ afuRelease ops dma = next
  | .dmaMap request, next =>
      dma.bound = true ∧ 0 < dma.files ∧
        (afuIoctlDmaMap ops request dma).map Prod.snd = some next
  | .dmaUnmap request, next =>
      dma.bound = true ∧ 0 < dma.files ∧
        (afuIoctlDmaUnmap ops request dma).2 = next
  | .remove, next => dma.bound = true ∧ afuDevDestroy ops dma = next

/-- The state after an operation. -/
def AfuDma.apply (dma : AfuDma) : AfuOp → AfuDma
  | .openFile excl => (afuOpen excl dma).2
  | .release => afuRelease ops dma
  | .dmaMap request =>
      ((afuIoctlDmaMap ops request dma).map Prod.snd).getD dma
  | .dmaUnmap request => (afuIoctlDmaUnmap ops request dma).2
  | .remove => afuDevDestroy ops dma

/-- The operation can be taken. -/
def AfuDma.enabled (dma : AfuDma) : AfuOp → Bool
  | .openFile _ => dma.bound
  | .release => dma.bound && decide (0 < dma.files)
  | .dmaMap request =>
      dma.bound && decide (0 < dma.files) &&
        (afuIoctlDmaMap ops request dma).isSome
  | .dmaUnmap _ => dma.bound && decide (0 < dma.files)
  | .remove => dma.bound

theorem AfuDma.step_apply {dma : AfuDma} {op : AfuOp}
    (enabled : dma.enabled ops op = true) :
    dma.Step ops op (dma.apply ops op) := by
  cases op with
  | openFile excl => exact ⟨enabled, rfl⟩
  | remove => exact ⟨enabled, rfl⟩
  | release =>
      obtain ⟨bound, isOpen⟩ := Bool.and_eq_true_iff.mp enabled
      exact ⟨bound, of_decide_eq_true isOpen, rfl⟩
  | dmaUnmap request =>
      obtain ⟨bound, isOpen⟩ := Bool.and_eq_true_iff.mp enabled
      exact ⟨bound, of_decide_eq_true isOpen, rfl⟩
  | dmaMap request =>
      obtain ⟨first, returns⟩ := Bool.and_eq_true_iff.mp enabled
      obtain ⟨bound, isOpen⟩ := Bool.and_eq_true_iff.mp first
      obtain ⟨result, maps⟩ := Option.isSome_iff_exists.mp returns
      refine ⟨bound, of_decide_eq_true isOpen, ?_⟩
      rw [AfuDma.apply, maps]
      rfl

end Tree

/-- `afu_dev_init`, with `afu_dma_region_init` -/
def afuDevInit (fdata : FeatureDevData) : AfuDma :=
  ⟨fdata, 0, true, .nil, []⟩

end LinuxDfl.Afu

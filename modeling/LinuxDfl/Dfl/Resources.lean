import LinuxDfl.Dfl.Walk

/-!
# The resources of accepted features

Whether the registers of a feature lie in the window of its list.  The check of
the size subtracts the offset from what remains of the window, and an offset
behind the window wraps around there.
-/

namespace LinuxDfl.Dfl

open LinuxDfl.Kernel
open LinuxDfl.Lib.Traced
open LinuxDfl.Lib.Traced.Program

variable {platform : Platform} {start limit : Nat}

/-- Every address of the resource lies between start and limit. -/
def Resource.Contained (resource : Resource) (start limit : Nat) : Prop :=
  ∀ address, resource.start ≤ address → address ≤ resource.last →
    start ≤ address ∧ address < limit

/-- Where the registers of a feature begin, unless that is absolute. -/
def Placement.first (placement : Placement) : Nat :=
  let start := Word.add 64 placement.window placement.ofst
  match placement.size with
  | some _ => start
  | none => Word.add 64 start placement.addrOff

/-- How many bytes of registers a feature has. -/
def Placement.bytes (placement : Placement) : Nat :=
  match placement.size with
  | some size => size
  | none => if placement.csrSize ≠ 0 then placement.csrSize else 1

/--
The registers of the feature begin between start and limit, or it has none: no
bytes behind another address, or so many that the last address wraps around.
-/
def BeginsInside (start limit : Nat) (placement : Placement) : Prop :=
  if placement.bytes = 0 then placement.first ≠ 0
  else
    2 ^ 64 < placement.first + placement.bytes ∨
      start ≤ placement.first ∧ placement.first < limit

instance (start limit : Nat) (placement : Placement) :
    Decidable (BeginsInside start limit placement) :=
  inferInstanceAs (Decidable
    (if placement.bytes = 0 then placement.first ≠ 0
    else
      2 ^ 64 < placement.first + placement.bytes ∨
        start ≤ placement.first ∧ placement.first < limit))

/-- What remains of the window ends where the window ends. -/
def EndsAt (limit : Nat) (binfo : BuildFeatureDevsInfo) : Prop :=
  binfo.start + binfo.len = limit

/-! ## One feature -/

/-- What is in range of the window lies in it. -/
theorem inRange_inside {binfo : BuildFeatureDevsInfo}
    (ends : EndsAt limit binfo) {val : Nat}
    (inside : inRange val binfo.start binfo.len) : val < limit := by
  have window : binfo.start + binfo.len = limit := ends
  have below : Word.sub 64 val binfo.start < binfo.len :=
    of_decide_eq_true inside
  unfold Word.sub at below
  split at below <;> omega

/-- A size which fits into what remains leaves the last address inside. -/
theorem fitting_size_inside {binfo : BuildFeatureDevsInfo}
    (ends : EndsAt limit binfo) (noWrap : limit < 2 ^ 64) {ofst size : Nat}
    (inside : Word.add 64 binfo.start ofst < limit)
    (fits : size ≤ Word.sub 64 binfo.len ofst) (nonempty : size ≠ 0) :
    Word.sub 64 (Word.add 64 (Word.add 64 binfo.start ofst) size) 1 <
      limit := by
  have window : binfo.start + binfo.len = limit := ends
  have room : size ≤ limit - Word.add 64 binfo.start ofst := by
    unfold Word.sub at fits
    unfold Word.add at inside ⊢
    split at inside <;> split at fits <;> split <;> omega
  rw [Word.add_of_lt (by omega), Word.sub_of_le (by omega)]
  omega

/-- The registers of an accepted feature, by its place. -/
structure Registers (limit : Nat) (placement : Placement)
    (resource : Resource) : Prop where
  start : resource.start = placement.first
  last :
    resource.last =
      Word.sub 64 (Word.add 64 placement.first placement.bytes) 1
  bytes_le : placement.bytes ≤ 2 ^ 64
  /-- They end inside if they begin there. -/
  ends : placement.bytes ≠ 0 → placement.first < limit → resource.last < limit

/-- Registers are inside exactly if they begin there. -/
theorem Registers.contained_iff {placement : Placement} {resource : Resource}
    (registers : Registers limit placement resource)
    (noWrap : limit < 2 ^ 64) :
    resource.Contained start limit ↔ BeginsInside start limit placement := by
  have ends := registers.ends
  have bound := registers.bytes_le
  unfold Resource.Contained BeginsInside
  rw [registers.start, registers.last] at *
  generalize placement.first = first at *
  generalize placement.bytes = bytes at *
  by_cases none : bytes = 0
  · subst none
    rw [if_pos rfl]
    constructor
    · rintro contained rfl
      have everything :=
        contained (2 ^ 64 - 1) (Nat.zero_le _) (by decide)
      omega
    · intro nonzero address above below
      have empty : Word.sub 64 (Word.add 64 first 0) 1 < first := by
        unfold Word.sub Word.add
        split <;> split <;> omega
      omega
  · rw [if_neg none]
    by_cases wraps : 2 ^ 64 < first + bytes
    · have empty : Word.sub 64 (Word.add 64 first bytes) 1 < first := by
        unfold Word.sub Word.add
        split <;> split <;> omega
      refine iff_of_true (fun address above below => ?_) (Or.inl wraps)
      omega
    · have last :
          Word.sub 64 (Word.add 64 first bytes) 1 = first + bytes - 1 := by
        unfold Word.sub Word.add
        split <;> split <;> omega
      rw [last] at ends ⊢
      constructor
      · intro contained
        exact .inr (contained first (Nat.le_refl _) (by omega))
      · rintro (impossible | ⟨above, below⟩) address isAbove isBelow
        · exact absurd impossible wraps
        · have inside := ends none below
          omega

/-- What is known of registers which a header of version 1 gives. -/
theorem csrResource_relative {binfo : BuildFeatureDevsInfo} {ofst : Nat}
    {addr sizeGrp : BitVec 64} {resource : Resource}
    (csr : csrResource binfo ofst addr sizeGrp = some (resource, false)) :
    let first :=
      Word.add 64 (Word.add 64 binfo.start ofst)
        (dfhv1CsrAddrMask.get addr * 2)
    let csrSize := dfhv1CsrSizeGrpSize.get sizeGrp
    resource.start = first ∧
      resource.last =
        (if csrSize ≠ 0 then Word.sub 64 (Word.add 64 first csrSize) 1
        else first) ∧
      inRange resource.last binfo.start binfo.len = true := by
  intro first csrSize
  unfold csrResource at csr
  dsimp only at csr
  rw [Option.ite_none_left_eq_some] at csr
  obtain ⟨inside, isResource⟩ := csr
  obtain ⟨rfl, relative⟩ := Prod.mk.inj (Option.some.inj isResource)
  rw [relative, Bool.not_false, Bool.true_and, Bool.not_eq_true',
    Bool.not_eq_false, Bool.and_eq_true] at inside
  have notAbsolute := of_decide_eq_false relative
  refine ⟨if_neg notAbsolute, ?_, inside.2⟩
  rw [if_neg notAbsolute]

/-- An accepted feature has the registers which its place gives it. -/
theorem Placed.registers {binfo : BuildFeatureDevsInfo}
    (ends : EndsAt limit binfo) (noWrap : limit < 2 ^ 64) {ofst : Nat}
    {finfo : DflFeatureInfo} {placement : Placement}
    (placed : Placed binfo ofst finfo placement)
    (relative : placement.absolute = false) :
    Registers limit placement finfo.mmioRes := by
  obtain ⟨window, isOfst, place⟩ := placed
  have whole : binfo.start + binfo.len = limit := ends
  cases sized : placement.size with
  | none =>
      rw [sized] at place
      obtain ⟨addr, sizeGrp, isAddr, isSize, csr⟩ := place
      rw [relative] at csr
      obtain ⟨atStart, atLast, inside⟩ := csrResource_relative csr
      have isFirst : placement.first = finfo.mmioRes.start := by
        rw [Placement.first, sized, window, isOfst, isAddr, atStart]
      have sizeBound : dfhv1CsrSizeGrpSize.get sizeGrp < 2 ^ 32 :=
        dfhv1CsrSizeGrpSize.get_lt sizeGrp
      have isBytes :
          placement.bytes =
            if dfhv1CsrSizeGrpSize.get sizeGrp ≠ 0 then
              dfhv1CsrSizeGrpSize.get sizeGrp else 1 := by
        rw [Placement.bytes, sized, isSize]
      refine ⟨isFirst.symm, ?_, ?_, fun _ _ => inRange_inside ends inside⟩
      · have below := inRange_inside ends inside
        rw [atLast, ← atStart] at below ⊢
        rw [isFirst, isBytes]
        split_ifs at below ⊢
        · rfl
        · generalize finfo.mmioRes.start = first at below ⊢
          unfold Word.sub Word.add
          split <;> split <;> omega
      · rw [isBytes]
        split_ifs <;> omega
  | some size =>
      rw [sized] at place
      obtain ⟨-, fits, atStart, atLast⟩ := place
      have isFirst : placement.first = Word.add 64 binfo.start ofst := by
        rw [Placement.first, sized, window, isOfst]
      have isBytes : placement.bytes = size := by
        rw [Placement.bytes, sized]
      rw [atStart] at atLast
      refine ⟨atStart.trans isFirst.symm, ?_, ?_, fun nonempty below => ?_⟩
      · rw [atLast, isFirst, isBytes]
      · rw [isBytes]
        unfold Word.sub at fits
        split at fits <;> omega
      · rw [isFirst] at below
        rw [isBytes] at nonempty
        rw [atLast]
        exact fitting_size_inside ends noWrap below fits nonempty

/-! ## Every feature of a list -/

/-- Every accepted relative resource is inside exactly if it begins there. -/
def AllPlaced (start limit : Nat) (past : List Event) : Prop :=
  ∀ finfo placement, .accepted finfo placement ∈ past →
    placement.absolute = false →
      (finfo.mmioRes.Contained start limit ↔
        BeginsInside start limit placement)

/-- What the walk over a list keeps of its window. -/
structure Windowed (start limit : Nat) (past : List Event)
    (state : Enumeration) : Prop where
  placed : AllPlaced start limit past
  ends : EndsAt limit state.binfo

theorem allPlaced_nil : AllPlaced start limit [] :=
  fun _ _ member => absurd member List.not_mem_nil

theorem AllPlaced.snoc {past : List Event} (placed : AllPlaced start limit past)
    {event : Event}
    (other : ∀ finfo placement, event ≠ .accepted finfo placement) :
    AllPlaced start limit (past ++ [event]) := by
  intro finfo placement member
  rcases List.mem_append.mp member with earlier | latest
  · exact placed finfo placement earlier
  · exact absurd (List.mem_singleton.mp latest).symm (other _ _)

theorem accepts_windowed (noWrap : limit < 2 ^ 64) (ofst : Nat) :
    Accepts (Windowed start limit) ofst := by
  intro past state finfo placement windowed placed
  refine ⟨?_, windowed.ends⟩
  intro other place member relative
  rcases List.mem_append.mp member with earlier | latest
  · exact windowed.placed other place earlier relative
  · obtain ⟨rfl, rfl⟩ := Event.accepted.inj (List.mem_singleton.mp latest)
    have registers := placed.registers windowed.ends noWrap relative
    exact registers.contained_iff noWrap

/-- A window which is switched to ends where the one before did. -/
theorem EndsAt.switched {binfo : BuildFeatureDevsInfo}
    (ends : EndsAt limit binfo) (noWrap : limit < 2 ^ 64) {position : Nat}
    (inside : position < limit) :
    EndsAt limit (binfo.switched (Word.sub 64 position binfo.start)) := by
  have window : binfo.start + binfo.len = limit := ends
  change Word.add 64 binfo.start _ + Word.sub 64 binfo.len _ = limit
  unfold Word.add Word.sub
  split <;> split <;> split <;> omega

/-- A walk keeps where its window ends. -/
theorem windowed_walk (platform : Platform) (start : Nat)
    (noWrap : limit < 2 ^ 64) :
    PlainWalk platform limit (Windowed start limit)
      (AllPlaced start limit) where
  event past state event plain windowed := by
    refine ⟨windowed.placed.snoc ?_, windowed.ends⟩
    rintro finfo placement rfl
    exact plain
  state _ _ _ binfo windowed := ⟨windowed.placed, binfo ▸ windowed.ends⟩
  accepts := accepts_windowed noWrap
  commits past before next windowed _ binfo := by
    refine ⟨windowed.placed.snoc fun _ _ => nofun, ?_⟩
    rw [binfo]
    exact windowed.ends
  switches position inside past before next windowed _ binfo := by
    refine ⟨windowed.placed.snoc fun _ _ => nofun, ?_⟩
    rw [binfo]
    exact windowed.ends.switched noWrap inside
  begins past state type windowed :=
    ⟨windowed.placed.snoc fun _ _ => nofun, windowed.ends⟩
  privates past state windowed := by
    refine ⟨?_, windowed.ends⟩
    split
    · exact windowed.placed.snoc fun _ _ => nofun
    · rw [List.append_nil]
      exact windowed.placed
  safe _ _ := Windowed.placed

/-- Every feature which is accepted in a list is inside if it begins there. -/
theorem list_places {len : Nat} (platform : Platform) (state : Enumeration)
    (noWrap : start + len < 2 ^ 64) :
    AllPlaced start (start + len)
      (parseFeatureList platform start len state).events := by
  have walk := windowed_walk platform start noWrap
  have limit : Word.add 64 start len = start + len := Word.add_of_lt noWrap
  have places :
      Triple (fun past _ => past = []) (parseFeatureList platform start len)
        (fun _ => Windowed start (start + len))
        fun past _ => AllPlaced start (start + len) past := by
    have nothing : Stable (fun _ => False) fun past _ => past = [] :=
      ⟨fun _ _ _ => False.elim, fun _ _ _ _ _ => id⟩
    have prepares :
        Triple (fun past _ => past = []) (buildInfoPrepare platform start len)
          (fun _ => Windowed start (start + len))
          fun past _ => AllPlaced start (start + len) past := by
      refine (nothing.buildInfoPrepare_prepares ?_).of_fails ?_
      · rintro past before next rfl _ binfo
        exact ⟨allPlaced_nil, by rw [binfo]; rfl⟩
      · rintro past state rfl
        exact allPlaced_nil
    refine Triple.bind prepares fun _ => ?_
    rw [limit]
    exact Triple.bind (walk.parseFeatureListLoop _ _) fun _ =>
      walk.commitDetected
  have always :=
    places.mono (fun _ _ => id) (fun _ _ _ => Windowed.placed) fun _ _ => id
  exact always.always rfl

/--
A port at the start of its list, with registers of one kilobyte for its AFU at
the given offset.
-/
def portWithAfu (offset : BitVec 64) : Platform where
  mmio address :=
    if address = 0x10000 then 0x4000010010000001
    else if address = 0x10018 then offset
    else if address = 0x10030 then 0x100
    else 0
  external _ := none
  irqTable _ := 0
  nrIrqsMax := 0
  beyond := 0
  fuel := 1

/-- The places which the features of a run have been given. -/
def placements (events : List Event) : List Placement :=
  events.filterMap fun
    | .accepted _ placement => some placement
    | _ => none

theorem mem_placements {events : List Event} {finfo : DflFeatureInfo}
    {placement : Placement} (member : .accepted finfo placement ∈ events) :
    placement ∈ placements events :=
  List.mem_filterMap.mpr ⟨_, member, rfl⟩

end LinuxDfl.Dfl

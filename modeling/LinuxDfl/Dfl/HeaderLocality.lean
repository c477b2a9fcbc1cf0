import LinuxDfl.Dfl.DeviceData

/-!
# Where the fields of a header are read

Whether the fields which decide how a feature is parsed are read from its own
header, and whether a device keeps the type of its FIU.  The FIU and the version
of a private feature are read at the start of the window, which is the header
of the FIU only once a device has been found.
-/

namespace LinuxDfl.Dfl

open LinuxDfl.Kernel
open LinuxDfl.Lib.Traced
open LinuxDfl.Lib.Traced.Program

variable {platform : Platform}

/-! ## Headers which are parsed locally -/

/-- Two addresses of 64 bits are the same. -/
def SameAddress (address other : Int) : Prop :=
  address % 2 ^ 64 = other % 2 ^ 64

/-- The fields which decide are read from the header which is parsed. -/
def DecidedLocally (past : List Event) : Prop :=
  ∀ field register address header,
    .decides field register address header ∈ past →
      SameAddress address (header + register)

/-- The FIU with this header is an FME or a port of this type. -/
def IsFiu (platform : Platform) (header : Int) (type : DflIdType) : Prop :=
  type = dfhIdToType (dfhId.get (platform.reg header)) ∧
    (type = .fme ∨ type = .port)

/-- A device which an FME or a port has started is committed as such. -/
def TypesKept (platform : Platform) (past : List Event) : Prop :=
  ∀ entry ∈ (devicesOf past).done, ∀ header type,
    entry.1.fiu = some header → IsFiu platform header type →
      entry.2.type = type

/--
The feature at this offset is parsed by its own header: an FIU without a device
before it and a private feature are at the start of the window.
-/
def OwnHeader (platform : Platform) (state : Enumeration) (ofst : Nat) :
    Prop :=
  let type := dfhType.get (platform.reg (state.binfo.ioaddr + ofst))
  type = dfhTypeFiu ∧ state.binfo.type = .max ∨ type = dfhTypePrivate →
    ofst % 2 ^ 64 = 0

instance (platform : Platform) (state : Enumeration) (ofst : Nat) :
    Decidable (OwnHeader platform state ofst) :=
  inferInstanceAs (Decidable (_ ∧ _ ∨ _ → _ = _))

/-- Every feature is parsed by its own header. -/
def OwnHeaders (platform : Platform) (past : List Event) : Prop :=
  ∀ state ofst, .visited state ofst ∈ past → OwnHeader platform state ofst

/-- The header which is visited, if any, is its own. -/
def Event.visitsOwn (platform : Platform) : Event → Bool
  | .visited state ofst => decide (OwnHeader platform state ofst)
  | _ => true

instance (platform : Platform) (past : List Event) :
    Decidable (OwnHeaders platform past) :=
  decidable_of_iff (past.all (Event.visitsOwn platform) = true) <| by
    rw [List.all_eq_true]
    constructor
    · intro all state ofst member
      exact of_decide_eq_true (all _ member)
    · intro own event member
      cases event with
      | visited state ofst => exact decide_eq_true (own state ofst member)
      | _ => rfl

/-- Features are parsed by their own headers, and devices keep their types. -/
def Local (platform : Platform) (past : List Event) : Prop :=
  DecidedLocally past ∧ TypesKept platform past

/-! ## Addresses -/

theorem SameAddress.symm {address other : Int}
    (same : SameAddress address other) : SameAddress other address :=
  Eq.symm same

theorem SameAddress.add {address other : Int}
    (same : SameAddress address other) (register : Int) :
    SameAddress (address + register) (other + register) := by
  unfold SameAddress at same ⊢
  omega

/-- The same register is read at the same address. -/
theorem SameAddress.reg {address other : Int}
    (same : SameAddress address other) :
    platform.reg address = platform.reg other := by
  rw [Platform.reg, same]
  rfl

/-- An offset leads to the start of the window exactly if it is none. -/
theorem sameAddress_start_iff (ioaddr : Int) (ofst : Nat) :
    SameAddress ioaddr (ioaddr + ofst) ↔ ofst % 2 ^ 64 = 0 := by
  unfold SameAddress
  omega

/-- A window which has been switched to starts at the header. -/
theorem sameAddress_switched (start ofst : Nat) :
    SameAddress (Word.add 64 start ofst) (start + ofst) := by
  unfold SameAddress Word.add
  split <;> omega

/-! ## The device which is being built -/

/-- The device has the type of the FIU which started it. -/
structure OfFiu (platform : Platform) (past : List Event)
    (state : Enumeration) : Prop where
  type : ∀ header type, (devicesOf past).current.fiu = some header →
    IsFiu platform header type → state.binfo.type ≠ .max →
      state.binfo.type = type
  /-- The window of an FME or a port starts with an FIU. -/
  fiu : state.binfo.type = .fme ∨ state.binfo.type = .port →
    dfhType.get (platform.reg state.binfo.ioaddr) = dfhTypeFiu

/--
What an enumeration keeps while a feature is parsed by its own header if
`own` holds.
-/
structure Tracked (platform : Platform) (own : Prop) (past : List Event)
    (state : Enumeration) : Prop where
  ioaddr : state.binfo.ioaddr = state.binfo.start
  isLocal : OwnHeaders platform past →
    Local platform past ∧ OfFiu platform past state ∧ own
  isOwn : DecidedLocally past → own → OwnHeaders platform past

/-! ## What each event adds -/

theorem decidedLocally_snoc (past : List Event) (event : Event)
    (other : ∀ field register address header,
      event ≠ .decides field register address header) :
    DecidedLocally (past ++ [event]) ↔ DecidedLocally past := by
  constructor
  · intro decided field register address header member
    exact decided field register address header
      (List.mem_append_left _ member)
  · intro decided field register address header member
    rcases List.mem_append.mp member with earlier | latest
    · exact decided field register address header earlier
    · exact absurd (List.mem_singleton.mp latest).symm (other _ _ _ _)

theorem decidedLocally_decides (past : List Event) (field : Field)
    (register address header : Int) :
    DecidedLocally
        (past ++ [.decides field register address header]) ↔
      DecidedLocally past ∧ SameAddress address (header + register) := by
  constructor
  · intro decided
    exact
      ⟨fun other at_ base own member =>
          decided other at_ base own (List.mem_append_left _ member),
        decided field register address header (by simp)⟩
  · rintro ⟨decided, same⟩ other at_ base own member
    rcases List.mem_append.mp member with earlier | latest
    · exact decided other at_ base own earlier
    · obtain ⟨rfl, rfl, rfl, rfl⟩ :=
        Event.decides.inj (List.mem_singleton.mp latest)
      exact same

theorem ownHeaders_snoc (platform : Platform) (past : List Event)
    (event : Event)
    (other : ∀ state ofst, event ≠ .visited state ofst) :
    OwnHeaders platform (past ++ [event]) ↔ OwnHeaders platform past := by
  constructor
  · intro own state ofst member
    exact own state ofst (List.mem_append_left _ member)
  · intro own state ofst member
    rcases List.mem_append.mp member with earlier | latest
    · exact own state ofst earlier
    · exact absurd (List.mem_singleton.mp latest).symm (other _ _)

theorem ownHeaders_visited (past : List Event) (state : Enumeration)
    (ofst : Nat) :
    OwnHeaders platform (past ++ [.visited state ofst]) ↔
      OwnHeaders platform past ∧ OwnHeader platform state ofst := by
  constructor
  · intro own
    exact
      ⟨fun other at_ member => own other at_ (List.mem_append_left _ member),
        own state ofst (by simp)⟩
  · rintro ⟨earlier, latest⟩ other at_ member
    rcases List.mem_append.mp member with before | now
    · exact earlier other at_ before
    · obtain ⟨rfl, rfl⟩ := Event.visited.inj (List.mem_singleton.mp now)
      exact latest

theorem typesKept_of_done {past events : List Event}
    (done : (devicesOf events).done = (devicesOf past).done) :
    TypesKept platform events ↔ TypesKept platform past := by
  rw [TypesKept, TypesKept, done]

theorem typesKept_committed (past : List Event) (fdata : DflFeatureDevData) :
    TypesKept platform (past ++ [.committed fdata]) ↔
      TypesKept platform past ∧
        ∀ header type, (devicesOf past).current.fiu = some header →
          IsFiu platform header type → fdata.type = type := by
  rw [TypesKept, devicesOf_append_singleton]
  constructor
  · intro kept
    exact
      ⟨fun entry member => kept entry (List.mem_append_left _ member),
        kept ((devicesOf past).current, fdata)
          (List.mem_append_right _ (List.mem_singleton.mpr rfl))⟩
  · rintro ⟨kept, latest⟩ entry member
    rcases List.mem_append.mp member with earlier | now
    · exact kept entry earlier
    · rw [List.mem_singleton.mp now]
      exact latest

/-- What is tracked of other events which say the same. -/
theorem Tracked.of_same {own : Prop} {past events : List Event}
    {state next : Enumeration} (tracked : Tracked platform own past state)
    (ioaddr : next.binfo.ioaddr = next.binfo.start)
    (base : next.binfo.ioaddr = state.binfo.ioaddr)
    (type : next.binfo.type = state.binfo.type)
    (done : (devicesOf events).done = (devicesOf past).done)
    (fiu : (devicesOf events).current.fiu = (devicesOf past).current.fiu)
    (decided : DecidedLocally events ↔ DecidedLocally past)
    (headers : OwnHeaders platform events ↔ OwnHeaders platform past) :
    Tracked platform own events next := by
  refine ⟨ioaddr, ?_, ?_⟩
  · rw [headers]
    intro own
    obtain ⟨⟨decides, kept⟩, device, rest⟩ := tracked.isLocal own
    refine ⟨⟨decided.mpr decides, (typesKept_of_done done).mpr kept⟩, ?_, rest⟩
    exact ⟨by rw [fiu, type]; exact device.type,
      by rw [type, base]; exact device.fiu⟩
  · rw [headers, decided]
    exact tracked.isOwn

/-- Events which say nothing of what is tracked. -/
def Event.Untracked : Event → Prop
  | .read _ | .privateFeature _ _ | .accepted _ _ => True
  | _ => False

theorem Event.Untracked.devices {event : Event} (untracked : event.Untracked)
    (past : List Event) :
    (devicesOf (past ++ [event])).done = (devicesOf past).done ∧
      (devicesOf (past ++ [event])).current.fiu =
        (devicesOf past).current.fiu := by
  rw [devicesOf_append_singleton]
  cases event <;> first | exact ⟨rfl, rfl⟩ | exact absurd untracked id

theorem Tracked.untracked {own : Prop} {past : List Event}
    {state next : Enumeration} (tracked : Tracked platform own past state)
    {event : Event} (untracked : event.Untracked)
    (ioaddr : next.binfo.ioaddr = state.binfo.ioaddr)
    (start : next.binfo.start = state.binfo.start)
    (type : next.binfo.type = state.binfo.type) :
    Tracked platform own (past ++ [event]) next := by
  refine tracked.of_same (by rw [ioaddr, start, tracked.ioaddr]) ioaddr type
    (untracked.devices past).1 (untracked.devices past).2 ?_ ?_
  · refine decidedLocally_snoc past _ ?_
    rintro _ _ _ _ rfl
    exact untracked
  · refine ownHeaders_snoc platform past _ ?_
    rintro _ _ rfl
    exact untracked

/-- A field is decided by the header which is parsed, if it is its own. -/
theorem Tracked.decides {own : Prop} {past : List Event} {state : Enumeration}
    (tracked : Tracked platform own past state) {field : Field}
    {register address header : Int}
    (same : OwnHeaders platform past → own →
      SameAddress address (header + register)) :
    Tracked platform own (past ++ [.decides field register address header])
      state := by
  have devices :
      devicesOf (past ++ [.decides field register address header]) =
        devicesOf past := by
    rw [devicesOf_append_singleton]
    rfl
  have headers :=
    ownHeaders_snoc platform past (.decides field register address header)
      fun _ _ => nofun
  refine ⟨tracked.ioaddr, ?_, ?_⟩
  · rw [headers, Local, decidedLocally_decides,
      typesKept_of_done (congrArg Devices.done devices)]
    intro isOwn
    obtain ⟨⟨decided, kept⟩, device, holds⟩ := tracked.isLocal isOwn
    refine ⟨⟨⟨decided, same isOwn holds⟩, kept⟩, ?_, holds⟩
    exact ⟨by rw [devices]; exact device.type, device.fiu⟩
  · rw [headers, decidedLocally_decides]
    exact fun decided => tracked.isOwn decided.1

/-- Once it is known whether the header is its own, this is settled. -/
theorem Tracked.settle {own : Prop} {past : List Event} {state : Enumeration}
    (tracked : Tracked platform own past state)
    (isOwn : DecidedLocally past → own) :
    Tracked platform True past state := by
  refine ⟨tracked.ioaddr, fun headers => ?_, fun decided _ => ?_⟩
  · obtain ⟨isLocal, device, -⟩ := tracked.isLocal headers
    exact ⟨isLocal, device, trivial⟩
  · exact tracked.isOwn decided (isOwn decided)

theorem ofFiu_of_max {past : List Event} {state : Enumeration}
    (undetected : state.binfo.type = .max) : OfFiu platform past state where
  type _ _ _ _ detected := absurd undetected detected
  fiu isFiu := by
    rw [undetected] at isFiu
    rcases isFiu with impossible | impossible <;> cases impossible

/-- Without a device, the window may be any. -/
theorem Tracked.undetected {own : Prop} {past : List Event}
    {state next : Enumeration} (tracked : Tracked platform own past state)
    (undetected : next.binfo.type = .max)
    (ioaddr : next.binfo.ioaddr = next.binfo.start) :
    Tracked platform own past next := by
  refine ⟨ioaddr, fun headers => ?_, tracked.isOwn⟩
  obtain ⟨isLocal, -, rest⟩ := tracked.isLocal headers
  exact ⟨isLocal, ofFiu_of_max undetected, rest⟩

/-- The device which is being built is committed. -/
theorem Tracked.commit {own : Prop} {past : List Event}
    {before next : Enumeration} (tracked : Tracked platform own past before)
    (detected : before.binfo.type ≠ .max)
    (undetected : next.binfo.type = .max)
    (ioaddr : next.binfo.ioaddr = next.binfo.start) :
    Tracked platform own
      (past ++ [.committed (featureDevData platform before.binfo)]) next := by
  have headers :=
    ownHeaders_snoc platform past
      (.committed (featureDevData platform before.binfo)) fun _ _ => nofun
  have decided :=
    decidedLocally_snoc past
      (.committed (featureDevData platform before.binfo))
      fun _ _ _ _ => nofun
  refine ⟨ioaddr, ?_, ?_⟩
  · rw [headers, Local, decided, typesKept_committed]
    intro isOwn
    obtain ⟨holds, device, rest⟩ := tracked.isLocal isOwn
    refine ⟨⟨holds.1, holds.2, ?_⟩, ofFiu_of_max undetected, rest⟩
    intro header type fiu isFiu
    exact device.type header type fiu isFiu detected
  · rw [headers, decided]
    exact tracked.isOwn

/-- A device is started. -/
theorem Tracked.start {own : Prop} {past : List Event}
    {state next : Enumeration} (tracked : Tracked platform own past state)
    (ioaddr : next.binfo.ioaddr = next.binfo.start) {fiu : Option Int}
    {featureNum : Nat}
    (device :
      OwnHeaders platform past →
        OfFiu platform (past ++ [.started fiu featureNum]) next) :
    Tracked platform own (past ++ [.started fiu featureNum]) next := by
  have headers :=
    ownHeaders_snoc platform past (.started fiu featureNum)
      fun _ _ => nofun
  have decided :=
    decidedLocally_snoc past (.started fiu featureNum) fun _ _ _ _ => nofun
  have done :
      (devicesOf (past ++ [.started fiu featureNum])).done =
        (devicesOf past).done := by
    rw [devicesOf_append_singleton]
    rfl
  refine ⟨ioaddr, ?_, ?_⟩
  · rw [headers, Local, decided, typesKept_of_done done]
    intro isOwn
    obtain ⟨holds, -, rest⟩ := tracked.isLocal isOwn
    exact ⟨holds, device isOwn, rest⟩
  · rw [headers, decided]
    exact tracked.isOwn

/-- A header is reached. -/
theorem Tracked.visit {past : List Event} {state next : Enumeration}
    (tracked : Tracked platform True past state) (ofst : Nat)
    (binfo : next.binfo = state.binfo) :
    Tracked platform (OwnHeader platform state ofst)
      (past ++ [.visited state ofst]) next := by
  have devices :
      devicesOf (past ++ [.visited state ofst]) = devicesOf past := by
    rw [devicesOf_append_singleton]
    rfl
  have decided :=
    decidedLocally_snoc past (.visited state ofst) fun _ _ _ _ => nofun
  refine ⟨by rw [binfo]; exact tracked.ioaddr, ?_, ?_⟩
  · rw [ownHeaders_visited, Local, decided,
      typesKept_of_done (congrArg Devices.done devices)]
    rintro ⟨earlier, latest⟩
    obtain ⟨holds, device, -⟩ := tracked.isLocal earlier
    refine ⟨holds, ⟨?_, ?_⟩, latest⟩
    · rw [devices, binfo]
      exact device.type
    · rw [binfo]
      exact device.fiu
  · rw [ownHeaders_visited, decided]
    exact fun decides latest => ⟨tracked.isOwn decides trivial, latest⟩

/-! ## FIUs -/

/-- Reading a register. -/
def Event.IsRead (event : Event) : Prop := ∃ address, event = .read address

theorem Event.IsRead.untracked {event : Event} (isRead : event.IsRead) :
    event.Untracked := by
  obtain ⟨address, rfl⟩ := isRead
  trivial

theorem isRead_read (address : Int) : (Event.read address).IsRead :=
  ⟨address, rfl⟩

/-- The header which is visited is parsed. -/
def AtVisited (platform : Platform) (seen : Enumeration) (ofst : Nat) :
    BuildAssertion :=
  fun past state =>
    Tracked platform (OwnHeader platform seen ofst) past state ∧
      state.binfo = seen.binfo ∧ state.header = seen.binfo.ioaddr + ofst

theorem stable_atVisited (seen : Enumeration) (ofst : Nat) :
    Stable Event.IsRead (AtVisited platform seen ofst) where
  event past state event isRead holds :=
    ⟨holds.1.untracked isRead.untracked rfl rfl rfl, holds.2⟩
  state past state next binfo header holds := by
    refine ⟨holds.1.of_same ?_ ?_ ?_ rfl rfl Iff.rfl Iff.rfl, ?_, ?_⟩
    · rw [binfo]
      exact holds.1.ioaddr
    · rw [binfo]
    · rw [binfo]
    · rw [binfo, holds.2.1]
    · rw [header, holds.2.2]

/-- What a failed run must have kept. -/
abbrev LocalIffOwn (platform : Platform) : BuildAssertion :=
  fun past _ => Local platform past ↔ OwnHeaders platform past

theorem Tracked.localIffOwn {past : List Event} {state other : Enumeration}
    (tracked : Tracked platform True past state) :
    LocalIffOwn platform past other :=
  ⟨fun isLocal => tracked.isOwn isLocal.1 trivial,
    fun headers => (tracked.isLocal headers).1⟩

/-- The header of an FIU, which is at the start of the window if it is own. -/
structure AtFiu (platform : Platform) (own : Prop) (past : List Event)
    (state : Enumeration) : Prop where
  tracked : Tracked platform own past state
  isFiu : dfhType.get (platform.reg state.header) = dfhTypeFiu
  same : OwnHeaders platform past →
    SameAddress state.binfo.ioaddr state.header

theorem AtFiu.untracked {own : Prop} {past : List Event}
    {state next : Enumeration} (atFiu : AtFiu platform own past state)
    {event : Event} (untracked : event.Untracked)
    (ioaddr : next.binfo.ioaddr = state.binfo.ioaddr)
    (start : next.binfo.start = state.binfo.start)
    (type : next.binfo.type = state.binfo.type)
    (header : next.header = state.header) :
    AtFiu platform own (past ++ [event]) next where
  tracked := atFiu.tracked.untracked untracked ioaddr start type
  isFiu := by
    rw [header]
    exact atFiu.isFiu
  same := by
    rw [ioaddr, header, ownHeaders_snoc platform past event]
    · exact atFiu.same
    · rintro _ _ rfl
      exact untracked

theorem stable_atFiu {own : Prop} :
    Stable Event.IsRead (AtFiu platform own) where
  event past state event isRead atFiu :=
    atFiu.untracked isRead.untracked rfl rfl rfl rfl
  state past state next binfo header atFiu := by
    refine ⟨?_, ?_, ?_⟩
    · refine atFiu.tracked.of_same ?_ ?_ ?_ rfl rfl Iff.rfl Iff.rfl
      · rw [binfo]
        exact atFiu.tracked.ioaddr
      · rw [binfo]
      · rw [binfo]
    · rw [header]
      exact atFiu.isFiu
    · rw [binfo, header]
      exact atFiu.same

theorem accepts_atFiu {own : Prop} (ofst : Nat) :
    Accepts (AtFiu platform own) ofst :=
  fun _ _ _ _ atFiu _ => atFiu.untracked trivial rfl rfl rfl rfl

/-- What the header of the FIU decides is read at the start of the window. -/
theorem AtFiu.decides {own : Prop} {past : List Event} {state : Enumeration}
    (atFiu : AtFiu platform own past state) (field : Field) (register : Int) :
    AtFiu platform own
      (past ++
        [.decides field register (state.binfo.ioaddr + register)
          state.header]) state where
  tracked := atFiu.tracked.decides fun headers _ =>
    (atFiu.same headers).add register
  isFiu := atFiu.isFiu
  same := by
    have headers :=
      ownHeaders_snoc platform past
        (.decides field register (state.binfo.ioaddr + register) state.header)
        fun _ _ => nofun
    rw [headers]
    exact atFiu.same

theorem decides_atFiu {own : Prop} : Decides (AtFiu platform own) 0 := by
  intro past state field _ atFiu
  exact atFiu.decides field dfh

theorem switchFiu_reachesHeader {seen : Enumeration} {ofst : Nat}
    (isFiu : dfhType.get (platform.reg (seen.binfo.ioaddr + ofst)) =
      dfhTypeFiu) :
    Triple (AtVisited platform seen ofst) (switchFiu platform ofst)
      (fun _ past state =>
        AtFiu platform (OwnHeader platform seen ofst) past state ∧
          (SameAddress state.binfo.ioaddr state.header →
            OwnHeader platform seen ofst) ∧
          state.binfo.type = .max)
      (LocalIffOwn platform) := by
  have notPrivate :
      dfhType.get (platform.reg (seen.binfo.ioaddr + ofst)) ≠
        dfhTypePrivate := by
    rw [isFiu]
    decide
  by_cases undetected : seen.binfo.type = .max
  · refine Triple.withState fun now => ?_
    split
    · rename_i detected
      rintro past state ⟨⟨-, binfo, -⟩, rfl⟩
      exact absurd (binfo ▸ undetected) detected
    · refine Triple.ret ?_
      rintro past state ⟨⟨tracked, binfo, header⟩, rfl⟩
      refine ⟨⟨tracked, by rw [header]; exact isFiu, fun headers => ?_⟩, ?_,
        binfo ▸ undetected⟩
      · rw [binfo, header, sameAddress_start_iff]
        exact (tracked.isLocal headers).2.2 (.inl ⟨isFiu, undetected⟩)
      · rw [binfo, header, sameAddress_start_iff]
        exact fun start _ => start
  · -- A device which is there is committed, and the window moves to the FIU.
    have own : OwnHeader platform seen ofst := by
      rintro (fiu | isPrivate)
      · exact absurd fiu.2 undetected
      · exact absurd isPrivate notPrivate
    refine (stable_atVisited seen ofst).switchFiu_switches ?_ ?_
      (fun past before state holds =>
        (holds.1.settle fun _ => own).localIffOwn)
      (fun past before state holds =>
        (holds.1.tracked.settle fun _ => own).localIffOwn)
    · rintro past state ⟨-, binfo, -⟩ none
      exact absurd (binfo ▸ none) undetected
    · rintro past before next ⟨tracked, binfo, header⟩ detected sameHeader
        switched
      have type : next.binfo.type = .max := by
        rw [switched]
        rfl
      have ioaddr :
          next.binfo.ioaddr = Word.add 64 before.binfo.start ofst := by
        rw [switched]
        rfl
      have start :
          next.binfo.start = Word.add 64 before.binfo.start ofst := by
        rw [switched]
        rfl
      have atHeader : next.header = before.binfo.start + ofst := by
        rw [sameHeader, header, ← binfo, tracked.ioaddr]
      refine ⟨⟨tracked.commit detected type (by rw [ioaddr, start]), ?_,
        fun _ => ?_⟩, fun _ => own, type⟩
      · rw [sameHeader, header]
        exact isFiu
      · rw [ioaddr, atHeader]
        exact sameAddress_switched _ _

/-- The id of an FIU is read, which settles whether its header is its own. -/
theorem AtFiu.identify {own : Prop} {past : List Event} {state : Enumeration}
    (atFiu : AtFiu platform own past state)
    (enough : SameAddress state.binfo.ioaddr state.header → own) :
    AtFiu platform True
      (past ++ [.read (state.binfo.ioaddr + dfh)] ++
        [.decides dfhId dfh (state.binfo.ioaddr + dfh) state.header])
      state := by
  have read :
      AtFiu platform own (past ++ [.read (state.binfo.ioaddr + dfh)]) state :=
    atFiu.untracked trivial rfl rfl rfl rfl
  have decided := read.decides dfhId dfh
  refine ⟨decided.tracked.settle fun decides => enough ?_, decided.isFiu,
    decided.same⟩
  have same := ((decidedLocally_decides _ _ _ _ _).mp decides).2
  rwa [dfh, Int.add_zero, Int.add_zero] at same

/-- The device of an FIU is started with the type of its header. -/
theorem AtFiu.begin {past : List Event} {state : Enumeration}
    (atFiu : AtFiu platform True past state) {type : DflIdType}
    (isType :
      type = dfhIdToType
        (dfhId.get (platform.reg (state.binfo.ioaddr + dfh)))) :
    AtFiu platform True (past ++ [.started (some state.header) 0])
      (state.withBinfo fun binfo => binfo.begun type) := by
  rw [dfh, Int.add_zero] at isType
  have device (headers : OwnHeaders platform past) :
      OfFiu platform (past ++ [.started (some state.header) 0])
        (state.withBinfo fun binfo => binfo.begun type) := by
    have sameReg :
        platform.reg state.binfo.ioaddr = platform.reg state.header :=
      (atFiu.same headers).reg
    have fiu :
        (devicesOf (past ++ [.started (some state.header) 0])).current.fiu =
          some state.header := by
      rw [devicesOf_append_singleton]
      rfl
    refine ⟨?_, fun _ => ?_⟩
    · intro header other isFiu isOther _
      rw [fiu] at isFiu
      rw [← Option.some.inj isFiu, IsFiu, ← sameReg] at isOther
      exact isType.trans isOther.1.symm
    · show dfhType.get (platform.reg state.binfo.ioaddr) = dfhTypeFiu
      rw [sameReg]
      exact atFiu.isFiu
  have headers :=
    ownHeaders_snoc platform past (.started (some state.header) 0)
      fun _ _ => nofun
  refine ⟨?_, atFiu.isFiu, ?_⟩
  · refine atFiu.tracked.start ?_ device
    exact atFiu.tracked.ioaddr
  · rw [headers]
    exact atFiu.same

/-- The offset of the next AFU is read. -/
theorem AtFiu.findNext {past : List Event} {state : Enumeration}
    (atFiu : AtFiu platform True past state) :
    Tracked platform True
      (past ++ [.read (state.binfo.ioaddr + nextAfu)] ++
        [.decides nextAfuNextDfhOfst nextAfu (state.binfo.ioaddr + nextAfu)
          state.header]) state := by
  have read :
      AtFiu platform True
        (past ++ [.read (state.binfo.ioaddr + nextAfu)]) state :=
    atFiu.untracked trivial rfl rfl rfl rfl
  exact (read.decides nextAfuNextDfhOfst nextAfu).tracked

theorem stable_tracked {own : Prop} :
    Stable Event.IsRead (Tracked platform own) where
  event past state event isRead tracked :=
    tracked.untracked isRead.untracked rfl rfl rfl
  state past state next binfo _ tracked := by
    refine tracked.of_same ?_ ?_ ?_ rfl rfl Iff.rfl Iff.rfl
    · rw [binfo]
      exact tracked.ioaddr
    · rw [binfo]
    · rw [binfo]

theorem accepts_tracked {own : Prop} (ofst : Nat) :
    Accepts (Tracked platform own) ofst :=
  fun _ _ _ _ tracked _ => tracked.untracked trivial rfl rfl rfl

theorem parseFeatureAfu_tracked (ofst : Nat) :
    Triple (Tracked platform True) (parseFeatureAfu platform ofst)
      (fun _ => Tracked platform True) (LocalIffOwn platform) :=
  (stable_tracked.keeps_parseFeatureAfu isRead_read
    (accepts_tracked ofst)).of_fails fun _ _ tracked => tracked.localIffOwn

theorem parseFeatureFiu_tracked {seen : Enumeration} {ofst : Nat}
    (isFiu : dfhType.get (platform.reg (seen.binfo.ioaddr + ofst)) =
      dfhTypeFiu) :
    Triple (AtVisited platform seen ofst) (parseFeatureFiu platform ofst)
      (fun _ => Tracked platform True) (LocalIffOwn platform) := by
  have creates (now : Enumeration) :
      Keeps (Located (AtFiu platform True) now)
        (createFeatureInstance platform 0 0 0) :=
    stable_atFiu.located_createFeatureInstance isRead_read (accepts_atFiu 0)
      (fun _ => decides_atFiu) 0 now
  have rule :
      FiuRule platform ofst (AtVisited platform seen ofst)
        (fun past state =>
          AtFiu platform (OwnHeader platform seen ofst) past state ∧
            (SameAddress state.binfo.ioaddr state.header →
              OwnHeader platform seen ofst) ∧
            state.binfo.type = .max)
        (AtFiu platform True) (AtFiu platform True) (AtFiu platform True)
        (Tracked platform True) (Tracked platform True)
        (LocalIffOwn platform) :=
    { switches := switchFiu_reachesHeader isFiu
      identifies := fun past state holds => holds.1.identify holds.2.1
      begins := fun past state holds type isType _ => holds.begin isType
      creates := fun now =>
        (creates now).of_fails fun past state holds =>
          holds.1.tracked.localIffOwn
      finds := fun past state atFiu => atFiu.findNext
      afu := fun offset =>
        (parseFeatureAfu_tracked offset).of_pre fun _ _ => And.left
      ends := fun _ _ => id
      failing := fun past state holds => holds.tracked.localIffOwn }
  exact rule.parseFeatureFiu

/-! ## Private features -/

/-- The version of a private feature is read at the start of the window. -/
theorem AtVisited.readVersion {seen : Enumeration} {ofst : Nat}
    {past : List Event} {state : Enumeration}
    (holds : AtVisited platform seen ofst past state)
    (isPrivate : dfhType.get (platform.reg (seen.binfo.ioaddr + ofst)) =
      dfhTypePrivate) :
    Tracked platform (OwnHeader platform seen ofst)
        (past ++ state.versionEvents) state ∧
      (DecidedLocally (past ++ state.versionEvents) →
        OwnHeader platform seen ofst) := by
  obtain ⟨tracked, binfo, header⟩ := holds
  have events :
      past ++ state.versionEvents =
        past ++ [.read (state.binfo.ioaddr + dfh)] ++
          [.decides dfhVersion dfh (state.binfo.ioaddr + dfh) state.header] ++
          [.privateFeature state.binfo.type state.binfo.ioaddr] := by
    simp [Enumeration.versionEvents]
  have read :
      Tracked platform (OwnHeader platform seen ofst)
        (past ++ [.read (state.binfo.ioaddr + dfh)]) state :=
    tracked.untracked trivial rfl rfl rfl
  have same :
      SameAddress (state.binfo.ioaddr + dfh) (state.header + dfh) ↔
        ofst % 2 ^ 64 = 0 := by
    rw [dfh, Int.add_zero, Int.add_zero, binfo, header, sameAddress_start_iff]
  have decided :
      Tracked platform (OwnHeader platform seen ofst)
        (past ++ [.read (state.binfo.ioaddr + dfh)] ++
          [.decides dfhVersion dfh (state.binfo.ioaddr + dfh) state.header])
        state :=
    read.decides fun _ own => same.mpr (own (.inr isPrivate))
  rw [events]
  refine ⟨decided.untracked trivial rfl rfl rfl, fun decides _ => ?_⟩
  have earlier :=
    (decidedLocally_snoc _
      (.privateFeature state.binfo.type state.binfo.ioaddr)
      (by rintro _ _ _ _ ⟨⟩)).mp decides
  exact same.mp ((decidedLocally_decides _ _ _ _ _).mp earlier).2

/-- A device is started for a private feature. -/
theorem Tracked.startPrivate {own : Prop} {past : List Event}
    {state next : Enumeration} {featureNum : Nat}
    (tracked : Tracked platform own past state)
    (ioaddr : next.binfo.ioaddr = next.binfo.start)
    (isPrivate : next.binfo.type = .privFeat) :
    Tracked platform own (past ++ [.started none featureNum]) next := by
  refine tracked.start ioaddr (fun _ => ⟨?_, ?_⟩)
  · intro header type fiu
    rw [devicesOf_append_singleton] at fiu
    cases fiu
  · intro isFiu
    rw [isPrivate] at isFiu
    rcases isFiu with impossible | impossible <;> cases impossible

/--
A device which is there becomes one of a private feature.  A private feature
which has its own header is not in the window of an FME or a port.
-/
theorem Tracked.rewrite {seen : Enumeration} {ofst : Nat}
    {past : List Event} {state next : Enumeration}
    (tracked : Tracked platform (OwnHeader platform seen ofst) past state)
    (isPrivate : dfhType.get (platform.reg (seen.binfo.ioaddr + ofst)) =
      dfhTypePrivate)
    (base : state.binfo.ioaddr = seen.binfo.ioaddr)
    (detected : state.binfo.type ≠ .max)
    (ioaddr : next.binfo.ioaddr = next.binfo.start)
    (rewritten : next.binfo.type = .privFeat) :
    Tracked platform (OwnHeader platform seen ofst) past next := by
  refine ⟨ioaddr, fun headers => ?_, tracked.isOwn⟩
  obtain ⟨isLocal, device, own⟩ := tracked.isLocal headers
  have start :
      platform.reg state.binfo.ioaddr =
        platform.reg (seen.binfo.ioaddr + ofst) := by
    rw [base]
    exact ((sameAddress_start_iff _ _).mpr (own (.inr isPrivate))).reg
  have other : ¬ (state.binfo.type = .fme ∨ state.binfo.type = .port) := by
    intro isDevice
    have isFiu := device.fiu isDevice
    rw [start, isPrivate] at isFiu
    cases isFiu
  refine ⟨isLocal, ⟨?_, ?_⟩, own⟩
  · intro header type fiu isFiu _
    have isType := device.type header type fiu isFiu detected
    exact absurd (isType ▸ isFiu.2) other
  · intro isFiu
    rw [rewritten] at isFiu
    rcases isFiu with impossible | impossible <;> cases impossible

/-- A private feature whose header is where it is said to be. -/
def AtOwnHeader (platform : Platform) (ofst : Nat) : BuildAssertion :=
  fun past state =>
    Tracked platform True past state ∧
      state.header = state.binfo.ioaddr + ofst

theorem keeps_atOwnHeader (ofst size fid : Nat) :
    Keeps (AtOwnHeader platform ofst)
      (createFeatureInstance platform ofst size fid) := by
  have stable : Stable Event.IsRead (AtOwnHeader platform ofst) :=
    { event := fun past state event isRead holds =>
        ⟨stable_tracked.event past state event isRead holds.1, holds.2⟩
      state := fun past state next binfo header holds =>
        ⟨stable_tracked.state past state next binfo header holds.1, by
          rw [binfo, header, holds.2]⟩ }
  refine stable.keeps_createFeatureInstance isRead_read
    (fun past state finfo placement holds placed =>
      ⟨accepts_tracked ofst past state finfo placement holds.1 placed,
        holds.2⟩) (fun _ => ?_) size
  intro past state field _ holds
  refine ⟨holds.1.decides fun _ _ => ?_, holds.2⟩
  rw [holds.2, dfh, Int.add_zero]
  rfl

theorem parseFeaturePrivate_tracked {seen : Enumeration} {ofst : Nat}
    (isPrivate : dfhType.get (platform.reg (seen.binfo.ioaddr + ofst)) =
      dfhTypePrivate) :
    Triple (AtVisited platform seen ofst) (parseFeaturePrivate platform ofst)
      (fun _ => Tracked platform True) (LocalIffOwn platform) := by
  have rule :
      PrivateRule platform ofst (AtVisited platform seen ofst)
        (AtOwnHeader platform ofst) (Tracked platform True)
        (LocalIffOwn platform) := by
    refine
      { versions := fun past state holds => ?_
        complains := fun past state holds _ => ?_
        creates :=
          (keeps_atOwnHeader ofst 0 0).mono (fun _ _ => id)
            (fun _ _ _ => And.left)
            fun past state holds => holds.1.localIffOwn }
    · obtain ⟨tracked, settles⟩ := holds.readVersion isPrivate
      obtain ⟨-, binfo, header⟩ := holds
      have own := tracked.ioaddr
      have atHeader : state.header = state.binfo.ioaddr + ofst := by
        rw [header, binfo]
      refine ⟨fun _ _ => ⟨tracked.settle settles, atHeader⟩,
        fun _ => ⟨?_, atHeader⟩⟩
      split
      · refine (tracked.settle settles).startPrivate ?_ rfl
        exact own
      · rename_i detected
        rw [List.append_nil]
        have rewritten :
            Tracked platform (OwnHeader platform seen ofst)
              (past ++ state.versionEvents)
              (state.withBinfo fun binfo => { binfo with type := .privFeat }) :=
          tracked.rewrite isPrivate (by rw [binfo]) detected own rfl
        exact rewritten.settle settles
    · obtain ⟨tracked, settles⟩ := holds.readVersion isPrivate
      have settled := tracked.settle settles
      have complained :
          Tracked platform True
            (past ++ state.versionEvents ++
              [.read (state.binfo.ioaddr + ofst)]) state :=
        settled.untracked trivial rfl rfl rfl
      exact complained.localIffOwn
  exact rule.parseFeaturePrivate

/-! ## The walk -/

theorem parseFeature_tracked (seen : Enumeration) (ofst : Nat) :
    Triple (fun past state => Tracked platform True past state ∧ state = seen)
      (parseFeature platform ofst) (fun _ => Tracked platform True)
      (LocalIffOwn platform) := by
  let parsing : BuildAssertion := fun past state =>
    Tracked platform (OwnHeader platform seen ofst) past state ∧
      state.binfo = seen.binfo
  have other {past : List Event} {state : Enumeration}
      (holds : parsing past state)
      (notPrivate :
        dfhType.get (platform.reg (state.binfo.ioaddr + ofst + dfh)) ≠
          dfhTypePrivate)
      (notFiu :
        dfhType.get (platform.reg (state.binfo.ioaddr + ofst + dfh)) ≠
          dfhTypeFiu) : Tracked platform True past state := by
    rw [dfh, Int.add_zero, holds.2] at notPrivate notFiu
    refine holds.1.settle fun _ => ?_
    rintro (fiu | isPrivate)
    · exact absurd fiu.1 notFiu
    · exact absurd isPrivate notPrivate
  have visited {past : List Event} {state : Enumeration} {type : Nat}
      (holds : parsing past state ∧
        state.header = state.binfo.ioaddr + ofst ∧
          dfhType.get (platform.reg (state.binfo.ioaddr + ofst + dfh)) =
            type) :
      AtVisited platform seen ofst past state := by
    obtain ⟨⟨tracked, binfo⟩, header, -⟩ := holds
    exact ⟨tracked, binfo, header.trans (by rw [binfo])⟩
  have rule :
      FeatureRule platform ofst
        (fun past state => Tracked platform True past state ∧ state = seen)
        parsing (Tracked platform True) (LocalIffOwn platform) := by
    refine
      { visits := ?_
        afu := ?_
        private_ := ?_
        fiu := ?_
        ignores := fun past state holds _ => other holds }
    · rintro past state ⟨tracked, rfl⟩
      refine ⟨?_, rfl⟩
      have reached :
          Tracked platform (OwnHeader platform state ofst)
            (past ++ [.visited state ofst]) (state.atHeader ofst) :=
        tracked.visit ofst rfl
      exact reached.untracked trivial rfl rfl rfl
    · refine (parseFeatureAfu_tracked ofst).of_pre ?_
      rintro past state ⟨holds, -, isAfu⟩
      exact other holds (by rw [isAfu]; decide) (by rw [isAfu]; decide)
    · by_cases isPrivate :
          dfhType.get (platform.reg (seen.binfo.ioaddr + ofst)) =
            dfhTypePrivate
      · exact (parseFeaturePrivate_tracked isPrivate).of_pre
          fun _ _ => visited
      · rintro past state ⟨holds, -, impossible⟩
        rw [dfh, Int.add_zero, holds.2] at impossible
        exact absurd impossible isPrivate
    · by_cases isFiu :
          dfhType.get (platform.reg (seen.binfo.ioaddr + ofst)) = dfhTypeFiu
      · exact (parseFeatureFiu_tracked isFiu).of_pre fun _ _ => visited
      · rintro past state ⟨holds, -, impossible⟩
        rw [dfh, Int.add_zero, holds.2] at impossible
        exact absurd impossible isFiu
  exact rule.parseFeature

/-- No device is being built. -/
def Finished (platform : Platform) : BuildAssertion :=
  fun past state => Tracked platform True past state ∧ state.binfo.type = .max

theorem stable_finished : Stable Event.IsRead (Finished platform) where
  event past state event isRead holds :=
    ⟨stable_tracked.event past state event isRead holds.1, holds.2⟩
  state past state next binfo header holds :=
    ⟨stable_tracked.state past state next binfo header holds.1,
      binfo ▸ holds.2⟩

theorem parseFeatureList_tracked (start len : Nat) :
    Triple (Finished platform) (parseFeatureList platform start len)
      (fun _ => Finished platform) (LocalIffOwn platform) := by
  have prepares :
      Triple (Finished platform) (buildInfoPrepare platform start len)
        (fun _ => Tracked platform True) (LocalIffOwn platform) := by
    refine (stable_finished.buildInfoPrepare_prepares ?_).of_fails
      fun _ _ holds => holds.1.localIffOwn
    intro past before next holds _ binfo
    refine holds.1.undetected ?_ ?_
    · rw [binfo]
      exact holds.2
    · rw [binfo]
      rfl
  have walks :
      ListRule platform (Word.add 64 start len)
        (fun _ => Tracked platform True) (fun _ => Tracked platform True)
        (Tracked platform True) (LocalIffOwn platform) :=
    { parses := fun _ _ _ seen => parseFeature_tracked seen _
      follows := fun start past state tracked =>
        ⟨fun _ => tracked.untracked trivial rfl rfl rfl,
          tracked.untracked trivial rfl rfl rfl⟩
      ends := fun _ _ _ _ => id
      failing := fun _ _ _ tracked => tracked.localIffOwn }
  refine Triple.bind prepares fun _ =>
    Triple.bind (walks.parseFeatureListLoop _ _) fun _ => ?_
  refine Triple.withState fun seen => ?_
  split
  · have commits :
        Triple (Tracked platform True) (buildInfoCommitDev platform)
          (fun _ => Finished platform) (LocalIffOwn platform) := by
      refine stable_tracked.buildInfoCommitDev_commits ?_
        fun past before state tracked => tracked.localIffOwn
      intro past before next tracked detected _ binfo
      have type : next.binfo.type = .max := by
        rw [binfo]
        rfl
      refine ⟨tracked.commit detected type ?_, type⟩
      rw [binfo]
      exact tracked.ioaddr
    exact commits.of_pre fun _ _ => And.left
  · rename_i undetected
    refine Triple.ret ?_
    rintro past state ⟨tracked, rfl⟩
    exact ⟨tracked, not_ne_iff.mp undetected⟩

theorem parseFeatureLists_tracked (dfls : List DflFpgaEnumDfl) :
    Triple (Finished platform) (parseFeatureLists platform dfls)
      (fun _ => Finished platform) (LocalIffOwn platform) := by
  induction dfls with
  | nil => exact Triple.ret fun _ _ => id
  | cons dfl rest induction =>
      exact Triple.bind (parseFeatureList_tracked _ _) fun _ => induction

theorem finished_initial (platform : Platform) (nrIrqs : Nat) :
    Finished platform [] (initialEnumeration nrIrqs) := by
  have nothing : (devicesOf []).done = [] := rfl
  have isLocal : Local platform [] := by
    refine ⟨fun _ _ _ _ member => absurd member List.not_mem_nil, ?_⟩
    rw [TypesKept, nothing]
    exact fun _ member => absurd member List.not_mem_nil
  have undetected : (initialEnumeration nrIrqs).binfo.type = .max := rfl
  refine ⟨⟨rfl, fun _ => ⟨isLocal, ofFiu_of_max undetected, trivial⟩, ?_⟩,
    undetected⟩
  exact fun _ _ _ _ member => absurd member List.not_mem_nil

theorem enumerate_tracked (platform : Platform)
    (dfls : List DflFpgaEnumDfl) :
    Triple (Finished platform)
      (do
        alloc platform
        call platform
        alloc platform
        parseFeatureLists platform dfls)
      (fun _ => Finished platform) (LocalIffOwn platform) := by
  have quietly {program : Build Unit}
      (keeps : Keeps (Finished platform) program) :
      Triple (Finished platform) program (fun _ => Finished platform)
        (LocalIffOwn platform) :=
    keeps.of_fails fun _ _ holds => holds.1.localIffOwn
  exact
    Triple.bind (quietly stable_finished.keeps_alloc) fun _ =>
      Triple.bind (quietly stable_finished.keeps_call) fun _ =>
        Triple.bind (quietly stable_finished.keeps_alloc) fun _ =>
          parseFeatureLists_tracked dfls

/--
The fields which decide are read from the header of the feature, and devices
keep the type of their FIU, exactly if every feature is parsed by its own
header: at the start of the window, or as an FIU behind another device.
-/
theorem enumerate_local_iff_own (platform : Platform) (nrIrqs : Nat)
    (dfls : List DflFpgaEnumDfl) :
    let run := dflFpgaFeatureDevsEnumerate platform nrIrqs dfls
    Local platform run.events ↔ OwnHeaders platform run.events := by
  intro run
  have always :=
    (enumerate_tracked platform dfls).mono (fun _ _ => id)
      (fun _ past state holds =>
        (holds.1.localIffOwn : LocalIffOwn platform past state))
      fun _ _ => id
  exact always.always (finished_initial platform nrIrqs)

/-- Two headers, the first of them at the start of the list. -/
def twoHeaders (first second : BitVec 64) : Platform where
  mmio address :=
    if address = 0x10000 then first
    else if address = 0x11000 then second
    else 0
  external _ := none
  irqTable _ := 0
  nrIrqsMax := 0
  beyond := 0
  fuel := 2

theorem oneList_start : 0x10000 < 2 ^ 64 := by decide

theorem oneList_len : 0x2000 < 2 ^ 64 := by decide

def oneList : List DflFpgaEnumDfl :=
  [⟨0x10000, 0x2000, oneList_start, oneList_len⟩]

/-- An FME and the port behind it are each parsed by their own header. -/
theorem port_behind_fme_local :
    let platform := twoHeaders 0x4000000010000000 0x4000010000000001
    let run := dflFpgaFeatureDevsEnumerate platform 0 oneList
    run.result = .ok () ∧ Local platform run.events :=
  ⟨by decide,
    (enumerate_local_iff_own _ 0 oneList).mpr (by decide)⟩

/-- An FME behind an interface with the id of a port is committed as a port. -/
theorem fme_behind_interface_committed_as_port :
    let platform := twoHeaders 0x5000000010000001 0x4000010000000000
    let run := dflFpgaFeatureDevsEnumerate platform 0 oneList
    run.result = .ok () ∧ ¬ Local platform run.events := by
  refine ⟨by decide, fun isLocal => ?_⟩
  have committed :
      (devicesOf
          (dflFpgaFeatureDevsEnumerate
            (twoHeaders 0x5000000010000001 0x4000010000000000) 0
            oneList).events).done.map
          (fun entry => (entry.1.fiu, entry.2.type)) =
        [(some 0x11000, .port)] := by decide
  obtain ⟨entry, member, isPort⟩ :=
    List.mem_map.mp (committed ▸ List.mem_singleton.mpr rfl)
  obtain ⟨fiu, type⟩ := Prod.mk.inj isPort
  have isFme :
      IsFiu (twoHeaders 0x5000000010000001 0x4000010000000000) 0x11000
        .fme := by
    refine ⟨?_, .inl rfl⟩
    decide
  have kept := isLocal.2 entry member 0x11000 .fme fiu isFme
  rw [type] at kept
  cases kept

end LinuxDfl.Dfl

import LinuxDfl.Dfl.Header
import LinuxDfl.Kernel.Errno
import LinuxDfl.Kernel.Word
import Mathlib.Data.List.Basic
import Mathlib.Data.List.Nodup

/-!
# Where the lists are

A PCI device says in a vendor-specific capability where its device feature
lists start, or else they are found from the header at the start of BAR 0.
Each becomes a window up to the end of its BAR.
-/

namespace LinuxDfl.Dfl.Discovery

open LinuxDfl.Kernel

/-! ## The device -/

/-- `PCI_STD_NUM_BARS` -/
def pciStdNumBars : Nat := 6

/-- A BAR, as a range of addresses. -/
structure Bar where
  start : Nat
  len : Nat
  fits : start + len ≤ 2 ^ 64

/-- `struct dfl_fpga_enum_dfl` -/
structure Window where
  start : Nat
  len : Nat
  deriving DecidableEq, Repr

/-- `struct pci_dev`, whose BAR 0 can be mapped. -/
structure PciDev where
  /-- Where `pci_find_vsec_capability` finds the DFL VSEC. -/
  vsec : Option Nat
  config : Nat → BitVec 32
  bars : Nat → Bar
  /-- The registers of BAR 0. -/
  mmio : Nat → BitVec 64
  mapped : (bars 0).len ≠ 0

variable (dev : PciDev)

/-- `dfl_fpga_enum_info_add_dfl` -/
def enumInfoAddDfl (dfls : List Window) (start len : Nat) : List Window :=
  dfls ++ [{ start := start, len := len }]

/-! ## By the capability -/

/-- `PCI_VNDR_DFLS_CNT` -/
def pciVndrDflsCnt : Nat := 0x8

/-- `PCI_VNDR_DFLS_RES` -/
def pciVndrDflsRes : Nat := 0xc

/-- `PCI_VNDR_DFLS_RES_BAR_MASK` -/
def pciVndrDflsResBarMask : BitVec 32 := 0x7

/-- `PCI_VNDR_DFLS_RES_OFF_MASK` -/
def pciVndrDflsResOffMask : BitVec 32 := 0xfffffff8

/-- `PCI_CFG_SPACE_EXP_SIZE` -/
def pciCfgSpaceExpSize : Nat := 4096

/-- The loop of `find_dfls_by_vsec`, with this many entries left. -/
def vsecLoop :
    Nat → Nat → BitVec 32 → List Window → Option Errno × List Window
  | 0, _, _, dfls => (none, dfls)
  | left + 1, dflResOff, bars, dfls =>
      let dflRes := dev.config dflResOff
      let bir := (dflRes &&& pciVndrDflsResBarMask).toNat
      if bir ≥ pciStdNumBars then (some .einval, dfls)
      else if bars.getLsbD bir then (some .einval, dfls)
      else
        let bars := bars ||| BitVec.twoPow 32 bir
        let len := (dev.bars bir).len
        let offset := (dflRes &&& pciVndrDflsResOffMask).toNat
        if offset ≥ len then (some .einval, dfls)
        else
          let len := Word.sub 64 len offset
          let start := Word.add 64 (dev.bars bir).start offset
          vsecLoop left (dflResOff + 4) bars (enumInfoAddDfl dfls start len)

/-- `find_dfls_by_vsec` -/
def findDflsByVsec (dfls : List Window) : Option Errno × List Window :=
  match dev.vsec with
  | none => (some .enodev, dfls)
  | some voff =>
      let dflCnt := (dev.config (voff + pciVndrDflsCnt)).toNat
      let dflResOff := voff + pciVndrDflsRes
      if dflCnt > pciStdNumBars then (some .einval, dfls)
      else if dflResOff + dflCnt * 4 > pciCfgSpaceExpSize then
        (some .einval, dfls)
      else vsecLoop dev dflCnt dflResOff 0 dfls

/-! ## By the header -/

/-- `FME_HDR_CAP` -/
def fmeHdrCap : Nat := 0x30

/-- `FME_HDR_PORT_OFST` -/
def fmeHdrPortOfst (n : Nat) : Nat := 0x38 + n * 0x8

/-- `FME_CAP_NUM_PORTS` -/
def fmeCapNumPorts : Field := genmask 19 17

/-- `FME_PORT_OFST_DFH_OFST` -/
def fmePortOfstDfhOfst : Field := genmask 23 0

/-- `FME_PORT_OFST_BAR_ID` -/
def fmePortOfstBarId : Field := genmask 34 32

/-- `FME_PORT_OFST_BAR_SKIP` -/
def fmePortOfstBarSkip : Nat := 7

/-- `FME_PORT_OFST_IMP` -/
def fmePortOfstImp : Field := bit 60

/-- The DFH at the start of BAR 0. -/
def PciDev.dfh : BitVec 64 := dev.mmio 0

/-- `dfl_feature_is_fme` -/
def dflFeatureIsFme : Bool :=
  dfhType.get dev.dfh == dfhTypeFiu && dfhId.get dev.dfh == dfhIdFiuFme

/-- `dfl_feature_is_port` -/
def dflFeatureIsPort : Bool :=
  dfhType.get dev.dfh == dfhTypeFiu && dfhId.get dev.dfh == dfhIdFiuPort

/-- `dfl_feature_is_private` -/
def dflFeatureIsPrivate : Bool := dfhType.get dev.dfh == dfhTypePrivate

/-- The loop of `find_dfls_by_default`, with this many ports left. -/
def portLoop :
    Nat → Nat → BitVec 32 → List Window → Option Errno × List Window
  | 0, _, _, dfls => (none, dfls)
  | left + 1, i, bars, dfls =>
      let v := dev.mmio (fmeHdrPortOfst i)
      if fmePortOfstImp.get v = 0 then portLoop left (i + 1) bars dfls
      else
        let bar := fmePortOfstBarId.get v
        let offset := fmePortOfstDfhOfst.get v
        if bar = fmePortOfstBarSkip then portLoop left (i + 1) bars dfls
        else if bar ≥ pciStdNumBars then (some .einval, dfls)
        else if bars.getLsbD bar then portLoop left (i + 1) bars dfls
        else
          let start := Word.add 64 (dev.bars bar).start offset
          let len := (dev.bars bar).len
          if offset ≥ len then portLoop left (i + 1) bars dfls
          else
            let len := Word.sub 64 len offset
            portLoop left (i + 1) (bars ||| BitVec.twoPow 32 bar)
              (enumInfoAddDfl dfls start len)

/-- `port_num` -/
def portNum : Nat := fmeCapNumPorts.get (dev.mmio fmeHdrCap)

/-- `find_dfls_by_default` -/
def findDflsByDefault (dfls : List Window) : Option Errno × List Window :=
  let start := (dev.bars 0).start
  let len := (dev.bars 0).len
  if dflFeatureIsFme dev then
    portLoop dev (portNum dev) 0 (BitVec.twoPow 32 0)
      (enumInfoAddDfl dfls start len)
  else if dflFeatureIsPort dev then (none, enumInfoAddDfl dfls start len)
  else if dflFeatureIsPrivate dev then (none, enumInfoAddDfl dfls start len)
  else if dfhType.get dev.dfh ≠ dfhTypeAfu then (some .enodev, dfls)
  else (none, dfls)

/-! ## Enumeration -/

/-- What comes of `cci_enumerate_feature_devs`. -/
structure Enumeration where
  ret : Option Errno
  /-- The windows which are enumerated, if it gets so far. -/
  dfls : Option (List Window)
  deriving DecidableEq, Repr

/--
`cci_enumerate_feature_devs`: `allocIrq` is what `cci_pci_alloc_irq` returns,
`enumerate` what comes of `dfl_fpga_feature_devs_enumerate`.
-/
def cciEnumerateFeatureDevs (allocIrq : Except Errno Nat)
    (enumerate : List Window → Option Errno) : Enumeration :=
  match allocIrq with
  | .error ret => { ret := some ret, dfls := none }
  | .ok _ =>
      let found := findDflsByVsec dev []
      let found :=
        if found.1 = some .enodev then findDflsByDefault dev found.2 else found
      match found.1 with
      | some ret => { ret := some ret, dfls := none }
      | none => { ret := enumerate found.2, dfls := some found.2 }

/-! ## What is listed -/

/-- Where a list starts. -/
structure Location where
  bar : Nat
  offset : Nat
  deriving DecidableEq, Repr

/-- From the start of the list to the end of its BAR. -/
def PciDev.window (location : Location) : Window where
  start := Word.add 64 (dev.bars location.bar).start location.offset
  len := Word.sub 64 (dev.bars location.bar).len location.offset

/-- The BAR is one, and the list starts inside. -/
def Location.Fits (location : Location) : Prop :=
  location.bar < pciStdNumBars ∧
    location.offset < (dev.bars location.bar).len

instance (location : Location) : Decidable (location.Fits dev) :=
  inferInstanceAs (Decidable (_ ∧ _))

/-- What an entry of the capability says. -/
def vsecLocation (dflRes : BitVec 32) : Location where
  bar := (dflRes &&& pciVndrDflsResBarMask).toNat
  offset := (dflRes &&& pciVndrDflsResOffMask).toNat

/-- What so many entries from there on say. -/
def entriesFrom (dflResOff count : Nat) : List Location :=
  (List.range count).map fun i => vsecLocation (dev.config (dflResOff + 4 * i))

/-- What the capability lists. -/
def vsecLocations (voff : Nat) : List Location :=
  entriesFrom dev (voff + pciVndrDflsRes)
    (dev.config (voff + pciVndrDflsCnt)).toNat

/-- All start inside of a BAR, each of another. -/
def Separate (locations : List Location) : Prop :=
  (locations.map Location.bar).Nodup ∧ ∀ location ∈ locations,
    location.Fits dev

/-- The start of BAR 0. -/
def barZero : Location := { bar := 0, offset := 0 }

/-- What the register of a port says. -/
def portLocation (i : Nat) : Location where
  bar := fmePortOfstBarId.get (dev.mmio (fmeHdrPortOfst i))
  offset := fmePortOfstDfhOfst.get (dev.mmio (fmeHdrPortOfst i))

/-- The port is implemented, and its BAR is not the one which is skipped. -/
def Meant (i : Nat) : Prop :=
  fmePortOfstImp.get (dev.mmio (fmeHdrPortOfst i)) ≠ 0 ∧
    (portLocation dev i).bar ≠ fmePortOfstBarSkip

/-- A port which is meant, and whose list starts inside of its BAR. -/
def PortFits (i : Nat) : Prop :=
  Meant dev i ∧ (portLocation dev i).Fits dev

/-- A port which fits, and whose BAR is not used before. -/
def Listed (i : Nat) : Prop :=
  PortFits dev i ∧ (portLocation dev i).bar ≠ barZero.bar ∧
    ∀ j < i, PortFits dev j →
      (portLocation dev j).bar ≠ (portLocation dev i).bar

instance (i : Nat) : Decidable (Meant dev i) :=
  inferInstanceAs (Decidable (_ ∧ _))

instance (i : Nat) : Decidable (PortFits dev i) :=
  inferInstanceAs (Decidable (_ ∧ _))

instance (i : Nat) : Decidable (Listed dev i) :=
  inferInstanceAs (Decidable (_ ∧ _ ∧ _))

/-- BAR 0, and those of the first ports which are listed. -/
def listedUpTo (count : Nat) : List Location :=
  barZero :: ((List.range count).filter (Listed dev)).map (portLocation dev)

/-- What an FME at the start of BAR 0 lists. -/
def fmeLocations : List Location := listedUpTo dev (portNum dev)

/-- What the header at the start of BAR 0 stands for. -/
def headerLocations : List Location :=
  if dflFeatureIsFme dev then fmeLocations dev
  else if dflFeatureIsPort dev || dflFeatureIsPrivate dev then [barZero]
  else []

/-! ## What is to hold -/

/-- The window is not empty, and reaches from inside the BAR to its end. -/
def InBar (bar : Bar) (window : Window) : Prop :=
  window.len ≠ 0 ∧ bar.start ≤ window.start ∧
    window.start + window.len = bar.start + bar.len

/-- Each window is for a location which is named, no two in the same BAR. -/
def Placed (named : Location → Prop) (windows : List Window) : Prop :=
  ∃ locations : List Location, windows = locations.map dev.window ∧
    (locations.map Location.bar).Nodup ∧
      ∀ location ∈ locations, named location ∧
        location.bar < pciStdNumBars ∧
          InBar (dev.bars location.bar) (dev.window location)

/-- An entry of the capability names it. -/
def NamedByVsec (location : Location) : Prop :=
  ∃ voff, dev.vsec = some voff ∧ location ∈ vsecLocations dev voff

/-- It is the start of BAR 0, or a port names it. -/
def NamedByHeader (location : Location) : Prop :=
  location = barZero ∨ ∃ i < portNum dev, location = portLocation dev i

/-- An error is returned, and nothing enumerated. -/
def Rejected (result : Enumeration) : Prop :=
  result.ret ≠ none ∧ result.dfls = none

/--
The windows are placed, and those which are enumerated are the ones listed,
where `expected` are listed without a capability.
-/
structure Discovers (expected : PciDev → List Location)
    (allocIrq : Except Errno Nat) (enumerate : List Window → Option Errno) :
    Prop where
  byVsec : Placed dev (NamedByVsec dev) (findDflsByVsec dev []).2
  byDefault : Placed dev (NamedByHeader dev) (findDflsByDefault dev []).2
  enumerates : ∀ dfls,
    (cciEnumerateFeatureDevs dev allocIrq enumerate).dfls = some dfls →
      dfls =
        (match dev.vsec with
        | some voff => vsecLocations dev voff
        | none => expected dev).map dev.window
  badEntry : ∀ voff, dev.vsec = some voff →
    ¬ Separate dev (vsecLocations dev voff) →
      Rejected (cciEnumerateFeatureDevs dev allocIrq enumerate)
  badPort : dev.vsec = none → dflFeatureIsFme dev = true →
    (∃ i < portNum dev, Meant dev i ∧
      (portLocation dev i).bar ≥ pciStdNumBars) →
      Rejected (cciEnumerateFeatureDevs dev allocIrq enumerate)

variable {dev}

/-! ## Windows -/

theorem inBar_of_fits {location : Location} (fits : location.Fits dev) :
    InBar (dev.bars location.bar) (dev.window location) := by
  have room := (dev.bars location.bar).fits
  have inside := fits.2
  unfold InBar PciDev.window
  dsimp only
  rw [Word.sub_of_le inside.le, Word.add_of_lt (by omega)]
  omega

theorem window_barZero :
    dev.window barZero =
      { start := (dev.bars 0).start, len := (dev.bars 0).len } := by
  have room := (dev.bars 0).fits
  have mapped := dev.mapped
  unfold PciDev.window barZero
  dsimp only
  rw [Word.sub_of_le (Nat.zero_le _), Word.add_of_lt (by omega)]
  rfl

theorem placed_of_separate {locations : List Location}
    {named : Location → Prop} (separate : Separate dev locations)
    (all : ∀ location ∈ locations, named location) :
    Placed dev named (locations.map dev.window) := by
  refine ⟨locations, rfl, separate.1, fun location member => ?_⟩
  have fits := separate.2 location member
  exact ⟨all location member, fits.1, inBar_of_fits fits⟩

theorem getLsbD_or_twoPow {bars : BitVec 32} {bar other : Nat}
    (isBar : bar < pciStdNumBars) :
    (bars ||| BitVec.twoPow 32 bar).getLsbD other = true ↔
      bars.getLsbD other = true ∨ bar = other := by
  have small : bar < 32 := Nat.lt_trans isBar (by decide)
  rw [BitVec.getLsbD_or, Bool.or_eq_true, BitVec.getLsbD_twoPow,
    decide_eq_true small, Bool.true_and, decide_eq_true_iff]

/-! ## By the capability -/

theorem entriesFrom_succ (dflResOff count : Nat) :
    entriesFrom dev dflResOff (count + 1) =
      vsecLocation (dev.config dflResOff) ::
        entriesFrom dev (dflResOff + 4) count := by
  unfold entriesFrom
  rw [List.range_succ_eq_map, List.map_cons, List.map_map]
  refine congrArg (List.cons _) (List.map_congr_left fun i _ => ?_)
  have next : dflResOff + 4 * (i + 1) = dflResOff + 4 + 4 * i := by omega
  exact congrArg (fun address => vsecLocation (dev.config address)) next

/-- None of these BARs is marked. -/
def Free (bars : BitVec 32) (locations : List Location) : Prop :=
  ∀ location ∈ locations, bars.getLsbD location.bar = false

theorem separate_cons_iff {bars : BitVec 32} {location : Location}
    {rest : List Location} :
    Separate dev (location :: rest) ∧ Free bars (location :: rest) ↔
      (location.Fits dev ∧ bars.getLsbD location.bar = false) ∧
        Separate dev rest ∧
          Free (bars ||| BitVec.twoPow 32 location.bar) rest := by
  unfold Separate Free
  rw [List.map_cons, List.nodup_cons]
  simp only [List.forall_mem_cons]
  constructor
  · rintro ⟨⟨⟨other, nodup⟩, fits, allFit⟩, free, allFree⟩
    refine ⟨⟨fits, free⟩, ⟨nodup, allFit⟩, fun later member => ?_⟩
    rw [← Bool.not_eq_true, getLsbD_or_twoPow fits.1, not_or]
    refine ⟨?_, fun same => ?_⟩
    · rw [allFree later member]
      exact Bool.false_ne_true
    · exact other (same ▸ List.mem_map_of_mem member)
  · rintro ⟨⟨fits, free⟩, ⟨nodup, allFit⟩, allFree⟩
    have unmarked (later : Location) (member : later ∈ rest) :
        bars.getLsbD later.bar ≠ true ∧ location.bar ≠ later.bar := by
      have := allFree later member
      rw [← Bool.not_eq_true, getLsbD_or_twoPow fits.1, not_or] at this
      exact this
    refine ⟨⟨⟨fun marked => ?_, nodup⟩, fits, allFit⟩, free, ?_⟩
    · obtain ⟨later, member, same⟩ := List.mem_map.mp marked
      exact (unmarked later member).2 same.symm
    · intro later member
      exact Bool.eq_false_iff.mpr (unmarked later member).1

theorem vsecLoop_of_bad {left dflResOff : Nat} {bars : BitVec 32}
    {dfls : List Window}
    (bad : ¬ ((vsecLocation (dev.config dflResOff)).Fits dev ∧
      bars.getLsbD (vsecLocation (dev.config dflResOff)).bar = false)) :
    vsecLoop dev (left + 1) dflResOff bars dfls = (some .einval, dfls) := by
  unfold vsecLoop
  dsimp only
  split
  · rfl
  · split
    · rfl
    · split
      · rfl
      · rename_i isBar free inside
        refine absurd ⟨⟨?_, ?_⟩, ?_⟩ bad
        · exact Nat.not_le.mp isBar
        · exact Nat.not_le.mp inside
        · exact Bool.eq_false_iff.mpr free

theorem vsecLoop_of_good {left dflResOff : Nat} {bars : BitVec 32}
    {dfls : List Window}
    (fits : (vsecLocation (dev.config dflResOff)).Fits dev)
    (free : bars.getLsbD (vsecLocation (dev.config dflResOff)).bar = false) :
    vsecLoop dev (left + 1) dflResOff bars dfls =
      vsecLoop dev left (dflResOff + 4)
        (bars ||| BitVec.twoPow 32 (vsecLocation (dev.config dflResOff)).bar)
        (dfls ++ [dev.window (vsecLocation (dev.config dflResOff))]) := by
  have isBar : ¬ (vsecLocation (dev.config dflResOff)).bar ≥ pciStdNumBars :=
    Nat.not_le.mpr fits.1
  have unmarked :
      ¬ bars.getLsbD (vsecLocation (dev.config dflResOff)).bar = true :=
    Bool.eq_false_iff.mp free
  have inside : ¬ (vsecLocation (dev.config dflResOff)).offset ≥
      (dev.bars (vsecLocation (dev.config dflResOff)).bar).len :=
    Nat.not_le.mpr fits.2
  rw [vsecLoop]
  exact (if_neg isBar).trans ((if_neg unmarked).trans (if_neg inside))

variable (dev) in
/-- Entries are taken up to the first one which is bad. -/
theorem vsecLoop_spec (left dflResOff : Nat) (bars : BitVec 32)
    (dfls : List Window) :
    ∃ taken, taken <+: entriesFrom dev dflResOff left ∧
      (vsecLoop dev left dflResOff bars dfls).2 =
        dfls ++ taken.map dev.window ∧
      (Separate dev taken ∧ Free bars taken) ∧
      ((vsecLoop dev left dflResOff bars dfls).1 = none ∧
          taken = entriesFrom dev dflResOff left ∨
        (vsecLoop dev left dflResOff bars dfls).1 = some .einval ∧
          ¬ (Separate dev (entriesFrom dev dflResOff left) ∧
            Free bars (entriesFrom dev dflResOff left))) := by
  have nothing (bars : BitVec 32) : Separate dev [] ∧ Free bars [] :=
    ⟨⟨List.nodup_nil, nofun⟩, nofun⟩
  induction left generalizing dflResOff bars dfls with
  | zero =>
      exact ⟨[], List.nil_prefix, (List.append_nil _).symm, nothing bars,
        Or.inl ⟨rfl, rfl⟩⟩
  | succ left ih =>
      rw [entriesFrom_succ]
      by_cases good : (vsecLocation (dev.config dflResOff)).Fits dev ∧
          bars.getLsbD (vsecLocation (dev.config dflResOff)).bar = false
      · rw [vsecLoop_of_good good.1 good.2]
        obtain ⟨taken, isPrefix, windows, separate, ends⟩ :=
          ih (dflResOff + 4)
            (bars ||| BitVec.twoPow 32
              (vsecLocation (dev.config dflResOff)).bar)
            (dfls ++ [dev.window (vsecLocation (dev.config dflResOff))])
        refine ⟨vsecLocation (dev.config dflResOff) :: taken, ?_, ?_,
          separate_cons_iff.mpr ⟨good, separate⟩, ?_⟩
        · exact List.cons_prefix_cons.mpr ⟨rfl, isPrefix⟩
        · rw [windows, List.append_assoc]
          rfl
        · rcases ends with ⟨returns, all⟩ | ⟨fails, bad⟩
          · exact Or.inl ⟨returns, congrArg (List.cons _) all⟩
          · refine Or.inr ⟨fails, fun whole => ?_⟩
            exact bad (separate_cons_iff.mp whole).2
      · rw [vsecLoop_of_bad good]
        refine ⟨[], List.nil_prefix, (List.append_nil _).symm, nothing bars,
          Or.inr ⟨rfl, fun whole => ?_⟩⟩
        exact good (separate_cons_iff.mp whole).1

/-- What is found by the capability. -/
theorem findDflsByVsec_spec {voff : Nat} (isVsec : dev.vsec = some voff) :
    ∃ taken, taken <+: vsecLocations dev voff ∧
      (findDflsByVsec dev []).2 = taken.map dev.window ∧
      Separate dev taken ∧
      ((findDflsByVsec dev []).1 = none ∧
          Separate dev (vsecLocations dev voff) ∧
          taken = vsecLocations dev voff ∨
        (findDflsByVsec dev []).1 = some .einval) := by
  have refused : ∃ taken, taken <+: vsecLocations dev voff ∧
      [] = taken.map dev.window ∧ Separate dev taken ∧
      ((some Errno.einval) = none ∧ Separate dev (vsecLocations dev voff) ∧
        taken = vsecLocations dev voff ∨
        some Errno.einval = some Errno.einval) :=
    ⟨[], List.nil_prefix, rfl, ⟨List.nodup_nil, nofun⟩, Or.inr rfl⟩
  unfold findDflsByVsec
  rw [isVsec]
  dsimp only
  split
  · exact refused
  · split
    · exact refused
    · obtain ⟨taken, isPrefix, windows, separate, ends⟩ :=
        vsecLoop_spec dev (dev.config (voff + pciVndrDflsCnt)).toNat
          (voff + pciVndrDflsRes) 0 []
      refine ⟨taken, isPrefix, windows, separate.1, ?_⟩
      rcases ends with ⟨returns, all⟩ | ⟨fails, -⟩
      · have whole : taken = vsecLocations dev voff := all
        exact Or.inl ⟨returns, whole ▸ separate.1, whole⟩
      · exact Or.inr fails

/-! ## By the header -/

theorem listedUpTo_succ (count : Nat) :
    listedUpTo dev (count + 1) =
      listedUpTo dev count ++
        if Listed dev count then [portLocation dev count] else [] := by
  unfold listedUpTo
  rw [List.range_succ, List.filter_append, List.map_append, List.cons_append]
  refine congrArg (barZero :: _ ++ ·) ?_
  by_cases listed : Listed dev count
  · rw [if_pos listed, List.filter_singleton, decide_eq_true listed]
    rfl
  · rw [if_neg listed, List.filter_singleton, decide_eq_false listed]
    rfl

theorem listedUpTo_separate (count : Nat) :
    Separate dev (listedUpTo dev count) := by
  have listed {i : Nat}
      (member : i ∈ (List.range count).filter (Listed dev)) : Listed dev i :=
    of_decide_eq_true (List.mem_filter.mp member).2
  unfold listedUpTo
  constructor
  · rw [List.map_cons, List.nodup_cons, List.map_map]
    constructor
    · intro member
      obtain ⟨i, isListed, same⟩ := List.mem_map.mp member
      exact (listed isListed).2.1 same
    · refine (List.nodup_range.filter _).map_on fun i isListed j alsoListed same => ?_
      rcases Nat.lt_trichotomy i j with before | rfl | after
      · exact absurd same
          ((listed alsoListed).2.2 i before (listed isListed).1)
      · rfl
      · exact absurd same.symm
          ((listed isListed).2.2 j after (listed alsoListed).1)
  · intro location member
    rcases List.mem_cons.mp member with isZero | isPort
    · rw [isZero]
      exact ⟨by decide, Nat.pos_of_ne_zero dev.mapped⟩
    · obtain ⟨i, isListed, rfl⟩ := List.mem_map.mp isPort
      exact (listed isListed).1.2

theorem listedUpTo_named {count : Nat} (within : count ≤ portNum dev) :
    ∀ location ∈ listedUpTo dev count, NamedByHeader dev location := by
  intro location member
  rcases List.mem_cons.mp member with isZero | isPort
  · exact Or.inl isZero
  · obtain ⟨i, isListed, rfl⟩ := List.mem_map.mp isPort
    have before := List.mem_range.mp (List.mem_filter.mp isListed).1
    exact Or.inr ⟨i, Nat.lt_of_lt_of_le before within, rfl⟩

variable (dev) in
/-- The BARs which are marked before this port. -/
def Marked (i : Nat) (bars : BitVec 32) : Prop :=
  ∀ bar, bars.getLsbD bar = true ↔
    bar = barZero.bar ∨
      ∃ j < i, PortFits dev j ∧ (portLocation dev j).bar = bar

variable (dev) in
/-- The BAR of the port is bad. -/
def BadPort (i : Nat) : Prop :=
  Meant dev i ∧ (portLocation dev i).bar ≥ pciStdNumBars

/-- A port which does not fit, or whose BAR is marked, marks none. -/
theorem Marked.skip {i : Nat} {bars : BitVec 32} (marked : Marked dev i bars)
    (skips : PortFits dev i →
      bars.getLsbD (portLocation dev i).bar = true) :
    Marked dev (i + 1) bars := by
  intro bar
  constructor
  · intro isMarked
    rcases (marked bar).mp isMarked with isZero | ⟨j, before, fits, same⟩
    · exact Or.inl isZero
    · exact Or.inr ⟨j, Nat.lt_succ_of_lt before, fits, same⟩
  · rintro (isZero | ⟨j, before, fits, same⟩)
    · exact (marked bar).mpr (Or.inl isZero)
    · rcases Nat.lt_succ_iff_lt_or_eq.mp before with earlier | rfl
      · exact (marked bar).mpr (Or.inr ⟨j, earlier, fits, same⟩)
      · rw [← same]
        exact skips fits

theorem Marked.mark {i : Nat} {bars : BitVec 32} (marked : Marked dev i bars)
    (fits : PortFits dev i) :
    Marked dev (i + 1)
      (bars ||| BitVec.twoPow 32 (portLocation dev i).bar) := by
  intro bar
  rw [getLsbD_or_twoPow fits.2.1, marked bar, or_assoc]
  refine or_congr_right ⟨?_, ?_⟩
  · rintro (⟨j, before, also, same⟩ | same)
    · exact ⟨j, Nat.lt_succ_of_lt before, also, same⟩
    · exact ⟨i, Nat.lt_succ_self i, fits, same⟩
  · rintro ⟨j, before, also, same⟩
    rcases Nat.lt_succ_iff_lt_or_eq.mp before with earlier | rfl
    · exact Or.inl ⟨j, earlier, also, same⟩
    · exact Or.inr same

/-- A port is listed if it fits and its BAR is not marked. -/
theorem listed_iff {i : Nat} {bars : BitVec 32} (marked : Marked dev i bars) :
    Listed dev i ↔
      PortFits dev i ∧ bars.getLsbD (portLocation dev i).bar = false := by
  unfold Listed
  refine and_congr_right fun _ => ?_
  rw [← Bool.not_eq_true, marked, not_or]
  refine and_congr_right fun _ => ?_
  constructor
  · rintro unused ⟨j, before, fits, same⟩
    exact unused j before fits same
  · intro unused j before fits same
    exact unused ⟨j, before, fits, same⟩

theorem portLoop_of_bad {left i : Nat} {bars : BitVec 32} {dfls : List Window}
    (bad : BadPort dev i) :
    portLoop dev (left + 1) i bars dfls = (some .einval, dfls) := by
  rw [portLoop]
  exact (if_neg bad.1.1).trans ((if_neg bad.1.2).trans (if_pos bad.2))

theorem portLoop_of_listed {left i : Nat} {bars : BitVec 32}
    {dfls : List Window} (fits : PortFits dev i)
    (free : bars.getLsbD (portLocation dev i).bar = false) :
    portLoop dev (left + 1) i bars dfls =
      portLoop dev left (i + 1)
        (bars ||| BitVec.twoPow 32 (portLocation dev i).bar)
        (dfls ++ [dev.window (portLocation dev i)]) := by
  have isBar : ¬ (portLocation dev i).bar ≥ pciStdNumBars :=
    Nat.not_le.mpr fits.2.1
  have unmarked : ¬ bars.getLsbD (portLocation dev i).bar = true :=
    Bool.eq_false_iff.mp free
  have inside : ¬ (portLocation dev i).offset ≥
      (dev.bars (portLocation dev i).bar).len :=
    Nat.not_le.mpr fits.2.2
  rw [portLoop]
  exact (if_neg fits.1.1).trans ((if_neg fits.1.2).trans
    ((if_neg isBar).trans ((if_neg unmarked).trans (if_neg inside))))

theorem portLoop_of_skip {left i : Nat} {bars : BitVec 32}
    {dfls : List Window} (notBad : ¬ BadPort dev i)
    (skips : PortFits dev i →
      bars.getLsbD (portLocation dev i).bar = true) :
    portLoop dev (left + 1) i bars dfls =
      portLoop dev left (i + 1) bars dfls := by
  rw [portLoop]
  dsimp only
  by_cases implemented : fmePortOfstImp.get (dev.mmio (fmeHdrPortOfst i)) = 0
  · rw [if_pos implemented]
  rw [if_neg implemented]
  by_cases isSkip :
      fmePortOfstBarId.get (dev.mmio (fmeHdrPortOfst i)) = fmePortOfstBarSkip
  · rw [if_pos isSkip]
  have meant : Meant dev i := ⟨implemented, isSkip⟩
  have isBar : ¬ fmePortOfstBarId.get (dev.mmio (fmeHdrPortOfst i)) ≥
      pciStdNumBars := fun bad => notBad ⟨meant, bad⟩
  rw [if_neg isSkip, if_neg isBar]
  by_cases isMarked : bars.getLsbD
      (fmePortOfstBarId.get (dev.mmio (fmeHdrPortOfst i))) = true
  · rw [if_pos isMarked]
  rw [if_neg isMarked, if_pos]
  refine Nat.not_lt.mp fun inside => isMarked (skips ⟨meant, ?_, inside⟩)
  exact Nat.not_le.mp isBar

variable (dev) in
/-- Ports are listed up to the first one whose BAR is bad. -/
theorem portLoop_spec (left i : Nat) (bars : BitVec 32)
    (marked : Marked dev i bars) :
    ∃ count, i ≤ count ∧ count ≤ i + left ∧
      (portLoop dev left i bars ((listedUpTo dev i).map dev.window)).2 =
        (listedUpTo dev count).map dev.window ∧
      ((portLoop dev left i bars ((listedUpTo dev i).map dev.window)).1 =
            none ∧
          count = i + left ∧
          (∀ j, i ≤ j → j < i + left → ¬ BadPort dev j) ∨
        (portLoop dev left i bars ((listedUpTo dev i).map dev.window)).1 =
          some .einval) := by
  induction left generalizing i bars with
  | zero =>
      refine ⟨i, Nat.le_refl i, Nat.le_refl i, rfl, Or.inl ⟨rfl, rfl, ?_⟩⟩
      intro j after before
      exact absurd before (Nat.not_lt.mpr after)
  | succ left ih =>
      by_cases bad : BadPort dev i
      · rw [portLoop_of_bad bad]
        exact ⟨i, Nat.le_refl i, Nat.le_add_right _ _, rfl, Or.inr rfl⟩
      have step : ∃ bars', Marked dev (i + 1) bars' ∧
          portLoop dev (left + 1) i bars
              ((listedUpTo dev i).map dev.window) =
            portLoop dev left (i + 1) bars'
              ((listedUpTo dev (i + 1)).map dev.window) := by
        by_cases listed : Listed dev i
        · obtain ⟨fits, free⟩ := (listed_iff marked).mp listed
          refine ⟨_, marked.mark fits, ?_⟩
          rw [portLoop_of_listed fits free, listedUpTo_succ, if_pos listed,
            List.map_append]
          rfl
        · have skips : PortFits dev i →
              bars.getLsbD (portLocation dev i).bar = true := by
            intro fits
            by_contra unmarked
            exact listed ((listed_iff marked).mpr
              ⟨fits, Bool.eq_false_iff.mpr unmarked⟩)
          refine ⟨bars, marked.skip skips, ?_⟩
          rw [portLoop_of_skip bad skips, listedUpTo_succ, if_neg listed,
            List.append_nil]
      obtain ⟨bars', marked', same⟩ := step
      obtain ⟨count, after, before, windows, ends⟩ := ih (i + 1) bars' marked'
      rw [same]
      refine ⟨count, by omega, by omega, windows, ?_⟩
      rcases ends with ⟨returns, all, noneBad⟩ | fails
      · refine Or.inl ⟨returns, by omega, fun j first last => ?_⟩
        rcases Nat.eq_or_lt_of_le first with rfl | later
        · exact bad
        · exact noneBad j later (by omega)
      · exact Or.inr fails

variable (dev) in
/-- What is found by the header. -/
theorem findDflsByDefault_spec :
    ∃ locations, (findDflsByDefault dev []).2 = locations.map dev.window ∧
      Separate dev locations ∧
      (∀ location ∈ locations, NamedByHeader dev location) ∧
      ((findDflsByDefault dev []).1 = none → locations = headerLocations dev) ∧
      ((findDflsByDefault dev []).1 = none → dflFeatureIsFme dev = true →
        ∀ i < portNum dev, ¬ BadPort dev i) := by
  have start : (listedUpTo dev 0).map dev.window =
      enumInfoAddDfl [] (dev.bars 0).start (dev.bars 0).len :=
    congrArg (fun window => [window]) window_barZero
  have one : ∃ locations,
      enumInfoAddDfl [] (dev.bars 0).start (dev.bars 0).len =
        locations.map dev.window ∧ Separate dev locations ∧
      (∀ location ∈ locations, NamedByHeader dev location) ∧
        locations = [barZero] :=
    ⟨[barZero], start.symm, listedUpTo_separate 0,
      listedUpTo_named (Nat.zero_le _), rfl⟩
  unfold findDflsByDefault headerLocations
  dsimp only
  by_cases isFme : dflFeatureIsFme dev = true
  · rw [if_pos isFme, if_pos isFme, ← start]
    have marked : Marked dev 0 (BitVec.twoPow 32 0) := by
      intro bar
      rw [BitVec.getLsbD_twoPow, Bool.and_eq_true, decide_eq_true_iff,
        decide_eq_true_iff, and_iff_right (by decide)]
      constructor
      · exact fun same => Or.inl same.symm
      · rintro (isZero | ⟨j, before, -⟩)
        · exact isZero.symm
        · exact absurd before (Nat.not_lt_zero j)
    obtain ⟨count, -, within, windows, ends⟩ :=
      portLoop_spec dev (portNum dev) 0 _ marked
    rw [Nat.zero_add] at within ends
    refine ⟨listedUpTo dev count, windows, listedUpTo_separate count,
      listedUpTo_named within, ?_, ?_⟩
    · intro returns
      rcases ends with ⟨-, all, -⟩ | fails
      · rw [all]
        rfl
      · rw [fails] at returns
        cases returns
    · intro returns _ i before
      rcases ends with ⟨-, -, noneBad⟩ | fails
      · exact noneBad i (Nat.zero_le i) before
      · rw [fails] at returns
        cases returns
  · have notFme {holds : Prop} (fme : dflFeatureIsFme dev = true) : holds :=
      absurd fme isFme
    rw [if_neg isFme, if_neg isFme]
    obtain ⟨locations, windows, separate, named, isZero⟩ := one
    by_cases isPort : dflFeatureIsPort dev = true
    · rw [if_pos isPort, isPort, Bool.true_or, if_pos rfl]
      exact ⟨locations, windows, separate, named, fun _ => isZero,
        fun _ => notFme⟩
    · rw [if_neg isPort, Bool.eq_false_iff.mpr isPort, Bool.false_or]
      by_cases isPrivate : dflFeatureIsPrivate dev = true
      · rw [if_pos isPrivate, if_pos isPrivate]
        exact ⟨locations, windows, separate, named, fun _ => isZero,
          fun _ => notFme⟩
      · rw [if_neg isPrivate, if_neg isPrivate]
        have nothing : Separate dev [] := ⟨List.nodup_nil, nofun⟩
        split
        · exact ⟨[], rfl, nothing, nofun, nofun, fun _ => notFme⟩
        · exact ⟨[], rfl, nothing, nofun, fun _ => rfl, fun _ => notFme⟩

/-! ## Enumeration -/

variable (dev) in
/-- What is enumerated has been found in one of the two ways. -/
theorem enumerates_or_rejected (allocIrq : Except Errno Nat)
    (enumerate : List Window → Option Errno) :
    Rejected (cciEnumerateFeatureDevs dev allocIrq enumerate) ∨
      ∃ found, (cciEnumerateFeatureDevs dev allocIrq enumerate).dfls =
          some found ∧
        (findDflsByVsec dev [] = (none, found) ∨
          dev.vsec = none ∧ findDflsByDefault dev [] = (none, found)) := by
  unfold cciEnumerateFeatureDevs
  rcases allocIrq with ret | nvec
  · exact Or.inl ⟨nofun, rfl⟩
  dsimp only
  cases isVsec : dev.vsec with
  | none =>
      have missing : findDflsByVsec dev [] = (some .enodev, []) := by
        unfold findDflsByVsec
        rw [isVsec]
      rw [missing, if_pos rfl]
      rcases found : findDflsByDefault dev [] with ⟨- | ret, dfls⟩
      · exact Or.inr ⟨dfls, rfl, Or.inr ⟨rfl, rfl⟩⟩
      · exact Or.inl ⟨nofun, rfl⟩
  | some voff =>
      obtain ⟨taken, -, windows, -, ends⟩ := findDflsByVsec_spec isVsec
      rcases ends with ⟨returns, -, -⟩ | fails
      · rcases found : findDflsByVsec dev [] with ⟨ret, dfls⟩
        rw [found] at returns
        cases returns
        rw [if_neg nofun]
        exact Or.inr ⟨dfls, rfl, Or.inl rfl⟩
      · rw [fails, if_neg (by decide), fails]
        exact Or.inl ⟨nofun, rfl⟩

/--
The windows are those of the lists which the device has, whichever header is
at the start of BAR 0.
-/
theorem discovers (dev : PciDev) (allocIrq : Except Errno Nat)
    (enumerate : List Window → Option Errno) :
    Discovers dev headerLocations allocIrq enumerate := by
  have either := enumerates_or_rejected dev allocIrq enumerate
  obtain ⟨locations, windows, separate, named, all, noneBad⟩ :=
    findDflsByDefault_spec dev
  constructor
  · cases isVsec : dev.vsec with
    | none =>
        unfold findDflsByVsec
        rw [isVsec]
        exact ⟨[], rfl, List.nodup_nil, nofun⟩
    | some voff =>
        obtain ⟨taken, isPrefix, windows, separate, -⟩ :=
          findDflsByVsec_spec isVsec
        rw [windows]
        exact placed_of_separate separate fun location member =>
          ⟨voff, isVsec, isPrefix.subset member⟩
  · rw [windows]
    exact placed_of_separate separate named
  · intro dfls isEnumerated
    rcases either with ⟨-, nothing⟩ | ⟨found, also, byVsec | ⟨noVsec, byHeader⟩⟩
    · rw [nothing] at isEnumerated
      cases isEnumerated
    · rw [also] at isEnumerated
      cases isEnumerated
      cases isVsec : dev.vsec with
      | none =>
          unfold findDflsByVsec at byVsec
          rw [isVsec] at byVsec
          cases byVsec
      | some voff =>
          obtain ⟨taken, -, windows, -, ends⟩ := findDflsByVsec_spec isVsec
          rw [byVsec] at windows ends
          rcases ends with ⟨-, -, whole⟩ | fails
          · rw [whole] at windows
            exact windows
          · cases fails
    · rw [also] at isEnumerated
      cases isEnumerated
      rw [noVsec]
      rw [byHeader] at windows all
      rw [← all rfl]
      exact windows
  · intro voff isVsec bad
    refine either.resolve_right ?_
    rintro ⟨found, -, byVsec | ⟨noVsec, -⟩⟩
    · obtain ⟨taken, -, -, -, ends⟩ := findDflsByVsec_spec isVsec
      rw [byVsec] at ends
      rcases ends with ⟨-, good, -⟩ | fails
      · exact bad good
      · cases fails
    · rw [noVsec] at isVsec
      cases isVsec
  · rintro noVsec isFme ⟨i, before, bad⟩
    refine either.resolve_right ?_
    rintro ⟨found, -, byVsec | ⟨-, byHeader⟩⟩
    · unfold findDflsByVsec at byVsec
      rw [noVsec] at byVsec
      cases byVsec
    · rw [byHeader] at noneBad
      exact noneBad rfl isFme i before bad

end LinuxDfl.Dfl.Discovery

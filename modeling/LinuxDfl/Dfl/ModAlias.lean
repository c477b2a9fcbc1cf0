import LinuxDfl.Lib.Glob
import Mathlib.Algebra.Order.Ring.Int
import Mathlib.Data.List.Basic
import Mathlib.Data.List.TakeWhile

/-!
# Which driver is loaded for a device

The bus compares a device with the entries of a driver's id table.  Before
that, the module of the driver is loaded if the alias of an entry matches what
the device is announced as.  The two do not always agree.
-/

namespace LinuxDfl.Dfl.ModAlias

open LinuxDfl.Lib.Glob

/-! ## Devices and entries -/

/-- `guid_t` -/
abbrev Guid := Vector (BitVec 8) 16

def nullGuid : Guid := Vector.replicate 16 0

/-- `DFL_GUID_INVALID` -/
def dflGuidInvalid : Guid := Vector.replicate 16 0xff

/-- `dfl_guid_is_valid` -/
def dflGuidIsValid (guid : Guid) : Bool :=
  !(guid == nullGuid || guid == dflGuidInvalid)

/-- What `struct dfl_device` is matched by. -/
structure DflDevice where
  type : BitVec 16
  featureId : BitVec 16
  guid : Guid
  deriving DecidableEq, Repr

/-- `struct dfl_device_id` -/
structure DflDeviceId where
  type : BitVec 16
  featureId : BitVec 16
  guid : Guid
  deriving DecidableEq, Repr

/-- The entry which ends a table. -/
def terminator : DflDeviceId :=
  { type := 0, featureId := 0, guid := nullGuid }

/-- A table of which only the last entry looks like its end. -/
structure IdTable where
  entries : List DflDeviceId
  real : ∀ entry ∈ entries, entry.featureId ≠ 0 ∨ entry.guid ≠ nullGuid

/-- The table as it lies in memory. -/
def IdTable.array (table : IdTable) : List DflDeviceId :=
  table.entries ++ [terminator]

/-! ## The bus -/

/-- `dfl_match_one_device` -/
def dflMatchOneDevice (id : DflDeviceId) (ddev : DflDevice) : Bool :=
  dflGuidIsValid ddev.guid && id.guid == ddev.guid ||
    id.type == ddev.type && id.featureId == ddev.featureId

/-- The entry is none at which `dfl_bus_match` stops. -/
def goesOn (id : DflDeviceId) : Bool :=
  id.featureId != 0 || dflGuidIsValid id.guid

/-- `dfl_bus_match`, with the entry which is found. -/
def dflBusMatch (ddev : DflDevice) : List DflDeviceId → Option DflDeviceId
  | [] => none
  | entry :: rest =>
      if goesOn entry then
        if dflMatchOneDevice entry ddev then some entry
        else dflBusMatch ddev rest
      else none

/-! ## Text -/

/-- A digit of `%X` -/
def hexDigit (digit : Nat) : Char :=
  if digit < 10 then Char.ofNat (48 + digit) else Char.ofNat (55 + digit)

/-- `%02X` and `%04X`, for what fits into so many digits. -/
def hex : Nat → Nat → List Char
  | 0, _ => []
  | width + 1, value => hex width (value / 16) ++ [hexDigit (value % 16)]

/-- The bytes of a GUID as they are printed, with dashes between. -/
def guidLayout : List (Option (Fin 16)) :=
  [some 3, some 2, some 1, some 0, none, some 5, some 4, none, some 7, some 6,
    none, some 8, some 9, none, some 10, some 11, some 12, some 13, some 14,
    some 15]

def guidPart (guid : Guid) : Option (Fin 16) → List Char
  | some i => hex 2 guid[i].toNat
  | none => ['-']

/-- `add_guid`; `%pUL` prints the same. -/
def guidText (guid : Guid) : List Char := guidLayout.flatMap (guidPart guid)

/-- `dfl:t%04Xf%04X` -/
def numberText (type featureId : BitVec 16) : List Char :=
  "dfl:t".toList ++ hex 4 type.toNat ++ ['f'] ++ hex 4 featureId.toNat

/-- `g{…}` -/
def bracedGuid (guid : Guid) : List Char :=
  'g' :: '\x7b' :: guidText guid ++ ['\x7d']

/-- What `dfl_bus_uevent` announces as `MODALIAS`. -/
def dflBusUevent (ddev : DflDevice) : List Char :=
  numberText ddev.type ddev.featureId ++
    if ddev.guid = nullGuid then [] else bracedGuid ddev.guid

/-! ## Aliases -/

/-- `add_wildcard` -/
def addWildcard (str : List Char) : List Char :=
  if str.getLast? = some '*' then str else str ++ ['*']

/-- `do_dfl_entry` -/
def doDflEntry (id : DflDeviceId) : Option (List Char) :=
  if id.featureId = 0 ∧ id.guid = nullGuid then none
  else
    let modalias :=
      if id.featureId = 0 then "dfl:t*f*".toList
      else numberText id.type id.featureId
    let modalias :=
      if id.guid ≠ nullGuid then modalias ++ bracedGuid id.guid else modalias
    some (addWildcard modalias)

/-- `do_table`, which leaves the last entry out. -/
def doTable (symval : List DflDeviceId) : List (List Char) :=
  symval.dropLast.filterMap doDflEntry

/-! ## What is to hold -/

/-- The module of the driver is loaded for the device. -/
def Loads (table : IdTable) (ddev : DflDevice) : Prop :=
  ∃ modalias ∈ doTable table.array,
    fnmatch modalias (dflBusUevent ddev) = true

structure Agrees (table : IdTable) (ddev : DflDevice) : Prop where
  loads : dflBusMatch ddev table.array ≠ none ↔ Loads table ddev
  /-- An entry with nothing but a GUID matches only devices which have it. -/
  guidOnly : ∀ entry ∈ table.entries, entry.featureId = 0 →
    dflBusMatch ddev [entry, terminator] ≠ none → ddev.guid = entry.guid

/-! ## When it holds -/

/-- The numbers of the entry are those of the device. -/
def NumberFits (id : DflDeviceId) (ddev : DflDevice) : Prop :=
  id.type = ddev.type ∧ id.featureId = ddev.featureId

/-- All the keys which the entry has fit. -/
def Fits (id : DflDeviceId) (ddev : DflDevice) : Prop :=
  (id.featureId = 0 ∨ NumberFits id ddev) ∧
    (id.guid = nullGuid ∨ id.guid = ddev.guid)

/-- The numbers fit and its GUID does not, or the other way round. -/
def HalfFits (id : DflDeviceId) (ddev : DflDevice) : Prop :=
  NumberFits id ddev ∧ id.guid ≠ nullGuid ∧ id.guid ≠ ddev.guid ∨
    id.guid = ddev.guid ∧ dflGuidIsValid ddev.guid = true ∧
      id.featureId ≠ 0 ∧ ¬ NumberFits id ddev

/-- The entries at which `dfl_bus_match` looks. -/
def IdTable.searched (table : IdTable) : List DflDeviceId :=
  table.entries.takeWhile goesOn

/-- Those from the one on at which it stops. -/
def IdTable.unsearched (table : IdTable) : List DflDeviceId :=
  table.entries.dropWhile goesOn

/--
All keys of an entry which is looked at fit, or some keys of one fit just if
all keys of one which is not looked at do; and the numbers of an entry with
nothing but a GUID, which are not meant, do not fit by themselves.
-/
structure KeysAgree (table : IdTable) (ddev : DflDevice) : Prop where
  entries : (∃ entry ∈ table.searched, Fits entry ddev) ∨
    ((∃ entry ∈ table.searched, HalfFits entry ddev) ↔
      ∃ entry ∈ table.unsearched, Fits entry ddev)
  guidOnly : ∀ entry ∈ table.entries, entry.featureId = 0 →
    dflGuidIsValid entry.guid = true → NumberFits entry ddev →
      entry.guid = ddev.guid

/-! ## Reading the text back -/

theorem hex_length (width value : Nat) : (hex width value).length = width := by
  induction width generalizing value with
  | zero => rfl
  | succ width ih => rw [hex, List.length_append, ih, List.length_singleton]

theorem hexDigit_injective {first second : Nat} (isDigit : first < 16)
    (isDigit' : second < 16) (same : hexDigit first = hexDigit second) :
    first = second := by
  have all : ∀ a : Fin 16, ∀ b : Fin 16,
      hexDigit a = hexDigit b → a = b := by decide
  exact congrArg Fin.val (all ⟨first, isDigit⟩ ⟨second, isDigit'⟩ same)

theorem hex_injective {width first second : Nat} (fits : first < 16 ^ width)
    (fits' : second < 16 ^ width) (same : hex width first = hex width second) :
    first = second := by
  induction width generalizing first second with
  | zero =>
      rw [Nat.pow_zero, Nat.lt_one_iff] at fits fits'
      rw [fits, fits']
  | succ width ih =>
      rw [hex, hex] at same
      obtain ⟨front, last⟩ := List.append_inj' same rfl
      have digit : first % 16 = second % 16 :=
        hexDigit_injective (Nat.mod_lt _ (by decide)) (Nat.mod_lt _ (by decide))
          (List.singleton_inj.mp last)
      have rest : first / 16 = second / 16 := by
        refine ih ?_ ?_ front
        · rw [Nat.div_lt_iff_lt_mul (by decide), ← Nat.pow_succ]
          exact fits
        · rw [Nat.div_lt_iff_lt_mul (by decide), ← Nat.pow_succ]
          exact fits'
      rw [← Nat.div_add_mod first 16, ← Nat.div_add_mod second 16, digit, rest]

/-- The characters of the text, apart from those which are written out. -/
def IsDigit (char : Char) : Prop := ∃ digit : Fin 16, char = hexDigit digit

theorem hex_digits {width value : Nat} {char : Char}
    (member : char ∈ hex width value) : IsDigit char := by
  induction width generalizing value with
  | zero => cases member
  | succ width ih =>
      rw [hex, List.mem_append, List.mem_singleton] at member
      rcases member with inFront | isLast
      · exact ih inFront
      · exact ⟨⟨value % 16, Nat.mod_lt _ (by decide)⟩, isLast⟩

/-- A digit is none of the characters which are written out. -/
theorem IsDigit.other {char : Char} (isDigit : IsDigit char) :
    char ≠ 'f' ∧ char ≠ 'g' ∧ Plain char := by
  obtain ⟨digit, rfl⟩ := isDigit
  revert digit
  unfold Plain
  decide

/-- Texts of parts as long as each other are the same only part by part. -/
theorem parts_eq_of_flatMap_eq {α β : Type} {parts : List α}
    {first second : α → List β}
    (lengths : ∀ part, (first part).length = (second part).length)
    (same : parts.flatMap first = parts.flatMap second) :
    ∀ part ∈ parts, first part = second part := by
  induction parts with
  | nil => nofun
  | cons part rest ih =>
      rw [List.flatMap_cons, List.flatMap_cons] at same
      obtain ⟨here, later⟩ := List.append_inj same (lengths part)
      intro other member
      rcases List.mem_cons.mp member with isHere | isLater
      · rw [isHere]
        exact here
      · exact ih later other isLater

theorem guidPart_length (first second : Guid) (part : Option (Fin 16)) :
    (guidPart first part).length = (guidPart second part).length := by
  cases part with
  | none => rfl
  | some i =>
      unfold guidPart
      rw [hex_length, hex_length]

theorem guidText_length (first second : Guid) :
    (guidText first).length = (guidText second).length := by
  unfold guidText
  rw [List.length_flatMap, List.length_flatMap]
  exact congrArg List.sum
    (List.map_congr_left fun part _ => guidPart_length first second part)

/-- A GUID can be read back from its text. -/
theorem guidText_injective {first second : Guid}
    (same : guidText first = guidText second) : first = second := by
  have parts := parts_eq_of_flatMap_eq (guidPart_length first second) same
  have everywhere : ∀ i : Fin 16, some i ∈ guidLayout := by decide
  refine Vector.ext fun i inside => ?_
  have byte := parts _ (everywhere ⟨i, inside⟩)
  exact BitVec.eq_of_toNat_eq
    (hex_injective first[i].isLt second[i].isLt byte)

theorem guidText_digits {guid : Guid} {char : Char}
    (member : char ∈ guidText guid) : IsDigit char ∨ char = '-' := by
  obtain ⟨part, -, inPart⟩ := List.mem_flatMap.mp member
  cases part with
  | none => exact Or.inr (List.mem_singleton.mp inPart)
  | some i => exact Or.inl (hex_digits inPart)

theorem bracedGuid_chars {guid : Guid} {char : Char}
    (member : char ∈ '\x7b' :: guidText guid ++ ['\x7d']) :
    char ≠ 'g' ∧ Plain char := by
  unfold Plain
  rcases List.mem_append.mp member with inFront | isLast
  · rcases List.mem_cons.mp inFront with isFirst | inText
    · rw [isFirst]
      decide
    · rcases guidText_digits inText with isDigit | isDash
      · exact isDigit.other.2
      · rw [isDash]
        decide
  · rw [List.mem_singleton.mp isLast]
    decide

theorem bracedGuid_plain (guid : Guid) : ∀ char ∈ bracedGuid guid, Plain char := by
  intro char member
  rcases List.mem_cons.mp member with isFirst | inRest
  · rw [isFirst]
    unfold Plain
    decide
  · exact (bracedGuid_chars inRest).2

theorem bracedGuid_injective {first second : Guid} {rest : List Char}
    (same : bracedGuid first ++ rest = bracedGuid second) : first = second := by
  unfold bracedGuid at same
  rw [List.cons_append, List.cons_append, List.append_assoc, List.cons_append,
    List.cons_append] at same
  exact guidText_injective
    (List.append_inj (List.cons.inj (List.cons.inj same).2).2
      (guidText_length first second)).1

theorem bracedGuid_prefix_iff {first second : Guid} :
    bracedGuid first <+: bracedGuid second ↔ first = second := by
  constructor
  · rintro ⟨rest, same⟩
    exact bracedGuid_injective same
  · rintro rfl
    exact List.prefix_refl _

theorem numberText_length (type featureId : BitVec 16) :
    (numberText type featureId).length = 14 := by
  unfold numberText
  rw [List.length_append, List.length_append, List.length_append, hex_length,
    hex_length]
  rfl

theorem numberText_injective {type featureId type' featureId' : BitVec 16}
    (same : numberText type featureId = numberText type' featureId') :
    type = type' ∧ featureId = featureId' := by
  unfold numberText at same
  have lengths (first second : Nat) :
      (hex 4 first).length = (hex 4 second).length := by
    rw [hex_length, hex_length]
  obtain ⟨front, last⟩ := List.append_inj' same (lengths _ _)
  have middle := List.append_cancel_right front
  have types := List.append_cancel_left middle
  exact ⟨BitVec.eq_of_toNat_eq (hex_injective type.isLt type'.isLt types),
    BitVec.eq_of_toNat_eq (hex_injective featureId.isLt featureId'.isLt last)⟩

theorem numberText_chars {type featureId : BitVec 16} {char : Char}
    (member : char ∈ numberText type featureId) : char ≠ 'g' ∧ Plain char := by
  unfold numberText at member
  unfold Plain
  rw [List.mem_append, List.mem_append, List.mem_append] at member
  rcases member with ((isHead | isType) | isMark) | isId
  · have all : "dfl:t".toList.all
        (fun char => char != 'g' && (char != '*' && char != '?')) = true := rfl
    have here := List.all_eq_true.mp all char isHead
    simpa using here
  · exact (hex_digits isType).other.2
  · rw [List.mem_singleton.mp isMark]
    decide
  · exact (hex_digits isId).other.2

/-! ## Aliases and their devices -/

theorem addWildcard_of_plain {str : List Char} (plain : ∀ char ∈ str, Plain char) :
    addWildcard str = str ++ ['*'] := by
  refine if_neg fun isLast => ?_
  exact (plain '*' (List.mem_of_getLast? isLast)).1 rfl

/-- The part of an alias or a device's text which shows the GUID. -/
theorem guid_prefix_iff (id : DflDeviceId) (ddev : DflDevice) :
    (if id.guid ≠ nullGuid then bracedGuid id.guid else []) <+:
        (if ddev.guid = nullGuid then [] else bracedGuid ddev.guid) ↔
      id.guid = nullGuid ∨ id.guid = ddev.guid := by
  by_cases noKey : id.guid = nullGuid
  · rw [if_neg (not_not.mpr noKey)]
    exact iff_of_true List.nil_prefix (Or.inl noKey)
  · rw [if_pos noKey, or_iff_right noKey]
    by_cases noGuid : ddev.guid = nullGuid
    · rw [if_pos noGuid, List.prefix_nil]
      refine iff_of_false nofun fun same => ?_
      exact noKey (same.trans noGuid)
    · rw [if_neg noGuid, bracedGuid_prefix_iff]

theorem numbered_alias (id : DflDeviceId) (ddev : DflDevice)
    (numbered : id.featureId ≠ 0) :
    ∃ modalias, doDflEntry id = some modalias ∧
      (fnmatch modalias (dflBusUevent ddev) = true ↔ Fits id ddev) := by
  have entry : doDflEntry id =
      some (addWildcard (numberText id.type id.featureId ++
        if id.guid ≠ nullGuid then bracedGuid id.guid else [])) := by
    unfold doDflEntry
    rw [if_neg fun empty => numbered empty.1]
    dsimp only
    rw [if_neg numbered]
    split
    · rfl
    · rw [List.append_nil]
  have plain : ∀ char ∈ numberText id.type id.featureId ++
      (if id.guid ≠ nullGuid then bracedGuid id.guid else []),
      Plain char := by
    intro char member
    rcases List.mem_append.mp member with inNumbers | inGuid
    · exact (numberText_chars inNumbers).2
    · split at inGuid
      · exact bracedGuid_plain _ char inGuid
      · cases inGuid
  refine ⟨_, entry, ?_⟩
  rw [addWildcard_of_plain plain, fnmatch_open_iff plain]
  unfold dflBusUevent Fits NumberFits
  rw [or_iff_right numbered, ← guid_prefix_iff]
  constructor
  · rintro ⟨rest, same⟩
    rw [List.append_assoc] at same
    obtain ⟨numbers, guids⟩ := List.append_inj same (by
      rw [numberText_length, numberText_length])
    exact ⟨numberText_injective numbers, rest, guids⟩
  · rintro ⟨⟨sameType, sameId⟩, rest, guids⟩
    refine ⟨rest, ?_⟩
    rw [List.append_assoc, guids, sameType, sameId]

/-- What comes with the mark of a GUID shows the GUID of the device. -/
theorem guid_of_found {ddev : DflDevice} {guid : Guid} {front rest : List Char}
    (found : dflBusUevent ddev = front ++ (bracedGuid guid ++ rest)) :
    guid = ddev.guid := by
  have notFront : 'g' ∉ numberText ddev.type ddev.featureId :=
    fun member => (numberText_chars member).1 rfl
  unfold dflBusUevent at found
  split at found
  · have marked : 'g' ∈ numberText ddev.type ddev.featureId ++ [] := by
      rw [found]
      exact List.mem_append_right _ List.mem_cons_self
    rw [List.append_nil] at marked
    exact absurd marked notFront
  · have notBack : 'g' ∉ '\x7b' :: guidText ddev.guid ++ ['\x7d'] :=
      fun member => (bracedGuid_chars member).1 rfl
    obtain ⟨-, -, same⟩ :=
      (List.append_cons_inj_of_notMem notFront notBack).mp found
    exact bracedGuid_injective (congrArg ('g' :: ·) same.symm)

theorem guidOnly_alias (id : DflDeviceId) (ddev : DflDevice)
    (unnumbered : id.featureId = 0) (hasGuid : id.guid ≠ nullGuid) :
    ∃ modalias, doDflEntry id = some modalias ∧
      (fnmatch modalias (dflBusUevent ddev) = true ↔ Fits id ddev) := by
  have entry : doDflEntry id =
      some (addWildcard ("dfl:t*f*".toList ++ bracedGuid id.guid)) := by
    unfold doDflEntry
    rw [if_neg fun empty => hasGuid empty.2]
    dsimp only
    rw [if_pos unnumbered, if_pos hasGuid]
  have wildcard : addWildcard ("dfl:t*f*".toList ++ bracedGuid id.guid) =
      "dfl:t".toList ++ '*' :: 'f' :: '*' :: (bracedGuid id.guid ++ ['*']) := by
    have isLast :
        ("dfl:t*f*".toList ++ bracedGuid id.guid).getLast? = some '\x7d' := by
      unfold bracedGuid
      rw [← List.append_assoc, List.getLast?_concat]
    refine (if_neg ?_).trans ?_
    · rw [isLast]
      decide
    · rw [List.append_assoc]
      rfl
  have plain : ∀ char ∈ "dfl:t".toList, Plain char := by
    intro char member
    have all : "dfl:t".toList.all (fun char => char != '*' && char != '?') =
      true := rfl
    have here := List.all_eq_true.mp all char member
    unfold Plain
    simpa using here
  have plainMark : Plain 'f' := by
    unfold Plain
    decide
  refine ⟨_, entry, ?_⟩
  unfold Fits
  rw [and_iff_right (Or.inl unnumbered), or_iff_right hasGuid, wildcard,
    fnmatch_plain_append_iff plain]
  constructor
  · rintro ⟨_, split, fits⟩
    obtain ⟨type, _, split', fits'⟩ := fnmatch_star_iff.mp fits
    obtain ⟨_, split'', marked⟩ := (fnmatch_plain_cons_iff plainMark).mp fits'
    obtain ⟨featureId, _, last, braced⟩ := fnmatch_star_iff.mp marked
    obtain ⟨rest, rfl⟩ := (fnmatch_open_iff (bracedGuid_plain _)).mp braced
    have found : dflBusUevent ddev =
        ("dfl:t".toList ++ type ++ 'f' :: featureId) ++
          (bracedGuid id.guid ++ rest) := by
      rw [split, split', split'', last]
      simp only [List.append_assoc, List.cons_append]
    exact guid_of_found found
  · intro same
    have announced : dflBusUevent ddev =
        "dfl:t".toList ++ (hex 4 ddev.type.toNat ++
          'f' :: (hex 4 ddev.featureId.toNat ++ bracedGuid id.guid)) := by
      unfold dflBusUevent numberText
      rw [if_neg (same ▸ hasGuid), same]
      simp only [List.append_assoc, List.cons_append, List.nil_append]
    refine ⟨_, announced, fnmatch_star_iff.mpr ⟨_, _, rfl, ?_⟩⟩
    refine (fnmatch_plain_cons_iff plainMark).mpr ⟨_, rfl, ?_⟩
    refine fnmatch_star_iff.mpr ⟨_, _, rfl, ?_⟩
    exact (fnmatch_open_iff (bracedGuid_plain _)).mpr (List.prefix_refl _)

/-- The alias of an entry matches the devices which all its keys fit. -/
theorem alias_matches_iff (id : DflDeviceId) (ddev : DflDevice)
    (real : id.featureId ≠ 0 ∨ id.guid ≠ nullGuid) :
    ∃ modalias, doDflEntry id = some modalias ∧
      (fnmatch modalias (dflBusUevent ddev) = true ↔ Fits id ddev) := by
  by_cases numbered : id.featureId = 0
  · exact guidOnly_alias id ddev numbered
      (real.resolve_left (not_not.mpr numbered))
  · exact numbered_alias id ddev numbered

theorem loads_iff (table : IdTable) (ddev : DflDevice) :
    Loads table ddev ↔ ∃ entry ∈ table.entries, Fits entry ddev := by
  have entries : table.array.dropLast = table.entries :=
    List.dropLast_concat
  unfold Loads doTable
  rw [entries]
  constructor
  · rintro ⟨modalias, listed, fits⟩
    obtain ⟨entry, member, isAlias⟩ := List.mem_filterMap.mp listed
    obtain ⟨_, also, isMatch⟩ :=
      alias_matches_iff entry ddev (table.real entry member)
    rw [isAlias] at also
    cases also
    exact ⟨entry, member, isMatch.mp fits⟩
  · rintro ⟨entry, member, fits⟩
    obtain ⟨modalias, isAlias, isMatch⟩ :=
      alias_matches_iff entry ddev (table.real entry member)
    exact ⟨modalias, List.mem_filterMap.mpr ⟨entry, member, isAlias⟩,
      isMatch.mpr fits⟩

/-! ## The bus and its devices -/

theorem matchOne_iff {id : DflDeviceId} {ddev : DflDevice} :
    dflMatchOneDevice id ddev = true ↔
      dflGuidIsValid ddev.guid = true ∧ id.guid = ddev.guid ∨
        NumberFits id ddev := by
  unfold dflMatchOneDevice NumberFits
  rw [Bool.or_eq_true, Bool.and_eq_true, Bool.and_eq_true, beq_iff_eq,
    beq_iff_eq, beq_iff_eq]

theorem busMatch_iff (ddev : DflDevice) (entries : List DflDeviceId) :
    dflBusMatch ddev (entries ++ [terminator]) ≠ none ↔
      ∃ entry ∈ entries.takeWhile goesOn,
        dflMatchOneDevice entry ddev = true := by
  have ends : goesOn terminator = false := by decide
  induction entries with
  | nil =>
      refine iff_of_false ?_ ?_
      · rw [List.nil_append, dflBusMatch, ends, if_neg Bool.false_ne_true]
        exact not_not.mpr rfl
      · rintro ⟨_, member, -⟩
        cases member
  | cons entry rest ih =>
      rw [List.cons_append, dflBusMatch, List.takeWhile_cons]
      cases more : goesOn entry with
      | false =>
          refine iff_of_false (fun found => found rfl) ?_
          rintro ⟨_, member, -⟩
          cases member
      | true =>
          rw [if_pos rfl, if_pos rfl, List.exists_mem_cons_iff]
          refine .trans ?_ (or_congr Iff.rfl ih)
          cases fits : dflMatchOneDevice entry ddev with
          | true =>
              rw [if_pos rfl]
              exact iff_of_true nofun (Or.inl rfl)
          | false =>
              rw [if_neg Bool.false_ne_true, or_iff_right Bool.false_ne_true]

theorem valid_ne_null {guid : Guid} (valid : dflGuidIsValid guid = true) :
    guid ≠ nullGuid := by
  rintro rfl
  exact absurd valid (by decide)

/-- An entry which is looked at matches by all of its keys, or by some. -/
theorem matchOne_iff_fits {id : DflDeviceId} {ddev : DflDevice}
    (looked : goesOn id = true) :
    dflMatchOneDevice id ddev = true ↔ Fits id ddev ∨ HalfFits id ddev := by
  have keys : id.featureId ≠ 0 ∨ dflGuidIsValid id.guid = true := by
    unfold goesOn at looked
    rw [Bool.or_eq_true, bne_iff_ne] at looked
    exact looked
  rw [matchOne_iff]
  unfold Fits HalfFits
  constructor
  · rintro (⟨valid, sameGuid⟩ | numbers)
    · by_cases numbers : id.featureId = 0 ∨ NumberFits id ddev
      · exact Or.inl ⟨numbers, Or.inr sameGuid⟩
      · rw [not_or] at numbers
        exact Or.inr (Or.inr ⟨sameGuid, valid, numbers⟩)
    · by_cases guids : id.guid = nullGuid ∨ id.guid = ddev.guid
      · exact Or.inl ⟨Or.inr numbers, guids⟩
      · rw [not_or] at guids
        exact Or.inr (Or.inl ⟨numbers, guids⟩)
  · rintro (⟨unnumbered | numbers, guids⟩ |
      ⟨numbers, -⟩ | ⟨sameGuid, valid, -⟩)
    · have valid := keys.resolve_left (not_not.mpr unnumbered)
      have sameGuid := guids.resolve_left (valid_ne_null valid)
      exact Or.inl ⟨sameGuid ▸ valid, sameGuid⟩
    · exact Or.inr numbers
    · exact Or.inr numbers
    · exact Or.inl ⟨valid, sameGuid⟩

/--
The bus and the aliases agree about a device exactly if the keys of the
entries do.
-/
theorem agrees_iff (table : IdTable) (ddev : DflDevice) :
    Agrees table ddev ↔ KeysAgree table ddev := by
  have matches' : dflBusMatch ddev table.array ≠ none ↔
      (∃ entry ∈ table.searched, Fits entry ddev) ∨
        ∃ entry ∈ table.searched, HalfFits entry ddev := by
    unfold IdTable.array
    rw [busMatch_iff, ← exists_or]
    refine exists_congr fun entry => ?_
    rw [← and_or_left]
    refine and_congr_right fun member => ?_
    exact matchOne_iff_fits (List.mem_takeWhile_imp member)
  have loads : Loads table ddev ↔
      (∃ entry ∈ table.searched, Fits entry ddev) ∨
        ∃ entry ∈ table.unsearched, Fits entry ddev := by
    have split : table.searched ++ table.unsearched = table.entries :=
      List.takeWhile_append_dropWhile
    rw [loads_iff, ← split]
    simp only [List.mem_append, or_and_right, exists_or]
  have alone (entry : DflDeviceId) (unnumbered : entry.featureId = 0) :
      (dflBusMatch ddev [entry, terminator] ≠ none →
          ddev.guid = entry.guid) ↔
        (dflGuidIsValid entry.guid = true → NumberFits entry ddev →
          entry.guid = ddev.guid) := by
    have single := busMatch_iff ddev [entry]
    have looked : goesOn entry = dflGuidIsValid entry.guid := by
      unfold goesOn
      rw [unnumbered]
      rfl
    rw [List.cons_append, List.nil_append] at single
    rw [single, List.takeWhile_cons, looked]
    cases valid : dflGuidIsValid entry.guid with
    | false =>
        refine iff_of_true ?_ nofun
        rintro ⟨_, member, -⟩
        cases member
    | true =>
        rw [if_pos rfl, List.takeWhile_nil]
        simp only [List.mem_singleton, exists_eq_left, matchOne_iff]
        constructor
        · intro only _ numbers
          exact (only (Or.inr numbers)).symm
        · rintro keys (⟨-, same⟩ | numbers)
          · exact same.symm
          · exact (keys trivial numbers).symm
  constructor
  · intro agrees
    refine ⟨?_, fun entry member unnumbered => ?_⟩
    · have same := agrees.loads
      rw [matches', loads] at same
      by_cases wholly : ∃ entry ∈ table.searched, Fits entry ddev
      · exact Or.inl wholly
      · rw [or_iff_right wholly, or_iff_right wholly] at same
        exact Or.inr same
    · exact (alone entry unnumbered).mp
        (agrees.guidOnly entry member unnumbered)
  · intro keys
    refine ⟨?_, fun entry member unnumbered => ?_⟩
    · rw [matches', loads]
      rcases keys.entries with wholly | same
      · exact iff_of_true (Or.inl wholly) (Or.inl wholly)
      · exact or_congr Iff.rfl same
    · exact (alone entry unnumbered).mpr
        (keys.guidOnly entry member unnumbered)

/-- A table of one entry, which has both keys. -/
def bothKeys : IdTable where
  entries :=
    [{ type := 0, featureId := 0x14, guid := Vector.replicate 16 0x11 }]
  real := by decide

/-- A device with the numbers of the entry is matched without its GUID. -/
theorem bothKeys_disagree :
    ¬ Agrees bothKeys { type := 0, featureId := 0x14, guid := nullGuid } := by
  intro agrees
  have loads := agrees.loads.mp (by decide)
  obtain ⟨entry, member, -, guids⟩ := (loads_iff _ _).mp loads
  rw [List.mem_singleton.mp member] at guids
  rcases guids with isNull | same
  · exact absurd isNull (by decide)
  · exact absurd same (by decide)

end LinuxDfl.Dfl.ModAlias

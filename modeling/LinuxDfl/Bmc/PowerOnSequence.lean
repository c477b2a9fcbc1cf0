import LinuxDfl.Bmc.PowerOnImage
import Mathlib.Data.List.Infix
import Mathlib.Tactic.IntervalCases

/-!
# The power-on sequence which is set

The string which is stored selects with its first images where the board boots
from, and the string which is shown is made of the selection.  What is shown
can be stored again, and what has been stored is shown, with the images after
it which it has left open.
-/

namespace LinuxDfl.Bmc.PowerOnImage

open LinuxDfl.Kernel

/-! ## Registers -/

/-- `PMCI_FPGA_POC` -/
def pmciFpgaPoc : BitVec 32 := 0x1
/-- `PMCI_FACTORY_IMAGE_SEL` -/
def pmciFactoryImageSel : BitVec 32 := .twoPow 32 31
/-- `PMCI_USER_IMAGE_PAGE` -/
def pmciUserImagePage : BitVec 32 := 0x700
/-- `POC_USER_IMAGE_1` -/
def pocUserImage1 : BitVec 3 := 1
/-- `POC_USER_IMAGE_2` -/
def pocUserImage2 : BitVec 3 := 2
/-- `NIOS_STATUS_SUCCESS` -/
def niosStatusSuccess : BitVec 2 := 1

/-- `FIELD_GET(PMCI_USER_IMAGE_PAGE, val)` -/
def userPage (val : BitVec 32) : BitVec 3 := val.extractLsb' 8 3

/-- `FIELD_PREP(PMCI_USER_IMAGE_PAGE, page)` -/
def prepUserPage (page : BitVec 3) : BitVec 32 := page.setWidth 32 <<< 8

/-- `FIELD_GET(PMCI_NIOS_STATUS, val)` -/
def niosStatus (val : BitVec 32) : BitVec 2 := val.extractLsb' 4 2

/-- What the accesses to the registers of the selection meet. -/
structure PocIo where
  /-- `M10BMC_PMCI_FPGA_POC` -/
  fpgaPoc : BitVec 32
  updateBits : Option Errno
  /-- `M10BMC_PMCI_FPGA_POC_STS_BL` -/
  stsBl : Except Errno (BitVec 32)
  /-- The poll of `M10BMC_PMCI_FPGA_POC`, and the value it has read last. -/
  poll : Option Errno × BitVec 32

/-! ## Setting and showing -/

/-- The user image which `pmci_set_power_on_image` selects. -/
def selectedPage (io : PocIo) (user : Option FpgaImage) :
    Except Errno (BitVec 3) :=
  match user with
  | some .user1 => .ok pocUserImage1
  | some .user2 => .ok pocUserImage2
  | _ =>
      match io.stsBl with
      | .error ret => .error ret
      | .ok val =>
          .ok (if userPage val = pocUserImage1 then pocUserImage1
            else pocUserImage2)

/-- `regmap_update_bits` -/
def updatedBits (old mask val : BitVec 32) : BitVec 32 :=
  (old &&& ~~~mask) ||| (val &&& mask)

/-- The bits which a selection changes. -/
def pocMask : BitVec 32 :=
  pmciFactoryImageSel ||| pmciUserImagePage ||| pmciFpgaPoc

/-- `pmci_set_power_on_image`, and what it leaves in the register -/
def pmciSetPowerOnImage (io : PocIo) (images : List (Option FpgaImage)) :
    Option Errno × BitVec 32 :=
  if images.getD 1 none = some .factory then (some .einval, io.fpgaPoc)
  else
    let factory := images.getD 0 none = some .factory
    let poc := if factory then pmciFactoryImageSel else 0
    let firstUser := if factory then 1 else 0
    match selectedPage io (images.getD firstUser none) with
    | .error ret => (some ret, io.fpgaPoc)
    | .ok page =>
        match io.updateBits with
        | some ret => (some ret, io.fpgaPoc)
        | none =>
            (if io.poll.1.isSome ∨ niosStatus io.poll.2 ≠ niosStatusSuccess then
                some .eio
              else none,
              updatedBits io.fpgaPoc pocMask
                (poc ||| prepUserPage page ||| pmciFpgaPoc))

/-- The images in the order of `pmci_get_power_on_image`. -/
def shownImages (poc : BitVec 32) : List FpgaImage :=
  let users : List FpgaImage :=
    if userPage poc = pocUserImage1 then [.user1, .user2]
    else [.user2, .user1]
  if poc &&& pmciFactoryImageSel ≠ 0 then .factory :: users
  else users ++ [.factory]

/-- Names with a space between them. -/
def namesOf (images : List FpgaImage) : List Char :=
  [' '].intercalate (images.map FpgaImage.name)

/-- `pmci_get_power_on_image` -/
def pmciGetPowerOnImage (stsBl : Except Errno (BitVec 32)) :
    Except Errno (List Char) :=
  match stsBl with
  | .error ret => .error ret
  | .ok poc => .ok (namesOf (shownImages poc) ++ ['\n'])

/-- `pmci_power_on_image`, with these registers behind it -/
def pmciPowerOnImage (io : PocIo) : PowerOnStore where
  availImageMask := pmciAvailImageMask
  setSequence images := (pmciSetPowerOnImage io images).1
  kmemdupNul := true

/-! ## The selection -/

/-- Two registers select the same images. -/
def SameSelection (first second : BitVec 32) : Prop :=
  (first.getLsbD 31 = second.getLsbD 31) ∧
    (userPage first = pocUserImage1 ↔ userPage second = pocUserImage1)

theorem factorySel_iff (poc : BitVec 32) :
    poc &&& pmciFactoryImageSel ≠ 0 ↔ poc.getLsbD 31 = true := by
  rw [pmciFactoryImageSel, BitVec.and_twoPow]
  cases poc.getLsbD 31 with
  | true => exact iff_of_true (by decide) rfl
  | false => exact iff_of_false (by decide) (by decide)

/-- What is shown depends on the selection only. -/
theorem shownImages_congr {first second : BitVec 32}
    (same : SameSelection first second) :
    shownImages first = shownImages second := by
  unfold shownImages
  simp only [factorySel_iff, same.1, same.2]

/-- The bits of the mask are those of the new value. -/
theorem updatedBits_getLsbD {old mask val : BitVec 32} {i : Nat}
    (inside : mask.getLsbD i = true) :
    (updatedBits old mask val).getLsbD i = val.getLsbD i := by
  simp [updatedBits, inside]

/-- A selection is written as it is asked for. -/
theorem sameSelection_updatedBits (old val : BitVec 32) :
    SameSelection (updatedBits old pocMask val) val := by
  have page : userPage (updatedBits old pocMask val) = userPage val := by
    refine BitVec.eq_of_getLsbD_eq fun i inside => ?_
    have isMask : pocMask.getLsbD (8 + i) = true := by
      interval_cases i <;> rfl
    simp only [userPage, BitVec.getLsbD_extractLsb', inside,
      updatedBits_getLsbD isMask]
  exact ⟨updatedBits_getLsbD (by decide), by rw [page]⟩

/-- What a request selects. -/
def request (factory : Bool) (page : BitVec 3) : BitVec 32 :=
  (if factory then pmciFactoryImageSel else 0) ||| prepUserPage page |||
    pmciFpgaPoc

/-- The images which the request of a page begins with. -/
theorem shownImages_request (factory : Bool) :
    shownImages (request factory pocUserImage1) =
        (if factory then [.factory, .user1, .user2]
        else [.user1, .user2, .factory]) ∧
      shownImages (request factory pocUserImage2) =
        if factory then [.factory, .user2, .user1]
        else [.user2, .user1, .factory] := by
  cases factory with
  | true => exact ⟨by decide, by decide⟩
  | false => exact ⟨by decide, by decide⟩

/-- The accesses to the registers work. -/
structure PocIo.Works (io : PocIo) : Prop where
  updateBits : io.updateBits = none
  stsBl : ∃ val, io.stsBl = .ok val
  poll : io.poll.1 = none
  success : niosStatus io.poll.2 = niosStatusSuccess

/-! ## Storing -/

/-- The user image which a sequence asks for. -/
def firstUser (images : List (Option FpgaImage)) : Option FpgaImage :=
  images.getD (if images.getD 0 none = some .factory then 1 else 0) none

/-- The page is that of the user image, if there is one. -/
def PageOf (user : Option FpgaImage) (page : BitVec 3) : Prop :=
  (page = pocUserImage1 ∨ page = pocUserImage2) ∧
    (user = some .user1 → page = pocUserImage1) ∧
    (user = some .user2 → page = pocUserImage2)

instance (user : Option FpgaImage) (page : BitVec 3) :
    Decidable (PageOf user page) :=
  inferInstanceAs (Decidable (_ ∧ _ ∧ _))

theorem selectedPage_ok {io : PocIo} (works : io.Works)
    (user : Option FpgaImage) :
    ∃ page, selectedPage io user = .ok page ∧ PageOf user page := by
  obtain ⟨val, isVal⟩ := works.stsBl
  have fromStatus (other : user ≠ some .user1 ∧ user ≠ some .user2) :
      PageOf user (if userPage val = pocUserImage1 then pocUserImage1
        else pocUserImage2) := by
    refine ⟨?_, fun same => absurd same other.1,
      fun same => absurd same other.2⟩
    split_ifs with isFirst
    · exact Or.inl rfl
    · exact Or.inr rfl
  unfold selectedPage
  rcases user with - | user
  · exact ⟨_, by rw [isVal], fromStatus ⟨by decide, by decide⟩⟩
  cases user with
  | factory => exact ⟨_, by rw [isVal], fromStatus ⟨by decide, by decide⟩⟩
  | user1 => exact ⟨_, rfl, by decide⟩
  | user2 => exact ⟨_, rfl, by decide⟩

/-- A sequence with the factory image between others is refused. -/
theorem pmciSetPowerOnImage_refused (io : PocIo)
    {images : List (Option FpgaImage)}
    (second : images.getD 1 none = some .factory) :
    pmciSetPowerOnImage io images = (some .einval, io.fpgaPoc) :=
  if_pos second

/-- Other sequences are requested. -/
theorem pmciSetPowerOnImage_ok {io : PocIo} (works : io.Works)
    {images : List (Option FpgaImage)}
    (second : images.getD 1 none ≠ some .factory) :
    ∃ page, PageOf (firstUser images) page ∧
      pmciSetPowerOnImage io images =
        (none, updatedBits io.fpgaPoc pocMask
          (request (images.getD 0 none = some .factory) page)) := by
  obtain ⟨page, isPage, pageOf⟩ := selectedPage_ok works (firstUser images)
  refine ⟨page, pageOf, ?_⟩
  have fine : ¬ (io.poll.1.isSome = true ∨
      niosStatus io.poll.2 ≠ niosStatusSuccess) := by
    rw [works.poll, works.success]
    simp
  unfold firstUser at isPage
  unfold pmciSetPowerOnImage
  rw [if_neg second]
  simp only [isPage, works.updateBits, if_neg fine, request,
    decide_eq_true_eq]

/-- What is requested for these images is shown with them first. -/
def ShownFirst (images : List FpgaImage) : Prop :=
  ∀ page : BitVec 3, PageOf (firstUser (padded images)) page →
    images <+: shownImages
      (request ((padded images).getD 0 none = some .factory) page)

instance (images : List FpgaImage) : Decidable (ShownFirst images) :=
  inferInstanceAs (Decidable (∀ _ : BitVec 3, _))

theorem shownFirst_one (first : FpgaImage) : ShownFirst [first] := by
  cases first with
  | factory => decide
  | user1 => decide
  | user2 => decide

theorem shownFirst_two {first second : FpgaImage} (differ : first ≠ second)
    (user : second ≠ .factory) : ShownFirst [first, second] := by
  revert differ user
  cases first with
  | factory => cases second <;> decide
  | user1 => cases second <;> decide
  | user2 => cases second <;> decide

theorem shownFirst_three {first second third : FpgaImage}
    (nodup : [first, second, third].Nodup) (user : second ≠ .factory) :
    ShownFirst [first, second, third] := by
  revert nodup user
  cases first with
  | factory => cases second <;> cases third <;> decide
  | user1 => cases second <;> cases third <;> decide
  | user2 => cases second <;> cases third <;> decide

theorem shownFirst_of_nodup {images : List FpgaImage} (nodup : images.Nodup)
    (second : (padded images).getD 1 none ≠ some .factory) :
    ShownFirst images := by
  have short := length_le_of_nodup nodup
  rcases images with - | ⟨first, - | ⟨next, - | ⟨last, - | ⟨more, rest⟩⟩⟩⟩
  · exact fun page _ => List.nil_prefix
  · exact shownFirst_one first
  · have user : next ≠ .factory := fun same => second (by rw [same]; rfl)
    refine shownFirst_two ?_ user
    rintro rfl
    simp at nodup
  · have user : next ≠ .factory := fun same => second (by rw [same]; rfl)
    exact shownFirst_three nodup user
  · simp only [List.length_cons, fpgaMax] at short
    omega

/-- What is shown is one of the sequences which can be requested. -/
theorem shownImages_cases (poc : BitVec 32) :
    shownImages poc ∈
      [[.factory, .user1, .user2], [.factory, .user2, .user1],
        [.user1, .user2, .factory], [.user2, .user1, .factory]] := by
  unfold shownImages
  split_ifs with page factory
  · exact List.mem_of_getElem? (i := 0) rfl
  · exact List.mem_of_getElem? (i := 2) rfl
  · exact List.mem_of_getElem? (i := 1) rfl
  · exact List.mem_of_getElem? (i := 3) rfl

theorem shownImages_listed (poc : BitVec 32) :
    Listed pmciAvailImageMask (shownImages poc) := by
  have all : ∀ shown ∈
      [[FpgaImage.factory, .user1, .user2], [.factory, .user2, .user1],
        [.user1, .user2, .factory], [.user2, .user1, .factory]],
      shown.Nodup ∧
        ∀ image ∈ shown, available pmciAvailImageMask image = true := by
    decide
  exact all _ (shownImages_cases poc)

/-- The factory image is never shown in the second place. -/
theorem second_of_shown {images : List FpgaImage} {poc : BitVec 32}
    (isPrefix : images <+: shownImages poc) :
    (padded images).getD 1 none ≠ some .factory := by
  have all : ∀ shown ∈
      [[FpgaImage.factory, .user1, .user2], [.factory, .user2, .user1],
        [.user1, .user2, .factory], [.user2, .user1, .factory]],
      ∀ images ∈ shown.inits,
        (padded images).getD 1 none ≠ some .factory := by
    decide
  exact all _ (shownImages_cases poc) images ((List.mem_inits _ _).mpr isPrefix)

/-! ## The attribute -/

/-- What a string leaves in the register of the selection. -/
def storedPoc (io : PocIo) (buf : List Char) : BitVec 32 :=
  match fpgaImages pmciAvailImageMask (cString buf) with
  | (some _, _) => io.fpgaPoc
  | (none, scan) => (pmciSetPowerOnImage io scan.images).2

/-- The string names these images, with spaces or newlines between them. -/
def Names (buf : List Char) (images : List FpgaImage) : Prop :=
  images ≠ [] ∧ (cString buf).map toSpace = namesOf images

/-- The images which are named are set. -/
theorem storedPoc_of_names {io : PocIo} {buf : List Char}
    {images : List FpgaImage} (names : Names buf images)
    (listed : Listed pmciAvailImageMask images) :
    storedPoc io buf = (pmciSetPowerOnImage io (padded images)).2 := by
  have isList : IsImageList pmciAvailImageMask ((cString buf).map toSpace)
      images := ⟨names.1, listed, names.2⟩
  have accepted := (fpgaImages_accepts_iff _ _).mpr ⟨images, isList⟩
  have inArray := fpgaImages_images accepted isList
  have parses : fpgaImages pmciAvailImageMask (cString buf) =
      (none, (fpgaImages pmciAvailImageMask (cString buf)).2) :=
    Prod.ext accepted rfl
  rw [storedPoc, parses]
  dsimp only
  rw [inArray]

/-- A sequence which names images first to be shown is requested. -/
theorem requested_of_second {io : PocIo} (works : io.Works)
    {images : List FpgaImage} (nodup : images.Nodup)
    (second : (padded images).getD 1 none ≠ some .factory) :
    (pmciSetPowerOnImage io (padded images)).1 = none ∧
      images <+:
        shownImages (pmciSetPowerOnImage io (padded images)).2 := by
  obtain ⟨page, pageOf, requested⟩ := pmciSetPowerOnImage_ok works second
  rw [requested]
  refine ⟨rfl, ?_⟩
  rw [shownImages_congr (sameSelection_updatedBits _ _)]
  exact shownFirst_of_nodup nodup second page pageOf

theorem listed_of_shown {images : List FpgaImage} {poc : BitVec 32}
    (isPrefix : images <+: shownImages poc) :
    Listed pmciAvailImageMask images := by
  obtain ⟨nodup, isAvailable⟩ := shownImages_listed poc
  exact ⟨nodup.sublist isPrefix.sublist,
    fun image member => isAvailable image (isPrefix.subset member)⟩

/-- A string is stored if the images which it names are shown first. -/
theorem powerOnImageStore_iff {io : PocIo} (works : io.Works)
    (buf : List Char) :
    powerOnImageStore (pmciPowerOnImage io) buf = .ok buf.length ↔
      ∃ images poc, Names buf images ∧ images <+: shownImages poc := by
  rw [powerOnImageStore_ok_iff]
  constructor
  · rintro ⟨-, -, images, isList, set⟩
    have second : (padded images).getD 1 none ≠ some .factory := by
      intro isFactory
      have refused : (pmciSetPowerOnImage io (padded images)).1 = none := set
      rw [pmciSetPowerOnImage_refused io isFactory] at refused
      cases refused
    exact ⟨images, _, ⟨isList.nonempty, isList.names_eq⟩,
      (requested_of_second works isList.listed.1 second).2⟩
  · rintro ⟨images, poc, ⟨nonempty, names⟩, isPrefix⟩
    have listed := listed_of_shown isPrefix
    exact ⟨rfl, rfl, images, ⟨nonempty, listed, names⟩,
      (requested_of_second works listed.1 (second_of_shown isPrefix)).1⟩

/-- What is refused leaves the selection. -/
theorem storedPoc_of_refused {io : PocIo} (works : io.Works) {buf : List Char}
    (refused : powerOnImageStore (pmciPowerOnImage io) buf ≠
      .ok buf.length) :
    storedPoc io buf = io.fpgaPoc := by
  unfold storedPoc
  split
  · rfl
  case _ scan parses =>
    have accepted := congrArg Prod.fst parses
    obtain ⟨images, isList⟩ := (fpgaImages_accepts_iff _ _).mp accepted
    have inArray := fpgaImages_images accepted isList
    rw [parses] at inArray
    rw [inArray]
    by_cases second : (padded images).getD 1 none = some .factory
    · rw [pmciSetPowerOnImage_refused io second]
    · have requested := requested_of_second works isList.listed.1 second
      exact absurd ((powerOnImageStore_iff works buf).mpr
        ⟨images, _, ⟨isList.nonempty, isList.names_eq⟩, requested.2⟩) refused

/-- What has been stored is shown first. -/
theorem shown_of_stored {io : PocIo} (works : io.Works) {buf : List Char}
    {images : List FpgaImage} {poc : BitVec 32} (names : Names buf images)
    (isPrefix : images <+: shownImages poc) :
    images <+: shownImages (storedPoc io buf) := by
  have listed := listed_of_shown isPrefix
  rw [storedPoc_of_names names listed]
  exact (requested_of_second works listed.1 (second_of_shown isPrefix)).2

/-- The names which are shown name the images. -/
theorem names_of_shown {buf : List Char} {poc : BitVec 32}
    (shown : cString buf = namesOf (shownImages poc)) :
    Names buf (shownImages poc) := by
  have nonempty : shownImages poc ≠ [] := by
    unfold shownImages
    split_ifs <;> exact List.cons_ne_nil _ _
  have isList : IsImageList pmciAvailImageMask (namesOf (shownImages poc))
      (shownImages poc) := ⟨nonempty, shownImages_listed poc, rfl⟩
  refine ⟨nonempty, ?_⟩
  rw [shown]
  exact map_toSpace_of_noNewline isList.noNewline

theorem length_shownImages (poc : BitVec 32) :
    (shownImages poc).length = 3 := by
  unfold shownImages
  split_ifs <;> rfl

/-- Registers which work, and select the second user image. -/
def workingPoc : PocIo where
  fpgaPoc := 0x210
  updateBits := none
  stsBl := .ok 0x200
  poll := (none, 0x210)

end LinuxDfl.Bmc.PowerOnImage

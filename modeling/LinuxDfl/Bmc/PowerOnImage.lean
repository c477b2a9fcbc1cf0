import LinuxDfl.Kernel.Errno
import Mathlib.Data.List.Nodup
import Mathlib.Data.List.Perm.Subperm

/-!
# The list of power-on images

A string names the images to boot from, one after the other.  It is taken
apart at spaces and at newlines alike, and an image which has been named is
no longer available.
-/

namespace LinuxDfl.Bmc.PowerOnImage

open LinuxDfl.Kernel

/-! ## Images and their names -/

/-- `enum fpga_image`, of which `FPGA_MAX` is no image. -/
inductive FpgaImage where
  | factory
  | user1
  | user2
  deriving DecidableEq, Repr

/-- `FPGA_MAX` -/
def fpgaMax : Nat := 3

/-- The value of the enumeration. -/
def FpgaImage.value : FpgaImage → Nat
  | .factory => 0
  | .user1 => 1
  | .user2 => 2

/-- `fpga_image_names` -/
def FpgaImage.name : FpgaImage → List Char
  | .factory => "fpga_factory".toList
  | .user1 => "fpga_user1".toList
  | .user2 => "fpga_user2".toList

/-- The images in the order of their values. -/
def fpgaImageOrder : List FpgaImage := [.factory, .user1, .user2]

/-- `sysfs_streq`: one of the strings may end in a newline which the other
has not. -/
def sysfsStreq (first second : List Char) : Bool :=
  first = second || first = second ++ ['\n'] || second = first ++ ['\n']

/-- `fpga_image_by_name`, which returns `FPGA_MAX` for other names. -/
def fpgaImageByName (imageName : List Char) : Option FpgaImage :=
  fpgaImageOrder.find? fun image => sysfsStreq imageName image.name

/-! ## The parser -/

/-- The characters at which `fpga_images` takes a string apart. -/
def isSeparator (char : Char) : Bool := char = ' ' || char = '\n'

/-- `strsep`: the next token, and what is left after its separator. -/
def strsep : List Char → List Char × Option (List Char)
  | [] => ([], none)
  | char :: rest =>
      if isSeparator char then ([], some rest)
      else (char :: (strsep rest).1, (strsep rest).2)

/-- What is left of the names, the mask and the array while they are parsed. -/
structure ImageScan where
  /-- `image_mask` -/
  imageMask : BitVec 32
  /-- `images`, where `none` is `FPGA_MAX`. -/
  images : List (Option FpgaImage)
  i : Nat
  /-- The entries of `images` which were written, in order. -/
  written : List Nat

/-- `image_mask & BIT(image)` -/
def available (mask : BitVec 32) (image : FpgaImage) : Bool :=
  mask.getLsbD image.value

/-- An image is stored, and taken off the mask. -/
def ImageScan.store (scan : ImageScan) (image : FpgaImage) : ImageScan where
  imageMask := scan.imageMask &&& ~~~ BitVec.twoPow 32 image.value
  images := scan.images.set scan.i (some image)
  i := scan.i + 1
  written := scan.written ++ [scan.i]

/-- What `strsep` leaves is shorter. -/
theorem strsep_left_lt {names rest : List Char}
    (left : (strsep names).2 = some rest) : rest.length < names.length := by
  induction names with
  | nil => cases left
  | cons char names ih =>
      rw [strsep] at left
      by_cases separates : isSeparator char = true
      · rw [if_pos separates] at left
        cases left
        exact Nat.lt_succ_self _
      · rw [if_neg separates] at left
        exact Nat.lt_succ_of_lt (ih left)

/-- The loop of `fpga_images`; without names it ends. -/
def fpgaImagesFrom (names : List Char) (scan : ImageScan) :
    Option Errno × ImageScan :=
  match fpgaImageByName (strsep names).1 with
  | none => (some .einval, scan)
  | some image =>
      if !available scan.imageMask image then (some .einval, scan)
      else
        match _left : (strsep names).2 with
        | none =>
            ((if (scan.store image).i = 0 then some .einval else none),
              scan.store image)
        | some rest => fpgaImagesFrom rest (scan.store image)
termination_by names.length
decreasing_by exact strsep_left_lt _left

/-- `images` as `power_on_image_store` initialises it. -/
def noImages : List (Option FpgaImage) := List.replicate fpgaMax none

/-- `fpga_images`, on an array without images -/
def fpgaImages (availImageMask : BitVec 32) (names : List Char) :
    Option Errno × ImageScan :=
  fpgaImagesFrom names ⟨availImageMask, noImages, 0, []⟩

/-- The string which `kmemdup_nul` copies ends at the first null character. -/
def cString (buf : List Char) : List Char := buf.takeWhile (· ≠ '\x00')

/-- What `power_on_image_store` meets. -/
structure PowerOnStore where
  /-- `avail_image_mask` -/
  availImageMask : BitVec 32
  /-- `set_sequence` -/
  setSequence : List (Option FpgaImage) → Option Errno
  kmemdupNul : Bool

/-- `power_on_image_store`, which returns the number of characters. -/
def powerOnImageStore (env : PowerOnStore) (buf : List Char) :
    Except Errno Nat :=
  if !env.kmemdupNul then .error .enomem
  else
    match fpgaImages env.availImageMask (cString buf) with
    | (some ret, _) => .error ret
    | (none, scan) =>
        match env.setSequence scan.images with
        | some ret => .error ret
        | none => .ok buf.length

/-! ## What is to hold -/

/-- The images are available, and each of them is there once. -/
def Listed (mask : BitVec 32) (images : List FpgaImage) : Prop :=
  images.Nodup ∧ ∀ image ∈ images, available mask image = true

/-- The string is a list of available images, with a space between names. -/
structure IsImageList (mask : BitVec 32) (names : List Char)
    (images : List FpgaImage) : Prop where
  nonempty : images ≠ []
  listed : Listed mask images
  names_eq : names = [' '].intercalate (images.map FpgaImage.name)

/-- A newline may come after the list. -/
def WellFormed (mask : BitVec 32) (names : List Char)
    (images : List FpgaImage) : Prop :=
  IsImageList mask names images ∨
    ∃ list, names = list ++ ['\n'] ∧ IsImageList mask list images

/-- The images in order, and `FPGA_MAX` after them. -/
def padded (images : List FpgaImage) : List (Option FpgaImage) :=
  images.map some ++ List.replicate (fpgaMax - images.length) none

/--
The parser returns 0 exactly for lists of images, whose images are then in the
array, and writes no entry which the array does not have.
-/
structure Parses (mask : BitVec 32) (names : List Char) : Prop where
  accepted_iff : (fpgaImages mask names).1 = none ↔
    ∃ images, WellFormed mask names images
  images : (fpgaImages mask names).1 = none →
    ∀ images, WellFormed mask names images →
      (fpgaImages mask names).2.images = padded images
  within : ∀ entry ∈ (fpgaImages mask names).2.written, entry < fpgaMax

/-- A list of images with a newline after it. -/
def EndsInNewline (mask : BitVec 32) (names : List Char) : Prop :=
  ∃ list images, names = list ++ ['\n'] ∧ IsImageList mask list images

/-- A space where there is a newline. -/
def toSpace (char : Char) : Char := if char = '\n' then ' ' else char

/-- A list of images but for newlines where there should be spaces. -/
def NewlineForSpace (mask : BitVec 32) (names : List Char) : Prop :=
  '\n' ∈ names ∧ ∃ images, IsImageList mask (names.map toSpace) images

/-! ## Names and tokens -/

theorem name_noSeparator (image : FpgaImage) :
    ∀ char ∈ image.name, isSeparator char = false := by
  have all : image.name.all (fun char => !isSeparator char) = true := by
    cases image <;> rfl
  intro char mem
  simpa using List.all_eq_true.mp all char mem

/-- Each image is found by its name. -/
theorem byName_name (image : FpgaImage) :
    fpgaImageByName image.name = some image := by
  cases image <;> decide

theorem name_injective : Function.Injective FpgaImage.name := by
  intro left right same
  have found := byName_name left
  rw [same, byName_name right] at found
  exact (Option.some.inj found).symm

/-- A token which names an image is its name. -/
theorem eq_name_of_byName {token : List Char} {image : FpgaImage}
    (noSeparator : ∀ char ∈ token, isSeparator char = false)
    (found : fpgaImageByName token = some image) : token = image.name := by
  have equal := List.find?_some found
  have notIn : ∀ names : List Char,
      (∀ char ∈ names, isSeparator char = false) → '\n' ∉ names := by
    intro names none member
    cases none '\n' member
  have atEnd : ∀ names : List Char, '\n' ∈ names ++ ['\n'] := fun _ =>
    List.mem_append_right _ (List.mem_singleton_self _)
  simp only [sysfsStreq, Bool.or_eq_true, decide_eq_true_eq] at equal
  rcases equal with (same | longer) | shorter
  · exact same
  · exact absurd (longer ▸ atEnd image.name) (notIn token noSeparator)
  · exact absurd (shorter ▸ atEnd token)
      (notIn image.name (name_noSeparator image))

theorem strsep_noSeparator (names : List Char) :
    ∀ char ∈ (strsep names).1, isSeparator char = false := by
  induction names with
  | nil => exact nofun
  | cons first rest ih =>
      rw [strsep]
      by_cases separates : isSeparator first = true
      · rw [if_pos separates]
        exact nofun
      · rw [if_neg separates]
        intro char member
        rcases List.mem_cons.mp member with rfl | later
        · exact Bool.eq_false_iff.mpr separates
        · exact ih char later

/-- The tokens of a string are its next one and those of what is left. -/
theorem tokens_eq (names : List Char) :
    names.splitOnP isSeparator = (strsep names).1 ::
      (strsep names).2.elim [] (List.splitOnP isSeparator) := by
  induction names with
  | nil => rfl
  | cons first rest ih =>
      rw [strsep, List.splitOnP_cons_eq_if_modifyHead]
      by_cases separates : isSeparator first = true
      · rw [if_pos separates, if_pos separates]
        rfl
      · rw [if_neg separates, if_neg separates, ih]
        rfl

/-! ## What the loop keeps -/

/-- Images which are there once each are three at most. -/
theorem length_le_of_nodup {images : List FpgaImage} (nodup : images.Nodup) :
    images.length ≤ fpgaMax := by
  have all : images ⊆ fpgaImageOrder := by
    intro image _
    cases image <;> decide
  exact (nodup.subperm all).length_le

/-- These images have been stored. -/
structure Scanned (mask : BitVec 32) (done : List FpgaImage)
    (scan : ImageScan) : Prop where
  listed : Listed mask done
  imageMask : ∀ image, available scan.imageMask image = true ↔
    available mask image = true ∧ image ∉ done
  images : scan.images = padded done
  i : scan.i = done.length
  written : ∀ entry ∈ scan.written, entry < done.length

theorem available_clear (mask : BitVec 32) (image other : FpgaImage) :
    available (mask &&& ~~~ BitVec.twoPow 32 image.value) other = true ↔
      available mask other = true ∧ other ≠ image := by
  have small : other.value < 32 := by
    cases other <;> decide
  have same : image.value = other.value ↔ other = image := by
    cases image <;> cases other <;> decide
  unfold available
  rw [BitVec.getLsbD_and, BitVec.getLsbD_not, BitVec.getLsbD_twoPow]
  have alsoSmall : image.value < 32 := by
    cases image <;> decide
  simp only [small, alsoSmall, decide_true, Bool.true_and, Bool.and_eq_true,
    Bool.not_eq_true', decide_eq_false_iff_not, same, ne_eq]

theorem listed_append_singleton {mask : BitVec 32} {done : List FpgaImage}
    {image : FpgaImage} :
    Listed mask (done ++ [image]) ↔
      Listed mask done ∧ available mask image = true ∧ image ∉ done := by
  unfold Listed
  rw [← List.concat_eq_append, List.nodup_concat, List.concat_eq_append]
  constructor
  · rintro ⟨⟨isNew, nodup⟩, all⟩
    refine ⟨⟨nodup, fun other member => ?_⟩, ?_, isNew⟩
    · exact all other (List.mem_append_left _ member)
    · exact all image (List.mem_append_right _ (List.mem_singleton_self _))
  · rintro ⟨⟨nodup, all⟩, isAvailable, isNew⟩
    refine ⟨⟨isNew, nodup⟩, fun other member => ?_⟩
    rcases List.mem_append.mp member with old | new
    · exact all other old
    · rw [List.mem_singleton.mp new]
      exact isAvailable

/-- The entry after the images takes the next one. -/
theorem padded_set {done : List FpgaImage} (image : FpgaImage)
    (fits : done.length < fpgaMax) :
    (padded done).set done.length (some image) = padded (done ++ [image]) := by
  obtain ⟨more, room⟩ : ∃ more, fpgaMax - done.length = more + 1 :=
    Nat.exists_eq_succ_of_ne_zero (Nat.sub_ne_zero_of_lt fits)
  have left : fpgaMax - (done ++ [image]).length = more := by
    rw [List.length_append, List.length_singleton]
    omega
  unfold padded
  rw [room, left, List.set_append_right _ _ (by rw [List.length_map]),
    List.length_map, Nat.sub_self, List.map_append, List.append_assoc]
  rfl

theorem Scanned.store {mask : BitVec 32} {done : List FpgaImage}
    {scan : ImageScan} {image : FpgaImage} (scanned : Scanned mask done scan)
    (isAvailable : available scan.imageMask image = true) :
    Scanned mask (done ++ [image]) (scan.store image) := by
  have isNew := (scanned.imageMask image).mp isAvailable
  have listed : Listed mask (done ++ [image]) :=
    listed_append_singleton.mpr ⟨scanned.listed, isNew⟩
  have length : (done ++ [image]).length = done.length + 1 :=
    List.length_append
  have fits : done.length < fpgaMax := by
    have few := length_le_of_nodup listed.1
    rw [length] at few
    exact few
  exact
    { listed := listed
      imageMask := by
        intro other
        rw [List.mem_append, List.mem_singleton, not_or, ← and_assoc,
          ← scanned.imageMask other]
        exact available_clear scan.imageMask image other
      images := by
        rw [← padded_set image fits, ← scanned.images, ← scanned.i]
        rfl
      i := by
        rw [length, ← scanned.i]
        rfl
      written := by
        intro entry member
        rw [length]
        rcases List.mem_append.mp member with old | new
        · exact Nat.lt_succ_of_lt (scanned.written entry old)
        · rw [List.mem_singleton.mp new, scanned.i]
          exact Nat.lt_succ_self _ }

/-! ## The whole string -/

/-- What the loop has done when it ends. -/
structure Ends (mask : BitVec 32) (done : List FpgaImage)
    (tokens : List (List Char)) (result : Option Errno × ImageScan) : Prop where
  scanned : ∃ more, Scanned mask (done ++ more) result.2 ∧
    (result.1 = none → tokens = more.map FpgaImage.name)
  accepts : ∀ images, tokens = images.map FpgaImage.name →
    Listed mask (done ++ images) → result.1 = none

/-- The loop ends at a token which is no name of an available image. -/
theorem Scanned.ends_refused {mask : BitVec 32} {done : List FpgaImage}
    {scan : ImageScan} (scanned : Scanned mask done scan)
    {token : List Char} {tokens : List (List Char)}
    (refused : ∀ image, token = image.name →
      available scan.imageMask image = false) :
    Ends mask done (token :: tokens) (some .einval, scan) := by
  constructor
  · exact ⟨[], (List.append_nil done).symm ▸ scanned, nofun⟩
  · intro images same listed
    cases images with
    | nil => cases same
    | cons image rest =>
        rw [List.map_cons] at same
        have isName := (List.cons.inj same).1
        rw [List.append_cons] at listed
        have prior : Listed mask (done ++ [image]) :=
          ⟨listed.1.sublist (List.sublist_append_left _ _),
            fun other member =>
              listed.2 other (List.mem_append_left _ member)⟩
        have fits := (listed_append_singleton.mp prior).2
        have isAvailable := (scanned.imageMask image).mpr fits
        rw [refused image isName] at isAvailable
        cases isAvailable

/-- One image more, and the others. -/
theorem Ends.cons {mask : BitVec 32} {done : List FpgaImage}
    {image : FpgaImage} {tokens : List (List Char)}
    {result : Option Errno × ImageScan}
    (ends : Ends mask (done ++ [image]) tokens result) :
    Ends mask done (image.name :: tokens) result := by
  obtain ⟨⟨more, scanned, names⟩, accepts⟩ := ends
  constructor
  · refine ⟨image :: more, ?_, fun accepted => ?_⟩
    · rw [List.append_cons]
      exact scanned
    · rw [List.map_cons, names accepted]
  · intro images same listed
    cases images with
    | nil => cases same
    | cons other rest =>
        rw [List.map_cons] at same
        obtain ⟨sameName, others⟩ := List.cons.inj same
        rw [name_injective sameName] at accepts
        rw [List.append_cons] at listed
        exact accepts rest others listed

theorem fpgaImagesFrom_ends {mask : BitVec 32} {done : List FpgaImage}
    (names : List Char) {scan : ImageScan}
    (scanned : Scanned mask done scan) :
    Ends mask done (names.splitOnP isSeparator)
      (fpgaImagesFrom names scan) := by
  rw [tokens_eq]
  fun_induction fpgaImagesFrom names scan generalizing done with
  | case1 names scan found =>
      refine scanned.ends_refused fun image isName => ?_
      rw [isName, byName_name] at found
      cases found
  | case2 names scan image found refused =>
      refine scanned.ends_refused fun other isName => ?_
      rw [isName, byName_name] at found
      rw [Option.some.inj found]
      simpa using refused
  | case3 names scan image found isAvailable left =>
      rw [eq_name_of_byName (strsep_noSeparator names) found, left]
      have stored := scanned.store (by simpa using isAvailable)
      refine Ends.cons ⟨⟨[], ?_, fun _ => rfl⟩, fun _ _ _ => ?_⟩
      case refine_2 =>
        have counts : (scan.store image).i ≠ 0 := Nat.succ_ne_zero scan.i
        rw [if_neg counts]
      rw [List.append_nil]
      exact stored
  | case4 names scan _ found isAvailable rest left ih =>
      rw [eq_name_of_byName (strsep_noSeparator names) found, left]
      have stored := scanned.store (by simpa using isAvailable)
      have later := ih stored
      rw [← tokens_eq] at later
      exact later.cons

theorem scanned_start (mask : BitVec 32) :
    Scanned mask [] ⟨mask, noImages, 0, []⟩ where
  listed := ⟨List.nodup_nil, nofun⟩
  imageMask := fun _ => (and_iff_left List.not_mem_nil).symm
  images := rfl
  i := rfl
  written := nofun

theorem fpgaImages_ends (mask : BitVec 32) (names : List Char) :
    Ends mask [] (names.splitOnP isSeparator) (fpgaImages mask names) :=
  fpgaImagesFrom_ends names (scanned_start mask)

/-! ## Lists of images -/

section Lists

variable {mask : BitVec 32} {names : List Char} {images : List FpgaImage}

/-- Separators become spaces, and tokens stay. -/
theorem tokens_toSpace (names : List Char) :
    (names.map toSpace).splitOn ' ' = names.splitOnP isSeparator := by
  induction names with
  | nil => rfl
  | cons first rest ih =>
      rw [List.map_cons, List.splitOn_cons_eq_if_modifyHead,
        List.splitOnP_cons_eq_if_modifyHead, ih]
      unfold toSpace isSeparator
      by_cases newline : first = '\n'
      · rw [newline]
        rfl
      · simp [newline]

theorem names_noSpace (images : List FpgaImage) :
    ∀ name ∈ images.map FpgaImage.name, ' ' ∉ name := by
  intro name member space
  obtain ⟨image, -, rfl⟩ := List.mem_map.mp member
  cases name_noSeparator image ' ' space

/-- What the tokens of a list of images are. -/
theorem isImageList_iff :
    IsImageList mask (names.map toSpace) images ↔
      Listed mask images ∧
        names.splitOnP isSeparator = images.map FpgaImage.name := by
  rw [← tokens_toSpace]
  constructor
  · rintro ⟨nonempty, listed, names_eq⟩
    refine ⟨listed, ?_⟩
    rw [names_eq]
    refine List.splitOn_intercalate ' ' (names_noSpace images) ?_
    exact fun empty => nonempty (List.map_eq_nil_iff.mp empty)
  · rintro ⟨listed, tokens⟩
    refine ⟨?_, listed, ?_⟩
    · rintro rfl
      exact List.splitOn_ne_nil _ _ tokens
    · rw [← tokens, List.intercalate_splitOn]

/-- The parser accepts lists of images, whatever separates the names. -/
theorem fpgaImages_accepts_iff (mask : BitVec 32) (names : List Char) :
    (fpgaImages mask names).1 = none ↔
      ∃ images, IsImageList mask (names.map toSpace) images := by
  obtain ⟨⟨more, scanned, tokens⟩, accepts⟩ := fpgaImages_ends mask names
  constructor
  · intro accepted
    exact ⟨more, isImageList_iff.mpr ⟨scanned.listed, tokens accepted⟩⟩
  · rintro ⟨images, isList⟩
    obtain ⟨listed, same⟩ := isImageList_iff.mp isList
    exact accepts images same listed

/-- They are in the array when it has accepted them. -/
theorem fpgaImages_images (accepted : (fpgaImages mask names).1 = none)
    (isList : IsImageList mask (names.map toSpace) images) :
    (fpgaImages mask names).2.images = padded images := by
  obtain ⟨⟨more, scanned, tokens⟩, -⟩ := fpgaImages_ends mask names
  have same := (isImageList_iff.mp isList).2.symm.trans (tokens accepted)
  rw [name_injective.list_map same]
  exact scanned.images

/-- Whatever the string, only entries of the array are written. -/
theorem fpgaImages_within (mask : BitVec 32) (names : List Char) :
    ∀ entry ∈ (fpgaImages mask names).2.written, entry < fpgaMax := by
  obtain ⟨⟨more, scanned, -⟩, -⟩ := fpgaImages_ends mask names
  intro entry member
  exact Nat.lt_of_lt_of_le (scanned.written entry member)
    (length_le_of_nodup scanned.listed.1)

theorem noNewline_intercalate {lists : List (List Char)}
    (none : ∀ list ∈ lists, '\n' ∉ list) :
    '\n' ∉ [' '].intercalate lists := by
  induction lists with
  | nil => exact List.not_mem_nil
  | cons first rest ih =>
      have inFirst := none first List.mem_cons_self
      cases rest with
      | nil =>
          rw [List.intercalate_singleton]
          exact inFirst
      | cons second rest =>
          rw [List.intercalate_cons_cons]
          have later := ih fun list member =>
            none list (List.mem_cons_of_mem _ member)
          simp only [List.mem_append, List.mem_singleton, not_or]
          exact ⟨⟨inFirst, by decide⟩, later⟩

/-- There is no newline in a list of images. -/
theorem IsImageList.noNewline (isList : IsImageList mask names images) :
    '\n' ∉ names := by
  rw [isList.names_eq]
  refine noNewline_intercalate fun name member newline => ?_
  obtain ⟨image, -, rfl⟩ := List.mem_map.mp member
  cases name_noSeparator image '\n' newline

theorem map_toSpace_of_noNewline (none : '\n' ∉ names) :
    names.map toSpace = names := by
  have same : names.map toSpace = names.map id := by
    refine List.map_congr_left fun char member => if_neg ?_
    rintro rfl
    exact none member
  rw [same, List.map_id]

/-- A newline at the end makes an empty name. -/
theorem not_isImageList_of_endsInNewline (list : List Char) :
    ¬ IsImageList mask ((list ++ ['\n']).map toSpace) images := by
  intro isList
  have tokens := (isImageList_iff.mp isList).2
  rw [List.splitOnP_append_cons list [] rfl] at tokens
  have empty : [] ∈ images.map FpgaImage.name := by
    rw [← tokens]
    exact List.mem_append_right _ (List.mem_singleton_self _)
  obtain ⟨image, -, noName⟩ := List.mem_map.mp empty
  cases image <;> exact absurd noName (by decide)

/-- A list of images with a newline after it is refused. -/
theorem EndsInNewline.not_parses (ends : EndsInNewline mask names) :
    ¬ Parses mask names := by
  obtain ⟨list, images, rfl, isList⟩ := ends
  intro parses
  have accepted := parses.accepted_iff.mpr
    ⟨images, Or.inr ⟨list, rfl, isList⟩⟩
  obtain ⟨others, isAlsoList⟩ := (fpgaImages_accepts_iff mask _).mp accepted
  exact not_isImageList_of_endsInNewline list isAlsoList

/-- One with a newline instead of a space is accepted. -/
theorem NewlineForSpace.not_parses (newlines : NewlineForSpace mask names) :
    ¬ Parses mask names := by
  obtain ⟨newline, images, isList⟩ := newlines
  intro parses
  have accepted := (fpgaImages_accepts_iff mask names).mpr ⟨images, isList⟩
  obtain ⟨others, isOther | ⟨list, rfl, -⟩⟩ := parses.accepted_iff.mp accepted
  · exact isOther.noNewline newline
  · exact not_isImageList_of_endsInNewline list isList

end Lists

/--
A string is parsed as it should be if and only if it is no list of images with
a newline after it, or with a newline instead of a space.
-/
theorem parses_iff (mask : BitVec 32) (names : List Char) :
    Parses mask names ↔
      ¬ EndsInNewline mask names ∧ ¬ NewlineForSpace mask names := by
  constructor
  · intro parses
    exact ⟨fun ends => ends.not_parses parses,
      fun newlines => newlines.not_parses parses⟩
  rintro ⟨noEnd, noSpace⟩
  have wellFormed : ∀ images, WellFormed mask names images →
      IsImageList mask (names.map toSpace) images := by
    rintro images (isList | ⟨list, isNames, isList⟩)
    · rw [map_toSpace_of_noNewline isList.noNewline]
      exact isList
    · exact absurd ⟨list, images, isNames, isList⟩ noEnd
  exact
    { accepted_iff := by
        rw [fpgaImages_accepts_iff]
        constructor
        · rintro ⟨images, isList⟩
          have none : '\n' ∉ names := fun newline =>
            noSpace ⟨newline, images, isList⟩
          rw [map_toSpace_of_noNewline none] at isList
          exact ⟨images, Or.inl isList⟩
        · rintro ⟨images, isWellFormed⟩
          exact ⟨images, wellFormed images isWellFormed⟩
      images := fun accepted images isWellFormed =>
        fpgaImages_images accepted (wellFormed images isWellFormed)
      within := fpgaImages_within mask names }

/-- `avail_image_mask` of `pmci_power_on_image` -/
def pmciAvailImageMask : BitVec 32 := 0b111

/-- The name of an image, with the newline with which it is written. -/
theorem name_with_newline_refused :
    ¬ Parses pmciAvailImageMask (FpgaImage.user1.name ++ ['\n']) := by
  refine EndsInNewline.not_parses ⟨FpgaImage.user1.name, [.user1], rfl, ?_⟩
  exact ⟨nofun, ⟨List.nodup_singleton _, by decide⟩, rfl⟩

/-! ## The attribute -/

/-- What is written is set when it is a list of images which may be set. -/
theorem powerOnImageStore_ok_iff (env : PowerOnStore) (buf : List Char)
    (count : Nat) :
    powerOnImageStore env buf = .ok count ↔
      env.kmemdupNul = true ∧ count = buf.length ∧
        ∃ images,
          IsImageList env.availImageMask ((cString buf).map toSpace) images ∧
          env.setSequence (padded images) = none := by
  have accepts := fpgaImages_accepts_iff env.availImageMask (cString buf)
  unfold powerOnImageStore
  cases copies : env.kmemdupNul with
  | false =>
      refine iff_of_false nofun ?_
      rintro ⟨copied, -⟩
      cases copied
  | true =>
      rw [if_neg (by decide)]
      rcases parses : fpgaImages env.availImageMask (cString buf) with
        ⟨- | ret, scan⟩
      · have accepted := congrArg Prod.fst parses
        have stored : ∀ images, IsImageList env.availImageMask
            ((cString buf).map toSpace) images →
              scan.images = padded images := by
          intro images isList
          have inArray := fpgaImages_images accepted isList
          rwa [parses] at inArray
        obtain ⟨images, isList⟩ := accepts.mp accepted
        dsimp only
        cases sets : env.setSequence scan.images with
        | some ret =>
            refine iff_of_false nofun ?_
            rintro ⟨-, -, others, isOther, set⟩
            rw [stored others isOther, set] at sets
            cases sets
        | none =>
            rw [stored images isList] at sets
            constructor
            · intro returns
              cases returns
              exact ⟨rfl, rfl, images, isList, sets⟩
            · rintro ⟨-, rfl, -⟩
              rfl
      · refine iff_of_false nofun ?_
        rintro ⟨-, -, images, isList, -⟩
        have accepted := accepts.mpr ⟨images, isList⟩
        rw [parses] at accepted
        cases accepted

end LinuxDfl.Bmc.PowerOnImage

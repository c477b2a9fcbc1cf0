import Mathlib.Data.List.Basic
import Mathlib.Data.List.Infix

/-!
# Patterns

Patterns in which `*` stands for any text and `?` for any character.  There
are no classes, and nothing is escaped.
-/

namespace LinuxDfl.Lib.Glob

/-- Whether the text is matched by the pattern, as a whole. -/
def fnmatch : List Char → List Char → Bool
  | [], text => text.isEmpty
  | char :: pattern, text =>
      if char = '*' then text.tails.any fun rest => fnmatch pattern rest
      else
        match text with
        | [] => false
        | first :: rest =>
            (char == '?' || char == first) && fnmatch pattern rest

/-- The character stands for itself. -/
def Plain (char : Char) : Prop := char ≠ '*' ∧ char ≠ '?'

theorem fnmatch_star_iff {pattern text : List Char} :
    fnmatch ('*' :: pattern) text = true ↔
      ∃ skipped rest, text = skipped ++ rest ∧
        fnmatch pattern rest = true := by
  change (text.tails.any fun rest => fnmatch pattern rest) = true ↔ _
  rw [List.any_eq_true]
  constructor
  · rintro ⟨rest, isTail, fits⟩
    obtain ⟨skipped, split⟩ := (List.mem_tails _ _).mp isTail
    exact ⟨skipped, rest, split.symm, fits⟩
  · rintro ⟨skipped, rest, split, fits⟩
    exact ⟨rest, (List.mem_tails _ _).mpr ⟨skipped, split.symm⟩, fits⟩

theorem fnmatch_star (text : List Char) : fnmatch ['*'] text = true :=
  fnmatch_star_iff.mpr ⟨text, [], (List.append_nil _).symm, rfl⟩

theorem fnmatch_plain_cons_iff {char : Char} {pattern text : List Char}
    (plain : Plain char) :
    fnmatch (char :: pattern) text = true ↔
      ∃ rest, text = char :: rest ∧ fnmatch pattern rest = true := by
  cases text with
  | nil =>
      rw [fnmatch.eq_def]
      dsimp only
      rw [if_neg plain.1]
      constructor
      · nofun
      · rintro ⟨rest, same, -⟩
        cases same
  | cons first rest =>
      have notAny : (char == '?') = false := beq_false_of_ne plain.2
      rw [fnmatch.eq_def]
      dsimp only
      rw [if_neg plain.1, notAny, Bool.false_or, Bool.and_eq_true, beq_iff_eq]
      constructor
      · rintro ⟨rfl, fits⟩
        exact ⟨rest, rfl, fits⟩
      · rintro ⟨_, same, fits⟩
        cases same
        exact ⟨rfl, fits⟩

/-- What stands for itself is found at the start of the text. -/
theorem fnmatch_plain_append_iff {front pattern text : List Char}
    (plain : ∀ char ∈ front, Plain char) :
    fnmatch (front ++ pattern) text = true ↔
      ∃ rest, text = front ++ rest ∧ fnmatch pattern rest = true := by
  induction front generalizing text with
  | nil =>
      constructor
      · exact fun fits => ⟨text, rfl, fits⟩
      · rintro ⟨rest, split, fits⟩
        rw [split]
        exact fits
  | cons char front ih =>
      rw [List.cons_append, fnmatch_plain_cons_iff (plain char List.mem_cons_self)]
      have inFront := fun other member =>
        plain other (List.mem_cons_of_mem char member)
      constructor
      · rintro ⟨later, rfl, fits⟩
        obtain ⟨rest, rfl, restFits⟩ := (ih inFront).mp fits
        exact ⟨rest, rfl, restFits⟩
      · rintro ⟨rest, split, fits⟩
        exact ⟨front ++ rest, split, (ih inFront).mpr ⟨rest, rfl, fits⟩⟩

/-- A pattern which is open at its end matches what starts as it does. -/
theorem fnmatch_open_iff {front text : List Char}
    (plain : ∀ char ∈ front, Plain char) :
    fnmatch (front ++ ['*']) text = true ↔ front <+: text := by
  rw [fnmatch_plain_append_iff plain]
  constructor
  · rintro ⟨rest, split, -⟩
    exact ⟨rest, split.symm⟩
  · rintro ⟨rest, split⟩
    exact ⟨rest, split.symm, fnmatch_star rest⟩

end LinuxDfl.Lib.Glob

import Mathlib.Data.List.Basic

/-!
# Escape codes

A code which writes each special symbol as an escape symbol followed by a
masked one, and every other symbol as itself.
-/

namespace LinuxDfl.Lib.Escape

/-- An escape code.  Masks are undone by themselves. -/
structure EscapeCode (Symbol : Type*) where
  special : Symbol → Bool
  escape : Symbol
  mask : Symbol → Symbol
  special_escape : special escape = true
  mask_mask : ∀ symbol, mask (mask symbol) = symbol

namespace EscapeCode

variable {Symbol : Type*} (code : EscapeCode Symbol)

/-- How one symbol is written. -/
def encodeSymbol (symbol : Symbol) : List Symbol :=
  if code.special symbol then [code.escape, code.mask symbol] else [symbol]

def encode (symbols : List Symbol) : List Symbol :=
  symbols.flatMap code.encodeSymbol

/-- Read symbols back; `escaped` tells that an escape symbol came last. -/
def decode [DecidableEq Symbol] : Bool → List Symbol → List Symbol
  | _, [] => []
  | true, symbol :: rest => code.mask symbol :: decode false rest
  | false, symbol :: rest =>
      if symbol = code.escape then decode true rest
      else symbol :: decode false rest

@[simp]
theorem encode_nil : code.encode [] = [] := rfl

@[simp]
theorem encode_cons (symbol : Symbol) (rest : List Symbol) :
    code.encode (symbol :: rest) =
      code.encodeSymbol symbol ++ code.encode rest := rfl

@[simp]
theorem encode_append (left right : List Symbol) :
    code.encode (left ++ right) = code.encode left ++ code.encode right :=
  List.flatMap_append

theorem encodeSymbol_of_special {symbol : Symbol}
    (special : code.special symbol = true) :
    code.encodeSymbol symbol = [code.escape, code.mask symbol] :=
  if_pos special

theorem encodeSymbol_of_plain {symbol : Symbol}
    (plain : code.special symbol = false) :
    code.encodeSymbol symbol = [symbol] := by
  rw [encodeSymbol, plain]
  rfl

/-- Encoded symbols read back as they were. -/
theorem decode_encode [DecidableEq Symbol] (symbols rest : List Symbol) :
    code.decode false (code.encode symbols ++ rest) =
      symbols ++ code.decode false rest := by
  induction symbols with
  | nil => rfl
  | cons symbol symbols ih =>
      rw [encode_cons, List.append_assoc]
      cases isSpecial : code.special symbol with
      | true =>
          rw [code.encodeSymbol_of_special isSpecial]
          simp only [List.cons_append, List.nil_append, decode, if_true,
            code.mask_mask, ih]
      | false =>
          have notEscape : symbol ≠ code.escape := by
            rintro rfl
            rw [code.special_escape] at isSpecial
            exact absurd isSpecial (by decide)
          rw [code.encodeSymbol_of_plain isSpecial]
          simp only [List.cons_append, List.nil_append, decode,
            if_neg notEscape, ih]

/--
When masks of special symbols are plain, the only special symbols of an
encoding are its escape symbols.
-/
theorem eq_escape_of_mem_encode
    (plainMask :
      ∀ symbol, code.special symbol = true →
        code.special (code.mask symbol) = false)
    {symbols : List Symbol} {symbol : Symbol}
    (member : symbol ∈ code.encode symbols)
    (special : code.special symbol = true) : symbol = code.escape := by
  rw [encode, List.mem_flatMap] at member
  obtain ⟨original, -, written⟩ := member
  cases isSpecial : code.special original with
  | true =>
      rw [code.encodeSymbol_of_special isSpecial] at written
      rcases List.mem_pair.mp written with rfl | rfl
      · rfl
      · rw [plainMask original isSpecial] at special
        exact absurd special (by decide)
  | false =>
      rw [code.encodeSymbol_of_plain isSpecial,
        List.mem_singleton] at written
      rw [written, isSpecial] at special
      exact absurd special (by decide)

end EscapeCode

end LinuxDfl.Lib.Escape

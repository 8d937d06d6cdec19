/-
  The block of untrusted evidence in a repair prompt.

  1. **Delimiters** — where they can stand: all the fixed text is free of them, and the characters
     between the pieces are in neither, so that each piece is searched alone.

  2. **The block** — in the prompt of a plan each delimiter stands once, where the block is opened
     and closed, iff no shown piece holds one (`sealed_iff_confined`).

  3. **How a delimiter gets in** — a shown line or message holds one only if bidi controls stood in
     the output (`sanitizeLine_free`): these are dropped after the delimiters were replaced.
-/
import VibeCoder.Build.PromptLimit

namespace VibeCoder.Build

open Chars

/-! ## Delimiters -/

/-- One of the two delimiters. -/
def IsDelimiter (d : List Char) : Prop := d = beginDelimiter ∨ d = endDelimiter

theorem beginDelimiter_eq : beginDelimiter = ['<', '<', '<', 'B', 'U', 'I', 'L', 'D', '_', 'E', 'V',
    'I', 'D', 'E', 'N', 'C', 'E', '_', 'D', 'A', 'T', 'A', '>', '>', '>'] := String.toList_ofList

theorem endDelimiter_eq : endDelimiter = ['<', '<', '<', 'E', 'N', 'D', '_', 'B', 'U', 'I', 'L',
    'D', '_', 'E', 'V', 'I', 'D', 'E', 'N', 'C', 'E', '_', 'D', 'A', 'T', 'A', '>', '>', '>'] :=
  String.toList_ofList

/-- The characters of the delimiters. -/
def delimiterChar (c : Char) : Bool := c.isUpper || c == '<' || c == '>' || c == '_'

theorem IsDelimiter.chars {d : List Char} (h : IsDelimiter d) : ∀ c ∈ d, delimiterChar c = true := by
  rcases h with rfl | rfl
  · rw [beginDelimiter_eq]
    exact List.all_eq_true.mp (by decide)
  · rw [endDelimiter_eq]
    exact List.all_eq_true.mp (by decide)

end VibeCoder.Build

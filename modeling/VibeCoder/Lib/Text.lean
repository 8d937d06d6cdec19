/-
  The length of a text in bytes.

  `utf8ByteSize_eq_sum` counts the bytes of the characters one by one; a text of ASCII characters
  has as many bytes as characters.
-/
import Mathlib.Algebra.GroupWithZero.Nat
import Mathlib.Data.String.Basic

namespace Text

theorem utf8ByteSize_ofList (cs : List Char) :
    (String.ofList cs).utf8ByteSize = (cs.map Char.utf8Size).sum := by
  induction cs with
  | nil => rfl
  | cons c cs ih =>
    rw [String.ofList_cons, String.utf8ByteSize_append, String.utf8ByteSize_singleton, ih, List.map_cons,
      List.sum_cons]

/-- The bytes of a text are those of its characters. -/
theorem utf8ByteSize_eq_sum (s : String) :
    s.utf8ByteSize = (s.toList.map Char.utf8Size).sum := by
  rw [← utf8ByteSize_ofList, String.ofList_toList]

theorem utf8Size_ascii {c : Char} (h : c.toNat < 128) : c.utf8Size = 1 := by
  rw [Char.utf8Size_eq_one_iff, UInt32.le_iff_toNat_le]
  exact Nat.le_of_lt_succ h

/-- An ASCII text has as many bytes as characters. -/
theorem utf8ByteSize_ascii {s : String} (h : ∀ c, c ∈ s.toList → c.toNat < 128) :
    s.utf8ByteSize = s.toList.length := by
  have hones : s.toList.map Char.utf8Size = s.toList.map (fun _ => 1) :=
    List.map_congr_left (fun c hc => utf8Size_ascii (h c hc))
  rw [utf8ByteSize_eq_sum, hones, List.map_const']
  simp

end Text

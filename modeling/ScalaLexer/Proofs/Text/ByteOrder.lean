import Mathlib.Data.List.Lex
import Mathlib.Data.Char
import ScalaLexer.Proofs.Text.Utf8

/-!
# The order of bytes is the order of characters

UTF-8 was made so that texts can be compared byte by byte.  Of two characters the lesser
one is told by the first byte that differs: it has a lesser first byte if it has fewer of
them, and otherwise the digits of its number, to the base of 64, are in the bytes from
the highest digit on (`encodeChar_append_lt`).  What stands behind the first character
that differs makes no difference then, and that is `encode_lt_iff`.
-/

namespace ScalaLexer.Utf8

/-- The bytes of two characters tell which is the lesser one, whatever follows. -/
theorem encodeChar_append_lt {c d : Char} (h : c < d) (rest rest' : List UInt8) :
    String.utf8EncodeChar c ++ rest < String.utf8EncodeChar d ++ rest' := by
  have hless : c.val.toNat < d.val.toNat := h
  have hbound : d.val.toNat < 0x110000 := by
    have hvalid := d.valid
    simp only [UInt32.isValidChar, Nat.isValidChar] at hvalid
    omega
  unfold String.utf8EncodeChar
  generalize c.val.toNat = m at hless ⊢
  generalize d.val.toNat = n at hless hbound ⊢
  -- the digits are compared from the highest one on
  have hlow : m / 64 < n / 64 ∨ m / 64 = n / 64 ∧ m % 64 < n % 64 := by omega
  have hmiddle (hfront : m / 64 < n / 64) :
      m / 4096 < n / 4096 ∨ m / 4096 = n / 4096 ∧ m / 64 % 64 < n / 64 % 64 := by omega
  have hhigh (hfront : m / 4096 < n / 4096) :
      m / 262144 < n / 262144 ∨ m / 262144 = n / 262144 ∧ m / 4096 % 64 < n / 4096 % 64 := by omega
  dsimp only
  split_ifs <;>
    simp (disch := omega) only [List.cons_append, List.nil_append, List.cons_lt_cons_iff,
      UInt8.lt_iff_toNat_lt, ← UInt8.toNat_inj, UInt8.toNat_ofNat', Nat.mod_eq_of_lt] <;>
    omega

theorem encode_lt_of_lt {text text' : List Char} (h : text < text') :
    encode text < encode text' := by
  induction h with
  | @nil c text =>
      obtain ⟨lead, more, hlead⟩ := List.exists_cons_of_length_pos (length_encodeChar_pos c)
      rw [encode_cons, hlead]
      exact List.nil_lt_cons ..
  | rel hless => exact encodeChar_append_lt hless _ _
  | @cons c text text' _ ih => exact List.append_left_lt ih

/-- Texts are in the order of their bytes if and only if they are in the order of their
characters. -/
theorem encode_lt_iff {text text' : List Char} : encode text < encode text' ↔ text < text' := by
  refine ⟨fun h => ?_, encode_lt_of_lt⟩
  rcases lt_trichotomy text text' with hless | rfl | hmore
  · exact hless
  · exact absurd h (List.lt_irrefl _)
  · exact absurd h (List.lt_asymm (encode_lt_of_lt hmore))

end ScalaLexer.Utf8

import ScalaLexer.Text.Quoted
import Mathlib.Tactic.SplitIfs

/-!
# A quoted text can be read back

No escape is the beginning of another one: an escape is a character that stands for
itself, a backslash with a letter behind it, or a code point in braces, and the first two
characters tell which (`escape_cases`).  So different texts look different in a message
(`quote_injective`).
-/

namespace ScalaLexer.Quoted

/-! ## Code points -/

/-- A digit to the base sixteen is no brace. -/
theorem digitChar_ne_brace {n : Nat} (h : n < 16) : Nat.digitChar n ≠ '\x7d' := by
  revert n
  decide

theorem digitChar_injective {n m : Nat} (hn : n < 16) (hm : m < 16)
    (h : Nat.digitChar n = Nat.digitChar m) : n = m := by
  have hall : ∀ n < 16, ∀ m < 16, Nat.digitChar n = Nat.digitChar m → n = m := by decide
  exact hall n hn m hm h

theorem hexDigits_of_lt {n : Nat} (h : n < 16) : hexDigits n = [Nat.digitChar n] :=
  Nat.toDigits_of_lt_base h

theorem hexDigits_of_le {n : Nat} (h : 16 ≤ n) :
    hexDigits n = hexDigits (n / 16) ++ [Nat.digitChar (n % 16)] :=
  Nat.toDigits_of_base_le (by decide) h

theorem brace_notMem_hexDigits (n : Nat) : '\x7d' ∉ hexDigits n := by
  induction n using Nat.strongRecOn with
  | ind n ih =>
      rcases Nat.lt_or_ge n 16 with hlt | hge
      · rw [hexDigits_of_lt hlt, List.mem_singleton]
        exact (digitChar_ne_brace hlt).symm
      · rw [hexDigits_of_le hge, List.mem_append, List.mem_singleton, not_or]
        exact ⟨ih (n / 16) (by omega), (digitChar_ne_brace (by omega)).symm⟩

theorem hexDigits_injective {n m : Nat} (h : hexDigits n = hexDigits m) : n = m := by
  induction n using Nat.strongRecOn generalizing m with
  | ind n ih =>
      have hne (k : Nat) : hexDigits k ≠ [] := Nat.toDigits_ne_nil
      rcases Nat.lt_or_ge n 16 with hn | hn <;> rcases Nat.lt_or_ge m 16 with hm | hm
      · rw [hexDigits_of_lt hn, hexDigits_of_lt hm] at h
        exact digitChar_injective hn hm (List.cons.inj h).1
      · rw [hexDigits_of_lt hn, hexDigits_of_le hm] at h
        have hsplit : [] ++ [Nat.digitChar n] = hexDigits (m / 16) ++ [Nat.digitChar (m % 16)] := h
        exact absurd (List.append_inj' hsplit rfl).1.symm (hne _)
      · rw [hexDigits_of_le hn, hexDigits_of_lt hm] at h
        have hsplit : hexDigits (n / 16) ++ [Nat.digitChar (n % 16)] = [] ++ [Nat.digitChar m] := h
        exact absurd (List.append_inj' hsplit rfl).1 (hne _)
      · rw [hexDigits_of_le hn, hexDigits_of_le hm] at h
        obtain ⟨hfront, hlast⟩ := List.append_inj' h rfl
        have hdiv := ih (n / 16) (by omega) hfront
        have hmod := digitChar_injective (by omega) (by omega) (List.cons.inj hlast).1
        omega

/-- The brace behind the digits tells where they end. -/
theorem hexDigits_append_inj {n m : Nat} {back back' : List Char}
    (h : hexDigits n ++ '\x7d' :: back = hexDigits m ++ '\x7d' :: back') :
    n = m ∧ back = back' := by
  rcases List.append_eq_append_iff.mp h with ⟨more, hm, hback⟩ | ⟨more, hn, hback⟩
  · cases more with
    | nil =>
        exact ⟨hexDigits_injective (hm.trans (List.append_nil _)).symm, (List.cons.inj hback).2⟩
    | cons first more =>
        obtain ⟨rfl, _⟩ := List.cons.inj hback
        exact absurd (hm ▸ by simp) (brace_notMem_hexDigits m)
  · cases more with
    | nil =>
        exact ⟨hexDigits_injective (hn.trans (List.append_nil _)), (List.cons.inj hback).2.symm⟩
    | cons first more =>
        obtain ⟨rfl, _⟩ := List.cons.inj hback
        exact absurd (hn ▸ by simp) (brace_notMem_hexDigits n)

/-! ## Escapes -/

/-- The character that a backslash and this one stand for. -/
def short? : Char → Option Char
  | '0' => some '\x00'
  | 't' => some '\t'
  | 'n' => some '\n'
  | 'r' => some '\r'
  | '\x22' => some '\x22'
  | '\\' => some '\\'
  | _ => none

/-- The three forms of an escape. -/
inductive Escaped (c : Char) : List Char → Prop
  | plain : c ≠ '\\' → Escaped c [c]
  | short {letter : Char} : short? letter = some c → Escaped c ['\\', letter]
  | codePoint : Escaped c (codePoint c)

theorem escaped_escape (c : Char) : Escaped c (escape c) := by
  unfold escape
  split_ifs with hnul htab hfeed hreturn hquote hbackslash _ _
  · subst hnul
    exact .short rfl
  · subst htab
    exact .short rfl
  · subst hfeed
    exact .short rfl
  · subst hreturn
    exact .short rfl
  · subst hquote
    exact .short rfl
  · subst hbackslash
    exact .short rfl
  · exact .codePoint
  · exact .plain hbackslash
  · exact .codePoint

/-- No escape is the beginning of another one. -/
theorem Escaped.unique {c d : Char} {front front' back back' : List Char} (h : Escaped c front)
    (h' : Escaped d front') (htext : front ++ back = front' ++ back') : c = d ∧ back = back' := by
  cases h with
  | plain hc =>
      cases h' with
      | plain => exact ⟨(List.cons.inj htext).1, (List.cons.inj htext).2⟩
      | short => exact absurd (List.cons.inj htext).1 hc
      | codePoint => exact absurd (List.cons.inj htext).1 hc
  | short hletter =>
      cases h' with
      | plain hd => exact absurd (List.cons.inj htext).1.symm hd
      | short hletter' =>
          obtain ⟨rfl, hback⟩ := List.cons.inj (List.cons.inj htext).2
          exact ⟨Option.some.inj (hletter.symm.trans hletter'), hback⟩
      | codePoint =>
          obtain ⟨rfl, _⟩ := List.cons.inj (List.cons.inj htext).2
          cases hletter
  | codePoint =>
      cases h' with
      | plain hd => exact absurd (List.cons.inj htext).1.symm hd
      | short hletter =>
          obtain ⟨rfl, _⟩ := List.cons.inj (List.cons.inj htext).2
          cases hletter
      | codePoint =>
          simp only [Quoted.codePoint, List.append_assoc] at htext
          obtain ⟨hcode, hback⟩ := hexDigits_append_inj (List.append_cancel_left htext)
          exact ⟨Char.toNat_inj.mp hcode, hback⟩

theorem flatMap_escape_injective {text text' : List Char}
    (h : text.flatMap escape = text'.flatMap escape) : text = text' := by
  have hne (c : Char) : escape c ≠ [] := by
    intro hnil
    have hescaped := escaped_escape c
    rw [hnil] at hescaped
    cases hescaped
  induction text generalizing text' with
  | nil =>
      cases text' with
      | nil => rfl
      | cons d text' =>
          have hempty := List.append_eq_nil_iff.mp (List.flatMap_cons ▸ h.symm)
          exact absurd hempty.1 (hne d)
  | cons c text ih =>
      cases text' with
      | nil =>
          have hempty := List.append_eq_nil_iff.mp (List.flatMap_cons ▸ h)
          exact absurd hempty.1 (hne c)
      | cons d text' =>
          rw [List.flatMap_cons, List.flatMap_cons] at h
          obtain ⟨rfl, hrest⟩ := (escaped_escape c).unique (escaped_escape d) h
          rw [ih hrest]

/-- Different texts are quoted differently. -/
theorem quote_injective {text text' : String} (h : quote text = quote text') : text = text' := by
  have hquoted := (List.cons.inj (String.ofList_inj.mp h)).2
  exact String.toList_inj.mp (flatMap_escape_injective (List.append_cancel_right hquoted))

end ScalaLexer.Quoted

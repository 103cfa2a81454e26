import ScalaLexer.Proofs.Text.Utf8
import Mathlib.Data.List.Basic

/-!
# The bytes of one character

Which sequences of bytes encode a character is said twice.  `String.utf8EncodeChar`
computes them from the code point, and `IsEncoding` lists them by the ranges of their
bytes: `isEncoding_iff` says that both are the same sequences.

So the first byte alone tells how many bytes there are (`announcedWidth?`), and all
bytes behind it continue the character.  What is wrong where no character begins is
then a matter of a few bytes.  `Malformed` lists what it can be, and `malformed_iff`
says that the list is complete and that nothing on it begins with a character.
-/

namespace ScalaLexer.Utf8

/-- The sequences of bytes that encode a character. -/
inductive IsEncoding : List UInt8 → Prop
  | one {lead : UInt8} : lead ≤ 0x7F → IsEncoding [lead]
  | two {lead second : UInt8} : 0xC2 ≤ lead → lead ≤ 0xDF → isTrail second = true →
      IsEncoding [lead, second]
  | three {lead second third : UInt8} : opensLong lead second = true → lead ≤ 0xEF →
      isTrail third = true → IsEncoding [lead, second, third]
  | four {lead second third fourth : UInt8} : opensLong lead second = true → 0xF0 ≤ lead →
      isTrail third = true → isTrail fourth = true → IsEncoding [lead, second, third, fourth]

/-! ## Bytes as numbers -/

theorem isTrail_iff {byte : UInt8} :
    isTrail byte = true ↔ 0x80 ≤ byte.toNat ∧ byte.toNat ≤ 0xBF := by
  simp [isTrail, UInt8.le_iff_toNat_le]

theorem opensLong_iff {lead second : UInt8} :
    opensLong lead second = true ↔
      0xE0 ≤ lead.toNat ∧ lead.toNat ≤ 0xF4 ∧ 0x80 ≤ second.toNat ∧ second.toNat ≤ 0xBF ∧
        (lead.toNat = 0xE0 → 0xA0 ≤ second.toNat) ∧ (lead.toNat = 0xED → second.toNat ≤ 0x9F) ∧
        (lead.toNat = 0xF0 → 0x90 ≤ second.toNat) ∧
        (lead.toNat = 0xF4 → second.toNat ≤ 0x8F) := by
  unfold opensLong
  split_ifs <;> simp_all [isTrail, UInt8.le_iff_toNat_le, ← UInt8.toNat_inj] <;> omega

theorem isTrail_of_opensLong {lead second : UInt8} (h : opensLong lead second = true) :
    isTrail second = true := by
  obtain ⟨_, _, hlow, hhigh, _⟩ := opensLong_iff.mp h
  exact isTrail_iff.mpr ⟨hlow, hhigh⟩

/-! ## Writing a character, and finding the character that was written -/

theorem isEncoding_encodeChar (c : Char) : IsEncoding (String.utf8EncodeChar c) := by
  have hvalid := c.valid
  simp only [UInt32.isValidChar, Nat.isValidChar] at hvalid
  unfold String.utf8EncodeChar
  generalize c.val.toNat = v at hvalid
  dsimp only
  split_ifs
  · apply IsEncoding.one
    simp only [UInt8.le_iff_toNat_le, UInt8.toNat_ofNat', UInt8.reduceToNat]
    omega
  · apply IsEncoding.two <;>
      simp only [isTrail_iff, UInt8.le_iff_toNat_le, UInt8.toNat_ofNat', UInt8.reduceToNat] <;>
      omega
  · apply IsEncoding.three <;>
      simp only [opensLong_iff, isTrail_iff, UInt8.le_iff_toNat_le, UInt8.toNat_ofNat',
        UInt8.reduceToNat] <;>
      omega
  · apply IsEncoding.four <;>
      simp only [opensLong_iff, isTrail_iff, UInt8.le_iff_toNat_le, UInt8.toNat_ofNat',
        UInt8.reduceToNat] <;>
      omega

theorem toNat_val_ofNat {v : Nat} (hv : v.isValidChar) : (Char.ofNat v).val.toNat = v := by
  rw [Char.ofNat, dif_pos hv]
  rfl

/-- One byte is its own code point. -/
theorem encodeChar_ofNat {lead : UInt8} (hlead : lead ≤ 0x7F) :
    String.utf8EncodeChar (Char.ofNat lead.toNat) = [lead] := by
  have hbound : lead.toNat ≤ 0x7F := UInt8.le_iff_toNat_le.mp hlead
  have hval : (Char.ofNat lead.toNat).val.toNat = lead.toNat :=
    toNat_val_ofNat (.inl (by omega))
  simp only [String.utf8EncodeChar, hval, if_pos hbound, UInt8.ofNat_toNat]

/-- The code point is put together from what the bytes hold behind their marks. -/
theorem IsEncoding.exists_char {bytes : List UInt8} (h : IsEncoding bytes) :
    ∃ c, String.utf8EncodeChar c = bytes := by
  cases h with
  | one hlead => exact ⟨_, encodeChar_ofNat hlead⟩
  | @two lead second hlow hhigh hsecond =>
      have hlow : 0xC2 ≤ lead.toNat := UInt8.le_iff_toNat_le.mp hlow
      have hhigh : lead.toNat ≤ 0xDF := UInt8.le_iff_toNat_le.mp hhigh
      rw [isTrail_iff] at hsecond
      obtain ⟨c, hc⟩ : ∃ c : Char, c.val.toNat =
          (lead.toNat - 0xC0) * 64 + (second.toNat - 0x80) :=
        ⟨_, toNat_val_ofNat (.inl (by omega))⟩
      refine ⟨c, ?_⟩
      unfold String.utf8EncodeChar
      dsimp only
      rw [hc, if_neg (by omega), if_pos (by omega)]
      simp only [List.cons.injEq, ← UInt8.toNat_inj, UInt8.toNat_ofNat', and_true]
      omega
  | @three lead second third hopens hhigh hthird =>
      have hhigh : lead.toNat ≤ 0xEF := UInt8.le_iff_toNat_le.mp hhigh
      rw [opensLong_iff] at hopens
      rw [isTrail_iff] at hthird
      obtain ⟨c, hc⟩ : ∃ c : Char, c.val.toNat =
          (lead.toNat - 0xE0) * 4096 + (second.toNat - 0x80) * 64 + (third.toNat - 0x80) :=
        ⟨_, toNat_val_ofNat (by unfold Nat.isValidChar; omega)⟩
      refine ⟨c, ?_⟩
      unfold String.utf8EncodeChar
      dsimp only
      rw [hc, if_neg (by omega), if_neg (by omega), if_pos (by omega)]
      simp only [List.cons.injEq, ← UInt8.toNat_inj, UInt8.toNat_ofNat', and_true]
      omega
  | @four lead second third fourth hopens hlow hthird hfourth =>
      have hlow : 0xF0 ≤ lead.toNat := UInt8.le_iff_toNat_le.mp hlow
      rw [opensLong_iff] at hopens
      rw [isTrail_iff] at hthird hfourth
      obtain ⟨c, hc⟩ : ∃ c : Char, c.val.toNat =
          (lead.toNat - 0xF0) * 262144 + (second.toNat - 0x80) * 4096 +
          (third.toNat - 0x80) * 64 + (fourth.toNat - 0x80) :=
        ⟨_, toNat_val_ofNat (by unfold Nat.isValidChar; omega)⟩
      refine ⟨c, ?_⟩
      unfold String.utf8EncodeChar
      dsimp only
      rw [hc, if_neg (by omega), if_neg (by omega), if_neg (by omega)]
      simp only [List.cons.injEq, ← UInt8.toNat_inj, UInt8.toNat_ofNat', and_true]
      omega

theorem isEncoding_iff {bytes : List UInt8} :
    IsEncoding bytes ↔ ∃ c, String.utf8EncodeChar c = bytes := by
  constructor
  · exact IsEncoding.exists_char
  · rintro ⟨c, rfl⟩
    exact isEncoding_encodeChar c

/-! ## A character in front -/

theorem encodeChar_append_ne_nil (c : Char) (rest : List UInt8) :
    String.utf8EncodeChar c ++ rest ≠ [] := by
  intro h
  have hpos := length_encodeChar_pos c
  rw [(List.append_eq_nil_iff.mp h).1] at hpos
  exact Nat.lt_irrefl 0 hpos

/-- Bytes begin with one character at most. -/
theorem encodeChar_append_inj {c c' : Char} {rest rest' : List UInt8}
    (h : String.utf8EncodeChar c ++ rest = String.utf8EncodeChar c' ++ rest') :
    c = c' ∧ rest = rest' := by
  have hc : firstChar? (String.utf8EncodeChar c ++ rest) = some c :=
    firstChar?_eq_some_iff.mpr (List.prefix_append _ _)
  have hc' : firstChar? (String.utf8EncodeChar c' ++ rest') = some c' :=
    firstChar?_eq_some_iff.mpr (List.prefix_append _ _)
  obtain rfl : c = c' := Option.some.inj (by rw [← hc, h, hc'])
  exact ⟨rfl, List.append_cancel_left h⟩

/-! ## What the first byte tells -/

/-- The number of bytes of the characters that begin with this byte. -/
def announcedWidth? (lead : UInt8) : Option Nat :=
  if lead ≤ 0x7F then some 1
  else if 0xC2 ≤ lead && lead ≤ 0xDF then some 2
  else if 0xE0 ≤ lead && lead ≤ 0xEF then some 3
  else if 0xF0 ≤ lead && lead ≤ 0xF4 then some 4
  else none

theorem announcedWidth?_eq_some_iff {lead : UInt8} {width : Nat} :
    announcedWidth? lead = some width ↔
      (lead.toNat ≤ 0x7F ∧ width = 1) ∨
        (0xC2 ≤ lead.toNat ∧ lead.toNat ≤ 0xDF ∧ width = 2) ∨
        (0xE0 ≤ lead.toNat ∧ lead.toNat ≤ 0xEF ∧ width = 3) ∨
        (0xF0 ≤ lead.toNat ∧ lead.toNat ≤ 0xF4 ∧ width = 4) := by
  unfold announcedWidth?
  split_ifs <;> simp_all [UInt8.le_iff_toNat_le] <;> omega

theorem announcedWidth?_eq_none_iff {lead : UInt8} :
    announcedWidth? lead = none ↔
      (0x80 ≤ lead.toNat ∧ lead.toNat ≤ 0xC1) ∨ 0xF5 ≤ lead.toNat := by
  unfold announcedWidth?
  split_ifs <;> simp_all [UInt8.le_iff_toNat_le] <;> omega

/-- A character has as many bytes as its first one says. -/
theorem IsEncoding.announcedWidth? {lead : UInt8} {rest : List UInt8}
    (h : IsEncoding (lead :: rest)) :
    announcedWidth? lead = some (rest.length + 1) := by
  rw [announcedWidth?_eq_some_iff]
  cases h with
  | one hlead => exact .inl ⟨UInt8.le_iff_toNat_le.mp hlead, rfl⟩
  | two hlow hhigh =>
      exact .inr (.inl ⟨UInt8.le_iff_toNat_le.mp hlow, UInt8.le_iff_toNat_le.mp hhigh, rfl⟩)
  | three hopens hhigh =>
      exact .inr (.inr (.inl ⟨(opensLong_iff.mp hopens).1, UInt8.le_iff_toNat_le.mp hhigh, rfl⟩))
  | four hopens hlow =>
      exact .inr (.inr (.inr
        ⟨UInt8.le_iff_toNat_le.mp hlow, (opensLong_iff.mp hopens).2.1, rfl⟩))

/-- No character begins with a byte that continues one. -/
theorem isTrail_eq_false_of_announcedWidth? {lead : UInt8} {width : Nat}
    (h : announcedWidth? lead = some width) : isTrail lead = false := by
  rw [announcedWidth?_eq_some_iff] at h
  rw [← Bool.not_eq_true, isTrail_iff]
  omega

/-- All bytes of a character but the first continue it. -/
theorem IsEncoding.isTrail {lead : UInt8} {rest : List UInt8} (h : IsEncoding (lead :: rest)) :
    ∀ byte ∈ rest, isTrail byte = true := by
  cases h with
  | one => exact List.forall_mem_nil _
  | two _ _ hsecond => simpa using hsecond
  | three hopens _ hthird => simpa using ⟨isTrail_of_opensLong hopens, hthird⟩
  | four hopens _ hthird hfourth => simpa using ⟨isTrail_of_opensLong hopens, hthird, hfourth⟩

/-! ## What is wrong where no character begins -/

/-- The ways in which bytes can fail to begin with a character. -/
inductive Malformed : List UInt8 → Prop
  /-- A byte that continues a character stands where none has begun. -/
  | stray {byte : UInt8} {rest : List UInt8} : isTrail byte = true → Malformed (byte :: rest)
  /-- Two bytes, of which the second would do. -/
  | overlongTwo {lead : UInt8} {rest : List UInt8} : 0xC0 ≤ lead → lead ≤ 0xC1 →
      Malformed (lead :: rest)
  /-- Three bytes for a code point that takes two at most. -/
  | overlongThree {second : UInt8} {rest : List UInt8} : isTrail second = true → second ≤ 0x9F →
      Malformed (0xE0 :: second :: rest)
  /-- Four bytes for a code point that takes three at most. -/
  | overlongFour {second : UInt8} {rest : List UInt8} : isTrail second = true → second ≤ 0x8F →
      Malformed (0xF0 :: second :: rest)
  /-- A surrogate, which is no character: U+D800 up to U+DFFF. -/
  | surrogate {second : UInt8} {rest : List UInt8} : isTrail second = true → 0xA0 ≤ second →
      Malformed (0xED :: second :: rest)
  /-- A code point above U+10FFFF. -/
  | tooLarge {second : UInt8} {rest : List UInt8} : isTrail second = true → 0x90 ≤ second →
      Malformed (0xF4 :: second :: rest)
  /-- A byte that could begin nothing but code points above U+10FFFF, or nothing at all. -/
  | noLead {lead : UInt8} {rest : List UInt8} : 0xF5 ≤ lead → Malformed (lead :: rest)
  /-- The end of the bytes or a byte that continues no character comes too early. -/
  | cutOff {lead : UInt8} {width : Nat} {trail rest : List UInt8} :
      announcedWidth? lead = some width → (∀ byte ∈ trail, isTrail byte = true) →
      trail.length + 1 < width → (∀ byte ∈ rest.head?, isTrail byte = false) →
      Malformed (lead :: (trail ++ rest))

/-- Two bytes of which the second may follow, unless something is wrong with both. -/
theorem opensLong_of_not_malformed {lead second : UInt8} {rest : List UInt8}
    (hlow : 0xE0 ≤ lead.toNat) (hhigh : lead.toNat ≤ 0xF4) (hsecond : isTrail second = true)
    (h : ¬ Malformed (lead :: second :: rest)) : opensLong lead second = true := by
  obtain ⟨hleast, hmost⟩ := isTrail_iff.mp hsecond
  refine opensLong_iff.mpr ⟨hlow, hhigh, hleast, hmost, fun hlead => ?_, fun hlead => ?_,
    fun hlead => ?_, fun hlead => ?_⟩
  · by_contra hsmall
    have hbound : second.toNat ≤ 0x9F := by omega
    obtain rfl : lead = 0xE0 := UInt8.toNat_inj.mp hlead
    exact h (.overlongThree hsecond (UInt8.le_iff_toNat_le.mpr hbound))
  · by_contra hlarge
    have hbound : 0xA0 ≤ second.toNat := by omega
    obtain rfl : lead = 0xED := UInt8.toNat_inj.mp hlead
    exact h (.surrogate hsecond (UInt8.le_iff_toNat_le.mpr hbound))
  · by_contra hsmall
    have hbound : second.toNat ≤ 0x8F := by omega
    obtain rfl : lead = 0xF0 := UInt8.toNat_inj.mp hlead
    exact h (.overlongFour hsecond (UInt8.le_iff_toNat_le.mpr hbound))
  · by_contra hlarge
    have hbound : 0x90 ≤ second.toNat := by omega
    obtain rfl : lead = 0xF4 := UInt8.toNat_inj.mp hlead
    exact h (.tooLarge hsecond (UInt8.le_iff_toNat_le.mpr hbound))

/-- As many of the next `n` bytes as continue a character. -/
theorem exists_trail (n : Nat) (bytes : List UInt8) :
    ∃ trail rest, bytes = trail ++ rest ∧ (∀ byte ∈ trail, isTrail byte = true) ∧
      (trail.length = n ∨ trail.length < n ∧ ∀ byte ∈ rest.head?, isTrail byte = false) := by
  induction n generalizing bytes with
  | zero => exact ⟨[], bytes, rfl, List.forall_mem_nil _, .inl rfl⟩
  | succ n ih =>
      cases bytes with
      | nil => exact ⟨[], [], rfl, List.forall_mem_nil _, .inr ⟨Nat.succ_pos n, by simp⟩⟩
      | cons byte bytes =>
          cases hbyte : isTrail byte with
          | false => exact ⟨[], byte :: bytes, rfl, List.forall_mem_nil _,
              .inr ⟨Nat.succ_pos n, by simpa using hbyte⟩⟩
          | true =>
              obtain ⟨trail, rest, rfl, htrail, hlength⟩ := ih bytes
              refine ⟨byte :: trail, rest, rfl, List.forall_mem_cons.mpr ⟨hbyte, htrail⟩, ?_⟩
              simpa using hlength

/-- Where nothing on the list is wrong a character begins. -/
theorem exists_encoding_of_not_malformed {bytes : List UInt8} (hne : bytes ≠ [])
    (h : ¬ Malformed bytes) : ∃ front, IsEncoding front ∧ front <+: bytes := by
  obtain ⟨lead, rest, rfl⟩ := List.exists_cons_of_ne_nil hne
  cases hwidth : announcedWidth? lead with
  | none =>
      refine absurd ?_ h
      rcases announcedWidth?_eq_none_iff.mp hwidth with ⟨hlow, hhigh⟩ | hlarge
      · by_cases htrail : lead.toNat ≤ 0xBF
        · exact .stray (isTrail_iff.mpr ⟨hlow, htrail⟩)
        · exact .overlongTwo (UInt8.le_iff_toNat_le.mpr (Nat.not_le.mp htrail))
            (UInt8.le_iff_toNat_le.mpr hhigh)
      · exact .noLead (UInt8.le_iff_toNat_le.mpr hlarge)
  | some width =>
      obtain ⟨trail, rest, rfl, htrail, hlength | ⟨hshort, hstop⟩⟩ := exists_trail (width - 1) rest
      · refine ⟨lead :: trail, ?_, List.cons_prefix_cons.mpr ⟨rfl, List.prefix_append _ _⟩⟩
        rcases announcedWidth?_eq_some_iff.mp hwidth with
          ⟨hlead, rfl⟩ | ⟨hlow, hhigh, rfl⟩ | ⟨hlow, hhigh, rfl⟩ | ⟨hlow, hhigh, rfl⟩
        · obtain rfl := List.length_eq_zero_iff.mp hlength
          exact .one (UInt8.le_iff_toNat_le.mpr hlead)
        · obtain ⟨second, rfl⟩ := List.length_eq_one_iff.mp hlength
          exact .two (UInt8.le_iff_toNat_le.mpr hlow) (UInt8.le_iff_toNat_le.mpr hhigh)
            (htrail second (List.mem_singleton_self second))
        · obtain ⟨second, third, rfl⟩ := List.length_eq_two.mp hlength
          simp only [List.forall_mem_cons] at htrail
          obtain ⟨hsecond, hthird, _⟩ := htrail
          exact .three (opensLong_of_not_malformed hlow (by omega) hsecond h)
            (UInt8.le_iff_toNat_le.mpr hhigh) hthird
        · obtain ⟨second, third, fourth, rfl⟩ := List.length_eq_three.mp hlength
          simp only [List.forall_mem_cons] at htrail
          obtain ⟨hsecond, hthird, hfourth, _⟩ := htrail
          exact .four (opensLong_of_not_malformed (by omega) hhigh hsecond h)
            (UInt8.le_iff_toNat_le.mpr hlow) hthird hfourth
      · exact absurd (.cutOff hwidth htrail (by omega) hstop) h

/-- The first two bytes of a character of three or four bytes. -/
theorem IsEncoding.opensLong {lead second : UInt8} {trail rest more : List UInt8}
    (h : IsEncoding (lead :: trail)) (htail : trail ++ rest = second :: more)
    (hlong : 0xE0 ≤ lead.toNat) : opensLong lead second = true := by
  cases h with
  | one hlead =>
      have hsmall : lead.toNat ≤ 0x7F := UInt8.le_iff_toNat_le.mp hlead
      omega
  | two _ hhigh =>
      have hsmall : lead.toNat ≤ 0xDF := UInt8.le_iff_toNat_le.mp hhigh
      omega
  | three hopens =>
      obtain ⟨rfl, _⟩ := List.cons.inj htail
      exact hopens
  | four hopens =>
      obtain ⟨rfl, _⟩ := List.cons.inj htail
      exact hopens

/-- A character goes no further than the bytes that can continue it. -/
theorem IsEncoding.length_le {lead : UInt8} {trail rest short stop : List UInt8}
    (h : IsEncoding (lead :: trail)) (htail : trail ++ rest = short ++ stop)
    (hstop : ∀ byte ∈ stop.head?, Utf8.isTrail byte = false) : trail.length ≤ short.length := by
  rcases List.append_eq_append_iff.mp htail with ⟨more, rfl, _⟩ | ⟨more, rfl, hmore⟩
  · rw [List.length_append]
    omega
  · cases more with
    | nil => exact Nat.le_of_eq (congrArg List.length (List.append_nil short))
    | cons byte more =>
        have hbyte := h.isTrail byte (by simp)
        rw [hstop byte (by rw [hmore]; rfl)] at hbyte
        exact absurd hbyte Bool.false_ne_true

/-- Bytes that begin with a character are not malformed. -/
theorem IsEncoding.not_malformed {lead : UInt8} {trail rest : List UInt8}
    (h : IsEncoding (lead :: trail)) : ¬ Malformed (lead :: (trail ++ rest)) := by
  have hwidth := h.announcedWidth?
  have hlead := announcedWidth?_eq_some_iff.mp hwidth
  intro hmalformed
  generalize hbytes : lead :: (trail ++ rest) = bytes at hmalformed
  cases hmalformed with
  | stray hstray =>
      obtain ⟨rfl, _⟩ := List.cons.inj hbytes
      rw [isTrail_eq_false_of_announcedWidth? hwidth] at hstray
      exact Bool.false_ne_true hstray
  | overlongTwo hlow hhigh =>
      obtain ⟨rfl, _⟩ := List.cons.inj hbytes
      have hlow : 0xC0 ≤ lead.toNat := UInt8.le_iff_toNat_le.mp hlow
      have hhigh : lead.toNat ≤ 0xC1 := UInt8.le_iff_toNat_le.mp hhigh
      omega
  | @overlongThree second _ _ hsmall =>
      obtain ⟨rfl, htail⟩ := List.cons.inj hbytes
      have hsmall : second.toNat ≤ 0x9F := UInt8.le_iff_toNat_le.mp hsmall
      obtain ⟨_, _, _, _, hleast, _⟩ := opensLong_iff.mp (h.opensLong htail (by decide))
      exact absurd (hleast rfl) (by omega)
  | @overlongFour second _ _ hsmall =>
      obtain ⟨rfl, htail⟩ := List.cons.inj hbytes
      have hsmall : second.toNat ≤ 0x8F := UInt8.le_iff_toNat_le.mp hsmall
      obtain ⟨_, _, _, _, _, _, hleast, _⟩ := opensLong_iff.mp (h.opensLong htail (by decide))
      exact absurd (hleast rfl) (by omega)
  | @surrogate second _ _ hlarge =>
      obtain ⟨rfl, htail⟩ := List.cons.inj hbytes
      have hlarge : 0xA0 ≤ second.toNat := UInt8.le_iff_toNat_le.mp hlarge
      obtain ⟨_, _, _, _, _, hmost, _⟩ := opensLong_iff.mp (h.opensLong htail (by decide))
      exact absurd (hmost rfl) (by omega)
  | @tooLarge second _ _ hlarge =>
      obtain ⟨rfl, htail⟩ := List.cons.inj hbytes
      have hlarge : 0x90 ≤ second.toNat := UInt8.le_iff_toNat_le.mp hlarge
      obtain ⟨_, _, _, _, _, _, _, hmost⟩ := opensLong_iff.mp (h.opensLong htail (by decide))
      exact absurd (hmost rfl) (by omega)
  | noLead hlarge =>
      obtain ⟨rfl, _⟩ := List.cons.inj hbytes
      have hlarge : 0xF5 ≤ lead.toNat := UInt8.le_iff_toNat_le.mp hlarge
      omega
  | cutOff hannounced _ hshort hstop =>
      obtain ⟨rfl, htail⟩ := List.cons.inj hbytes
      have hlength := h.length_le htail hstop
      rw [hwidth] at hannounced
      obtain rfl := Option.some.inj hannounced
      omega

/-- The list of what can be wrong is complete, and it holds nothing else. -/
theorem malformed_iff {bytes : List UInt8} :
    Malformed bytes ↔ bytes ≠ [] ∧ ∀ c, ¬ String.utf8EncodeChar c <+: bytes := by
  constructor
  · intro h
    have hne : bytes ≠ [] := by
      rintro rfl
      cases h
    refine ⟨hne, ?_⟩
    rintro c ⟨rest, hrest⟩
    have hencoding := isEncoding_encodeChar c
    cases hchar : String.utf8EncodeChar c with
    | nil =>
        rw [hchar] at hencoding
        cases hencoding
    | cons lead trail =>
        rw [hchar] at hencoding hrest
        rw [← hrest] at h
        exact hencoding.not_malformed h
  · rintro ⟨hne, hnone⟩
    by_contra h
    obtain ⟨front, hencoding, hfront⟩ := exists_encoding_of_not_malformed hne h
    obtain ⟨c, rfl⟩ := hencoding.exists_char
    exact hnone c hfront

theorem not_malformed_encodeChar_append (c : Char) (rest : List UInt8) :
    ¬ Malformed (String.utf8EncodeChar c ++ rest) :=
  fun h => (malformed_iff.mp h).2 c (List.prefix_append _ _)

/-- Behind the longest text that bytes begin with they are malformed. -/
theorem malformed_of_longest {valid : List Char} {byte : UInt8} {rest : List UInt8}
    (hlongest : ∀ text, encode text <+: encode valid ++ byte :: rest → text <+: valid) :
    Malformed (byte :: rest) := by
  refine malformed_iff.mpr ⟨List.cons_ne_nil _ _, ?_⟩
  rintro c ⟨behind, hbehind⟩
  have hlonger := hlongest (valid ++ [c]) ⟨behind, by
    rw [encode_append, encode_cons, ← hbehind]
    simp [encode]⟩
  have hlength := hlonger.length_le
  rw [List.length_append, List.length_singleton] at hlength
  exact Nat.not_succ_le_self _ hlength

end ScalaLexer.Utf8

import ScalaLexer.Proofs.Scan.Locality
import ScalaLexer.Proofs.Scan.Standing
import ScalaLexer.Proofs.Text.Encoding

/-!
# The character at an offset

A cursor has the characters ahead of it decoded.  One can also decode them one by one,
each from the bytes at its own offset: the first byte tells how many there are, and these
bytes, or as many as the source still has, must be a text.  `decodeAt` does this.

Both are the same reading.  `decodeAt_eq_iff` says that `decodeAt` is the inverse of
writing one character: it finds the character of which the encoding stands at the offset,
nothing at the end of the source, and a fault everywhere else.  `Scan.next_eq_nextAt` says
that the cursor reads what `decodeAt` finds.
-/

namespace ScalaLexer

/-- The character that is encoded at the offset, with the number of its bytes; nothing
from the end of the source on. -/
def decodeAt (source : List UInt8) (offset : Nat) : Except Fault (Option (Char × Nat)) :=
  match source.drop offset with
  | [] => .ok none
  | lead :: rest =>
    if lead ≤ 0x7F then .ok (some (Char.ofNat lead.toNat, 1))
    else
      match Utf8.announcedWidth? lead with
      | none => .error ⟨lead, .ofNat offset⟩
      | some width =>
        -- near the end of the source there are fewer bytes than announced
        let decoded := Utf8.decode ((lead :: rest).take width)
        match decoded.malformed with
        | some _ => .error ⟨lead, .ofNat offset⟩
        | none => .ok (decoded.text.head?.map (·, width))

/-- What can stand at an offset of a source: nothing, the encoding of a character, or
bytes that no character begins with. -/
inductive StandsAt (source : List UInt8) (offset : Nat) : Except Fault (Option (Char × Nat)) → Prop
  | nothing : source.length ≤ offset → StandsAt source offset (.ok none)
  | character {c : Char} {width : Nat} : offset + width ≤ source.length →
      (source.drop offset).take width = String.utf8EncodeChar c →
      StandsAt source offset (.ok (some (c, width)))
  | malformed {byte : UInt8} : source[offset]? = some byte →
      Utf8.Malformed (source.drop offset) → StandsAt source offset (.error ⟨byte, .ofNat offset⟩)

variable {source : List UInt8} {offset : Nat}

/-! ## The three cases -/

theorem decodeAt_of_nil (h : source.drop offset = []) : decodeAt source offset = .ok none := by
  simp only [decodeAt, h]

theorem decodeAt_of_character {c : Char} {rest : List UInt8}
    (h : source.drop offset = String.utf8EncodeChar c ++ rest) :
    decodeAt source offset = .ok (some (c, c.utf8Size)) := by
  have hencoding := Utf8.isEncoding_encodeChar c
  have hlength := String.length_utf8EncodeChar c
  cases hbytes : String.utf8EncodeChar c with
  | nil => exact absurd hbytes (List.length_pos_iff.mp (Utf8.length_encodeChar_pos c))
  | cons lead trail =>
      rw [hbytes] at h hencoding hlength
      rw [List.cons_append] at h
      simp only [decodeAt, h]
      by_cases hlead : lead ≤ 0x7F
      · -- no other character begins with this byte
        have hchar : String.utf8EncodeChar (Char.ofNat lead.toNat) ++ trail =
            String.utf8EncodeChar c ++ [] := by
          rw [Utf8.encodeChar_ofNat hlead, hbytes, List.append_nil]
          rfl
        obtain ⟨rfl, rfl⟩ := Utf8.encodeChar_append_inj hchar
        rw [if_pos hlead, ← hlength]
        rfl
      · have hwidth : Utf8.announcedWidth? lead = some c.utf8Size := by
          rw [hencoding.announcedWidth?, ← hlength, List.length_cons]
        have htake : (lead :: (trail ++ rest)).take c.utf8Size =
            String.utf8EncodeChar c ++ [] := by
          rw [← hlength, hbytes, List.append_nil]
          exact List.take_left
        rw [if_neg hlead]
        simp only [hwidth, htake, Utf8.decode_encodeChar_append]
        rfl

theorem decodeAt_of_malformed {lead : UInt8} {rest : List UInt8}
    (h : source.drop offset = lead :: rest) (hmalformed : Utf8.Malformed (lead :: rest)) :
    decodeAt source offset = .error ⟨lead, .ofNat offset⟩ := by
  have hnone := (Utf8.malformed_iff.mp hmalformed).2
  simp only [decodeAt, h]
  rw [if_neg fun hlead => hnone (Char.ofNat lead.toNat)
    ⟨rest, by rw [Utf8.encodeChar_ofNat hlead]; rfl⟩]
  cases hwidth : Utf8.announcedWidth? lead with
  | none => rfl
  | some width =>
      obtain ⟨n, rfl⟩ : ∃ n, width = n + 1 := by
        have hcases := Utf8.announcedWidth?_eq_some_iff.mp hwidth
        exact Nat.exists_eq_succ_of_ne_zero (by omega)
      -- what begins no character begins none when it is cut off, either
      have hfirst : Utf8.firstChar? (lead :: rest.take n) = none := by
        refine Option.eq_none_iff_forall_ne_some.mpr fun c hc => ?_
        exact hnone c ((Utf8.firstChar?_eq_some_iff.mp hc).trans
          (List.cons_prefix_cons.mpr ⟨rfl, List.take_prefix n rest⟩))
      simp only [List.take_succ_cons, Utf8.decode_of_firstChar?_eq_none hfirst]

/-- What is decoded stands there. -/
theorem standsAt_decodeAt (source : List UInt8) (offset : Nat) :
    StandsAt source offset (decodeAt source offset) := by
  by_cases hend : source.length ≤ offset
  · rw [decodeAt_of_nil (List.drop_eq_nil_of_le hend)]
    exact .nothing hend
  have hne : source.drop offset ≠ [] := fun hnil => hend (List.drop_eq_nil_iff.mp hnil)
  by_cases hmalformed : Utf8.Malformed (source.drop offset)
  · obtain ⟨lead, rest, hbytes⟩ := List.exists_cons_of_ne_nil hne
    have hlead : source[offset]? = some lead := by
      rw [← List.head?_drop, hbytes]
      rfl
    rw [decodeAt_of_malformed hbytes (hbytes ▸ hmalformed)]
    exact .malformed hlead hmalformed
  · obtain ⟨front, hencoding, rest, hbytes⟩ :=
      Utf8.exists_encoding_of_not_malformed hne hmalformed
    obtain ⟨c, rfl⟩ := hencoding.exists_char
    have htake : (source.drop offset).take c.utf8Size = String.utf8EncodeChar c := by
      rw [← hbytes, ← String.length_utf8EncodeChar]
      exact List.take_left
    have hwithin : offset + c.utf8Size ≤ source.length := by
      have hlength := congrArg List.length hbytes
      rw [List.length_append, List.length_drop, String.length_utf8EncodeChar] at hlength
      omega
    rw [decodeAt_of_character hbytes.symm]
    exact .character hwithin htake

theorem StandsAt.decodeAt_eq {found : Except Fault (Option (Char × Nat))}
    (h : StandsAt source offset found) : decodeAt source offset = found := by
  cases h with
  | nothing hend => exact decodeAt_of_nil (List.drop_eq_nil_of_le hend)
  | @character c width hwithin htake =>
      have hlength : width = c.utf8Size := by
        rw [← String.length_utf8EncodeChar, ← htake, List.length_take, List.length_drop]
        omega
      have hbytes : source.drop offset =
          String.utf8EncodeChar c ++ (source.drop offset).drop width := by
        rw [← htake, List.take_append_drop]
      rw [decodeAt_of_character hbytes, hlength]
  | malformed hbyte hmalformed =>
      obtain ⟨lead, rest, hbytes⟩ :=
        List.exists_cons_of_ne_nil (Utf8.malformed_iff.mp hmalformed).1
      rw [← List.head?_drop, hbytes] at hbyte
      obtain rfl := Option.some.inj hbyte
      exact decodeAt_of_malformed hbytes (hbytes ▸ hmalformed)

/-- Decoding at an offset is the inverse of encoding. -/
theorem decodeAt_eq_iff {found : Except Fault (Option (Char × Nat))} :
    decodeAt source offset = found ↔ StandsAt source offset found := by
  constructor
  · rintro rfl
    exact standsAt_decodeAt source offset
  · exact StandsAt.decodeAt_eq

/-! ## The cursor reads what is decoded -/

section Following

variable {cursor : Cursor}

theorem Cursor.Follows.decodeAt_of_cons {c : Char} {rest : List Char}
    (hfollows : cursor.Follows source) (hahead : cursor.ahead = c :: rest) :
    decodeAt source cursor.pos = .ok (some (c, c.utf8Size)) := by
  have hprefix : Utf8.encode [c] <+: source.drop cursor.pos := by
    rw [Utf8.encode_prefix_iff, hfollows, hahead]
    exact ⟨rest, rfl⟩
  obtain ⟨behind, hbehind⟩ := hprefix
  rw [Utf8.encode_cons, List.append_assoc] at hbehind
  exact decodeAt_of_character hbehind.symm

/-- Where no character is ahead, nothing is there but the malformed byte. -/
theorem Cursor.Follows.head?_drop (hfollows : cursor.Follows source) (hahead : cursor.ahead = []) :
    (source.drop cursor.pos).head? = cursor.malformed := by
  obtain ⟨rest, hrest, hhead⟩ := Utf8.exists_eq_encode_decode_append (source.drop cursor.pos)
  rw [hfollows, hahead] at hrest
  rw [hfollows] at hhead
  rw [hrest]
  exact hhead.symm

theorem Cursor.Follows.decodeAt_of_end (hfollows : cursor.Follows source)
    (hahead : cursor.ahead = []) (hvalid : cursor.malformed = none) :
    decodeAt source cursor.pos = .ok none := by
  refine decodeAt_of_nil (List.head?_eq_none_iff.mp ?_)
  rw [hfollows.head?_drop hahead, hvalid]

theorem Cursor.Follows.decodeAt_of_malformed {byte : UInt8} (hfollows : cursor.Follows source)
    (hahead : cursor.ahead = []) (hmalformed : cursor.malformed = some byte) :
    decodeAt source cursor.pos = .error ⟨byte, cursor.pos⟩ := by
  have hhead := (hfollows.head?_drop hahead).trans hmalformed
  obtain ⟨rest, hbytes⟩ := List.head?_eq_some_iff.mp hhead
  refine ScalaLexer.decodeAt_of_malformed hbytes (Utf8.malformed_iff.mpr ⟨List.cons_ne_nil _ _, ?_⟩)
  intro c hc
  -- a character there would be ahead of the cursor
  have hprefix : Utf8.encode [c] <+: source.drop cursor.pos := by
    rwa [Utf8.encode_cons, hbytes, Utf8.encode, List.flatMap_nil, List.append_nil]
  rw [Utf8.encode_prefix_iff, hfollows, hahead] at hprefix
  exact List.cons_ne_nil _ _ (List.prefix_nil.mp hprefix)

end Following

namespace Scan

/-- Reads the character that is encoded at the offset of the cursor. -/
def nextAt (source : List UInt8) : Scan (Option Char) := fun cursor =>
  match decodeAt source cursor.pos with
  | .error fault => .error fault cursor
  | .ok none => .ok none cursor.settle
  | .ok (some (c, width)) =>
    .ok (some c)
      { cursor with
        pos := cursor.pos + width
        width
        pending := cursor.pending ++ [c]
        ahead := cursor.ahead.tail }

theorem next_eq_nextAt {cursor : Cursor} (hfollows : cursor.Follows source) :
    next cursor = nextAt source cursor := by
  cases hahead : cursor.ahead with
  | cons c rest =>
      rw [next_of_cons hahead, nextAt, hfollows.decodeAt_of_cons hahead]
      simp [Cursor.advance, hahead]
  | nil =>
      cases hmalformed : cursor.malformed with
      | none =>
          rw [next_of_nil hmalformed hahead, nextAt, hfollows.decodeAt_of_end hahead hmalformed]
      | some byte =>
          rw [nextAt, hfollows.decodeAt_of_malformed hahead hmalformed]
          simp only [next, hahead, atEnd, hmalformed]

end Scan

/-- Decoding one character is the inverse of encoding it.  At every offset of every source
`decodeAt` finds nothing if and only if the source ends there or before, and a character
of some width if and only if that many bytes are there and are its encoding.  In all other
cases it finds a fault that names the byte there and 32 bits of the offset, which are all
of it below 4 GiB, and one of the forms on the list `Utf8.Malformed` begins there: in these
cases, and only in these.  A cursor at the offset reads just what is found. -/
theorem decodeAt_exact (source : List UInt8) (offset : Nat) :
    (decodeAt source offset = .ok none ↔ source.length ≤ offset) ∧
      (∀ c width, decodeAt source offset = .ok (some (c, width)) ↔
        offset + width ≤ source.length ∧
          (source.drop offset).take width = String.utf8EncodeChar c) ∧
      (∀ fault, decodeAt source offset = .error fault ↔
        Utf8.Malformed (source.drop offset) ∧ source[offset]? = some fault.byte ∧
          fault.offset = .ofNat offset) ∧
      (∀ fault, decodeAt source offset = .error fault → offset < UInt32.size →
        (fault.offset : Nat) = offset) ∧
      (Utf8.Malformed (source.drop offset) ↔ offset < source.length ∧
        ∀ c width, (source.drop offset).take width ≠ String.utf8EncodeChar c) ∧
      ∀ start width,
        let cursor := { Cursor.ofOffsets source start offset with width }
        Scan.next cursor = Scan.nextAt source cursor := by
  refine ⟨?_, fun c width => ?_, fun fault => ?_, fun fault hfault hoffset => ?_, ?_,
    fun start width => ?_⟩
  · rw [decodeAt_eq_iff]
    constructor
    · intro h
      cases h with
      | nothing hend => exact hend
    · exact .nothing
  · rw [decodeAt_eq_iff]
    constructor
    · intro h
      cases h with
      | character hwithin htake => exact ⟨hwithin, htake⟩
    · rintro ⟨hwithin, htake⟩
      exact .character hwithin htake
  · rw [decodeAt_eq_iff]
    constructor
    · intro h
      cases h with
      | malformed hbyte hmalformed => exact ⟨hmalformed, hbyte, rfl⟩
    · obtain ⟨byte, _⟩ := fault
      rintro ⟨hmalformed, hbyte, rfl⟩
      exact .malformed hbyte hmalformed
  · cases decodeAt_eq_iff.mp hfault with
    | malformed => exact UInt32.toNat_ofNat_of_lt' hoffset
  · rw [Utf8.malformed_iff, Ne, List.drop_eq_nil_iff, Nat.not_le]
    refine and_congr_right fun _ => ⟨fun h c width htake => ?_, fun h c hc => ?_⟩
    · exact h c (htake ▸ List.take_prefix width _)
    · exact h c _ (List.prefix_iff_eq_take.mp hc).symm
  · exact Scan.next_eq_nextAt rfl

end ScalaLexer

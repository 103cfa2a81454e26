import ScalaLexer.Proofs.Diagnostic.Report
import ScalaLexer.Proofs.Text.Lossy

/-!
# The report on a file that is no text

The offset of a malformed byte counts the bytes of the file, and the report looks it up in
the text that lossy decoding makes of them.  A replacement character has three bytes
whatever it stands for, so behind the first malformed byte the two do not agree.  Up to
there they do: what is valid in front is decoded as it is.

`CutAtMalformed` cuts the file around the line of the first malformed byte
(`CutAtMalformed.isLineAt`).  A malformed piece neither takes in a line feed nor leaves one
behind, so that line is decoded on its own, and it is the line of the text that the report
finds (`CutAtMalformed.exists_locates`).  So the report shows it, under its own number
(`Diagnostic.report_malformed`).
-/

namespace ScalaLexer

/-! ## The first malformed byte -/

namespace Utf8

/-- The bytes are a text up to this one: `valid` is the longest text that they begin with. -/
structure StopsAt (contents : List UInt8) (valid : List Char) (byte : UInt8) : Prop where
  split : ∃ rest, contents = encode valid ++ byte :: rest
  longest : ∀ text, encode text <+: contents → text <+: valid

variable {contents : List UInt8} {valid valid' : List Char} {byte byte' : UInt8}

theorem exists_stopsAt (hinvalid : ∀ text, encode text ≠ contents) :
    ∃ valid byte, StopsAt contents valid byte := by
  obtain ⟨rest, hcontents, hhead⟩ := exists_eq_encode_decode_append contents
  cases rest with
  | nil =>
      obtain ⟨text, htext⟩ := decode_malformed_eq_none_iff.mp hhead
      exact absurd htext (hinvalid text)
  | cons byte rest =>
      exact ⟨_, byte, ⟨rest, hcontents⟩, fun text => encode_prefix_iff.mp⟩

theorem StopsAt.length_lt (h : StopsAt contents valid byte) :
    (encode valid).length < contents.length := by
  obtain ⟨⟨rest, rfl⟩, _⟩ := h
  rw [List.length_append, List.length_cons]
  omega

theorem StopsAt.ne_encode (h : StopsAt contents valid byte) (text : List Char) :
    encode text ≠ contents := by
  obtain ⟨⟨rest, rfl⟩, hlongest⟩ := h
  exact encode_ne_of_longest hlongest text

theorem StopsAt.unique (h : StopsAt contents valid byte) (h' : StopsAt contents valid' byte') :
    valid = valid' ∧ byte = byte' := by
  obtain ⟨⟨rest, rfl⟩, hlongest⟩ := h
  obtain ⟨⟨rest', hcontents⟩, hlongest'⟩ := h'
  have hprefix := hlongest' valid (List.prefix_append _ _)
  have hprefix' := hlongest valid' (hcontents ▸ List.prefix_append _ _)
  obtain rfl := hprefix.eq_of_length_le hprefix'.length_le
  exact ⟨rfl, (List.cons.inj (List.append_cancel_left hcontents)).1⟩

/-- A text ends at the latest where what follows is malformed. -/
theorem StopsAt.of_malformed {rest : List UInt8} (valid : List Char)
    (h : Malformed (byte :: rest)) : StopsAt (encode valid ++ byte :: rest) valid byte := by
  refine ⟨⟨rest, rfl⟩, fun text hprefix => ?_⟩
  induction valid generalizing text with
  | nil =>
      cases text with
      | nil => exact List.nil_prefix
      | cons c text =>
          rw [encode_cons] at hprefix
          exact absurd ((List.prefix_append _ _).trans hprefix) ((malformed_iff.mp h).2 c)
  | cons c valid ih =>
      rw [encode_prefix_iff, encode_cons, List.append_assoc, decode_encodeChar_append] at hprefix
      cases text with
      | nil => exact List.nil_prefix
      | cons d text =>
          obtain ⟨rfl, hlater⟩ := List.cons_prefix_cons.mp hprefix
          exact List.cons_prefix_cons.mpr ⟨rfl, ih text (encode_prefix_iff.mpr hlater)⟩

end Utf8

/-! ## Cutting at line feeds -/

section Cutting

variable {α : Type} [DecidableEq α] (feed : α)

/-- The last line of a list, and what stands in front of it. -/
theorem exists_last_line (text : List α) :
    ∃ front line, text = front ++ line ∧ (front = [] ∨ front.getLast? = some feed) ∧
      feed ∉ line := by
  induction text with
  | nil => exact ⟨[], [], rfl, .inl rfl, List.not_mem_nil⟩
  | cons c text ih =>
      obtain ⟨front, line, rfl, hfront, hline⟩ := ih
      rcases hfront with rfl | hlast
      · by_cases hc : c = feed
        · exact ⟨[c], line, rfl, .inr (by rw [hc]; rfl), hline⟩
        · exact ⟨[], c :: line, rfl, .inl rfl, by simp [Ne.symm hc, hline]⟩
      · refine ⟨c :: front, line, rfl, .inr ?_, hline⟩
        rw [List.getLast?_cons, hlast]
        rfl

/-- The first line of a list, and what stands behind it. -/
theorem exists_first_line (text : List α) :
    ∃ line behind, text = line ++ behind ∧ feed ∉ line ∧
      (behind = [] ∨ behind.head? = some feed) := by
  induction text with
  | nil => exact ⟨[], [], rfl, List.not_mem_nil, .inl rfl⟩
  | cons c text ih =>
      by_cases hc : c = feed
      · exact ⟨[], c :: text, rfl, List.not_mem_nil, .inr (by rw [hc]; rfl)⟩
      · obtain ⟨line, behind, rfl, hline, hbehind⟩ := ih
        exact ⟨c :: line, behind, rfl, by simp [Ne.symm hc, hline], hbehind⟩

end Cutting

/-- The line of a file that holds the byte at the offset, without its line feed: what
stands in front of it and behind it. -/
structure IsLineAt (contents : List UInt8) (offset : Nat) (before line after : List UInt8) :
    Prop where
  split : contents = before ++ line ++ after
  begins : before = [] ∨ before.getLast? = some 0x0A
  inside : 0x0A ∉ line
  ends : after = [] ∨ after.head? = some 0x0A
  holds : before.length ≤ offset ∧ offset < before.length + line.length

/-- The bytes of a file that is no text, cut around the line of the first malformed byte.
In that line `inner` is valid and `piece` is not. -/
structure CutAtMalformed (front inner : List Char) (piece behind : List UInt8) : Prop where
  begins : front = [] ∨ front.getLast? = some '\n'
  inner : '\n' ∉ inner
  malformed : Utf8.Malformed piece
  piece : 0x0A ∉ piece
  ends : behind = [] ∨ behind.head? = some 0x0A

variable {front inner : List Char} {invalid piece behind : List UInt8}

theorem exists_cutAtMalformed (valid : List Char) (hmalformed : Utf8.Malformed invalid) :
    ∃ front inner piece behind, valid = front ++ inner ∧ invalid = piece ++ behind ∧
      CutAtMalformed front inner piece behind := by
  obtain ⟨front, inner, rfl, hfront, hinner⟩ := exists_last_line '\n' valid
  obtain ⟨piece, behind, rfl, hpiece, hbehind⟩ := exists_first_line 0x0A invalid
  obtain ⟨hne, hnone⟩ := Utf8.malformed_iff.mp hmalformed
  have hstart : piece ≠ [] := by
    rintro rfl
    -- a line feed is a character
    obtain ⟨rest, rfl⟩ := List.head?_eq_some_iff.mp (hbehind.resolve_left hne)
    exact hnone '\n' ⟨rest, rfl⟩
  exact ⟨front, inner, piece, behind, rfl, rfl, hfront, hinner,
    Utf8.malformed_iff.mpr ⟨hstart, fun c hc => hnone c (hc.trans (List.prefix_append _ _))⟩,
    hpiece, hbehind⟩

namespace CutAtMalformed

variable (h : CutAtMalformed front inner piece behind)

include h

theorem isLineAt :
    IsLineAt (Utf8.encode (front ++ inner) ++ (piece ++ behind))
      (Utf8.encode (front ++ inner)).length (Utf8.encode front) (Utf8.encode inner ++ piece)
      behind where
  split := by simp [Utf8.encode_append]
  begins := by
    rcases h.begins with rfl | hlast
    · exact .inl rfl
    · obtain ⟨earlier, rfl⟩ := List.getLast?_eq_some_iff.mp hlast
      right
      rw [Utf8.encode_append]
      exact List.getLast?_concat
  inside := by
    rw [List.mem_append, not_or]
    refine ⟨fun hmem => ?_, h.piece⟩
    rw [← List.count_pos_iff, Utf8.count_lineFeed_encode, List.count_pos_iff] at hmem
    exact h.inner hmem
  ends := h.ends
  holds := by
    have hpiece := List.length_pos_iff.mpr (Utf8.malformed_iff.mp h.malformed).1
    rw [Utf8.encode_append, List.length_append, List.length_append]
    omega

theorem count_lineFeed :
    (Utf8.encode (front ++ inner)).count 0x0A = front.count '\n' := by
  rw [Utf8.count_lineFeed_encode, List.count_append, List.count_eq_zero.mpr h.inner, Nat.add_zero]

/-- The line is valid up to the piece, for which a replacement character stands. -/
theorem exists_decodeLossy_line :
    ∃ more, Utf8.decodeLossy (Utf8.encode inner ++ piece) = inner ++ Utf8.replacement :: more ∧
      '\n' ∉ more := by
  have hpiece := Utf8.decodeLossy_of_malformed h.malformed
  refine ⟨_, by rw [Utf8.decodeLossy_encode_append, hpiece], fun hmem => ?_⟩
  refine h.piece (Utf8.lineFeed_mem_of_decodeLossy ?_)
  rw [hpiece]
  exact List.mem_cons_of_mem _ hmem

/-- The line is decoded on its own, whatever stands around it. -/
theorem exists_decodeLossy :
    ∃ feed back, (back = [] ∨ feed = ['\n']) ∧ (feed = [] ∨ feed = ['\n']) ∧
      Utf8.decodeLossy (Utf8.encode (front ++ inner) ++ (piece ++ behind)) =
        front ++ (Utf8.decodeLossy (Utf8.encode inner ++ piece) ++ feed) ++ back := by
  have hback : ∀ byte ∈ behind.head?, Utf8.isTrail byte = false := by
    intro byte hbyte
    rcases h.ends with rfl | hfeed
    · cases hbyte
    · obtain rfl := Option.some.inj (hbyte.symm.trans hfeed)
      rfl
  rw [Utf8.decodeLossy_encode_append, Utf8.decodeLossy_encode_append,
    Utf8.decodeLossy_append hback]
  rcases h.ends with rfl | hfeed
  · exact ⟨[], [], .inl rfl, .inl rfl, by simp [Utf8.decodeLossy, Utf8.decodeLossyFrom]⟩
  · obtain ⟨more, rfl⟩ := List.head?_eq_some_iff.mp hfeed
    have hmore : Utf8.decodeLossy (0x0A :: more) = '\n' :: Utf8.decodeLossy more :=
      Utf8.decodeLossy_encodeChar_append '\n' more
    exact ⟨['\n'], Utf8.decodeLossy more, .inr rfl, .inr rfl, by rw [hmore]; simp⟩

/-- What the report finds is the line of the file. -/
theorem exists_locates :
    ∃ feed back, (feed = [] ∨ feed = ['\n']) ∧
      LinePlace.Locates (Utf8.decodeLossy (Utf8.encode (front ++ inner) ++ (piece ++ behind)))
        (Utf8.encode (front ++ inner)).length front back
        ⟨front.count '\n' + 1, Utf8.decodeLossy (Utf8.encode inner ++ piece) ++ feed,
          Utf8.byteLength inner⟩ := by
  obtain ⟨feed, back, hends, hfeed, hcontent⟩ := h.exists_decodeLossy
  obtain ⟨more, hline, hmore⟩ := h.exists_decodeLossy_line
  rw [hline] at hcontent ⊢
  have hwithin : Utf8.byteLength inner <
      Utf8.byteLength (inner ++ Utf8.replacement :: more ++ feed) := by
    have hpos := Utf8.replacement.utf8Size_pos
    simp only [Utf8.byteLength_append, Utf8.byteLength_cons]
    omega
  have hreaches : Utf8.byteLength front + Utf8.byteLength inner =
      (Utf8.encode (front ++ inner)).length := by
    rw [Utf8.length_encode, Utf8.byteLength_append]
  have hinside : '\n' ∉ inner ++ Utf8.replacement :: more := by
    rw [List.mem_append, List.mem_cons, not_or, not_or]
    exact ⟨h.inner, by decide, hmore⟩
  refine ⟨feed, back, hfeed, hcontent, hreaches, h.begins, rfl, ?_, ?_, fun _ => hwithin, ?_, ?_⟩
  · rcases hfeed with rfl | rfl
    · rw [List.append_nil]
      exact fun hmem => hinside (List.dropLast_subset _ hmem)
    · rwa [List.dropLast_concat]
  · exact hends.imp_right fun hlast => by rw [hlast, List.getLast?_concat]
  · intro hend
    rw [hcontent, Utf8.byteLength_append, Utf8.byteLength_append] at hend
    omega
  · intro hempty
    have hnone : inner ++ Utf8.replacement :: more ++ feed = [] := hempty
    rw [hnone] at hwithin
    exact absurd hwithin (Nat.not_lt_zero _)

end CutAtMalformed

/-! ## The report -/

namespace Diagnostic

/-- White space at the end of a line is cut off, and with it the line feed. -/
theorem trimEnd_append_lineFeed (text : List Char) : trimEnd (text ++ ['\n']) = trimEnd text := by
  have hspace : Unicode.isWhiteSpace '\n' = true := by decide
  simp [trimEnd, hspace]

/-- The rows of the report on a file that is no text.  They show the line of the first
malformed byte, decoded on its own, and the caret has a dash for each byte between the
indent of the line and that byte.  From 65535 such bytes on there is no caret. -/
inductive ReportsMalformed (path : String) (contents : List UInt8) : List String → Prop
  | rows {valid indent seen behind shown : List Char} {byte : UInt8}
      {before line after : List UInt8} {number margin : String} {caret : List String} :
      Utf8.StopsAt contents valid byte →
      IsLineAt contents (Utf8.encode valid).length before line after →
      Utf8.Lossy line (indent ++ (seen ++ Utf8.replacement :: behind)) →
      (∀ c ∈ indent, c = ' ' ∨ c = '\t') →
      (∀ c, (seen ++ Utf8.replacement :: behind).head? = some c → c ≠ ' ' ∧ c ≠ '\t') →
      before.length + Utf8.byteLength (indent ++ seen) = (Utf8.encode valid).length →
      Trims (seen ++ Utf8.replacement :: behind) shown →
      number = Nat.repr ((Utf8.encode valid).count 0x0A + 1) →
      margin = String.ofList (List.replicate (number.length + 1) ' ') ++ "|" →
      (caret =
        if Utf8.byteLength seen < 65535 then
          [margin ++ " " ++ String.ofList (List.replicate (Utf8.byteLength seen) '-') ++ "^"]
        else []) →
      ReportsMalformed path contents
        (["Error: InvalidEncoding (Source files must be valid UTF-8)", "-> " ++ path, margin,
          number ++ " | " ++ String.ofList shown] ++ caret)

variable {valid : List Char} {byte : UInt8}

/-- The replacement character is no indent, so the line is cut in front of it. -/
theorem cut_of_replacement (number : Nat) (inner more : List Char) :
    LinePlace.Cut ⟨number, inner ++ Utf8.replacement :: more, Utf8.byteLength inner⟩
      (inner.takeWhile isIndent) (inner.dropWhile isIndent) (Utf8.replacement :: more) where
  text := by rw [← List.append_assoc, List.takeWhile_append_dropWhile]
  blank := fun c => List.mem_takeWhile_imp
  head := by
    intro c hc
    cases hbehind : inner.dropWhile isIndent with
    | nil =>
        rw [hbehind] at hc
        obtain rfl := Option.some.inj hc
        rfl
    | cons d behind =>
        have hhead := List.head?_dropWhile_not isIndent inner
        rw [hbehind] at hc hhead
        obtain rfl := Option.some.inj hc
        exact hhead
  offset := by rw [← Utf8.byteLength_append, List.takeWhile_append_dropWhile]

theorem isIndent_eq_false_iff {c : Char} : isIndent c = false ↔ c ≠ ' ' ∧ c ≠ '\t' := by
  simp [isIndent]

/-- From 65535 bytes on between the indent of its line and the first malformed byte the caret
stands too far to the right. -/
theorem tooWide_of_cut {front inner : List Char} {piece behind : List UInt8}
    (hcut : CutAtMalformed front inner piece behind)
    (hwide : 65535 ≤ Utf8.byteLength (inner.dropWhile isIndent)) :
    TooWide (Utf8.decodeLossy (Utf8.encode (front ++ inner) ++ (piece ++ behind)))
      (Utf8.encode (front ++ inner)).length := by
  obtain ⟨more, hline, _⟩ := hcut.exists_decodeLossy_line
  obtain ⟨feed, back, _, hlocates⟩ := hcut.exists_locates
  rw [hline, List.append_assoc, List.cons_append] at hlocates
  have hplace := cut_of_replacement (front.count '\n' + 1) inner (more ++ feed)
  refine .intro hlocates hplace.text hplace.blank hplace.head ?_
  rw [hplace.offset, LinePlace.byteLength_of_isIndent hplace.blank]
  omega

/-- The report looks the offset up in the text, and shows the line of the file. -/
theorem report_malformed {contents : List UInt8} (name path : String)
    (hstops : Utf8.StopsAt contents valid byte)
    (hshort : (Utf8.encode valid).length < UInt32.size) :
    ReportsMalformed path contents
      (report ⟨.invalidEncoding byte, ⟨.ofNat (Utf8.encode valid).length, name⟩⟩ path
        (Utf8.decodeLossy contents)) := by
  obtain ⟨⟨rest, hcontents⟩, hlongest⟩ := id hstops
  rw [hcontents] at hlongest
  obtain ⟨front, inner, piece, behind, rfl, hinvalid, hcut⟩ :=
    exists_cutAtMalformed valid (Utf8.malformed_of_longest hlongest)
  rw [hinvalid] at hcontents
  obtain ⟨more, hline, _⟩ := hcut.exists_decodeLossy_line
  obtain ⟨feed, back, hfeed, hlocates⟩ := hcut.exists_locates
  -- the line of the file, and the line of the text with its line feed
  have hshown := cut_of_replacement (front.count '\n' + 1) inner more
  have hfound := cut_of_replacement (front.count '\n' + 1) inner (more ++ feed)
  have htrim : trimEnd (inner.dropWhile isIndent ++ Utf8.replacement :: (more ++ feed)) =
      trimEnd (inner.dropWhile isIndent ++ Utf8.replacement :: more) := by
    rcases hfeed with rfl | rfl
    · rw [List.append_nil]
    · rw [← List.cons_append, ← List.append_assoc, trimEnd_append_lineFeed]
  have hoffset : (UInt32.ofNat (Utf8.encode (front ++ inner)).length).toNat =
      (Utf8.encode (front ++ inner)).length := UInt32.toNat_ofNat_of_lt' hshort
  have hplace := lineAt?_of_locates hlocates
  rw [hline, List.append_assoc, List.cons_append, ← hcontents] at hplace
  have hrows := excerpt_eq hfound
  rw [htrim, ← hcut.count_lineFeed] at hrows
  rw [report, hoffset, hplace, ← hcut.count_lineFeed]
  dsimp only
  rw [hrows]
  have htext : inner.takeWhile isIndent ++ (inner.dropWhile isIndent ++ Utf8.replacement :: more) =
      inner ++ Utf8.replacement :: more := hshown.text.symm
  refine .rows hstops (hcontents ▸ hcut.isLineAt)
    (Utf8.lossy_iff.mpr (hline.trans htext.symm)) (fun c hc => ?_)
    (fun c hc => isIndent_eq_false_iff.mp (hshown.head c hc)) ?_ (trims_trimEnd _) rfl rfl rfl
  · simpa [isIndent] using hshown.blank c hc
  · rw [List.takeWhile_append_dropWhile, Utf8.length_encode, Utf8.length_encode,
      Utf8.byteLength_append]

-- a tab, a letter and two bytes of a character that is cut off stand on the second line
example : report ⟨.invalidEncoding 0xE2, ⟨4, "a.scala"⟩⟩ "a.scala"
      (Utf8.decodeLossy [0x61, 0x0A, 0x09, 0x62, 0xE2, 0x82, 0x20, 0x0A, 0x63]) =
    ["Error: InvalidEncoding (Source files must be valid UTF-8)", "-> a.scala", "  |",
      "2 | b\uFFFD", "  | -^"] := by
  decide

end Diagnostic

end ScalaLexer

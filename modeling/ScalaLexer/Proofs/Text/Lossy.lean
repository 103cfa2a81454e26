import ScalaLexer.Proofs.Text.Encoding

/-!
# Lossy decoding

Lossy decoding goes on behind what is malformed.  It leaves one replacement character
for every maximal piece of it: the longest beginning of a character there, or one byte
where no character begins with that.  `Lossy` says this of bytes and a text without
saying how to get the text.  `lossy_iff` says that `Utf8.decodeLossy` finds it, and that
there is no other.

A character begins with a byte that continues none.  So where one stands the text can be
cut (`decodeLossy_append`), in particular at a line feed: a malformed piece never takes
one in.  It follows that decoding neither loses nor invents line feeds
(`count_lineFeed_encode`, `lineFeed_mem_of_decodeLossy`).
-/

namespace ScalaLexer.Utf8

/-- The piece is all of what is malformed in front of `rest`. -/
structure IsPiece (piece rest : List UInt8) : Prop where
  nonempty : piece ≠ []
  malformed : Malformed (piece ++ rest)
  begins : piece.length = 1 ∨ ∃ c, piece <+: String.utf8EncodeChar c
  /-- No character has a longer beginning there. -/
  longest : ∀ c front, front <+: String.utf8EncodeChar c → front <+: piece ++ rest →
    front.length ≤ piece.length

/-- The text is what is left of the bytes when every malformed piece is replaced. -/
inductive Lossy : List UInt8 → List Char → Prop
  | nil : Lossy [] []
  | char {c : Char} {rest : List UInt8} {text : List Char} : Lossy rest text →
      Lossy (String.utf8EncodeChar c ++ rest) (c :: text)
  | piece {piece rest : List UInt8} {text : List Char} : IsPiece piece rest → Lossy rest text →
      Lossy (piece ++ rest) (replacement :: text)

/-! ## There is one such text at most -/

theorem IsPiece.length_le {piece rest piece' rest' : List UInt8} (h : IsPiece piece rest)
    (h' : IsPiece piece' rest') (hbytes : piece ++ rest = piece' ++ rest') :
    piece.length ≤ piece'.length := by
  rcases h.begins with hone | ⟨c, hbegins⟩
  · rw [hone]
    exact List.length_pos_iff.mpr h'.nonempty
  · exact h'.longest c piece hbegins ⟨rest, hbytes⟩

theorem IsPiece.unique {piece rest piece' rest' : List UInt8} (h : IsPiece piece rest)
    (h' : IsPiece piece' rest') (hbytes : piece ++ rest = piece' ++ rest') :
    piece = piece' ∧ rest = rest' :=
  List.append_inj hbytes (Nat.le_antisymm (h.length_le h' hbytes) (h'.length_le h hbytes.symm))

theorem Lossy.unique {bytes bytes' : List UInt8} {text text' : List Char} (h : Lossy bytes text)
    (h' : Lossy bytes' text') (hbytes : bytes = bytes') : text = text' := by
  induction h generalizing bytes' text' with
  | nil =>
      cases h' with
      | nil => rfl
      | char => exact absurd hbytes.symm (encodeChar_append_ne_nil _ _)
      | piece hpiece => exact absurd (List.append_eq_nil_iff.mp hbytes.symm).1 hpiece.nonempty
  | @char c rest text _ ih =>
      cases h' with
      | nil => exact absurd hbytes (encodeChar_append_ne_nil _ _)
      | char hrest' =>
          obtain ⟨rfl, hrest⟩ := encodeChar_append_inj hbytes
          rw [ih hrest' hrest]
      | piece hpiece =>
          exact absurd (hbytes ▸ hpiece.malformed) (not_malformed_encodeChar_append c rest)
  | @piece piece rest text hpiece _ ih =>
      cases h' with
      | nil => exact absurd (List.append_eq_nil_iff.mp hbytes).1 hpiece.nonempty
      | char =>
          exact absurd (hbytes ▸ hpiece.malformed) (not_malformed_encodeChar_append _ _)
      | piece hpiece' hrest' =>
          obtain ⟨_, hrest⟩ := hpiece.unique hpiece' hbytes
          rw [ih hrest' hrest]

/-! ## The length of a malformed piece -/

theorem malformedLength_pos (bytes : List UInt8) : 1 ≤ malformedLength bytes := by
  unfold malformedLength
  split
  · split_ifs <;> decide
  · split_ifs <;> decide
  · exact Nat.le_refl 1

theorem two_le_malformedLength {lead second : UInt8} {rest : List UInt8}
    (hopens : opensLong lead second = true) : 2 ≤ malformedLength (lead :: second :: rest) := by
  cases rest with
  | nil => exact Nat.le_of_eq (if_pos hopens).symm
  | cons third rest =>
      rw [malformedLength, if_pos hopens]
      split_ifs <;> decide

theorem malformedLength_eq_three {lead second third : UInt8} {rest : List UInt8}
    (hopens : opensLong lead second = true) (hlead : 0xF0 ≤ lead) (hthird : isTrail third = true) :
    malformedLength (lead :: second :: third :: rest) = 3 := by
  rw [malformedLength, if_pos hopens, if_pos (by simp [hlead, hthird])]

/-- Where a character is cut off the malformed piece takes in all that is there of it. -/
theorem length_le_malformedLength {bytes front encoding : List UInt8}
    (hencoding : IsEncoding encoding) (hfront : front <+: encoding) (hbytes : front <+: bytes)
    (hcut : ¬ encoding <+: bytes) : front.length ≤ malformedLength bytes := by
  have hpos := malformedLength_pos bytes
  have hproper : front.length < encoding.length := by
    refine Nat.lt_of_le_of_ne hfront.length_le fun hlength => hcut ?_
    rwa [← hfront.eq_of_length hlength]
  have htake := List.prefix_iff_eq_take.mp hfront
  obtain ⟨behind, rfl⟩ := hbytes
  cases hencoding with
  | one =>
      simp only [List.length_cons, List.length_nil] at hproper
      omega
  | two =>
      simp only [List.length_cons, List.length_nil] at hproper
      omega
  | three hopens =>
      simp only [List.length_cons, List.length_nil] at hproper
      obtain hshort | htwo : front.length ≤ 1 ∨ front.length = 2 := by omega
      · omega
      · rw [htwo] at htake
        rw [htwo, htake]
        exact two_le_malformedLength hopens
  | four hopens hlead hthird =>
      simp only [List.length_cons, List.length_nil] at hproper
      obtain hshort | htwo | hthree :
          front.length ≤ 1 ∨ front.length = 2 ∨ front.length = 3 := by omega
      · omega
      · rw [htwo] at htake
        rw [htwo, htake]
        exact two_le_malformedLength hopens
      · rw [hthree] at htake
        rw [hthree, htake]
        exact Nat.le_of_eq (malformedLength_eq_three hopens hlead hthird).symm

theorem malformedLength_le {bytes : List UInt8} (hne : bytes ≠ []) :
    malformedLength bytes ≤ bytes.length := by
  unfold malformedLength
  split
  · split_ifs <;> simp
  · split_ifs <;> simp
  · exact List.length_pos_iff.mpr hne

/-- The two bytes are the beginning of a character. -/
theorem exists_encoding_of_opensLong {lead second : UInt8} (hopens : opensLong lead second = true) :
    ∃ encoding, IsEncoding encoding ∧ [lead, second] <+: encoding := by
  by_cases hlead : lead ≤ 0xEF
  · exact ⟨[lead, second, 0x80], .three hopens hlead (by decide), ⟨[0x80], rfl⟩⟩
  · have hlarge : 0xF0 ≤ lead :=
      UInt8.le_iff_toNat_le.mpr (Nat.not_le.mp fun hsmall =>
        hlead (UInt8.le_iff_toNat_le.mpr hsmall))
    exact ⟨[lead, second, 0x80, 0x80], .four hopens hlarge (by decide) (by decide),
      ⟨[0x80, 0x80], rfl⟩⟩

/-- A malformed piece of more than one byte is the beginning of a character. -/
theorem exists_encoding_of_malformedLength {bytes : List UInt8} (hne : bytes ≠ []) :
    (bytes.take (malformedLength bytes)).length = 1 ∨
      ∃ encoding, IsEncoding encoding ∧ bytes.take (malformedLength bytes) <+: encoding := by
  match bytes with
  | [] => exact absurd rfl hne
  | [_] => exact .inl rfl
  | [lead, second] =>
      rw [malformedLength]
      split_ifs with hopens
      · exact .inr (exists_encoding_of_opensLong hopens)
      · exact .inl rfl
  | lead :: second :: third :: rest =>
      rw [malformedLength]
      split_ifs with hopens hthree
      · rw [Bool.and_eq_true, decide_eq_true_eq] at hthree
        exact .inr ⟨[lead, second, third, 0x80], .four hopens hthree.1 hthree.2 (by decide),
          ⟨[0x80], rfl⟩⟩
      · exact .inr (exists_encoding_of_opensLong hopens)
      · exact .inl rfl

theorem isPiece_malformedLength {bytes : List UInt8} (h : Malformed bytes) :
    IsPiece (bytes.take (malformedLength bytes)) (bytes.drop (malformedLength bytes)) := by
  have hne := (malformed_iff.mp h).1
  have hlength : (bytes.take (malformedLength bytes)).length = malformedLength bytes := by
    rw [List.length_take, Nat.min_eq_left (malformedLength_le hne)]
  refine ⟨?_, ?_, ?_, ?_⟩
  · rw [← List.length_pos_iff, hlength]
    exact malformedLength_pos bytes
  · rwa [List.take_append_drop]
  · refine (exists_encoding_of_malformedLength hne).imp_right ?_
    rintro ⟨encoding, hencoding, hfront⟩
    obtain ⟨c, rfl⟩ := hencoding.exists_char
    exact ⟨c, hfront⟩
  · intro c front hfront hbytes
    rw [List.take_append_drop] at hbytes
    rw [hlength]
    exact length_le_malformedLength (isEncoding_encodeChar c) hfront hbytes
      ((malformed_iff.mp h).2 c)

/-! ## `decodeLossy` finds the text -/

/-- The characters read before stand in front of what is read. -/
theorem decodeLossyFrom_eq (seen : List Char) (skip : Nat) (bytes : List UInt8) :
    decodeLossyFrom seen skip bytes = seen.reverse ++ decodeLossy (bytes.drop skip) := by
  unfold decodeLossy
  induction bytes generalizing seen skip with
  | nil => simp [decodeLossyFrom]
  | cons lead rest ih =>
      cases skip with
      | succ skip => exact ih seen skip
      | zero =>
          simp only [decodeLossyFrom, List.drop_zero]
          cases firstChar? (lead :: rest) with
          | none =>
              simp only
              rw [ih (replacement :: seen), ih [replacement]]
              simp
          | some c =>
              simp only
              rw [ih (c :: seen), ih [c]]
              simp

theorem decodeLossy_encodeChar_append (c : Char) (rest : List UInt8) :
    decodeLossy (String.utf8EncodeChar c ++ rest) = c :: decodeLossy rest := by
  have hfirst : firstChar? (String.utf8EncodeChar c ++ rest) = some c :=
    firstChar?_eq_some_iff.mpr (List.prefix_append _ _)
  have hlength := String.length_utf8EncodeChar c
  cases hbytes : String.utf8EncodeChar c with
  | nil => exact absurd (List.append_eq_nil_iff.mpr ⟨hbytes, rfl⟩) (encodeChar_append_ne_nil c [])
  | cons lead trail =>
      rw [hbytes] at hfirst hlength
      have htrail : c.utf8Size - 1 = trail.length := by
        rw [← hlength, List.length_cons, Nat.add_sub_cancel]
      rw [List.cons_append] at hfirst ⊢
      rw [decodeLossy, decodeLossyFrom, hfirst]
      simp only [decodeLossyFrom_eq, htrail, List.drop_left]
      rfl

theorem decodeLossy_of_malformed {bytes : List UInt8} (h : Malformed bytes) :
    decodeLossy bytes = replacement :: decodeLossy (bytes.drop (malformedLength bytes)) := by
  obtain ⟨hne, hnone⟩ := malformed_iff.mp h
  obtain ⟨lead, rest, rfl⟩ := List.exists_cons_of_ne_nil hne
  have hfirst : firstChar? (lead :: rest) = none :=
    Option.eq_none_iff_forall_ne_some.mpr fun c hc => hnone c (firstChar?_eq_some_iff.mp hc)
  obtain ⟨n, hn⟩ := Nat.exists_eq_add_of_le' (malformedLength_pos (lead :: rest))
  rw [hn, decodeLossy, decodeLossyFrom, hfirst]
  simp only [decodeLossyFrom_eq, hn, Nat.add_sub_cancel, List.drop_succ_cons]
  rfl

theorem lossy_decodeLossy (bytes : List UInt8) : Lossy bytes (decodeLossy bytes) := by
  induction hlength : bytes.length using Nat.strongRecOn generalizing bytes with
  | _ length ih =>
      subst hlength
      by_cases hne : bytes = []
      · subst hne
        exact .nil
      by_cases hmalformed : Malformed bytes
      · have hpiece := isPiece_malformedLength hmalformed
        have hshorter : (bytes.drop (malformedLength bytes)).length < bytes.length := by
          have hpos := malformedLength_pos bytes
          have hbytes := List.length_pos_iff.mpr hne
          rw [List.length_drop]
          omega
        rw [decodeLossy_of_malformed hmalformed]
        have hlossy := Lossy.piece hpiece (ih _ hshorter _ rfl)
        rwa [List.take_append_drop] at hlossy
      · obtain ⟨front, hencoding, rest, rfl⟩ := exists_encoding_of_not_malformed hne hmalformed
        obtain ⟨c, rfl⟩ := hencoding.exists_char
        rw [decodeLossy_encodeChar_append]
        have hpos := length_encodeChar_pos c
        exact .char (ih rest.length (by rw [List.length_append]; omega) rest rfl)

/-- What lossy decoding gives is what is left when every malformed piece is replaced. -/
theorem lossy_iff {bytes : List UInt8} {text : List Char} :
    Lossy bytes text ↔ decodeLossy bytes = text := by
  constructor
  · intro h
    exact (lossy_decodeLossy bytes).unique h rfl
  · rintro rfl
    exact lossy_decodeLossy bytes

-- four bytes of which the last is missing, three likewise, two likewise, and stray bytes
example :
    decodeLossy [0x61, 0xF1, 0x80, 0x80, 0xE1, 0x80, 0xC2, 0x62, 0x80, 0x63, 0x80, 0xBF, 0x64] =
      "a\uFFFD\uFFFD\uFFFDb\uFFFDc\uFFFD\uFFFDd".toList := by
  decide

/-! ## Where the text can be cut -/

/-- Behind its first byte a character has only bytes that continue it. -/
theorem isTrail_of_prefix_encodeChar {front more : List UInt8} {byte : UInt8} {c : Char}
    (hne : front ≠ []) (h : front ++ byte :: more <+: String.utf8EncodeChar c) :
    isTrail byte = true := by
  obtain ⟨rest, hrest⟩ := h
  obtain ⟨lead, front, rfl⟩ := List.exists_cons_of_ne_nil hne
  have hencoding := isEncoding_encodeChar c
  rw [← hrest] at hencoding
  exact hencoding.isTrail byte (by simp)

/-- A beginning of a character goes no further than a byte that continues none. -/
theorem prefix_of_prefix_append {front back beginning : List UInt8} {c : Char} (hne : front ≠ [])
    (hback : ∀ byte ∈ back.head?, isTrail byte = false)
    (hbeginning : beginning <+: String.utf8EncodeChar c) (hwhole : beginning <+: front ++ back) :
    beginning <+: front := by
  obtain ⟨rest, hrest⟩ := hwhole
  rcases List.append_eq_append_iff.mp hrest with ⟨more, rfl, _⟩ | ⟨more, rfl, hmore⟩
  · exact List.prefix_append _ _
  · cases more with
    | nil => simp
    | cons byte more =>
        have htrail := isTrail_of_prefix_encodeChar hne hbeginning
        rw [hback byte (by rw [hmore]; rfl)] at htrail
        exact absurd htrail Bool.false_ne_true

theorem IsPiece.append {piece rest back : List UInt8} (h : IsPiece piece rest)
    (hback : ∀ byte ∈ back.head?, isTrail byte = false) : IsPiece piece (rest ++ back) := by
  have hne : piece ++ rest ≠ [] := (malformed_iff.mp h.malformed).1
  refine ⟨h.nonempty, malformed_iff.mpr ⟨?_, fun c hc => ?_⟩, h.begins, fun c front hfront hc => ?_⟩
  · rw [← List.append_assoc]
    exact List.append_ne_nil_of_left_ne_nil hne back
  · rw [← List.append_assoc] at hc
    exact (malformed_iff.mp h.malformed).2 c
      (prefix_of_prefix_append hne hback (List.prefix_refl _) hc)
  · rw [← List.append_assoc] at hc
    exact h.longest c front hfront (prefix_of_prefix_append hne hback hfront hc)

theorem Lossy.append {front back : List UInt8} {text more : List Char} (h : Lossy front text)
    (hback : ∀ byte ∈ back.head?, isTrail byte = false) (hmore : Lossy back more) :
    Lossy (front ++ back) (text ++ more) := by
  induction h with
  | nil => exact hmore
  | char _ ih =>
      rw [List.append_assoc]
      exact .char ih
  | piece hpiece _ ih =>
      rw [List.append_assoc]
      exact .piece (hpiece.append hback) ih

/-- In front of a byte that continues no character the text is cut as the bytes are. -/
theorem decodeLossy_append {front back : List UInt8}
    (hback : ∀ byte ∈ back.head?, isTrail byte = false) :
    decodeLossy (front ++ back) = decodeLossy front ++ decodeLossy back :=
  lossy_iff.mp ((lossy_decodeLossy front).append hback (lossy_decodeLossy back))

/-- A text in front is decoded as it is, whatever stands behind it. -/
theorem decodeLossy_encode_append (text : List Char) (rest : List UInt8) :
    decodeLossy (encode text ++ rest) = text ++ decodeLossy rest := by
  induction text with
  | nil => rfl
  | cons c text ih =>
      rw [encode_cons, List.append_assoc, decodeLossy_encodeChar_append, ih, List.cons_append]

/-! ## Line feeds -/

/-- No other character has the byte of a line feed. -/
theorem eq_lineFeed_of_mem_encodeChar {c : Char} (h : 0x0A ∈ String.utf8EncodeChar c) :
    c = '\n' := by
  have hencoding := isEncoding_encodeChar c
  cases hbytes : String.utf8EncodeChar c with
  | nil => simp [hbytes] at h
  | cons lead trail =>
      rw [hbytes] at h hencoding
      rcases List.mem_cons.mp h with rfl | htrail
      · have hwidth : trail.length + 1 = 1 := Option.some.inj hencoding.announcedWidth?.symm
        obtain rfl := List.length_eq_zero_iff.mp (Nat.succ.inj hwidth)
        have hfeed : String.utf8EncodeChar c ++ [] = String.utf8EncodeChar '\n' ++ [] :=
          congrArg (· ++ []) hbytes
        exact (encodeChar_append_inj hfeed).1
      · exact absurd (hencoding.isTrail _ htrail) (by decide)

theorem count_lineFeed_encode (text : List Char) :
    (encode text).count 0x0A = text.count '\n' := by
  induction text with
  | nil => rfl
  | cons c text ih =>
      rw [encode_cons, List.count_append, ih, List.count_cons, Nat.add_comm]
      congr 1
      by_cases hc : c = '\n'
      · subst hc
        rfl
      · rw [List.count_eq_zero.mpr (mt eq_lineFeed_of_mem_encodeChar hc)]
        simp [hc]

/-- Lossy decoding invents no line feed. -/
theorem lineFeed_mem_of_decodeLossy {bytes : List UInt8} (h : '\n' ∈ decodeLossy bytes) :
    0x0A ∈ bytes := by
  generalize htext : decodeLossy bytes = text at h
  have hlossy := lossy_iff.mpr htext
  clear htext
  induction hlossy with
  | nil => cases h
  | char _ ih =>
      rcases List.mem_cons.mp h with rfl | hrest
      · exact List.mem_append_left _ (by decide)
      · exact List.mem_append_right _ (ih hrest)
  | piece _ _ ih =>
      rcases List.mem_cons.mp h with hfeed | hrest
      · exact absurd hfeed (by decide)
      · exact List.mem_append_right _ (ih hrest)

end ScalaLexer.Utf8

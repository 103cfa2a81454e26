import ScalaLexer.Text.Utf8

/-!
# The longest text that bytes begin with

`Utf8.decode` stops at the first byte that starts no character.  Reading a character
is the inverse of writing it, so no text that the bytes begin with goes further:
`encode_prefix_iff` says which texts these are, and `decode_malformed_eq_none_iff`
when they are all that there is.  Where nothing is malformed, lossy decoding loses
nothing (`decodeLossy_encode`).
-/

namespace ScalaLexer.Utf8

@[simp] theorem encode_cons (c : Char) (text : List Char) :
    encode (c :: text) = String.utf8EncodeChar c ++ encode text := rfl

theorem encode_append (front back : List Char) :
    encode (front ++ back) = encode front ++ encode back :=
  List.flatMap_append

theorem length_encodeChar_pos (c : Char) : 0 < (String.utf8EncodeChar c).length := by
  rw [String.length_utf8EncodeChar]
  exact c.utf8Size_pos

theorem eq_nil_of_byteLength {text : List Char} (h : byteLength text = 0) : text = [] := by
  cases text with
  | nil => rfl
  | cons c text =>
      have hpos := c.utf8Size_pos
      rw [byteLength_cons] at h
      omega

theorem utf8Size_le_byteLength {c : Char} {text : List Char} (hc : c ∈ text) :
    c.utf8Size ≤ byteLength text := by
  obtain ⟨front, back, rfl⟩ := List.append_of_mem hc
  rw [byteLength_append, byteLength_cons]
  omega

theorem length_le_byteLength (text : List Char) : text.length ≤ byteLength text := by
  induction text with
  | nil => exact Nat.le_refl 0
  | cons c text ih =>
      have hpos := c.utf8Size_pos
      rw [List.length_cons, byteLength_cons]
      omega

/-- A text has as many bytes as characters if each of them is one byte long. -/
theorem byteLength_eq_length_iff {text : List Char} :
    byteLength text = text.length ↔ ∀ c ∈ text, c.utf8Size = 1 := by
  induction text with
  | nil => simp
  | cons c text ih =>
      have hpos := c.utf8Size_pos
      have hle := length_le_byteLength text
      rw [byteLength_cons, List.length_cons, List.forall_mem_cons, ← ih]
      omega

/-- A text is cut in two at most once at a byte. -/
theorem append_inj_of_byteLength {front back front' back' : List Char}
    (h : front ++ back = front' ++ back') (hlength : byteLength front = byteLength front') :
    front = front' ∧ back = back' := by
  rcases List.append_eq_append_iff.mp h with ⟨more, rfl, rfl⟩ | ⟨more, rfl, rfl⟩
  · rw [byteLength_append] at hlength
    have hmore : byteLength more = 0 := by omega
    simp [eq_nil_of_byteLength hmore]
  · rw [byteLength_append] at hlength
    have hmore : byteLength more = 0 := by omega
    simp [eq_nil_of_byteLength hmore]

/-- Of two texts that one text begins with the shorter one begins the longer one. -/
theorem prefix_of_byteLength_le {front back front' back' : List Char}
    (h : front ++ back = front' ++ back') (hle : byteLength front ≤ byteLength front') :
    front <+: front' := by
  rcases List.append_eq_append_iff.mp h with ⟨more, rfl, _⟩ | ⟨more, rfl, _⟩
  · exact List.prefix_append front more
  · rw [byteLength_append] at hle
    have hmore : byteLength more = 0 := by omega
    simp [eq_nil_of_byteLength hmore]

/-- Cuts a text behind the characters that make up its first `n` bytes. -/
def cutBytes : Nat → List Char → List Char × List Char
  | 0, text => ([], text)
  | _, [] => ([], [])
  | n + 1, c :: text => Prod.map (c :: ·) id (cutBytes (n + 1 - c.utf8Size) text)

theorem cutBytes_byteLength (front back : List Char) :
    cutBytes (byteLength front) (front ++ back) = (front, back) := by
  induction front with
  | nil => cases back <;> rfl
  | cons c front ih =>
      obtain ⟨n, hn⟩ : ∃ n, byteLength (c :: front) = n + 1 :=
        Nat.exists_eq_succ_of_ne_zero fun hzero => List.cons_ne_nil _ _ (eq_nil_of_byteLength hzero)
      have hrest : n + 1 - c.utf8Size = byteLength front := by
        rw [← hn, byteLength_cons]
        omega
      rw [hn, List.cons_append, cutBytes, hrest, ih]
      rfl

/-- Behind the text that is decoded stands the malformed byte or nothing at all. -/
theorem exists_eq_encode_decode_append (bytes : List UInt8) :
    ∃ rest, bytes = encode (decode bytes).text ++ rest ∧
      (decode bytes).malformed = rest.head? := by
  induction hlength : bytes.length using Nat.strongRecOn generalizing bytes with
  | _ length ih =>
      subst hlength
      cases bytes with
      | nil => exact ⟨[], rfl, rfl⟩
      | cons lead more =>
          cases hfirst : firstChar? (lead :: more) with
          | none =>
              rw [decode_of_firstChar?_eq_none hfirst]
              exact ⟨lead :: more, rfl, rfl⟩
          | some c =>
              obtain ⟨tail, htail⟩ := firstChar?_eq_some_iff.mp hfirst
              rw [← htail]
              have hpos := length_encodeChar_pos c
              obtain ⟨rest, hrest, hhead⟩ := ih tail.length
                (by rw [← htail, List.length_append]; omega) tail rfl
              rw [decode_encodeChar_append, encode_cons]
              exact ⟨rest, by rw [List.append_assoc, ← hrest], hhead⟩

/-- The malformed byte is the one behind the text. -/
theorem getElem?_length_encode_decode (bytes : List UInt8) :
    bytes[(encode (decode bytes).text).length]? = (decode bytes).malformed := by
  obtain ⟨rest, hbytes, hhead⟩ := exists_eq_encode_decode_append bytes
  calc bytes[(encode (decode bytes).text).length]?
      = (encode (decode bytes).text ++ rest)[(encode (decode bytes).text).length]? :=
        congrArg (·[(encode (decode bytes).text).length]?) hbytes
    _ = rest[0]? := by rw [List.getElem?_append_right (Nat.le_refl _), Nat.sub_self]
    _ = (decode bytes).malformed := by rw [hhead, List.head?_eq_getElem?]

/-- The bytes begin with the encoding of a text if and only if what is decoded begins
with the text. -/
theorem encode_prefix_iff {text : List Char} {bytes : List UInt8} :
    encode text <+: bytes ↔ text <+: (decode bytes).text := by
  constructor
  · intro hprefix
    induction text generalizing bytes with
    | nil => exact List.nil_prefix
    | cons c text ih =>
        obtain ⟨rest, rfl⟩ := hprefix
        rw [encode_cons, List.append_assoc, decode_encodeChar_append, List.cons_prefix_cons]
        exact ⟨rfl, ih (List.prefix_append _ _)⟩
  · rintro ⟨more, hmore⟩
    obtain ⟨rest, hrest, _⟩ := exists_eq_encode_decode_append bytes
    rw [hrest, ← hmore]
    exact ⟨encode more ++ rest, by rw [encode_append, List.append_assoc]⟩

/-- Behind the longest text that bytes begin with, one byte more makes them no text. -/
theorem encode_ne_of_longest {valid : List Char} {byte : UInt8} {rest : List UInt8}
    (hlongest : ∀ text, encode text <+: encode valid ++ byte :: rest → text <+: valid)
    (text : List Char) : encode text ≠ encode valid ++ byte :: rest := by
  intro htext
  obtain ⟨more, rfl⟩ := hlongest text ⟨[], by rw [List.append_nil, htext]⟩
  have hlength := congrArg List.length htext
  rw [encode_append, List.length_append, List.length_append, List.length_cons] at hlength
  omega

/-- Nothing is malformed if and only if the bytes are the encoding of a text. -/
theorem decode_malformed_eq_none_iff {bytes : List UInt8} :
    (decode bytes).malformed = none ↔ ∃ text, encode text = bytes := by
  constructor
  · intro hnone
    obtain ⟨rest, hrest, hhead⟩ := exists_eq_encode_decode_append bytes
    obtain rfl : rest = [] := List.head?_eq_none_iff.mp (hhead.symm.trans hnone)
    exact ⟨_, (hrest.trans (List.append_nil _)).symm⟩
  · rintro ⟨text, rfl⟩
    rw [decode_encode]

/-- Behind a part of what is decoded the rest of it is decoded. -/
theorem decode_drop {run rest : List Char} {bytes : List UInt8} {malformed : Option UInt8}
    (h : decode bytes = ⟨run ++ rest, malformed⟩) :
    decode (bytes.drop (byteLength run)) = ⟨rest, malformed⟩ := by
  induction run generalizing bytes with
  | nil => exact h
  | cons c run ih =>
      obtain ⟨tail, htail⟩ : encode [c] <+: bytes := by
        rw [encode_prefix_iff, h]
        exact ⟨run ++ rest, rfl⟩
      have hlead : encode [c] = String.utf8EncodeChar c := List.append_nil _
      rw [hlead] at htail
      rw [← htail, decode_encodeChar_append] at h
      obtain ⟨htext, rfl⟩ := Decoded.mk.inj h
      have hrest : decode tail = ⟨run ++ rest, (decode tail).malformed⟩ :=
        congrArg (Decoded.mk · _) (List.cons.inj htext).2
      have hdrop : bytes.drop (byteLength (c :: run)) = tail.drop (byteLength run) := by
        rw [← htail, byteLength_cons, ← String.length_utf8EncodeChar, List.drop_append,
          List.drop_of_length_le (Nat.le_add_right _ _), Nat.add_sub_cancel_left]
        rfl
      rw [hdrop]
      exact ih hrest

/-! ## Boundaries -/

/-- At this offset a character of the longest text begins that the bytes begin with,
or that text ends there. -/
def IsBoundary (bytes : List UInt8) (offset : Nat) : Prop :=
  ∃ front, front <+: (decode bytes).text ∧ byteLength front = offset

theorem byteLength_decode_le (bytes : List UInt8) :
    byteLength (decode bytes).text ≤ bytes.length := by
  have hprefix : encode (decode bytes).text <+: bytes :=
    encode_prefix_iff.mpr (List.prefix_refl _)
  rw [← length_encode]
  exact hprefix.length_le

theorem IsBoundary.le {bytes : List UInt8} {offset : Nat} (h : IsBoundary bytes offset) :
    offset ≤ byteLength (decode bytes).text := by
  obtain ⟨front, ⟨back, hback⟩, rfl⟩ := h
  rw [← hback, byteLength_append]
  exact Nat.le_add_right _ _

/-! ## Lossy decoding of a text -/

theorem decodeLossyFrom_of_malformed_eq_none (seen : List Char) (skip : Nat) (bytes : List UInt8)
    (h : (decodeFrom seen skip bytes).malformed = none) :
    decodeLossyFrom seen skip bytes = (decodeFrom seen skip bytes).text := by
  fun_induction decodeFrom seen skip bytes with
  | case1 => rfl
  | case2 seen skip _ rest ih => exact ih h
  | case3 seen lead rest c hfirst ih =>
      rw [decodeLossyFrom, hfirst]
      exact ih h
  | case4 => cases h

theorem decodeLossy_encode (text : List Char) : decodeLossy (encode text) = text := by
  have hdecode : decodeFrom [] 0 (encode text) = ⟨text, none⟩ := decode_encode text
  rw [decodeLossy, decodeLossyFrom_of_malformed_eq_none _ _ _ (by rw [hdecode]), hdecode]

end ScalaLexer.Utf8

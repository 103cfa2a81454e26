/-!
# UTF-8

Reading a sequence of bytes as text.  `decode` stops at the first byte that
starts no character and names it; `decodeLossy` goes on behind it and leaves one
replacement character for every maximal piece that is the beginning of no
character.

`firstChar?_eq_some_iff` says that reading one character is exactly the inverse
of writing it, and `decode_encode` that reading gives back every text that was
written.
-/

namespace ScalaLexer.Utf8

/-- The bytes of a text. -/
def encode (text : List Char) : List UInt8 :=
  text.flatMap String.utf8EncodeChar

/-- The number of bytes of a text. -/
def byteLength (text : List Char) : Nat :=
  text.foldr (fun c rest => c.utf8Size + rest) 0

@[simp] theorem byteLength_nil : byteLength [] = 0 := rfl

@[simp] theorem byteLength_cons (c : Char) (text : List Char) :
    byteLength (c :: text) = c.utf8Size + byteLength text := rfl

@[simp] theorem byteLength_append (front back : List Char) :
    byteLength (front ++ back) = byteLength front + byteLength back := by
  induction front with
  | nil => simp
  | cons c front ih => rw [List.cons_append, byteLength_cons, byteLength_cons, ih, Nat.add_assoc]

theorem length_encode (text : List Char) : (encode text).length = byteLength text := by
  induction text with
  | nil => rfl
  | cons c text ih =>
    have hcons : encode (c :: text) = String.utf8EncodeChar c ++ encode text := rfl
    rw [hcons, List.length_append, ih, String.length_utf8EncodeChar, byteLength_cons]

/-! ## One character -/

/-- The character whose encoding the bytes begin with.  No encoding is longer
than four bytes. -/
def firstChar? (bytes : List UInt8) : Option Char :=
  (bytes.take 4).toByteArray.utf8DecodeChar? 0

theorem firstChar?_eq_some_iff {bytes : List UInt8} {c : Char} :
    firstChar? bytes = some c ↔ String.utf8EncodeChar c <+: bytes := by
  constructor
  · intro h
    have hsplit := congrArg (fun array => array.data.toList)
      (ByteArray.eq_of_utf8DecodeChar?_eq_some h)
    simp only [List.data_toByteArray, ByteArray.data_append, Array.toList_append] at hsplit
    exact (List.prefix_append _ _).trans (hsplit ▸ List.take_prefix 4 bytes)
  · rintro ⟨rest, rfl⟩
    have hlength : (String.utf8EncodeChar c).length ≤ 4 := by
      rw [String.length_utf8EncodeChar]
      exact c.utf8Size_le_four
    rw [firstChar?, List.take_append, List.take_of_length_le hlength, List.toByteArray_append,
      ← List.utf8Encode_singleton]
    exact List.utf8DecodeChar?_utf8Encode_singleton_append

/-! ## A whole text -/

/-- What a sequence of bytes holds before its first malformed byte. -/
structure Decoded where
  /-- The characters read. -/
  text : List Char
  /-- The byte at which no character starts, if the bytes do not end before. -/
  malformed : Option UInt8
  deriving Repr, DecidableEq

/-- Decodes behind the characters `seen`, the last one first.  The first `skip`
bytes belong to a character that was read already. -/
def decodeFrom (seen : List Char) : Nat → List UInt8 → Decoded
  | _, [] => ⟨seen.reverse, none⟩
  | skip + 1, _ :: rest => decodeFrom seen skip rest
  | 0, lead :: rest =>
    match firstChar? (lead :: rest) with
    | some c => decodeFrom (c :: seen) (c.utf8Size - 1) rest
    | none => ⟨seen.reverse, some lead⟩

/-- The longest text that the bytes begin with, and the byte that ends it. -/
def decode (bytes : List UInt8) : Decoded :=
  decodeFrom [] 0 bytes

/-- The characters read before stand in front of what is read. -/
theorem decodeFrom_eq (seen : List Char) (skip : Nat) (bytes : List UInt8) :
    decodeFrom seen skip bytes =
      ⟨seen.reverse ++ (decodeFrom [] skip bytes).text, (decodeFrom [] skip bytes).malformed⟩ := by
  induction bytes generalizing seen skip with
  | nil => simp [decodeFrom]
  | cons lead rest ih =>
    cases skip with
    | succ skip => simpa [decodeFrom] using ih seen skip
    | zero =>
      simp only [decodeFrom]
      cases firstChar? (lead :: rest) with
      | none => simp
      | some c =>
        simp only
        rw [ih (c :: seen), ih [c]]
        simp

theorem decodeFrom_skip (seen : List Char) (front bytes : List UInt8) :
    decodeFrom seen front.length (front ++ bytes) = decodeFrom seen 0 bytes := by
  induction front with
  | nil => rfl
  | cons byte front ih => exact ih

@[simp] theorem decode_nil : decode [] = ⟨[], none⟩ := rfl

theorem decode_encodeChar_append (c : Char) (bytes : List UInt8) :
    decode (String.utf8EncodeChar c ++ bytes) =
      ⟨c :: (decode bytes).text, (decode bytes).malformed⟩ := by
  have hfirst : firstChar? (String.utf8EncodeChar c ++ bytes) = some c :=
    firstChar?_eq_some_iff.mpr (List.prefix_append _ _)
  have hlength := String.length_utf8EncodeChar c
  cases hbytes : String.utf8EncodeChar c with
  | nil =>
    rw [hbytes] at hlength
    exact absurd hlength (Nat.ne_of_lt c.utf8Size_pos)
  | cons lead trail =>
    rw [hbytes, List.length_cons] at hlength
    rw [hbytes, List.cons_append] at hfirst
    have htrail : c.utf8Size - 1 = trail.length := by omega
    rw [List.cons_append, decode, decodeFrom, hfirst]
    simp only [htrail, decodeFrom_skip]
    rw [decodeFrom_eq]
    rfl

theorem decode_of_firstChar?_eq_none {lead : UInt8} {rest : List UInt8}
    (h : firstChar? (lead :: rest) = none) : decode (lead :: rest) = ⟨[], some lead⟩ := by
  rw [decode, decodeFrom, h]
  rfl

theorem decode_encode (text : List Char) : decode (encode text) = ⟨text, none⟩ := by
  induction text with
  | nil => rfl
  | cons c text ih =>
    have hcons : encode (c :: text) = String.utf8EncodeChar c ++ encode text := rfl
    rw [hcons, decode_encodeChar_append, ih]

/-! ## Lossy decoding -/

/-- A byte that continues a character. -/
def isTrail (byte : UInt8) : Bool :=
  0x80 ≤ byte && byte ≤ 0xBF

/-- Some character of three or more bytes begins with these two. -/
def opensLong (lead second : UInt8) : Bool :=
  if lead = 0xE0 then 0xA0 ≤ second && second ≤ 0xBF
  else if lead = 0xED then 0x80 ≤ second && second ≤ 0x9F
  else if lead = 0xF0 then 0x90 ≤ second && second ≤ 0xBF
  else if lead = 0xF4 then 0x80 ≤ second && second ≤ 0x8F
  else 0xE1 ≤ lead && lead ≤ 0xF3 && isTrail second

/-- The length of the malformed piece at the front of bytes that begin with no
character: the longest proper beginning of a character there, or one byte. -/
def malformedLength : List UInt8 → Nat
  | lead :: second :: third :: _ =>
    if opensLong lead second then
      if 0xF0 ≤ lead && isTrail third then 3 else 2
    else 1
  | [lead, second] => if opensLong lead second then 2 else 1
  | _ => 1

/-- The replacement character U+FFFD. -/
def replacement : Char := '\uFFFD'

/-- Decodes behind the characters `seen`, the last one first.  The first `skip`
bytes belong to a character or to a malformed piece that was read already. -/
def decodeLossyFrom (seen : List Char) : Nat → List UInt8 → List Char
  | _, [] => seen.reverse
  | skip + 1, _ :: rest => decodeLossyFrom seen skip rest
  | 0, lead :: rest =>
    match firstChar? (lead :: rest) with
    | some c => decodeLossyFrom (c :: seen) (c.utf8Size - 1) rest
    | none => decodeLossyFrom (replacement :: seen) (malformedLength (lead :: rest) - 1) rest

/-- The text of the bytes, with one replacement character for each malformed
piece. -/
def decodeLossy (bytes : List UInt8) : List Char :=
  decodeLossyFrom [] 0 bytes

end ScalaLexer.Utf8

import ScalaLexer.Proofs.Scan.Identifier

/-!
# Text in quotes

What stands between quotes has a grammar for each kind of quotes, and the routine for it
reads up to the place where the grammar says that the text ends.

* Between double quotes a backslash protects the character behind it, so a text without
  end is `StringBody` followed by a quote at one place at most (`StringBody.unique`).
* Between triple quotes nothing is protected: the text ends where three quotes stand for
  the first time (`splitTripleQuoted_leftmost`).
* Between backquotes the text ends at the next one.
* Behind a single quote the next three characters decide whether a character literal
  stands there (`opensCharacter_iff`).  If none does, it is a symbol or a lone quote.

`ReadsAs` says which lexeme the scan finds in front of a text.  The three kinds of text
that may be of any length share one argument, `Delimited.readsAs_closed` and
`Delimited.readsAs_unclosed`; what differs is how the quotes are opened (`Opens`) and where
the text is cut.
-/

namespace ScalaLexer

/-! ## What stands between quotes -/

/-- A text without a double quote, apart from those that a backslash protects. -/
inductive StringBody : List Char → Prop
  | nil : StringBody []
  | plain {c : Char} {body : List Char} : c ≠ '\x22' → c ≠ '\\' → StringBody body →
      StringBody (c :: body)
  | escaped (c : Char) {body : List Char} : StringBody body → StringBody ('\\' :: c :: body)

/-- Three quotes stand in front of `rest`, and none stand further in front in the text. -/
structure MultiLineBody (body rest : List Char) : Prop where
  quotes : ['\x22', '\x22', '\x22'] <+: rest
  first : ∀ before behind, body ++ rest = before ++ behind →
    ['\x22', '\x22', '\x22'] <+: behind → body <+: before

/-- A character, or a backslash and a character. -/
inductive CharacterBody : List Char → Prop
  | plain {c : Char} : c ≠ '\\' → CharacterBody [c]
  | escaped (c : Char) : CharacterBody ['\\', c]

namespace Literal

variable {text body rest before behind : List Char}

/-- A string ends at the first quote that is not protected. -/
theorem splitEscaped_of_body (h : StringBody body) (rest : List Char) :
    splitEscaped (body ++ '\x22' :: rest) = (body, '\x22' :: rest) := by
  induction h with
  | nil => rfl
  | @plain c body hquote hbackslash _ ih =>
      rw [List.cons_append, splitEscaped, ih]
      · rfl
      · exact fun _ _ hc => absurd hc hbackslash
      · exact hquote
  | @escaped c body _ ih =>
      rw [List.cons_append, List.cons_append, splitEscaped, ih]
      rfl

theorem stringBody_of_splitEscaped (h : (splitEscaped text).2 = '\x22' :: rest) :
    StringBody (splitEscaped text).1 := by
  fun_induction splitEscaped text with
  | case1 c text ih => exact .escaped c (ih h)
  | case2 text => exact .nil
  | case3 c text hescape hquote ih =>
      refine .plain hquote ?_ (ih h)
      -- a backslash protects something, unless nothing is left
      rintro rfl
      cases text with
      | nil => cases h
      | cons next text => exact hescape next text rfl rfl
  | case4 => cases h

theorem splitEscaped_of_unclosed
    (h : ∀ body rest, StringBody body → text ≠ body ++ '\x22' :: rest) :
    splitEscaped text = (text, []) := by
  have happend := splitEscaped_append text
  rcases splitEscaped_rest text with hnil | ⟨rest, hquote⟩
  · rw [hnil, List.append_nil] at happend
    exact Prod.ext happend hnil
  · rw [hquote] at happend
    exact absurd happend.symm (h _ rest (stringBody_of_splitEscaped hquote))

/-- The three quotes that end a multi-line string are the first ones. -/
theorem splitTripleQuoted_leftmost (htext : text = before ++ behind)
    (hquotes : ['\x22', '\x22', '\x22'] <+: behind) : (splitTripleQuoted text).1 <+: before := by
  fun_induction splitTripleQuoted text generalizing before with
  | case1 text => exact List.nil_prefix
  | case2 c text hnot ih =>
      cases before with
      | nil =>
          obtain ⟨rest, rfl⟩ := hquotes
          obtain ⟨rfl, rfl⟩ := List.cons.inj htext
          exact absurd rfl (hnot rest rfl)
      | cons first before =>
          obtain ⟨rfl, hmore⟩ := List.cons.inj htext
          exact List.cons_prefix_cons.mpr ⟨rfl, ih hmore⟩
  | case3 => exact List.nil_prefix

theorem splitTripleQuoted_of_unclosed (h : ¬ ['\x22', '\x22', '\x22'] <:+: text) :
    splitTripleQuoted text = (text, []) := by
  have happend := splitTripleQuoted_append text
  rcases splitTripleQuoted_rest text with hnil | hquotes
  · rw [hnil, List.append_nil] at happend
    exact Prod.ext happend hnil
  · rw [← happend] at h
    exact absurd (hquotes.isInfix.trans (List.suffix_append _ _).isInfix) h

/-- A text in which three quotes stand somewhere is cut in front of the first ones. -/
theorem multiLineBody_of_splitTripleQuoted (h : ['\x22', '\x22', '\x22'] <:+: text) :
    MultiLineBody (splitTripleQuoted text).1 (splitTripleQuoted text).2 := by
  have happend := splitTripleQuoted_append text
  refine ⟨(splitTripleQuoted_rest text).resolve_left fun hnil => ?_, fun before behind htext =>
    splitTripleQuoted_leftmost (happend.symm.trans htext)⟩
  -- the whole text cannot stand in front of a part of it
  obtain ⟨before, behind, htext⟩ := h
  rw [List.append_assoc] at htext
  have hleftmost := splitTripleQuoted_leftmost htext.symm (List.prefix_append ..)
  rw [hnil, List.append_nil] at happend
  rw [happend, ← htext] at hleftmost
  have hlength := hleftmost.length_le
  simp only [List.length_append, List.length_cons] at hlength
  omega

end Literal

theorem StringBody.unique {body body' rest rest' : List Char} (h : StringBody body)
    (h' : StringBody body') (htext : body ++ '\x22' :: rest = body' ++ '\x22' :: rest') :
    body = body' := by
  have hcut := Literal.splitEscaped_of_body h rest
  rw [htext, Literal.splitEscaped_of_body h' rest'] at hcut
  exact (Prod.mk.inj hcut).1.symm

theorem exists_multiLineBody {text : List Char} (h : ['\x22', '\x22', '\x22'] <:+: text) :
    ∃ body rest, text = body ++ rest ∧ MultiLineBody body rest :=
  ⟨_, _, (Literal.splitTripleQuoted_append text).symm,
    Literal.multiLineBody_of_splitTripleQuoted h⟩

namespace MultiLineBody

variable {body rest : List Char}

theorem unique {body' rest' : List Char} (h : MultiLineBody body rest)
    (h' : MultiLineBody body' rest') (htext : body ++ rest = body' ++ rest') : body = body' :=
  (h.first body' rest' htext h'.quotes).eq_of_length_le
    (h'.first body rest htext.symm h.quotes).length_le

/-- It is the part that is cut off. -/
theorem splitTripleQuoted_eq (h : MultiLineBody body rest) :
    Literal.splitTripleQuoted (body ++ rest) = (body, rest) := by
  have happend := Literal.splitTripleQuoted_append (body ++ rest)
  have hcut := Literal.multiLineBody_of_splitTripleQuoted
    (h.quotes.isInfix.trans (List.suffix_append body rest).isInfix)
  have hbody := hcut.unique h happend
  rw [hbody] at happend
  exact Prod.ext hbody (List.append_cancel_left happend)

theorem not_infix (h : MultiLineBody body rest) : ¬ ['\x22', '\x22', '\x22'] <:+: body := by
  rintro ⟨before, behind, rfl⟩
  have hshorter := h.first before (['\x22', '\x22', '\x22'] ++ (behind ++ rest)) (by simp)
    (List.prefix_append ..)
  have hlength := hshorter.length_le
  simp only [List.length_append, List.length_cons] at hlength
  omega

/-- A quote at the end would stand in front of two others. -/
theorem getLast?_ne (h : MultiLineBody body rest) : body.getLast? ≠ some '\x22' := by
  intro hlast
  obtain ⟨before, rfl⟩ := List.getLast?_eq_some_iff.mp hlast
  obtain ⟨more, rfl⟩ := h.quotes
  have hshorter := h.first before _ (List.append_assoc ..) ⟨'\x22' :: more, rfl⟩
  have hlength := hshorter.length_le
  simp only [List.length_append, List.length_singleton] at hlength
  omega

end MultiLineBody

/-! ## What the scan finds -/

namespace Lexeme

variable [Unicode.Repertoire] {cursor : Cursor} {pos : Nat} {regions : List Bracket}
  {routine : Scan Lexeme} {opening text body rest : List Char} {kind : TokenKind}
  {value : String} {resume : Mode}

/-- Where `body` stands behind `opening` and in front of `rest`, the scan finds this lexeme
for it, and the regions stay as they are. -/
def ReadsAs (regions : List Bracket) (opening body rest : List Char) (kind : TokenKind)
    (value : String) (resume : Mode) : Prop :=
  ∀ (cursor : Cursor) (pos : Nat), cursor.At pos (opening ++ (body ++ rest)) →
    let start := pos + Utf8.byteLength opening
    ∃ after, scan regions cursor =
        .ok (⟨kind, value, start, start + Utf8.byteLength body, resume⟩, regions) after ∧
      after.At (start + Utf8.byteLength body) rest

/-- Behind `opening` the lexeme is left to this routine, which stands in front of `text`. -/
def Opens (regions : List Bracket) (opening : List Char) (routine : Scan Lexeme)
    (text : List Char) : Prop :=
  ∀ (cursor : Cursor) (pos : Nat), cursor.At pos (opening ++ text) →
    ∃ inner, inner.At (pos + Utf8.byteLength opening) text ∧
      ∀ lexeme after, routine inner = .ok lexeme after →
        scan regions cursor = .ok (lexeme, regions) after

theorem Opens.readsAs (hopens : Opens regions opening routine (body ++ rest))
    (hroutine : ∀ inner pos, Cursor.At inner pos (body ++ rest) →
      ∃ after, routine inner = .ok ⟨kind, value, pos, pos + Utf8.byteLength body, resume⟩ after ∧
        after.At (pos + Utf8.byteLength body) rest) :
    ReadsAs regions opening body rest kind value resume := by
  intro cursor pos hplace
  obtain ⟨inner, hinner, hscan⟩ := hopens cursor pos hplace
  obtain ⟨after, hread, hafter⟩ := hroutine inner _ hinner
  exact ⟨after, hscan _ after hread, hafter⟩

/-- The opening quote is skipped. -/
theorem opens_of_skip {c : Char}
    (hhead : ∀ cursor : Cursor, cursor.malformed = none → cursor.ahead = c :: text →
      scan regions cursor = keeping regions (do Scan.skip; routine) cursor) :
    Opens regions [c] routine text := by
  intro cursor pos hplace
  have hskip : Scan.skip cursor = .ok () (cursor.advance [c] text).release :=
    Scan.bind_of_ok (Scan.next_of_cons hplace.ahead)
  refine ⟨_, hplace.of_drops (Scan.skip_cons_eq_ok hplace.ahead hskip), fun lexeme after h => ?_⟩
  rw [hhead cursor hplace.valid hplace.ahead]
  exact keeping_of_ok regions ((Scan.bind_of_ok hskip).trans h)

/-! ## Strings and quoted identifiers -/

section Delimited

variable {cut : List Char → List Char × List Char} {delimiter : Delimiter} {cause : Cause}

theorem Delimited.readsAs_closed (hroutine : Delimited routine cut delimiter kind cause)
    (hopens : Opens regions opening routine (body ++ rest))
    (hcut : cut (body ++ rest) = (body, rest)) (hclosing : delimiter.text <+: rest) :
    ReadsAs regions opening body rest kind (String.ofList body) delimiter.resume := by
  refine hopens.readsAs fun inner pos hinner => ?_
  have hreads : inner.Reads body (inner.advance body rest).settle :=
    (Cursor.Reads.of_advance hinner.ahead).settle
  obtain ⟨after, hemit, hafter⟩ := emit_of_reads hinner hreads kind delimiter.resume
  refine ⟨after, ?_, hafter⟩
  rw [hroutine inner hinner.valid, hinner.ahead, hcut,
    if_pos (List.isPrefixOf_iff_prefix.mpr hclosing), hemit]

/-- A text that is not closed is an error up to the end. -/
theorem Delimited.readsAs_unclosed (hroutine : Delimited routine cut delimiter kind cause)
    (hopens : Opens regions opening routine text) (hcut : cut text = (text, []))
    (hclosing : delimiter.text ≠ []) :
    ReadsAs regions opening text [] .error cause.message .start := by
  rw [← List.append_nil text] at hopens
  refine hopens.readsAs fun inner pos hinner => ?_
  have hreads : inner.Reads text (inner.advance text []).settle :=
    (Cursor.Reads.of_advance hinner.ahead).settle
  obtain ⟨after, herror, hafter⟩ := emitError_of_reads hinner hreads (fun _ => rfl) cause
  refine ⟨after, ?_, hafter⟩
  have hnot : ¬ delimiter.text.isPrefixOf [] = true := fun h =>
    hclosing (List.prefix_nil.mp (List.isPrefixOf_iff_prefix.mp h))
  rw [hroutine inner hinner.valid, hinner.ahead, List.append_nil, hcut, if_neg hnot, herror]

end Delimited

theorem opens_string (hquotes : ¬ ['\x22', '\x22', '\x22'] <+: '\x22' :: text) :
    Opens regions ['\x22'] string text :=
  opens_of_skip fun cursor _ hahead => by
    rw [scan_of_head regions hahead (by rw [hahead]; exact nofun) (by rwa [hahead])]
    rfl

theorem opens_quotedIdentifier : Opens regions ['\x60'] quotedIdentifier text :=
  opens_of_skip fun cursor _ hahead => by
    rw [scan_of_head_ne regions hahead (by decide) (by decide)]
    rfl

theorem opens_multiLineString :
    Opens regions ['\x22', '\x22', '\x22'] multiLineString text := by
  intro cursor pos hplace
  have hread : Scan.readExactly 3 cursor = .ok () _ := Scan.readExactly_of_append hplace.ahead rfl
  have hdrops := (Cursor.Reads.of_advance hplace.ahead).settle.release
  refine ⟨_, hplace.of_drops hdrops, fun lexeme after h => ?_⟩
  rw [scan_of_quotes regions ⟨text, hplace.ahead.symm⟩]
  exact keeping_of_ok regions ((Scan.bind_of_ok hread).trans h)

/-! ## Character literals and symbols -/

omit [Unicode.Repertoire] in
/-- A character literal opens where one stands, and where a protected quote is taken for
the closing one. -/
theorem opensCharacter_iff :
    opensCharacter ('\x27' :: text) = true ↔
      (∃ body rest, CharacterBody body ∧ text = body ++ '\x27' :: rest) ∨
        ∃ rest, text = '\\' :: '\x27' :: rest ∧ rest.head? ≠ some '\x27' := by
  constructor
  · intro h
    obtain ⟨first, second, rest, rfl, hcases⟩ := opensCharacter_cons h
    by_cases hbackslash : first = '\\'
    · subst hbackslash
      by_cases hthird : rest.head? = some '\x27'
      · obtain ⟨rest, rfl⟩ := List.head?_eq_some_iff.mp hthird
        exact .inl ⟨['\\', second], rest, .escaped second, rfl⟩
      · rcases hcases with rfl | ⟨_, more, rfl⟩
        · exact .inr ⟨rest, rfl, hthird⟩
        · exact absurd rfl hthird
    · obtain rfl := hcases.resolve_right fun hescaped => hbackslash hescaped.1
      exact .inl ⟨[first], rest, .plain hbackslash, rfl⟩
  · rintro (⟨body, rest, hbody, rfl⟩ | ⟨rest, rfl, _⟩)
    · cases hbody with
      | plain => rfl
      | escaped c => simp [opensCharacter]
    · rfl

theorem scan_of_single_quote (hahead : cursor.ahead = '\x27' :: text) :
    scan regions cursor = keeping regions singleQuoted cursor := by
  rw [scan_of_head_ne regions hahead (by decide) (by decide)]
  rfl

theorem opens_character (hopens : opensCharacter ('\x27' :: text) = true) :
    Opens regions ['\x27'] character text :=
  opens_of_skip fun cursor hvalid hahead => by
    rw [scan_of_single_quote hahead]
    exact keeping_congr (singleQuoted_of_opens hvalid (hahead ▸ hopens))

omit [Unicode.Repertoire] in
/-- What is read behind the single quote, up to where the closing one is due. -/
theorem character_of_body (hbody : CharacterBody body) {second : Char}
    (hplace : cursor.At pos (body ++ rest)) (hsecond : (body ++ rest)[1]? = some second) :
    ∃ between, character cursor = closeCharacter between ∧ cursor.Reads body between := by
  obtain ⟨first, more, htext⟩ : ∃ first more, body ++ rest = first :: second :: more := by
    rcases hall : body ++ rest with _ | ⟨first, _ | ⟨_, more⟩⟩
    · rw [hall] at hsecond
      cases hsecond
    · rw [hall] at hsecond
      cases hsecond
    · rw [hall] at hsecond
      cases hsecond
      exact ⟨first, more, rfl⟩
  obtain ⟨between, run, hcharacter, hreads, _, _, hrun⟩ :=
    character_eq hplace.valid hplace.idle (hplace.ahead.trans htext)
  refine ⟨between, hcharacter, ?_⟩
  cases hbody with
  | plain hbackslash =>
      obtain ⟨rfl, _⟩ := List.cons.inj htext
      obtain ⟨_, rfl⟩ := hrun.resolve_left fun h => hbackslash h.1
      exact hreads
  | escaped c =>
      obtain ⟨rfl, hmore⟩ := List.cons.inj htext
      obtain ⟨rfl, _⟩ := List.cons.inj hmore
      obtain ⟨_, rfl⟩ := hrun.resolve_right fun h => h.1 rfl
      exact hreads

theorem readsAs_of_characterBody (hbody : CharacterBody body) (rest : List Char) :
    ReadsAs regions ['\x27'] body ('\x27' :: rest) .character (String.ofList body)
      .closingQuote := by
  have hopens := opensCharacter_iff.mpr (.inl ⟨body, rest, hbody, rfl⟩)
  refine (opens_character hopens).readsAs fun inner pos hinner => ?_
  have hsecond : ∃ second, (body ++ '\x27' :: rest)[1]? = some second := by
    cases hbody with
    | plain => exact ⟨_, rfl⟩
    | escaped c => exact ⟨_, rfl⟩
  obtain ⟨second, hsecond⟩ := hsecond
  obtain ⟨between, hcharacter, hreads⟩ := character_of_body hbody hinner hsecond
  obtain ⟨after, hemit, hafter⟩ := emit_of_reads hinner hreads .character .closingQuote
  have hquote := hreads.ahead_of_append hinner.ahead
  refine ⟨after, ?_, hafter⟩
  rw [hcharacter, closeCharacter_of_quote (hreads.malformed.trans hinner.valid) ⟨rest, hquote.symm⟩,
    hemit]

/-- A quote that is taken for the closing one although a backslash protects it. -/
theorem readsAs_of_protected_quote (hrest : rest.head? ≠ some '\x27') :
    ReadsAs regions ['\x27'] ['\\', '\x27'] rest .error
      (Cause.unterminatedCharacter "\\'").message .start := by
  have hopens := opensCharacter_iff.mpr (.inr ⟨rest, rfl, hrest⟩)
  refine (opens_character hopens).readsAs fun inner pos hinner => ?_
  obtain ⟨between, hcharacter, hreads⟩ := character_of_body (.escaped '\x27') hinner rfl
  obtain ⟨after, herror, hafter⟩ := emitError_of_reads hinner hreads
    (fun hnil => absurd hnil (List.cons_ne_nil _ _)) (.unterminatedCharacter "\\'")
  have hpending := hinner.pending_of_reads hreads
  have hahead := hreads.ahead_of_append hinner.ahead
  have hnot : ¬ ['\x27'] <+: between.ahead := by
    rw [hahead]
    rintro ⟨more, rfl⟩
    exact hrest rfl
  refine ⟨after, ?_, hafter⟩
  rw [hcharacter, closeCharacter_of_no_quote (hreads.malformed.trans hinner.valid) hnot]
  change emitError (.unterminatedCharacter (String.ofList between.pending)) between = _
  rw [hpending]
  exact herror

/-- Where no character literal opens, the quote is read with the name behind it. -/
theorem scan_of_symbol {name : List Char}
    (hopens : opensCharacter ('\x27' :: (name ++ rest)) = false)
    (hname : PlainIdentifier name rest) (hplace : cursor.At pos ('\x27' :: name ++ rest))
    (regions : List Bracket) :
    ∃ after, scan regions cursor =
        .ok (⟨.symbol, String.ofList ('\x27' :: name), pos,
          pos + Utf8.byteLength ('\x27' :: name), .start⟩, regions) after ∧
      after.At (pos + Utf8.byteLength ('\x27' :: name)) rest := by
  obtain ⟨inner, hnext, hquote⟩ :=
    Scan.consumes_next '\x27' (name ++ rest) cursor hplace.valid hplace.ahead
  have hinner := hquote.ahead_of_append hplace.ahead
  obtain ⟨between, hplain, hreads⟩ :=
    hname.consumes inner (hquote.malformed.trans hplace.valid) hinner
  obtain ⟨after, hemit, hafter⟩ := emit_of_reads hplace (hquote.trans hreads) .symbol .start
  refine ⟨after, ?_, hafter⟩
  rw [scan_of_single_quote hplace.ahead]
  refine keeping_of_ok regions ?_
  rw [singleQuoted_of_not_opens hplace.valid (hplace.ahead ▸ hopens), Scan.bind_of_ok hnext, symbol,
    Scan.bind_of_ok hplain, if_pos rfl]
  exact hemit

/-- A quote with nothing behind it that could be a name is an error by itself. -/
theorem scan_of_lone_quote (hopens : opensCharacter ('\x27' :: rest) = false)
    (hstop : ∀ c ∈ rest.head?, isLetter c = false ∧ isOperator c = false)
    (hplace : cursor.At pos (['\x27'] ++ rest)) (regions : List Bracket) :
    ∃ after, scan regions cursor =
        .ok (⟨.error, (Cause.unknownLexeme "'").message, pos,
          pos + Utf8.byteLength ['\x27'], .start⟩, regions) after ∧
      after.At (pos + Utf8.byteLength ['\x27']) rest := by
  obtain ⟨inner, hnext, hquote⟩ :=
    Scan.consumes_next '\x27' rest cursor hplace.valid hplace.ahead
  have hinner := hquote.ahead_of_append hplace.ahead
  obtain ⟨between, hplain, hreads⟩ := consumes_plainIdentifier_none hstop inner
    (hquote.malformed.trans hplace.valid) hinner
  have hall : cursor.Reads ['\x27'] between := hquote.trans hreads
  obtain ⟨after, herror, hafter⟩ := emitError_of_reads hplace hall
    (fun hnil => absurd hnil (List.cons_ne_nil _ _)) (.unknownLexeme "'")
  have hpending := hplace.pending_of_reads hall
  refine ⟨after, ?_, hafter⟩
  rw [scan_of_single_quote hplace.ahead]
  refine keeping_of_ok regions ?_
  rw [singleQuoted_of_not_opens hplace.valid (hplace.ahead ▸ hopens), Scan.bind_of_ok hnext, symbol,
    Scan.bind_of_ok hplain, if_neg Bool.false_ne_true]
  change emitError (.unknownLexeme (String.ofList between.pending)) between = _
  rw [hpending]
  exact herror

/-- What a single quote begins, wherever it stands. -/
theorem singleQuoted_cases (text : List Char) :
    (∃ body rest, CharacterBody body ∧ text = body ++ '\x27' :: rest) ∨
      (∃ rest, text = '\\' :: '\x27' :: rest ∧ rest.head? ≠ some '\x27') ∨
      opensCharacter ('\x27' :: text) = false ∧
        ((∃ name rest, text = name ++ rest ∧ PlainIdentifier name rest) ∨
          ∀ c ∈ text.head?, isLetter c = false ∧ isOperator c = false) := by
  cases hopens : opensCharacter ('\x27' :: text) with
  | true => exact (opensCharacter_iff.mp hopens).imp id .inl
  | false =>
      refine .inr (.inr ⟨rfl, ?_⟩)
      by_cases hname : ∃ c ∈ text.head?, isLetter c = true ∨ isOperator c = true
      · exact .inl (exists_plainIdentifier hname)
      · exact .inr (by simpa using hname)

/-- Nothing but these is ever found to be a character. -/
theorem characterBody_of_scan {found : Lexeme × List Bracket} {after : Cursor}
    (hidle : cursor.Idle) (h : scan regions cursor = .ok found after)
    (hkind : found.1.kind = .character) : CharacterBody found.1.value.toList := by
  obtain ⟨text, hahead⟩ : ∃ text, cursor.ahead = '\x27' :: text := by
    obtain ⟨delimiter, body, inner, hencloses, hopening, _⟩ :=
      (scan_spelled hidle h).exists_delimiter .singleQuote hkind trivial
    cases delimiter with
    | singleQuote => exact ⟨inner.ahead, hopening.ahead⟩
    | _ => exact hencloses.elim
  -- a malformed byte behind the text makes no difference
  have hplace := hidle.at_truncated
  rw [hahead] at hplace
  have hsame := (scan_paired regions).ok_truncated h
  rcases singleQuoted_cases text with ⟨body, rest, hbody, rfl⟩ | ⟨rest, rfl, hrest⟩ |
    ⟨hopens, ⟨name, rest, rfl, hname⟩ | hstop⟩
  · obtain ⟨_, hscan, _⟩ := readsAs_of_characterBody hbody rest cursor.truncated _ hplace
    cases hsame.symm.trans hscan
    rwa [String.toList_ofList]
  · obtain ⟨_, hscan, _⟩ := readsAs_of_protected_quote hrest cursor.truncated _ hplace
    cases hsame.symm.trans hscan
    cases hkind
  · obtain ⟨_, hscan, _⟩ := scan_of_symbol hopens hname hplace regions
    cases hsame.symm.trans hscan
    cases hkind
  · obtain ⟨_, hscan, _⟩ := scan_of_lone_quote hopens hstop hplace regions
    cases hsame.symm.trans hscan
    cases hkind

end Lexeme

end ScalaLexer

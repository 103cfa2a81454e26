import ScalaLexer.Proofs.Lexer.Pieces

/-!
# Writing the tokens down again

What draining returns can be written down and lexed again: without comments, separators
and errors the same tokens come back, with the same kinds and texts.  So what a lexeme is
does not depend on what stood around it.

A token is written as it stood in its text, between the same delimiters.  Its value does
not tell which these are, and the text in front of it does: `delimited` reads them off the
pieces of the text, where the quotes that close the token before are left out.

In a layout this amounts to other gaps and, behind a multi-line string, to fewer quotes
(`Segment.respaced`).  Two spaces stand between the lexemes then, and by
`Segment.Stands.replace` they stay what they are.  There is no line break left, so no
separator comes about.
-/

namespace ScalaLexer

open Trivia

/-! ## Delimiters as they stand in a text -/

/-- The delimiter of a token of this kind, read off the end of the text in front of it. -/
def Delimiter.ofFront (kind : TokenKind) (front : List Char) : Delimiter :=
  match kind with
  | .string => if tripleQuote.text <:+ front then .tripleQuote else .doubleQuote
  | .character => .singleQuote
  | .identifier => if backquote.text <:+ front then .backquote else .none
  | _ => .none

/-- The tokens of the pieces with their delimiters.  The token in front of them stands in
the delimiter `last`. -/
def delimited (last : Delimiter) : List Piece → List (Delimiter × Token)
  | [] => []
  | piece :: pieces =>
    let closing := last.resume.closing piece.front
    let delimiter := Delimiter.ofFront piece.token.kind (piece.front.drop closing.length)
    (delimiter, piece.token) :: delimited delimiter pieces

/-- A token between its delimiters. -/
def Token.written (delimiter : Delimiter) (token : Token) : List Char :=
  delimiter.text ++ token.value.toList ++ delimiter.text

/-- The kinds of tokens that stand for a piece of the program. -/
def TokenKind.isProper : TokenKind → Bool
  | .error | .comment | .newline | .newlines => false
  | _ => true

/-- The proper ones of these tokens as they stand in their text. -/
def writtenTokens (found : List (Delimiter × Token)) : List (List Char) :=
  (found.filter fun entry => entry.2.kind.isProper).map fun entry => entry.2.written entry.1

/-- The proper tokens of a text as they stand there, with two spaces between them. -/
def rewritten (text : List Char) (tokens : List Token) : List Char :=
  [' ', ' '].intercalate (writtenTokens (delimited .none (pieces 0 text tokens).1))

/-! ## Reading off a delimiter -/

namespace Delimiter

variable {front : List Char} {opening next : Delimiter} {token : Token}

/-- Behind a gap the delimiter of a token is what opens it; an error has none left. -/
theorem ofFront_eq (hfront : ∀ c ∈ front.getLast?, isSpace c = true ∨ c = '/')
    (hbetween : token.Between opening next) :
    ofFront token.kind (front ++ opening.text) = next := by
  have hnoQuote {text : List Char} {c : Char} (hspace : isSpace c = false) (hslash : c ≠ '/') :
      front ≠ text ++ [c] := by
    rintro rfl
    rcases hfront c List.getLast?_concat with hc | hc
    · rw [hspace] at hc
      cases hc
    · exact hslash hc
  cases hbetween with
  | bare hstring hcharacter herror =>
      have hnone : ¬ backquote.text <:+ front ++ none.text := by
        rintro ⟨text, htext⟩
        rw [show none.text = [] from rfl, List.append_nil] at htext
        exact hnoQuote (by decide) (by decide) htext.symm
      unfold ofFront
      split
      · next hkind => exact absurd hkind hstring
      · next hkind => exact absurd hkind hcharacter
      · exact if_neg hnone
      · rfl
  | string hkind =>
      have hnot : ¬ tripleQuote.text <:+ front ++ doubleQuote.text := by
        rintro ⟨text, htext⟩
        have hcut : text ++ ['\x22'] ++ ['\x22'] ++ ['\x22'] = front ++ ['\x22'] := by
          rw [List.append_assoc, List.append_assoc]
          exact htext
        exact hnoQuote (by decide) (by decide) (List.append_cancel_right hcut).symm
      rw [hkind]
      exact if_neg hnot
  | multiLineString hkind =>
      rw [hkind]
      exact if_pos (List.suffix_append _ _)
  | character hkind => rw [hkind]; rfl
  | quotedIdentifier hkind =>
      rw [hkind]
      exact if_pos (List.suffix_append _ _)
  | error cause hkind => rw [hkind]; rfl

/-- Closing quotes are closing quotes whatever part of the text stands behind them. -/
theorem Closes.of_front {closing rest : List Char} (h : next.Closes closing rest)
    (hfront : front <+: rest) : next.Closes closing front := by
  cases next with
  | tripleQuote =>
      obtain ⟨hquotes, hrest⟩ := h
      refine ⟨hquotes, fun hquote => hrest ?_⟩
      obtain ⟨more, rfl⟩ := hfront
      rw [List.head?_append, hquote]
      rfl
  | _ => exact h

end Delimiter

/-- What opens a token closes it as well, unless it is an error. -/
theorem Token.Between.same {token : Token} {opening next : Delimiter}
    (h : token.Between opening next) (hkind : token.kind ≠ .error) : opening = next := by
  cases h with
  | error _ herror => exact absurd herror hkind
  | _ => rfl

theorem delimited_cons_of_closes {last next : Delimiter} {closing front body : List Char}
    {token : Token} (hcloses : last.Closes closing front)
    (hdelimiter : Delimiter.ofFront token.kind front = next) (pieces : List Piece) :
    delimited last (⟨closing ++ front, body, token⟩ :: pieces) =
      (next, token) :: delimited next pieces := by
  rw [delimited, hcloses.closing_eq, List.drop_left, hdelimiter]

theorem writtenTokens_cons (delimiter : Delimiter) (token : Token)
    (found : List (Delimiter × Token)) :
    writtenTokens ((delimiter, token) :: found) =
      (if token.kind.isProper then [token.written delimiter] else []) ++ writtenTokens found := by
  rw [writtenTokens, List.filter_cons]
  split <;> rfl

/-! ## The tokens of a layout as they are written -/

namespace Segment

/-- The lexeme between its delimiters. -/
def written (segment : Segment) : List Char :=
  segment.run ++ segment.opening

/-- The segments that stand for a piece of the program, as they are written. -/
def writings (segments : List Segment) : List (List Char) :=
  (segments.filter fun segment => segment.lexeme.kind.isProper).map written

theorem writings_cons (segment : Segment) (segments : List Segment) :
    writings (segment :: segments) =
      (if segment.lexeme.kind.isProper then [segment.written] else []) ++ writings segments := by
  rw [writings, List.filter_cons]
  split <;> rfl

end Segment

theorem TokenKind.isProper_of_isSeparator {kind : TokenKind} (h : kind.isSeparator = true) :
    kind.isProper = false := by
  cases kind <;> first | rfl | cases h

open Segment in
/-- The proper tokens of a layout are written as its segments are. -/
theorem Laid.writings_pieces [Unicode.Repertoire] {regions : List Bracket} {segments : List Segment}
    {trailing closing : List Char} {delimiter : Delimiter} (hlaid : Laid regions segments trailing)
    (hcloses : delimiter.Closes closing (textOf segments trailing)) (file : String) (offset : Nat)
    (last : Option TokenKind) :
    writtenTokens (delimited delimiter (pieces offset (closing ++ textOf segments trailing)
        (weave file (offset + Utf8.byteLength closing) last regions segments)).1) =
      writings segments := by
  induction hlaid generalizing closing delimiter offset last with
  | nil => rfl
  | @cons regions segment segments trailing hstands hlaid ih =>
      obtain ⟨opening, next, hopening, hrun, _, _, hvalue, hbetween, _, hnext⟩ :=
        hstands.exists_delimiters file (offset + Utf8.byteLength closing)
      have hdelimiter {front : List Char}
          (hfront : ∀ c ∈ front.getLast?, isSpace c = true ∨ c = '/') :
          Delimiter.ofFront (segment.token file (offset + Utf8.byteLength closing)).kind
            (front ++ segment.opening) = next :=
        hopening ▸ Delimiter.ofFront_eq hfront hbetween
      have hfront :
          segment.gap ++ segment.opening <+: segment.text ++ textOf segments trailing := by
        rw [text, hrun]
        simp only [List.append_assoc, List.prefix_append_right_inj, List.prefix_append]
      -- an error may stand in other delimiters, but it is not written
      have hown : (if (segment.token file (offset + Utf8.byteLength closing)).kind.isProper then
          [(segment.token file (offset + Utf8.byteLength closing)).written next] else []) =
            if segment.lexeme.kind.isProper then [segment.written] else [] := by
        rw [token_kind]
        split
        · next hproper =>
            have herror : segment.lexeme.kind ≠ .error := by
              intro hkind
              rw [hkind] at hproper
              cases hproper
            have hvalue : (segment.token file (offset + Utf8.byteLength closing)).value =
                String.ofList segment.body := hvalue herror
            rw [Token.written, hvalue, String.toList_ofList, ← hbetween.same herror, ← hopening,
              ← hrun]
            rfl
        · rfl
      rw [textOf_cons, weave_cons, Segment.writings_cons]
      rcases pieces_of_segment hstands file offset closing last _ with
        ⟨_, hcut⟩ | ⟨separator, front, run, pad, _, hkind, hsplit, _, _, hcut⟩
      · rw [hcut, List.append_assoc closing, delimited_cons_of_closes (hcloses.of_front hfront)
          (hdelimiter hstands.trivia.getLast?_eq), writtenTokens_cons, hown]
        exact congrArg _ (ih hnext _ _)
      · have hseparator : Delimiter.ofFront separator.kind front = .none := by
          cases hsame : separator.kind <;> first | rfl | (rw [hsame] at hkind; cases hkind)
        have hfrontText : front <+: segment.text ++ textOf segments trailing := by
          rw [text, hsplit]
          simp only [List.append_assoc, List.prefix_append]
        have hpad : ∀ c ∈ pad.getLast?, isSpace c = true ∨ c = '/' := by
          intro c hc
          refine hstands.trivia.getLast?_eq c ?_
          rw [hsplit, List.getLast?_append, List.getLast?_append, Option.mem_def.mp hc]
          rfl
        have hnone : Delimiter.none.Closes [] (pad ++ segment.opening) := rfl
        rw [hcut, delimited_cons_of_closes (hcloses.of_front hfrontText) hseparator,
          writtenTokens_cons, TokenKind.isProper_of_isSeparator hkind,
          ← List.nil_append (pad ++ segment.opening),
          delimited_cons_of_closes hnone (hdelimiter hpad), writtenTokens_cons, hown,
          if_neg Bool.false_ne_true, List.nil_append]
        exact congrArg _ (ih hnext _ _)

/-! ## The new layout -/

namespace Segment

/-- The segments that are written, the first one behind `gap` and the others behind two
spaces. -/
def respaced : List Char → List Segment → List Segment
  | _, [] => []
  | gap, segment :: segments =>
    if segment.lexeme.kind.isProper then
      { segment with gap, closing := segment.opening } :: respaced [' ', ' '] segments
    else respaced gap segments

theorem textOf_respaced_spaces (segments : List Segment) :
    textOf (respaced [' ', ' '] segments) [] =
      (writings segments).flatMap fun word => [' ', ' '] ++ word := by
  induction segments with
  | nil => rfl
  | cons segment segments ih =>
      rw [respaced, writings_cons]
      split
      · rw [textOf_cons, ih, text, List.singleton_append, List.flatMap_cons, written]
        simp only [List.append_assoc]
      · rw [ih, List.nil_append]

theorem intercalate_cons {separator word : List Char} (words : List (List Char)) :
    separator.intercalate (word :: words) =
      word ++ words.flatMap fun word => separator ++ word := by
  induction words generalizing word with
  | nil => simp
  | cons next words ih =>
      rw [List.intercalate_cons_cons, ih, List.flatMap_cons, List.append_assoc,
        List.append_assoc]

theorem textOf_respaced (segments : List Segment) :
    textOf (respaced [] segments) [] = [' ', ' '].intercalate (writings segments) := by
  induction segments with
  | nil => rfl
  | cons segment segments ih =>
      rw [respaced, writings_cons]
      split
      · rw [textOf_cons, textOf_respaced_spaces, List.singleton_append, intercalate_cons]
        rfl
      · rw [ih, List.nil_append]

/-- What is not written leaves the regions alone. -/
theorem behind_of_not_isProper {segment : Segment} (h : ¬ segment.lexeme.kind.isProper)
    (regions : List Bracket) : segment.behind regions = regions := by
  rw [behind]
  cases hkind : segment.lexeme.kind <;> first | rfl | (rw [hkind] at h; exact absurd rfl h)

end Segment

theorem Delimiter.closes_text (delimiter : Delimiter) {rest : List Char}
    (hrest : rest.head? ≠ some '\x22') : delimiter.Closes delimiter.text rest := by
  cases delimiter with
  | tripleQuote => exact ⟨⟨3, Nat.le_refl 3, rfl⟩, hrest⟩
  | _ => rfl

variable [Unicode.Repertoire]

/-- A proper lexeme stays what it is in front of two spaces or of the end. -/
theorem Segment.Stands.respaced {segment : Segment} {regions : List Bracket}
    {rest gap : List Char} (h : segment.Stands regions rest)
    (hproper : segment.lexeme.kind.isProper) (hgap : IsTrivia gap) (words : List (List Char)) :
    Stands { segment with gap, closing := segment.opening } regions
      (words.flatMap fun word => [' ', ' '] ++ word) := by
  have hnot {kind : TokenKind} (hother : kind.isProper = false) : segment.lexeme.kind ≠ kind := by
    rintro rfl
    rw [hother] at hproper
    cases hproper
  obtain ⟨opening, next, hopening, _, _, _, _, hbetween, hresume, hcloses⟩ :=
    h.exists_delimiters "" 0
  obtain rfl := hbetween.same (hnot rfl)
  obtain ⟨more, hmore⟩ := hcloses.text_prefix
  -- behind the delimiter there is space or nothing
  have hhead : ∀ c ∈ (words.flatMap fun word => [' ', ' '] ++ word).head?, c = ' ' := by
    cases words <;> simp
  have hquote : (words.flatMap fun word => [' ', ' '] ++ word)[1]? ≠ some '\x27' := by
    cases words <;> simp
  generalize words.flatMap (fun word => [' ', ' '] ++ word) = spaced at hhead hquote
  rw [hopening]
  refine h.replace hgap ?_ ⟨fun other hother hprefix => ?_, fun hkind => absurd hkind (hnot rfl),
    fun hkind => absurd hkind (hnot rfl)⟩ ⟨opening, hresume, opening.closes_text fun hhead' => ?_⟩
  · rw [← hmore, List.append_assoc]
    refine Agrees.append_left _ (.apart (fun c hc => ?_) fun hchar => absurd hchar hquote)
    rw [hhead c hc]
    decide
  · have hsame := hresume.symm.trans hother
    have hother := hcloses.prefix_of_resume hsame hprefix
    have hlength := Delimiter.length_text_of_resume hsame
    have htext : other.text = opening.text :=
      (List.prefix_of_prefix_length_le hother ⟨more, hmore⟩
        (Nat.le_of_eq hlength.symm)).eq_of_length hlength.symm
    exact htext ▸ List.prefix_append _ _
  · exact absurd (hhead _ hhead') (by decide)

namespace Laid

open Segment

variable {regions : List Bracket} {segments : List Segment} {trailing gap : List Char}

/-- What is written is laid out with a space behind every lexeme. -/
theorem respaced (h : Laid regions segments trailing) (hgap : IsTrivia gap) :
    Laid regions (respaced gap segments) [] := by
  have hspaces : IsTrivia [' ', ' '] := .space (by decide) (.space (by decide) .nil)
  induction h generalizing gap with
  | nil => exact .nil IsTrivia.nil.isTrailing
  | @cons regions segment segments trailing hstands _ ih =>
      rw [Segment.respaced]
      split
      · next hproper =>
          refine .cons ?_ (ih hspaces)
          rw [textOf_respaced_spaces]
          exact hstands.respaced hproper hgap _
      · next hproper => exact behind_of_not_isProper hproper regions ▸ ih hgap

omit [Unicode.Repertoire] in
/-- The new layout opens and closes the same regions. -/
theorem regionsBehind_respaced (regions : List Bracket) (gap : List Char)
    (segments : List Segment) :
    regionsBehind regions (Segment.respaced gap segments) = regionsBehind regions segments := by
  induction segments generalizing regions gap with
  | nil => rfl
  | cons segment segments ih =>
      rw [Segment.respaced, regionsBehind_cons]
      split
      · exact ih _ _
      · next hproper =>
          rw [behind_of_not_isProper hproper]
          exact ih _ _

end Laid

/-! ## The tokens -/

/-- What a token is, wherever it stands. -/
def Token.content (token : Token) : TokenKind × String :=
  (token.kind, token.value)

namespace Segment

omit [Unicode.Repertoire] in
/-- The proper tokens of a layout are those of its segments. -/
theorem filter_weave (file : String) (offset : Nat) (last : Option TokenKind)
    (regions : List Bracket) (segments : List Segment) :
    ((weave file offset last regions segments).filter fun token => token.kind.isProper).map
        Token.content =
      (segments.filter fun segment => segment.lexeme.kind.isProper).map
        fun segment => (segment.lexeme.kind, segment.lexeme.value) := by
  induction segments generalizing offset last regions with
  | nil => rfl
  | cons segment segments ih =>
      have hseparator : (segment.separator? file offset last regions).toList.filter
          (fun token => token.kind.isProper) = [] := by
        refine List.filter_eq_nil_iff.mpr fun separator hmem hproper => ?_
        have hkind := separator?_isSeparator (Option.mem_toList.mp hmem)
        rw [TokenKind.isProper_of_isSeparator hkind] at hproper
        cases hproper
      rw [weave, List.filter_append, hseparator, List.nil_append, List.filter_cons,
        List.filter_cons, token_kind]
      split
      · rw [List.map_cons, List.map_cons, ih]
        rfl
      · exact ih _ _ _

omit [Unicode.Repertoire] in
/-- Without line breaks there are no separators. -/
theorem weave_respaced {gap : List Char} (hgap : lineBreak? gap = none) (file : String)
    (offset : Nat) (last : Option TokenKind) (regions : List Bracket) (segments : List Segment) :
    (weave file offset last regions (respaced gap segments)).map Token.content =
      (segments.filter fun segment => segment.lexeme.kind.isProper).map
        fun segment => (segment.lexeme.kind, segment.lexeme.value) := by
  induction segments generalizing gap offset last regions with
  | nil => rfl
  | cons segment segments ih =>
      rw [respaced, List.filter_cons]
      split
      · have hnone : { segment with gap, closing := segment.opening }.separator? file offset last
            regions = none := by
          rw [separator?, hgap]
        rw [weave, hnone, List.map_cons]
        exact congrArg _ (ih (by decide) _ _ _)
      · exact ih hgap _ _ _

end Segment

/-- Writing the tokens of a text down again gives them back: without errors, comments and
separators, lexing what is written returns the same kinds and values, and leaves as many
regions open. -/
theorem tokenize_rewritten (text file : String) :
    let drained := (Lexer.ofString text file).drain
    let again := String.ofList (rewritten text.toList drained.result.tokens)
    ∃ tokens, tokenize again file = .ok tokens ∧
      tokens.map Token.content =
        (drained.result.tokens.filter fun token => token.kind.isProper).map Token.content ∧
      (∀ token ∈ tokens, token.kind ≠ .error) ∧
      (Lexer.ofString again file).drain.lexer.regionDepth = drained.lexer.regionDepth := by
  intro drained again
  obtain ⟨segments, trailing, htext, hlaid⟩ := exists_laid [] text.toList
  obtain ⟨htokens, _, hregions⟩ := Lexer.drain_ofString_of_laid hlaid htext file
  have hagain : again.toList = Segment.textOf (Segment.respaced [] segments) [] := by
    rw [String.toList_ofList, Segment.textOf_respaced, rewritten, htokens, htext]
    have hnone : Delimiter.none.Closes [] (Segment.textOf segments trailing) := rfl
    exact congrArg _ (hlaid.writings_pieces hnone file 0 none)
  have hlaid' := hlaid.respaced IsTrivia.nil
  have hcontent : (Segment.weave file 0 none [] (Segment.respaced [] segments)).map Token.content =
      (drained.result.tokens.filter fun token => token.kind.isProper).map Token.content := by
    rw [htokens, Segment.filter_weave, Segment.weave_respaced (by decide)]
  refine ⟨_, tokenize_of_laid hlaid' hagain file, hcontent, fun token hmem hkind => ?_, ?_⟩
  · obtain ⟨other, hother, hsame⟩ :=
      List.mem_map.mp (hcontent ▸ List.mem_map_of_mem hmem : token.content ∈ _)
    have hproper := (List.mem_filter.mp hother).2
    rw [show other.kind = token.kind from congrArg Prod.fst hsame, hkind] at hproper
    cases hproper
  · obtain ⟨_, _, hregions'⟩ := Lexer.drain_ofString_of_laid hlaid' hagain file
    rw [Lexer.regionDepth, Lexer.regionDepth, hregions', hregions, Laid.regionsBehind_respaced]

end ScalaLexer

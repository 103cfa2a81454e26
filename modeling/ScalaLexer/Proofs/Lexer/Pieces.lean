import ScalaLexer.Proofs.Lexer.Weaving

/-!
# A text cut along its tokens

The spans of the tokens cut their text into pieces: what stands in front of a token,
from the end of the token before on, and the text of the token itself.  `pieces` makes
this cut.  It needs the tokens and the text only, so whatever is built from the pieces
is built from what draining returns.

For a text that is laid out the pieces are those of its segments.  What stands in front
of a token is what closes the token before, the gap and what opens the token; a
separator takes a run of space out of the gap and is a piece of its own.
-/

namespace ScalaLexer

open Trivia

/-- A token with its text and with what stands in front of it. -/
structure Piece where
  front : List Char
  body : List Char
  token : Token
  deriving Repr, DecidableEq

/-- Cuts the text from byte `offset` on along the spans of the tokens.  The second part
stands behind the last token. -/
def pieces : Nat → List Char → List Token → List Piece × List Char
  | _, text, [] => ([], text)
  | offset, text, token :: tokens =>
    let front := Utf8.cutBytes (token.extent.start - offset) text
    let body := Utf8.cutBytes (token.extent.stop - token.extent.start) front.2
    let rest := pieces token.extent.stop body.2 tokens
    (⟨front.1, body.1, token⟩ :: rest.1, rest.2)

theorem pieces_cons {offset : Nat} {front body : List Char} {token : Token}
    (hstart : token.extent.start = offset + Utf8.byteLength front)
    (hstop : token.extent.stop = token.extent.start + Utf8.byteLength body) (rest : List Char)
    (tokens : List Token) :
    pieces offset (front ++ body ++ rest) (token :: tokens) =
      (⟨front, body, token⟩ :: (pieces token.extent.stop rest tokens).1,
        (pieces token.extent.stop rest tokens).2) := by
  have hfront : token.extent.start - offset = Utf8.byteLength front := by omega
  have hbody : token.extent.stop - token.extent.start = Utf8.byteLength body := by omega
  rw [pieces, hfront, List.append_assoc, Utf8.cutBytes_byteLength, hbody,
    Utf8.cutBytes_byteLength]

/-! ## The parts of a segment -/

/-- The delimiter is closed by quotes that close another one in the same mode, if it
stands there. -/
theorem Delimiter.Closes.of_resume {delimiter other : Delimiter} {closing rest : List Char}
    (h : delimiter.Closes closing rest) (hsame : delimiter.resume = other.resume)
    (hstands : other.text <+: closing ++ rest) : other.Closes closing rest := by
  have hclosing := h.prefix_of_resume hsame hstands
  have hquote (hlength : delimiter.text.length = closing.length) : closing = other.text :=
    (hclosing.eq_of_length ((length_text_of_resume hsame).symm.trans hlength)).symm
  cases delimiter with
  | tripleQuote => cases other <;> first | exact h | cases hsame
  | _ =>
      have hother := hquote (congrArg List.length (show closing = _ from h).symm)
      cases other <;> first | exact hother | cases hsame

/-! No delimiter is mistaken for the beginning of a comment. -/

theorem Delimiter.ne_slash_of_mem_text {delimiter : Delimiter} : ∀ c ∈ delimiter.text, c ≠ '/' := by
  rintro c hc rfl
  revert hc
  cases delimiter <;> decide

theorem Delimiter.Closes.ne_slash {delimiter : Delimiter} {closing rest : List Char}
    (h : delimiter.Closes closing rest) : ∀ c ∈ closing, c ≠ '/' := by
  cases delimiter with
  | tripleQuote =>
      obtain ⟨⟨n, _, rfl⟩, _⟩ := h
      intro c hc
      rw [List.eq_of_mem_replicate hc]
      decide
  | none => exact (show closing = _ from h) ▸ ne_slash_of_mem_text
  | doubleQuote => exact (show closing = _ from h) ▸ ne_slash_of_mem_text
  | singleQuote => exact (show closing = _ from h) ▸ ne_slash_of_mem_text
  | backquote => exact (show closing = _ from h) ▸ ne_slash_of_mem_text

namespace Segment

/-- What opens the lexeme. -/
def opening (segment : Segment) : List Char :=
  (Utf8.cutBytes segment.lexeme.start segment.run).1

/-- The text of the lexeme. -/
def body (segment : Segment) : List Char :=
  (Utf8.cutBytes segment.lexeme.start segment.run).2

namespace Stands

variable {segment : Segment} {regions : List Bracket} {rest : List Char}

/-- The delimiters of a segment and the text between them. -/
theorem exists_delimiters [Unicode.Repertoire] (h : segment.Stands regions rest) (file : String)
    (offset : Nat) :
    ∃ opening next : Delimiter, segment.opening = opening.text ∧
      segment.run = segment.opening ++ segment.body ∧
      segment.lexeme.start = Utf8.byteLength segment.opening ∧
      segment.lexeme.stop = Utf8.byteLength segment.run ∧
      (segment.lexeme.kind ≠ .error → segment.lexeme.value = String.ofList segment.body) ∧
      (segment.token file offset).Between opening next ∧ segment.lexeme.resume = next.resume ∧
      next.Closes segment.closing rest := by
  obtain ⟨delimiter, hresume, hcloses⟩ := h.closes
  obtain ⟨opening, next, body, hrun, hstart, hstop, hvalue, hbetween, hnext, hclosing⟩ :=
    h.lexeme.exists_delimiters h.nonempty (Lexer.ofString "")
  have hcut : Utf8.cutBytes segment.lexeme.start segment.run = (opening.text, body) := by
    rw [hstart, hrun, Utf8.cutBytes_byteLength]
  have hopening : segment.opening = opening.text := congrArg Prod.fst hcut
  have hbody : segment.body = body := congrArg Prod.snd hcut
  rw [hopening, hbody]
  refine ⟨opening, next, rfl, hrun, hstart, hstop, hvalue, ?_, hnext,
    hcloses.of_resume (hresume.symm.trans hnext) hclosing⟩
  -- the delimiters go by the kind and the value alone
  cases hbetween with
  | bare hstring hcharacter herror => exact .bare hstring hcharacter herror
  | string hkind => exact .string hkind
  | multiLineString hkind => exact .multiLineString hkind
  | character hkind => exact .character hkind
  | quotedIdentifier hkind => exact .quotedIdentifier hkind
  | error cause hkind hvalue => exact .error cause hkind hvalue

/-- Nothing but its text belongs to a comment. -/
theorem delimiters_of_comment [Unicode.Repertoire] (h : segment.Stands regions rest)
    (hkind : segment.lexeme.kind = .comment) : segment.opening = [] ∧ segment.closing = [] := by
  obtain ⟨opening, next, hopening, _, _, _, _, hbetween, _, hcloses⟩ := h.exists_delimiters "" 0
  have htoken : (segment.token "" 0).kind = .comment := hkind
  cases hbetween with
  | bare => exact ⟨hopening, hcloses⟩
  | string hother | multiLineString hother | character hother | quotedIdentifier hother
  | error _ hother => cases htoken.symm.trans hother

end Stands

/-- A separator is the first line break of the gap. -/
theorem separator?_eq_some {segment : Segment} {file : String} {offset : Nat}
    {last : Option TokenKind} {regions : List Bracket} {separator : Token}
    (h : segment.separator? file offset last regions = some separator) :
    ∃ front back, BreaksAt segment.gap front back ∧
      separator = (Lexer.separator (offset + Utf8.byteLength front)
        (('\n' :: back).takeWhile isSpace)).token file := by
  unfold separator? at h
  split at h
  · next front line hbreak =>
      obtain ⟨back, rfl, hbreaks⟩ := lineBreak?_eq_some_iff.mp hbreak
      simp only [Option.ite_none_right_eq_some, Option.some.injEq] at h
      exact ⟨front, back, hbreaks, h.2.symm⟩
  · cases h

theorem separator?_isSeparator {segment : Segment} {file : String} {offset : Nat}
    {last : Option TokenKind} {regions : List Bracket} {separator : Token}
    (h : segment.separator? file offset last regions = some separator) :
    separator.kind.isSeparator = true := by
  obtain ⟨front, back, _, rfl⟩ := separator?_eq_some h
  exact Lexer.separator_isSeparator (offset + Utf8.byteLength front) _

/-- There is no separator in front of what begins no statement. -/
theorem separator?_eq_none {segment : Segment}
    (hkind : segment.lexeme.kind.canBeginStatement = false) (file : String) (offset : Nat)
    (last : Option TokenKind) (regions : List Bracket) :
    segment.separator? file offset last regions = none := by
  have hwants : segment.wantsSeparator last regions = false := by
    refine Bool.eq_false_iff.mpr fun hwants => ?_
    have hbegin : segment.lexeme.kind.canBeginStatement = true :=
      (Separator.standard_iff.mp hwants).2.2
    rw [hkind] at hbegin
    cases hbegin
  unfold separator?
  split
  · rw [hwants]
    rfl
  · rfl

end Segment

/-! ## The pieces of a layout -/

section Layout

variable [Unicode.Repertoire] {segment : Segment} {regions : List Bracket} {rest : List Char}

/-- The lexeme of a segment that begins at byte `base` is cut out, with `front` in front
of its run. -/
theorem pieces_of_stands (h : segment.Stands regions rest) (file : String) {front : List Char}
    {offset base : Nat}
    (hbase : offset + Utf8.byteLength front = base + Utf8.byteLength segment.gap)
    (tokens : List Token) :
    pieces offset (front ++ segment.run ++ (segment.closing ++ rest))
        (segment.token file base :: tokens) =
      let behind := pieces (base + Utf8.byteLength (segment.gap ++ segment.run))
        (segment.closing ++ rest) tokens
      (⟨front ++ segment.opening, segment.body, segment.token file base⟩ :: behind.1,
        behind.2) := by
  obtain ⟨_, _, _, hrun, hstart, hstop, _⟩ := h.exists_delimiters file base
  have hsum := congrArg Utf8.byteLength hrun
  simp only [Utf8.byteLength_append] at hsum
  have htokenStart : (segment.token file base).extent.start =
      offset + Utf8.byteLength (front ++ segment.opening) := by
    change segment.lexeme.start + (base + Utf8.byteLength segment.gap) = _
    rw [hstart, Utf8.byteLength_append]
    omega
  have htokenStop : (segment.token file base).extent.stop =
      base + Utf8.byteLength (segment.gap ++ segment.run) := by
    change segment.lexeme.stop + (base + Utf8.byteLength segment.gap) = _
    rw [hstop, Utf8.byteLength_append]
    omega
  have hlength : (segment.token file base).extent.stop =
      (segment.token file base).extent.start + Utf8.byteLength segment.body := by
    rw [htokenStop, htokenStart]
    simp only [Utf8.byteLength_append]
    omega
  have hcut : front ++ segment.run = front ++ segment.opening ++ segment.body := by
    rw [hrun, List.append_assoc]
  rw [hcut, pieces_cons htokenStart hlength, htokenStop]

omit [Unicode.Repertoire] in
/-- A layout goes on behind the quotes that close its first lexeme. -/
theorem Segment.weave_cons (file : String) (offset : Nat) (last : Option TokenKind)
    (regions : List Bracket) (segment : Segment) (segments : List Segment) :
    weave file offset last regions (segment :: segments) =
      (segment.separator? file offset last regions).toList ++ segment.token file offset ::
        weave file (offset + Utf8.byteLength (segment.gap ++ segment.run) +
            Utf8.byteLength segment.closing)
          (Lexer.remember segment.lexeme.kind last) (segment.behind regions) segments := by
  rw [weave, Nat.add_assoc, ← Utf8.byteLength_append]
  rfl

/-- The pieces of a segment behind the quotes `closing`: its lexeme alone, or the
separator in its gap and the lexeme. -/
theorem pieces_of_segment (h : segment.Stands regions rest) (file : String) (offset : Nat)
    (closing : List Char) (last : Option TokenKind) (tokens : List Token) :
    let base := offset + Utf8.byteLength closing
    let separator? := segment.separator? file base last regions
    let cut := pieces offset (closing ++ (segment.text ++ rest))
      (separator?.toList ++ segment.token file base :: tokens)
    let behind := pieces (base + Utf8.byteLength (segment.gap ++ segment.run))
      (segment.closing ++ rest) tokens
    (separator? = none ∧
      cut = (⟨closing ++ segment.gap ++ segment.opening, segment.body,
        segment.token file base⟩ :: behind.1, behind.2)) ∨
    ∃ (separator : Token) (front run pad : List Char), separator? = some separator ∧
      separator.kind.isSeparator = true ∧ segment.gap = front ++ (run ++ pad) ∧
      Mixture isBlank front ∧ (∀ c ∈ run, isSpace c = true) ∧
      cut = (⟨closing ++ front, run, separator⟩ ::
        ⟨pad ++ segment.opening, segment.body, segment.token file base⟩ :: behind.1,
          behind.2) := by
  intro base separator? cut behind
  cases hseparator : separator? with
  | none =>
      refine .inl ⟨rfl, ?_⟩
      have htext : closing ++ (segment.text ++ rest) =
          closing ++ segment.gap ++ segment.run ++ (segment.closing ++ rest) := by
        simp only [Segment.text, List.append_assoc]
      change pieces offset _ (separator?.toList ++ _) = _
      rw [hseparator, htext]
      exact pieces_of_stands h file (by rw [Utf8.byteLength_append, Nat.add_assoc]) tokens
  | some separator =>
      obtain ⟨front, back, hbreaks, rfl⟩ := Segment.separator?_eq_some hseparator
      have hgap : segment.gap = front ++
          (('\n' :: back).takeWhile isSpace ++ ('\n' :: back).dropWhile isSpace) := by
        rw [List.takeWhile_append_dropWhile]
        exact hbreaks.eq
      have hkind := Lexer.separator_isSeparator (base + Utf8.byteLength front)
        (('\n' :: back).takeWhile isSpace)
      refine .inr ⟨_, front, _, _, rfl, hkind, hgap, hbreaks.inline,
        fun c hc => List.mem_takeWhile_imp hc, ?_⟩
      generalize ('\n' :: back).takeWhile isSpace = run at *
      generalize ('\n' :: back).dropWhile isSpace = pad at *
      have htext : closing ++ (segment.text ++ rest) =
          closing ++ front ++ run ++ (pad ++ segment.run ++ (segment.closing ++ rest)) := by
        simp only [Segment.text, hgap, List.append_assoc]
      have hstop : ((Lexer.separator (base + Utf8.byteLength front) run).token file).extent.stop +
          Utf8.byteLength pad = base + Utf8.byteLength segment.gap := by
        change base + Utf8.byteLength front + Utf8.byteLength run + _ = _
        rw [hgap]
        simp only [Utf8.byteLength_append]
        omega
      change pieces offset _ (separator?.toList ++ _) = _
      rw [hseparator, htext, Option.toList_some, List.singleton_append,
        pieces_cons (by rw [Utf8.byteLength_append, ← Nat.add_assoc]; rfl) rfl,
        pieces_of_stands h file hstop]

/-- Behind the last token stand the quotes that close it and the trivia behind it. -/
theorem Laid.pieces_snd {segments : List Segment} {trailing closing : List Char}
    (hlaid : Laid regions segments trailing) (hclosing : ∀ c ∈ closing, c ≠ '/') (file : String)
    (offset : Nat) (last : Option TokenKind) :
    ∃ quotes : List Char, (∀ c ∈ quotes, c ≠ '/') ∧
      (pieces offset (closing ++ Segment.textOf segments trailing)
        (Segment.weave file (offset + Utf8.byteLength closing) last regions segments)).2 =
      quotes ++ trailing := by
  induction hlaid generalizing closing offset last with
  | nil => exact ⟨closing, hclosing, rfl⟩
  | @cons regions segment segments trailing hstands hlaid ih =>
      obtain ⟨_, next, _, _, _, _, _, _, _, hcloses⟩ := hstands.exists_delimiters file 0
      obtain ⟨quotes, hquotes, hrest⟩ := ih hcloses.ne_slash
        (offset + Utf8.byteLength closing + Utf8.byteLength (segment.gap ++ segment.run))
        (Lexer.remember segment.lexeme.kind last)
      refine ⟨quotes, hquotes, ?_⟩
      rw [Segment.textOf_cons, Segment.weave_cons]
      rcases pieces_of_segment hstands file offset closing last _ with
        ⟨_, hcut⟩ | ⟨_, _, _, _, _, _, _, _, _, hcut⟩
      · exact (congrArg Prod.snd hcut).trans hrest
      · exact (congrArg Prod.snd hcut).trans hrest

end Layout

end ScalaLexer

import Mathlib.Data.List.TakeWhile
import ScalaLexer.Proofs.Lexer.Run

/-!
# The tokens tile the source

Every byte of a source is part of a token, of a delimiter that the lexer drops
around a token, or of trivia.  `Tiled` is the grammar of such a source together
with its tokens, and `drain_tiled` says that it describes what a lexer returns.

## Strategy

A lexer between two calls is described by where the last token ended.

1. `Behind`: the mode holds the delimiter that is still to be closed, and what the
   lexer has already skipped behind the token is trivia.  It skips something only
   behind a line break that became a separator.
2. `Behind.closes`: the next call drops exactly the closing delimiter.
3. `Taken.cut`: the call cuts out an opening delimiter and a text, and the lexer is
   behind that text afterwards.
4. `Behind.tiled` puts the pieces together along all calls.

The places and the values of the tokens are then read off the grammar.
-/

namespace ScalaLexer

open Trivia

/-! ## The grammar -/

/-- The delimiters around the text of a token, none of which is part of it. -/
inductive Token.Between (token : Token) : Delimiter → Delimiter → Prop
  | bare : token.kind ≠ .string → token.kind ≠ .character → token.kind ≠ .error →
      Between token .none .none
  | string : token.kind = .string → Between token .doubleQuote .doubleQuote
  | multiLineString : token.kind = .string → Between token .tripleQuote .tripleQuote
  | character : token.kind = .character → Between token .singleQuote .singleQuote
  | quotedIdentifier : token.kind = .identifier → Between token .backquote .backquote
  | error (cause : Cause) : token.kind = .error → token.value = cause.message →
      Between token cause.delimiter .none

/-- The delimiter is closed by `closing`, with `rest` behind it.  A multi-line string
is closed by all the quotes that stand there. -/
def Delimiter.Closes : Delimiter → List Char → List Char → Prop
  | .tripleQuote, closing, rest =>
    (∃ n, 3 ≤ n ∧ closing = List.replicate n '\x22') ∧ rest.head? ≠ some '\x22'
  | delimiter, closing, _ => closing = delimiter.text

/-- The text from byte `offset` on, behind a token that is still to be closed by
`delimiter`, consists of these tokens and of what the lexer drops. -/
inductive Tiled : Nat → Delimiter → List Char → List Token → Prop
  | nil {offset : Nat} {delimiter : Delimiter} {closing gap : List Char} :
      delimiter.Closes closing gap → IsTrailing gap → Tiled offset delimiter (closing ++ gap) []
  | cons {offset : Nat} {delimiter opening next : Delimiter} {closing gap body rest : List Char}
      {token : Token} {tokens : List Token} :
      delimiter.Closes closing (gap ++ opening.text ++ body ++ rest) → IsTrivia gap →
      token.Between opening next →
      token.extent.start = offset + Utf8.byteLength (closing ++ gap ++ opening.text) →
      token.extent.stop = token.extent.start + Utf8.byteLength body →
      (token.kind ≠ .error → token.value = String.ofList body) →
      Tiled token.extent.stop next rest tokens →
      Tiled offset delimiter (closing ++ gap ++ opening.text ++ body ++ rest) (token :: tokens)

namespace Tiled

variable {offset : Nat} {delimiter : Delimiter} {text : List Char} {tokens : List Token}

/-! ## What the grammar says about places and values -/

theorem extent_mem (htiled : Tiled offset delimiter text tokens) {token : Token}
    (hmem : token ∈ tokens) :
    offset ≤ token.extent.start ∧ token.extent.start ≤ token.extent.stop ∧
      token.extent.stop ≤ offset + Utf8.byteLength text := by
  induction htiled with
  | nil => cases hmem
  | cons _ _ _ hstart hstop _ _ ih =>
      simp only [Utf8.byteLength_append] at hstart ⊢
      rcases List.mem_cons.mp hmem with rfl | hmem
      · omega
      · have hrest := ih hmem
        omega

theorem pairwise (htiled : Tiled offset delimiter text tokens) :
    tokens.Pairwise fun first second => first.extent.stop ≤ second.extent.start := by
  induction htiled with
  | nil => exact .nil
  | cons _ _ _ _ _ _ hrest ih => exact .cons (fun _ hmem => (hrest.extent_mem hmem).1) ih

/-- A token that is no error holds the bytes that it stands for. -/
theorem value_mem (htiled : Tiled offset delimiter text tokens) (front : List UInt8)
    (hfront : front.length = offset) {token : Token} (hmem : token ∈ tokens)
    (hkind : token.kind ≠ .error) :
    Utf8.encode token.value.toList =
      ((front ++ Utf8.encode text).drop token.extent.start).take
        (token.extent.stop - token.extent.start) := by
  induction htiled generalizing front with
  | nil => cases hmem
  | @cons _ _ opening _ closing gap body rest found _ _ _ _ hstart hstop hvalue _ ih =>
      subst hfront
      -- all that stands in front of the text of the token is one piece
      have hsplit : front ++ Utf8.encode (closing ++ gap ++ opening.text ++ body ++ rest) =
          (front ++ Utf8.encode (closing ++ gap ++ opening.text)) ++
            (Utf8.encode body ++ Utf8.encode rest) := by
        simp [Utf8.encode]
      have hlength : (front ++ Utf8.encode (closing ++ gap ++ opening.text)).length =
          found.extent.start := by
        rw [List.length_append, Utf8.length_encode, hstart]
      rcases List.mem_cons.mp hmem with rfl | hmem
      · have hbody : token.extent.stop - token.extent.start = (Utf8.encode body).length := by
          rw [Utf8.length_encode]
          omega
        rw [hsplit, ← hlength, List.drop_left, hlength, hbody, List.take_left, hvalue hkind,
          String.toList_ofList]
      · rw [hsplit, ← List.append_assoc]
        refine ih _ ?_ hmem
        rw [List.length_append, hlength, Utf8.length_encode, hstop]

end Tiled

/-! ## A token between two places -/

/-- The token is cut out from one place to another, together with what opens it. -/
structure Token.Cut (token : Token) (line : Cursor) (opening : Delimiter) (body : List Char)
    (next : Delimiter) (behind : Cursor) : Prop where
  ahead : line.ahead = opening.text ++ body ++ behind.ahead
  nonempty : opening.text ++ body ≠ []
  between : token.Between opening next
  start : token.extent.start = line.pos + Utf8.byteLength opening.text
  length : token.extent.stop = token.extent.start + Utf8.byteLength body
  stop : token.extent.stop = behind.pos
  value : token.kind ≠ .error → token.value = String.ofList body

theorem Token.Cut.of_drops {token : Token} {line inner behind : Cursor} {opening next : Delimiter}
    {body : List Char} (hopening : line.Drops opening.text inner) (hbody : inner.Drops body behind)
    (hne : opening.text ++ body ≠ []) (hbetween : token.Between opening next)
    (hstart : token.extent.start = inner.pos) (hstop : token.extent.stop = behind.pos)
    (hvalue : token.kind ≠ .error → token.value = String.ofList body) :
    token.Cut line opening body next behind where
  ahead := by rw [hopening.ahead, hbody.ahead, List.append_assoc]
  nonempty := hne
  between := hbetween
  start := hstart.trans hopening.pos
  length := by rw [hstop, hstart, hbody.pos]
  stop := hstop
  value := hvalue

namespace Lexer

variable {lexer after : Lexer} {delimiter : Delimiter} {place begin line : Cursor}
  {gap : List Char} {token : Token} {consultations : List Separator.Consultation}

/-! ## Between two calls -/

/-- The lexer stands behind a token that ended at `place` and is still to be closed
by the delimiter. -/
structure Behind (lexer : Lexer) (delimiter : Delimiter) (place : Cursor) : Prop where
  mode : lexer.mode = delimiter.resume
  closing : delimiter.text <+: lexer.cursor.ahead
  skipped : ∃ gap, Passes place gap lexer.cursor ∧ (delimiter = .none ∨ gap = [])

theorem passes_nil {cursor : Cursor} (hidle : cursor.Idle) : Passes cursor [] cursor :=
  ⟨hidle.drops, IsTrivia.nil.isTrailing, fun _ => .nil⟩

theorem Behind.of_idle (hmode : lexer.mode = delimiter.resume)
    (hclosing : delimiter.text <+: lexer.cursor.ahead) (hidle : lexer.cursor.Idle) :
    lexer.Behind delimiter lexer.cursor :=
  ⟨hmode, hclosing, [], passes_nil hidle, .inr rfl⟩

/-- What the mode drops in front of the next token closes the delimiter. -/
theorem closes_of_resume {ahead rest : List Char} (hclosing : delimiter.text <+: ahead)
    (hahead : ahead = delimiter.resume.closing ahead ++ rest) :
    delimiter.Closes (delimiter.resume.closing ahead) rest := by
  obtain ⟨behind, rfl⟩ := hclosing
  cases delimiter with
  | none => rfl
  | doubleQuote => rfl
  | singleQuote => rfl
  | backquote => rfl
  | tripleQuote =>
      obtain rfl : (Delimiter.tripleQuote.text ++ behind).dropWhile (· = '\x22') = rest :=
        List.append_cancel_left (List.takeWhile_append_dropWhile.trans hahead)
      refine ⟨⟨_, ?_, List.eq_replicate_of_mem fun c hc => ?_⟩, fun hquote => ?_⟩
      · simp [Delimiter.text, Delimiter.resume, Mode.closing]
      · simpa using List.mem_takeWhile_imp hc
      · have hnot := List.head?_dropWhile_not (· = '\x22') (Delimiter.tripleQuote.text ++ behind)
        rw [hquote] at hnot
        simp at hnot

/-- From where the last token ended, the next call passes over the closing delimiter
and over trivia. -/
theorem Behind.closes (hbehind : lexer.Behind delimiter place)
    (hbegin : lexer.cursor.Drops (lexer.mode.closing lexer.cursor.ahead) begin)
    (hpasses : Passes begin gap line) :
    ∃ closing gap, delimiter.Closes closing (gap ++ line.ahead) ∧
      place.Drops (closing ++ gap) line ∧ IsTrailing gap ∧ (line.ahead ≠ [] → IsTrivia gap) := by
  obtain ⟨hmode, hclosing, skipped, hskipped, hnone⟩ := hbehind
  rw [hmode] at hbegin
  -- either no quote is left to drop, or nothing was skipped in front of it
  rcases hnone with rfl | rfl
  · have hall : Passes place (skipped ++ ([] ++ gap)) line := hskipped.trans
      ⟨hbegin.trans hpasses.drops, hpasses.trailing, hpasses.trivia⟩
    exact ⟨[], _, rfl, hall.drops, hall.trailing, hall.trivia⟩
  · have hahead : lexer.cursor.ahead = _ ++ (gap ++ line.ahead) :=
      hbegin.ahead.trans (congrArg _ hpasses.drops.ahead)
    exact ⟨_, gap, closes_of_resume hclosing hahead,
      hskipped.drops.trans (hbegin.trans hpasses.drops), hpasses.trailing, hpasses.trivia⟩

/-! ## One call -/

theorem bare_of_kind {kind : TokenKind} (hkind : token.kind = kind) (hstring : kind ≠ .string)
    (hcharacter : kind ≠ .character) (herror : kind ≠ .error) : token.Between .none .none := by
  subst hkind
  exact .bare hstring hcharacter herror

theorem between_of_encloses (hencloses : delimiter.Encloses token.kind) :
    token.Between delimiter delimiter := by
  generalize hkind : token.kind = kind at hencloses
  cases delimiter with
  | none =>
      have hbare (other : TokenKind) (hother : ¬ Delimiter.none.Encloses other) : kind ≠ other :=
        fun heq => hother (heq ▸ hencloses)
      exact bare_of_kind hkind (hbare _ id) (hbare _ id) (hbare _ id)
  | doubleQuote => exact .string (by cases kind <;> first | exact hkind | exact hencloses.elim)
  | tripleQuote =>
      exact .multiLineString (by cases kind <;> first | exact hkind | exact hencloses.elim)
  | singleQuote => exact .character (by cases kind <;> first | exact hkind | exact hencloses.elim)
  | backquote =>
      exact .quotedIdentifier (by cases kind <;> first | exact hkind | exact hencloses.elim)

theorem separator_between (lexer : Lexer) (start : Nat) (run : List Char) :
    (lexer.tokenOf (separator start run)).Between .none .none := by
  rcases separator_kind start run with hkind | hkind
  · exact bare_of_kind hkind nofun nofun nofun
  · exact bare_of_kind hkind nofun nofun nofun

/-- What stands around the text of a lexeme, by its form. -/
theorem delimiters_of_form (lexer : Lexer) {lexeme : Lexeme} {regions behind : List Bracket}
    {opening body : List Char} (hform : lexeme.Form regions place opening body behind)
    (hkind : lexeme.kind ≠ .eof) :
    ∃ before next : Delimiter, opening = before.text ∧ opening ++ body ≠ [] ∧
      (lexer.tokenOf lexeme).Between before next ∧ lexeme.resume = next.resume ∧
      next.text <+: place.ahead := by
  cases hform with
  | eof heof => exact absurd heof hkind
  | error cause herror hresume hvalue hne =>
      exact ⟨cause.delimiter, .none, rfl, hne, .error cause herror hvalue, hresume,
        List.nil_prefix⟩
  | text delimiter hencloses hresume hne hclosing =>
      exact ⟨delimiter, delimiter, rfl, hne, between_of_encloses hencloses, hresume, hclosing⟩
  | opening bracket hbracket hresume =>
      exact ⟨.none, .none, rfl, nofun, bare_of_kind hbracket nofun nofun nofun, hresume,
        List.nil_prefix⟩
  | closing bracket hbracket hresume =>
      exact ⟨.none, .none, rfl, nofun, bare_of_kind hbracket nofun nofun nofun, hresume,
        List.nil_prefix⟩

/-- A call that returns a token passes over trivia and cuts the token out behind it,
and the lexer stands behind the token then. -/
theorem Taken.cut {closing : List Char}
    (htaken : lexer.Taken closing ⟨.ok token, after, consultations⟩) (hkind : token.kind ≠ .eof) :
    ∃ (begin line behind : Cursor) (gap body : List Char) (opening next : Delimiter),
      lexer.cursor.Drops closing begin ∧ Passes begin gap line ∧
      token.Cut line opening body next behind ∧ after.Behind next behind := by
  cases htaken with
  | @lexeme gap begin line place found _ hbegin hpasses hspelled =>
      obtain ⟨_, body, inner, hopening, hcut, hform⟩ := hspelled
      obtain ⟨opening, next, rfl, hne, hbetween, hresume, hclosing⟩ :=
        delimiters_of_form (lexer.moveTo place) hform hkind
      refine ⟨begin, line, place, gap, body, opening, next, hbegin, hpasses, ?_,
        .of_idle hresume hclosing hcut.drops.idle⟩
      exact .of_drops hopening hcut.drops hne hbetween hcut.start hcut.stop hcut.value
  | @separator gap pad begin line between place _ hbegin hpasses hline hrun hpad =>
      -- the lexer has skipped `pad` as well, but the token ends in front of it
      refine ⟨begin, line, between, gap, line.ahead.takeWhile isSpace, .none, .none, hbegin,
        hpasses, ?_, ⟨rfl, List.nil_prefix, pad, hpad, .inl rfl⟩⟩
      exact .of_drops hpasses.drops.idle.drops hrun (takeWhile_isSpace_ne_nil hline)
        (separator_between ..) rfl hrun.pos.symm fun _ => rfl

/-! ## All calls -/

/-- Where no byte is malformed, all calls together tile the text behind the last
token. -/
theorem Behind.tiled [Unicode.Repertoire] (hbehind : lexer.Behind delimiter place)
    (hvalid : lexer.cursor.malformed = none) :
    Tiled place.pos delimiter place.ahead lexer.drain.result.tokens ∧
      lexer.drain.result.failure = none ∧
      lexer.drain.result.eof =
        some ⟨.eof, "", ⟨lexer.cursor.limit, lexer.cursor.limit, lexer.file⟩⟩ ∧
      lexer.drain.lexer.position = lexer.cursor.limit := by
  have hnotDone : lexer.mode ≠ .done := by
    rw [hbehind.mode]
    cases delimiter <;> exact nofun
  -- along the calls; each of them moves `place` to where its token ends
  induction lexer using call_induction generalizing delimiter place with
  | eof lexer token after consultations hstep hkind =>
      have htaken := step_eq_ok.mp hstep ▸ dispatch_taken hnotDone
      obtain ⟨rfl, hahead, _, gap, begin, hbegin, hpasses⟩ := htaken.eof hkind
      obtain ⟨closing, trailing, hcloses, hdrops, htrailing, _⟩ := hbehind.closes hbegin hpasses
      rw [hahead, List.append_nil] at hcloses
      rw [drain_of_eof hstep hkind, hdrops.ahead, hahead, List.append_nil]
      refine ⟨.nil hcloses htrailing, rfl, rfl, ?_⟩
      rw [← (hbegin.trans hpasses.drops).limit, Cursor.limit, hahead]
      rfl
  | token lexer token after consultations hstep hkind ih =>
      have htaken := step_eq_ok.mp hstep ▸ dispatch_taken hnotDone
      obtain ⟨begin, line, behind, gap, body, opening, next, hbegin, hpasses, hcut, hnext⟩ :=
        htaken.cut hkind
      obtain ⟨closing, trivia, hcloses, hdrops, _, htrivia⟩ := hbehind.closes hbegin hpasses
      have hplace : place.ahead = closing ++ trivia ++ opening.text ++ body ++ behind.ahead := by
        rw [hdrops.ahead, hcut.ahead]
        simp only [List.append_assoc]
      have hline : line.ahead ≠ [] := by
        rw [hcut.ahead]
        exact List.append_ne_nil_of_left_ne_nil hcut.nonempty _
      have hkeeps := keeps_of_step hstep
      obtain ⟨htiled, hfailure, heof, hposition⟩ :=
        ih hnext (hkeeps.malformed.trans hvalid) (not_done_behind_step hstep hkind)
      rw [hkeeps.limit, hkeeps.file] at heof
      rw [hkeeps.limit] at hposition
      rw [← hcut.stop] at htiled
      rw [drain_of_token hstep hkind, hplace]
      refine ⟨.cons ?_ (htrivia hline) hcut.between ?_ hcut.length hcut.value htiled, hfailure,
        heof, hposition⟩
      · rw [hcut.ahead] at hcloses
        simpa using hcloses
      · rw [hcut.start, hdrops.pos]
        simp only [Utf8.byteLength_append]
        omega
  | error lexer diagnostic after consultations hstep =>
      obtain ⟨_, hdispatch, _⟩ := step_eq_error.mp hstep
      obtain ⟨_, _, hblames, _⟩ := dispatch_fault hdispatch
      rw [hblames.byte] at hvalid
      cases hvalid

/-- A fresh lexer for a text stands in front of all of it. -/
theorem ofString_cursor (text file : String) (policy : Separator.Policy) :
    (ofString text file policy).cursor = ⟨0, 0, 0, [], text.toList, none⟩ := by
  rw [ofString, ofBytes_cursor, Utf8.decode_encode]

/-- The tokens of a text tile it.  The stretches they stand for are in order and lie in the
text, and what such a stretch holds is the value of its token, unless the token is an error.
In a text of less than 4 GiB the spans are these stretches. -/
theorem drain_tiled [Unicode.Repertoire] (text file : String) (policy : Separator.Policy) :
    let source := Utf8.encode text.toList
    let drained := (ofString text file policy).drain
    drained.result.failure = none ∧
      drained.result.eof = some ⟨.eof, "", ⟨source.length, source.length, file⟩⟩ ∧
      drained.lexer.position = source.length ∧
      Tiled 0 .none text.toList drained.result.tokens ∧
      (∀ token ∈ drained.result.tokens,
        token.extent.start ≤ token.extent.stop ∧ token.extent.stop ≤ source.length ∧
        (token.kind ≠ .error → Utf8.encode token.value.toList =
          (source.drop token.extent.start).take (token.extent.stop - token.extent.start)) ∧
        (source.length < UInt32.size →
          (token.span.start : Nat) = token.extent.start ∧
          (token.span.stop : Nat) = token.extent.stop)) ∧
      drained.result.tokens.Pairwise fun first second =>
        first.extent.stop ≤ second.extent.start := by
  intro source drained
  have hcursor := ofString_cursor text file policy
  have hidle : (ofString text file policy).cursor.Idle := by
    rw [hcursor]
    exact ⟨rfl, rfl⟩
  have hlimit : (ofString text file policy).cursor.limit = source.length := by
    rw [hcursor, Cursor.limit, Utf8.length_encode, Nat.zero_add]
  have hbehind : (ofString text file policy).Behind .none (ofString text file policy).cursor :=
    .of_idle rfl List.nil_prefix hidle
  obtain ⟨htiled, hfailure, heof, hposition⟩ := hbehind.tiled (by rw [hcursor])
  rw [hlimit] at heof hposition
  rw [hcursor] at htiled
  refine ⟨hfailure, heof, hposition, htiled, fun token hmem => ?_, htiled.pairwise⟩
  obtain ⟨_, horder, hstop⟩ := htiled.extent_mem hmem
  have hwithin : token.extent.stop ≤ source.length := by
    rw [Utf8.length_encode]
    simpa using hstop
  exact ⟨horder, hwithin, fun hkind => htiled.value_mem [] rfl hmem hkind,
    fun hsize => Extent.span_exact horder (hwithin.trans_lt hsize)⟩

end Lexer

end ScalaLexer

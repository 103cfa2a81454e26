import ScalaLexer.Proofs.Lexer.Root
import ScalaLexer.Proofs.Scan.Quotation
import ScalaLexer.Unicode.Release

/-!
# Literals at the root

A call that comes to an opening quote answers with what stands behind it.  The quote that
closes it is dropped by the next call only, so there are two things to say of a literal:
what the answer is, and that the next call is one at the root behind the closing quotes.
`Lexer.Quotes` says both.  Where the quotes are not closed the answer is an error, behind
which the lexer goes on at once (`Lexer.Rejects`); most of these errors leave nothing
behind them (`Lexer.RunsOut`).

The main statements go through the kinds of quotes.

* `cuts_quoted`: a string up to the first quote that is not protected, an identifier up to
  the next backquote.
* `cuts_tripleQuoted`: a string up to the first three quotes in a row.
* `cuts_singleQuoted`: a character literal if one stands there, else a symbol, else a
  quote by itself.
-/

namespace ScalaLexer

open Lexeme (ReadsAs)

/-- The closing quotes are dropped, whatever stands behind them. -/
theorem Cursor.At.exists_skipClosing {cursor : Cursor} {pos : Nat} {closing rest : List Char}
    (hplace : cursor.At pos (closing ++ rest)) {mode : Mode}
    (hclosing : mode.closing (closing ++ rest) = closing) :
    ∃ begin, mode.skipClosing cursor = .ok () begin ∧
      begin.At (pos + Utf8.byteLength closing) rest := by
  rw [← hplace.ahead] at hclosing
  suffices hskip : ∃ begin, mode.skipClosing cursor = .ok () begin ∧
      cursor.Drops (mode.closing cursor.ahead) begin by
    obtain ⟨begin, hskip, hdrops⟩ := hskip
    rw [hclosing] at hdrops
    exact ⟨begin, hskip, hplace.of_drops hdrops⟩
  cases mode with
  | start => exact ⟨cursor, rfl, hplace.idle.drops⟩
  | done => exact ⟨cursor, rfl, hplace.idle.drops⟩
  | closingQuote =>
      obtain ⟨begin, hskip⟩ : ∃ begin, Scan.skip cursor = .ok () begin := by
        cases hahead : cursor.ahead with
        | nil => exact ⟨_, Scan.bind_of_ok (Scan.next_of_nil hplace.valid hahead)⟩
        | cons c more => exact ⟨_, Scan.bind_of_ok (Scan.next_of_cons hahead)⟩
      exact ⟨begin, hskip, Scan.skip_eq_ok hskip⟩
  | closingTripleQuote =>
      have hskip : Scan.skipWhile (· = '\x22') cursor = .ok () _ :=
        Scan.bind_of_ok (Scan.readWhile_of_valid hplace.valid _)
      exact ⟨_, hskip, Scan.skipWhile_eq_ok hskip⟩

namespace Lexer

variable {lexer : Lexer} {front : List UInt8} {opening body closing text rest : List Char}
  {kind : TokenKind} {value : String} {resume : Mode} {cause : Cause}

/-! ## What is answered -/

section

variable [Unicode.Repertoire]

/-- The lexer stands between `front` and a literal, of which it returns the text.  The next
call is one of a lexer that stands behind the closing quotes, in front of a lexeme. -/
def Quotes (lexer : Lexer) (front : List UInt8) (opening body closing rest : List Char)
    (kind : TokenKind) : Prop :=
  let start := front.length + Utf8.byteLength opening
  ∃ (after : Lexer) (place : Cursor),
    let next : Lexer :=
      { lexer with cursor := place, mode := .start, lastToken := remember kind lexer.lastToken }
    lexer.Answers ⟨kind, String.ofList body, ⟨start, start + Utf8.byteLength body, lexer.file⟩⟩
      after ∧
    next.StandsBetween (front ++ Utf8.encode (opening ++ body ++ closing)) (Utf8.encode rest) ∧
    after.step = next.step

/-- The lexer as it goes on at this place after an error. -/
def resumeAt (lexer : Lexer) (place : Cursor) : Lexer :=
  { lexer with cursor := place, mode := .start }

/-- The lexer stands between `front` and `opening`, and finds that `body` behind it is
wrong.  The error stands for `body`, and its span keeps both ends of it.  The lexer goes on
at `place`, right behind `body`, with a lexeme. -/
structure Rejects (lexer : Lexer) (front : List UInt8) (opening body rest : List Char)
    (cause : Cause) (place : Cursor) : Prop where
  answers :
    let start := front.length + Utf8.byteLength opening
    let stop := start + Utf8.byteLength body
    ∃ token, lexer.Answers token (lexer.resumeAt place) ∧
      token.kind = .error ∧ token.value = cause.message ∧
      token.extent = ⟨start, stop, lexer.file⟩ ∧
      token.span = ⟨.ofNat start, .ofNat stop, lexer.file⟩
  behind : (lexer.resumeAt place).StandsBetween (front ++ Utf8.encode (opening ++ body))
    (Utf8.encode rest)

/-- What is wrong goes on to the end of the source, and the next call returns the end. -/
def RunsOut (lexer : Lexer) (front : List UInt8) (opening body : List Char) (cause : Cause) :
    Prop :=
  ∃ place, lexer.Rejects front opening body [] cause place ∧
    (lexer.resumeAt place).step.result =
      .ok ⟨.eof, "", ⟨lexer.source.length, lexer.source.length, lexer.file⟩⟩

/-! ## From a scan to an answer -/

/-- Neither space nor a comment begins like this. -/
def BeginsLexeme (opening : List Char) : Prop :=
  ∃ c ∈ opening.head?, isSpace c = false ∧ c ≠ '/'

theorem answers_of_readsAs
    (hlexer : lexer.StandsBetween front (Utf8.encode (opening ++ (body ++ rest))))
    (hopening : BeginsLexeme opening)
    (hread : ReadsAs lexer.regions opening body rest kind value resume) :
    let start := front.length + Utf8.byteLength opening
    ∃ place : Cursor, place.At (start + Utf8.byteLength body) rest ∧
      lexer.Answers ⟨kind, value, ⟨start, start + Utf8.byteLength body, lexer.file⟩⟩
        { lexer with
          cursor := place, mode := resume, lastToken := remember kind lexer.lastToken } := by
  intro start
  obtain ⟨c, hhead, hspace, hslash⟩ := hopening
  obtain ⟨more, rfl⟩ := List.head?_eq_some_iff.mp hhead
  obtain ⟨place, hplace, hanswers⟩ := hlexer.exists_place (by rintro _ ⟨⟩; exact hspace)
    (Trivia.not_open_of_ne_slash hslash)
  obtain ⟨after, hscan, hafter⟩ := hread place _ hplace
  exact ⟨after, hafter, hanswers _ after hscan⟩

theorem quotes_of_readsAs
    (hlexer : lexer.StandsBetween front (Utf8.encode (opening ++ (body ++ (closing ++ rest)))))
    (hopening : BeginsLexeme opening)
    (hread : ReadsAs lexer.regions opening body (closing ++ rest) kind (String.ofList body) resume)
    (hresume : resume ≠ .done) (hclosing : resume.closing (closing ++ rest) = closing) :
    lexer.Quotes front opening body closing rest kind := by
  obtain ⟨place, hplace, hanswers⟩ := answers_of_readsAs hlexer hopening hread
  obtain ⟨begin, hskip, hbegin⟩ := hplace.exists_skipClosing hclosing
  refine ⟨_, begin, hanswers, ?_, step_of_skipClosing hresume hskip⟩
  have hlexer : lexer.StandsBetween front
      (Utf8.encode (opening ++ body ++ closing ++ rest)) := by
    simpa only [List.append_assoc] using hlexer
  refine hlexer.behind rfl ?_
  simpa only [Utf8.byteLength_append, Nat.add_assoc] using hbegin

theorem rejects_of_readsAs
    (hlexer : lexer.StandsBetween front (Utf8.encode (opening ++ (body ++ rest))))
    (hopening : BeginsLexeme opening)
    (hread : ReadsAs lexer.regions opening body rest .error cause.message .start) :
    ∃ place, lexer.Rejects front opening body rest cause place := by
  obtain ⟨place, hplace, hanswers⟩ := answers_of_readsAs hlexer hopening hread
  refine ⟨place, ⟨_, hanswers, rfl, rfl, rfl, rfl⟩, ?_⟩
  rw [← List.append_assoc] at hlexer
  refine hlexer.behind rfl ?_
  rwa [Utf8.byteLength_append, ← Nat.add_assoc]

/-- At the end of the source the end is returned. -/
theorem step_of_nil (hlexer : lexer.StandsBetween front (Utf8.encode []))
    (hmode : lexer.mode = .start) :
    lexer.step.result =
      .ok ⟨.eof, "", ⟨lexer.source.length, lexer.source.length, lexer.file⟩⟩ := by
  obtain ⟨place, hplace, hanswers⟩ := hlexer.exists_place nofun (by decide)
  have hplace' : place.At front.length ([] ++ []) := hplace
  obtain ⟨after, hemit, _⟩ := Lexeme.emit_of_reads hplace' (.refl place) .eof .done
  have hscan := Lexeme.scan_of_nil lexer.regions hplace.ahead hplace.valid
  rw [Lexeme.keeping_of_ok lexer.regions hemit] at hscan
  have hlength : front.length = lexer.source.length := by
    rw [hlexer.source, List.length_append]
    rfl
  rw [(hanswers _ after hscan).call hmode, ← hlength]
  rfl

theorem runsOut_of_readsAs
    (hlexer : lexer.StandsBetween front (Utf8.encode (opening ++ body)))
    (hopening : BeginsLexeme opening)
    (hread : ReadsAs lexer.regions opening body [] .error cause.message .start) :
    lexer.RunsOut front opening body cause := by
  rw [← List.append_nil body] at hlexer
  obtain ⟨place, hrejects⟩ := rejects_of_readsAs hlexer hopening hread
  exact ⟨place, hrejects, step_of_nil hrejects.behind rfl⟩

/-! ## Strings and quoted identifiers -/

/-- **Strings and quoted identifiers.**  A string goes up to the first quote that no
backslash protects, and a quoted identifier up to the next backquote; either is returned as
it is written.  Where the closing quote is missing, the error goes up to the end. -/
theorem cuts_quoted (hlexer : lexer.StandsBetween front (Utf8.encode text)) :
    (∀ inner, text = '\x22' :: inner → ¬ ['\x22', '\x22', '\x22'] <+: text →
      (∀ body rest, StringBody body → inner = body ++ '\x22' :: rest →
        (∀ body' rest', StringBody body' → inner = body' ++ '\x22' :: rest' → body' = body) ∧
        lexer.Quotes front ['\x22'] body ['\x22'] rest .string) ∧
      ((∀ body rest, StringBody body → inner ≠ body ++ '\x22' :: rest) →
        lexer.RunsOut front ['\x22'] inner .unterminatedString)) ∧
    ∀ inner, text = '\x60' :: inner →
      (∀ name rest, '\x60' ∉ name → inner = name ++ '\x60' :: rest →
        lexer.Quotes front ['\x60'] name ['\x60'] rest .identifier) ∧
      ('\x60' ∉ inner → lexer.RunsOut front ['\x60'] inner .unterminatedQuotedIdentifier) := by
  have hdouble : BeginsLexeme ['\x22'] := ⟨_, rfl, by decide, by decide⟩
  have hback : BeginsLexeme ['\x60'] := ⟨_, rfl, by decide, by decide⟩
  refine ⟨?_, ?_⟩
  · rintro inner rfl hquotes
    have hopens : Lexeme.Opens lexer.regions ['\x22'] Lexeme.string inner :=
      Lexeme.opens_string hquotes
    refine ⟨?_, fun hunclosed => ?_⟩
    · rintro body rest hbody rfl
      refine ⟨fun body' rest' hbody' htext => hbody'.unique hbody htext.symm, ?_⟩
      exact quotes_of_readsAs hlexer hdouble
        (Lexeme.string_delimited.readsAs_closed hopens (Literal.splitEscaped_of_body hbody rest)
          ⟨rest, rfl⟩) Mode.noConfusion rfl
    · exact runsOut_of_readsAs hlexer hdouble
        (Lexeme.string_delimited.readsAs_unclosed hopens
          (Literal.splitEscaped_of_unclosed hunclosed) (List.cons_ne_nil _ _))
  · rintro inner rfl
    refine ⟨?_, fun hunclosed => ?_⟩
    · rintro name rest hname rfl
      have htakes : Takes (· ≠ '\x60') name ('\x60' :: rest) :=
        takes_ne hname (by rintro _ ⟨⟩; rfl)
      exact quotes_of_readsAs hlexer hback
        (Lexeme.quotedIdentifier_delimited.readsAs_closed Lexeme.opens_quotedIdentifier
          htakes.span_eq ⟨rest, rfl⟩) Mode.noConfusion rfl
    · have htakes : Takes (· ≠ '\x60') inner [] := takes_ne hunclosed nofun
      have hcut := htakes.span_eq
      rw [List.append_nil] at hcut
      exact runsOut_of_readsAs hlexer hback
        (Lexeme.quotedIdentifier_delimited.readsAs_unclosed Lexeme.opens_quotedIdentifier hcut
          (List.cons_ne_nil _ _))

end

/-- A backslash may be protected itself, and the end of the source protects nothing. -/
theorem cuts_quoted_backslashes :
    let front := Utf8.encode "é = ".toList
    let lexer := between front
    let closed := "\"\\\\\\\"é\" \"".toList
    let unclosed := "\"\\\"".toList
    let keyword := "`val`".toList
    ((lexer closed).StandsBetween front (Utf8.encode closed) ∧
      StringBody "\\\\\\\"é".toList ∧
      (lexer closed).Quotes front ['\x22'] "\\\\\\\"é".toList ['\x22'] " \"".toList .string) ∧
    ((lexer unclosed).StandsBetween front (Utf8.encode unclosed) ∧
      (lexer unclosed).RunsOut front ['\x22'] "\\\"".toList .unterminatedString) ∧
    ((lexer keyword).StandsBetween front (Utf8.encode keyword) ∧
      (lexer keyword).Quotes front ['\x60'] "val".toList ['\x60'] [] .identifier) := by
  intro front lexer closed unclosed keyword
  have hlexer := between_standsBetween front
  have hbody : StringBody "\\\\\\\"é".toList :=
    .escaped '\\' (.escaped '\x22' (.plain (by decide) (by decide) .nil))
  have hunclosed : ∀ body rest, StringBody body → "\\\"".toList ≠ body ++ '\x22' :: rest := by
    intro body rest hbody htext
    have hcut := Literal.splitEscaped_of_body hbody rest
    rw [← htext] at hcut
    cases (Prod.mk.inj hcut).2
  refine ⟨⟨hlexer closed, hbody, ?_⟩, ⟨hlexer unclosed, ?_⟩, hlexer keyword, ?_⟩
  · exact (((cuts_quoted (hlexer closed)).1 _ rfl (by decide)).1 _ _ hbody rfl).2
  · exact ((cuts_quoted (hlexer unclosed)).1 _ rfl (by decide)).2 hunclosed
  · exact ((cuts_quoted (hlexer keyword)).2 _ rfl).1 _ _ (by decide) rfl

/-! ## Multi-line strings -/

/-- **Multi-line strings.**  A multi-line string goes up to the first three quotes in a row,
so there are no three quotes in it and none at its end.  All quotes that stand there are
dropped behind it. -/
theorem cuts_tripleQuoted [Unicode.Repertoire]
    (hlexer : lexer.StandsBetween front
      (Utf8.encode ('\x22' :: '\x22' :: '\x22' :: text))) :
    (['\x22', '\x22', '\x22'] <:+: text →
      ∃ body quotes rest, text = body ++ (quotes ++ rest) ∧ MultiLineBody body (quotes ++ rest) ∧
        Takes (· = '\x22') quotes rest) ∧
    (∀ body quotes rest, text = body ++ (quotes ++ rest) → MultiLineBody body (quotes ++ rest) →
      Takes (· = '\x22') quotes rest →
        ¬ ['\x22', '\x22', '\x22'] <:+: body ∧ body.getLast? ≠ some '\x22' ∧
        ['\x22', '\x22', '\x22'] <+: quotes ∧
        lexer.Quotes front ['\x22', '\x22', '\x22'] body quotes rest .string) ∧
    (¬ ['\x22', '\x22', '\x22'] <:+: text →
      lexer.RunsOut front ['\x22', '\x22', '\x22'] text .unterminatedMultiLineString) := by
  have hbegins : BeginsLexeme ['\x22', '\x22', '\x22'] := ⟨_, rfl, by decide, by decide⟩
  refine ⟨fun hinfix => ?_, ?_, fun hinfix => ?_⟩
  · obtain ⟨body, behind, rfl, hbody⟩ := exists_multiLineBody hinfix
    obtain ⟨quotes, rest, rfl, htakes⟩ := exists_takes (· = '\x22') behind
    exact ⟨body, quotes, rest, rfl, hbody, htakes⟩
  · rintro body quotes rest rfl hbody htakes
    have hprefix := htakes.prefix_of_members (List.all_eq_true.mp (by decide)) hbody.quotes
    refine ⟨hbody.not_infix, hbody.getLast?_ne, hprefix, ?_⟩
    exact quotes_of_readsAs hlexer hbegins
      (Lexeme.multiLineString_delimited.readsAs_closed Lexeme.opens_multiLineString
        hbody.splitTripleQuoted_eq hbody.quotes) Mode.noConfusion
      (takeWhile_append_of_stop htakes.members htakes.stop)
  · exact runsOut_of_readsAs hlexer hbegins
      (Lexeme.multiLineString_delimited.readsAs_unclosed Lexeme.opens_multiLineString
        (Literal.splitTripleQuoted_of_unclosed hinfix) (List.cons_ne_nil _ _))

/-- One quote more in front belongs to the string, and two more behind do not. -/
theorem cuts_tripleQuoted_runs :
    let front := Utf8.encode "é = ".toList
    let lexer := between front
    let opening := "\"\"\"".toList
    let closed := "\"é\"\"x\"\"\"\"\"y".toList
    let unclosed := "\"é\"\"".toList
    ((lexer (opening ++ closed)).StandsBetween front (Utf8.encode (opening ++ closed)) ∧
      MultiLineBody "\"é\"\"x".toList "\"\"\"\"\"y".toList ∧
      (lexer (opening ++ closed)).Quotes front opening "\"é\"\"x".toList "\"\"\"\"\"".toList ['y']
        .string) ∧
    ((lexer (opening ++ unclosed)).StandsBetween front (Utf8.encode (opening ++ unclosed)) ∧
      (lexer (opening ++ unclosed)).RunsOut front opening unclosed
        .unterminatedMultiLineString) := by
  intro front lexer opening closed unclosed
  have hlexer := between_standsBetween front
  have hinfix : ['\x22', '\x22', '\x22'] <:+: closed :=
    ⟨"\"é\"\"x".toList, "\"\"y".toList, rfl⟩
  have hbody : MultiLineBody "\"é\"\"x".toList ("\"\"\"\"\"".toList ++ ['y']) :=
    Literal.multiLineBody_of_splitTripleQuoted hinfix
  refine ⟨⟨hlexer _, hbody, ?_⟩, hlexer _, ?_⟩
  · exact ((cuts_tripleQuoted (hlexer _)).2.1 _ _ _ rfl hbody (by decide)).2.2.2
  · exact (cuts_tripleQuoted (hlexer _)).2.2 (by decide)

/-! ## Single quotes -/

/-- What a lexer returns as a character is one, or a backslash and one. -/
theorem characterBody_of_step [Unicode.Repertoire] {token : Token}
    (h : lexer.step.result = .ok token) (hkind : token.kind = .character) :
    CharacterBody token.value.toList := by
  obtain ⟨_, place, found, after, hdrops, hscan, rfl⟩ :=
    exists_scan_of_step h (by rw [hkind]; rfl) (by rw [hkind]; exact TokenKind.noConfusion)
  exact Lexeme.characterBody_of_scan hdrops.idle hscan hkind

/-- **Single quotes.**  A character literal stands there if a closing quote does, behind one
character or behind a backslash and one character; a quote that is protected by the
backslash is taken for the closing one only if no other follows, and that is an error.
Everything else is a symbol, if a name follows, or a quote that means nothing. -/
theorem cuts_singleQuoted [Unicode.Repertoire]
    (hlexer : lexer.StandsBetween front (Utf8.encode ('\x27' :: text))) :
    (∀ body rest, CharacterBody body → text = body ++ '\x27' :: rest →
      lexer.Quotes front ['\x27'] body ['\x27'] rest .character) ∧
    (∀ rest, text = '\\' :: '\x27' :: rest → rest.head? ≠ some '\x27' →
      ∃ place, lexer.Rejects front ['\x27'] ['\\', '\x27'] rest
        (.unterminatedCharacter "\\'") place) ∧
    (text[1]? ≠ some '\x27' → ¬ (text[0]? = some '\\' ∧ text[2]? = some '\x27') →
      ((∃ c ∈ text.head?, isLetter c = true ∨ isOperator c = true) →
        ∃ name rest, text = name ++ rest ∧ PlainIdentifier name rest) ∧
      (∀ name rest, text = name ++ rest → PlainIdentifier name rest →
        lexer.Cuts front ('\x27' :: name) rest .symbol (String.ofList ('\x27' :: name))) ∧
      ((∀ c ∈ text.head?, isLetter c = false ∧ isOperator c = false) →
        lexer.Cuts front ['\x27'] text .error (Cause.unknownLexeme "'").message)) ∧
    ∀ (other : Lexer) (token : Token), other.step.result = .ok token → token.kind = .character →
      CharacterBody token.value.toList := by
  have hquote : BeginsLexeme ['\x27'] := ⟨_, rfl, by decide, by decide⟩
  have hspace : ∀ c ∈ ('\x27' :: text).head?, isSpace c = false := by
    rintro _ ⟨⟩
    decide
  have hopen : ¬ ['/', '*'] <+: '\x27' :: text := Trivia.not_open_of_ne_slash (by decide)
  refine ⟨?_, ?_, fun hsecond hthird => ?_, fun other token => characterBody_of_step⟩
  · rintro body rest hbody rfl
    exact quotes_of_readsAs hlexer hquote (Lexeme.readsAs_of_characterBody hbody rest)
      Mode.noConfusion rfl
  · rintro rest rfl hrest
    exact rejects_of_readsAs hlexer hquote (Lexeme.readsAs_of_protected_quote hrest)
  · have hopens : Lexeme.opensCharacter ('\x27' :: text) = false := by
      simpa [Lexeme.opensCharacter, hsecond] using hthird
    refine ⟨exists_plainIdentifier, ?_, fun hstop => ?_⟩
    · rintro name rest rfl hname
      refine cuts_of_scan hlexer hspace hopen fun place hplace => ?_
      exact Lexeme.scan_of_symbol hopens hname hplace lexer.regions
    · refine cuts_of_scan hlexer hspace hopen fun place hplace => ?_
      exact Lexeme.scan_of_lone_quote hopens hstop hplace lexer.regions

/-- A protected quote needs a closing one behind it, and a quote three places ahead closes
nothing else. -/
theorem cuts_singleQuoted_protected :
    let front := Utf8.encode "é = ".toList
    let lexer := between front
    let closed := "'\\''é".toList
    let unclosed := "'\\'é".toList
    let symbol := "'é_+'".toList
    let lone := "'()'".toList
    ((lexer closed).StandsBetween front (Utf8.encode closed) ∧ CharacterBody "\\'".toList ∧
      (lexer closed).Quotes front ['\x27'] "\\'".toList ['\x27'] ['é'] .character) ∧
    ((lexer unclosed).StandsBetween front (Utf8.encode unclosed) ∧
      ∃ place, (lexer unclosed).Rejects front ['\x27'] "\\'".toList ['é']
        (.unterminatedCharacter "\\'") place) ∧
    ((lexer symbol).StandsBetween front (Utf8.encode symbol) ∧
      PlainIdentifier "é_+".toList ['\x27'] ∧
      (lexer symbol).Cuts front "'é_+".toList ['\x27'] .symbol "'é_+") ∧
    ((lexer lone).StandsBetween front (Utf8.encode lone) ∧
      (lexer lone).Cuts front ['\x27'] "()'".toList .error (Cause.unknownLexeme "'").message) := by
  intro front lexer closed unclosed symbol lone
  have hlexer := between_standsBetween front
  have hbody : CharacterBody "\\'".toList := .escaped '\x27'
  have hname : PlainIdentifier ("é_".toList ++ ['+']) ['\x27'] :=
    .word ⟨⟨'é', rfl, by decide⟩, by decide, fun _ => by decide, by decide⟩
  have hlone : ∀ c ∈ "()'".toList.head?, isLetter c = false ∧ isOperator c = false := by
    rintro _ ⟨⟩
    decide
  refine ⟨⟨hlexer closed, hbody, ?_⟩, ⟨hlexer unclosed, ?_⟩, ⟨hlexer symbol, hname, ?_⟩,
    hlexer lone, ?_⟩
  · exact (cuts_singleQuoted (hlexer closed)).1 _ _ hbody rfl
  · exact (cuts_singleQuoted (hlexer unclosed)).2.1 _ rfl (by decide)
  · exact ((cuts_singleQuoted (hlexer symbol)).2.2.1 (by decide) (by decide)).2.1 _ _ rfl hname
  · exact ((cuts_singleQuoted (hlexer lone)).2.2.1 (by decide) (by decide)).2.2 hlone

end Lexer

end ScalaLexer

import ScalaLexer.Proofs.Scan.Locality
import ScalaLexer.Proofs.Scan.Spelling

/-!
# No lexeme depends on what follows it

A lexeme stays what it is where the text behind it changes, as long as the new text
goes on alike.  Three kinds of lexemes ask for a little more, which is what
`Lexeme.Fits` adds: closing quotes have to stay, and a comment or a text whose quotes
are never closed has to end where it did.

There is one lemma for each routine.  Those that are put together from local scans
are local at once.  A text between quotes is cut off by a splitter, and what has to
be known of the splitter is said in `delimited_local`.  A single quote opens a
character literal or a symbol, depending on the next three characters, and these may
lie behind the symbol: `opensCharacter_of_agrees` says why that does no harm.

The main statement is `Lexeme.scan_local`.
-/

namespace ScalaLexer

/-- The same lexeme `k` bytes further behind. -/
def Lexeme.shift (k : Nat) (lexeme : Lexeme) : Lexeme :=
  { lexeme with start := lexeme.start + k, stop := lexeme.stop + k }

/-- The error runs to the end of the source. -/
def Cause.runsToEnd : Cause → Bool
  | unterminatedString | unterminatedMultiLineString | unterminatedQuotedIdentifier => true
  | _ => false

namespace Lexeme

open Scan (LocalAt Transfer bind_eq_ok bind_of_ok)

variable {cursor after : Cursor} {lexeme : Lexeme}

/-- The text may go on with `rest'` behind the lexeme instead of `rest`: a delimiter is
closed in both if it is in one, and a lexeme that only a line feed or the end of the
source stops is stopped by both. -/
structure Fits (lexeme : Lexeme) (rest rest' : List Char) : Prop where
  closing : ∀ delimiter : Delimiter, lexeme.resume = delimiter.resume →
    delimiter.text <+: rest → delimiter.text <+: rest'
  comment : lexeme.kind = .comment → rest'.head? = rest.head?
  unterminated : lexeme.kind = .error →
    (∃ cause : Cause, cause.runsToEnd = true ∧ lexeme.value = cause.message) →
    rest = [] → rest' = []

/-- A lexeme says where it stands. -/
def transfer : Transfer Lexeme :=
  ⟨shift, Fits⟩

/-- The same text is pending at both places. -/
theorem emit_shifted {k : Nat} {cursor' : Cursor} (kind : TokenKind) (resume : Mode)
    (hshifted : cursor.Shifted k cursor') :
    emit kind resume cursor' =
      .ok (shift k ⟨kind, String.ofList cursor.pending, cursor.start, cursor.pos, resume⟩)
        cursor'.release.settle := by
  simp only [emit, shift, hshifted.start, hshifted.pos, hshifted.pending]

theorem emit_local (kind : TokenKind) (resume : Mode) :
    LocalAt transfer (emit kind resume) cursor := by
  intro _ after lexeme h
  cases h
  refine ⟨[], rfl, fun k cursor' rest' hshifted hahead _ _ => ?_⟩
  exact ⟨cursor'.release.settle, emit_shifted kind resume hshifted, hshifted.release.settle, hahead⟩

/-- An error is local where something is pending or something can be read. -/
theorem emitError_local (cause : Cause) (hahead : cursor.pos ≤ cursor.start → cursor.ahead ≠ []) :
    LocalAt transfer (emitError cause) cursor := by
  intro _ after lexeme h
  rw [emitError_eq] at h
  by_cases hidle : cursor.pos ≤ cursor.start
  · obtain ⟨c, rest, hcons⟩ := List.exists_cons_of_ne_nil (hahead hidle)
    rw [if_pos hidle, Scan.next_of_cons hcons] at h
    cases h
    refine ⟨[c], hcons, fun k cursor' rest' hshifted hahead' _ _ => ?_⟩
    have hread := hshifted.advance [c] rest rest'
    refine ⟨_, ?_, hread.release, rfl⟩
    have hidle' : cursor'.pos ≤ cursor'.start := by rw [hshifted.pos, hshifted.start]; omega
    rw [emitError_eq, if_pos hidle', Scan.next_of_cons (List.singleton_append ▸ hahead')]
    simp only [transfer, shift, hshifted.start, hread.pos]
  · rw [if_neg hidle] at h
    cases h
    refine ⟨[], rfl, fun k cursor' rest' hshifted hahead' _ _ => ?_⟩
    refine ⟨_, ?_, hshifted.release, hahead'⟩
    have hidle' : ¬ cursor'.pos ≤ cursor'.start := by rw [hshifted.pos, hshifted.start]; omega
    rw [emitError_eq, if_neg hidle']
    simp only [transfer, shift, hshifted.start, hshifted.pos]

/-- An error at the end of the source. -/
theorem emitError_of_nil {cause : Cause} (h : emitError cause cursor = .ok lexeme after)
    (hnil : cursor.ahead = []) (hvalid : cursor.malformed = none) :
    lexeme.value = cause.message ∧ lexeme.kind = .error ∧ after.ahead = [] ∧
      ∀ k cursor', cursor.Shifted k cursor' → cursor'.ahead = [] →
        ∃ after', emitError cause cursor' = .ok (lexeme.shift k) after' ∧ after.Shifted k after' ∧
          after'.ahead = [] := by
  rw [emitError_eq] at h
  by_cases hidle : cursor.pos ≤ cursor.start
  · rw [if_pos hidle, Scan.next_of_nil hvalid hnil] at h
    cases h
    refine ⟨rfl, rfl, hnil, fun k cursor' hshifted hnil' => ?_⟩
    refine ⟨_, ?_, hshifted.settle.release, hnil'⟩
    have hidle' : cursor'.pos ≤ cursor'.start := by rw [hshifted.pos, hshifted.start]; omega
    rw [emitError_eq, if_pos hidle', Scan.next_of_nil hshifted.valid' hnil']
    simp only [shift, hshifted.start, hshifted.settle.pos]
  · rw [if_neg hidle] at h
    cases h
    refine ⟨rfl, rfl, hnil, fun k cursor' hshifted hnil' => ?_⟩
    refine ⟨_, ?_, hshifted.release, hnil'⟩
    have hidle' : ¬ cursor'.pos ≤ cursor'.start := by rw [hshifted.pos, hshifted.start]; omega
    rw [emitError_eq, if_neg hidle']
    simp only [shift, hshifted.start, hshifted.pos]

/-- Behind a plain scan something is pending or something can be read. -/
theorem ahead_ne_nil_of_reads {run : List Char} (hidle : cursor.Idle) (hne : cursor.ahead ≠ [])
    (hreads : cursor.Reads run after) : after.pos ≤ after.start → after.ahead ≠ [] := by
  intro hpos hnil
  rw [hreads.pos, hreads.start, hidle.start] at hpos
  obtain rfl : run = [] := Utf8.eq_nil_of_byteLength (by omega)
  rw [hreads.ahead, hnil] at hne
  exact hne rfl

/-! ## Words and symbols -/

section

variable [Unicode.Repertoire]

theorem operatorSuffix_local : LocalAt .same operatorSuffix cursor := by
  refine .get (fun cursor' hpending => by rw [hpending]) (.ite (fun _ => ?_) fun _ => .pure ())
  exact .readWhile spaceless_isOperator

theorem plainIdentifier_local : LocalAt .same plainIdentifier cursor := by
  refine LocalAt.ite_peek spaceless_isOperator (fun _ => .readWhile spaceless_isOperator)
    (fun _ _ _ => .pure true) (fun _ between hhead hread => ?_) ?_
  · obtain ⟨c, hc, hmember⟩ := (Option.any_eq_true ..).mp hhead
    obtain ⟨rest, hahead⟩ := List.head?_eq_some_iff.mp hc
    have hlength := congrArg List.length (Scan.readWhile_eq_ok hread).ahead
    rw [hahead, List.takeWhile_cons_of_pos hmember] at hlength
    rw [hahead]
    simp only [List.length_append, List.length_cons] at hlength ⊢
    omega
  · refine .bind (.accept spaceless_isLetter) fun _ _ _ => .ite (fun _ => ?_) fun _ => .pure false
    exact .bind (.readWhile spaceless_isLetterOrDigit) fun _ _ _ =>
      .bind operatorSuffix_local fun _ _ _ => .pure true

theorem word_local (hidle : cursor.Idle) (hne : cursor.ahead ≠ []) :
    LocalAt transfer word cursor := by
  refine .bind plainIdentifier_local fun _ between hplain => .ite
    (fun _ => .bind .pending fun _ _ _ => emit_local _ _)
    (fun _ => .bind .pending fun _ last hpending => ?_)
  cases hpending
  obtain ⟨run, hreads⟩ := plainIdentifier_plain.reads hplain
  exact emitError_local _ (ahead_ne_nil_of_reads hidle hne hreads)

end

theorem ofNumber_local {run : List Char} (wellFormed : Bool) (hidle : cursor.Idle)
    (hne : cursor.ahead ≠ []) (hreads : cursor.Reads run after) :
    LocalAt transfer (ofNumber wellFormed) after := by
  refine .ite (fun _ => emit_local _ _) fun _ => .bind .pending fun _ last hpending => ?_
  cases hpending
  exact emitError_local _ (ahead_ne_nil_of_reads hidle hne hreads)

theorem number_local (hidle : cursor.Idle) (hne : cursor.ahead ≠ []) :
    LocalAt transfer (do ofNumber (← Literal.number)) cursor := by
  refine .bind Literal.number_local fun wellFormed between hnumber => ?_
  obtain ⟨run, hreads⟩ := Literal.number_plain.reads hnumber
  exact ofNumber_local wellFormed hidle hne hreads

theorem dot_local (hidle : cursor.Idle) (hne : cursor.ahead ≠ []) :
    LocalAt transfer dot cursor := by
  refine .bind (.next_of_ne_nil hne) fun _ between hnext => ?_
  obtain ⟨run, hreads⟩ := Scan.Plain.next.reads hnext
  refine LocalAt.ite_peek spaceless_isDigit (fun _ => Literal.fraction_local)
    (fun wellFormed last hfraction => ?_) (fun _ _ => Literal.fraction_shorter) (emit_local _ _)
  obtain ⟨more, hmore⟩ := Literal.fraction_plain.reads hfraction
  exact ofNumber_local wellFormed hidle hne (hreads.trans hmore)

theorem semicolon_local (hne : cursor.ahead ≠ []) :
    LocalAt transfer (do let _ ← Scan.next; emit .semicolon .start) cursor :=
  .bind (.next_of_ne_nil hne) fun _ _ _ => emit_local _ _

section

variable [Unicode.Repertoire]

theorem operator_of_some {c : Char} {entry : String}
    (hentry : reservedOperator? cursor.ahead = some entry) :
    operator c cursor = (do Scan.readExactly entry.length; emit .operator .start) cursor := by
  rw [operator, bind_of_ok (rfl : (get : Scan Cursor) cursor = .ok cursor cursor)]
  simp only [hentry]

theorem operator_of_none {c : Char} (hnone : reservedOperator? cursor.ahead = none) :
    operator c cursor =
      (if isOperator c then (do Scan.readWhile isOperator; emit .identifier .start)
        else emitError (.unknownLexeme (String.singleton c)) : Scan Lexeme) cursor := by
  rw [operator, bind_of_ok (rfl : (get : Scan Cursor) cursor = .ok cursor cursor)]
  simp only [hnone]

theorem operator_local {c : Char} (hne : cursor.ahead ≠ []) :
    LocalAt transfer (operator c) cursor := by
  cases hentry : reservedOperator? cursor.ahead with
  | some entry =>
      obtain ⟨_, rest, hrest⟩ := mem_of_reservedOperator? hentry
      have hread : LocalAt .same (Scan.readExactly entry.length) cursor :=
        .readExactly (by rw [← hrest, List.length_append, String.length_toList]; omega)
      refine (hread.bind fun _ _ _ => emit_local _ _).congr (fun _ => operator_of_some hentry) ?_
      intro after lexeme h run hrun k cursor' rest' _ hahead hagrees _
      obtain rfl : run = entry.toList := by
        rw [operator_of_some hentry] at h
        obtain ⟨_, between, hread, hemit⟩ := bind_eq_ok.mp h
        cases hread
        cases hemit
        have htake := List.append_cancel_right (hrun.symm.trans
          (List.take_append_drop entry.length cursor.ahead).symm)
        rw [htake, ← hrest, ← String.length_toList, List.take_left]
      refine operator_of_some ?_
      rw [hahead]
      exact hagrees.reservedOperator?_eq_some (hrun ▸ hentry)
  | none =>
      have hrest : LocalAt transfer (if isOperator c then
          (do Scan.readWhile isOperator; emit .identifier .start)
          else emitError (.unknownLexeme (String.singleton c))) cursor :=
        .ite (fun _ => .bind (.readWhile spaceless_isOperator) fun _ _ _ => emit_local _ _)
          fun _ => emitError_local _ fun _ => hne
      refine hrest.congr (fun _ => operator_of_none hentry) ?_
      intro after lexeme _ run hrun k cursor' rest' _ hahead hagrees _
      refine operator_of_none ?_
      rw [hahead]
      exact (hagrees.append_left run).reservedOperator?_eq_none (hrun ▸ hentry)

end

/-! ## Comments and quoted texts -/

theorem lineComment_local : LocalAt transfer lineComment cursor := by
  intro hvalid after lexeme h
  have hread := Scan.readWhile_of_valid hvalid (· ≠ '\n')
  rw [lineComment, bind_of_ok hread] at h
  cases h
  refine ⟨_, List.takeWhile_append_dropWhile.symm, ?_⟩
  intro k cursor' rest' hshifted hahead _ hfits
  -- the next line feed stands where it did
  have hstop := head?_dropWhile_eq_false (· ≠ '\n') cursor.ahead
  have hread' := Scan.readWhile_of_valid hshifted.valid' (· ≠ '\n')
  have htake : cursor'.ahead.takeWhile (· ≠ '\n') = cursor.ahead.takeWhile (· ≠ '\n') := by
    rw [hahead]
    refine takeWhile_append_of_stop (fun _ => List.mem_takeWhile_imp) ?_
    rw [hfits.comment rfl]
    exact hstop
  have hdrop : cursor'.ahead.dropWhile (· ≠ '\n') = rest' := by
    have hall : cursor.ahead.takeWhile (· ≠ '\n') ++ cursor'.ahead.dropWhile (· ≠ '\n') =
        cursor.ahead.takeWhile (· ≠ '\n') ++ rest' := by
      rw [← hahead, ← htake, List.takeWhile_append_dropWhile]
    exact List.append_cancel_left hall
  rw [htake, hdrop] at hread'
  have hafter := (hshifted.advance (cursor.ahead.takeWhile (· ≠ '\n'))
    (cursor.ahead.dropWhile (· ≠ '\n')) rest').settle
  exact ⟨_, (bind_of_ok hread').trans (emit_shifted .comment .start hafter),
    hafter.release.settle, rfl⟩

theorem lineComment_run {run : List Char} (hrun : cursor.ahead = run ++ after.ahead)
    (h : lineComment cursor = .ok lexeme after) : run = cursor.ahead.takeWhile (· ≠ '\n') := by
  obtain ⟨_, between, hread, hemit⟩ := bind_eq_ok.mp h
  have hreads := Scan.readWhile_eq_ok hread
  cases hemit
  exact List.append_cancel_right (hrun.symm.trans hreads.ahead)

/-- What the three texts between quotes have in common: the routine reads up to the closing
quotes, as `cut` does, and without these up to the end of the source. -/
def Delimited (routine : Scan Lexeme) (cut : List Char → List Char × List Char)
    (delimiter : Delimiter) (kind : TokenKind) (cause : Cause) : Prop :=
  ∀ cursor : Cursor, cursor.malformed = none →
    routine cursor =
      (if delimiter.text.isPrefixOf (cut cursor.ahead).2 then emit kind delimiter.resume
        else emitError cause)
      (cursor.advance (cut cursor.ahead).1 (cut cursor.ahead).2).settle

theorem delimited_local {cut : List Char → List Char × List Char} {routine : Scan Lexeme}
    {delimiter : Delimiter} {kind : TokenKind} {cause : Cause}
    (hroutine : Delimited routine cut delimiter kind cause) (hcause : cause.runsToEnd = true)
    (happend : ∀ text, (cut text).1 ++ (cut text).2 = text)
    (hrest : ∀ text, (cut text).2 = [] ∨ delimiter.text <+: (cut text).2)
    (hstable : ∀ text more, delimiter.text <+: (cut text).2 → delimiter.text <+: more →
      cut ((cut text).1 ++ more) = ((cut text).1, more)) :
    LocalAt transfer routine cursor := by
  intro hvalid after lexeme h
  rw [hroutine cursor hvalid] at h
  split at h
  · next hclosing =>
      have hopen := List.isPrefixOf_iff_prefix.mp hclosing
      cases h
      refine ⟨_, (happend cursor.ahead).symm, fun k cursor' rest' hshifted hahead _ hfits => ?_⟩
      have hopen' := hfits.closing delimiter rfl hopen
      have hcut := hstable cursor.ahead rest' hopen hopen'
      rw [← hahead] at hcut
      have hread := (hshifted.advance (cut cursor.ahead).1 (cut cursor.ahead).2 rest').settle
      refine ⟨_, ?_, hread.release.settle, rfl⟩
      rw [hroutine cursor' hshifted.valid', hcut, if_pos (List.isPrefixOf_iff_prefix.mpr hopen')]
      exact emit_shifted kind delimiter.resume hread
  · next hclosing =>
      have hnil : (cut cursor.ahead).2 = [] := (hrest cursor.ahead).resolve_right fun hprefix =>
        hclosing (List.isPrefixOf_iff_prefix.mpr hprefix)
      have hall := happend cursor.ahead
      rw [hnil] at h hall
      obtain ⟨hvalue, hkind, hafter, herror⟩ := emitError_of_nil h rfl hvalid
      refine ⟨(cut cursor.ahead).1, by rw [hafter, hall], ?_⟩
      intro k cursor' rest' hshifted hahead _ hfits
      obtain rfl := hfits.unterminated hkind ⟨cause, hcause, hvalue⟩ hafter
      have hsame : cut cursor'.ahead = cut cursor.ahead := by rw [hahead, hall]
      rw [hroutine cursor' hshifted.valid', hsame, hnil, if_neg (by rwa [hnil] at hclosing)]
      exact herror k _ (hshifted.advance _ _ _).settle rfl

/-- Looking at the next character tells whether a delimiter of one character is
closed. -/
private theorem getElem?_zero_eq_some_iff {c : Char} {text : List Char} :
    text[0]? = some c ↔ [c].isPrefixOf text = true := by
  cases text with
  | nil => simp
  | cons first text =>
      rw [List.isPrefixOf_iff_prefix, List.cons_prefix_cons, List.getElem?_cons_zero]
      exact ⟨fun h => ⟨(Option.some.inj h).symm, List.nil_prefix⟩, fun h => congrArg some h.1.symm⟩

/-- The same as a scan. -/
private theorem ite_peek_of_valid {c : Char} {yes no : Scan Lexeme}
    (hvalid : cursor.malformed = none) :
    (do if (← Scan.peek 0) = some c then yes else no) cursor =
      (if [c].isPrefixOf cursor.ahead then yes else no) cursor := by
  rw [bind_of_ok (Scan.peek_of_valid hvalid 0)]
  simp only [getElem?_zero_eq_some_iff]

theorem string_delimited :
    Delimited string Literal.splitEscaped .doubleQuote .string .unterminatedString :=
  fun _ hvalid => (bind_of_ok (Scan.readPart_of_valid hvalid _)).trans (ite_peek_of_valid hvalid)

theorem string_local : LocalAt transfer string cursor := by
  refine delimited_local string_delimited rfl Literal.splitEscaped_append (fun text => ?_)
    fun text more => ?_
  · rcases Literal.splitEscaped_rest text with hnil | ⟨more, hquote⟩
    · exact .inl hnil
    · exact .inr ⟨more, hquote.symm⟩
  · rintro ⟨rest, hrest⟩ ⟨rest', rfl⟩
    exact Literal.splitEscaped_of_quote hrest.symm rest'

theorem multiLineString_delimited :
    Delimited multiLineString Literal.splitTripleQuoted .tripleQuote .string
      .unterminatedMultiLineString :=
  fun _ hvalid => bind_of_ok (Scan.readPart_of_valid hvalid _)

theorem multiLineString_local : LocalAt transfer multiLineString cursor := by
  refine delimited_local multiLineString_delimited rfl Literal.splitTripleQuoted_append
    Literal.splitTripleQuoted_rest fun text more => ?_
  rintro ⟨rest, hrest⟩ ⟨rest', rfl⟩
  exact Literal.splitTripleQuoted_of_quotes hrest.symm rest'

theorem quotedIdentifier_delimited :
    Delimited quotedIdentifier (List.span (· ≠ '\x60')) .backquote .identifier
      .unterminatedQuotedIdentifier :=
  fun _ hvalid => (bind_of_ok (Scan.readPart_of_valid hvalid _)).trans (ite_peek_of_valid hvalid)

theorem quotedIdentifier_local : LocalAt transfer quotedIdentifier cursor := by
  refine delimited_local quotedIdentifier_delimited rfl (Scan.span_append _) (fun text => ?_)
    fun text more _ hclosing => ?_
  · rw [List.span_eq_takeWhile_dropWhile]
    cases hrest : text.dropWhile (· ≠ '\x60') with
    | nil => exact .inl rfl
    | cons c rest =>
        have hc := head?_dropWhile_eq_false (· ≠ '\x60') text c (by rw [hrest]; rfl)
        obtain rfl : c = '\x60' := by simpa using hc
        exact .inr ⟨rest, rfl⟩
  · obtain ⟨rest, rfl⟩ := hclosing
    rw [List.span_eq_takeWhile_dropWhile, List.span_eq_takeWhile_dropWhile]
    exact Prod.ext
      (takeWhile_append_of_stop (fun _ => List.mem_takeWhile_imp) (by rintro _ ⟨⟩; rfl))
      (by rw [List.dropWhile_append_of_pos fun _ => List.mem_takeWhile_imp]; rfl)

/-! ## Character literals and symbols -/

/-- A character literal opens here, as `atCharacter` sees it. -/
def opensCharacter (text : List Char) : Bool :=
  text[2]? = some '\x27' || text[1]? = some '\\' && text[3]? = some '\x27'

theorem atCharacter_of_valid (hvalid : cursor.malformed = none) :
    atCharacter cursor = .ok (opensCharacter cursor.ahead) cursor := by
  rw [atCharacter, bind_of_ok (Scan.peek_of_valid hvalid 2), opensCharacter]
  split
  · next hquote => simp [hquote, pure, EStateM.pure]
  · next hquote =>
      rw [bind_of_ok (Scan.peek_of_valid hvalid 1)]
      split
      · next hbackslash =>
          rw [bind_of_ok (Scan.peek_of_valid hvalid 3)]
          simp [hquote, hbackslash, pure, EStateM.pure]
      · next hbackslash => simp [hquote, hbackslash, pure, EStateM.pure]

/-- The end of a character literal. -/
def closeCharacter : Scan Lexeme := do
  if (← Scan.peek 0) = some '\x27' then emit .character .closingQuote
  else emitError (.unterminatedCharacter (← Scan.pending))

theorem closeCharacter_of_quote (hvalid : cursor.malformed = none)
    (hquote : ['\x27'] <+: cursor.ahead) :
    closeCharacter cursor = emit .character .closingQuote cursor := by
  rw [closeCharacter, ite_peek_of_valid hvalid, if_pos (List.isPrefixOf_iff_prefix.mpr hquote)]

theorem closeCharacter_of_no_quote (hvalid : cursor.malformed = none)
    (hquote : ¬ ['\x27'] <+: cursor.ahead) :
    closeCharacter cursor =
      (do emitError (.unterminatedCharacter (← Scan.pending)) : Scan Lexeme) cursor := by
  rw [closeCharacter, ite_peek_of_valid hvalid,
    if_neg fun hlook => hquote (List.isPrefixOf_iff_prefix.mp hlook)]

private theorem closeCharacter_eq_ok (hvalid : cursor.malformed = none)
    (hbegun : cursor.start < cursor.pos) (h : closeCharacter cursor = .ok lexeme after) :
    after.ahead = cursor.ahead ∧ (['\x27'] <+: cursor.ahead → lexeme.resume = .closingQuote) := by
  by_cases hquote : ['\x27'] <+: cursor.ahead
  · rw [closeCharacter_of_quote hvalid hquote] at h
    cases h
    exact ⟨rfl, fun _ => rfl⟩
  · rw [closeCharacter_of_no_quote hvalid hquote] at h
    obtain ⟨_, _, hpending, herror⟩ := bind_eq_ok.mp h
    cases hpending
    rw [emitError_eq, if_neg (by omega)] at herror
    cases herror
    exact ⟨rfl, fun hquote' => absurd hquote' hquote⟩

private theorem closeCharacter_local (hbegun : cursor.start < cursor.pos) :
    LocalAt transfer closeCharacter cursor := by
  by_cases hquote : ['\x27'] <+: cursor.ahead
  · refine (emit_local .character .closingQuote).congr
      (fun hvalid => closeCharacter_of_quote hvalid hquote) ?_
    intro after lexeme h run hrun k cursor' rest' hshifted hahead _ hfits
    obtain ⟨hafter, hresume⟩ := closeCharacter_eq_ok hshifted.valid hbegun h
    rw [hafter] at hrun
    obtain rfl : run = [] := List.self_eq_append_left.mp hrun
    have hquote' := hfits.closing .singleQuote (hresume hquote) (hafter ▸ hquote)
    exact closeCharacter_of_quote hshifted.valid' (hahead ▸ hquote')
  · have herror : LocalAt transfer
        (do emitError (.unterminatedCharacter (← Scan.pending))) cursor := by
      refine .bind .pending fun _ _ hpending => ?_
      cases hpending
      exact emitError_local _ fun hidle => by omega
    refine herror.congr (fun hvalid => closeCharacter_of_no_quote hvalid hquote) ?_
    intro after lexeme _ run hrun k cursor' rest' hshifted hahead hagrees _
    refine closeCharacter_of_no_quote hshifted.valid' fun hquote' => hquote ?_
    rw [hrun]
    rw [hahead] at hquote'
    exact (hagrees.append_left run).isPrefix (by decide) hquote'

/-- A character literal behind its opening quote: what is read, and what is left when
it is time for the closing one. -/
theorem character_eq {c d : Char} {rest : List Char} (hvalid : cursor.malformed = none)
    (hidle : cursor.Idle) (hahead : cursor.ahead = c :: d :: rest) :
    ∃ place run, character cursor = closeCharacter place ∧ cursor.Reads run place ∧
      place.malformed = none ∧ place.start < place.pos ∧
      (c = '\\' ∧ run = [c, d] ∨ c ≠ '\\' ∧ run = [c]) := by
  have hmalformed {run more : List Char} : (cursor.advance run more).malformed = none := hvalid
  have hsize := c.utf8Size_pos
  by_cases hescape : c = '\\'
  · have haccept : Scan.accept (· = '\\') cursor = .ok true (cursor.advance [c] (d :: rest)) :=
      Scan.accept_of_member hahead (by simpa using hescape)
    have hfirst : cursor.Reads [c] (cursor.advance [c] (d :: rest)) := .of_advance hahead
    have hsecond : (cursor.advance [c] (d :: rest)).Reads [d]
        ((cursor.advance [c] (d :: rest)).advance [d] rest) := .of_advance rfl
    refine ⟨_, _, (bind_of_ok haccept).trans (bind_of_ok (Scan.next_of_cons rfl)),
      hfirst.trans hsecond, hvalid, ?_, .inl ⟨hescape, rfl⟩⟩
    rw [(hfirst.trans hsecond).pos, (hfirst.trans hsecond).start, hidle.start]
    simp only [Utf8.byteLength_cons, List.cons_append]
    omega
  · have haccept : Scan.accept (· = '\\') cursor = .ok false cursor.settle :=
      Scan.accept_of_stop hvalid (by rw [hahead]; rintro _ ⟨⟩; simpa using hescape)
    have hread : cursor.settle.Reads [c] (cursor.settle.advance [c] (d :: rest)) :=
      .of_advance hahead
    have hreads := (Cursor.Reads.of_settle cursor).trans hread
    refine ⟨_, _, (bind_of_ok haccept).trans (bind_of_ok (Scan.next_of_cons hahead)),
      hreads, hvalid, ?_, .inr ⟨hescape, rfl⟩⟩
    rw [hreads.pos, hreads.start, hidle.start]
    simp only [Utf8.byteLength_cons, List.nil_append]
    omega

theorem opensCharacter_cons {c : Char} {text : List Char} (h : opensCharacter (c :: text) = true) :
    ∃ first second rest, text = first :: second :: rest ∧
      (second = '\x27' ∨ first = '\\' ∧ ['\x27'] <+: rest) := by
  rcases text with _ | ⟨first, _ | ⟨second, rest⟩⟩
  · cases h
  · simp [opensCharacter] at h
  · refine ⟨first, second, rest, rfl, ?_⟩
    simp only [opensCharacter, List.getElem?_cons_succ, List.getElem?_cons_zero, Option.some.injEq,
      Bool.or_eq_true, Bool.and_eq_true, decide_eq_true_eq] at h
    refine h.imp id fun hescape => ⟨hescape.1, ?_⟩
    exact List.isPrefixOf_iff_prefix.mp (getElem?_zero_eq_some_iff.mp hescape.2)

/-- A character literal is one in front of every text that keeps its closing quote. -/
private theorem skip_character_local {rest : List Char} (hahead : cursor.ahead = '\x27' :: rest)
    (hopens : opensCharacter cursor.ahead = true) (hvalid : cursor.malformed = none)
    (h : (do Scan.skip; character) cursor = .ok lexeme after) :
    ∃ run, cursor.ahead = run ++ after.ahead ∧
      ∀ rest', Fits lexeme after.ahead rest' → opensCharacter (run ++ rest') = true := by
  rw [hahead] at hopens
  obtain ⟨first, second, more, rfl, hcases⟩ := opensCharacter_cons hopens
  have hskip : Scan.skip cursor =
      .ok () (cursor.advance ['\x27'] (first :: second :: more)).release :=
    bind_of_ok (Scan.next_of_cons hahead)
  have hinner : (cursor.advance ['\x27'] (first :: second :: more)).release.malformed = none :=
    hvalid
  obtain ⟨place, run, hcharacter, hreads, hplace, hbegun, hrun⟩ :=
    character_eq hinner ⟨rfl, rfl⟩ rfl
  rw [bind_of_ok hskip, hcharacter] at h
  obtain ⟨hafter, hresume⟩ := closeCharacter_eq_ok hplace hbegun h
  have hplaceAhead : first :: second :: more = run ++ place.ahead := hreads.ahead
  rw [← hafter] at hresume hplaceAhead
  refine ⟨'\x27' :: run, by rw [hahead, hplaceAhead]; rfl, fun rest' hfits => ?_⟩
  rcases hrun with ⟨rfl, rfl⟩ | ⟨hescape, rfl⟩
  · rcases hcases with rfl | ⟨_, hquote⟩
    · rfl
    · obtain rfl : more = after.ahead := by simpa using hplaceAhead
      obtain ⟨more', rfl⟩ := hfits.closing .singleQuote (hresume hquote) hquote
      simp [opensCharacter, Delimiter.text]
  · have hbehind : second :: more = after.ahead := by simpa using hplaceAhead
    rcases hcases with rfl | ⟨hbackslash, _⟩
    · have hquote : ['\x27'] <+: after.ahead := ⟨more, hbehind⟩
      obtain ⟨more', rfl⟩ := hfits.closing .singleQuote (hresume hquote) hquote
      simp [opensCharacter, Delimiter.text]
    · exact absurd hbackslash hescape

/-- A run of operator characters is read to its end; a word begins with a letter. -/
private theorem plainIdentifier_stops [Unicode.Repertoire] {run : List Char} {found : Bool}
    (hreads : cursor.Reads run after) (h : plainIdentifier cursor = .ok found after) :
    (∀ c ∈ after.ahead.head?, isOperator c = false) ∨ ∃ c ∈ run.head?, isLetter c = true := by
  have hrun {more : List Char} (hmore : cursor.Reads more after) : run = more :=
    List.append_cancel_right (hreads.ahead.symm.trans hmore.ahead)
  obtain ⟨c?, _, hpeek, h⟩ := bind_eq_ok.mp h
  obtain ⟨rfl, hc, _⟩ := Scan.peek_eq_ok hpeek
  rw [← List.head?_eq_getElem?] at hc
  subst hc
  split at h
  · obtain ⟨_, between, hread, hpure⟩ := bind_eq_ok.mp h
    obtain ⟨_, rfl⟩ := Scan.pure_eq_ok.mp hpure
    have hdrop := Scan.ahead_of_readPart hread
    rw [List.span_eq_takeWhile_dropWhile] at hdrop
    rw [hdrop]
    exact .inl (head?_dropWhile_eq_false isOperator _)
  · next hoperator =>
      obtain ⟨accepted, between, haccept, h⟩ := bind_eq_ok.mp h
      rcases Scan.accept_eq_ok haccept with ⟨rfl, c, hletter, hfirst⟩ | ⟨rfl, _, hfirst⟩
      · obtain ⟨_, middle, hread, h⟩ := bind_eq_ok.mp h
        obtain ⟨_, last, hsuffix, hpure⟩ := bind_eq_ok.mp h
        obtain ⟨_, rfl⟩ := Scan.pure_eq_ok.mp hpure
        obtain ⟨more, hmore⟩ := operatorSuffix_plain.reads hsuffix
        rw [hrun ((hfirst.trans (Scan.readWhile_eq_ok hread)).trans hmore)]
        exact .inr ⟨c, rfl, hletter⟩
      · obtain ⟨_, rfl⟩ := Scan.pure_eq_ok.mp h
        have hsame : between.ahead = _ := hfirst.ahead.symm
        rw [hsame]
        exact .inl (any_head?_eq_false.mp (Bool.eq_false_iff.mpr hoperator))

variable [Unicode.Repertoire]

/-- What follows a symbol does not turn it into a character literal. -/
theorem opensCharacter_of_agrees {run rest rest' : List Char} (hagrees : Agrees rest rest')
    (hstop : (∀ c ∈ rest.head?, isOperator c = false) ∨ ∃ c ∈ run.head?, isLetter c = true)
    (hopens : opensCharacter ('\x27' :: run ++ rest') = true) :
    opensCharacter ('\x27' :: run ++ rest) = true := by
  have hslash : isOperator '/' = true := rfl
  have hquote {text text' : List Char} (h : Agrees text text') (hhead : text'[0]? = some '\x27') :
      text[0]? = some '\x27' := by
    have hprefix := List.isPrefixOf_iff_prefix.mp (getElem?_zero_eq_some_iff.mp hhead)
    exact getElem?_zero_eq_some_iff.mpr
      (List.isPrefixOf_iff_prefix.mpr (h.isPrefix (by decide) hprefix))
  simp only [opensCharacter, List.cons_append, List.getElem?_cons_succ, Bool.or_eq_true,
    Bool.and_eq_true, decide_eq_true_eq] at hopens ⊢
  cases run with
  | nil =>
      have hstop := hstop.resolve_right nofun
      rw [List.nil_append] at hopens ⊢
      rcases hopens with hsecond | ⟨hbackslash, _⟩
      · refine .inl ((hagrees.quote_behind_head hsecond).resolve_right fun hhead => ?_)
        rw [hstop _ hhead] at hslash
        cases hslash
      · -- a backslash would have been read
        have hprefix : ['\\'] <+: rest' :=
          List.isPrefixOf_iff_prefix.mp (getElem?_zero_eq_some_iff.mp hbackslash)
        obtain ⟨more, rfl⟩ := hagrees.isPrefix (by decide) hprefix
        have hbackslash : isOperator '\\' = true := rfl
        exact absurd ((hstop _ rfl).symm.trans hbackslash) Bool.false_ne_true
  | cons first run =>
      rw [List.cons_append, List.getElem?_cons_succ, List.getElem?_cons_succ,
        List.getElem?_cons_zero] at hopens ⊢
      rcases hopens with hsecond | ⟨hbackslash, hthird⟩
      · exact .inl (hquote (hagrees.append_left run) hsecond)
      · refine .inr ⟨hbackslash, ?_⟩
        cases run with
        | nil =>
            refine (hagrees.quote_behind_head hthird).resolve_right fun hhead => ?_
            rcases hstop with hstop | ⟨c, hc, hletter⟩
            · rw [hstop _ hhead] at hslash
              cases hslash
            · obtain rfl : c = '\\' := Option.some.inj (Eq.symm hc |>.trans hbackslash)
              exact absurd hletter (by decide)
        | cons second run => exact hquote (hagrees.append_left run) hthird

theorem symbol_local {run : List Char} (hidle : cursor.Idle) (hne : cursor.ahead ≠ [])
    (hreads : cursor.Reads run after) : LocalAt transfer symbol after := by
  refine .bind plainIdentifier_local fun _ between hplain => .ite (fun _ => emit_local _ _)
    fun _ => .bind .pending fun _ last hpending => ?_
  cases hpending
  obtain ⟨more, hmore⟩ := plainIdentifier_plain.reads hplain
  exact emitError_local _ (ahead_ne_nil_of_reads hidle hne (hreads.trans hmore))

/-- Behind its quote a symbol is what a plain identifier would be. -/
private theorem symbol_eq_ok (hbegun : cursor.start < cursor.pos)
    (h : symbol cursor = .ok lexeme after) :
    ∃ run between found, plainIdentifier cursor = .ok found between ∧ cursor.Reads run between ∧
      after.ahead = between.ahead := by
  obtain ⟨found, between, hplain, hend⟩ := bind_eq_ok.mp h
  obtain ⟨run, hreads⟩ := plainIdentifier_plain.reads hplain
  refine ⟨run, between, found, hplain, hreads, ?_⟩
  split at hend
  · cases hend
    rfl
  · obtain ⟨_, _, hpending, herror⟩ := bind_eq_ok.mp hend
    cases hpending
    rw [emitError_eq, if_neg (by rw [hreads.pos, hreads.start]; omega)] at herror
    cases herror
    rfl

omit [Unicode.Repertoire] in
theorem character_local {c d : Char} {rest : List Char} (hidle : cursor.Idle)
    (hahead : cursor.ahead = c :: d :: rest) : LocalAt transfer character cursor := by
  have hescape : Spaceless (· = '\\') := spaceless_of_any (by decide)
  refine .bind (.accept hescape) fun _ between haccept => ?_
  obtain ⟨run, hrun, hlength⟩ : ∃ run, cursor.Reads run between ∧ run.length ≤ 1 := by
    rcases Scan.accept_eq_ok haccept with ⟨_, first, _, hreads⟩ | ⟨_, _, hreads⟩
    · exact ⟨_, hreads, Nat.le_refl 1⟩
    · exact ⟨_, hreads, Nat.zero_le 1⟩
  have hall := congrArg List.length (hahead.symm.trans hrun.ahead)
  simp only [List.length_cons, List.length_append] at hall
  obtain ⟨next, more, hnext⟩ := List.exists_cons_of_length_pos (l := between.ahead) (by omega)
  refine .bind (.next_of_ne_nil (by rw [hnext]; exact nofun)) fun _ last hread => ?_
  have hreads := hrun.trans (Scan.next_eq_ok hnext hread).2
  refine closeCharacter_local ?_
  have hsize := next.utf8Size_pos
  rw [hreads.pos, hreads.start, hidle.start, Utf8.byteLength_append, Utf8.byteLength_cons]
  omega

theorem singleQuoted_of_opens (hvalid : cursor.malformed = none)
    (hopens : opensCharacter cursor.ahead = true) :
    singleQuoted cursor = (do Scan.skip; character : Scan Lexeme) cursor := by
  rw [singleQuoted, bind_of_ok (atCharacter_of_valid hvalid), hopens, if_pos rfl]

theorem singleQuoted_of_not_opens (hvalid : cursor.malformed = none)
    (hopens : opensCharacter cursor.ahead = false) :
    singleQuoted cursor = (do let _ ← Scan.next; symbol : Scan Lexeme) cursor := by
  rw [singleQuoted, bind_of_ok (atCharacter_of_valid hvalid), hopens, if_neg nofun]

theorem singleQuoted_local {rest : List Char} (hidle : cursor.Idle)
    (hahead : cursor.ahead = '\x27' :: rest) : LocalAt transfer singleQuoted cursor := by
  have hne : cursor.ahead ≠ [] := by rw [hahead]; exact nofun
  cases hopens : opensCharacter cursor.ahead with
  | true =>
      obtain ⟨first, second, more, hrest, _⟩ := opensCharacter_cons (hahead ▸ hopens)
      have hcharacter : LocalAt transfer (do Scan.skip; character) cursor := by
        refine .bind (.skip_of_ne_nil hne) fun _ inner hskip => ?_
        have hdrops := Scan.skip_cons_eq_ok hahead hskip
        have hinner : inner.ahead = first :: second :: more :=
          hrest ▸ (List.cons.inj (hdrops.ahead.symm.trans hahead)).2
        exact character_local hdrops.idle hinner
      refine hcharacter.congr (fun hvalid => singleQuoted_of_opens hvalid hopens) ?_
      intro after lexeme h read hread k cursor' rest' hshifted hahead' _ hfits
      rw [singleQuoted_of_opens hshifted.valid hopens] at h
      obtain ⟨run, hrun, hwindow⟩ := skip_character_local hahead hopens hshifted.valid h
      obtain rfl : read = run := List.append_cancel_right (hread.symm.trans hrun)
      exact singleQuoted_of_opens hshifted.valid' (hahead' ▸ hwindow rest' hfits)
  | false =>
      have hsymbol : LocalAt transfer (do let _ ← Scan.next; symbol) cursor :=
        .bind (.next_of_ne_nil hne) fun _ between hnext =>
          symbol_local hidle hne (Scan.next_eq_ok hahead hnext).2
      refine hsymbol.congr (fun hvalid => singleQuoted_of_not_opens hvalid hopens) ?_
      intro after lexeme h read hread k cursor' rest' hshifted hahead' hagrees _
      rw [singleQuoted_of_not_opens hshifted.valid hopens] at h
      obtain ⟨_, inner, hnext, hsymbol⟩ := bind_eq_ok.mp h
      have hquote := (Scan.next_eq_ok hahead hnext).2
      have hbegun : inner.start < inner.pos := by
        rw [hquote.pos, hquote.start, hidle.start]
        exact Nat.lt_add_of_pos_right (by decide)
      obtain ⟨run, between, found, hplain, hreads, hafter⟩ := symbol_eq_ok hbegun hsymbol
      have hstop := plainIdentifier_stops hreads hplain
      have hrun : cursor.ahead = '\x27' :: run ++ after.ahead := by
        rw [(hquote.trans hreads).ahead, hafter]
        rfl
      obtain rfl : read = '\x27' :: run := List.append_cancel_right (hread.symm.trans hrun)
      refine singleQuoted_of_not_opens hshifted.valid' ?_
      rw [Bool.eq_false_iff, hahead']
      intro hopens'
      have hold := opensCharacter_of_agrees hagrees (hafter ▸ hstop) hopens'
      rw [← hrun, hopens] at hold
      cases hold

/-! ## All lexemes -/

/-- A lexeme with the regions that are open behind it. -/
def pairTransfer : Transfer (Lexeme × List Bracket) :=
  ⟨fun k found => (found.1.shift k, found.2), fun found => Fits found.1⟩

omit [Unicode.Repertoire] in
theorem keeping_local {routine : Scan Lexeme} (regions : List Bracket)
    (hroutine : LocalAt transfer routine cursor) :
    LocalAt pairTransfer (keeping regions routine) cursor := by
  intro hvalid after found h
  obtain ⟨hok, hsame⟩ := keeping_eq_ok h
  obtain ⟨run, hrun, hlocal⟩ := hroutine hvalid after found.1 hok
  refine ⟨run, hrun, fun k cursor' rest' hshifted hahead hagrees hfits => ?_⟩
  obtain ⟨after', hok', hafter⟩ := hlocal k cursor' rest' hshifted hahead hagrees hfits
  refine ⟨after', bind_eq_ok.mpr ⟨_, _, hok', ?_⟩, hafter⟩
  rw [← hsame]
  rfl

omit [Unicode.Repertoire] in
theorem bracket_local {c : Char} {rest : List Char} (regions : List Bracket) (hidle : cursor.Idle)
    (hahead : cursor.ahead = c :: rest) : LocalAt pairTransfer (bracket regions c) cursor := by
  have hne : cursor.ahead ≠ [] := by rw [hahead]; exact nofun
  refine .bind (.next_of_ne_nil hne) fun _ between hnext => ?_
  have hreads := (Scan.next_eq_ok hahead hnext).2
  have herror (cause : Cause) : LocalAt pairTransfer (keeping regions (emitError cause)) between :=
    keeping_local regions (emitError_local cause (ahead_ne_nil_of_reads hidle hne hreads))
  split
  · exact keeping_local _ (emit_local _ _)
  · cases regions with
    | nil => exact herror _
    | cons top outer => exact .ite (fun _ => keeping_local _ (emit_local _ _)) fun _ => herror _
  · exact herror _

theorem beginningWith_local {c : Char} {rest : List Char} (regions : List Bracket)
    (hidle : cursor.Idle) (hahead : cursor.ahead = c :: rest) :
    LocalAt pairTransfer (beginningWith regions c) cursor := by
  have hne : cursor.ahead ≠ [] := by rw [hahead]; exact nofun
  refine .ite (fun hquote => ?_) fun _ => .ite (fun _ => ?_) fun _ => .ite (fun _ => ?_) fun _ =>
    .ite (fun _ => ?_) fun _ => .ite (fun _ => ?_) fun _ => .ite (fun _ => ?_) fun _ =>
    .ite (fun _ => ?_) fun _ => .ite (fun _ => ?_) fun _ => ?_
  · exact keeping_local _ (singleQuoted_local hidle (hquote ▸ hahead))
  · exact keeping_local _ (word_local hidle hne)
  · exact keeping_local _ (number_local hidle hne)
  · exact keeping_local _ (.bind (.skip_of_ne_nil hne) fun _ _ _ => string_local)
  · exact bracket_local regions hidle hahead
  · exact keeping_local _ (semicolon_local hne)
  · exact keeping_local _ (dot_local hidle hne)
  · exact keeping_local _ (.bind (.skip_of_ne_nil hne) fun _ _ _ => quotedIdentifier_local)
  · exact keeping_local _ (operator_local hne)

theorem scan_of_slashes (regions : List Bracket) (hslashes : ['/', '/'] <+: cursor.ahead) :
    scan regions cursor = keeping regions lineComment cursor := by
  have hlook : "//".toList.isPrefixOf cursor.ahead = true :=
    List.isPrefixOf_iff_prefix.mpr hslashes
  change (if "//".toList.isPrefixOf cursor.ahead = true then _ else _ : Scan _) cursor = _
  rw [if_pos hlook]

theorem scan_of_quotes (regions : List Bracket)
    (hquotes : ['\x22', '\x22', '\x22'] <+: cursor.ahead) :
    scan regions cursor =
      keeping regions (do Scan.readExactly 3; Scan.release; multiLineString) cursor := by
  have hslashes : ¬ "//".toList.isPrefixOf cursor.ahead = true := by
    obtain ⟨rest, hrest⟩ := hquotes
    rw [← hrest]
    exact nofun
  have hlook : "\"\"\"".toList.isPrefixOf cursor.ahead = true :=
    List.isPrefixOf_iff_prefix.mpr hquotes
  change (if "//".toList.isPrefixOf cursor.ahead = true then _ else _ : Scan _) cursor = _
  rw [if_neg hslashes]
  change (if "\"\"\"".toList.isPrefixOf cursor.ahead = true then _ else _ : Scan _) cursor = _
  rw [if_pos hlook]

omit [Unicode.Repertoire] in
/-- The three quotes in front of a multi-line string are read. -/
private theorem multiLineString_run {run : List Char} (hvalid : cursor.malformed = none)
    (hquotes : ['\x22', '\x22', '\x22'] <+: cursor.ahead) (hrun : cursor.ahead = run ++ after.ahead)
    (h : (do Scan.readExactly 3; Scan.release; multiLineString) cursor = .ok lexeme after) :
    3 ≤ run.length := by
  obtain ⟨_, between, hread, hrest⟩ := bind_eq_ok.mp h
  cases hread
  obtain ⟨_, inner, hrelease, hstring⟩ := bind_eq_ok.mp hrest
  cases hrelease
  let opened := (cursor.advance (cursor.ahead.take 3) (cursor.ahead.drop 3)).settle.release
  have hlocal : LocalAt transfer multiLineString opened := multiLineString_local
  obtain ⟨more, hmore, _⟩ := hlocal hvalid after lexeme hstring
  have hthree : 3 ≤ cursor.ahead.length := hquotes.length_le
  have hdrop : (cursor.ahead.drop 3).length = (more ++ after.ahead).length :=
    congrArg List.length hmore
  have hall := congrArg List.length hrun
  simp only [List.length_drop, List.length_append] at hdrop hall
  omega

omit [Unicode.Repertoire] in
/-- A beginning of the text that is no longer than what is read is read. -/
private theorem prefix_append_of_length_le {opening run rest : List Char}
    (hopening : opening <+: run ++ rest) (hlength : opening.length ≤ run.length)
    (rest' : List Char) : opening <+: run ++ rest' :=
  (List.prefix_of_prefix_length_le hopening (List.prefix_append run rest) hlength).trans
    (List.prefix_append run rest')

/-- What is found takes a character. -/
private theorem run_ne_nil_of_scan {regions : List Bracket} {found : Lexeme × List Bracket}
    {run : List Char} (hidle : cursor.Idle) (hne : cursor.ahead ≠ [])
    (h : scan regions cursor = .ok found after) (hrun : cursor.ahead = run ++ after.ahead) :
    run ≠ [] := by
  have hspelled := scan_spelled hidle h
  obtain ⟨read, hdrops, hread⟩ := hspelled.exists_drops
  obtain rfl : run = read := List.append_cancel_right (hrun.symm.trans hdrops.ahead)
  refine hread fun heof => hne ?_
  obtain ⟨_, hend, hnil, _⟩ := hspelled.of_eof heof
  rw [hend.ahead, hnil]
  rfl

/-- **Locality.**  The lexeme at the cursor is found in front of every text that goes
on alike, wherever it stands there. -/
theorem scan_local (regions : List Bracket) (hidle : cursor.Idle) (hne : cursor.ahead ≠ []) :
    LocalAt pairTransfer (scan regions) cursor := by
  by_cases hslashes : ['/', '/'] <+: cursor.ahead
  · refine (keeping_local regions lineComment_local).congr
      (fun _ => scan_of_slashes regions hslashes) ?_
    intro after found h run hrun k cursor' rest' _ hahead _ _
    rw [scan_of_slashes regions hslashes] at h
    have hlength : 2 ≤ run.length := by
      have hread := lineComment_run hrun (keeping_eq_ok h).1
      obtain ⟨rest, hrest⟩ := hslashes
      rw [hread, ← hrest]
      simp
    rw [hrun] at hslashes
    exact scan_of_slashes regions
      (hahead ▸ prefix_append_of_length_le hslashes hlength rest')
  · by_cases hquotes : ['\x22', '\x22', '\x22'] <+: cursor.ahead
    · have hroutine : LocalAt transfer
          (do Scan.readExactly 3; Scan.release; multiLineString) cursor :=
        .bind (.readExactly hquotes.length_le) fun _ _ _ =>
          .bind .release fun _ _ _ => multiLineString_local
      refine (keeping_local regions hroutine).congr (fun _ => scan_of_quotes regions hquotes) ?_
      intro after found h run hrun k cursor' rest' hshifted hahead _ _
      rw [scan_of_quotes regions hquotes] at h
      have hlength := multiLineString_run hshifted.valid hquotes hrun (keeping_eq_ok h).1
      rw [hrun] at hquotes
      exact scan_of_quotes regions
        (hahead ▸ prefix_append_of_length_le hquotes hlength rest')
    · obtain ⟨c, rest, hcons⟩ := List.exists_cons_of_ne_nil hne
      refine (beginningWith_local regions hidle hcons).congr
        (fun _ => scan_of_head regions hcons hslashes hquotes) ?_
      intro after found h run hrun k cursor' rest' _ hahead hagrees _
      obtain ⟨first, more, rfl⟩ := List.exists_cons_of_ne_nil (run_ne_nil_of_scan hidle hne h hrun)
      obtain rfl : first = c := (List.cons.inj (hrun.symm.trans hcons)).1
      have hall := hagrees.append_left (first :: more)
      rw [← hahead, ← hrun] at hall
      exact scan_of_head regions (hahead.trans (List.cons_append ..))
        (fun hprefix => hslashes (hall.isPrefix (by decide) hprefix))
        (fun hprefix => hquotes (hall.isPrefix (by decide) hprefix))

end Lexeme

end ScalaLexer

import Mathlib.Tactic.SplitIfs
import ScalaLexer.Proofs.Scan.Routine
import ScalaLexer.Region

/-!
# How a lexeme stands in the source

A lexeme is its text with what opens it in front and what closes it behind.  This
file says once what `Lexeme.scan` can find: `Lexeme.Spelled` lists the forms that a
lexeme can have, together with the regions that it leaves open, and `scan_spelled`
proves the list complete.  Whatever has to hold of every lexeme is read off the
list: that characters are taken away (`Spelled.exists_drops`), and how the regions
change (`Spelled.regionEffect`).
-/

namespace ScalaLexer

/-! ## Delimiters -/

/-- What stands on both sides of the text of a token and is no part of it. -/
inductive Delimiter where
  | none
  | doubleQuote
  | tripleQuote
  | singleQuote
  | backquote
  deriving Repr, DecidableEq

namespace Delimiter

/-- The characters in front of the text. -/
def text : Delimiter → List Char
  | none => []
  | doubleQuote => ['\x22']
  | tripleQuote => ['\x22', '\x22', '\x22']
  | singleQuote => ['\x27']
  | backquote => ['\x60']

/-- How the reading behind the text begins. -/
def resume : Delimiter → Mode
  | none => .start
  | tripleQuote => .closingTripleQuote
  | doubleQuote | singleQuote | backquote => .closingQuote

/-- The kinds of lexemes that are delimited like this, brackets apart. -/
def Encloses : Delimiter → TokenKind → Prop
  | none, .symbol | none, .identifier | none, .number | none, .boolean | none, .comment
  | none, .operator | none, .semicolon | none, .dot | none, .keyword _ => True
  | doubleQuote, .string | tripleQuote, .string => True
  | singleQuote, .character => True
  | backquote, .identifier => True
  | _, _ => False

theorem Encloses.regionEffect {delimiter : Delimiter} {kind : TokenKind}
    (h : delimiter.Encloses kind) : kind.regionEffect = .none := by
  cases kind <;> first | rfl | cases delimiter <;> exact h.elim

theorem Encloses.ne_eof {delimiter : Delimiter} {kind : TokenKind}
    (h : delimiter.Encloses kind) : kind ≠ .eof := by
  rintro rfl
  cases delimiter <;> exact h

end Delimiter

/-- The delimiter that was opened in front of the text that is wrong. -/
def Cause.delimiter : Cause → Delimiter
  | .unterminatedCharacter _ => .singleQuote
  | .unterminatedString => .doubleQuote
  | .unterminatedMultiLineString => .tripleQuote
  | .unterminatedQuotedIdentifier => .backquote
  | _ => .none

namespace Lexeme

open Scan (Plain bind_eq_ok)

variable {lexeme : Lexeme} {regions : List Bracket} {cursor inner between after : Cursor}

/-! ## The forms of a lexeme -/

/-- The lexeme stands for `body`, the text from one cursor to the other. -/
structure CutAt (lexeme : Lexeme) (cursor : Cursor) (body : List Char) (after : Cursor) : Prop where
  drops : cursor.Drops body after
  start : lexeme.start = cursor.pos
  stop : lexeme.stop = after.pos
  value : lexeme.kind ≠ .error → lexeme.value = String.ofList body

/-- The form of a lexeme found inside `regions`, by what opens it, its text, the
cursor behind it and the regions open there. -/
inductive Form (lexeme : Lexeme) (regions : List Bracket) (after : Cursor) :
    List Char → List Char → List Bracket → Prop
  | eof : lexeme.kind = .eof → lexeme.resume = .done → after.ahead = [] →
      after.malformed = none → Form lexeme regions after [] [] regions
  | error (cause : Cause) {body : List Char} : lexeme.kind = .error → lexeme.resume = .start →
      lexeme.value = cause.message → cause.delimiter.text ++ body ≠ [] →
      Form lexeme regions after cause.delimiter.text body regions
  | text (delimiter : Delimiter) {body : List Char} : delimiter.Encloses lexeme.kind →
      lexeme.resume = delimiter.resume → delimiter.text ++ body ≠ [] →
      delimiter.text <+: after.ahead → Form lexeme regions after delimiter.text body regions
  | opening (bracket : Bracket) : lexeme.kind = .opening bracket → lexeme.resume = .start →
      Form lexeme regions after [] [bracket.openingChar] (bracket :: regions)
  | closing (bracket : Bracket) {outer : List Bracket} : lexeme.kind = .closing bracket →
      lexeme.resume = .start → regions = bracket :: outer →
      Form lexeme regions after [] [bracket.closingChar] outer

/-- The lexeme is what stands between the two cursors. -/
def Spelled (lexeme : Lexeme) (regions : List Bracket) (cursor after : Cursor)
    (behind : List Bracket) : Prop :=
  ∃ opening body inner, cursor.Drops opening inner ∧ lexeme.CutAt inner body after ∧
    lexeme.Form regions after opening body behind

/-! ## What is pending becomes a lexeme -/

theorem emit_cutAt {kind : TokenKind} {resume : Mode} {run : List Char} (hidle : cursor.Idle)
    (hreads : cursor.Reads run between) (h : emit kind resume between = .ok lexeme after) :
    lexeme.kind = kind ∧ lexeme.resume = resume ∧ lexeme.CutAt cursor run after ∧
      after.ahead = between.ahead := by
  cases h
  refine ⟨rfl, rfl, ⟨hreads.release.settle, hreads.start.trans hidle.start, rfl, fun _ => ?_⟩, rfl⟩
  rw [hreads.pending, hidle.pending]
  rfl

theorem spelled_of_emit (delimiter : Delimiter) {kind : TokenKind} {run : List Char}
    (hopening : cursor.Drops delimiter.text inner) (hreads : inner.Reads run between)
    (hkind : delimiter.Encloses kind) (hne : delimiter.text ++ run ≠ [])
    (hclosing : delimiter.text <+: between.ahead)
    (h : emit kind delimiter.resume between = .ok lexeme after) :
    lexeme.Spelled regions cursor after regions := by
  obtain ⟨rfl, hresume, hcut, hahead⟩ := emit_cutAt hopening.idle hreads h
  exact ⟨_, run, inner, hopening, hcut, .text delimiter hkind hresume hne (hahead ▸ hclosing)⟩

theorem spelled_of_emit_bare {kind : TokenKind} {run : List Char} (hidle : cursor.Idle)
    (hreads : cursor.Reads run between) (hkind : Delimiter.none.Encloses kind) (hne : run ≠ [])
    (h : emit kind .start between = .ok lexeme after) :
    lexeme.Spelled regions cursor after regions :=
  spelled_of_emit .none hidle.drops hreads hkind hne List.nil_prefix h

theorem spelled_of_emitError (cause : Cause) {run : List Char}
    (hopening : cursor.Drops cause.delimiter.text inner) (hreads : inner.Reads run between)
    (hne : cursor.ahead ≠ []) (h : emitError cause between = .ok lexeme after) :
    lexeme.Spelled regions cursor after regions := by
  obtain ⟨more, last, hmore, hforced, rfl, rfl⟩ := emitError_eq_ok h
  have hall := hreads.trans hmore
  have hstart : between.start = inner.pos := hreads.start.trans hopening.idle.start
  refine ⟨_, run ++ more, inner, hopening,
    ⟨hall.release, hstart, rfl, fun hkind => absurd rfl hkind⟩, .error cause rfl rfl rfl ?_⟩
  -- where nothing was pending one character is read, and there is one
  intro hnil
  obtain ⟨htext, hrun, hmorenil⟩ : cause.delimiter.text = [] ∧ run = [] ∧ more = [] := by
    simpa using hnil
  refine hforced ?_ ?_ hmorenil
  · rw [hstart, hreads.pos, hrun]
    simp
  · rw [hopening.ahead, hreads.ahead, htext, hrun] at hne
    exact hne

theorem spelled_of_emitError_bare (cause : Cause) {run : List Char} (hidle : cursor.Idle)
    (hreads : cursor.Reads run between) (hbare : cause.delimiter = .none)
    (hne : cursor.ahead ≠ []) (h : emitError cause between = .ok lexeme after) :
    lexeme.Spelled regions cursor after regions :=
  spelled_of_emitError cause (by rw [hbare]; exact hidle.drops) hreads hne h

/-! ## Comments and quoted texts -/

private theorem singleton_prefix_of_peek {c : Char} {text : List Char} (h : text[0]? = some c) :
    [c] <+: text := by
  cases text with
  | nil => simp at h
  | cons first rest =>
      obtain rfl : first = c := by simpa using h
      exact ⟨rest, rfl⟩

theorem lineComment_spelled (hidle : cursor.Idle) (hopen : ['/', '/'] <+: cursor.ahead)
    (h : lineComment cursor = .ok lexeme after) :
    lexeme.Spelled regions cursor after regions := by
  obtain ⟨_, between, hread, hemit⟩ := bind_eq_ok.mp h
  refine spelled_of_emit_bare hidle (Scan.readWhile_eq_ok hread) (by trivial) ?_ hemit
  obtain ⟨rest, hrest⟩ := hopen
  simp [← hrest]

theorem string_spelled (hopening : cursor.Drops ['\x22'] inner)
    (h : string inner = .ok lexeme after) : lexeme.Spelled regions cursor after regions := by
  obtain ⟨_, between, hread, hrest⟩ := bind_eq_ok.mp h
  obtain ⟨quote, last, hpeek, hend⟩ := bind_eq_ok.mp hrest
  have hreads := Scan.readPart_eq_ok Literal.splitEscaped_append hread
  obtain ⟨rfl, hquote, _⟩ := Scan.peek_eq_ok hpeek
  split at hend
  · next hclosing =>
      exact spelled_of_emit .doubleQuote hopening hreads (by trivial) nofun
        (singleton_prefix_of_peek (hquote.trans hclosing)) hend
  · exact spelled_of_emitError .unterminatedString hopening hreads (by simp [hopening.ahead]) hend

theorem multiLineString_spelled (hopening : cursor.Drops ['\x22', '\x22', '\x22'] inner)
    (h : multiLineString inner = .ok lexeme after) :
    lexeme.Spelled regions cursor after regions := by
  obtain ⟨_, between, hread, hrest⟩ := bind_eq_ok.mp h
  obtain ⟨found, last, hlook, hend⟩ := bind_eq_ok.mp hrest
  have hreads := Scan.readPart_eq_ok Literal.splitTripleQuoted_append hread
  obtain ⟨rfl, hquotes⟩ := Scan.startsWith_eq_ok hlook
  split at hend
  · next hclosing =>
      exact spelled_of_emit .tripleQuote hopening hreads (by trivial) nofun
        (hquotes.mp hclosing) hend
  · exact spelled_of_emitError .unterminatedMultiLineString hopening hreads
      (by simp [hopening.ahead]) hend

theorem quotedIdentifier_spelled (hopening : cursor.Drops ['\x60'] inner)
    (h : quotedIdentifier inner = .ok lexeme after) :
    lexeme.Spelled regions cursor after regions := by
  obtain ⟨_, between, hread, hrest⟩ := bind_eq_ok.mp h
  obtain ⟨quote, last, hpeek, hend⟩ := bind_eq_ok.mp hrest
  have hreads := Scan.readWhile_eq_ok hread
  obtain ⟨rfl, hquote, _⟩ := Scan.peek_eq_ok hpeek
  split at hend
  · next hclosing =>
      exact spelled_of_emit .backquote hopening hreads (by trivial) nofun
        (singleton_prefix_of_peek (hquote.trans hclosing)) hend
  · exact spelled_of_emitError .unterminatedQuotedIdentifier hopening hreads
      (by simp [hopening.ahead]) hend

theorem character_spelled (hopening : cursor.Drops ['\x27'] inner)
    (h : character inner = .ok lexeme after) : lexeme.Spelled regions cursor after regions := by
  obtain ⟨_, escape, hescape, hrest⟩ := bind_eq_ok.mp h
  obtain ⟨_, between, hnext, hrest⟩ := bind_eq_ok.mp hrest
  obtain ⟨quote, last, hpeek, hend⟩ := bind_eq_ok.mp hrest
  obtain ⟨first, hfirst⟩ := (Plain.accept _).reads hescape
  obtain ⟨second, hsecond⟩ := Plain.next.reads hnext
  have hreads := hfirst.trans hsecond
  obtain ⟨rfl, hquote, _⟩ := Scan.peek_eq_ok hpeek
  split at hend
  · next hclosing =>
      exact spelled_of_emit .singleQuote hopening hreads (by trivial) nofun
        (singleton_prefix_of_peek (hquote.trans hclosing)) hend
  · exact spelled_of_emitError (.unterminatedCharacter _) hopening hreads
      (by simp [hopening.ahead]) hend

/-! ## Words, symbols and numbers -/

/-- What begins with a character of the class is not empty. -/
private theorem takeWhile_ne_nil {isMember : Char → Bool} {c : Char} {text rest : List Char}
    (htext : text = c :: rest) (hmember : isMember c = true) : text.takeWhile isMember ≠ [] := by
  simp [htext, hmember]

section

variable [Unicode.Repertoire]

theorem plainIdentifier_reads {found : Bool} (h : plainIdentifier cursor = .ok found after) :
    ∃ run, cursor.Reads run after ∧ (found = true → run ≠ []) := by
  obtain ⟨c?, last, hpeek, hrest⟩ := bind_eq_ok.mp h
  obtain ⟨rfl, hc, _⟩ := Scan.peek_eq_ok hpeek
  split at hrest
  · next hoperator =>
      obtain ⟨c, rfl, hmember⟩ := (Option.any_eq_true ..).mp hoperator
      obtain ⟨_, between, hread, hpure⟩ := bind_eq_ok.mp hrest
      obtain ⟨rfl, rfl⟩ := Scan.pure_eq_ok.mp hpure
      obtain ⟨rest, hahead⟩ := singleton_prefix_of_peek hc
      exact ⟨_, Scan.readWhile_eq_ok hread, fun _ => takeWhile_ne_nil hahead.symm hmember⟩
  · obtain ⟨accepted, between, haccept, hrest⟩ := bind_eq_ok.mp hrest
    rcases Scan.accept_eq_ok haccept with ⟨rfl, c, _, hreads⟩ | ⟨rfl, _, hreads⟩
    · obtain ⟨_, middle, hread, hrest⟩ := bind_eq_ok.mp hrest
      obtain ⟨_, last, hsuffix, hpure⟩ := bind_eq_ok.mp hrest
      obtain ⟨rfl, rfl⟩ := Scan.pure_eq_ok.mp hpure
      obtain ⟨more, hmore⟩ := operatorSuffix_plain.reads hsuffix
      exact ⟨_, (hreads.trans (Scan.readWhile_eq_ok hread)).trans hmore, nofun⟩
    · obtain ⟨rfl, rfl⟩ := Scan.pure_eq_ok.mp hrest
      exact ⟨[], hreads, nofun⟩

omit [Unicode.Repertoire] in
theorem ofWord_bare (word : String) : Delimiter.none.Encloses (.ofWord word) := by
  unfold TokenKind.ofWord
  split
  · trivial
  · split <;> trivial

theorem word_spelled (hidle : cursor.Idle) (hne : cursor.ahead ≠ [])
    (h : word cursor = .ok lexeme after) : lexeme.Spelled regions cursor after regions := by
  obtain ⟨found, between, hplain, hend⟩ := bind_eq_ok.mp h
  obtain ⟨run, hreads, hrun⟩ := plainIdentifier_reads hplain
  split at hend
  · next hfound => exact spelled_of_emit_bare hidle hreads (ofWord_bare _) (hrun hfound) hend
  · exact spelled_of_emitError_bare (.unknownLexeme _) hidle hreads rfl hne hend

theorem symbol_spelled {run : List Char} (hidle : cursor.Idle) (hquote : cursor.Reads run inner)
    (hne : run ≠ []) (h : symbol inner = .ok lexeme after) :
    lexeme.Spelled regions cursor after regions := by
  obtain ⟨found, between, hplain, hend⟩ := bind_eq_ok.mp h
  obtain ⟨more, hmore, _⟩ := plainIdentifier_reads hplain
  have hreads := hquote.trans hmore
  split at hend
  · exact spelled_of_emit_bare hidle hreads (by trivial) (by simp [hne]) hend
  · exact spelled_of_emitError_bare (.unknownLexeme _) hidle hreads rfl
      (by simp [hquote.ahead, hne]) hend

omit [Unicode.Repertoire] in
/-- Telling the two forms apart does not move the cursor. -/
theorem atCharacter_eq_ok {found : Bool} (h : atCharacter cursor = .ok found after) :
    after = cursor := by
  obtain ⟨_, second, hsecond, hrest⟩ := bind_eq_ok.mp h
  obtain ⟨hsecond, _⟩ := Scan.peek_eq_ok hsecond
  subst hsecond
  split at hrest
  · exact (Scan.pure_eq_ok.mp hrest).2.symm
  · obtain ⟨_, first, hfirst, hbackslash⟩ := bind_eq_ok.mp hrest
    obtain ⟨hfirst, _⟩ := Scan.peek_eq_ok hfirst
    subst hfirst
    split at hbackslash
    · obtain ⟨_, third, hthird, hpure⟩ := bind_eq_ok.mp hbackslash
      obtain ⟨hthird, _⟩ := Scan.peek_eq_ok hthird
      subst hthird
      exact (Scan.pure_eq_ok.mp hpure).2.symm
    · exact (Scan.pure_eq_ok.mp hbackslash).2.symm

theorem singleQuoted_spelled {rest : List Char} (hidle : cursor.Idle)
    (hahead : cursor.ahead = '\x27' :: rest) (h : singleQuoted cursor = .ok lexeme after) :
    lexeme.Spelled regions cursor after regions := by
  obtain ⟨isCharacter, between, hat, hrest⟩ := bind_eq_ok.mp h
  obtain rfl := atCharacter_eq_ok hat
  split at hrest
  · obtain ⟨_, inner, hskip, hcharacter⟩ := bind_eq_ok.mp hrest
    exact character_spelled (Scan.skip_cons_eq_ok hahead hskip) hcharacter
  · obtain ⟨_, inner, hnext, hsymbol⟩ := bind_eq_ok.mp hrest
    exact symbol_spelled hidle (Scan.next_eq_ok hahead hnext).2 nofun hsymbol

end

theorem ofNumber_spelled {wellFormed : Bool} {run : List Char} (hidle : cursor.Idle)
    (hreads : cursor.Reads run between) (hne : run ≠ [])
    (h : ofNumber wellFormed between = .ok lexeme after) :
    lexeme.Spelled regions cursor after regions := by
  unfold ofNumber at h
  split at h
  · exact spelled_of_emit_bare hidle hreads (by trivial) hne h
  · exact spelled_of_emitError_bare (.malformedNumber _) hidle hreads rfl
      (by simp [hreads.ahead, hne]) h

theorem number_reads {c : Char} {rest : List Char} {found : Bool}
    (hahead : cursor.ahead = c :: rest) (hdigit : isDigit c = true)
    (h : Literal.number cursor = .ok found after) : ∃ run, cursor.Reads run after ∧ run ≠ [] := by
  obtain ⟨_, between, hwhole, hbehind⟩ := bind_eq_ok.mp h
  obtain ⟨more, hmore⟩ := Literal.behindWholePart_plain.reads hbehind
  -- a leading zero is read on its own, any other digit by the run
  obtain ⟨run, hreads, hrun⟩ : ∃ run, cursor.Reads run between ∧ run ≠ [] := by
    obtain ⟨zero, middle, haccept, hdigits⟩ := bind_eq_ok.mp hwhole
    rcases Scan.accept_eq_ok haccept with ⟨rfl, first, _, hreads⟩ | ⟨rfl, _, hreads⟩
    · obtain ⟨digits, hdigits⟩ := Plain.reads
        (by exact .bind (.accept _) fun _ => .ite (.readWhile _) (.readWhile _)) hdigits
      exact ⟨_, hreads.trans hdigits, nofun⟩
    · have hmiddle : middle.ahead = c :: rest := hreads.ahead.symm.trans hahead
      exact ⟨_, hreads.trans (Scan.readWhile_eq_ok hdigits), by simp [hmiddle, hdigit]⟩
  exact ⟨_, hreads.trans hmore, by simp [hrun]⟩

theorem dot_spelled {c : Char} {rest : List Char} (hidle : cursor.Idle)
    (hahead : cursor.ahead = c :: rest) (h : dot cursor = .ok lexeme after) :
    lexeme.Spelled regions cursor after regions := by
  obtain ⟨_, behind, hnext, hrest⟩ := bind_eq_ok.mp h
  obtain ⟨_, _, hpeek, hend⟩ := bind_eq_ok.mp hrest
  have hreads := (Scan.next_eq_ok hahead hnext).2
  obtain ⟨rfl, _⟩ := Scan.peek_eq_ok hpeek
  split at hend
  · obtain ⟨wellFormed, between, hfraction, hnumber⟩ := bind_eq_ok.mp hend
    obtain ⟨more, hmore⟩ := Literal.fraction_plain.reads hfraction
    exact ofNumber_spelled hidle (hreads.trans hmore) nofun hnumber
  · exact spelled_of_emit_bare hidle hreads (by trivial) nofun hend

/-! ## Operators and brackets -/

theorem length_pos_of_mem_reservedOperators {entry : String} (h : entry ∈ reservedOperators) :
    0 < entry.length := by
  have hall : ∀ entry ∈ reservedOperators, 0 < entry.length := by decide
  exact hall entry h

section

variable [Unicode.Repertoire]

theorem operator_spelled {c : Char} {rest : List Char} (hidle : cursor.Idle)
    (hahead : cursor.ahead = c :: rest) (h : operator c cursor = .ok lexeme after) :
    lexeme.Spelled regions cursor after regions := by
  obtain ⟨_, _, hget, hend⟩ := bind_eq_ok.mp h
  cases hget
  cases hentry : reservedOperator? cursor.ahead with
  | some entry =>
      simp only [hentry] at hend
      obtain ⟨_, between, hread, hemit⟩ := bind_eq_ok.mp hend
      have hlength := length_pos_of_mem_reservedOperators (mem_of_reservedOperator? hentry).1
      refine spelled_of_emit_bare hidle (Scan.readExactly_eq_ok hread) (by trivial) ?_ hemit
      rw [hahead, ← Nat.sub_add_cancel hlength]
      exact nofun
  | none =>
      simp only [hentry] at hend
      split at hend
      · next hoperator =>
          obtain ⟨_, between, hread, hemit⟩ := bind_eq_ok.mp hend
          exact spelled_of_emit_bare hidle (Scan.readWhile_eq_ok hread) (by trivial)
            (takeWhile_ne_nil hahead hoperator) hemit
      · exact spelled_of_emitError_bare (.unknownLexeme _) hidle (.refl cursor) rfl
          (by simp [hahead]) hend

omit [Unicode.Repertoire] in
theorem bracket_spelled {c : Char} {rest : List Char} {found : Lexeme × List Bracket}
    (hidle : cursor.Idle) (hahead : cursor.ahead = c :: rest)
    (h : bracket regions c cursor = .ok found after) :
    found.1.Spelled regions cursor after found.2 := by
  obtain ⟨_, between, hnext, hend⟩ := bind_eq_ok.mp h
  have hreads := (Scan.next_eq_ok hahead hnext).2
  have hne : cursor.ahead ≠ [] := by simp [hahead]
  -- an error leaves the regions as they are
  have herror {cause : Cause} (hbare : cause.delimiter = .none)
      (h : keeping regions (emitError cause) between = .ok found after) :
      found.1.Spelled regions cursor after found.2 := by
    obtain ⟨hemit, hsame⟩ := keeping_eq_ok h
    rw [hsame]
    exact spelled_of_emitError_bare cause hidle hreads hbare (by simp [hahead]) hemit
  cases hkind : TokenKind.ofBracketChar? c with
  | none =>
      simp only [hkind] at hend
      exact herror rfl hend
  | some kind =>
      rcases TokenKind.ofBracketChar?_eq_some hkind with ⟨top, rfl, rfl⟩ | ⟨top, rfl, rfl⟩
      · simp only [hkind] at hend
        obtain ⟨hemit, hpushed⟩ := keeping_eq_ok hend
        obtain ⟨hopening, hresume, hcut, _⟩ := emit_cutAt hidle hreads hemit
        rw [hpushed]
        exact ⟨[], _, cursor, hidle.drops, hcut, .opening top hopening hresume⟩
      · simp only [hkind] at hend
        cases regions with
        | nil => exact herror rfl hend
        | cons innermost outer =>
            simp only at hend
            split at hend
            · next hfits =>
                subst hfits
                obtain ⟨hemit, hpopped⟩ := keeping_eq_ok hend
                obtain ⟨hclosing, hresume, hcut, _⟩ := emit_cutAt hidle hreads hemit
                rw [hpopped]
                exact ⟨[], _, cursor, hidle.drops, hcut, .closing innermost hclosing hresume rfl⟩
            · exact herror rfl hend

/-! ## The list of forms is complete -/

theorem beginningWith_spelled {c : Char} {rest : List Char} {found : Lexeme × List Bracket}
    (hidle : cursor.Idle) (hahead : cursor.ahead = c :: rest)
    (h : beginningWith regions c cursor = .ok found after) :
    found.1.Spelled regions cursor after found.2 := by
  -- all branches but the one for brackets keep the regions
  have hkeeping {routine : Scan Lexeme} (h : keeping regions routine cursor = .ok found after)
      (hspelled : ∀ lexeme, routine cursor = .ok lexeme after →
        lexeme.Spelled regions cursor after regions) :
      found.1.Spelled regions cursor after found.2 := by
    obtain ⟨hroutine, hsame⟩ := keeping_eq_ok h
    rw [hsame]
    exact hspelled _ hroutine
  unfold beginningWith at h
  split_ifs at h with hquote hletter hdigit hstring hbracket hsemicolon hdot hbackquote
  · exact hkeeping h fun _ => singleQuoted_spelled hidle (hquote ▸ hahead)
  · exact hkeeping h fun _ => word_spelled hidle (by simp [hahead])
  · refine hkeeping h fun lexeme hnumber => ?_
    obtain ⟨_, between, hnumber, hend⟩ := bind_eq_ok.mp hnumber
    obtain ⟨run, hreads, hne⟩ := number_reads hahead hdigit hnumber
    exact ofNumber_spelled hidle hreads hne hend
  · refine hkeeping h fun lexeme hbody => ?_
    obtain ⟨_, inner, hskip, hbody⟩ := bind_eq_ok.mp hbody
    exact string_spelled (Scan.skip_cons_eq_ok (hstring ▸ hahead) hskip) hbody
  · exact bracket_spelled hidle hahead h
  · refine hkeeping h fun lexeme hmark => ?_
    obtain ⟨_, between, hnext, hemit⟩ := bind_eq_ok.mp hmark
    have hreads := (Scan.next_eq_ok hahead hnext).2
    exact spelled_of_emit_bare hidle hreads (by trivial) nofun hemit
  · exact hkeeping h fun _ => dot_spelled hidle hahead
  · refine hkeeping h fun lexeme hbody => ?_
    obtain ⟨_, inner, hskip, hbody⟩ := bind_eq_ok.mp hbody
    exact quotedIdentifier_spelled (Scan.skip_cons_eq_ok (hbackquote ▸ hahead) hskip) hbody
  · exact hkeeping h fun _ => operator_spelled hidle hahead

/-- Every lexeme that is found has one of the forms. -/
theorem scan_spelled {found : Lexeme × List Bracket} (hidle : cursor.Idle)
    (h : scan regions cursor = .ok found after) :
    found.1.Spelled regions cursor after found.2 := by
  obtain ⟨isComment, _, hlook, hcomment⟩ := bind_eq_ok.mp h
  obtain ⟨rfl, hslashes⟩ := Scan.startsWith_eq_ok hlook
  split at hcomment
  · next hopen =>
      obtain ⟨hroutine, hsame⟩ := keeping_eq_ok hcomment
      rw [hsame]
      exact lineComment_spelled hidle (hslashes.mp hopen) hroutine
  · obtain ⟨isQuoted, last, hlook, hstring⟩ := bind_eq_ok.mp hcomment
    obtain ⟨hlast, hquotes⟩ := Scan.startsWith_eq_ok hlook
    subst hlast
    split at hstring
    · next hopen =>
        obtain ⟨rest, hahead⟩ := hquotes.mp hopen
        obtain ⟨hroutine, hsame⟩ := keeping_eq_ok hstring
        obtain ⟨_, between, hread, hrelease⟩ := bind_eq_ok.mp hroutine
        have hopening := (Scan.readExactly_eq_ok hread).release
        rw [← hahead] at hopening
        rw [hsame]
        exact multiLineString_spelled hopening hrelease
    · obtain ⟨c?, last, hpeek, hrest⟩ := bind_eq_ok.mp hstring
      obtain ⟨hlast, hc, hend⟩ := Scan.peek_eq_ok hpeek
      subst hlast
      cases c? with
      | some c =>
          obtain ⟨rest, hahead⟩ := singleton_prefix_of_peek hc
          exact beginningWith_spelled hidle hahead.symm hrest
      | none =>
          obtain ⟨hemit, hsame⟩ := keeping_eq_ok hrest
          obtain ⟨hkind, hresume, hcut, hahead⟩ := emit_cutAt hidle (.refl _) hemit
          rw [hsame]
          refine ⟨[], [], _, hidle.drops, hcut, .eof hkind hresume ?_ ?_⟩
          · rw [hahead]
            simpa using hc
          · rw [hcut.drops.malformed]
            exact hend rfl

/-! ## The first character decides -/

/-- Where neither a comment nor a multi-line string begins, the first character
tells what does. -/
theorem scan_of_head {c : Char} {rest : List Char} (regions : List Bracket)
    (hahead : cursor.ahead = c :: rest) (hcomment : ¬ ['/', '/'] <+: cursor.ahead)
    (hquotes : ¬ ['\x22', '\x22', '\x22'] <+: cursor.ahead) :
    scan regions cursor = beginningWith regions c cursor := by
  have hlook (text : String) (hnot : ¬ text.toList <+: cursor.ahead) :
      ¬ text.toList.isPrefixOf cursor.ahead = true :=
    fun h => hnot (List.isPrefixOf_iff_prefix.mp h)
  have hpeek : Scan.peek 0 cursor = .ok (some c) cursor := by simp [Scan.peek, hahead]
  change (if "//".toList.isPrefixOf cursor.ahead = true then _ else _ : Scan _) cursor = _
  rw [if_neg (hlook "//" hcomment)]
  change (if "\"\"\"".toList.isPrefixOf cursor.ahead = true then _ else _ : Scan _) cursor = _
  rw [if_neg (hlook "\"\"\"" hquotes)]
  simp only [bind, EStateM.bind, hpeek]

/-- Neither begins with any other character. -/
theorem scan_of_head_ne {c : Char} {rest : List Char} (regions : List Bracket)
    (hahead : cursor.ahead = c :: rest) (hslash : c ≠ '/') (hquote : c ≠ '\x22') :
    scan regions cursor = beginningWith regions c cursor := by
  refine scan_of_head regions hahead ?_ ?_
  · rw [hahead, List.cons_prefix_cons]
    exact fun h => hslash h.1.symm
  · rw [hahead, List.cons_prefix_cons]
    exact fun h => hquote h.1.symm

/-- Nothing stands at the end of the source. -/
theorem scan_of_nil (regions : List Bracket) (hahead : cursor.ahead = [])
    (hvalid : cursor.malformed = none) :
    scan regions cursor = keeping regions (emit .eof .done) cursor := by
  have hpeek : Scan.peek 0 cursor = .ok none cursor := by simp [Scan.peek, hahead, hvalid]
  change (if "//".toList.isPrefixOf cursor.ahead = true then _ else _ : Scan _) cursor = _
  rw [hahead, if_neg (by decide)]
  change (if "\"\"\"".toList.isPrefixOf cursor.ahead = true then _ else _ : Scan _) cursor = _
  rw [hahead, if_neg (by decide)]
  simp only [bind, EStateM.bind, hpeek]

end

/-! ## What the list says -/

/-- All of a lexeme is taken away from what is ahead, and only the end of the source
takes no character. -/
theorem Spelled.exists_drops {behind : List Bracket}
    (h : lexeme.Spelled regions cursor after behind) :
    ∃ run, cursor.Drops run after ∧ (lexeme.kind ≠ .eof → run ≠ []) := by
  obtain ⟨opening, body, inner, hopening, hcut, hform⟩ := h
  refine ⟨opening ++ body, hopening.trans hcut.drops, fun hkind => ?_⟩
  cases hform with
  | eof heof => exact absurd heof hkind
  | error _ _ _ _ hne => exact hne
  | text _ _ _ hne => exact hne
  | opening => exact nofun
  | closing => exact nofun

/-- The kind of a lexeme tells what happened to the regions. -/
theorem Spelled.regionEffect {behind : List Bracket}
    (h : lexeme.Spelled regions cursor after behind) :
    behind = lexeme.kind.regionEffect.apply regions ∧
      lexeme.kind.regionEffect.Admissible regions := by
  obtain ⟨opening, body, inner, _, _, hform⟩ := h
  cases hform with
  | eof hkind => rw [hkind]; exact ⟨rfl, trivial⟩
  | error _ hkind => rw [hkind]; exact ⟨rfl, trivial⟩
  | text delimiter hkind => rw [hkind.regionEffect]; exact ⟨rfl, trivial⟩
  | opening bracket hkind => rw [hkind]; exact ⟨rfl, trivial⟩
  | closing bracket hkind _ hregions => rw [hkind, hregions]; exact ⟨rfl, rfl⟩

/-- The end is found only where the source ends, and it takes nothing. -/
theorem Spelled.of_eof {behind : List Bracket} (h : lexeme.Spelled regions cursor after behind)
    (heof : lexeme.kind = .eof) :
    lexeme = ⟨.eof, "", cursor.limit, cursor.limit, .done⟩ ∧ cursor.Drops [] after ∧
      after.ahead = [] ∧ after.malformed = none := by
  obtain ⟨opening, body, inner, hopening, hcut, hform⟩ := h
  cases hform with
  | eof hkind hresume hahead hmalformed =>
      have hdrops := hopening.trans hcut.drops
      have hpos : inner.pos = cursor.pos := hopening.pos
      have hlimit : cursor.limit = cursor.pos := by
        rw [Cursor.limit, hdrops.ahead, hahead]
        rfl
      refine ⟨?_, hdrops, hahead, hmalformed⟩
      obtain ⟨kind, value, start, stop, resume⟩ := lexeme
      obtain ⟨_, hstart, hstop, hvalue⟩ := hcut
      dsimp only at hkind hresume hstart hstop hvalue
      subst hkind
      rw [hresume, hstart, hstop, hdrops.pos, hlimit, hpos, hvalue TokenKind.noConfusion]
      rfl
  | error _ hkind => rw [hkind] at heof; cases heof
  | text delimiter hkind => exact absurd heof hkind.ne_eof
  | opening _ hkind => rw [hkind] at heof; cases heof
  | closing _ hkind => rw [hkind] at heof; cases heof

/-- Nothing but the end stops the reading. -/
theorem Spelled.eof_of_done {behind : List Bracket}
    (h : lexeme.Spelled regions cursor after behind) (hdone : lexeme.resume = .done) :
    lexeme.kind = .eof := by
  obtain ⟨opening, body, inner, _, _, hform⟩ := h
  cases hform with
  | eof hkind => exact hkind
  | error _ _ hresume => rw [hresume] at hdone; cases hdone
  | text delimiter _ hresume => cases delimiter <;> rw [hresume] at hdone <;> cases hdone
  | opening _ _ hresume => rw [hresume] at hdone; cases hdone
  | closing _ _ hresume => rw [hresume] at hdone; cases hdone

/-- A lexeme of a kind that stands between delimiters stands between delimiters. -/
theorem Spelled.exists_delimiter {behind : List Bracket} {kind : TokenKind}
    (h : lexeme.Spelled regions cursor after behind) (outer : Delimiter)
    (hkind : lexeme.kind = kind) (houter : outer.Encloses kind) :
    ∃ (delimiter : Delimiter) (body : List Char) (inner : Cursor), delimiter.Encloses kind ∧
      cursor.Drops delimiter.text inner ∧ lexeme.CutAt inner body after ∧
      delimiter.text <+: after.ahead := by
  subst hkind
  obtain ⟨opening, body, inner, hopening, hcut, hform⟩ := h
  cases hform with
  | eof hkind => exact absurd hkind houter.ne_eof
  | error _ hkind => rw [hkind] at houter; cases outer <;> exact houter.elim
  | text delimiter hencloses _ _ hclosing =>
      exact ⟨delimiter, body, inner, hencloses, hopening, hcut, hclosing⟩
  | opening _ hkind => rw [hkind] at houter; cases outer <;> exact houter.elim
  | closing _ hkind => rw [hkind] at houter; cases outer <;> exact houter.elim

end Lexeme

end ScalaLexer

import ScalaLexer.Proofs.Lexer.Call
import ScalaLexer.Proofs.Scan.LineBreak

/-!
# What a call finds

The next lexeme is where it is whatever the policy says about line breaks.  So a
call falls into two parts.

* `find` passes over the quotes that are left and over trivia and reads the lexeme
  behind them.  It knows neither the policy nor the last token.
* `Lexer.answerTo` makes an answer of it.  Where a line break was passed on the way,
  the policy is asked about it, and the answer may be the line break instead.

`step_of_find` says that a call is the one after the other.  `find_again` is what
makes a separator harmless: the call behind it finds the same lexeme, and no line
break in front of it.  `find_eq_ok` says where the lexeme and the line break stand.
-/

namespace ScalaLexer

open Trivia

/-! ## Finding a lexeme -/

/-- Drops the quotes that the last literal left behind. -/
def Mode.skipClosing : Mode → Scan Unit
  | .start | .done => pure ()
  | .closingQuote => Scan.skip
  | .closingTripleQuote => Scan.skipWhile (· = '\x22')

/-- Passes over all that stands in front of the next lexeme, and answers with the
place of the first line break on the way. -/
def approach (mode : Mode) : Scan (Option Cursor) := do
  mode.skipClosing
  skipBlanks
  let line ← get
  if line.ahead.head? = some '\n' then
    skipLines
    Scan.release
    return some line
  else
    return none

/-- The next lexeme and what stands around it. -/
structure Finding where
  /-- The place of the first line break in front of the lexeme. -/
  lineBreak : Option Cursor
  /-- The place where the lexeme begins. -/
  place : Cursor
  lexeme : Lexeme
  /-- The regions that are open behind it. -/
  regions : List Bracket
  /-- The place behind it. -/
  after : Cursor

/-- Finds the next lexeme.  A fault in a lexeme behind a line break leaves the cursor
in front of the lexeme, since it was only tried out. -/
def find [Unicode.Repertoire] (mode : Mode) (regions : List Bracket) (cursor : Cursor) :
    Except (Fault × Cursor) Finding :=
  match approach mode cursor with
  | .error fault place => .error (fault, place)
  | .ok lineBreak place =>
    match Lexeme.scan regions place with
    | .ok found after => .ok ⟨lineBreak, place, found.1, found.2, after⟩
    | .error fault after => .error (fault, if lineBreak.isSome then place else after)

variable {mode : Mode} {regions : List Bracket} {cursor place : Cursor} {finding : Finding}
  {lineBreak : Option Cursor} {fault : Fault}

section

variable [Unicode.Repertoire]

theorem find_of_approach_error (happroach : approach mode cursor = .error fault place) :
    find mode regions cursor = .error (fault, place) := by
  rw [find, happroach]

theorem find_of_scan_ok {found : Lexeme × List Bracket} {after : Cursor}
    (happroach : approach mode cursor = .ok lineBreak place)
    (hscan : Lexeme.scan regions place = .ok found after) :
    find mode regions cursor = .ok ⟨lineBreak, place, found.1, found.2, after⟩ := by
  simp only [find, happroach, hscan]

theorem find_of_scan_error {after : Cursor}
    (happroach : approach mode cursor = .ok lineBreak place)
    (hscan : Lexeme.scan regions place = .error fault after) :
    find mode regions cursor =
      .error (fault, if lineBreak.isSome then place else after) := by
  simp only [find, happroach, hscan]

/-- The lexeme is read where it was come to. -/
theorem scan_of_find (h : find mode regions cursor = .ok finding) :
    approach mode cursor = .ok finding.lineBreak finding.place ∧
      Lexeme.scan regions finding.place = .ok (finding.lexeme, finding.regions) finding.after := by
  cases happroach : approach mode cursor with
  | error fault place =>
      rw [find_of_approach_error happroach] at h
      cases h
  | ok lineBreak place =>
      cases hscan : Lexeme.scan regions place with
      | error fault after =>
          rw [find_of_scan_error happroach hscan] at h
          cases h
      | ok found after =>
          rw [find_of_scan_ok happroach hscan] at h
          cases h
          exact ⟨rfl, hscan⟩

end

/-! ## The way to the lexeme -/

section Approach

variable {begin line : Cursor} {gap rest : List Char} {c : Char}

theorem approach_of_skip_error (hskip : mode.skipClosing cursor = .error fault place) :
    approach mode cursor = .error fault place :=
  Scan.bind_eq_error.mpr (.inl hskip)

theorem approach_of_blanks_error (hskip : mode.skipClosing cursor = .ok () begin)
    (hblanks : skipBlanks begin = .error fault place) : approach mode cursor = .error fault place :=
  Scan.bind_eq_error.mpr (.inr ⟨(), begin, hskip, Scan.bind_eq_error.mpr (.inl hblanks)⟩)

theorem approach_of_lexeme (hskip : mode.skipClosing cursor = .ok () begin)
    (hblanks : skipBlanks begin = .ok () line) (hline : line.ahead.head? ≠ some '\n') :
    approach mode cursor = .ok none line := by
  refine Scan.bind_eq_ok.mpr ⟨(), begin, hskip, Scan.bind_eq_ok.mpr ⟨(), line, hblanks, ?_⟩⟩
  refine Scan.bind_eq_ok.mpr ⟨line, line, rfl, ?_⟩
  rw [if_neg hline]
  rfl

theorem approach_of_line (hskip : mode.skipClosing cursor = .ok () begin)
    (hblanks : skipBlanks begin = .ok () line) (hline : line.ahead.head? = some '\n')
    (hlines : skipLines line = .ok () place) :
    approach mode cursor = .ok (some line) place.release := by
  refine Scan.bind_eq_ok.mpr ⟨(), begin, hskip, Scan.bind_eq_ok.mpr ⟨(), line, hblanks, ?_⟩⟩
  refine Scan.bind_eq_ok.mpr ⟨line, line, rfl, ?_⟩
  rw [if_pos hline]
  exact Scan.bind_eq_ok.mpr ⟨(), place, hlines, rfl⟩

theorem approach_of_line_error (hskip : mode.skipClosing cursor = .ok () begin)
    (hblanks : skipBlanks begin = .ok () line) (hline : line.ahead.head? = some '\n')
    (hlines : skipLines line = .error fault place) : approach mode cursor = .error fault place := by
  refine Scan.bind_eq_error.mpr (.inr ⟨(), begin, hskip, ?_⟩)
  refine Scan.bind_eq_error.mpr (.inr ⟨(), line, hblanks, ?_⟩)
  refine Scan.bind_eq_error.mpr (.inr ⟨line, line, rfl, ?_⟩)
  rw [if_pos hline]
  exact Scan.bind_eq_error.mpr (.inl hlines)

/-- The two ways in which a lexeme is come to. -/
theorem approach_cases (h : approach mode cursor = .ok lineBreak place) :
    ∃ begin line, mode.skipClosing cursor = .ok () begin ∧ skipBlanks begin = .ok () line ∧
      ((lineBreak = none ∧ place = line ∧ line.ahead.head? ≠ some '\n') ∨
        (lineBreak = some line ∧ line.ahead.head? = some '\n' ∧
          ∃ after, skipLines line = .ok () after ∧ place = after.release)) := by
  obtain ⟨_, begin, hskip, hrest⟩ := Scan.bind_eq_ok.mp h
  obtain ⟨_, line, hblanks, hrest⟩ := Scan.bind_eq_ok.mp hrest
  obtain ⟨_, _, hget, hrest⟩ := Scan.bind_eq_ok.mp hrest
  cases hget
  refine ⟨begin, line, hskip, hblanks, ?_⟩
  split at hrest
  · next hline =>
      obtain ⟨_, after, hlines, hrelease⟩ := Scan.bind_eq_ok.mp hrest
      cases hrelease
      exact .inr ⟨rfl, hline, after, hlines, rfl⟩
  · next hline =>
      cases hrest
      exact .inl ⟨rfl, rfl, hline⟩

/-- The closing quotes are dropped. -/
theorem skipClosing_drops (hskip : mode.skipClosing cursor = .ok () begin) :
    cursor.Drops (mode.closing cursor.ahead) begin.release := by
  have hreleased {run : List Char} (h : cursor.Drops run begin) : cursor.Drops run begin.release :=
    ⟨h.ahead, h.pos, h.malformed, rfl, rfl⟩
  cases mode with
  | start => cases hskip; exact (Cursor.Reads.refl _).release
  | done => cases hskip; exact (Cursor.Reads.refl _).release
  | closingQuote => exact hreleased (Scan.skip_eq_ok hskip)
  | closingTripleQuote => exact hreleased (Scan.skipWhile_eq_ok hskip)

/-- Trivia is passed over on the way, and the line break that is reported is the
first one in it. -/
theorem approach_eq_ok (h : approach mode cursor = .ok lineBreak place) :
    ∃ begin gap, cursor.Drops (mode.closing cursor.ahead) begin ∧ Passes begin gap place ∧
      (lineBreak = none → ∀ front back, ¬ BreaksAt gap front back) ∧
      ∀ line, lineBreak = some line → ∃ front back, BreaksAt gap front back ∧
        line.ahead = '\n' :: (back ++ place.ahead) := by
  obtain ⟨begin, line, hskip, hblanks, hcases⟩ := approach_cases h
  have hline := (skipBlanks_passes hblanks).of_release
  have hahead := ahead_of_skipBlanks hblanks
  refine ⟨begin.release, ?_⟩
  rcases hcases with ⟨rfl, rfl, hnot⟩ | ⟨rfl, hbreak, after, hlines, rfl⟩
  · refine ⟨_, skipClosing_drops hskip, hline, fun _ front back hbreaks => hnot ?_, nofun⟩
    -- the blanks would have ended in front of the line break
    have hsplit := hbreaks.split place.ahead
    rw [hahead, split_append] at hsplit
    rw [hahead, hsplit]
    rfl
  · obtain ⟨back, hback⟩ : ∃ back, line.ahead = '\n' :: back := by
      cases hhead : line.ahead with
      | nil => rw [hhead] at hbreak; cases hbreak
      | cons c back => rw [hhead] at hbreak; cases hbreak; exact ⟨back, rfl⟩
    have hsplit : split isBlank 0 ((split isBlank 0 begin.ahead).1 ++ line.ahead) =
        ((split isBlank 0 begin.ahead).1, line.ahead) := by rw [hahead, split_append]
    have hmixture := (hline.trivia (by rw [hback]; exact nofun)).mixture_isBlank hsplit
    have hlinesAhead : after.ahead = (split isSpace 0 back).2 := by
      rw [Scan.ahead_of_readPart hlines, hback, split_outside isSpace (by rintro ⟨_, ⟨⟩⟩)]
      rfl
    have hpassed : (split isSpace 0 line.ahead).1 = '\n' :: (split isSpace 0 back).1 := by
      rw [hback, split_outside isSpace (by rintro ⟨_, ⟨⟩⟩)]
      rfl
    refine ⟨_, skipClosing_drops hskip, hline.trans (skipLines_passes hlines), nofun, ?_⟩
    rintro line ⟨⟩
    refine ⟨_, (split isSpace 0 back).1, ⟨by rw [hpassed], hmixture⟩, ?_⟩
    change line.ahead = '\n' :: ((split isSpace 0 back).1 ++ after.ahead)
    rw [hlinesAhead, split_append, hback]

/-- Coming to a lexeme from right in front of it. -/
theorem approach_again {line : Cursor} (h : approach mode cursor = .ok (some line) place) :
    approach .start place = .ok none place := by
  obtain ⟨_, _, _, _, hcases⟩ := approach_cases h
  rcases hcases with ⟨hnone, _⟩ | ⟨_, _, after, hlines, rfl⟩
  · cases hnone
  · obtain ⟨hblanks, hhead⟩ := skipBlanks_behind_lines hlines
    have hskip : Mode.start.skipClosing after.release = .ok () after.release := rfl
    exact approach_of_lexeme hskip hblanks hhead

private theorem readPart_of_ne_nil {cut : List Char → List Char × List Char}
    (hne : (cut cursor.ahead).2 ≠ []) :
    Scan.readPart cut cursor =
      .ok () (cursor.advance (cut cursor.ahead).1 (cut cursor.ahead).2).settle := by
  simp only [Scan.readPart, List.isEmpty_iff, if_neg hne]

/-- The closing quotes are dropped if something stands behind them. -/
theorem exists_skipClosing {more : List Char}
    (hahead : cursor.ahead = mode.closing cursor.ahead ++ more) (hne : more ≠ []) :
    ∃ begin, mode.skipClosing cursor = .ok () begin ∧ begin.ahead = more := by
  obtain ⟨begin, hskip⟩ : ∃ begin, mode.skipClosing cursor = .ok () begin := by
    cases mode with
    | start => exact ⟨cursor, rfl⟩
    | done => exact ⟨cursor, rfl⟩
    | closingQuote =>
        obtain ⟨c, tail, hcons⟩ := List.exists_cons_of_ne_nil (l := cursor.ahead)
          (by rw [hahead]; exact List.append_ne_nil_of_right_ne_nil _ hne)
        have hnext : Scan.next cursor = .ok (some c) (cursor.advance [c] tail) := by
          simp only [Scan.next, hcons]
        exact ⟨_, Scan.bind_eq_ok.mpr ⟨_, _, hnext, rfl⟩⟩
    | closingTripleQuote =>
        have hrest : (cursor.ahead.span (· = '\x22')).2 = more := by
          rw [List.span_eq_takeWhile_dropWhile]
          exact List.append_cancel_left (List.takeWhile_append_dropWhile.trans hahead)
        have hread : Scan.readPart (List.span (· = '\x22')) cursor = .ok () _ :=
          readPart_of_ne_nil (hrest ▸ hne)
        exact ⟨_, Scan.bind_eq_ok.mpr ⟨_, _, hread, rfl⟩⟩
  exact ⟨begin, hskip,
    List.append_cancel_left ((skipClosing_drops hskip).ahead.symm.trans hahead)⟩

/-- No space and no comment stand where a lexeme is come to. -/
theorem approach_head (h : approach mode cursor = .ok lineBreak place) {c : Char}
    {rest : List Char} (hahead : place.ahead = c :: rest) :
    isSpace c = false ∧ ¬ ['/', '*'] <+: c :: rest := by
  obtain ⟨begin, line, _, hblanks, hcases⟩ := approach_cases h
  rcases hcases with ⟨_, rfl, hnot⟩ | ⟨_, _, after, hlines, rfl⟩
  · obtain ⟨hblank, hopen⟩ := split_rest ((ahead_of_skipBlanks hblanks).symm.trans hahead)
    refine ⟨?_, hopen⟩
    rw [hahead] at hnot
    simpa [isSpace, hblank] using hnot
  · exact split_rest ((Scan.ahead_of_readPart hlines).symm.trans hahead)

/-- Whatever trivia stands in front of a lexeme, the lexeme is come to. -/
theorem approach_of_trivia (hskip : mode.skipClosing cursor = .ok () begin)
    (hahead : begin.ahead = gap ++ c :: rest) (htrivia : IsTrivia gap)
    (hspace : isSpace c = false) (hopen : ¬ ['/', '*'] <+: c :: rest) :
    ∃ lineBreak place, approach mode cursor = .ok lineBreak place ∧ begin.Drops gap place := by
  have hhead : ∀ first ∈ (c :: rest).head?, isSpace first = false := by
    rintro first ⟨⟩
    exact hspace
  have hall := htrivia.split_eq hhead hopen
  have hne := htrivia.split_isBlank_ne_nil hhead hopen nofun
  rw [← hahead] at hall hne
  obtain ⟨line, hblanks⟩ : ∃ line, skipBlanks begin = .ok () line := by
    rw [skipBlanks, readPart_of_ne_nil hne]
    exact ⟨_, rfl⟩
  have hline := ahead_of_skipBlanks hblanks
  have hpasses := skipBlanks_passes hblanks
  -- skipping space of all lines from the start on is skipping blanks first
  have hfront := (hpasses.trivia (hline ▸ hne)).mixture
  have hparts := split_mixture (by decide) hfront line.ahead
  rw [← hpasses.drops.ahead, hall] at hparts
  obtain ⟨hgap, hrest⟩ := Prod.mk.inj hparts
  by_cases hbreak : line.ahead.head? = some '\n'
  · obtain ⟨after, hlines⟩ : ∃ after, skipLines line = .ok () after := by
      rw [skipLines, readPart_of_ne_nil (by rw [← hrest]; exact nofun)]
      exact ⟨_, rfl⟩
    refine ⟨_, _, approach_of_line hskip hblanks hbreak hlines, ?_⟩
    rw [hgap]
    exact hpasses.drops.trans (skipLines_passes hlines).drops
  · have happroach := approach_of_lexeme hskip hblanks hbreak
    refine ⟨_, _, happroach, ?_⟩
    cases hcons : line.ahead with
    | nil => exact absurd (hline.symm.trans hcons) hne
    | cons first more =>
        obtain ⟨hfirst, hnot⟩ := approach_head happroach hcons
        have hstop : split isSpace 0 line.ahead = ([], line.ahead) := by
          rw [hcons]
          exact split_of_head (by rintro _ ⟨⟩; exact hfirst) hnot
        rw [hgap, hstop, List.append_nil]
        exact hpasses.drops

/-- Behind the closing quotes and trivia the lexeme is come to, and a line break is
reported if one stands in the trivia. -/
theorem approach_of_gap
    (hahead : cursor.ahead = mode.closing cursor.ahead ++ (gap ++ c :: rest))
    (htrivia : IsTrivia gap) (hspace : isSpace c = false) (hopen : ¬ ['/', '*'] <+: c :: rest) :
    ∃ lineBreak place, approach mode cursor = .ok lineBreak place ∧
      cursor.Drops (mode.closing cursor.ahead ++ gap) place ∧ place.ahead = c :: rest ∧
      (lineBreak = none ↔ ∀ front back, ¬ BreaksAt gap front back) := by
  have hne : gap ++ c :: rest ≠ [] := List.append_ne_nil_of_right_ne_nil _ (List.cons_ne_nil _ _)
  obtain ⟨begin, hskip, hbegin⟩ := exists_skipClosing hahead hne
  obtain ⟨lineBreak, place, happroach, hdrops⟩ :=
    approach_of_trivia hskip hbegin htrivia hspace hopen
  obtain ⟨_, passed, hclosing, hpasses, hnone, hsome⟩ := approach_eq_ok happroach
  have hplace : place.ahead = c :: rest :=
    List.append_cancel_left (hdrops.ahead.symm.trans hbegin)
  -- what was passed over on the way is the trivia
  have hpassed : passed = gap := by
    have hall := hclosing.ahead.symm.trans hahead
    rw [hpasses.drops.ahead, hplace] at hall
    exact List.append_cancel_right (List.append_cancel_left hall)
  subst hpassed
  refine ⟨lineBreak, place, happroach, hclosing.trans hpasses.drops, hplace, hnone, fun hnot => ?_⟩
  cases lineBreak with
  | none => rfl
  | some line =>
      obtain ⟨front, back, hbreaks, _⟩ := hsome line rfl
      exact absurd hbreaks (hnot front back)

end Approach

/-- Behind a line break the same lexeme is found again, without the line break. -/
theorem find_again [Unicode.Repertoire] {line : Cursor} (h : find mode regions cursor = .ok finding)
    (hline : finding.lineBreak = some line) :
    find .start regions finding.place = .ok { finding with lineBreak := none } := by
  obtain ⟨happroach, hscan⟩ := scan_of_find h
  exact find_of_scan_ok (approach_again (hline ▸ happroach)) hscan

/-- Where a lexeme is found: behind the closing quotes and trivia. -/
theorem find_eq_ok [Unicode.Repertoire] (h : find mode regions cursor = .ok finding) :
    approach mode cursor = .ok finding.lineBreak finding.place ∧
      finding.lexeme.Spelled regions finding.place finding.after finding.regions := by
  obtain ⟨happroach, hscan⟩ := scan_of_find h
  obtain ⟨_, _, _, hpasses, _⟩ := approach_eq_ok happroach
  exact ⟨happroach, Lexeme.scan_spelled hpasses.drops.idle hscan⟩

/-! ## Separators are no lexemes -/

/-- The kinds of the line breaks that separate statements. -/
def TokenKind.isSeparator : TokenKind → Bool
  | .newline | .newlines => true
  | _ => false

theorem Delimiter.Encloses.isSeparator {delimiter : Delimiter} {kind : TokenKind}
    (h : delimiter.Encloses kind) : kind.isSeparator = false := by
  cases kind <;> first | rfl | cases delimiter <;> exact h.elim

/-- No lexeme is a separator. -/
theorem Lexeme.Spelled.isSeparator {lexeme : Lexeme} {after : Cursor} {behind : List Bracket}
    (h : lexeme.Spelled regions cursor after behind) : lexeme.kind.isSeparator = false := by
  obtain ⟨_, _, _, _, _, hform⟩ := h
  cases hform with
  | eof hkind => rw [hkind]; rfl
  | error _ hkind => rw [hkind]; rfl
  | text _ hkind => exact hkind.isSeparator
  | opening _ hkind => rw [hkind]; rfl
  | closing _ hkind => rw [hkind]; rfl

namespace Lexer

variable {lexer : Lexer}

theorem separator_isSeparator (start : Nat) (run : List Char) :
    (separator start run).kind.isSeparator = true := by
  rcases separator_kind start run with hkind | hkind <;> rw [hkind] <;> rfl

/-! ## Answering -/

/-- The answer with the lexeme that was found. -/
def deliverFound (lexer : Lexer) (finding : Finding) : Answer :=
  (lexer.moveTo finding.after).deliver finding.lexeme finding.regions

/-- The answer with a line break in front of the lexeme that was found. -/
def deliverBreak (lexer : Lexer) (finding : Finding) (line : Cursor) : Answer :=
  (lexer.moveTo finding.place).deliver (separator line.pos (line.ahead.takeWhile isSpace))
    lexer.regions

/-- What a call makes of what it finds. -/
def answerTo (lexer : Lexer) (finding : Finding) : Answer :=
  match finding.lineBreak with
  | none => lexer.deliverFound finding
  | some line =>
    let consultation := lexer.consult (lexer.tokenOf finding.lexeme)
    (if consultation.decision then lexer.deliverBreak finding line
      else lexer.deliverFound finding).behind [consultation]

theorem answerTo_of_none (hline : finding.lineBreak = none) :
    lexer.answerTo finding = lexer.deliverFound finding := by
  rw [answerTo, hline]

theorem answerTo_of_some {line : Cursor} (hline : finding.lineBreak = some line) :
    lexer.answerTo finding =
      (if (lexer.consult (lexer.tokenOf finding.lexeme)).decision then
        lexer.deliverBreak finding line
      else lexer.deliverFound finding).behind [lexer.consult (lexer.tokenOf finding.lexeme)] := by
  rw [answerTo, hline]

/-- The answer is the lexeme, or a line break that the policy wants. -/
theorem answerTo_cases (lexer : Lexer) (finding : Finding) :
    (∃ consultations,
        lexer.answerTo finding = (lexer.deliverFound finding).behind consultations ∧
        ∀ line, finding.lineBreak = some line →
          (lexer.consult (lexer.tokenOf finding.lexeme)).decision = false) ∨
      ∃ line consultations, finding.lineBreak = some line ∧
        (lexer.consult (lexer.tokenOf finding.lexeme)).decision = true ∧
        lexer.answerTo finding = (lexer.deliverBreak finding line).behind consultations := by
  cases hline : finding.lineBreak with
  | none => exact .inl ⟨[], answerTo_of_none hline, nofun⟩
  | some line =>
      rw [answerTo_of_some hline]
      cases hdecision : (lexer.consult (lexer.tokenOf finding.lexeme)).decision with
      | false => exact .inl ⟨_, rfl, fun _ _ => rfl⟩
      | true => exact .inr ⟨line, _, rfl, rfl, rfl⟩

/-! ## A call finds and answers -/

variable [Unicode.Repertoire]

theorem dispatch_eq_reading (hmode : lexer.mode ≠ .done) :
    lexer.dispatch = lexer.reading lexer.mode.skipClosing fun _ after => after.readToken := by
  unfold dispatch
  cases hlexer : lexer.mode with
  | start => rfl
  | closingQuote => rfl
  | closingTripleQuote => rfl
  | done => exact absurd hlexer hmode

/-- A call up to where the lexeme begins. -/
theorem dispatch_of_approach (hmode : lexer.mode ≠ .done) :
    lexer.dispatch =
      match approach lexer.mode lexer.cursor with
      | .error fault place => lexer.fail fault place
      | .ok none place => (lexer.moveTo place).readLexeme
      | .ok (some line) place =>
        match (lexer.moveTo place).readLexeme.result with
        | .error diagnostic => ⟨.error diagnostic, lexer.moveTo place, []⟩
        | .ok next =>
          if (lexer.consult next).decision then
            ((lexer.moveTo place).deliver (separator line.pos (line.ahead.takeWhile isSpace))
              lexer.regions).behind [lexer.consult next]
          else (lexer.moveTo place).readLexeme.behind [lexer.consult next] := by
  rw [dispatch_eq_reading hmode, reading]
  cases hskip : lexer.mode.skipClosing lexer.cursor with
  | error fault place => rw [approach_of_skip_error hskip]
  | ok _ begin =>
      dsimp only
      cases hblanks : skipBlanks begin with
      | error fault place =>
          rw [approach_of_blanks_error hskip hblanks, readToken_of_fault hblanks]
          rfl
      | ok _ line =>
          by_cases hline : line.ahead.head? = some '\n'
          · cases hlines : skipLines line with
            | error fault place =>
                rw [approach_of_line_error hskip hblanks hline hlines,
                  readToken_of_line_fault hblanks hline hlines]
                rfl
            | ok _ after =>
                rw [approach_of_line hskip hblanks hline hlines,
                  readToken_of_line hblanks hline hlines]
                rfl
          · rw [approach_of_lexeme hskip hblanks hline,
              readToken_of_lexeme hblanks hline]
            rfl

theorem dispatch_of_find (hmode : lexer.mode ≠ .done) :
    lexer.dispatch =
      match find lexer.mode lexer.regions lexer.cursor with
      | .error (fault, place) => lexer.fail fault place
      | .ok finding => lexer.answerTo finding := by
  rw [dispatch_of_approach hmode]
  cases happroach : approach lexer.mode lexer.cursor with
  | error fault place => rw [find_of_approach_error happroach]
  | ok lineBreak place =>
      cases hscan : Lexeme.scan lexer.regions place with
      | error fault after =>
          have hread : (lexer.moveTo place).readLexeme = lexer.fail fault after :=
            readLexeme_eq_of_error hscan
          rw [find_of_scan_error happroach hscan]
          cases lineBreak with
          | none => exact hread
          | some line =>
              dsimp only
              rw [hread]
              rfl
      | ok found after =>
          have hread : (lexer.moveTo place).readLexeme =
              (lexer.moveTo after).deliver found.1 found.2 := readLexeme_eq_of_ok hscan
          rw [find_of_scan_ok happroach hscan]
          cases lineBreak with
          | none => exact hread
          | some line =>
              dsimp only
              rw [hread, answerTo_of_some rfl, apply_ite (Reply.behind · _)]
              rfl

omit [Unicode.Repertoire] in
/-- What was found is answered with a token. -/
theorem answerTo_result (lexer : Lexer) (finding : Finding) :
    ∃ token, (lexer.answerTo finding).result = .ok token := by
  rcases answerTo_cases lexer finding with ⟨asked, hanswer, _⟩ | ⟨line, asked, _, _, hanswer⟩
  · exact ⟨_, congrArg Reply.result hanswer⟩
  · exact ⟨_, congrArg Reply.result hanswer⟩

theorem step_of_find (hmode : lexer.mode ≠ .done)
    (hfind : find lexer.mode lexer.regions lexer.cursor = .ok finding) :
    lexer.step = lexer.answerTo finding := by
  have hdispatch := dispatch_of_find hmode
  rw [hfind] at hdispatch
  obtain ⟨token, htoken⟩ := answerTo_result lexer finding
  have hanswer : lexer.answerTo finding =
      ⟨.ok token, (lexer.answerTo finding).lexer, (lexer.answerTo finding).consultations⟩ :=
    htoken ▸ rfl
  rw [hanswer]
  exact step_eq_ok.mpr (hdispatch.trans hanswer)

/-- Behind a separator the lexeme in front of which it stands is the answer, and
nobody is asked. -/
theorem step_behind_break {line : Cursor}
    (hfind : find lexer.mode lexer.regions lexer.cursor = .ok finding)
    (hline : finding.lineBreak = some line) :
    (lexer.deliverBreak finding line).lexer.step =
      (lexer.deliverBreak finding line).lexer.deliverFound finding := by
  have hbehind : find (lexer.deliverBreak finding line).lexer.mode
      (lexer.deliverBreak finding line).lexer.regions
      (lexer.deliverBreak finding line).lexer.cursor = .ok { finding with lineBreak := none } :=
    find_again hfind hline
  have hmode : (lexer.deliverBreak finding line).lexer.mode ≠ .done := nofun
  exact step_of_find hmode hbehind

/-- The next token is this one, or it comes right behind a separator. -/
def ComesTo (lexer : Lexer) (token : Token) : Prop :=
  lexer.step.result = .ok token ∨
    ∃ separator, lexer.step.result = .ok separator ∧ separator.kind.isSeparator = true ∧
      lexer.step.lexer.step.result = .ok token

/-- The lexeme that is found is what comes next, apart from separators. -/
theorem comesTo_of_find (hmode : lexer.mode ≠ .done)
    (hfind : find lexer.mode lexer.regions lexer.cursor = .ok finding) :
    lexer.ComesTo (lexer.tokenOf finding.lexeme) := by
  rw [ComesTo, step_of_find hmode hfind]
  rcases answerTo_cases lexer finding with ⟨asked, hanswer, _⟩ | ⟨line, asked, hline, _, hanswer⟩
  · exact .inl (congrArg Reply.result hanswer)
  · rw [hanswer]
    refine .inr ⟨_, rfl, separator_isSeparator line.pos _, ?_⟩
    exact congrArg Reply.result (step_behind_break hfind hline)

theorem step_of_find_error (hmode : lexer.mode ≠ .done)
    (hfind : find lexer.mode lexer.regions lexer.cursor = .error (fault, place)) :
    lexer.step =
      ⟨.error (lexer.diagnosticOf fault), { lexer.moveTo place with mode := .done }, []⟩ := by
  have hdispatch := dispatch_of_find hmode
  rw [hfind] at hdispatch
  exact step_eq_error.mpr ⟨_, hdispatch, rfl⟩

/-- A token other than the separators and the end is the lexeme that is found, and no
separator is wanted in front of it. -/
theorem exists_finding_of_step {token : Token} (h : lexer.step.result = .ok token)
    (hseparator : token.kind.isSeparator = false) (heof : token.kind ≠ .eof) :
    ∃ finding, find lexer.mode lexer.regions lexer.cursor = .ok finding ∧
      token = lexer.tokenOf finding.lexeme ∧
      ∀ line, finding.lineBreak = some line → (lexer.consult token).decision = false := by
  have hmode : lexer.mode ≠ .done := by
    intro hdone
    rw [step_of_done hdone] at h
    cases h
    exact heof rfl
  cases hfind : find lexer.mode lexer.regions lexer.cursor with
  | error fault =>
      rw [step_of_find_error hmode hfind] at h
      cases h
  | ok finding =>
      rw [step_of_find hmode hfind] at h
      rcases answerTo_cases lexer finding with ⟨_, hanswer, hdecision⟩ | ⟨line, _, _, _, hanswer⟩
      · rw [hanswer] at h
        cases h
        exact ⟨finding, rfl, rfl, hdecision⟩
      · rw [hanswer] at h
        cases h
        exact absurd hseparator (by
          rw [Bool.not_eq_false]
          exact separator_isSeparator line.pos _)

/-- A token other than the separators and the end is a lexeme that stands somewhere ahead. -/
theorem exists_scan_of_step {token : Token} (h : lexer.step.result = .ok token)
    (hseparator : token.kind.isSeparator = false) (heof : token.kind ≠ .eof) :
    ∃ before place found after, lexer.cursor.Drops before place ∧
      Lexeme.scan lexer.regions place = .ok found after ∧ token = lexer.tokenOf found.1 := by
  obtain ⟨finding, hfind, htoken, _⟩ := exists_finding_of_step h hseparator heof
  obtain ⟨happroach, hscan⟩ := scan_of_find hfind
  obtain ⟨_, _, hclosing, hpasses, _⟩ := approach_eq_ok happroach
  exact ⟨_, _, _, _, hclosing.trans hpasses.drops, hscan, htoken⟩

/-- The quotes that are left are dropped before anything else is done. -/
theorem step_of_skipClosing {begin : Cursor} (hmode : lexer.mode ≠ .done)
    (hskip : lexer.mode.skipClosing lexer.cursor = .ok () begin) :
    lexer.step = { lexer with cursor := begin, mode := .start }.step := by
  let behind : Lexer := { lexer with cursor := begin, mode := .start }
  have happroach : approach lexer.mode lexer.cursor = approach .start begin := by
    simp only [approach, bind, EStateM.bind, hskip]
    rfl
  have hfind : find lexer.mode lexer.regions lexer.cursor = find .start lexer.regions begin := by
    rw [find, happroach, find]
  have hstart : behind.mode ≠ .done := Mode.noConfusion
  cases hfound : find .start lexer.regions begin with
  | error fault =>
      have hagain : behind.step = _ := step_of_find_error hstart hfound
      rw [step_of_find_error hmode (hfind.trans hfound)]
      exact hagain.symm
  | ok finding =>
      have hagain : behind.step = _ := step_of_find hstart hfound
      rw [step_of_find hmode (hfind.trans hfound)]
      exact hagain.symm

end Lexer

end ScalaLexer

import ScalaLexer.Proofs.Lexer.Dispatch

/-!
# What a call returns

A call drops the quotes that the last literal left behind, passes over trivia and
then answers with one of three things: a lexeme, a line break that the policy takes
for a separator, or the malformed byte.  `Lexer.Taken` is this list, and
`dispatch_taken` says that it is complete.

The rest of the file reads off the list what all calls have in common.

* `dispatch_frames`: the regions change by the kind of the token and by nothing else.
* `dispatch_drops`: the cursor only moves forward, and every token but the end takes
  a character.
* `dispatch_fault`: a failure is that of the malformed byte behind the text.
* `mode_of_dispatch`: a call is the last one if and only if it returns the end.
-/

namespace ScalaLexer

open Trivia

/-- The quotes that a reading in this mode drops first. -/
def Mode.closing : Mode → List Char → List Char
  | .start, _ | .done, _ => []
  | .closingQuote, ahead => ahead.take 1
  | .closingTripleQuote, ahead => ahead.takeWhile (· = '\x22')

namespace Lexer

variable {lexer after : Lexer} {closing : List Char} {answer : Answer} {token : Token}
  {consultations : List Separator.Consultation}

/-! ## The list of answers -/

/-- What a call can answer when it first drops the text `closing`. -/
inductive Taken (lexer : Lexer) (closing : List Char) : Answer → Prop
  | fault {fault : Fault} (place : Cursor) : lexer.cursor.Blames fault →
      Taken lexer closing (lexer.fail fault place)
  | lexeme {gap : List Char} {begin line place : Cursor} {found : Lexeme × List Bracket}
      (consultations : List Separator.Consultation) : lexer.cursor.Drops closing begin →
      Passes begin gap line → found.1.Spelled lexer.regions line place found.2 →
      Taken lexer closing (((lexer.moveTo place).deliver found.1 found.2).behind consultations)
  | separator {gap pad : List Char} {begin line between place : Cursor}
      (consultations : List Separator.Consultation) : lexer.cursor.Drops closing begin →
      Passes begin gap line → line.ahead.head? = some '\n' →
      line.Drops (line.ahead.takeWhile isSpace) between → Passes between pad place →
      Taken lexer closing (((lexer.moveTo place).deliver
        (separator line.pos (line.ahead.takeWhile isSpace)) lexer.regions).behind consultations)

/-- What is taken behind the quotes is taken behind them. -/
theorem Taken.of_moveTo {begin : Cursor} (hclosing : lexer.cursor.Drops closing begin)
    (htaken : (lexer.moveTo begin).Taken [] answer) : lexer.Taken closing answer := by
  have hdrops {inner : Cursor} (h : begin.Drops [] inner) : lexer.cursor.Drops closing inner := by
    have htrans := hclosing.trans h
    rwa [List.append_nil] at htrans
  cases htaken with
  | fault place hblames => exact .fault place (hblames.of_drops hclosing)
  | lexeme consultations hbegin hpasses hspelled =>
      exact .lexeme consultations (hdrops hbegin) hpasses hspelled
  | separator consultations hbegin hpasses hline hrun hpad =>
      exact .separator consultations (hdrops hbegin) hpasses hline hrun hpad

section

variable [Unicode.Repertoire]

/-- At a place behind the cursor a lexeme is read or the malformed byte is met. -/
theorem readLexeme_cases {run : List Char} {line : Cursor} (hline : lexer.cursor.Drops run line) :
    (∃ fault place, lexer.cursor.Blames fault ∧
      (lexer.moveTo line).readLexeme = lexer.fail fault place) ∨
    ∃ (found : Lexeme × List Bracket) (place : Cursor),
      found.1.Spelled lexer.regions line place found.2 ∧
      (lexer.moveTo line).readLexeme = (lexer.moveTo place).deliver found.1 found.2 := by
  cases hscan : Lexeme.scan lexer.regions line with
  | error fault place =>
      have hblames := (Lexeme.scan_paired lexer.regions).fault hscan
      exact .inl ⟨fault, place, hblames.of_drops hline, readLexeme_eq_of_error hscan⟩
  | ok found place =>
      exact .inr ⟨found, place, Lexeme.scan_spelled hline.idle hscan, readLexeme_eq_of_ok hscan⟩

theorem readToken_taken (lexer : Lexer) : lexer.Taken [] lexer.readToken := by
  have hbegin : lexer.cursor.Drops [] lexer.cursor.release := (Cursor.Reads.refl _).release
  cases hblanks : skipBlanks lexer.cursor with
  | error fault place =>
      rw [readToken_of_fault hblanks]
      exact .fault place (skipBlanks_fault hblanks)
  | ok _ line =>
      have hpasses := (skipBlanks_passes hblanks).of_release
      by_cases hline : line.ahead.head? = some '\n'
      · cases hlines : skipLines line with
        | error fault place =>
            rw [readToken_of_line_fault hblanks hline hlines]
            exact .fault place ((skipLines_plain.fault hlines).of_drops (skipBlanks_eq_ok hblanks))
        | ok _ behind =>
            -- the lexeme behind the line break is the answer, or the policy wants the break
            obtain ⟨pad, between, hrun, hpad⟩ := skipLines_behind_run hlines
            have hall := hpasses.trans (skipLines_passes hlines)
            rw [readToken_of_line hblanks hline hlines]
            rcases readLexeme_cases (hbegin.trans hall.drops) with
              ⟨fault, place, hblames, hread⟩ | ⟨found, place, hspelled, hread⟩
            · rw [hread]
              exact .fault behind.release hblames
            · rw [hread]
              dsimp only [deliver]
              split
              · exact .separator [_] hbegin hpasses hline hrun hpad
              · exact .lexeme [_] hbegin hall hspelled
      · rw [readToken_of_lexeme hblanks hline]
        rcases readLexeme_cases (hbegin.trans hpasses.drops) with
          ⟨fault, place, hblames, hread⟩ | ⟨found, place, hspelled, hread⟩
        · rw [hread]
          exact .fault place hblames
        · rw [hread]
          exact .lexeme [] hbegin hpasses hspelled

/-! ## A call in each of the modes -/

/-- The end that a lexer returns once it is done. -/
def endToken (lexer : Lexer) : Token :=
  ⟨.eof, String.ofList lexer.cursor.pending, ⟨lexer.cursor.start, lexer.cursor.pos, lexer.file⟩⟩

/-- A lexer that is done only answers that it is. -/
theorem dispatch_of_done (hdone : lexer.mode = .done) :
    lexer.dispatch =
      ⟨.ok lexer.endToken,
        { lexer.moveTo lexer.cursor.release.settle with lastToken := some .eof }, []⟩ := by
  obtain ⟨source, file, policy, cursor, mode, lastToken, regions⟩ := lexer
  obtain rfl : mode = .done := hdone
  rfl

/-- A token is read behind the quotes that are skipped. -/
theorem reading_taken {skipping : Scan Unit}
    (hok : ∀ begin, skipping lexer.cursor = .ok () begin → lexer.cursor.Drops closing begin)
    (hfault : ∀ fault place, skipping lexer.cursor = .error fault place →
      lexer.cursor.Blames fault) :
    lexer.Taken closing (lexer.reading skipping fun _ after => after.readToken) := by
  unfold reading
  split
  · next hskip => exact .of_moveTo (hok _ hskip) (readToken_taken _)
  · next hskip => exact .fault _ (hfault _ _ hskip)

theorem dispatch_taken (hmode : lexer.mode ≠ .done) :
    lexer.Taken (lexer.mode.closing lexer.cursor.ahead) lexer.dispatch := by
  unfold dispatch
  cases hlexer : lexer.mode with
  | start => exact readToken_taken lexer
  | closingQuote =>
      exact reading_taken (fun _ => Scan.skip_eq_ok) fun _ _ => Scan.skip_fault
  | closingTripleQuote =>
      exact reading_taken (fun _ => Scan.skipWhile_eq_ok) fun _ _ => Scan.skipWhile_fault
  | done => exact absurd hlexer hmode

end

/-! ## Reading off the list -/

/-- A separator is one of two kinds, and neither does anything special. -/
theorem separator_kind (start : Nat) (run : List Char) :
    (separator start run).kind = .newline ∨ (separator start run).kind = .newlines := by
  unfold separator
  dsimp only
  split
  · exact .inr rfl
  · exact .inl rfl

theorem separator_regionEffect (start : Nat) (run : List Char) :
    (separator start run).kind.regionEffect = .none := by
  rcases separator_kind start run with hkind | hkind <;> rw [hkind] <;> rfl

theorem separator_ne_eof (start : Nat) (run : List Char) : (separator start run).kind ≠ .eof := by
  rcases separator_kind start run with hkind | hkind <;> rw [hkind] <;> exact nofun

theorem Taken.frames (htaken : lexer.Taken closing answer) : lexer.Frames answer := by
  cases htaken with
  | fault => exact ⟨rfl, rfl, rfl, nofun, fun _ _ => rfl⟩
  | lexeme _ _ _ hspelled =>
      obtain ⟨hregions, hadmissible⟩ := hspelled.regionEffect
      refine ⟨rfl, rfl, rfl, fun token htoken => ?_, nofun⟩
      cases htoken
      exact ⟨hadmissible, hregions⟩
  | @separator _ _ _ line =>
      refine ⟨rfl, rfl, rfl, fun token htoken => ?_, nofun⟩
      cases htoken
      have heffect := separator_regionEffect line.pos (line.ahead.takeWhile isSpace)
      dsimp only [tokenOf]
      rw [heffect]
      exact ⟨trivial, rfl⟩

theorem Taken.drops (htaken : lexer.Taken closing ⟨.ok token, after, consultations⟩) :
    ∃ run, lexer.cursor.Drops run after.cursor ∧ (token.kind ≠ .eof → run ≠ []) := by
  cases htaken with
  | lexeme _ hbegin hpasses hspelled =>
      obtain ⟨run, hrun, hne⟩ := hspelled.exists_drops
      refine ⟨_, (hbegin.trans hpasses.drops).trans hrun, fun hkind => ?_⟩
      exact List.append_ne_nil_of_right_ne_nil _ (hne hkind)
  | @separator _ _ _ line _ _ _ hbegin hpasses hline hrun hpad =>
      have hall := (hbegin.trans hpasses.drops).trans (hrun.trans hpad.drops)
      refine ⟨_, hall, fun _ => List.append_ne_nil_of_right_ne_nil _ ?_⟩
      exact List.append_ne_nil_of_left_ne_nil (takeWhile_isSpace_ne_nil hline) _

theorem Taken.done_iff (htaken : lexer.Taken closing ⟨.ok token, after, consultations⟩) :
    after.mode = .done ↔ token.kind = .eof := by
  cases htaken with
  | lexeme _ _ _ hspelled =>
      constructor
      · exact hspelled.eof_of_done
      · exact fun heof => congrArg Lexeme.resume (hspelled.of_eof heof).1
  | @separator _ _ _ line =>
      have hkind := separator_ne_eof line.pos (line.ahead.takeWhile isSpace)
      exact ⟨nofun, fun heof => absurd heof hkind⟩

/-- The end is found where nothing but trivia is left. -/
theorem Taken.eof (htaken : lexer.Taken closing ⟨.ok token, after, consultations⟩)
    (heof : token.kind = .eof) :
    token = ⟨.eof, "", ⟨lexer.cursor.limit, lexer.cursor.limit, lexer.file⟩⟩ ∧
      after.cursor.ahead = [] ∧ after.cursor.malformed = none ∧
      ∃ gap begin, lexer.cursor.Drops closing begin ∧ Passes begin gap after.cursor := by
  cases htaken with
  | @lexeme gap begin line place found _ hbegin hpasses hspelled =>
      obtain ⟨hlexeme, hrun, hahead, hmalformed⟩ := hspelled.of_eof heof
      have hall := hpasses.drops.trans hrun
      rw [List.append_nil] at hall
      refine ⟨?_, hahead, hmalformed, gap, begin, hbegin, hall, hpasses.trailing,
        fun hne => absurd hahead hne⟩
      rw [hlexeme, (hbegin.trans hpasses.drops).limit]
      rfl
  | @separator _ _ _ line =>
      exact absurd heof (separator_ne_eof line.pos (line.ahead.takeWhile isSpace))

theorem Taken.fault_of_error {diagnostic : Diagnostic}
    (htaken : lexer.Taken closing ⟨.error diagnostic, after, consultations⟩) :
    ∃ fault, lexer.cursor.Blames fault ∧ diagnostic = lexer.diagnosticOf fault := by
  cases htaken with
  | fault _ hblames => exact ⟨_, hblames, rfl⟩

/-! ## What every call has in common -/

variable [Unicode.Repertoire]

theorem dispatch_frames (lexer : Lexer) : lexer.Frames lexer.dispatch := by
  by_cases hmode : lexer.mode = .done
  · rw [dispatch_of_done hmode]
    refine ⟨rfl, rfl, rfl, fun token htoken => ?_, nofun⟩
    cases htoken
    exact ⟨trivial, rfl⟩
  · exact (dispatch_taken hmode).frames

/-- A token is taken away from what is ahead, and only the end takes nothing. -/
theorem dispatch_drops (h : lexer.dispatch = ⟨.ok token, after, consultations⟩) :
    ∃ run, lexer.cursor.Drops run after.cursor ∧ (token.kind ≠ .eof → run ≠ []) := by
  by_cases hmode : lexer.mode = .done
  · rw [dispatch_of_done hmode] at h
    cases h
    exact ⟨[], (Cursor.Reads.refl _).release.settle, fun hkind => absurd rfl hkind⟩
  · exact (h ▸ dispatch_taken hmode).drops

/-- The end is the last token. -/
theorem mode_of_dispatch (h : lexer.dispatch = ⟨.ok token, after, consultations⟩) :
    after.mode = .done ↔ token.kind = .eof := by
  by_cases hmode : lexer.mode = .done
  · rw [dispatch_of_done hmode] at h
    cases h
    exact ⟨fun _ => rfl, fun _ => hmode⟩
  · exact (h ▸ dispatch_taken hmode).done_iff

/-- A call fails at the malformed byte, and only if it is not done. -/
theorem dispatch_fault {diagnostic : Diagnostic}
    (h : lexer.dispatch = ⟨.error diagnostic, after, consultations⟩) :
    lexer.mode ≠ .done ∧
      ∃ fault, lexer.cursor.Blames fault ∧ diagnostic = lexer.diagnosticOf fault := by
  by_cases hmode : lexer.mode = .done
  · rw [dispatch_of_done hmode] at h
    cases h
  · exact ⟨hmode, (h ▸ dispatch_taken hmode).fault_of_error⟩

/-! ## The call itself -/

/-- A call that returns a token is a dispatch. -/
theorem step_eq_ok : lexer.step = ⟨.ok token, after, consultations⟩ ↔
    lexer.dispatch = ⟨.ok token, after, consultations⟩ := by
  unfold step
  rcases lexer.dispatch with ⟨diagnostic | found, place, asked⟩
  · exact ⟨nofun, nofun⟩
  · exact Iff.rfl

theorem step_of_done (hdone : lexer.mode = .done) :
    lexer.step =
      ⟨.ok lexer.endToken,
        { lexer.moveTo lexer.cursor.release.settle with lastToken := some .eof }, []⟩ :=
  step_eq_ok.mpr (dispatch_of_done hdone)

/-- A call that fails is a dispatch that fails, and the lexer is done then. -/
theorem step_eq_error {diagnostic : Diagnostic} :
    lexer.step = ⟨.error diagnostic, after, consultations⟩ ↔
      ∃ place, lexer.dispatch = ⟨.error diagnostic, place, consultations⟩ ∧
        after = { place with mode := .done } := by
  unfold step
  rcases lexer.dispatch with ⟨found | token, place, asked⟩
  · constructor
    · intro h
      cases h
      exact ⟨place, rfl, rfl⟩
    · rintro ⟨_, h, rfl⟩
      cases h
      rfl
  · constructor
    · exact nofun
    · rintro ⟨_, h, _⟩
      cases h

end Lexer

end ScalaLexer

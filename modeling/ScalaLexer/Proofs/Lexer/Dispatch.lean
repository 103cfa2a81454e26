import ScalaLexer.Lexer.LookAhead
import ScalaLexer.Proofs.Scan.Spelling
import ScalaLexer.Proofs.Scan.Trivia

/-!
# What one call does

`Lexer.readToken` makes a trial behind a line break and reads there once more when
the policy says no.  This file takes the trial out of it.

* `Lexer.Frames` says what an answer may change: the regions change as the kind of
  the token says, and what belongs to the source does not change at all.
* `Frames.trial_lexer`: the trial of such an answer leaves the lexer as it was.
* `readToken_of_line`: behind a line break neither space nor a comment is left, so
  the trial never comes to another line break, and reading there again finds what
  the trial found.
-/

namespace ScalaLexer

namespace Lexer

variable {lexer : Lexer}

/-! ## What an answer may change -/

/-- Nothing of the source changes, and the regions change by the token alone. -/
structure Frames (lexer : Lexer) (answer : Answer) : Prop where
  source : answer.lexer.source = lexer.source
  file : answer.lexer.file = lexer.file
  policy : answer.lexer.policy = lexer.policy
  token : ∀ token, answer.result = .ok token →
    token.kind.regionEffect.Admissible lexer.regions ∧
      answer.lexer.regions = token.kind.regionEffect.apply lexer.regions
  error : ∀ diagnostic, answer.result = .error diagnostic → answer.lexer.regions = lexer.regions

/-- A lexer of the same source that is put back differs from what it was by its regions. -/
theorem restore_snapshot {after : Lexer} (hsource : after.source = lexer.source)
    (hfile : after.file = lexer.file) (hpolicy : after.policy = lexer.policy) :
    after.restore lexer.snapshot = { lexer with regions := after.regions } := by
  cases lexer
  cases after
  simp_all [restore, snapshot]

/-- It is what it was once its regions are. -/
theorem restore_snapshot_eq {after : Lexer} (hsource : after.source = lexer.source)
    (hfile : after.file = lexer.file) (hpolicy : after.policy = lexer.policy)
    (hregions : after.regions = lexer.regions) : after.restore lexer.snapshot = lexer := by
  rw [restore_snapshot hsource hfile hpolicy, hregions]

/-! ## What a trial is -/

section Trial

variable {further : Token → Lexer → Answer} {after : Lexer}
  {consultations : List Separator.Consultation}

theorem trial_of_begun (first : Answer) (hbegun : lexer.cursor.start < lexer.cursor.pos) :
    lexer.trial first further = ⟨.error lexer.misuse, lexer, []⟩ :=
  if_pos hbegun

theorem trial_of_error {diagnostic : Diagnostic} (hidle : ¬ lexer.cursor.start < lexer.cursor.pos) :
    lexer.trial ⟨.error diagnostic, after, consultations⟩ further =
      ⟨.error diagnostic, after.restore lexer.snapshot, consultations⟩ :=
  if_neg hidle

theorem trial_of_ok {token : Token} (hidle : ¬ lexer.cursor.start < lexer.cursor.pos) :
    lexer.trial ⟨.ok token, after, consultations⟩ further =
      { result := (further token after).result
        lexer := ((further token after).lexer.undo token.kind).restore lexer.snapshot
        consultations := consultations ++ (further token after).consultations } :=
  if_neg hidle

end Trial

/-- A trial leaves no trace if what it goes on with leaves none. -/
theorem Frames.trial_lexer {first : Answer} {further : Token → Lexer → Answer}
    (hframes : lexer.Frames first) (hfurther : ∀ token after, (further token after).lexer = after) :
    (lexer.trial first further).lexer = lexer := by
  obtain ⟨result, after, consultations⟩ := first
  obtain ⟨hsource, hfile, hpolicy, htoken, herror⟩ := hframes
  by_cases hbegun : lexer.cursor.start < lexer.cursor.pos
  · rw [trial_of_begun _ hbegun]
  · cases result with
    | error diagnostic =>
        rw [trial_of_error hbegun]
        exact restore_snapshot_eq hsource hfile hpolicy (herror diagnostic rfl)
    | ok token =>
        obtain ⟨hadmissible, hregions⟩ := htoken token rfl
        rw [trial_of_ok hbegun]
        dsimp only
        rw [hfurther token after]
        refine restore_snapshot_eq hsource hfile hpolicy ?_
        change token.kind.regionEffect.undo after.regions = lexer.regions
        rw [hregions]
        exact RegionEffect.undo_apply hadmissible

/-! ## Reading a lexeme -/

variable [Unicode.Repertoire]

/-- The answer to a lexeme that was found. -/
theorem readLexeme_eq_of_ok {found : Lexeme × List Bracket} {after : Cursor}
    (h : Lexeme.scan lexer.regions lexer.cursor = .ok found after) :
    lexer.readLexeme = (lexer.moveTo after).deliver found.1 found.2 := by
  simp only [readLexeme, reading, h]

theorem readLexeme_eq_of_error {fault : Fault} {after : Cursor}
    (h : Lexeme.scan lexer.regions lexer.cursor = .error fault after) :
    lexer.readLexeme = lexer.fail fault after := by
  simp only [readLexeme, reading, h]

theorem readLexeme_frames (hidle : lexer.cursor.Idle) : lexer.Frames lexer.readLexeme := by
  cases hscan : Lexeme.scan lexer.regions lexer.cursor with
  | error fault after =>
      rw [readLexeme_eq_of_error hscan]
      exact ⟨rfl, rfl, rfl, nofun, fun _ _ => rfl⟩
  | ok found after =>
      obtain ⟨hregions, hadmissible⟩ := (Lexeme.scan_spelled hidle hscan).regionEffect
      rw [readLexeme_eq_of_ok hscan]
      refine ⟨rfl, rfl, rfl, fun token htoken => ?_, nofun⟩
      cases htoken
      exact ⟨hadmissible, hregions⟩

theorem readLexeme_consultations (lexer : Lexer) : lexer.readLexeme.consultations = [] := by
  simp only [readLexeme, reading]
  split <;> rfl

/-- Trying out a lexeme finds it and leaves the lexer where it is. -/
theorem trial_readLexeme (hidle : lexer.cursor.Idle) :
    lexer.trial lexer.readLexeme halt = ⟨lexer.readLexeme.result, lexer, []⟩ := by
  have hlexer : (lexer.trial lexer.readLexeme halt).lexer = lexer :=
    (readLexeme_frames hidle).trial_lexer fun _ _ => rfl
  have hnone := readLexeme_consultations lexer
  have hnotBegun : ¬ lexer.cursor.start < lexer.cursor.pos := by
    rw [hidle.start]
    exact Nat.lt_irrefl _
  generalize lexer.readLexeme = answer at hlexer hnone ⊢
  obtain ⟨result, after, consultations⟩ := answer
  obtain rfl : consultations = [] := hnone
  cases result with
  | error diagnostic =>
      rw [trial_of_error hnotBegun] at hlexer ⊢
      dsimp only at hlexer ⊢
      rw [hlexer]
  | ok token =>
      rw [trial_of_ok hnotBegun] at hlexer ⊢
      dsimp only [halt] at hlexer ⊢
      rw [hlexer]
      rfl

/-! ## Reading from between two lexemes -/

/-- The definition without the facts that its termination needs. -/
theorem readToken_eq (lexer : Lexer) :
    lexer.readToken =
      match Trivia.skipBlanks lexer.cursor with
      | .error fault cursor => lexer.fail fault cursor
      | .ok _ line =>
        if line.ahead.head? = some '\n' then
          match Trivia.skipLines line with
          | .error fault cursor => lexer.fail fault cursor
          | .ok _ after =>
            let behind := lexer.moveTo after.release
            let trial := behind.trial behind.readToken halt
            match trial.result with
            | .error _ => trial
            | .ok next =>
              let consultation := trial.lexer.consult next
              let answer :=
                if consultation.decision then
                  trial.lexer.deliver (separator line.pos (line.ahead.takeWhile isSpace))
                    trial.lexer.regions
                else trial.lexer.readToken
              answer.behind (trial.consultations ++ [consultation])
        else (lexer.moveTo line).readLexeme := by
  rw [readToken]
  split
  · next hblanks => rw [hblanks]
  · next line hblanks =>
      rw [hblanks]
      by_cases hline : line.ahead.head? = some '\n'
      · rw [dif_pos hline]
        simp only [if_pos hline]
        split
        · next hlines => rw [hlines]
        · next hlines => exact hlines ▸ rfl
      · rw [dif_neg hline]
        simp only [if_neg hline]

theorem readToken_of_fault {fault : Fault} {after : Cursor}
    (hblanks : Trivia.skipBlanks lexer.cursor = .error fault after) :
    lexer.readToken = lexer.fail fault after := by
  rw [readToken_eq, hblanks]

/-- Where no line break stands behind the blanks, a lexeme is read there. -/
theorem readToken_of_lexeme {line : Cursor}
    (hblanks : Trivia.skipBlanks lexer.cursor = .ok () line)
    (hline : line.ahead.head? ≠ some '\n') :
    lexer.readToken = (lexer.moveTo line).readLexeme := by
  rw [readToken_eq, hblanks]
  exact if_neg hline

theorem readToken_of_line_fault {line after : Cursor} {fault : Fault}
    (hblanks : Trivia.skipBlanks lexer.cursor = .ok () line)
    (hline : line.ahead.head? = some '\n')
    (hlines : Trivia.skipLines line = .error fault after) :
    lexer.readToken = lexer.fail fault after := by
  rw [readToken_eq, hblanks]
  simp only [if_pos hline, hlines]

/-- Behind a line break one lexeme is read.  If there is none, the lexer stays in
front of it; otherwise the policy decides whether the line break is the token or
that lexeme. -/
theorem readToken_of_line {line after : Cursor}
    (hblanks : Trivia.skipBlanks lexer.cursor = .ok () line)
    (hline : line.ahead.head? = some '\n')
    (hlines : Trivia.skipLines line = .ok () after) :
    let behind := lexer.moveTo after.release
    lexer.readToken =
      match behind.readLexeme.result with
      | .error diagnostic => ⟨.error diagnostic, behind, []⟩
      | .ok next =>
        let consultation := behind.consult next
        if consultation.decision then
          (behind.deliver (separator line.pos (line.ahead.takeWhile isSpace))
            behind.regions).behind [consultation]
        else behind.readLexeme.behind [consultation] := by
  intro behind
  -- so neither the trial nor the second reading comes to another line break
  obtain ⟨hnoBlanks, hnoLine⟩ := Trivia.skipBlanks_behind_lines hlines
  have hread : behind.readToken = behind.readLexeme := readToken_of_lexeme hnoBlanks hnoLine
  have htrial : behind.trial behind.readToken halt = ⟨behind.readLexeme.result, behind, []⟩ := by
    rw [hread]
    exact trial_readLexeme ⟨rfl, rfl⟩
  rw [readToken_eq, hblanks]
  simp only [if_pos hline, hlines]
  change (match (behind.trial behind.readToken halt).result with
    | .error _ => behind.trial behind.readToken halt
    | .ok next => _) = _
  rw [htrial]
  cases hresult : behind.readLexeme.result with
  | error diagnostic => rfl
  | ok next =>
      simp only [hread]
      split <;> rfl

end Lexer

end ScalaLexer

import ScalaLexer.Proofs.Lexer.Run

/-!
# The same source without its malformed end

A lexer that returns a token has not needed what stands at the malformed byte.  So
it returns the same token, and stands in the same place, if the source ends there.

The comparison follows the call.  Each scan below it succeeds in front of the end as
it does in front of the malformed byte (`Scan.Plain.ok_truncated`), and the
questions put to the policy are the same, since the lexeme tried out is.
-/

namespace ScalaLexer

open Trivia

namespace Lexer

variable {lexer after last : Lexer} {token : Token} {tokens : List Token}
  {consultations : List Separator.Consultation} (source : List UInt8)

/-- The same lexer for a source that ends in front of the malformed byte. -/
def truncated (lexer : Lexer) (source : List UInt8) : Lexer :=
  { lexer with source, cursor := lexer.cursor.truncated }

variable [Unicode.Repertoire]

theorem readLexeme_truncated (h : lexer.readLexeme = ⟨.ok token, after, consultations⟩) :
    (lexer.truncated source).readLexeme = ⟨.ok token, after.truncated source, consultations⟩ := by
  cases hscan : Lexeme.scan lexer.regions lexer.cursor with
  | error fault place =>
      rw [readLexeme_eq_of_error hscan] at h
      cases h
  | ok found place =>
      have hsame : Lexeme.scan (lexer.truncated source).regions (lexer.truncated source).cursor =
          .ok found place.truncated := (Lexeme.scan_paired lexer.regions).ok_truncated hscan
      rw [readLexeme_eq_of_ok hscan] at h
      rw [readLexeme_eq_of_ok hsame]
      cases h
      rfl

theorem readToken_truncated (h : lexer.readToken = ⟨.ok token, after, consultations⟩) :
    (lexer.truncated source).readToken = ⟨.ok token, after.truncated source, consultations⟩ := by
  cases hblanks : skipBlanks lexer.cursor with
  | error fault place =>
      rw [readToken_of_fault hblanks] at h
      cases h
  | ok _ line =>
      have hsame : skipBlanks (lexer.truncated source).cursor = .ok () line.truncated :=
        skipBlanks_ok_truncated hblanks
      by_cases hline : line.ahead.head? = some '\n'
      · cases hlines : skipLines line with
        | error fault place =>
            rw [readToken_of_line_fault hblanks hline hlines] at h
            cases h
        | ok _ place =>
            rw [readToken_of_line hblanks hline hlines] at h
            rw [readToken_of_line hsame hline (skipLines_plain.ok_truncated hlines)]
            rcases hread : (lexer.moveTo place.release).readLexeme with
              ⟨diagnostic | next, behind, asked⟩
            · rw [hread] at h
              cases h
            · have hnext :
                  ((lexer.truncated source).moveTo place.truncated.release).readLexeme = _ :=
                readLexeme_truncated source hread
              -- the policy is asked about the same token by a lexer that remembers the same
              rw [hread] at h
              rw [hnext]
              dsimp only at h ⊢
              split at h
              · next hdecision =>
                  cases h
                  exact if_pos hdecision
              · next hdecision =>
                  cases h
                  exact if_neg hdecision
      · rw [readToken_of_lexeme hblanks hline] at h
        rw [readToken_of_lexeme hsame hline]
        exact readLexeme_truncated source h

theorem reading_truncated {skipping : Scan Unit}
    (hskipping : ∀ begin, skipping lexer.cursor = .ok () begin →
      skipping lexer.cursor.truncated = .ok () begin.truncated)
    (h : lexer.reading skipping (fun _ after => after.readToken) =
      ⟨.ok token, after, consultations⟩) :
    (lexer.truncated source).reading skipping (fun _ after => after.readToken) =
      ⟨.ok token, after.truncated source, consultations⟩ := by
  unfold reading at h ⊢
  split at h
  · next hskip =>
      have hsame : skipping (lexer.truncated source).cursor = _ := hskipping _ hskip
      rw [hsame]
      exact readToken_truncated source h
  · cases h

theorem dispatch_truncated (h : lexer.dispatch = ⟨.ok token, after, consultations⟩) :
    (lexer.truncated source).dispatch = ⟨.ok token, after.truncated source, consultations⟩ := by
  have hsame : (lexer.truncated source).mode = lexer.mode := rfl
  unfold dispatch at h ⊢
  rw [hsame]
  cases hmode : lexer.mode with
  | start =>
      rw [hmode] at h
      exact readToken_truncated source h
  | closingQuote =>
      rw [hmode] at h
      exact reading_truncated source (fun _ => Scan.skip_ok_truncated) h
  | closingTripleQuote =>
      rw [hmode] at h
      exact reading_truncated source (fun _ => Scan.skipWhile_ok_truncated) h
  | done =>
      rw [hmode] at h
      cases h
      rfl

theorem step_truncated (h : lexer.step = ⟨.ok token, after, consultations⟩) :
    (lexer.truncated source).step = ⟨.ok token, after.truncated source, consultations⟩ :=
  step_eq_ok.mpr (dispatch_truncated source (step_eq_ok.mp h))

/-- A run in front of the malformed byte is a run in front of the end. -/
theorem Run.truncated (hrun : Run lexer tokens last) :
    Run (lexer.truncated source) tokens (last.truncated source) := by
  induction hrun with
  | nil lexer => exact .nil _
  | cons hstep hkind _ ih => exact .cons (step_truncated source hstep) hkind ih

end Lexer

end ScalaLexer

import ScalaLexer.Proofs.Lexer.Gap
import ScalaLexer.Proofs.Lexer.Session
import ScalaLexer.Unicode.Release

/-!
# Which line breaks separate statements

A separator stands between two tokens where the language wants one (`WantsSeparator`).
That is a matter of the gap between them, of the regions that the tokens before leave
open and of the last of them that counts, and of the token behind.  The main statement
says this of all tokens of a text, and which separator it is (`Token.IsBreak`).

## Strategy

1. `exists_run_of_stream` cuts the calls in two where the tokens are cut.
2. `stream_of_find` says what comes next: the lexeme that the next call finds, with
   the separator in front of it that the policy wants (`insertion`).
3. The lexer in between remembers what the tokens tell (`Run.tracks`), and the line
   break that it finds is the first one in the gap (`Run.exists_gap`).  There is only
   one gap (`Gap.unique`).
-/

namespace ScalaLexer

open Trivia

/-! ## The rule of the language -/

theorem Separator.standard_iff {previous : Option TokenKind} {next : Token}
    {regions : List Bracket} :
    Separator.standard ⟨previous, next, regions.head?.map .opening⟩ = true ↔
      (∀ bracket ∈ regions.head?, bracket = .curly) ∧
      (∃ kind, previous = some kind ∧ kind.canEndStatement = true) ∧
      next.kind.canBeginStatement = true := by
  cases regions with
  | nil => cases previous <;> simp [standard]
  | cons bracket outer => cases bracket <;> cases previous <;> simp [standard]

namespace Lexer

variable {lexer after last : Lexer} {token : Token} {tokens : List Token} {finding : Finding}
  {consultations : List Separator.Consultation}

/-! ## All tokens -/

section

variable [Unicode.Repertoire]

/-- The separator that goes in front of the lexeme, if there is one. -/
def insertion (lexer : Lexer) (finding : Finding) : List Token :=
  match finding.lineBreak with
  | none => []
  | some line =>
    if (lexer.consult (lexer.tokenOf finding.lexeme)).decision then
      [lexer.tokenOf (separator line.pos (line.ahead.takeWhile isSpace))]
    else []

omit [Unicode.Repertoire] in
theorem insertion_of_none (hline : finding.lineBreak = none) :
    lexer.insertion finding = [] := by
  rw [insertion, hline]

omit [Unicode.Repertoire] in
theorem insertion_of_some {line : Cursor} (hline : finding.lineBreak = some line) :
    lexer.insertion finding =
      if (lexer.consult (lexer.tokenOf finding.lexeme)).decision then
        [lexer.tokenOf (separator line.pos (line.ahead.takeWhile isSpace))]
      else [] := by
  rw [insertion, hline]

/-- Every call finds a lexeme in a text, since no byte of it is malformed. -/
theorem Run.exists_find {text file : String} {policy : Separator.Policy}
    (hrun : Run (ofString text file policy) tokens last) :
    ∃ finding, find last.mode last.regions last.cursor = .ok finding := by
  have hmode : last.mode ≠ .done := hrun.not_done nofun
  cases hfind : find last.mode last.regions last.cursor with
  | ok finding => exact ⟨finding, rfl⟩
  | error failure =>
      obtain ⟨_, hdispatch, _⟩ := step_eq_error.mp (step_of_find_error hmode hfind)
      obtain ⟨_, _, hblames, _⟩ := dispatch_fault hdispatch
      have hbyte := hrun.keeps.malformed.symm.trans hblames.byte
      rw [ofString_cursor] at hbyte
      cases hbyte

end

end Lexer

end ScalaLexer

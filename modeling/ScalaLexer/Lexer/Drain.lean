import ScalaLexer.Lexer.Dispatch

/-!
# Draining a lexer

Three ways to take all tokens out of a lexer.  `tokens` gives up at a malformed
byte, `next?` and `collect` report it as the last item, and `drain` keeps a
record of everything up to the token that marks the end.

Every token but the last takes at least one character, so the number of
characters ahead bounds the number of steps.
-/

namespace ScalaLexer

variable [Unicode.Repertoire]

namespace Lexer

/-- Enough steps to come to the end of what is ahead of the lexer. -/
def budget (lexer : Lexer) : Nat :=
  lexer.cursor.ahead.length + 2

/-! ## All tokens or the reason why not -/

/-- Takes at most `fuel` tokens. -/
def tokensWithin : Nat → Lexer → Reply (Except Diagnostic (List Token))
  | 0, lexer => ⟨.ok [], lexer, []⟩
  | fuel + 1, lexer =>
    match lexer.step with
    | ⟨.error diagnostic, after, consultations⟩ => ⟨.error diagnostic, after, consultations⟩
    | ⟨.ok token, after, consultations⟩ =>
      if token.kind = .eof then ⟨.ok [], after, consultations⟩
      else
        let rest := tokensWithin fuel after
        ⟨rest.result.map (token :: ·), rest.lexer, consultations ++ rest.consultations⟩

/-- All tokens before the end, unless a malformed byte comes first. -/
def tokens (lexer : Lexer) : Reply (Except Diagnostic (List Token)) :=
  tokensWithin lexer.budget lexer

/-! ## One item after the other -/

/-- The next item: a token or the reason why there is none, and nothing at the
end.  A lexer that came to its end is not asked again. -/
def next? (lexer : Lexer) : Reply (Option (Except Diagnostic Token)) :=
  if lexer.mode = .done then ⟨none, lexer, []⟩
  else
    match lexer.step with
    | ⟨.error diagnostic, after, consultations⟩ =>
      ⟨some (.error diagnostic), after, consultations⟩
    | ⟨.ok token, after, consultations⟩ =>
      ⟨if token.kind = .eof then none else some (.ok token), after, consultations⟩

/-- Asks for at most `fuel` items. -/
def collectWithin : Nat → Lexer → Reply (List (Except Diagnostic Token))
  | 0, lexer => ⟨[], lexer, []⟩
  | fuel + 1, lexer =>
    match lexer.next? with
    | ⟨none, after, consultations⟩ => ⟨[], after, consultations⟩
    | ⟨some item, after, consultations⟩ =>
      let rest := collectWithin fuel after
      ⟨item :: rest.result, rest.lexer, consultations ++ rest.consultations⟩

/-- All items. -/
def collect (lexer : Lexer) : Reply (List (Except Diagnostic Token)) :=
  collectWithin lexer.budget lexer

/-! ## The whole record -/

/-- What a lexer returns until it returns the token that marks the end. -/
structure Transcript where
  /-- The tokens before the end. -/
  tokens : List Token
  /-- The first failure on the way. -/
  failure : Option Diagnostic
  /-- The token that marks the end. -/
  eof : Option Token
  deriving Repr, DecidableEq

/-- Makes at most `fuel` steps, going on behind a failure. -/
def drainWithin : Nat → Lexer → Reply Transcript
  | 0, lexer => ⟨⟨[], none, none⟩, lexer, []⟩
  | fuel + 1, lexer =>
    match lexer.step with
    | ⟨.error diagnostic, after, consultations⟩ =>
      let rest := drainWithin fuel after
      ⟨{ rest.result with failure := some diagnostic }, rest.lexer,
        consultations ++ rest.consultations⟩
    | ⟨.ok token, after, consultations⟩ =>
      if token.kind = .eof then ⟨⟨[], none, some token⟩, after, consultations⟩
      else
        let rest := drainWithin fuel after
        ⟨{ rest.result with tokens := token :: rest.result.tokens }, rest.lexer,
          consultations ++ rest.consultations⟩

/-- Steps until the end is returned, going on behind a failure. -/
def drain (lexer : Lexer) : Reply Transcript :=
  drainWithin lexer.budget lexer

end Lexer

/-- The tokens of a text. -/
def tokenize (source : String) (file : String := Lexer.defaultFile) :
    Except Diagnostic (List Token) :=
  (Lexer.ofString source file).tokens.result

end ScalaLexer

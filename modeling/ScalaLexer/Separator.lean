import ScalaLexer.Token.Basic

/-!
# Line breaks that separate statements

A line break stands for a separator only where a policy says so.  The policy is
asked once for a run of line breaks; it sees the last token that counts, the next
token and the innermost open region.
-/

namespace ScalaLexer

namespace TokenKind

/-- A statement may end with a token of this kind. -/
def canEndStatement : TokenKind → Bool
  | identifier | symbol | number | boolean | character | string | closing _ => true
  | keyword .thisKw | keyword .nullKw | keyword .returnKw | keyword .typeKw => true
  | _ => false

/-- A statement may begin with a token of this kind. -/
def canBeginStatement : TokenKind → Bool
  | eof | error | comment | newline | newlines | operator | dot | semicolon => false
  | opening .square | closing _ => false
  | keyword .catchKw | keyword .elseKw | keyword .extendsKw | keyword .finallyKw
  | keyword .forSomeKw | keyword .matchKw | keyword .withKw | keyword .yieldKw => false
  | _ => true

end TokenKind

namespace Separator

/-- What a policy is told about a line break. -/
structure Context where
  /-- The kind of the last token that is neither a comment nor an error. -/
  previous : Option TokenKind
  /-- The token behind the line break. -/
  next : Token
  /-- The bracket that opened the innermost region. -/
  region : Option TokenKind
  deriving Repr, DecidableEq

/-- A rule that tells the line breaks that separate statements from the rest. -/
abbrev Policy := Context → Bool

/-- The rule of the language: no separator inside parentheses or square
brackets, and elsewhere one between a token that may end a statement and a token
that may begin one. -/
def standard : Policy := fun context =>
  if context.region = some (.opening .paren) || context.region = some (.opening .square) then
    false
  else
    match context.previous with
    | some previous => previous.canEndStatement && context.next.kind.canBeginStatement
    | none => false

/-- A question put to a policy, with its answer. -/
structure Consultation where
  context : Context
  decision : Bool
  deriving Repr, DecidableEq

/-- Puts a question to a policy. -/
def consult (policy : Policy) (context : Context) : Consultation :=
  ⟨context, policy context⟩

end Separator

end ScalaLexer

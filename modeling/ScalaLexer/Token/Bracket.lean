/-!
# Brackets

The three pairs of brackets.  A pair opens a region of the source and closes it
again.
-/

namespace ScalaLexer

/-- A pair of brackets. -/
inductive Bracket where
  | paren
  | square
  | curly
  deriving Repr, DecidableEq

namespace Bracket

/-- The three pairs. -/
def all : List Bracket := [paren, square, curly]

/-- The character that opens a region. -/
def openingChar : Bracket → Char
  | paren => '('
  | square => '['
  | curly => '\x7b'

/-- The character that closes a region. -/
def closingChar : Bracket → Char
  | paren => ')'
  | square => ']'
  | curly => '\x7d'

end Bracket

end ScalaLexer

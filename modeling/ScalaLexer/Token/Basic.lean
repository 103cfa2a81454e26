import ScalaLexer.Text.Place
import ScalaLexer.Token.Kind

/-!
# Tokens

A token is a kind, a text and the stretch of a file that it stands for.  The
text of most tokens is that stretch; the text of an error token says what is
wrong with it.
-/

namespace ScalaLexer

/-- A piece of source with its meaning.  Where it stands is told in full, so that places
in long sources can be compared; it shows its `span` only. -/
structure Token where
  kind : TokenKind
  value : String
  extent : Extent
  deriving Repr, DecidableEq

namespace Token

/-- The stretch that the token shows. -/
def span (token : Token) : Span :=
  token.extent.span

/-- The token marks a piece of source that is none. -/
def isError (token : Token) : Bool :=
  token.kind = .error

/-- A kind and a value as they are printed. -/
def describe (kind : TokenKind) (value : String) : String :=
  "(" ++ kind.name ++ " " ++ value ++ ")"

/-- The token as it is printed. -/
def render (token : Token) : String :=
  describe token.kind token.value

end Token

end ScalaLexer

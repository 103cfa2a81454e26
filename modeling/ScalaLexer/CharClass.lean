import ScalaLexer.Unicode.Alphabetic
import ScalaLexer.Unicode.Numeric

/-!
# Character classes

The classes that decide what a character may begin or continue.  Letters,
operator characters and the characters that must not follow a number reach
beyond ASCII; digits, blanks, brackets and delimiters do not.

What is printable beyond ASCII is not settled here.  It depends on a release of the Unicode
Standard, and `Unicode.Repertoire` stands for any of them.
-/

namespace ScalaLexer

/-- Blank space within a line: a space, a tab, a carriage return or a form
feed. -/
def isBlank (c : Char) : Bool :=
  c = ' ' || c = '\t' || c = '\r' || c = '\x0c'

/-- Blank space or a line feed. -/
def isSpace (c : Char) : Bool :=
  c = '\n' || isBlank c

/-- A character that a word may begin with. -/
def isLetter (c : Char) : Bool :=
  c = '_' || c = '$' || Unicode.isAlphabetic c

/-- A decimal digit. -/
def isDigit (c : Char) : Bool :=
  c.isDigit

/-- A hexadecimal digit of either case. -/
def isHexDigit (c : Char) : Bool :=
  c.isDigit || ('a' ≤ c && c ≤ 'f') || ('A' ≤ c && c ≤ 'F')

/-- A character that a word may go on with. -/
def isLetterOrDigit (c : Char) : Bool :=
  isLetter c || isDigit c

/-- A character that may not stand right behind a number: an underscore, or a
letter or number of any script. -/
def isAlphanumeric (c : Char) : Bool :=
  c = '_' || Unicode.isAlphabetic c || Unicode.isNumeric c

/-- An opening or closing bracket. -/
def isBracket (c : Char) : Bool :=
  ['(', ')', '[', ']', '\x7b', '\x7d'].contains c

/-- A quote, or one of the marks `.`, `;` and `,`. -/
def isDelimiter (c : Char) : Bool :=
  ['\x60', '\x27', '\x22', '.', ';', ','].contains c

/-- What a release of the Unicode Standard says of the characters beyond ASCII. -/
class Unicode.Repertoire where
  /-- The character is a letter, a mark, a number, a punctuation sign or a symbol. -/
  hasInk : Char → Bool

variable [Unicode.Repertoire]

/-- A character with ink.  Within ASCII these are the characters from `!` to `~`. -/
def isPrintable (c : Char) : Bool :=
  if c.toNat < 0x80 then 0x21 ≤ c.toNat && c.toNat ≤ 0x7E else Unicode.Repertoire.hasInk c

/-- A character that an operator may consist of: every printable character that
has no other part to play. -/
def isOperator (c : Char) : Bool :=
  isPrintable c && !(isLetter c || isDigit c || isBracket c || isDelimiter c || c = '\n')

end ScalaLexer

import ScalaLexer.Unicode.CombiningMark
import ScalaLexer.Unicode.Graphic
import ScalaLexer.Unicode.Ignorable

/-!
# Quoted text

Text inside a message stands in double quotes, with an escape for every
character that would not show: the usual short forms, and `\u` with the code
point in braces for the rest.
-/

namespace ScalaLexer.Quoted

/-- The digits of a number to the base sixteen, in lower case. -/
def hexDigits (n : Nat) : List Char :=
  Nat.toDigits 16 n

/-- The escape by code point. -/
def codePoint (c : Char) : List Char :=
  ['\\', 'u', '\x7b'] ++ hexDigits c.toNat ++ ['\x7d']

/-- The character as it stands in a quoted text.  A space shows, other
separators do not; a mark that joins the character before it and a character that
may be ignored are escaped. -/
def escape (c : Char) : List Char :=
  if c = '\x00' then ['\\', '0']
  else if c = '\t' then ['\\', 't']
  else if c = '\n' then ['\\', 'n']
  else if c = '\r' then ['\\', 'r']
  else if c = '\x22' then ['\\', '\x22']
  else if c = '\\' then ['\\', '\\']
  else if Unicode.isCombiningMark c || Unicode.isIgnorable c then codePoint c
  else if c = ' ' || Unicode.isGraphic c then [c]
  else codePoint c

/-- The text in double quotes. -/
def quote (text : String) : String :=
  String.ofList ('\x22' :: text.toList.flatMap escape ++ ['\x22'])

end ScalaLexer.Quoted

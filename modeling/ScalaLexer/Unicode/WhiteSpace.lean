import ScalaLexer.Unicode.CodeRange

/-!
# The property White_Space

The characters that are cut off at the end of a printed line.
-/

namespace ScalaLexer.Unicode

/-- The code points above ASCII with the property White_Space. -/
def whiteSpaceRanges : List CodeRange :=
  [(0x0085, 0x0085), (0x00A0, 0x00A0), (0x1680, 0x1680), (0x2000, 0x200A), (0x2028, 0x2029),
   (0x202F, 0x202F), (0x205F, 0x205F), (0x3000, 0x3000)]

/-- The character has the property White_Space: within ASCII a tab, a line feed,
a vertical tab, a form feed, a carriage return or a space. -/
def isWhiteSpace (c : Char) : Bool :=
  if c.toNat < 0x80 then c = ' ' || (0x09 ≤ c.toNat && c.toNat ≤ 0x0D)
  else inRanges whiteSpaceRanges c

end ScalaLexer.Unicode

import ScalaLexer.Scan.Cursor
import ScalaLexer.CharClass

/-!
# Numbers and the bodies of strings

The readings that a literal is made of.  They leave the characters of the literal
pending and decide nothing about tokens.
-/

namespace ScalaLexer.Literal

/-! ## Strings -/

/-- Cuts a text before the first double quote that no backslash precedes; a
backslash protects the character behind it. -/
def splitEscaped : List Char → List Char × List Char
  | '\\' :: c :: text => Prod.map (fun body => '\\' :: c :: body) id (splitEscaped text)
  | '\x22' :: text => ([], '\x22' :: text)
  | c :: text => Prod.map (c :: ·) id (splitEscaped text)
  | [] => ([], [])

/-- Cuts a text before the first three double quotes in a row. -/
def splitTripleQuoted : List Char → List Char × List Char
  | '\x22' :: '\x22' :: '\x22' :: text => ([], '\x22' :: '\x22' :: '\x22' :: text)
  | c :: text => Prod.map (c :: ·) id (splitTripleQuoted text)
  | [] => ([], [])

theorem splitEscaped_append (text : List Char) :
    (splitEscaped text).1 ++ (splitEscaped text).2 = text := by
  fun_induction splitEscaped text <;> simp_all

theorem splitTripleQuoted_append (text : List Char) :
    (splitTripleQuoted text).1 ++ (splitTripleQuoted text).2 = text := by
  fun_induction splitTripleQuoted text <;> simp_all

/-! ## Numbers -/

/-- Whether a number may end here.  A character that would run into it is read
too. -/
def endsCleanly : Scan Bool := do
  if (← Scan.peek 0).any isAlphanumeric then
    let _ ← Scan.next
    return false
  else
    return true

/-- The end of a number behind its digits: an exponent and a suffix, each of
which may be missing. -/
def exponentAndSuffix : Scan Bool := do
  if ← Scan.accept (fun c => c = 'e' || c = 'E') then
    let _ ← Scan.accept (fun c => c = '+' || c = '-')
    Scan.readWhile isDigit
  let _ ← Scan.accept (fun c => ['f', 'F', 'd', 'D'].contains c)
  endsCleanly

/-- A number that goes on behind its decimal point. -/
def fraction : Scan Bool := do
  Scan.readWhile isDigit
  exponentAndSuffix

/-- A hexadecimal or decimal integer. -/
def wholePart : Scan Unit := do
  if ← Scan.accept (· = '0') then
    if ← Scan.accept (fun c => c = 'x' || c = 'X') then
      Scan.readWhile isHexDigit
    else
      Scan.readWhile isDigit
  else
    Scan.readWhile isDigit

/-- A number behind its whole part.  A point belongs to it only if a digit
follows. -/
def behindWholePart : Scan Bool := do
  if ← Scan.accept (fun c => c = 'l' || c = 'L') then
    endsCleanly
  else if (← Scan.peek 0) = some '.' then
    if (← Scan.peek 1).any isDigit then
      let _ ← Scan.next
      fraction
    else
      return true
  else
    exponentAndSuffix

/-- A number from its first digit on; whether it is well formed. -/
def number : Scan Bool := do
  wholePart
  behindWholePart

end ScalaLexer.Literal

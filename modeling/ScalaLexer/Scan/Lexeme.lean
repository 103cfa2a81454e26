import ScalaLexer.Scan.Literal
import ScalaLexer.Token.Word
import ScalaLexer.Diagnostic.Cause

/-!
# Lexemes

A lexeme is a token that does not know its file yet.  `Lexeme.scan` reads the
lexeme at the cursor, which must stand at neither space nor a block comment; a
line feed is none of its business.

The quotes of a literal are no part of its text.  The closing one is left for the
next reading, which is told by `Mode` that it is there.
-/

namespace ScalaLexer

/-- How the next reading begins. -/
inductive Mode where
  /-- With a lexeme. -/
  | start
  /-- With the quote that closes the literal just read. -/
  | closingQuote
  /-- With the quotes that close the multi-line string just read. -/
  | closingTripleQuote
  /-- Not at all: the end was reached. -/
  | done
  deriving Repr, DecidableEq

/-- A piece of source with its meaning, from byte `start` up to byte `stop`. -/
structure Lexeme where
  kind : TokenKind
  value : String
  start : Nat
  stop : Nat
  /-- How the reading behind this lexeme begins. -/
  resume : Mode
  deriving Repr, DecidableEq

namespace Lexeme

variable [Unicode.Repertoire]

/-! ## What is pending becomes a lexeme -/

/-- What is pending is a lexeme of this kind. -/
def emit (kind : TokenKind) (resume : Mode) : Scan Lexeme := fun cursor =>
  .ok ⟨kind, String.ofList cursor.pending, cursor.start, cursor.pos, resume⟩
    cursor.release.settle

/-- What is pending is wrong.  If nothing is, one character is read, so that the
lexer goes on behind it. -/
def emitError (cause : Cause) : Scan Lexeme := do
  let start := (← get).start
  if (← get).pos ≤ start then
    let _ ← Scan.next
  Scan.release
  return ⟨.error, cause.message, start, (← get).pos, .start⟩

/-! ## The kinds of lexemes -/

/-- A comment up to the end of its line. -/
def lineComment : Scan Lexeme := do
  Scan.readWhile (· ≠ '\n')
  emit .comment .start

/-- The body of a string between single double quotes. -/
def string : Scan Lexeme := do
  Scan.readPart Literal.splitEscaped
  if (← Scan.peek 0) = some '\x22' then emit .string .closingQuote
  else emitError .unterminatedString

/-- The body of a string between triple double quotes. -/
def multiLineString : Scan Lexeme := do
  Scan.readPart Literal.splitTripleQuoted
  if ← Scan.startsWith "\"\"\"" then emit .string .closingTripleQuote
  else emitError .unterminatedMultiLineString

/-- The body of an identifier between backquotes. -/
def quotedIdentifier : Scan Lexeme := do
  Scan.readWhile (· ≠ '\x60')
  if (← Scan.peek 0) = some '\x60' then emit .identifier .closingQuote
  else emitError .unterminatedQuotedIdentifier

/-- One character, or a backslash and one character, behind a single quote. -/
def character : Scan Lexeme := do
  let _ ← Scan.accept (· = '\\')
  let _ ← Scan.next
  if (← Scan.peek 0) = some '\x27' then emit .character .closingQuote
  else emitError (.unterminatedCharacter (← Scan.pending))

/-- A word that ends in an underscore takes in the operator behind it. -/
def operatorSuffix : Scan Unit := do
  if (← get).pending.getLast? = some '_' then
    Scan.readWhile isOperator

/-- A word or a run of operator characters; whether there is one. -/
def plainIdentifier : Scan Bool := do
  if (← Scan.peek 0).any isOperator then
    Scan.readWhile isOperator
    return true
  else if ← Scan.accept isLetter then
    Scan.readWhile isLetterOrDigit
    operatorSuffix
    return true
  else
    return false

/-- A word: a truth value, a keyword or an identifier. -/
def word : Scan Lexeme := do
  if ← plainIdentifier then
    emit (.ofWord (← Scan.pending)) .start
  else
    emitError (.unknownLexeme (← Scan.pending))

/-- A symbol, whose quote is part of its text. -/
def symbol : Scan Lexeme := do
  if ← plainIdentifier then
    emit .symbol .start
  else
    emitError (.unknownLexeme (← Scan.pending))

/-- The two forms of a character literal: a single quote stands two places ahead,
or three places ahead with a backslash right behind the opening one. -/
def atCharacter : Scan Bool := do
  if (← Scan.peek 2) = some '\x27' then
    return true
  else if (← Scan.peek 1) = some '\\' then
    return (← Scan.peek 3) = some '\x27'
  else
    return false

/-- A character literal or a symbol. -/
def singleQuoted : Scan Lexeme := do
  if ← atCharacter then
    Scan.skip
    character
  else
    let _ ← Scan.next
    symbol

/-- What `scan` makes of a number that was read. -/
def ofNumber (wellFormed : Bool) : Scan Lexeme := do
  if wellFormed then emit .number .start
  else emitError (.malformedNumber (← Scan.pending))

/-- A decimal point and what belongs to it. -/
def dot : Scan Lexeme := do
  let _ ← Scan.next
  if (← Scan.peek 0).any isDigit then
    ofNumber (← Literal.fraction)
  else
    emit .dot .start

/-- A bracket.  An opening one begins a region; a closing one ends the innermost
of the open regions, which it has to fit. -/
def bracket (regions : List Bracket) (c : Char) : Scan (Lexeme × List Bracket) := do
  let _ ← Scan.next
  match TokenKind.ofBracketChar? c with
  | some (.opening found) => return (← emit (.opening found) .start, found :: regions)
  | some (.closing found) =>
    match regions with
    | [] => return (← emitError (.unmatchedClosingBracket (String.singleton c)), regions)
    | top :: outer =>
      if top = found then
        return (← emit (.closing found) .start, outer)
      else
        let expected := (TokenKind.closing top).name
        return (← emitError (.mismatchedBracket expected (String.singleton c)), regions)
  | _ => return (← emitError (.unknownLexeme (String.singleton c)), regions)

/-- An operator, or a character that begins nothing. -/
def operator (c : Char) : Scan Lexeme := do
  match reservedOperator? (← get).ahead with
  | some entry =>
    Scan.readExactly entry.length
    emit .operator .start
  | none =>
    if isOperator c then
      Scan.readWhile isOperator
      emit .identifier .start
    else
      emitError (.unknownLexeme (String.singleton c))

/-! ## Dispatch -/

/-- A reading that opens and closes no region. -/
def keeping (regions : List Bracket) (reading : Scan Lexeme) : Scan (Lexeme × List Bracket) :=
  return (← reading, regions)

/-- The lexeme that begins with the character `c` ahead, and the regions that are
open behind it. -/
def beginningWith (regions : List Bracket) (c : Char) : Scan (Lexeme × List Bracket) :=
  if c = '\x27' then
    keeping regions singleQuoted
  else if isLetter c then
    keeping regions word
  else if isDigit c then
    keeping regions do
      ofNumber (← Literal.number)
  else if c = '\x22' then
    keeping regions do
      Scan.skip
      string
  else if isBracket c then
    bracket regions c
  else if c = ';' then
    keeping regions do
      let _ ← Scan.next
      emit .semicolon .start
  else if c = '.' then
    keeping regions dot
  else if c = '\x60' then
    keeping regions do
      Scan.skip
      quotedIdentifier
  else
    keeping regions (operator c)

/-- The lexeme at the cursor, inside the given open regions, and the regions that
are open behind it. -/
def scan (regions : List Bracket) : Scan (Lexeme × List Bracket) := do
  if ← Scan.startsWith "//" then
    keeping regions lineComment
  else if ← Scan.startsWith "\"\"\"" then
    keeping regions do
      Scan.readExactly 3
      Scan.release
      multiLineString
  else
    match ← Scan.peek 0 with
    | some c => beginningWith regions c
    | none => keeping regions (emit .eof .done)

end Lexeme

end ScalaLexer

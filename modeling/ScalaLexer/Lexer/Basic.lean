import ScalaLexer.Scan.Lexeme
import ScalaLexer.Separator

/-!
# The lexer

A lexer is a source with a cursor in it and what has to be remembered between
two tokens: how the next reading begins, the last token that counts, and the open
regions.
-/

namespace ScalaLexer

/-- A lexer in the middle of its work. -/
structure Lexer where
  /-- The source. -/
  source : List UInt8
  /-- The name of the file that it comes from. -/
  file : String
  /-- The rule that tells which line breaks are separators. -/
  policy : Separator.Policy
  cursor : Cursor
  mode : Mode
  /-- The last token that is neither a comment nor an error. -/
  lastToken : Option TokenKind
  /-- The open regions, the innermost first. -/
  regions : List Bracket

namespace Lexer

/-- The name that stands for a source without a file. -/
def defaultFile : String := "shell"

/-- A lexer at the beginning of a source. -/
def ofBytes (source : List UInt8) (file : String := defaultFile)
    (policy : Separator.Policy := Separator.standard) : Lexer :=
  { source, file, policy
    cursor := .ofOffsets source 0 0
    mode := .start
    lastToken := none
    regions := [] }

/-- A lexer at the beginning of a text. -/
def ofString (source : String) (file : String := defaultFile)
    (policy : Separator.Policy := Separator.standard) : Lexer :=
  ofBytes (Utf8.encode source.toList) file policy

/-! ## What a lexer shows -/

/-- The number of bytes read. -/
def position (lexer : Lexer) : Nat :=
  lexer.cursor.pos

/-- The number of open regions. -/
def regionDepth (lexer : Lexer) : Nat :=
  lexer.regions.length

/-- The bytes not read yet. -/
def remainder (lexer : Lexer) : List UInt8 :=
  lexer.source.drop lexer.cursor.pos

/-- All bytes are read. -/
def atEnd (lexer : Lexer) : Bool :=
  lexer.source.length ≤ lexer.cursor.pos

/-- The same lexer with its cursor elsewhere. -/
def moveTo (lexer : Lexer) (cursor : Cursor) : Lexer :=
  { lexer with cursor }

/-! ## What a lexer answers -/

/-- The outcome of an operation. -/
structure Reply (α : Type) where
  result : α
  /-- The lexer afterwards. -/
  lexer : Lexer
  /-- The questions put to the policy on the way, in order. -/
  consultations : List Separator.Consultation

/-- A token, or the reason why there is none. -/
abbrev Answer := Reply (Except Diagnostic Token)

/-- The same outcome, with questions that were put to the policy before. -/
def Reply.behind {α : Type} (reply : Reply α) (earlier : List Separator.Consultation) : Reply α :=
  { reply with consultations := earlier ++ reply.consultations }

/-- The lexeme as a token of the file. -/
def tokenOf (lexer : Lexer) (lexeme : Lexeme) : Token :=
  ⟨lexeme.kind, lexeme.value, ⟨lexeme.start, lexeme.stop, lexer.file⟩⟩

/-- A fault as a diagnostic of the file. -/
def diagnosticOf (lexer : Lexer) (fault : Fault) : Diagnostic :=
  ⟨.invalidEncoding fault.byte, ⟨fault.offset, lexer.file⟩⟩

/-- Comments and errors are forgotten, all other tokens are remembered. -/
def remember (kind : TokenKind) (lastToken : Option TokenKind) : Option TokenKind :=
  match kind with
  | .comment | .error => lastToken
  | kind => some kind

/-- Answers with a lexeme, behind which these regions are open. -/
def deliver (lexer : Lexer) (lexeme : Lexeme) (regions : List Bracket) : Answer :=
  { result := .ok (lexer.tokenOf lexeme)
    lexer :=
      { lexer with
        mode := lexeme.resume
        lastToken := remember lexeme.kind lexer.lastToken
        regions }
    consultations := [] }

/-- A fault ends the work and leaves the cursor where it happened. -/
def fail (lexer : Lexer) (fault : Fault) (cursor : Cursor) : Answer :=
  ⟨.error (lexer.diagnosticOf fault), lexer.moveTo cursor, []⟩

/-- Moves the cursor and goes on with what was read. -/
def reading {α : Type} (lexer : Lexer) (scan : Scan α) (next : α → Lexer → Answer) : Answer :=
  match scan lexer.cursor with
  | .ok result cursor => next result (lexer.moveTo cursor)
  | .error fault cursor => lexer.fail fault cursor

end Lexer

end ScalaLexer

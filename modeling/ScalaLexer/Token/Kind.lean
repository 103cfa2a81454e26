import ScalaLexer.Token.Bracket
import ScalaLexer.Token.Keyword

/-!
# Kinds of tokens

What a piece of source can be.  Brackets and keywords are one kind each of a
family, so that a property of the family is read off the constructor.
-/

namespace ScalaLexer

/-- What a token is. -/
inductive TokenKind where
  /-- The end of the input. -/
  | eof
  /-- A piece of source that is no token; its value is the reason. -/
  | error
  | symbol
  | identifier
  | number
  | boolean
  | character
  | string
  | whitespace
  | comment
  /-- A line break that separates two statements. -/
  | newline
  /-- A line break that separates two statements, with a blank line behind it. -/
  | newlines
  /-- A reserved operator or the comma. -/
  | operator
  | semicolon
  | dot
  | opening (bracket : Bracket)
  | closing (bracket : Bracket)
  | keyword (word : Keyword)
  deriving Repr, DecidableEq

namespace TokenKind

/-- The name under which a token of this kind is printed. -/
def name : TokenKind → String
  | eof => "EOF"
  | error => "ERROR"
  | symbol => "SYMBOL"
  | identifier => "IDENTIFIER"
  | number => "NUMBER"
  | boolean => "BOOLEAN"
  | character => "CHARACTER"
  | string => "STRING"
  | whitespace => "WHITESPACE"
  | comment => "COMMENT"
  | newline => "NEWLINE"
  | newlines => "NEWLINES"
  | operator => "OPERATOR"
  | semicolon => ";"
  | dot => "."
  | opening bracket => String.singleton bracket.openingChar
  | closing bracket => String.singleton bracket.closingChar
  | keyword word => word.name

/-- All kinds: the plain ones, the brackets pair by pair, the keywords. -/
def all : List TokenKind :=
  [eof, error, symbol, identifier, number, boolean, character, string, whitespace, comment,
   newline, newlines, operator, semicolon, dot] ++
  Bracket.all.flatMap (fun bracket => [opening bracket, closing bracket]) ++
  Keyword.all.map keyword

/-- The kind printed under this name. -/
def ofName? (name : String) : Option TokenKind :=
  all.find? fun kind => kind.name == name

/-- No two kinds have the same name. -/
theorem ofName?_name (kind : TokenKind) : ofName? kind.name = some kind := by
  cases kind with
  | opening bracket => cases bracket <;> decide
  | closing bracket => cases bracket <;> decide
  | keyword word => cases word <;> decide
  | _ => decide

/-- The kind of a keyword. -/
def isKeyword : TokenKind → Bool
  | keyword _ => true
  | _ => false

/-- The kind of an opening bracket. -/
def isOpening : TokenKind → Bool
  | opening _ => true
  | _ => false

/-- The kind of a closing bracket. -/
def isClosing : TokenKind → Bool
  | closing _ => true
  | _ => false

/-- The bracket at the other end of a region. -/
def partner? : TokenKind → Option TokenKind
  | opening bracket => some (closing bracket)
  | closing bracket => some (opening bracket)
  | _ => none

/-- A token of the first kind ends the region that one of the second began. -/
def closes : TokenKind → TokenKind → Bool
  | closing bracket, opening bracket' => bracket = bracket'
  | _, _ => false

theorem closes_iff {kind other : TokenKind} :
    kind.closes other = true ↔ kind.isClosing = true ∧ kind.partner? = some other := by
  cases kind <;> cases other <;> simp [closes, isClosing, partner?, eq_comm]

/-- The kind of bracket that this character is. -/
def ofBracketChar? (c : Char) : Option TokenKind :=
  match Bracket.all.find? fun bracket => bracket.openingChar = c with
  | some bracket => some (opening bracket)
  | none => (Bracket.all.find? fun bracket => bracket.closingChar = c).map closing

theorem ofBracketChar?_eq_some {c : Char} {kind : TokenKind} (h : ofBracketChar? c = some kind) :
    (∃ bracket, kind = opening bracket ∧ bracket.openingChar = c) ∨
      ∃ bracket, kind = closing bracket ∧ bracket.closingChar = c := by
  unfold ofBracketChar? at h
  split at h
  · next bracket hfind =>
    cases h
    exact .inl ⟨bracket, rfl, by simpa using List.find?_some hfind⟩
  · obtain ⟨bracket, hfind, rfl⟩ := Option.map_eq_some_iff.mp h
    exact .inr ⟨bracket, rfl, by simpa using List.find?_some hfind⟩

end TokenKind

end ScalaLexer

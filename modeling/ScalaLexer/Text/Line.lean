import ScalaLexer.Text.Utf8

/-!
# Lines of a text

Offsets count bytes.  `lineAt?` finds the line that holds an offset; the end of
a text belongs to its last line, where errors at the end of the input point.
-/

namespace ScalaLexer

/-- A place in a text, seen from its line. -/
structure LinePlace where
  /-- Lines are counted from one. -/
  number : Nat
  /-- The line, with the line feed that ends it. -/
  text : List Char
  /-- The byte offset of the place in its line. -/
  offset : Nat
  deriving Repr, DecidableEq

namespace LinePlace

/-- The lines of a text, each with the line feed that ends it. -/
def lines : List Char → List (List Char)
  | [] => []
  | c :: rest =>
    if c = '\n' then [c] :: lines rest
    else
      match lines rest with
      | [] => [[c]]
      | line :: others => (c :: line) :: others

theorem flatten_lines (text : List Char) : (lines text).flatten = text := by
  fun_induction lines text <;> simp_all

/-- Looks for the place `offset` bytes behind the start of the given lines, the
first of which has this number. -/
def find (number offset : Nat) : List (List Char) → LinePlace
  | [] => ⟨number, [], 0⟩
  | line :: rest =>
    if offset < Utf8.byteLength line || (rest.isEmpty && offset = Utf8.byteLength line) then
      ⟨number, line, offset⟩
    else find (number + 1) (offset - Utf8.byteLength line) rest

end LinePlace

/-- The line that holds byte `offset` of the text, if the text is that long. -/
def lineAt? (content : List Char) (offset : Nat) : Option LinePlace :=
  if Utf8.byteLength content < offset then none
  else some (LinePlace.find 1 offset (LinePlace.lines content))

end ScalaLexer

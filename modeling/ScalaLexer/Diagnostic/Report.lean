import ScalaLexer.Diagnostic.Cause
import ScalaLexer.Text.Line
import ScalaLexer.Unicode.WhiteSpace

/-!
# Reports

A report shows a diagnostic together with the line of source that it is about
and a caret under the place.
-/

namespace ScalaLexer.Diagnostic

/-- The character is cut off at the front of a reported line. -/
def isIndent (c : Char) : Bool :=
  c = ' ' || c = '\t'

/-- The text without the white space at its end. -/
def trimEnd (text : List Char) : List Char :=
  (text.reverse.dropWhile Unicode.isWhiteSpace).reverse

/-- The heading: what is wrong, and a tip where there is one. -/
def heading (diagnostic : Diagnostic) : String :=
  match diagnostic.cause.tip? with
  | some tip => "Error: " ++ diagnostic.cause.name ++ " (" ++ tip ++ ")"
  | none => "Error: " ++ diagnostic.cause.name

/-- The width that a text can be padded to at most: 16 bits are kept of it. -/
def maxWidth : Nat := 65535

/-- The width of the caret with the dashes in front of it, one for each byte between the
indent and the place. -/
def caretWidth (place : LinePlace) : Nat :=
  place.offset - (place.text.takeWhile isIndent).length + 1

/-- The line of source between two margins, the second of which ends in the caret.  Dashes
fill the row of the caret from its margin on; where they would be too many, printing it
fails. -/
def excerpt (place : LinePlace) : List String :=
  let number := Nat.repr place.number
  let margin := String.ofList (List.replicate (number.length + 1) ' ') ++ "|"
  let shown := String.ofList (trimEnd (place.text.dropWhile isIndent))
  let dashes := String.ofList (List.replicate (caretWidth place - 1) '-')
  [margin, number ++ " | " ++ shown] ++
    if caretWidth place ≤ maxWidth then [margin ++ " " ++ dashes ++ "^"] else []

/-- The rows of the report on the source `content` of the file at `path`, as far as it
comes.  A place behind the end of the source shows no line. -/
def report (diagnostic : Diagnostic) (path : String) (content : List Char) : List String :=
  [diagnostic.heading, "-> " ++ path] ++
    match lineAt? content diagnostic.position.offset with
    | some place => excerpt place
    | none => []

/-- The report breaks off in front of its last row, and the program with it. -/
def breaksOff (diagnostic : Diagnostic) (content : List Char) : Bool :=
  (lineAt? content diagnostic.position.offset).any fun place => maxWidth < caretWidth place

end ScalaLexer.Diagnostic

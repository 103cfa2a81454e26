/-!
# Paths and file names

A path is a list of names with slashes between them.  The extension of a name and
the mark of a hidden entry are read off the name alone.
-/

namespace ScalaLexer

namespace Path

/-- The pieces of a text between its slashes; there is one more of them than
there are slashes. -/
def pieces : List Char → List (List Char)
  | [] => [[]]
  | c :: text =>
    if c = '/' then [] :: pieces text
    else
      match pieces text with
      | [] => [[c]]
      | piece :: others => (c :: piece) :: others

/-- The parts of a path, among them empty ones where slashes follow each other or
stand at an end. -/
def parts (path : String) : List String :=
  (pieces path.toList).map String.ofList

/-- The names in a path; empty parts and `.` lead nowhere. -/
def names (path : String) : List String :=
  (parts path).filter fun part => part ≠ "" && part ≠ "."

/-- The path begins at the root of the file system. -/
def isAbsolute (path : String) : Bool :=
  path.toList.head? = some '/'

/-- The path ends in a slash, and so stands for a directory. -/
def isDirectory (path : String) : Bool :=
  path.toList.getLast? = some '/'

/-- The path that leads through these names from the root. -/
def ofNames (names : List String) : String :=
  "/" ++ "/".intercalate names

end Path

namespace FileName

/-- The extension of a file name: what stands behind its last dot, unless that is
its first character.  The name `..` has none. -/
def extension? (name : String) : Option String :=
  match name.toList.reverse.span (· ≠ '.') with
  | (extension, '.' :: _ :: _) =>
    if name = ".." then none else some (String.ofList extension.reverse)
  | _ => none

/-- The name of a hidden or temporary entry. -/
def isHidden (name : String) : Bool :=
  name.toList.head?.any (fun c => c = '.' || c = '#' || c = '~') ||
    name.toList.getLast? = some '~'

end FileName

end ScalaLexer

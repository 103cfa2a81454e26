import ScalaLexer.Files.Tree

/-!
# Finding the sources

The files of a tree that have the extension looked for.  Entries of a directory
are visited in the order of their names, and hidden and temporary ones are left
out; what the search starts from is not.
-/

namespace ScalaLexer

/-- A file that was found. -/
structure Found (α : Type) where
  /-- The names that lead to it from the root of the file system. -/
  place : List String
  contents : α
  deriving Repr, DecidableEq

namespace Found

variable {α : Type}

def path (found : Found α) : String :=
  Path.ofNames found.place

def name (found : Found α) : String :=
  found.place.getLastD ""

end Found

namespace FileTree

variable {α : Type}

/-- The finds of all entries, by the names of the entries. -/
abbrev Finds (α : Type) := List (String × List (Found α))

/-- Brings the finds into the order of the names, which is also the order of
their bytes. -/
def Finds.inOrder (finds : Finds α) : List (Found α) :=
  (finds.mergeSort fun first second => decide (first.1 ≤ second.1)).flatMap Prod.snd

mutual

/-- The files with the given extension in the tree that these names lead to. -/
def sources (extension : String) (place : List String) : FileTree α → List (Found α)
  | file contents =>
    if FileName.extension? (place.getLastD "") = some extension then [⟨place, contents⟩] else []
  | directory entries => Finds.inOrder (entrySources extension place entries)

/-- The finds of each of the entries of the directory that these names lead to. -/
def entrySources (extension : String) (place : List String) :
    List (String × FileTree α) → Finds α
  | [] => []
  | (name, tree) :: rest =>
    let others := entrySources extension place rest
    if FileName.isHidden name then others
    else (name, sources extension (place ++ [name]) tree) :: others

end

end FileTree

end ScalaLexer

import ScalaLexer.Files.Tree

/-!
# Resolving a path

A path is followed name by name, so that it is found out at the first name that
leads nowhere, and only a directory can be left again.  It begins at the root of the
file system if it begins with a slash, and in the working directory otherwise.
-/

namespace ScalaLexer

/-- Why a path leads nowhere. -/
inductive PathError where
  | notFound
  | notADirectory
  deriving Repr, DecidableEq

namespace PathError

/-- The wording of the operating system, with its number for the error. -/
def message : PathError → String
  | notFound => "No such file or directory (os error 2)"
  | notADirectory => "Not a directory (os error 20)"

end PathError

namespace FileTree

variable {α : Type}

/-- Follows the parts of a path from `here`, which was reached along `trail`: the
names on the way with the directories they were found in, the last one first.  There is
no way up from the root. -/
def follow : (trail : List (String × FileTree α)) → (here : FileTree α) → List String →
    Except PathError (List String × FileTree α)
  | trail, here, [] => .ok ((trail.map Prod.fst).reverse, here)
  | trail, here, part :: parts =>
    match here with
    | file _ => .error .notADirectory
    | directory entries =>
      if part = "" || part = "." then follow trail here parts
      else if part = ".." then
        match trail with
        | [] => follow [] here parts
        | (_, parent) :: above => follow above parent parts
      else
        match entries.lookup part with
        | none => .error .notFound
        | some entry => follow ((part, here) :: trail) entry parts

end FileTree

/-- A file system, seen by someone who works in one of its directories. -/
structure FileSystem (α : Type) where
  root : FileTree α
  /-- The names that lead from the root to the directory. -/
  workingDirectory : List String

namespace FileSystem

variable {α : Type}

/-- The file system that holds nothing but the tree at these names, where one works. -/
def mounting (tree : FileTree α) (names : List String) : FileSystem α :=
  ⟨names.foldr (fun name below => .directory [(name, below)]) tree, names⟩

/-- The names that lead straight to what a path means, and what is there. -/
def resolve (system : FileSystem α) (path : String) :
    Except PathError (List String × FileTree α) :=
  if path = "" then .error .notFound
  else
    let start := if Path.isAbsolute path then [] else system.workingDirectory
    system.root.follow [] (start ++ Path.parts path)

end FileSystem

end ScalaLexer

import ScalaLexer.Files.Path

/-!
# File trees

A directory tree with something attached to every regular file.  Paths in it are
lists of names.
-/

namespace ScalaLexer

/-- A regular file or a directory. -/
inductive FileTree (α : Type) where
  | file (contents : α)
  | directory (entries : List (String × FileTree α))

namespace FileTree

variable {α : Type}

/-- A directory without entries. -/
def empty : FileTree α := directory []

/-- The entries of a directory; a file has none. -/
def entries : FileTree α → List (String × FileTree α)
  | file _ => []
  | directory entries => entries

/-- The entry of this name. -/
def entry? (tree : FileTree α) (name : String) : Option (FileTree α) :=
  tree.entries.lookup name

/-- Puts an entry into a list of entries, in the place of one of the same name. -/
def setEntry (name : String) (tree : FileTree α) :
    List (String × FileTree α) → List (String × FileTree α)
  | [] => [(name, tree)]
  | (other, old) :: rest =>
    if other = name then (name, tree) :: rest else (other, old) :: setEntry name tree rest

/-- Puts `leaf` at the end of a path, with all directories on the way.  A
directory that is there already stays as it is. -/
def insert (leaf : Option α) : List String → FileTree α → FileTree α
  | [], tree =>
    match leaf with
    | some contents => file contents
    | none => directory tree.entries
  | name :: path, tree =>
    directory (setEntry name (insert leaf path ((tree.entry? name).getD empty)) tree.entries)

/-- The tree that holds the given files.  A path that ends in a slash stands for
a directory. -/
def ofFiles (files : List (String × α)) : FileTree α :=
  files.foldl
    (fun tree (path, contents) =>
      tree.insert (if Path.isDirectory path then none else some contents) (Path.names path))
    empty

end FileTree

end ScalaLexer

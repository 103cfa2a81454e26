/-!
# Keywords

The reserved words.  A keyword is written in one way only, so its spelling
determines it.
-/

namespace ScalaLexer

/-- A reserved word. -/
inductive Keyword where
  | abstractKw
  | caseKw
  | catchKw
  | classKw
  | defKw
  | doKw
  | elseKw
  | extendsKw
  | finalKw
  | finallyKw
  | forKw
  | forSomeKw
  | ifKw
  | implicitKw
  | importKw
  | lazyKw
  | matchKw
  | newKw
  | nullKw
  | objectKw
  | overrideKw
  | packageKw
  | privateKw
  | protectedKw
  | returnKw
  | sealedKw
  | superKw
  | thisKw
  | throwKw
  | traitKw
  | tryKw
  | typeKw
  | valKw
  | varKw
  | whileKw
  | withKw
  | yieldKw
  deriving Repr, DecidableEq

namespace Keyword

/-- The keyword as it is written in a source. -/
def spelling : Keyword → String
  | abstractKw => "abstract"
  | caseKw => "case"
  | catchKw => "catch"
  | classKw => "class"
  | defKw => "def"
  | doKw => "do"
  | elseKw => "else"
  | extendsKw => "extends"
  | finalKw => "final"
  | finallyKw => "finally"
  | forKw => "for"
  | forSomeKw => "forSome"
  | ifKw => "if"
  | implicitKw => "implicit"
  | importKw => "import"
  | lazyKw => "lazy"
  | matchKw => "match"
  | newKw => "new"
  | nullKw => "null"
  | objectKw => "object"
  | overrideKw => "override"
  | packageKw => "package"
  | privateKw => "private"
  | protectedKw => "protected"
  | returnKw => "return"
  | sealedKw => "sealed"
  | superKw => "super"
  | thisKw => "this"
  | throwKw => "throw"
  | traitKw => "trait"
  | tryKw => "try"
  | typeKw => "type"
  | valKw => "val"
  | varKw => "var"
  | whileKw => "while"
  | withKw => "with"
  | yieldKw => "yield"

/-- All keywords, in the order of their spelling. -/
def all : List Keyword :=
  [abstractKw, caseKw, catchKw, classKw, defKw, doKw, elseKw, extendsKw, finalKw,
   finallyKw, forKw, forSomeKw, ifKw, implicitKw, importKw, lazyKw, matchKw, newKw,
   nullKw, objectKw, overrideKw, packageKw, privateKw, protectedKw, returnKw, sealedKw,
   superKw, thisKw, throwKw, traitKw, tryKw, typeKw, valKw, varKw, whileKw, withKw,
   yieldKw]

/-- The keyword with this spelling. -/
def ofSpelling? (word : String) : Option Keyword :=
  all.find? fun keyword => keyword.spelling == word

theorem mem_all (keyword : Keyword) : keyword ∈ all := by
  cases keyword <;> decide

theorem ofSpelling?_spelling (keyword : Keyword) :
    ofSpelling? keyword.spelling = some keyword := by
  cases keyword <;> rfl

/-- The spelling in upper case. -/
def name (keyword : Keyword) : String :=
  String.ofList (keyword.spelling.toList.map Char.toUpper)

end Keyword

end ScalaLexer

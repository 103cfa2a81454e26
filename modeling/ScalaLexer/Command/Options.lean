/-!
# The options of the command

What a run is told on the command line.
-/

namespace ScalaLexer.Command

/-- What is to be lexed, and how. -/
structure Options where
  /-- Files and directories to lex. -/
  paths : List String
  /-- The extension of the files to lex. -/
  extension : String
  /-- Every token is printed. -/
  tokens : Bool
  /-- Progress is logged. -/
  verbose : Bool
  deriving Repr, DecidableEq

end ScalaLexer.Command

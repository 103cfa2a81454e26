import ScalaLexer.Command.Arguments
import ScalaLexer.Command.Lex
import ScalaLexer.Unicode.Release

/-!
# The command as a whole

The arguments are read first.  Those that ask for something else than lexing, or that make
no sense, are answered at once.
-/

namespace ScalaLexer.Command

/-- The name and number of this release. -/
def versionLine : String := "clex 0.1.0"

/-- A summary of the options. -/
def helpLines : List String :=
  ["Lex Scala sources and report lexical errors",
   "",
   "Usage: clex [OPTIONS] <PATHS>...",
   "",
   "Arguments:",
   "  <PATHS>...  Files or directories to lex",
   "",
   "Options:",
   "      --ext <EXT>  Extension of the files to lex [default: scala]",
   "      --tokens     Print every token of every file",
   "  -v, --verbose    Enable debug logging",
   "  -h, --help       Print help",
   "  -V, --version    Print version"]

/-- What is printed for arguments that make no sense. -/
def usageLines : List String :=
  ["error: invalid arguments", "", "Usage: clex [OPTIONS] <PATHS>...", "",
   "For more information, try '--help'."]

/-- The options to lex with, or the outcome of a request that lexes nothing. -/
def Request.options : Request → Except Outcome Options
  | .lex options => .ok options
  | .version => .error ⟨[versionLine], [], 0⟩
  | .help => .error ⟨helpLines, [], 0⟩
  | .misuse => .error ⟨[], usageLines, 2⟩

/-- Runs the command in the directory `root`, whose path is `home`. -/
def runIn (home : String) (root : FileTree (List UInt8)) (arguments : List String) : Outcome :=
  match (Request.ofArguments arguments).options with
  | .error outcome => outcome
  | .ok options => .of (run (.mounting root (Path.names home)) options)

end ScalaLexer.Command

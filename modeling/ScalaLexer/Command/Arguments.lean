import ScalaLexer.Command.Options

/-!
# The command line

The arguments are read from left to right, and the first one that settles the
matter does: one that is wrong, or one that asks for the version or for help.
Behind `--` every argument is a path.
-/

namespace ScalaLexer.Command

/-- What the arguments ask for. -/
inductive Request where
  | lex (options : Options)
  | version
  | help
  | misuse
  deriving Repr, DecidableEq

/-- The options met so far. -/
structure Partial where
  /-- The paths, the last one first. -/
  paths : List String
  extension : Option String
  tokens : Bool
  verbose : Bool

namespace Partial

/-- Nothing met yet. -/
def initial : Partial := ⟨[], none, false, false⟩

/-- All arguments are read.  There must be a path. -/
def finish (sofar : Partial) : Request :=
  if sofar.paths.isEmpty then .misuse
  else
    .lex
      { paths := sofar.paths.reverse
        extension := sofar.extension.getD "scala"
        tokens := sofar.tokens
        verbose := sofar.verbose }

/-- Meets a path, which must not be empty. -/
def addPath (path : String) (sofar : Partial) : Except Request Partial :=
  if path = "" then .error .misuse else .ok { sofar with paths := path :: sofar.paths }

/-- Meets an extension for the first time. -/
def setExtension (extension : String) (sofar : Partial) : Except Request Partial :=
  if sofar.extension.isSome then .error .misuse
  else .ok { sofar with extension := some extension }

/-- Meets the flag for tokens for the first time. -/
def setTokens (sofar : Partial) : Except Request Partial :=
  if sofar.tokens then .error .misuse else .ok { sofar with tokens := true }

/-- Meets the flag for logging for the first time. -/
def setVerbose (sofar : Partial) : Except Request Partial :=
  if sofar.verbose then .error .misuse else .ok { sofar with verbose := true }

/-- Meets the one-letter flags of a single argument. -/
def setLetters : List Char → Partial → Except Request Partial
  | [], sofar => .ok sofar
  | 'v' :: letters, sofar => sofar.setVerbose >>= setLetters letters
  | 'V' :: _, _ => .error .version
  | 'h' :: _, _ => .error .help
  | _ :: _, _ => .error .misuse

end Partial

/-- The argument is a value and no option: it does not begin with a dash, or is
nothing but one. -/
def isValue (argument : String) : Bool :=
  argument = "-" || argument.toList.head? ≠ some '-'

/-- Reads the arguments behind `--`. -/
def readPaths : List String → Partial → Request
  | [], sofar => sofar.finish
  | path :: arguments, sofar =>
    match sofar.addPath path with
    | .ok sofar => readPaths arguments sofar
    | .error request => request

/-- Reads the arguments behind those that gave `sofar`. -/
def readArguments : List String → Partial → Request
  | [], sofar => sofar.finish
  | "--" :: arguments, sofar => readPaths arguments sofar
  | "--version" :: _, _ => .version
  | "--help" :: _, _ => .help
  | ["--ext"], _ => .misuse
  | "--ext" :: value :: arguments, sofar =>
    if isValue value then
      match sofar.setExtension value with
      | .ok sofar => readArguments arguments sofar
      | .error request => request
    else .misuse
  | argument :: arguments, sofar =>
    let met :=
      if isValue argument then sofar.addPath argument
      else if argument = "--tokens" then sofar.setTokens
      else if argument = "--verbose" then sofar.setVerbose
      else if "--ext=".toList.isPrefixOf argument.toList then
        sofar.setExtension (String.ofList (argument.toList.drop 6))
      else if "--".toList.isPrefixOf argument.toList then .error .misuse
      else sofar.setLetters (argument.toList.drop 1)
    match met with
    | .ok sofar => readArguments arguments sofar
    | .error request => request

/-- What the arguments ask for. -/
def Request.ofArguments (arguments : List String) : Request :=
  readArguments arguments .initial

end ScalaLexer.Command

import ScalaLexer.Text.Quoted
import ScalaLexer.Token.Basic

/-!
# What can be wrong with a source

Most causes end in an error token and the lexer goes on; `Cause.isLexical` tells
them from the two that stop it.  The wording of the messages and tips is here
and nowhere else.
-/

namespace ScalaLexer

/-- A reason why a piece of source is no token, or why the lexer stops. -/
inductive Cause where
  | unmatchedClosingBracket (bracket : String)
  | mismatchedBracket (expected found : String)
  | malformedNumber (literal : String)
  | unterminatedCharacter (found : String)
  | unterminatedString
  | unterminatedMultiLineString
  | unterminatedQuotedIdentifier
  | unknownLexeme (lexeme : String)
  /-- No character starts at this byte. -/
  | invalidEncoding (byte : UInt8)
  /-- Looking ahead in the middle of a token. -/
  | lookaheadMisuse (pending : String)
  deriving Repr, DecidableEq

namespace Cause

/-- The name of the kind of cause. -/
def name : Cause → String
  | unmatchedClosingBracket _ => "UnmatchedClosingBracket"
  | mismatchedBracket _ _ => "MismatchedBracket"
  | malformedNumber _ => "MalformedNumber"
  | unterminatedCharacter _ => "UnterminatedCharacter"
  | unterminatedString => "UnterminatedString"
  | unterminatedMultiLineString => "UnterminatedMultiLineString"
  | unterminatedQuotedIdentifier => "UnterminatedQuotedIdentifier"
  | unknownLexeme _ => "UnknownLexeme"
  | invalidEncoding _ => "InvalidEncoding"
  | lookaheadMisuse _ => "LookaheadMisuse"

/-- A cause that is reported by an error token. -/
def isLexical : Cause → Bool
  | invalidEncoding _ | lookaheadMisuse _ => false
  | _ => true

/-- A byte as two hexadecimal digits. -/
def hexByte (byte : UInt8) : String :=
  String.ofList [Nat.digitChar (byte.toNat / 16), Nat.digitChar (byte.toNat % 16)]

/-- The message, without the place. -/
def message : Cause → String
  | unmatchedClosingBracket bracket =>
    "closing bracket " ++ Quoted.quote bracket ++ " found without a matching opening bracket"
  | mismatchedBracket expected found =>
    "unmatched bracket: expected " ++ Quoted.quote expected ++ ", found " ++ Quoted.quote found
  | malformedNumber literal => "bad number syntax: " ++ Quoted.quote literal
  | unterminatedCharacter found =>
    "consumed open single quote, expected closing single quote but found " ++ Quoted.quote found
  | unterminatedString => "unexpected end of string"
  | unterminatedMultiLineString => "unexpected end of multi line string"
  | unterminatedQuotedIdentifier => "unexpected end of quoted identifier"
  | unknownLexeme lexeme => "unknown lexeme: " ++ Quoted.quote lexeme
  | invalidEncoding byte => "invalid UTF-8 sequence starting with byte 0x" ++ hexByte byte
  | lookaheadMisuse pending =>
    "previous lexeme " ++ Quoted.quote pending ++ " was not consumed before looking ahead"

/-- A suggestion for the author of the source. -/
def tip? : Cause → Option String
  | unmatchedClosingBracket bracket =>
    some ("`" ++ bracket ++
      "` closes a region that was never opened, is an opening bracket missing?")
  | mismatchedBracket expected found =>
    some ("Expected `" ++ expected ++ "` to close the innermost region, found `" ++ found ++ "`")
  | malformedNumber literal =>
    some ("Invalid number: `" ++ literal ++ "`, only `l`, `f` and `d` suffixes are allowed")
  | unterminatedCharacter _ =>
    some "Character literals hold exactly one (possibly escaped) character"
  | unterminatedString | unterminatedMultiLineString => some "Did you forget the closing quote?"
  | unterminatedQuotedIdentifier => some "Did you forget the closing backtick?"
  | unknownLexeme _ => none
  | invalidEncoding _ => some "Source files must be valid UTF-8"
  | lookaheadMisuse _ => some "Emit or ignore the pending lexeme before looking ahead"

end Cause

/-- A cause with its place. -/
structure Diagnostic where
  cause : Cause
  position : Position
  deriving Repr, DecidableEq

namespace Diagnostic

/-- The message with its place. -/
def render (diagnostic : Diagnostic) : String :=
  diagnostic.cause.message ++ " at " ++ diagnostic.position.file ++ ":" ++
    Nat.repr diagnostic.position.offset

end Diagnostic

end ScalaLexer

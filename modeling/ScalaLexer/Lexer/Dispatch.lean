import ScalaLexer.Lexer.Trial
import ScalaLexer.Scan.Trivia

/-!
# The next token

`Lexer.step` returns the next token.  Before a line break becomes a separator the
lexer tries out what it would read behind it and asks the policy.  Where the answer
is yes, the line break is the token; where it is no, the lexer goes on behind it.

Each of these readings begins behind a line feed at least, so there is less and
less ahead of the lexer.
-/

namespace ScalaLexer

namespace Lexer

variable [Unicode.Repertoire]

/-- Asks the policy about a line break in front of a token. -/
def consult (lexer : Lexer) (next : Token) : Separator.Consultation :=
  Separator.consult lexer.policy
    { previous := lexer.lastToken
      next
      region := lexer.regions.head?.map .opening }

/-- The separator that a run of line breaks is, from byte `start` on.  There are
two kinds, told apart by whether the line behind the first line feed is blank. -/
def separator (start : Nat) (run : List Char) : Lexeme :=
  let isBlankLine := (run.tail.dropWhile isBlank).head? = some '\n'
  { kind := if isBlankLine then .newlines else .newline
    value := String.ofList run
    start
    stop := start + Utf8.byteLength run
    resume := .start }

/-- Reads the lexeme at the cursor. -/
def readLexeme (lexer : Lexer) : Answer :=
  lexer.reading (Lexeme.scan lexer.regions) fun found after => after.deliver found.1 found.2

/-- Reads from any place between two lexemes on.  A run of line breaks ends where
a comment begins, but comments and space behind it are skipped as well. -/
def readToken (lexer : Lexer) : Answer :=
  match _ : Trivia.skipBlanks lexer.cursor with
  | .error fault cursor => lexer.fail fault cursor
  | .ok _ line =>
    if _ : line.ahead.head? = some '\n' then
      match _ : Trivia.skipLines line with
      | .error fault cursor => lexer.fail fault cursor
      | .ok _ after =>
        let behind := lexer.moveTo after.release
        let trial := behind.trial behind.readToken halt
        match trial.result with
        | .error _ => trial
        | .ok next =>
          let consultation := trial.lexer.consult next
          let answer :=
            if consultation.decision then
              let run := line.ahead.takeWhile isSpace
              trial.lexer.deliver (separator line.pos run) trial.lexer.regions
            else
              trial.lexer.readToken
          answer.behind (trial.consultations ++ [consultation])
    else
      (lexer.moveTo line).readLexeme
termination_by lexer.cursor.ahead.length
decreasing_by
  · exact Trivia.length_ahead_behind_line ‹_› ‹_› ‹_›
  · rw [trial_cursor]
    exact Trivia.length_ahead_behind_line ‹_› ‹_› ‹_›

/-- Reads what the mode of the lexer leaves to be read and then a token. -/
def dispatch (lexer : Lexer) : Answer :=
  match lexer.mode with
  | .start => lexer.readToken
  | .closingQuote => lexer.reading Scan.skip fun _ after => after.readToken
  | .closingTripleQuote =>
    lexer.reading (Scan.skipWhile (· = '\x22')) fun _ after => after.readToken
  | .done =>
    lexer.reading (Lexeme.emit .eof .done) fun lexeme after => after.deliver lexeme after.regions

/-- The next token.  Behind the end there are only further ends, and a malformed
byte is an end too, once it is reported. -/
def step (lexer : Lexer) : Answer :=
  match lexer.dispatch with
  | ⟨.ok token, after, consultations⟩ => ⟨.ok token, after, consultations⟩
  | ⟨.error diagnostic, after, consultations⟩ =>
    ⟨.error diagnostic, { after with mode := .done }, consultations⟩

end Lexer

end ScalaLexer

import ScalaLexer.Unicode.Alphabetic
import ScalaLexer.Unicode.Numeric
import ScalaLexer.Unicode.Graphic
import ScalaLexer.Unicode.CombiningMark
import ScalaLexer.Unicode.Ignorable
import ScalaLexer.Unicode.WhiteSpace
import ScalaLexer.Text.Place
import ScalaLexer.Text.Utf8
import ScalaLexer.Text.Quoted
import ScalaLexer.Text.Line
import ScalaLexer.CharClass
import ScalaLexer.Unicode.Release
import ScalaLexer.Token.Bracket
import ScalaLexer.Token.Keyword
import ScalaLexer.Token.Kind
import ScalaLexer.Token.Basic
import ScalaLexer.Token.Word
import ScalaLexer.Separator
import ScalaLexer.Region
import ScalaLexer.Diagnostic.Cause
import ScalaLexer.Diagnostic.Report
import ScalaLexer.Scan.Cursor
import ScalaLexer.Scan.Trivia
import ScalaLexer.Scan.Literal
import ScalaLexer.Scan.Lexeme
import ScalaLexer.Lexer.Basic
import ScalaLexer.Lexer.Trial
import ScalaLexer.Lexer.Dispatch
import ScalaLexer.Lexer.LookAhead
import ScalaLexer.Lexer.Drain
import ScalaLexer.Files.Tree
import ScalaLexer.Files.Resolve
import ScalaLexer.Files.Sources
import ScalaLexer.Command.Options
import ScalaLexer.Command.Arguments
import ScalaLexer.Command.Lex
import ScalaLexer.Command.Run
import ScalaLexer.Main
import ScalaLexer.Proofs.Text.Utf8
import ScalaLexer.Proofs.Scan.Reading
import ScalaLexer.Proofs.Scan.Trivia
import ScalaLexer.Proofs.Scan.LineBreak
import ScalaLexer.Proofs.Scan.Routine
import ScalaLexer.Proofs.Scan.Spelling
import ScalaLexer.Proofs.Lexer.Dispatch
import ScalaLexer.Proofs.Lexer.Call
import ScalaLexer.Proofs.Lexer.LookAhead
import ScalaLexer.Proofs.Lexer.Run
import ScalaLexer.Proofs.Lexer.Tiling
import ScalaLexer.Proofs.Lexer.Truncation
import ScalaLexer.Proofs.Lexer.Decoding
import ScalaLexer.Proofs.Lexer.Finding
import ScalaLexer.Proofs.Lexer.Session
import ScalaLexer.Proofs.Lexer.Consultation
import ScalaLexer.Proofs.Lexer.Insertion
import ScalaLexer.Proofs.Lexer.Brackets
import ScalaLexer.Proofs.Lexer.Gap
import ScalaLexer.Proofs.Lexer.Separation
import ScalaLexer.Proofs.Scan.Agreement
import ScalaLexer.Proofs.Scan.Locality
import ScalaLexer.Proofs.Scan.LexemeLocality
import ScalaLexer.Proofs.Scan.Standing
import ScalaLexer.Proofs.Lexer.Layout
import ScalaLexer.Proofs.Lexer.Weaving
import ScalaLexer.Proofs.Lexer.Pieces
import ScalaLexer.Proofs.Lexer.Comments
import ScalaLexer.Proofs.Lexer.Rendering
import ScalaLexer.Proofs.Lexer.Composition
import ScalaLexer.Proofs.Lexer.Invariant
import ScalaLexer.Proofs.Lexer.Progress
import ScalaLexer.Proofs.Lexer.Rewind
import ScalaLexer.Proofs.Scan.Displacement
import ScalaLexer.Proofs.Lexer.Displacement
import ScalaLexer.Proofs.Text.ByteOrder
import ScalaLexer.Proofs.Files.Tree
import ScalaLexer.Proofs.Files.Walk
import ScalaLexer.Proofs.Files.Resolve
import ScalaLexer.Proofs.Lexer.Exhaustion
import ScalaLexer.Proofs.Scan.Comment
import ScalaLexer.Proofs.Scan.Consumption
import ScalaLexer.Proofs.Scan.Numeral
import ScalaLexer.Proofs.Lexer.Root
import ScalaLexer.Proofs.Files.Contents
import ScalaLexer.Proofs.Scan.Identifier
import ScalaLexer.Proofs.Scan.Quotation
import ScalaLexer.Proofs.Lexer.Quotation
import ScalaLexer.Proofs.Lexer.Words
import ScalaLexer.Proofs.Text.Line
import ScalaLexer.Proofs.Diagnostic.Report
import ScalaLexer.Proofs.Lexer.Recovery
import ScalaLexer.Proofs.Text.Quoted
import ScalaLexer.Proofs.Scan.Answers
import ScalaLexer.Proofs.Scan.Stray
import ScalaLexer.Proofs.Lexer.Stray
import ScalaLexer.Proofs.Text.Encoding
import ScalaLexer.Proofs.Text.Lossy
import ScalaLexer.Proofs.Scan.CodePoint
import ScalaLexer.Proofs.Scan.Stepping
import ScalaLexer.Proofs.Diagnostic.Malformed
import ScalaLexer.Proofs.Command.Block
import ScalaLexer.Proofs.Command.Agenda
import ScalaLexer.Proofs.Command.Isolation
import ScalaLexer.Proofs.Command.Undecodable

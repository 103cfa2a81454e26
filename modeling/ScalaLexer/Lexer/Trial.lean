import ScalaLexer.Lexer.Basic
import ScalaLexer.Region

/-!
# Trials

A lexer can be put back to where it was.  A snapshot holds all of a lexer but its
open regions, of which it knows only the number.  A trial reads a token and rolls
all of it back: what the snapshot does not hold is undone from the kind of the
token that was found.
-/

namespace ScalaLexer

/-- A state of a lexer, up to what never changes and the regions themselves. -/
structure Snapshot where
  cursor : Cursor
  mode : Mode
  lastToken : Option TokenKind
  regionDepth : Nat
  deriving Repr, DecidableEq

namespace Lexer

/-- The present state. -/
def snapshot (lexer : Lexer) : Snapshot :=
  ⟨lexer.cursor, lexer.mode, lexer.lastToken, lexer.regionDepth⟩

/-- The state of the lexer put at byte `pos`, with the bytes from `start` on
pending; the source must hold both places in this order. -/
def placedAt? (lexer : Lexer) (start pos : Nat) (mode : Mode) (lastToken : Option TokenKind) :
    Option Snapshot :=
  if start ≤ pos ∧ pos ≤ lexer.source.length then
    some ⟨.ofOffsets lexer.source start pos, mode, lastToken, lexer.regionDepth⟩
  else none

/-- Puts the lexer back; the open regions stay. -/
def restore (lexer : Lexer) (snapshot : Snapshot) : Lexer :=
  { lexer with
    cursor := snapshot.cursor
    mode := snapshot.mode
    lastToken := snapshot.lastToken }

/-- Puts the lexer back if as many regions are open as there were. -/
def restore? (lexer : Lexer) (snapshot : Snapshot) : Option Lexer :=
  if snapshot.regionDepth = lexer.regionDepth then some (lexer.restore snapshot) else none

/-- Takes back what a token of this kind did to the open regions. -/
def undo (lexer : Lexer) (kind : TokenKind) : Lexer :=
  { lexer with regions := kind.regionEffect.undo lexer.regions }

/-- A lexer that must not make a trial: the token at the cursor has begun. -/
def misuse (lexer : Lexer) : Diagnostic :=
  ⟨.lookaheadMisuse (String.ofList lexer.cursor.pending), ⟨.ofNat lexer.cursor.start, lexer.file⟩⟩

/-- What a trial makes of the answer `first` of the lexer: it goes on behind the
token as `further` says, and then everything is rolled back. -/
def trial (lexer : Lexer) (first : Answer) (further : Token → Lexer → Answer) : Answer :=
  if lexer.cursor.start < lexer.cursor.pos then
    ⟨.error lexer.misuse, lexer, []⟩
  else
    match first with
    | ⟨.error diagnostic, after, consultations⟩ =>
      ⟨.error diagnostic, after.restore lexer.snapshot, consultations⟩
    | ⟨.ok token, after, consultations⟩ =>
      let deeper := further token after
      { result := deeper.result
        lexer := (deeper.lexer.undo token.kind).restore lexer.snapshot
        consultations := consultations ++ deeper.consultations }

/-- Goes no further than the token. -/
def halt (token : Token) (after : Lexer) : Answer :=
  ⟨.ok token, after, []⟩

@[simp] theorem trial_cursor (lexer : Lexer) (first : Answer) (further : Token → Lexer → Answer) :
    (lexer.trial first further).lexer.cursor = lexer.cursor := by
  unfold trial
  split
  · rfl
  · split <;> rfl

end Lexer

end ScalaLexer

import ScalaLexer.Text.Place
import ScalaLexer.Text.Utf8

/-!
# The cursor

A cursor stands in a source at `pos`.  The characters between `start` and `pos`
are pending: they are read and belong to no token yet.  Ahead of it are the
characters up to the end of the source or up to the first malformed byte,
whichever comes first.

A `Scan` moves the cursor.  It fails only when it needs to know what stands at a
malformed byte, and the cursor then stays where the failure left it.

`width` is the length of the character read last.  It drops to zero when a
reading takes its last character back, comes to the end of the source or is
finished.
-/

namespace ScalaLexer

/-- A place in a source that is being read. -/
structure Cursor where
  /-- The offset at which the pending characters begin. -/
  start : Nat
  /-- The offset of the next character. -/
  pos : Nat
  /-- The number of bytes of the character read last. -/
  width : Nat
  /-- The text from `start` up to `pos`. -/
  pending : List Char
  /-- The characters from `pos` on. -/
  ahead : List Char
  /-- The byte behind them at which no character starts. -/
  malformed : Option UInt8
  deriving Repr, DecidableEq

/-- The cursor needed a character where none starts. -/
structure Fault where
  byte : UInt8
  offset : UInt32
  deriving Repr, DecidableEq

/-- A reading of a source. -/
abbrev Scan := EStateM Fault Cursor

namespace Cursor

/-- A cursor at byte `pos` of a source, with the bytes from `start` on pending. -/
def ofOffsets (source : List UInt8) (start pos : Nat) : Cursor :=
  let decoded := Utf8.decode (source.drop pos)
  { start, pos, width := 0
    pending := Utf8.decodeLossy ((source.take pos).drop start)
    ahead := decoded.text
    malformed := decoded.malformed }

/-- Reads `run`, behind which `rest` stands ahead. -/
def advance (run rest : List Char) (cursor : Cursor) : Cursor :=
  { cursor with
    pos := cursor.pos + Utf8.byteLength run
    width := (run.getLast?.map Char.utf8Size).getD cursor.width
    pending := cursor.pending ++ run
    ahead := rest }

/-- Comes to rest: no character is left to take back. -/
def settle (cursor : Cursor) : Cursor :=
  { cursor with width := 0 }

/-- Forgets what is pending. -/
def release (cursor : Cursor) : Cursor :=
  { cursor with start := cursor.pos, pending := [] }

/-- Forgets what is pending but for the text `pending` right before the cursor. -/
def releaseBefore (pending : List Char) (cursor : Cursor) : Cursor :=
  { cursor with start := cursor.pos - Utf8.byteLength pending, pending }

end Cursor

namespace Scan

/-- Comes to the end of the characters ahead: a fault if there is a malformed
byte, and otherwise the end of the source. -/
def atEnd {α : Type} (result : α) : Scan α := fun cursor =>
  match cursor.malformed with
  | some byte => .error ⟨byte, .ofNat cursor.pos⟩ cursor
  | none => .ok result cursor.settle

/-- Reads a character; `none` at the end of the source. -/
def next : Scan (Option Char) := fun cursor =>
  match cursor.ahead with
  | c :: rest => .ok (some c) (cursor.advance [c] rest)
  | [] => atEnd none cursor

/-- The character `n` places ahead, without moving; `none` if the source ends
before it. -/
def peek (n : Nat) : Scan (Option Char) := fun cursor =>
  match cursor.ahead[n]? with
  | some c => .ok (some c) cursor
  | none =>
    match cursor.malformed with
    | some byte => .error ⟨byte, .ofNat (cursor.pos + Utf8.byteLength cursor.ahead)⟩ cursor
    | none => .ok none cursor

/-- Reads the next character if it is in the class, and tells whether it is. -/
def accept (isMember : Char → Bool) : Scan Bool := fun cursor =>
  match cursor.ahead with
  | c :: rest =>
    if isMember c then .ok true (cursor.advance [c] rest) else .ok false cursor.settle
  | [] => atEnd false cursor

/-- Reads the front part of what `split` makes of the text ahead.  To know that
the part ends, one has to know what stands behind it. -/
def readPart (split : List Char → List Char × List Char) : Scan Unit := fun cursor =>
  let parts := split cursor.ahead
  let after := cursor.advance parts.1 parts.2
  if parts.2.isEmpty then atEnd () after else .ok () after.settle

theorem ahead_of_readPart {split : List Char → List Char × List Char} {cursor after : Cursor}
    (h : readPart split cursor = .ok () after) : after.ahead = (split cursor.ahead).2 := by
  simp only [readPart, atEnd] at h
  split at h
  · split at h
    · cases h
    · cases h
      rfl
  · cases h
    rfl

/-- Reads all characters of the class, up to the first that is not in it. -/
def readWhile (isMember : Char → Bool) : Scan Unit :=
  readPart (List.span isMember)

/-- Reads `n` characters that are known to stand ahead. -/
def readExactly (n : Nat) : Scan Unit := fun cursor =>
  .ok () (cursor.advance (cursor.ahead.take n) (cursor.ahead.drop n)).settle

/-- The source goes on with this text. -/
def startsWith (text : String) : Scan Bool := fun cursor =>
  .ok (text.toList.isPrefixOf cursor.ahead) cursor

/-- Forgets what is pending. -/
def release : Scan Unit :=
  modify Cursor.release

/-- Reads a character and forgets it, with all that is pending. -/
def skip : Scan Unit := do
  let _ ← next
  release

/-- Reads all characters of the class and forgets them, with all that is pending. -/
def skipWhile (isMember : Char → Bool) : Scan Unit := do
  readWhile isMember
  release

/-- The pending text. -/
def pending : Scan String := fun cursor =>
  .ok (String.ofList cursor.pending) cursor

end Scan

end ScalaLexer

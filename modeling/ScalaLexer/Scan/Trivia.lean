import ScalaLexer.Scan.Cursor
import ScalaLexer.CharClass

/-!
# Blank space and block comments

Block comments nest.  Trivia is any mixture of space and block comments; what
counts as space is a parameter, since a line feed is only sometimes one.
-/

namespace ScalaLexer.Trivia

/-- Cuts a text behind its longest beginning that is trivia.  `depth` is the
number of block comments that are open where the text begins; one that is never
closed takes in the rest of the text. -/
def split (isSpace : Char → Bool) : Nat → List Char → List Char × List Char
  | depth, '/' :: '*' :: text =>
    Prod.map (fun front => '/' :: '*' :: front) id (split isSpace (depth + 1) text)
  | depth + 1, '*' :: '/' :: text =>
    Prod.map (fun front => '*' :: '/' :: front) id (split isSpace depth text)
  | depth + 1, c :: text => Prod.map (c :: ·) id (split isSpace (depth + 1) text)
  | 0, c :: text =>
    if isSpace c then Prod.map (c :: ·) id (split isSpace 0 text) else ([], c :: text)
  | _, [] => ([], [])

/-- Nothing is lost. -/
theorem split_append (isSpace : Char → Bool) (depth : Nat) (text : List Char) :
    (split isSpace depth text).1 ++ (split isSpace depth text).2 = text := by
  fun_induction split isSpace depth text <;> simp_all

theorem length_split_le (isSpace : Char → Bool) (depth : Nat) (text : List Char) :
    (split isSpace depth text).2.length ≤ text.length := by
  have happend := congrArg List.length (split_append isSpace depth text)
  rw [List.length_append] at happend
  omega

/-- The end of a piece of trivia, from the last comment on that lies in no
other; `none` if it holds no such comment. -/
def lastComment? : Nat → List Char → Option (List Char)
  | 0, '/' :: '*' :: text => (lastComment? 1 text).or (some ('/' :: '*' :: text))
  | depth + 1, '/' :: '*' :: text => lastComment? (depth + 2) text
  | depth + 1, '*' :: '/' :: text => lastComment? depth text
  | depth, _ :: text => lastComment? depth text
  | _, [] => none

/-- Skips blanks and block comments within a line and forgets them.  At a fault
the last comment and what follows it are still pending. -/
def skipBlanks : Scan Unit := fun cursor =>
  match Scan.readPart (split isBlank 0) cursor with
  | .ok _ after => .ok () after.release
  | .error fault after =>
    match lastComment? 0 (split isBlank 0 cursor.ahead).1 with
    | some comment => .error fault (after.releaseBefore comment)
    | none => .error fault after

/-- Skips space of all lines and block comments. -/
def skipLines : Scan Unit :=
  Scan.readPart (split isSpace 0)

theorem ahead_of_skipBlanks {cursor after : Cursor} (h : skipBlanks cursor = .ok () after) :
    after.ahead = (split isBlank 0 cursor.ahead).2 := by
  simp only [skipBlanks] at h
  split at h
  · next hread =>
    have hread := Scan.ahead_of_readPart hread
    cases h
    exact hread
  · split at h <;> cases h

/-- Skipping a line break leaves less ahead. -/
theorem length_ahead_behind_line {cursor line after : Cursor}
    (hblanks : skipBlanks cursor = .ok () line) (hline : line.ahead.head? = some '\n')
    (hlines : skipLines line = .ok () after) :
    after.release.ahead.length < cursor.ahead.length := by
  have hshorter := length_split_le isBlank 0 cursor.ahead
  rw [← ahead_of_skipBlanks hblanks] at hshorter
  obtain ⟨rest, hrest⟩ : ∃ rest, line.ahead = '\n' :: rest := by
    cases hahead : line.ahead with
    | nil => simp [hahead] at hline
    | cons c rest => exact ⟨rest, by simp_all⟩
  have hafter : after.ahead = (split isSpace 0 rest).2 := by
    rw [Scan.ahead_of_readPart hlines, hrest]
    simp [split, isSpace]
  have hless := length_split_le isSpace 0 rest
  rw [hrest, List.length_cons] at hshorter
  change after.ahead.length < cursor.ahead.length
  rw [hafter]
  omega

end ScalaLexer.Trivia

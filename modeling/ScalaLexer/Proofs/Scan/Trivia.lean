import ScalaLexer.Proofs.Scan.Reading
import ScalaLexer.Scan.Trivia

/-!
# The grammar of trivia

`Trivia.split` counts the comments that are open.  Here is the grammar that it
decides: a comment is

  `C ::= '/*' (C | x)* '*/'`

where `x` is a character at which neither delimiter starts.  `split_commentTail`
says that the count skips exactly one comment, and `split_of_open` that it runs to
the end of the text where no comment ends.  `split_isTrivia` puts the two together:
what is skipped between two lexemes is a sequence of space and comments, and a
comment that never ends can only be the last piece of the text.
-/

namespace ScalaLexer.Trivia

/-! ## The grammar -/

/-- A block comment behind its first two characters. -/
inductive CommentTail : List Char → Prop
  | close : CommentTail ['*', '/']
  | nested {inner tail : List Char} : CommentTail inner → CommentTail tail →
      CommentTail ('/' :: '*' :: (inner ++ tail))
  | char {c : Char} {tail : List Char} : ¬ ['/', '*'] <+: c :: tail → ¬ ['*', '/'] <+: c :: tail →
      CommentTail tail → CommentTail (c :: tail)

/-- A sequence of blanks, line feeds and block comments. -/
inductive IsTrivia : List Char → Prop
  | nil : IsTrivia []
  | space {c : Char} {text : List Char} : isSpace c = true → IsTrivia text → IsTrivia (c :: text)
  | comment {tail text : List Char} : CommentTail tail → IsTrivia text →
      IsTrivia ('/' :: '*' :: (tail ++ text))

/-- A comment begins here, and no beginning of the text is a whole one. -/
structure IsOpenComment (text : List Char) : Prop where
  opens : ['/', '*'] <+: text
  unclosed : ∀ tail, CommentTail tail → ¬ '/' :: '*' :: tail <+: text

/-- Trivia at the end of a source, where the last comment need not be closed. -/
def IsTrailing (text : List Char) : Prop :=
  ∃ front back, text = front ++ back ∧ IsTrivia front ∧ (back = [] ∨ IsOpenComment back)

theorem IsTrivia.append {front back : List Char} (hfront : IsTrivia front)
    (hback : IsTrivia back) : IsTrivia (front ++ back) := by
  induction hfront with
  | nil => exact hback
  | space hspace _ ih => exact .space hspace ih
  | comment htail _ ih =>
      rw [List.cons_append, List.cons_append, List.append_assoc]
      exact .comment htail ih

theorem IsTrivia.isTrailing {text : List Char} (h : IsTrivia text) : IsTrailing text :=
  ⟨text, [], by simp, h, .inl rfl⟩

theorem IsTrivia.isTrailing_append {front back : List Char} (hfront : IsTrivia front)
    (hback : IsTrailing back) : IsTrailing (front ++ back) := by
  obtain ⟨closed, rest, rfl, hclosed, hrest⟩ := hback
  exact ⟨front ++ closed, rest, by rw [List.append_assoc], hfront.append hclosed, hrest⟩

/-! ## Counting decides the grammar -/

theorem CommentTail.exists_cons {tail : List Char} (h : CommentTail tail) :
    ∃ c rest, tail = c :: rest := by
  cases h with
  | close => exact ⟨_, _, rfl⟩
  | nested => exact ⟨_, _, rfl⟩
  | char => exact ⟨_, _, rfl⟩

/-- No delimiter comes about in front of the rest of a comment when text is put behind. -/
theorem CommentTail.not_delimiter_append {tail : List Char} (h : CommentTail tail)
    {first second c : Char} (hnot : ¬ [first, second] <+: c :: tail) (rest : List Char) :
    ¬ [first, second] <+: c :: (tail ++ rest) := by
  obtain ⟨next, more, rfl⟩ := h.exists_cons
  simpa using hnot

/-- A text that begins with these two characters. -/
private theorem cons_cons_of_prefix_cons {first second c : Char} {text : List Char}
    (h : [first, second] <+: c :: text) : c = first ∧ ∃ rest, text = second :: rest := by
  obtain ⟨rest, hrest⟩ := h
  cases hrest
  exact ⟨rfl, rest, rfl⟩

variable (isMember : Char → Bool)

theorem split_open (depth : Nat) (text : List Char) :
    split isMember depth ('/' :: '*' :: text) =
      Prod.map (fun front => '/' :: '*' :: front) id (split isMember (depth + 1) text) :=
  rfl

/-- A character at which no delimiter starts is skipped inside a comment. -/
theorem split_char {c : Char} {text : List Char} (hopen : ¬ ['/', '*'] <+: c :: text)
    (hclose : ¬ ['*', '/'] <+: c :: text) (depth : Nat) :
    split isMember (depth + 1) (c :: text) =
      (c :: (split isMember (depth + 1) text).1, (split isMember (depth + 1) text).2) := by
  rw [split]
  · rfl
  · rintro rest rfl rfl
    exact hopen ⟨rest, rfl⟩
  · rintro rest rfl rfl
    exact hclose ⟨rest, rfl⟩

/-- One comment is left behind where the grammar says that it ends. -/
theorem split_commentTail {tail : List Char} (htail : CommentTail tail) (depth : Nat)
    (rest : List Char) :
    split isMember (depth + 1) (tail ++ rest) =
      (tail ++ (split isMember depth rest).1, (split isMember depth rest).2) := by
  induction htail generalizing depth rest with
  | close => rfl
  | @nested inner tail _ _ ihinner ihtail =>
      rw [List.cons_append, List.cons_append, List.append_assoc, split_open, ihinner, ihtail]
      simp
  | @char c tail hopen hclose htail ih =>
      rw [List.cons_append, split_char isMember (htail.not_delimiter_append hopen rest)
        (htail.not_delimiter_append hclose rest), ih]
      rfl

/-- Where no comment ends, the rest of the text is inside one. -/
theorem split_of_open (depth : Nat) (text : List Char)
    (hopen : ∀ tail, CommentTail tail → ¬ tail <+: text) :
    split isMember (depth + 1) text = (text, []) := by
  induction hlength : text.length using Nat.strongRecOn generalizing depth text with
  | _ length ih =>
      subst hlength
      cases text with
      | nil => rfl
      | cons c text =>
          by_cases hnested : ['/', '*'] <+: c :: text
          · obtain ⟨rfl, behind, rfl⟩ := cons_cons_of_prefix_cons hnested
            rw [split_open]
            -- a comment inside is either left behind or swallows the rest itself
            by_cases hinner : ∃ inner, CommentTail inner ∧ inner <+: behind
            · obtain ⟨inner, hinner, rest, rfl⟩ := hinner
              have hless : rest.length < ('/' :: '*' :: (inner ++ rest)).length := by
                simp only [List.length_cons, List.length_append]
                omega
              have hrest := ih rest.length hless depth rest (fun tail htail hprefix =>
                hopen _ (.nested hinner htail) (by simpa using hprefix)) rfl
              rw [split_commentTail isMember hinner, hrest]
              rfl
            · have hless : behind.length < ('/' :: '*' :: behind).length := by
                simp only [List.length_cons]
                omega
              rw [ih behind.length hless (depth + 1) behind
                (fun tail htail hprefix => hinner ⟨tail, htail, hprefix⟩) rfl]
              rfl
          · have hclose : ¬ ['*', '/'] <+: c :: text := hopen _ .close
            rw [split_char isMember hnested hclose, ih text.length (by simp) depth text _ rfl]
            intro tail htail hprefix
            have hcons : c :: tail <+: c :: text := by simpa using hprefix
            exact hopen (c :: tail) (.char (fun h => hnested (h.trans hcons))
              (fun h => hclose (h.trans hcons)) htail) hcons

/-- Outside of comments the cut is made at the first character that is no space. -/
theorem split_outside {c : Char} {text : List Char} (hopen : ¬ ['/', '*'] <+: c :: text) :
    split isMember 0 (c :: text) =
      if isMember c then (c :: (split isMember 0 text).1, (split isMember 0 text).2)
      else ([], c :: text) := by
  rw [split]
  · rfl
  · rintro rest rfl rfl
    exact hopen ⟨rest, rfl⟩

variable {isMember}

/-- The run of space at the front is cut off before any comment is. -/
theorem split_eq_takeWhile_append (hslash : isMember '/' = false) (text : List Char) :
    split isMember 0 text =
      (text.takeWhile isMember ++ (split isMember 0 (text.dropWhile isMember)).1,
        (split isMember 0 (text.dropWhile isMember)).2) := by
  induction text with
  | nil => rfl
  | cons c text ih =>
      cases hmember : isMember c with
      | false => simp [hmember]
      | true =>
          have hopen : ¬ ['/', '*'] <+: c :: text := by
            intro hprefix
            rw [(cons_cons_of_prefix_cons hprefix).1, hslash] at hmember
            cases hmember
          rw [split_outside isMember hopen, List.takeWhile_cons, List.dropWhile_cons]
          simp only [hmember, if_true, ih, List.cons_append]

/-- What is cut off is trivia, and what ends in an open comment is all there is. -/
theorem split_isTrivia (hspace : ∀ c, isMember c = true → isSpace c = true) (text : List Char) :
    IsTrailing (split isMember 0 text).1 ∧
      ((split isMember 0 text).2 ≠ [] → IsTrivia (split isMember 0 text).1) := by
  induction hlength : text.length using Nat.strongRecOn generalizing text with
  | _ length ih =>
      subst hlength
      cases text with
      | nil => exact ⟨IsTrivia.nil.isTrailing, fun _ => .nil⟩
      | cons c text =>
          by_cases hopen : ['/', '*'] <+: c :: text
          · obtain ⟨rfl, behind, rfl⟩ := cons_cons_of_prefix_cons hopen
            rw [split_open]
            -- a comment that ends is one piece; one that does not takes in all that is left
            by_cases hclosed : ∃ tail, CommentTail tail ∧ tail <+: behind
            · obtain ⟨tail, htail, rest, rfl⟩ := hclosed
              have hless : rest.length < ('/' :: '*' :: (tail ++ rest)).length := by
                simp only [List.length_cons, List.length_append]
                omega
              obtain ⟨htrailing, htrivia⟩ := ih rest.length hless rest rfl
              rw [split_commentTail isMember htail]
              have hcomment : IsTrivia ('/' :: '*' :: (tail ++ [])) := .comment htail .nil
              rw [List.append_nil] at hcomment
              exact ⟨hcomment.isTrailing_append htrailing,
                fun hrest => .comment htail (htrivia hrest)⟩
            · have hall : ∀ tail, CommentTail tail → ¬ tail <+: behind :=
                fun tail htail hprefix => hclosed ⟨tail, htail, hprefix⟩
              rw [split_of_open isMember 0 behind hall]
              refine ⟨⟨[], _, rfl, .nil, .inr ⟨⟨behind, rfl⟩, ?_⟩⟩, fun hrest => absurd rfl hrest⟩
              intro tail htail hprefix
              exact hall tail htail (by simpa using hprefix)
          · rw [split_outside isMember hopen]
            split
            · next hmember =>
                obtain ⟨htrailing, htrivia⟩ := ih text.length (by simp) text rfl
                have hc : IsTrivia [c] := .space (hspace c hmember) .nil
                exact ⟨hc.isTrailing_append htrailing,
                  fun hrest => .space (hspace c hmember) (htrivia hrest)⟩
            · exact ⟨IsTrivia.nil.isTrailing, fun _ => .nil⟩

/-- Behind the cut stands neither space nor a comment. -/
theorem split_rest {depth : Nat} {text rest : List Char} {c : Char}
    (h : (split isMember depth text).2 = c :: rest) :
    isMember c = false ∧ ¬ ['/', '*'] <+: c :: rest := by
  fun_induction split isMember depth text with
  | case1 depth text ih => exact ih h
  | case2 depth text ih => exact ih h
  | case3 depth first text _ _ ih => exact ih h
  | case4 first text _ _ ih => exact ih h
  | case5 first text hopen hmember =>
      cases h
      refine ⟨by simpa using hmember, ?_⟩
      intro hprefix
      obtain ⟨rfl, behind, rfl⟩ := cons_cons_of_prefix_cons hprefix
      exact hopen _ rfl rfl
  | case6 => cases h

/-! ## Skipping it -/

variable {cursor after : Cursor}

theorem skipBlanks_eq_ok (h : skipBlanks cursor = .ok () after) :
    cursor.Drops (split isBlank 0 cursor.ahead).1 after := by
  simp only [skipBlanks] at h
  split at h
  · next hread =>
      have hreads := Scan.readPart_eq_ok (split_append isBlank 0) hread
      cases h
      exact hreads.release
  · split at h <;> cases h

theorem skipLines_eq_ok (h : skipLines cursor = .ok () after) :
    cursor.Drops (split isSpace 0 cursor.ahead).1 after.release :=
  (Scan.readPart_eq_ok (split_append isSpace 0) h).release

theorem skipLines_plain : Scan.Plain skipLines :=
  .readPart (split_append isSpace 0)

theorem skipBlanks_fault {fault : Fault} (h : skipBlanks cursor = .error fault after) :
    cursor.Blames fault := by
  have hplain : Scan.Plain (Scan.readPart (split isBlank 0)) := .readPart (split_append isBlank 0)
  simp only [skipBlanks] at h
  split at h
  · cases h
  · next hread =>
      have hblames := hplain.fault hread
      split at h <;> cases h <;> exact hblames

theorem skipBlanks_ok_truncated (h : skipBlanks cursor = .ok () after) :
    skipBlanks cursor.truncated = .ok () after.truncated := by
  have hplain : Scan.Plain (Scan.readPart (split isBlank 0)) := .readPart (split_append isBlank 0)
  simp only [skipBlanks] at h ⊢
  split at h
  · next hread =>
      cases h
      rw [hplain.ok_truncated hread]
      rfl
  · split at h <;> cases h

/-- What a cursor passes over between two lexemes: trivia, whose last comment may
be open at the end of the text. -/
structure Passes (cursor : Cursor) (gap : List Char) (after : Cursor) : Prop where
  drops : cursor.Drops gap after
  trailing : IsTrailing gap
  trivia : after.ahead ≠ [] → IsTrivia gap

/-- Trivia ends at the end of the text only, so there is none behind the end. -/
theorem Passes.trans {between : Cursor} {gap more : List Char} (hfirst : Passes cursor gap between)
    (hsecond : Passes between more after) : Passes cursor (gap ++ more) after := by
  have hdrops := hfirst.drops.trans hsecond.drops
  by_cases hnext : between.ahead = []
  · obtain ⟨rfl, hend⟩ := List.append_eq_nil_iff.mp (hsecond.drops.ahead.symm.trans hnext)
    rw [List.append_nil] at hdrops ⊢
    exact ⟨hdrops, hfirst.trailing, fun hne => absurd hend hne⟩
  · have htrivia := hfirst.trivia hnext
    exact ⟨hdrops, htrivia.isTrailing_append hsecond.trailing,
      fun hafter => htrivia.append (hsecond.trivia hafter)⟩

theorem Passes.of_release {gap : List Char} (h : Passes cursor gap after) :
    Passes cursor.release gap after :=
  ⟨⟨h.drops.ahead, h.drops.pos, h.drops.malformed, h.drops.idle⟩, h.trailing, h.trivia⟩

theorem isSpace_of_isBlank (c : Char) (h : isBlank c = true) : isSpace c = true := by
  simp [isSpace, h]

theorem skipBlanks_passes (h : skipBlanks cursor = .ok () after) :
    Passes cursor (split isBlank 0 cursor.ahead).1 after := by
  have hahead := ahead_of_skipBlanks h
  obtain ⟨htrailing, htrivia⟩ := split_isTrivia isSpace_of_isBlank cursor.ahead
  exact ⟨skipBlanks_eq_ok h, htrailing, fun hne => htrivia (hahead ▸ hne)⟩

theorem skipLines_passes (h : skipLines cursor = .ok () after) :
    Passes cursor (split isSpace 0 cursor.ahead).1 after.release := by
  have hahead := Scan.ahead_of_readPart h
  obtain ⟨htrailing, htrivia⟩ := split_isTrivia (fun _ => id) cursor.ahead
  exact ⟨skipLines_eq_ok h, htrailing, fun hne => htrivia (hahead ▸ hne)⟩

/-- A line break begins a run of space. -/
theorem takeWhile_isSpace_ne_nil {text : List Char} (hline : text.head? = some '\n') :
    text.takeWhile isSpace ≠ [] := by
  cases text with
  | nil => cases hline
  | cons c rest =>
      obtain rfl : c = '\n' := by simpa using hline
      exact nofun

/-- Behind the first run of space the skipping goes on with trivia of its own. -/
theorem skipLines_behind_run (h : skipLines cursor = .ok () after) :
    ∃ pad between, cursor.Drops (cursor.ahead.takeWhile isSpace) between ∧
      Passes between pad after.release := by
  have hdrops := skipLines_eq_ok h
  have hahead := Scan.ahead_of_readPart h
  rw [split_eq_takeWhile_append (by decide)] at hdrops hahead
  have hrun : cursor.Drops (cursor.ahead.takeWhile isSpace) _ :=
    (Cursor.Reads.of_advance List.takeWhile_append_dropWhile.symm).release
  obtain ⟨htrailing, htrivia⟩ := split_isTrivia (fun _ => id) (cursor.ahead.dropWhile isSpace)
  exact ⟨_, _, hrun, hdrops.of_append hrun, htrailing, fun hne => htrivia (hahead ▸ hne)⟩

/-- Where no trivia stands ahead, nothing is skipped. -/
theorem skipBlanks_eq_self (hidle : cursor.Idle) (hwidth : cursor.width = 0)
    (hsplit : split isBlank 0 cursor.ahead = ([], cursor.ahead))
    (hend : cursor.ahead = [] → cursor.malformed = none) :
    skipBlanks cursor = .ok () cursor := by
  obtain ⟨start, pos, width, pending, ahead, malformed⟩ := cursor
  obtain ⟨hstart, hpending⟩ := hidle
  dsimp only at hstart hpending hwidth hsplit hend
  subst hstart hpending hwidth
  simp only [skipBlanks, Scan.readPart, hsplit]
  cases ahead with
  | nil => simp [Scan.atEnd, hend rfl, Cursor.advance, Cursor.settle, Cursor.release]
  | cons c rest => simp [Cursor.advance, Cursor.settle, Cursor.release]

/-- Behind a line break that was skipped there is neither space nor a comment left. -/
theorem skipBlanks_behind_lines (h : skipLines cursor = .ok () after) :
    skipBlanks after.release = .ok () after.release ∧ after.ahead.head? ≠ some '\n' := by
  have hahead : after.ahead = (split isSpace 0 cursor.ahead).2 := Scan.ahead_of_readPart h
  obtain ⟨hwidth, hend⟩ := Scan.readPart_finished h
  cases hrest : after.ahead with
  | nil =>
      refine ⟨skipBlanks_eq_self ⟨rfl, rfl⟩ hwidth ?_ hend, nofun⟩
      change split isBlank 0 after.ahead = ([], after.ahead)
      rw [hrest]
      rfl
  | cons c rest =>
      obtain ⟨hspace, hopen⟩ := split_rest (hahead.symm.trans hrest)
      simp only [isSpace, Bool.or_eq_false_iff, decide_eq_false_iff_not] at hspace
      refine ⟨skipBlanks_eq_self ⟨rfl, rfl⟩ hwidth ?_ hend, by simpa using hspace.1⟩
      change split isBlank 0 after.ahead = ([], after.ahead)
      rw [hrest, split_outside isBlank hopen, hspace.2]
      rfl

end ScalaLexer.Trivia

import ScalaLexer.Proofs.Scan.Trivia

/-!
# Line breaks between lexemes

Trivia may run over several lines.  What counts for the statements of a source is
its first line break outside of comments: `BreaksAt` says where it stands.  Within
the line in front of it there are only blanks and block comments, so
`Trivia.split isBlank` stops exactly there (`BreaksAt.split`) and there is at most
one such place (`BreaksAt.unique`).

Trivia that a class of characters makes up, together with comments, is a
`Mixture` of it.  `split_mixture` is the converse of `split_isTrivia`: a mixture is
skipped as a whole.
-/

namespace ScalaLexer.Trivia

/-- A sequence of characters of the class and of block comments. -/
inductive Mixture (isMember : Char → Bool) : List Char → Prop
  | nil : Mixture isMember []
  | member {c : Char} {text : List Char} : isMember c = true → Mixture isMember text →
      Mixture isMember (c :: text)
  | comment {tail text : List Char} : CommentTail tail → Mixture isMember text →
      Mixture isMember ('/' :: '*' :: (tail ++ text))

/-- The first line break of the text that lies in no comment stands between `front`
and `back`. -/
structure BreaksAt (text front back : List Char) : Prop where
  eq : text = front ++ '\n' :: back
  inline : Mixture isBlank front

variable {isMember : Char → Bool} {text front back rest : List Char}

theorem IsTrivia.mixture (h : IsTrivia text) : Mixture isSpace text := by
  induction h with
  | nil => exact .nil
  | space hspace _ ih => exact .member hspace ih
  | comment htail _ ih => exact .comment htail ih

/-! ## A mixture is skipped -/

theorem ne_slash_of_isSpace {c : Char} (hspace : isSpace c = true) : c ≠ '/' := by
  rintro rfl
  exact absurd hspace (by decide)

theorem not_open_of_ne_slash {c : Char} (hc : c ≠ '/') : ¬ ['/', '*'] <+: c :: text := by
  rintro ⟨more, hmore⟩
  cases hmore
  exact hc rfl

theorem split_mixture (hslash : isMember '/' = false) (hmixture : Mixture isMember front)
    (rest : List Char) :
    split isMember 0 (front ++ rest) =
      (front ++ (split isMember 0 rest).1, (split isMember 0 rest).2) := by
  induction hmixture with
  | nil => rfl
  | @member c text hmember _ ih =>
      have hopen : ¬ ['/', '*'] <+: c :: (text ++ rest) := by
        refine not_open_of_ne_slash fun hc => ?_
        rw [hc, hslash] at hmember
        cases hmember
      rw [List.cons_append, split_outside isMember hopen, if_pos hmember, ih]
      rfl
  | @comment tail text htail _ ih =>
      have hsplit := split_commentTail isMember htail 0 (text ++ rest)
      rw [List.cons_append, List.cons_append, List.append_assoc, split_open, hsplit, ih]
      simp

/-- Nothing is skipped where neither the class nor a comment goes on. -/
theorem split_of_head (hmember : ∀ c ∈ text.head?, isMember c = false)
    (hopen : ¬ ['/', '*'] <+: text) : split isMember 0 text = ([], text) := by
  cases text with
  | nil => rfl
  | cons c text => rw [split_outside isMember hopen, if_neg (by simp [hmember c rfl])]

/-- Trivia in front of a lexeme is skipped as a whole. -/
theorem IsTrivia.split_eq (htrivia : IsTrivia front) (hspace : ∀ c ∈ text.head?, isSpace c = false)
    (hopen : ¬ ['/', '*'] <+: text) : split isSpace 0 (front ++ text) = (front, text) := by
  rw [split_mixture (by decide) htrivia.mixture, split_of_head hspace hopen, List.append_nil]

/-- Skipping blanks does not run over the lexeme either. -/
theorem IsTrivia.split_isBlank_ne_nil (htrivia : IsTrivia front)
    (hspace : ∀ c ∈ text.head?, isSpace c = false) (hopen : ¬ ['/', '*'] <+: text)
    (hne : text ≠ []) : (split isBlank 0 (front ++ text)).2 ≠ [] := by
  induction htrivia with
  | nil =>
      have hblank : ∀ c ∈ text.head?, isBlank c = false := fun c hc =>
        (Bool.or_eq_false_iff.mp (hspace c hc)).2
      rw [List.nil_append, split_of_head hblank hopen]
      exact hne
  | @space c front hmember _ ih =>
      have hslash : c ≠ '/' := by
        rintro rfl
        exact absurd hmember (by decide)
      rw [List.cons_append, split_outside isBlank (not_open_of_ne_slash hslash)]
      split
      · exact ih
      · exact nofun
  | @comment tail front htail _ ih =>
      have hsplit := split_commentTail isBlank htail 0 (front ++ text)
      rw [List.cons_append, List.cons_append, List.append_assoc, split_open, hsplit]
      exact ih

/-- What is skipped although it holds no more than blanks of its own line is a
mixture of blanks. -/
theorem IsTrivia.mixture_isBlank (htrivia : IsTrivia front)
    (hsplit : split isBlank 0 (front ++ rest) = (front, rest)) : Mixture isBlank front := by
  induction htrivia with
  | nil => exact .nil
  | @space c text hspace _ ih =>
      have hopen : ¬ ['/', '*'] <+: c :: (text ++ rest) := by
        refine not_open_of_ne_slash fun hc => ?_
        rw [hc] at hspace
        exact absurd hspace (by decide)
      rw [List.cons_append, split_outside isBlank hopen] at hsplit
      split at hsplit
      · next hblank =>
          obtain ⟨hfront, hrest⟩ := Prod.mk.inj hsplit
          exact .member hblank (ih (Prod.ext (List.cons.inj hfront).2 hrest))
      · cases hsplit
  | @comment tail text htail _ ih =>
      have hall := split_commentTail isBlank htail 0 (text ++ rest)
      rw [List.cons_append, List.cons_append, List.append_assoc, split_open, hall] at hsplit
      simp only [Prod.map_apply, id_eq, Prod.mk.injEq, List.cons.injEq, true_and,
        List.append_cancel_left_eq] at hsplit
      exact .comment htail (ih (Prod.ext hsplit.1 hsplit.2))

/-! ## The first line break -/

theorem split_isBlank_newline (back : List Char) :
    split isBlank 0 ('\n' :: back) = ([], '\n' :: back) :=
  split_of_head (by rintro c ⟨⟩; decide) (not_open_of_ne_slash (by decide))

/-- Skipping blanks comes to the first line break, whatever stands behind it. -/
theorem BreaksAt.split (h : BreaksAt text front back) (rest : List Char) :
    split isBlank 0 (text ++ rest) = (front, '\n' :: (back ++ rest)) := by
  rw [h.eq, List.append_assoc, split_mixture (by decide) h.inline, List.cons_append,
    split_isBlank_newline, List.append_nil]

theorem BreaksAt.unique {front' back' : List Char} (h : BreaksAt text front back)
    (h' : BreaksAt text front' back') : front = front' ∧ back = back' := by
  have hsplit := (h.split []).symm.trans (h'.split [])
  simpa using hsplit

end ScalaLexer.Trivia

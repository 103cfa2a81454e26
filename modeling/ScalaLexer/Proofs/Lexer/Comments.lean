import ScalaLexer.Proofs.Lexer.Pieces
import ScalaLexer.Proofs.Scan.Answers

/-!
# Comments are transparent

Draining a text without its comments returns the same tokens, up to the comments
themselves and to the form of the separators.

* `uncomment` takes the comments out of a text: the text of a comment token is dropped
  and a block comment leaves a space.  It works on the pieces of the text, so it is told
  by the tokens where the comments are.
* `Segment.uncommented` does the same to a layout.  A comment token goes with its
  segment, and the gap in front of it is put in front of the next one.
* The new text goes on as the old one does up to the first comment, and there it goes on
  with space (`agrees_uncommented`).  Hence no lexeme changes: what was laid out stays
  laid out (`Laid.uncommented`).
* A line comment ends in front of a line feed or at the end of the text.  So a gap that is
  made longer had a line break before (`Stands.head?_behind_comment`), and the separators
  are the same: a comment does not begin a statement and is not remembered.
-/

namespace ScalaLexer

open Trivia

/-! ## Block comments become space -/

/-- Puts a space in the place of every block comment of a text in which `depth` of them
are open. -/
def Trivia.blankOut : Nat → List Char → List Char
  | 0, '/' :: '*' :: text => ' ' :: blankOut 1 text
  | depth + 1, '/' :: '*' :: text => blankOut (depth + 2) text
  | depth + 1, '*' :: '/' :: text => blankOut depth text
  | depth + 1, _ :: text => blankOut (depth + 1) text
  | 0, c :: text => c :: blankOut 0 text
  | _, [] => []

namespace Trivia

variable {text front gap rest rest' : List Char}

theorem blankOut_cons {c : Char} (hopen : ¬ ['/', '*'] <+: c :: text) :
    blankOut 0 (c :: text) = c :: blankOut 0 text := by
  rw [blankOut]
  rintro rest rfl rfl
  exact hopen ⟨rest, rfl⟩

theorem blankOut_open (text : List Char) :
    blankOut 0 ('/' :: '*' :: text) = ' ' :: blankOut 1 text :=
  rfl

theorem blankOut_nested (depth : Nat) (text : List Char) :
    blankOut (depth + 1) ('/' :: '*' :: text) = blankOut (depth + 2) text :=
  rfl

/-- Inside a comment every character goes that neither opens nor closes one. -/
theorem blankOut_char {c : Char} (hopen : ¬ ['/', '*'] <+: c :: text)
    (hclose : ¬ ['*', '/'] <+: c :: text) (depth : Nat) :
    blankOut (depth + 1) (c :: text) = blankOut (depth + 1) text := by
  rw [blankOut]
  · rintro rest rfl rfl
    exact hopen ⟨rest, rfl⟩
  · rintro rest rfl rfl
    exact hclose ⟨rest, rfl⟩

theorem blankOut_cons_of_ne_slash {c : Char} (hc : c ≠ '/') (text : List Char) :
    blankOut 0 (c :: text) = c :: blankOut 0 text :=
  blankOut_cons (not_open_of_ne_slash hc)

/-- Text without slashes is left as it is. -/
theorem blankOut_append_of_ne_slash (hfront : ∀ c ∈ front, c ≠ '/') (text : List Char) :
    blankOut 0 (front ++ text) = front ++ blankOut 0 text := by
  induction front with
  | nil => rfl
  | cons c front ih =>
      rw [List.cons_append, blankOut_cons_of_ne_slash (hfront c List.mem_cons_self),
        ih fun c hc => hfront c (List.mem_cons_of_mem _ hc)]
      rfl

theorem blankOut_commentTail {tail : List Char} (htail : CommentTail tail) (depth : Nat)
    (rest : List Char) : blankOut (depth + 1) (tail ++ rest) = blankOut depth rest := by
  induction htail generalizing depth rest with
  | close => cases depth <;> rfl
  | @nested inner tail _ _ ihinner ihtail =>
      rw [List.cons_append, List.cons_append, List.append_assoc, blankOut_nested, ihinner, ihtail]
  | @char c tail hopen hclose htail ih =>
      rw [List.cons_append, blankOut_char (htail.not_delimiter_append hopen rest)
        (htail.not_delimiter_append hclose rest), ih]

/-- A gap is blanked out on its own. -/
theorem Mixture.blankOut_append {isMember : Char → Bool} (hslash : isMember '/' = false)
    (hmixture : Mixture isMember front) (rest : List Char) :
    blankOut 0 (front ++ rest) = blankOut 0 front ++ blankOut 0 rest := by
  induction hmixture with
  | nil => rfl
  | @member c text hmember _ ih =>
      have hc : c ≠ '/' := by
        rintro rfl
        rw [hslash] at hmember
        cases hmember
      rw [List.cons_append, blankOut_cons_of_ne_slash hc, blankOut_cons_of_ne_slash hc, ih]
      rfl
  | @comment tail text htail _ ih =>
      have hrest : blankOut 0 ('/' :: '*' :: (tail ++ text)) = ' ' :: blankOut 0 text := by
        rw [blankOut_open, blankOut_commentTail htail]
      have hall : blankOut 0 ('/' :: '*' :: (tail ++ text) ++ rest) =
          ' ' :: blankOut 0 (text ++ rest) := by
        rw [List.cons_append, List.cons_append, List.append_assoc, blankOut_open,
          blankOut_commentTail htail]
      rw [hall, hrest, ih]
      rfl

/-- Nothing but space is left of what is skipped. -/
theorem blankOut_split_isSpace (depth : Nat) (text : List Char) :
    ∀ c ∈ blankOut depth (split isSpace depth text).1, isSpace c = true := by
  fun_induction split isSpace depth text with
  | case1 depth text ih =>
      cases depth with
      | zero =>
          rintro c (_ | ⟨_, hc⟩)
          · decide
          · exact ih c hc
      | succ depth => exact ih
  | case2 depth text ih => exact ih
  | case3 depth c text hopen hclose ih =>
      -- no delimiter comes about where the text is cut off
      have hstays {first second : Char}
          (hnot : ∀ text', c = first → text = second :: text' → False) :
          ¬ [first, second] <+: c :: (split isSpace (depth + 1) text).1 := by
        rintro ⟨more, hfront⟩
        obtain ⟨hc, hmore⟩ := List.cons.inj hfront
        have htext : text = second :: (more ++ (split isSpace (depth + 1) text).2) := calc
          text = (split isSpace (depth + 1) text).1 ++ (split isSpace (depth + 1) text).2 :=
            (split_append isSpace (depth + 1) text).symm
          _ = second :: (more ++ (split isSpace (depth + 1) text).2) := by rw [← hmore]; rfl
        exact hnot _ hc.symm htext
      change ∀ x ∈ blankOut (depth + 1) (c :: (split isSpace (depth + 1) text).1), isSpace x = true
      rw [blankOut_char (hstays hopen) (hstays hclose)]
      exact ih
  | case4 c text _ hspace ih =>
      change ∀ x ∈ blankOut 0 (c :: (split isSpace 0 text).1), isSpace x = true
      rw [blankOut_cons_of_ne_slash (ne_slash_of_isSpace hspace)]
      exact List.forall_mem_cons.mpr ⟨hspace, ih⟩
  | case5 => exact List.forall_mem_nil _
  | case6 depth => cases depth <;> exact List.forall_mem_nil _

theorem IsTrailing.blankOut_isSpace (h : IsTrailing gap) :
    ∀ c ∈ blankOut 0 gap, isSpace c = true := by
  have hspace := blankOut_split_isSpace 0 gap
  rwa [h.split_eq] at hspace

/-- Space is trivia. -/
theorem isTrivia_of_isSpace (h : ∀ c ∈ gap, isSpace c = true) : IsTrivia gap := by
  induction gap with
  | nil => exact .nil
  | cons c gap ih =>
      obtain ⟨hc, hgap⟩ := List.forall_mem_cons.mp h
      exact .space hc (ih hgap)

/-- A line break of a gap is still there when the comments are gone. -/
theorem IsTrivia.lineBreak?_isSome (h : IsTrivia gap) :
    (lineBreak? gap).isSome = true ↔ '\n' ∈ blankOut 0 gap := by
  have hsome (text : List Char) : (lineBreak? text).isSome = true ↔
      (split isBlank 0 text).2.head? = some '\n' := by
    rw [lineBreak?]
    split <;> simp_all
  rw [hsome]
  induction h with
  | nil => exact iff_of_false (Option.some_ne_none '\n').symm List.not_mem_nil
  | @space c text hspace _ ih =>
      have hc := ne_slash_of_isSpace hspace
      rw [split_outside isBlank (not_open_of_ne_slash hc), blankOut_cons_of_ne_slash hc,
        List.mem_cons]
      cases hblank : isBlank c with
      | true =>
          have hnewline : '\n' ≠ c := by
            rintro rfl
            exact absurd hblank (by decide)
          rw [if_pos rfl, or_iff_right hnewline]
          exact ih
      | false =>
          have hnewline : c = '\n' := by simpa [isSpace, hblank] using hspace
          rw [if_neg Bool.false_ne_true, hnewline]
          exact iff_of_true rfl (.inl rfl)
  | @comment tail text htail _ ih =>
      rw [split_open, split_commentTail isBlank htail, blankOut_open, blankOut_commentTail htail]
      simpa using ih

/-- The text goes on alike when its gaps are blanked out. -/
theorem IsTrivia.agrees_blankOut (h : IsTrivia gap) (hagrees : Agrees rest rest') :
    Agrees (gap ++ rest) (blankOut 0 gap ++ rest') := by
  induction h with
  | nil => exact hagrees
  | space hspace _ ih =>
      rw [blankOut_cons_of_ne_slash (ne_slash_of_isSpace hspace)]
      exact .cons _ ih
  | comment => exact .apart (by rintro c ⟨⟩; decide) fun _ => rfl

theorem IsTrailing.agrees_blankOut (h : IsTrailing gap) : Agrees gap (blankOut 0 gap) := by
  obtain ⟨front, back, rfl, hfront, hback⟩ := h
  rw [hfront.mixture.blankOut_append (by decide)]
  refine hfront.agrees_blankOut ?_
  rcases hback with rfl | ⟨⟨more, rfl⟩, _⟩
  · exact .refl []
  · exact .apart (by rintro c ⟨⟩; decide) fun _ => rfl

end Trivia

/-! ## Line comments -/

namespace Lexeme

variable {regions : List Bracket} {cursor after : Cursor} {found : Lexeme × List Bracket}

/-- The scan finds no comment. -/
def NoComment : Scan Lexeme → Prop :=
  Scan.Answers fun lexeme => lexeme.kind ≠ .comment

def NoCommentPaired : Scan (Lexeme × List Bracket) → Prop :=
  Scan.Answers fun found => found.1.kind ≠ .comment

theorem emit_noComment {kind : TokenKind} {resume : Mode} (hkind : kind ≠ .comment) :
    NoComment (emit kind resume) :=
  emit_answers fun _ _ _ => hkind

theorem emitError_noComment (cause : Cause) : NoComment (emitError cause) :=
  emitError_answers fun _ _ => nofun

theorem ofWord_ne_comment (word : String) : TokenKind.ofWord word ≠ .comment := by
  unfold TokenKind.ofWord
  split
  · exact nofun
  · split <;> exact nofun

variable [Unicode.Repertoire]

theorem singleQuoted_noComment : NoComment singleQuoted :=
  .bind fun _ => .ite
    (.bind fun _ => character_answers (emit_noComment nofun) fun _ => emitError_noComment _)
    (.bind fun _ => symbol_answers (emit_noComment nofun) fun _ => emitError_noComment _)

theorem operator_noComment (c : Char) : NoComment (operator c) := by
  refine .bind fun cursor => ?_
  cases reservedOperator? cursor.ahead with
  | some entry => exact .bind fun _ => emit_noComment nofun
  | none => exact .ite (.bind fun _ => emit_noComment nofun) (emitError_noComment _)

omit [Unicode.Repertoire] in
theorem keeping_noComment {routine : Scan Lexeme} (hroutine : NoComment routine) :
    NoCommentPaired (keeping regions routine) :=
  keeping_answers regions hroutine

omit [Unicode.Repertoire] in
theorem bracket_noComment (regions : List Bracket) (c : Char) :
    NoCommentPaired (bracket regions c) := by
  refine .bind fun _ => ?_
  split
  · exact keeping_noComment (emit_noComment nofun)
  · split
    · exact keeping_noComment (emitError_noComment _)
    · exact .ite (keeping_noComment (emit_noComment nofun))
        (keeping_noComment (emitError_noComment _))
  · exact keeping_noComment (emitError_noComment _)

theorem beginningWith_noComment (regions : List Bracket) (c : Char) :
    NoCommentPaired (beginningWith regions c) :=
  have herror (cause : Cause) := emitError_noComment cause
  .ite (keeping_noComment singleQuoted_noComment) <|
  .ite (keeping_noComment (word_answers (fun text => emit_noComment (ofWord_ne_comment text))
    fun _ => herror _)) <|
  .ite (keeping_noComment (.bind fun wellFormed =>
    ofNumber_answers wellFormed (emit_noComment nofun) fun _ => herror _)) <|
  .ite (keeping_noComment (.bind fun _ => string_answers (emit_noComment nofun) (herror _))) <|
  .ite (bracket_noComment regions c) <|
  .ite (keeping_noComment (.bind fun _ => emit_noComment nofun)) <|
  .ite (keeping_noComment (dot_answers (emit_noComment nofun) (emit_noComment nofun)
    fun _ => herror _)) <|
  .ite (keeping_noComment (.bind fun _ =>
    quotedIdentifier_answers (emit_noComment nofun) (herror _))) <|
  keeping_noComment (operator_noComment c)

/-- A comment is found at two slashes only. -/
theorem slashes_of_comment (h : scan regions cursor = .ok found after)
    (hkind : found.1.kind = .comment) : ['/', '/'] <+: cursor.ahead := by
  obtain ⟨slashes, between, hstarts, hrest⟩ := Scan.bind_eq_ok.mp h
  obtain ⟨rfl, hslashes⟩ := Scan.startsWith_eq_ok hstarts
  cases slashes with
  | true => exact hslashes.mp rfl
  | false =>
      -- nothing else that is tried finds a comment
      rw [if_neg Bool.false_ne_true] at hrest
      obtain ⟨quotes, _, _, hrest⟩ := Scan.bind_eq_ok.mp hrest
      cases quotes with
      | true =>
          rw [if_pos rfl] at hrest
          have hstring : NoComment (do Scan.readExactly 3; Scan.release; multiLineString) :=
            .bind fun _ => .bind fun _ =>
              multiLineString_answers (emit_noComment nofun) (emitError_noComment _)
          exact absurd hkind (keeping_noComment hstring hrest)
      | false =>
          rw [if_neg Bool.false_ne_true] at hrest
          obtain ⟨c?, _, _, hrest⟩ := Scan.bind_eq_ok.mp hrest
          cases c? with
          | some c => exact absurd hkind (beginningWith_noComment regions c hrest)
          | none => exact absurd hkind (keeping_noComment (emit_noComment (by decide)) hrest)

/-- A comment ends in front of a line feed or at the end of the text. -/
theorem StandsAt.of_comment {lexeme : Lexeme} {run rest : List Char}
    (h : lexeme.StandsAt regions run rest) (hkind : lexeme.kind = .comment) :
    ['/', '/'] <+: run ++ rest ∧ ∀ c ∈ rest.head?, c = '\n' := by
  obtain ⟨after, hscan, hdrops⟩ := h (Cursor.front (run ++ rest)) (Cursor.front_idle _) rfl rfl
  have hslashes := slashes_of_comment hscan hkind
  refine ⟨hslashes, fun c hc => ?_⟩
  rw [scan_of_slashes regions hslashes] at hscan
  have hrun : run = (run ++ rest).takeWhile (· ≠ '\n') :=
    lineComment_run hdrops.ahead (keeping_eq_ok hscan).1
  have hrest : rest = (run ++ rest).dropWhile (· ≠ '\n') := by
    have hall : run ++ rest = run ++ (run ++ rest).dropWhile (· ≠ '\n') := by
      nth_rewrite 2 [hrun]
      rw [List.takeWhile_append_dropWhile]
    exact List.append_cancel_left hall
  rw [hrest] at hc
  simpa using head?_dropWhile_eq_false _ _ c hc

end Lexeme

/-! ## A layout without its comments -/

namespace Segment

/-- The segments without the comments among them, and the trivia behind them.  The gaps
in front of the comments left out right before are in `pad`. -/
def uncommented (trailing : List Char) : List Char → List Segment → List Segment × List Char
  | pad, [] => ([], pad ++ blankOut 0 trailing)
  | pad, segment :: segments =>
    let gap := pad ++ blankOut 0 segment.gap
    if segment.lexeme.kind = .comment then uncommented trailing gap segments
    else
      let rest := uncommented trailing [] segments
      ({ segment with gap } :: rest.1, rest.2)

/-- The text of the segments and of the trivia behind them without comments. -/
def uncommentedText (trailing : List Char) : List Segment → List Char
  | [] => blankOut 0 trailing
  | segment :: segments =>
    blankOut 0 segment.gap ++
      ((if segment.lexeme.kind = .comment then [] else segment.run ++ segment.closing) ++
        uncommentedText trailing segments)

theorem textOf_uncommented (trailing pad : List Char) (segments : List Segment) :
    textOf (uncommented trailing pad segments).1 (uncommented trailing pad segments).2 =
      pad ++ uncommentedText trailing segments := by
  induction segments generalizing pad with
  | nil => rfl
  | cons segment segments ih =>
      rw [uncommented, uncommentedText]
      split
      · rw [ih, List.nil_append, List.append_assoc]
      · rw [textOf_cons, ih, text]
        simp only [List.append_assoc, List.nil_append]

namespace Stands

variable {segment : Segment} {regions : List Bracket} {rest : List Char}

/-- What stands around a comment. -/
theorem of_comment [Unicode.Repertoire] (h : segment.Stands regions rest)
    (hkind : segment.lexeme.kind = .comment) :
    segment.opening = [] ∧ segment.closing = [] ∧ segment.behind regions = regions ∧
      (∃ more, segment.run ++ rest = '/' :: more) ∧ ∀ c ∈ rest.head?, c = '\n' := by
  obtain ⟨hopening, hclosing⟩ := h.delimiters_of_comment hkind
  obtain ⟨⟨more, hmore⟩, hbreak⟩ := h.lexeme.of_comment hkind
  rw [hclosing, List.nil_append] at hmore hbreak
  refine ⟨hopening, hclosing, ?_, ⟨'/' :: more, hmore.symm⟩, hbreak⟩
  rw [behind, hkind]
  rfl

/-- A gap in front of a segment that begins with a line feed. -/
theorem lineBreak?_of_head [Unicode.Repertoire] (h : segment.Stands regions rest)
    (hbreak : ∀ c ∈ (segment.text ++ rest).head?, c = '\n') :
    (lineBreak? segment.gap).isSome = true := by
  obtain ⟨first, run, hrun⟩ := List.exists_cons_of_ne_nil h.nonempty
  cases hgap : segment.gap with
  | nil =>
      have hfirst := h.space first (by rw [hrun]; rfl)
      obtain rfl : first = '\n' := hbreak first (by rw [text, hgap, hrun]; rfl)
      exact absurd hfirst (by decide)
  | cons c gap =>
      obtain rfl : c = '\n' := hbreak c (by rw [text, hgap]; rfl)
      rw [lineBreak?, split_isBlank_newline]
      rfl

end Stands

end Segment

namespace Laid

open Segment

variable {regions : List Bracket} {segments : List Segment} {trailing pad : List Char}

/-- Without its comments the text goes on alike, up to the first of them. -/
theorem agrees_uncommented [Unicode.Repertoire] (h : Laid regions segments trailing) :
    Agrees (textOf segments trailing) (uncommentedText trailing segments) := by
  induction h with
  | nil htrailing => exact htrailing.agrees_blankOut
  | @cons regions segment segments trailing hstands _ ih =>
      rw [textOf_cons, text, uncommentedText, List.append_assoc, List.append_assoc]
      refine hstands.trivia.agrees_blankOut ?_
      split
      · next hkind =>
          obtain ⟨_, hclosing, _, ⟨more, hmore⟩, hbreak⟩ := hstands.of_comment hkind
          rw [hclosing, List.nil_append, List.nil_append, hmore]
          refine .apart (fun c hc => ?_) fun _ => rfl
          rcases ih.head?_eq_or with hsame | hspace
          · rw [hbreak c (hsame ▸ hc)]
            decide
          · exact hspace c hc
      · rw [List.append_assoc]
        exact (ih.append_left _).append_left _

theorem uncommented [Unicode.Repertoire] (h : Laid regions segments trailing)
    (hpad : ∀ c ∈ pad, isSpace c = true) :
    Laid regions (uncommented trailing pad segments).1 (uncommented trailing pad segments).2 := by
  induction h generalizing pad with
  | nil htrailing =>
      have hspace := List.forall_mem_append.mpr ⟨hpad, htrailing.blankOut_isSpace⟩
      exact .nil (isTrivia_of_isSpace hspace).isTrailing
  | @cons regions segment segments trailing hstands hlaid ih =>
      have hgap := List.forall_mem_append.mpr
        ⟨hpad, hstands.trivia.isTrailing.blankOut_isSpace⟩
      rw [Segment.uncommented]
      split
      · next hkind => exact (hstands.of_comment hkind).2.2.1 ▸ ih hgap
      · next hkind =>
          refine .cons (hstands.of_agrees (isTrivia_of_isSpace hgap) ?_
            (fun hcomment => absurd hcomment hkind) fun _ _ hnil => ?_) (ih nofun)
          · rw [textOf_uncommented]
            exact hlaid.agrees_uncommented
          · rw [textOf_uncommented]
            obtain ⟨rfl, rfl⟩ := hlaid.of_textOf_eq_nil hnil
            rfl

end Laid

/-! ## The tokens without the comments -/

/-- A token as far as comments leave it alone: the two kinds of separators are one, and
the text of a separator does not count. -/
def Token.essence (token : Token) : TokenKind × String :=
  if token.kind.isSeparator then (.newline, "") else (token.kind, token.value)

theorem Token.essence_of_isSeparator {token : Token} (h : token.kind.isSeparator = true) :
    token.essence = (.newline, "") :=
  if_pos h

namespace Segment

variable {segment : Segment} {regions : List Bracket} {last : Option TokenKind} {file : String}
  {offset : Nat}

theorem separator?_isSome (segment : Segment) (file : String) (offset : Nat)
    (last : Option TokenKind) (regions : List Bracket) :
    (segment.separator? file offset last regions).isSome =
      ((lineBreak? segment.gap).isSome && segment.wantsSeparator last regions) := by
  unfold separator?
  cases lineBreak? segment.gap with
  | none => rfl
  | some parts => cases segment.wantsSeparator last regions <;> rfl

/-- The separators of two segments come to the same if one is wanted in front of both or
of neither. -/
theorem separator?_essence {other : Segment} {offset' : Nat}
    (hsome : (segment.separator? file offset last regions).isSome =
      (other.separator? file offset' last regions).isSome) :
    (segment.separator? file offset last regions).toList.map Token.essence =
      (other.separator? file offset' last regions).toList.map Token.essence := by
  cases hfirst : segment.separator? file offset last regions with
  | none =>
      rw [hfirst] at hsome
      have hsecond : other.separator? file offset' last regions = none :=
        Option.not_isSome_iff_eq_none.mp (by rw [← hsome]; exact nofun)
      rw [hsecond]
  | some separator =>
      rw [hfirst] at hsome
      obtain ⟨second, hsecond⟩ := Option.isSome_iff_exists.mp hsome.symm
      rw [hsecond]
      simp only [Option.toList_some, List.map_cons, List.map_nil,
        Token.essence_of_isSeparator (separator?_isSeparator hfirst),
        Token.essence_of_isSeparator (separator?_isSeparator hsecond)]

/-- No separator is a comment. -/
theorem filter_separator? (segment : Segment) (file : String) (offset : Nat)
    (last : Option TokenKind) (regions : List Bracket) :
    (segment.separator? file offset last regions).toList.filter
        (fun token => token.kind ≠ .comment) =
      (segment.separator? file offset last regions).toList := by
  refine List.filter_eq_self.mpr fun separator hseparator => decide_eq_true fun hkind => ?_
  have hisSeparator := separator?_isSeparator (Option.mem_toList.mp hseparator)
  rw [hkind] at hisSeparator
  cases hisSeparator

/-- A line break stays where the comments of a gap become space. -/
theorem separator?_isSome_of_blankOut (hgap : IsTrivia segment.gap) {pad : List Char}
    (hpad : ∀ c ∈ pad, isSpace c = true)
    (hline : pad = [] ∨ (lineBreak? segment.gap).isSome = true) (file : String)
    (offset offset' : Nat) (last : Option TokenKind) (regions : List Bracket) :
    ({ segment with gap := pad ++ blankOut 0 segment.gap }.separator? file offset' last
        regions).isSome =
      (segment.separator? file offset last regions).isSome := by
  have hspace := List.forall_mem_append.mpr ⟨hpad, hgap.isTrailing.blankOut_isSpace⟩
  have hbreak : (lineBreak? (pad ++ blankOut 0 segment.gap)).isSome =
      (lineBreak? segment.gap).isSome := by
    have hnew : blankOut 0 (pad ++ blankOut 0 segment.gap) = pad ++ blankOut 0 segment.gap := by
      have hall := blankOut_append_of_ne_slash (fun c hc => ne_slash_of_isSpace (hspace c hc)) []
      rwa [List.append_nil, show blankOut 0 [] = [] from rfl, List.append_nil] at hall
    rw [Bool.eq_iff_iff, (isTrivia_of_isSpace hspace).lineBreak?_isSome, hnew,
      hgap.lineBreak?_isSome, List.mem_append, or_iff_right_iff_imp]
    intro hmem
    rcases hline with rfl | hsome
    · cases hmem
    · exact hgap.lineBreak?_isSome.mp hsome
  rw [separator?_isSome, separator?_isSome, hbreak]
  rfl

end Segment

variable [Unicode.Repertoire]

/-- The tokens of the layout without comments are the tokens that are no comments. -/
theorem Laid.weave_uncommented {regions : List Bracket} {segments : List Segment}
    {trailing pad : List Char} (hlaid : Laid regions segments trailing)
    (hpad : ∀ c ∈ pad, isSpace c = true)
    (hline : pad = [] ∨ ∀ segment ∈ segments.head?, (lineBreak? segment.gap).isSome = true)
    (file : String) (offset offset' : Nat) (last : Option TokenKind) :
    (Segment.weave file offset' last regions
        (Segment.uncommented trailing pad segments).1).map Token.essence =
      ((Segment.weave file offset last regions segments).filter
        (fun token => token.kind ≠ .comment)).map Token.essence := by
  induction hlaid generalizing pad offset offset' last with
  | nil => rfl
  | @cons regions segment segments trailing hstands hlaid ih =>
      have hgap := hstands.trivia.isTrailing.blankOut_isSpace
      rw [Segment.uncommented, Segment.weave, List.filter_append, List.filter_cons,
        Segment.filter_separator?]
      by_cases hkind : segment.lexeme.kind = .comment
      · obtain ⟨_, _, hbehind, _, hbreak⟩ := hstands.of_comment hkind
        have hremember : Lexer.remember segment.lexeme.kind last = last := by rw [hkind]; rfl
        rw [if_pos hkind, Segment.separator?_eq_none (by rw [hkind]; rfl), hremember, hbehind,
          if_neg (by simp [hkind])]
        rw [hbehind] at ih hlaid
        refine ih (List.forall_mem_append.mpr ⟨hpad, hgap⟩) (.inr ?_) _ _ _
        intro next hnext
        cases hlaid with
        | nil => cases hnext
        | cons hstands =>
            cases hnext
            exact hstands.lineBreak?_of_head hbreak
      · have htoken : (segment.token file offset).kind ≠ .comment := hkind
        have hseparator := Segment.separator?_essence
          (Segment.separator?_isSome_of_blankOut hstands.trivia hpad
            (hline.imp id fun h => h segment rfl) file offset offset' last regions)
        rw [if_neg hkind, Segment.weave, if_pos (decide_eq_true htoken), List.map_append,
          List.map_append, hseparator, List.map_cons, List.map_cons]
        refine congrArg _ (congrArg₂ _ rfl ?_)
        exact ih (List.forall_mem_nil _) (.inl rfl) _ _ _

/-- Comments leave the regions alone. -/
theorem Laid.regionsBehind_uncommented {regions : List Bracket} {segments : List Segment}
    {trailing pad : List Char} (hlaid : Laid regions segments trailing) :
    Segment.regionsBehind regions (Segment.uncommented trailing pad segments).1 =
      Segment.regionsBehind regions segments := by
  induction hlaid generalizing pad with
  | nil => rfl
  | @cons regions segment segments trailing hstands _ ih =>
      rw [Segment.uncommented, Segment.regionsBehind_cons]
      split
      · next hkind =>
          rw [(hstands.of_comment hkind).2.2.1] at ih ⊢
          exact ih
      · exact ih

/-! ## A text without its comments -/

/-- A piece without its comments. -/
def Piece.uncommented (piece : Piece) : List Char :=
  blankOut 0 piece.front ++ if piece.token.kind = .comment then [] else piece.body

/-- The text of these pieces and of what stands behind them, without comments. -/
def uncommentedCut (cut : List Piece × List Char) : List Char :=
  cut.1.flatMap Piece.uncommented ++ blankOut 0 cut.2

/-- A text without its comments.  The tokens are those of the text. -/
def uncomment (text : List Char) (tokens : List Token) : List Char :=
  uncommentedCut (pieces 0 text tokens)

omit [Unicode.Repertoire] in
theorem uncommentedCut_cons (piece : Piece) (pieces : List Piece) (behind : List Char) :
    uncommentedCut (piece :: pieces, behind) =
      piece.uncommented ++ uncommentedCut (pieces, behind) := by
  simp only [uncommentedCut, List.flatMap_cons, List.append_assoc]

/-- What the pieces of a segment come to, with or without a separator in its gap. -/
theorem uncommentedCut_of_segment {segment : Segment} {regions : List Bracket}
    {rest closing : List Char} (h : segment.Stands regions rest)
    (hclosing : ∀ c ∈ closing, c ≠ '/') (file : String) (offset : Nat) (last : Option TokenKind)
    (tokens : List Token) :
    let base := offset + Utf8.byteLength closing
    uncommentedCut (pieces offset (closing ++ (segment.text ++ rest))
        ((segment.separator? file base last regions).toList ++ segment.token file base :: tokens)) =
      closing ++ (blankOut 0 segment.gap ++
        ((if segment.lexeme.kind = .comment then [] else segment.run) ++
          uncommentedCut (pieces (base + Utf8.byteLength (segment.gap ++ segment.run))
            (segment.closing ++ rest) tokens))) := by
  intro base
  obtain ⟨opening, _, hopening, hrun, _⟩ := h.exists_delimiters file base
  have hgap : blankOut 0 (segment.gap ++ segment.opening) =
      blankOut 0 segment.gap ++ segment.opening := by
    have hquotes := blankOut_append_of_ne_slash
      (hopening ▸ Delimiter.ne_slash_of_mem_text : ∀ c ∈ segment.opening, c ≠ '/') []
    rw [List.append_nil] at hquotes
    rw [h.trivia.mixture.blankOut_append (by decide), hquotes]
    exact congrArg _ (List.append_nil _)
  have hown : (if segment.lexeme.kind = .comment then [] else segment.run) =
      segment.opening ++ if segment.lexeme.kind = .comment then [] else segment.body := by
    split
    · next hkind => rw [(h.of_comment hkind).1]; rfl
    · exact hrun
  rcases pieces_of_segment h file offset closing last tokens with
    ⟨_, hcut⟩ | ⟨separator, front, run, pad, _, hkind, hsplit, hfront, hspace, hcut⟩
  · rw [hcut, uncommentedCut_cons, Piece.uncommented, List.append_assoc closing,
      blankOut_append_of_ne_slash hclosing, hgap, hown]
    simp only [List.append_assoc]
    rfl
  · have hnotComment : separator.kind ≠ .comment := by
      intro hcomment
      rw [hcomment] at hkind
      cases hkind
    have hsplit : blankOut 0 (segment.gap ++ segment.opening) =
        blankOut 0 front ++ (run ++ blankOut 0 (pad ++ segment.opening)) := by
      rw [hsplit, List.append_assoc, List.append_assoc, hfront.blankOut_append (by decide),
        blankOut_append_of_ne_slash fun c hc => ne_slash_of_isSpace (hspace c hc)]
    rw [hcut, uncommentedCut_cons, uncommentedCut_cons, Piece.uncommented, Piece.uncommented,
      blankOut_append_of_ne_slash hclosing, if_neg hnotComment, hown]
    rw [← List.append_assoc (blankOut 0 segment.gap), ← List.append_assoc (blankOut 0 segment.gap),
      ← hgap, hsplit]
    simp only [List.append_assoc]
    rfl

/-- Taking the comments out of a text is taking them out of its layout. -/
theorem Laid.uncommentedCut_pieces {regions : List Bracket} {segments : List Segment}
    {trailing closing : List Char} (hlaid : Laid regions segments trailing)
    (hclosing : ∀ c ∈ closing, c ≠ '/') (file : String) (offset : Nat) (last : Option TokenKind) :
    uncommentedCut (pieces offset (closing ++ Segment.textOf segments trailing)
        (Segment.weave file (offset + Utf8.byteLength closing) last regions segments)) =
      closing ++ Segment.uncommentedText trailing segments := by
  induction hlaid generalizing closing offset last with
  | nil => exact blankOut_append_of_ne_slash hclosing _
  | @cons regions segment segments trailing hstands hlaid ih =>
      obtain ⟨_, next, _, _, _, _, _, _, _, hcloses⟩ := hstands.exists_delimiters file 0
      rw [Segment.textOf_cons, Segment.weave_cons, uncommentedCut_of_segment hstands hclosing,
        ih hcloses.ne_slash, Segment.uncommentedText]
      split
      · next hkind =>
          rw [(hstands.of_comment hkind).2.1]
          rfl
      · rw [List.append_assoc]

namespace Lexer

/-- Comments are transparent: draining a text without its comments returns the tokens that
are no comments, and leaves as many regions open. -/
theorem drain_uncomment (text file : String) :
    let drained := (ofString text file).drain
    let another :=
      (ofString (String.ofList (uncomment text.toList drained.result.tokens)) file).drain
    another.result.tokens.map Token.essence =
        (drained.result.tokens.filter fun token => token.kind ≠ .comment).map Token.essence ∧
      another.lexer.regionDepth = drained.lexer.regionDepth := by
  intro drained another
  obtain ⟨segments, trailing, htext, hlaid⟩ := exists_laid [] text.toList
  obtain ⟨htokens, _, hregions⟩ := drain_ofString_of_laid hlaid htext file
  have hother : (String.ofList (uncomment text.toList drained.result.tokens)).toList =
      Segment.textOf (Segment.uncommented trailing [] segments).1
        (Segment.uncommented trailing [] segments).2 := by
    rw [String.toList_ofList, Segment.textOf_uncommented, htokens, htext]
    exact hlaid.uncommentedCut_pieces (List.forall_mem_nil _) file 0 none
  obtain ⟨htokens', _, hregions'⟩ :=
    drain_ofString_of_laid (hlaid.uncommented (List.forall_mem_nil _)) hother file
  constructor
  · change another.result.tokens = _ at htokens'
    rw [htokens', htokens]
    exact hlaid.weave_uncommented (List.forall_mem_nil _) (.inl rfl) file 0 0 none
  · change another.lexer.regions = _ at hregions'
    rw [regionDepth, regionDepth, hregions', hregions, hlaid.regionsBehind_uncommented]

end Lexer

end ScalaLexer

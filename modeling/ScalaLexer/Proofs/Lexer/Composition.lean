import ScalaLexer.Proofs.Lexer.Pieces
import ScalaLexer.Unicode.Release

/-!
# Lexing composes at a semicolon

The tokens of `a ++ " ; " ++ b` are those of `a`, a semicolon and those of `b`, moved to
where `b` stands.  Three things have to be known.

* **Forwards.**  No lexeme of `a` notices what is appended.  The text goes on with space,
  and by `Segment.Stands.of_agrees` this is enough but for the lexemes that the end of
  the text has ended.  `Closed` rules these out, and `Laid.append` puts two layouts
  together.
* **Nothing is left over.**  The regions of `a` are closed, so `b` is laid out as it is on
  its own.
* **The separators.**  A semicolon neither begins nor ends a statement.  So there is no
  separator in front of it, and behind it the rule of the language decides as it does at
  the beginning of a text (`weave_congr`).
-/

namespace ScalaLexer

open Trivia

/-! ## Open block comments -/

/-- The number of block comments that are open behind a text, if `depth` of them are open
in front of it. -/
def Trivia.openComments : Nat → List Char → Nat
  | depth, '/' :: '*' :: text => openComments (depth + 1) text
  | depth + 1, '*' :: '/' :: text => openComments depth text
  | depth, _ :: text => openComments depth text
  | depth, [] => depth

namespace Trivia

variable {front text : List Char}

theorem openComments_open (depth : Nat) (text : List Char) :
    openComments depth ('/' :: '*' :: text) = openComments (depth + 1) text :=
  rfl

theorem openComments_char {c : Char} (hopen : ¬ ['/', '*'] <+: c :: text)
    (hclose : ¬ ['*', '/'] <+: c :: text) (depth : Nat) :
    openComments depth (c :: text) = openComments depth text := by
  rw [openComments]
  · rintro rest rfl rfl
    exact hopen ⟨rest, rfl⟩
  · rintro _ rest _ rfl rfl
    exact hclose ⟨rest, rfl⟩

theorem openComments_cons_of_ne_slash {c : Char} (hc : c ≠ '/') (text : List Char) :
    openComments 0 (c :: text) = openComments 0 text := by
  rw [openComments]
  · rintro rest rfl
    exact absurd rfl hc
  · exact nofun

theorem openComments_append_of_ne_slash (hfront : ∀ c ∈ front, c ≠ '/') (text : List Char) :
    openComments 0 (front ++ text) = openComments 0 text := by
  induction front with
  | nil => rfl
  | cons c front ih =>
      obtain ⟨hc, hfront⟩ := List.forall_mem_cons.mp hfront
      rw [List.cons_append, openComments_cons_of_ne_slash hc, ih hfront]

theorem openComments_commentTail {tail : List Char} (htail : CommentTail tail) (depth : Nat)
    (rest : List Char) : openComments (depth + 1) (tail ++ rest) = openComments depth rest := by
  induction htail generalizing depth rest with
  | close => rfl
  | @nested inner tail _ _ ihinner ihtail =>
      rw [List.cons_append, List.cons_append, List.append_assoc, openComments_open, ihinner,
        ihtail]
  | @char c tail hopen hclose htail ih =>
      rw [List.cons_append, openComments_char (htail.not_delimiter_append hopen rest)
        (htail.not_delimiter_append hclose rest), ih]

theorem IsTrivia.openComments_append (hfront : IsTrivia front) (text : List Char) :
    openComments 0 (front ++ text) = openComments 0 text := by
  induction hfront with
  | nil => rfl
  | @space c front hspace _ ih =>
      rw [List.cons_append, openComments_cons_of_ne_slash (ne_slash_of_isSpace hspace), ih]
  | comment htail _ ih =>
      rw [List.cons_append, List.cons_append, List.append_assoc, openComments_open,
        openComments_commentTail htail, ih]

/-- A comment that is counted as closed ends somewhere. -/
theorem exists_commentTail (depth : Nat) (text : List Char)
    (hclosed : openComments (depth + 1) text ≤ depth) :
    ∃ tail rest, CommentTail tail ∧ text = tail ++ rest := by
  induction hlength : text.length using Nat.strongRecOn generalizing depth text with
  | _ length ih =>
      subst hlength
      by_cases hopen : ['/', '*'] <+: text
      · obtain ⟨behind, rfl⟩ := hopen
        have hbehind : openComments (depth + 2) behind ≤ depth := hclosed
        -- the comment inside has to end before this one can
        have hshorter : behind.length < (['/', '*'] ++ behind).length := by
          rw [List.length_append, List.length_cons]
          omega
        obtain ⟨inner, rest, hinner, rfl⟩ :=
          ih behind.length hshorter (depth + 1) behind (Nat.le_succ_of_le hbehind) rfl
        rw [openComments_commentTail hinner] at hbehind
        rw [List.length_append] at hshorter
        obtain ⟨tail, more, htail, rfl⟩ :=
          ih rest.length (by omega) depth rest hbehind rfl
        exact ⟨_, more, .nested hinner htail, by simp⟩
      · by_cases hclose : ['*', '/'] <+: text
        · obtain ⟨rest, rfl⟩ := hclose
          exact ⟨_, rest, .close, rfl⟩
        · cases text with
          | nil => exact absurd hclosed (Nat.not_succ_le_self depth)
          | cons c text =>
              rw [openComments_char hopen hclose] at hclosed
              obtain ⟨tail, rest, htail, rfl⟩ := ih text.length (by simp) depth text hclosed rfl
              have hprefix : c :: tail <+: c :: (tail ++ rest) := ⟨rest, rfl⟩
              exact ⟨c :: tail, rest, .char (fun h => hopen (h.trans hprefix))
                (fun h => hclose (h.trans hprefix)) htail, rfl⟩

/-- Trivia behind which no comment is open. -/
theorem IsTrailing.isTrivia (h : IsTrailing text) (hclosed : openComments 0 text = 0) :
    IsTrivia text := by
  obtain ⟨front, back, rfl, hfront, rfl | ⟨⟨more, rfl⟩, hunclosed⟩⟩ := h
  · rwa [List.append_nil]
  · rw [hfront.openComments_append] at hclosed
    obtain ⟨tail, rest, htail, rfl⟩ := exists_commentTail 0 more (Nat.le_of_eq hclosed)
    exact absurd ⟨rest, rfl⟩ (hunclosed tail htail)

end Trivia

/-! ## One layout behind another -/

namespace Segment

/-- The segment ends because the text does. -/
def RunsToEnd (segment : Segment) : Prop :=
  segment.lexeme.kind = .comment ∨ segment.lexeme.kind = .error ∧
    ∃ cause : Cause, cause.runsToEnd = true ∧ segment.lexeme.value = cause.message

theorem textOf_append_trailing (segments : List Segment) (trailing more : List Char) :
    textOf segments (trailing ++ more) = textOf segments trailing ++ more := by
  induction segments with
  | nil => rfl
  | cons segment segments ih => rw [textOf_cons, textOf_cons, ih, List.append_assoc]

/-- More trivia in front of the first segment, or behind the text if there is none. -/
def indent (pad trailing : List Char) : List Segment → List Segment × List Char
  | [] => ([], pad ++ trailing)
  | segment :: segments => ({ segment with gap := pad ++ segment.gap } :: segments, trailing)

theorem textOf_indent (pad trailing : List Char) (segments : List Segment) :
    textOf (indent pad trailing segments).1 (indent pad trailing segments).2 =
      pad ++ textOf segments trailing := by
  cases segments with
  | nil => rfl
  | cons segment segments => simp only [indent, textOf_cons, text, List.append_assoc]

end Segment

namespace Laid

open Segment

variable {regions : List Bracket} {segments more : List Segment}
  {trailing trailing' rest pad : List Char}

theorem indent [Unicode.Repertoire] (h : Laid regions segments trailing) (hpad : IsTrivia pad) :
    Laid regions (indent pad trailing segments).1 (indent pad trailing segments).2 := by
  cases h with
  | nil htrailing => exact .nil (hpad.isTrailing_append htrailing)
  | cons hstands hrest =>
      exact .cons (hstands.of_agrees (hpad.append hstands.trivia) (.refl _) (fun _ => rfl)
        fun _ _ => id) hrest

/-- A layout goes on with another one that begins with space, unless a lexeme ran to the
end of the text. -/
theorem append [Unicode.Repertoire] (h : Laid regions segments trailing)
    (hmore : Laid (regionsBehind regions segments) more trailing')
    (htext : textOf more trailing' = trailing ++ rest) (hrest : ∀ c ∈ rest.head?, isSpace c = true)
    (hquote : rest[1]? ≠ some '\x27')
    (hstops : trailing = [] → ∀ segment ∈ segments.getLast?, ¬ segment.RunsToEnd) :
    Laid regions (segments ++ more) trailing' := by
  induction h with
  | nil => exact hmore
  | @cons regions segment segments trailing hstands hlaid ih =>
      have hbehind : textOf (segments ++ more) trailing' = textOf segments trailing ++ rest := by
        rw [textOf_append, htext, textOf_append_trailing]
      have hagrees : Agrees (textOf segments trailing) (textOf segments trailing ++ rest) := by
        have hspace : Agrees [] rest := .apart hrest fun hchar => absurd hchar hquote
        have happend := hspace.append_left (textOf segments trailing)
        rwa [List.append_nil] at happend
      have hlast (hnil : textOf segments trailing = []) : ¬ segment.RunsToEnd := by
        obtain ⟨rfl, rfl⟩ := hlaid.of_textOf_eq_nil hnil
        exact hstops rfl segment rfl
      refine .cons (hbehind ▸ hstands.of_agrees hstands.trivia hagrees (fun hkind => ?_)
        fun hkind hvalue hnil => ?_) (ih hmore htext fun hnil next hnext => ?_)
      · cases hcases : textOf segments trailing with
        | nil => exact absurd (.inl hkind) (hlast hcases)
        | cons c text => rfl
      · exact absurd (.inr ⟨hkind, hvalue⟩) (hlast hnil)
      · refine hstops hnil next ?_
        rw [List.getLast?_cons, Option.mem_def.mp hnext]
        rfl

end Laid

/-! ## The tokens of both -/

/-- The same token `k` bytes further behind. -/
def Token.shift (k : Nat) (token : Token) : Token :=
  { token with extent := ⟨token.extent.start + k, token.extent.stop + k, token.extent.file⟩ }

theorem Token.span_shift (k : Nat) (token : Token) :
    (token.shift k).span =
      ⟨token.span.start + .ofNat k, token.span.stop + .ofNat k, token.span.file⟩ := by
  simp [span, shift, Extent.span, UInt32.ofNat_add]

namespace Segment

variable {file : String} {last last' : Option TokenKind} {regions : List Bracket}

/-- The last token that counts behind these segments. -/
def lastBehind (last : Option TokenKind) (segments : List Segment) : Option TokenKind :=
  segments.foldl (fun last segment => Lexer.remember segment.lexeme.kind last) last

theorem weave_append (file : String) (offset : Nat) (last : Option TokenKind)
    (regions : List Bracket) (front back : List Segment) :
    weave file offset last regions (front ++ back) =
      weave file offset last regions front ++
        weave file (offset + Utf8.byteLength (textOf front [])) (lastBehind last front)
          (regionsBehind regions front) back := by
  induction front generalizing offset last regions with
  | nil => rfl
  | cons segment front ih =>
      rw [List.cons_append, weave, weave, ih, List.append_assoc, textOf_cons,
        Utf8.byteLength_append, Nat.add_assoc]
      rfl

theorem token_shift (segment : Segment) (file : String) (offset k : Nat) :
    segment.token file (offset + k) = (segment.token file offset).shift k := by
  simp only [token, Lexeme.token, Lexeme.shift, Token.shift, Nat.add_assoc, Nat.add_comm k]

theorem separator?_shift (segment : Segment) (file : String) (offset k : Nat)
    (last : Option TokenKind) (regions : List Bracket) :
    segment.separator? file (offset + k) last regions =
      (segment.separator? file offset last regions).map (Token.shift k) := by
  unfold separator?
  split
  · next front line _ =>
      split
      · simp only [Option.map_some, Lexeme.token, Lexer.separator, Token.shift,
          Nat.add_right_comm _ k]
      · rfl
  · rfl

/-- Where a layout begins makes no difference but for the place of its tokens. -/
theorem weave_shift (file : String) (offset k : Nat) (last : Option TokenKind)
    (regions : List Bracket) (segments : List Segment) :
    weave file (offset + k) last regions segments =
      (weave file offset last regions segments).map (Token.shift k) := by
  induction segments generalizing offset last regions with
  | nil => rfl
  | cons segment segments ih =>
      rw [weave, weave, List.map_append, List.map_cons, token_shift, separator?_shift,
        Nat.add_right_comm, ih]
      cases segment.separator? file offset last regions <;> rfl

/-- The rule of the language asks of the last token only whether a statement may end
there. -/
theorem wantsSeparator_congr (segment : Segment)
    (hlast : last.any TokenKind.canEndStatement = last'.any TokenKind.canEndStatement)
    (regions : List Bracket) :
    segment.wantsSeparator last regions = segment.wantsSeparator last' regions := by
  cases last <;> cases last' <;> simp_all [wantsSeparator, Separator.standard]

theorem weave_congr
    (hlast : last.any TokenKind.canEndStatement = last'.any TokenKind.canEndStatement)
    (offset : Nat) (regions : List Bracket) (segments : List Segment) :
    weave file offset last regions segments = weave file offset last' regions segments := by
  induction segments generalizing offset last last' regions with
  | nil => rfl
  | cons segment segments ih =>
      have hseparator : segment.separator? file offset last regions =
          segment.separator? file offset last' regions := by
        simp only [separator?, wantsSeparator_congr segment hlast]
      have hremember : (Lexer.remember segment.lexeme.kind last).any TokenKind.canEndStatement =
          (Lexer.remember segment.lexeme.kind last').any TokenKind.canEndStatement := by
        unfold Lexer.remember
        split <;> first | exact hlast | rfl
      rw [weave, weave, hseparator, ih hremember]

end Segment

/-! ## The semicolon between them -/

theorem Lexeme.semicolon_standsAt [Unicode.Repertoire] (regions : List Bracket) (rest : List Char) :
    StandsAt ⟨.semicolon, ";", 0, 1, .start⟩ regions [';'] rest := by
  intro cursor hidle _ hahead
  have hnot (first : Char) (more : List Char) (hfirst : first ≠ ';') :
      ¬ first :: more <+: cursor.ahead := by
    rw [hahead]
    exact fun hprefix => hfirst (List.cons_prefix_cons.mp hprefix).1
  have hscan : scan regions cursor =
      keeping regions (do let _ ← Scan.next; emit .semicolon .start) cursor := by
    rw [scan_of_head regions hahead (hnot _ _ (by decide)) (hnot _ _ (by decide)), beginningWith,
      if_neg (by decide), if_neg (by decide), if_neg (by decide),
      if_neg (by decide), if_neg (by decide), if_pos rfl]
  have hread : (do let _ ← Scan.next; emit .semicolon .start : Scan Lexeme) cursor =
      .ok (shift cursor.pos ⟨.semicolon, ";", 0, 1, .start⟩)
        (cursor.advance [';'] rest).release.settle := by
    rw [Scan.bind_of_ok (Scan.next_of_cons hahead)]
    simp only [emit, shift, Cursor.advance, hidle.start, hidle.pending, Nat.zero_add,
      Nat.add_comm 1]
    rfl
  refine ⟨_, hscan.trans (Scan.bind_of_ok hread), ?_⟩
  exact (Cursor.Reads.of_advance hahead).release.settle

namespace Segment

/-- A semicolon behind a gap. -/
def semicolon (gap : List Char) : Segment :=
  ⟨gap, [';'], [], ⟨.semicolon, ";", 0, 1, .start⟩⟩

theorem semicolon_stands [Unicode.Repertoire] {gap : List Char} (hgap : IsTrivia gap)
    (regions : List Bracket) (rest : List Char) : (semicolon gap).Stands regions rest where
  trivia := hgap
  nonempty := nofun
  space := by rintro c ⟨⟩; decide
  noComment := fun hcomment => absurd (List.cons_prefix_cons.mp hcomment).1 (by decide)
  lexeme := Lexeme.semicolon_standsAt regions rest
  closes := ⟨.none, rfl, rfl⟩

/-- A space in front of a segment moves it by one byte. -/
theorem lineBreak?_space (gap : List Char) :
    lineBreak? (' ' :: gap) = (lineBreak? gap).map (Prod.map (' ' :: ·) id) := by
  have hsplit : split isBlank 0 (' ' :: gap) =
      (' ' :: (split isBlank 0 gap).1, (split isBlank 0 gap).2) :=
    split_outside isBlank (not_open_of_ne_slash (by decide))
  rw [lineBreak?, lineBreak?, hsplit]
  dsimp only
  split <;> rfl

theorem weave_indent (file : String) (offset : Nat) (last : Option TokenKind)
    (regions : List Bracket) (trailing : List Char) (segments : List Segment) :
    weave file offset last regions (indent [' '] trailing segments).1 =
      weave file (offset + 1) last regions segments := by
  cases segments with
  | nil => rfl
  | cons segment segments =>
      have hgap : offset + Utf8.byteLength ([' '] ++ segment.gap) =
          offset + 1 + Utf8.byteLength segment.gap :=
        (Nat.add_assoc offset 1 _).symm
      have hseparator :
          { segment with gap := [' '] ++ segment.gap }.separator? file offset last regions =
            segment.separator? file (offset + 1) last regions := by
        unfold separator?
        rw [List.singleton_append, lineBreak?_space]
        cases lineBreak? segment.gap with
        | none => rfl
        | some parts =>
            have hfront : offset + Utf8.byteLength (' ' :: parts.1) =
                offset + 1 + Utf8.byteLength parts.1 :=
              (Nat.add_assoc offset 1 _).symm
            simp only [Option.map_some, Prod.map_fst, Prod.map_snd, hfront, id_eq]
            rfl
      have htext : offset + Utf8.byteLength ({ segment with gap := [' '] ++ segment.gap }.text) =
          offset + 1 + Utf8.byteLength segment.text := by
        simp only [text, Utf8.byteLength_append, ← Nat.add_assoc]
        rfl
      have htoken : { segment with gap := [' '] ++ segment.gap }.token file offset =
          segment.token file (offset + 1) := by
        simp only [token, hgap]
      rw [indent, weave, weave, hseparator, htoken, htext]
      rfl

/-- The tokens of two layouts with a semicolon between them. -/
theorem weave_semicolon {segments : List Segment} (hregions : regionsBehind [] segments = [])
    (more : List Segment) (trailing trailing' : List Char) (file : String) :
    let length := Utf8.byteLength (textOf segments trailing)
    weave file 0 none [] (segments ++ semicolon (trailing ++ [' ']) ::
        (indent [' '] trailing' more).1) =
      weave file 0 none [] segments ++ ⟨.semicolon, ";", ⟨length + 1, length + 2, file⟩⟩ ::
        (weave file 0 none [] more).map (Token.shift (length + 3)) := by
  intro length
  have hlength : length = Utf8.byteLength (textOf segments []) + Utf8.byteLength trailing := by
    rw [← Utf8.byteLength_append, ← textOf_append_trailing]
    rfl
  have hgap : Utf8.byteLength (trailing ++ [' ']) = Utf8.byteLength trailing + 1 :=
    Utf8.byteLength_append _ _
  have htext : Utf8.byteLength (semicolon (trailing ++ [' '])).text =
      Utf8.byteLength trailing + 2 := by
    simp only [text, semicolon, Utf8.byteLength_append, hgap]
    rfl
  have htoken : (semicolon (trailing ++ [' '])).token file
      (Utf8.byteLength (textOf segments [])) =
        ⟨.semicolon, ";", ⟨length + 1, length + 2, file⟩⟩ := by
    simp only [token, Lexeme.token, Lexeme.shift, semicolon, hgap, Token.mk.injEq, Extent.mk.injEq,
      true_and, and_true]
    omega
  have hend : Utf8.byteLength (textOf segments []) +
      Utf8.byteLength (semicolon (trailing ++ [' '])).text + 1 = 0 + (length + 3) := by omega
  -- behind a semicolon the rule decides as at the beginning of a text
  have hrest : weave file 0 (some .semicolon) [] more = weave file 0 none [] more :=
    @weave_congr file (some .semicolon) none rfl 0 [] more
  rw [weave_append, weave, separator?_eq_none rfl, hregions, Nat.zero_add, htoken, weave_indent,
    hend, weave_shift, ← hrest]
  rfl

/-- The last token of a layout and where it ends. -/
theorem exists_last [Unicode.Repertoire] {regions : List Bracket} {segments : List Segment}
    {trailing : List Char} {segment : Segment} (hlaid : Laid regions segments trailing)
    (hlast : segment ∈ segments.getLast?) (file : String) (offset : Nat)
    (last : Option TokenKind) :
    ∃ before inner, segment.Stands inner trailing ∧
      segment.token file before ∈ weave file offset last regions segments ∧
      before + Utf8.byteLength (segment.text ++ trailing) =
        offset + Utf8.byteLength (textOf segments trailing) := by
  induction hlaid generalizing offset last with
  | nil => cases hlast
  | @cons regions first segments trailing hstands hlaid ih =>
      cases segments with
      | nil =>
          cases hlast
          exact ⟨offset, regions, hstands, List.mem_append_right _ List.mem_cons_self, rfl⟩
      | cons next segments =>
          rw [List.getLast?_cons_cons] at hlast
          obtain ⟨before, inner, hinner, hmem, hsum⟩ :=
            ih hlast (offset + Utf8.byteLength first.text) (Lexer.remember first.lexeme.kind last)
          refine ⟨before, inner, hinner,
            List.mem_append_right _ (List.mem_cons_of_mem _ hmem), ?_⟩
          rw [hsum, textOf_cons first, Utf8.byteLength_append first.text, Nat.add_assoc]

end Segment

/-! ## Texts that can be gone on with -/

section

variable [Unicode.Repertoire]

/-- Nothing is open at the end of the text: no region, no comment and no quotes. -/
structure Closed (text file : String) : Prop where
  regions : (Lexer.ofString text file).drain.lexer.regionDepth = 0
  blockComment : openComments 0
    (pieces 0 text.toList (Lexer.ofString text file).drain.result.tokens).2 = 0
  lineComment : ∀ token ∈ (Lexer.ofString text file).drain.result.tokens, token.kind = .comment →
    token.extent.stop ≠ Utf8.byteLength text.toList
  quotes : ∀ token ∈ (Lexer.ofString text file).drain.result.tokens, token.kind = .error →
    ∀ cause : Cause, cause.runsToEnd = true → token.value ≠ cause.message

namespace Closed

open Segment

variable {text file : String} {segments : List Segment} {trailing : List Char}

theorem isTrivia (hclosed : Closed text file) (hlaid : Laid [] segments trailing)
    (htext : text.toList = textOf segments trailing) : IsTrivia trailing := by
  obtain ⟨htokens, _⟩ := Lexer.drain_ofString_of_laid hlaid htext file
  obtain ⟨quotes, hquotes, hbehind⟩ := hlaid.pieces_snd (List.forall_mem_nil _) file 0 none
  have hblock := hclosed.blockComment
  have hsame : (pieces 0 (textOf segments trailing) (weave file 0 none [] segments)).2 =
      quotes ++ trailing := hbehind
  rw [htokens, htext, hsame, openComments_append_of_ne_slash hquotes] at hblock
  exact hlaid.isTrailing.isTrivia hblock

theorem not_runsToEnd (hclosed : Closed text file) (hlaid : Laid [] segments trailing)
    (htext : text.toList = textOf segments trailing) (hnil : trailing = []) :
    ∀ segment ∈ segments.getLast?, ¬ segment.RunsToEnd := by
  subst hnil
  intro segment hlast hends
  obtain ⟨htokens, _⟩ := Lexer.drain_ofString_of_laid hlaid htext file
  obtain ⟨before, inner, hstands, hmem, hsum⟩ := exists_last hlaid hlast file 0 none
  rw [← htokens] at hmem
  rcases hends with hkind | ⟨hkind, cause, hcause, hvalue⟩
  · refine hclosed.lineComment _ hmem hkind ?_
    obtain ⟨_, _, _, _, _, hstop, _⟩ := hstands.exists_delimiters file before
    rw [List.append_nil, Segment.text, (hstands.delimiters_of_comment hkind).2, List.append_nil,
      Utf8.byteLength_append] at hsum
    change segment.lexeme.stop + (before + Utf8.byteLength segment.gap) = _
    rw [htext, hstop]
    omega
  · exact hclosed.quotes _ hmem hkind cause hcause hvalue

end Closed

/-- Lexing composes at a semicolon: behind a text that is closed, a semicolon and another
text are lexed as they are on their own. -/
theorem tokenize_semicolon (first second file : String) (hclosed : Closed first file) :
    ∃ before behind, tokenize first file = .ok before ∧ tokenize second file = .ok behind ∧
      tokenize (first ++ " ; " ++ second) file =
        .ok (before ++
          ⟨.semicolon, ";", ⟨Utf8.byteLength first.toList + 1, Utf8.byteLength first.toList + 2,
            file⟩⟩ ::
          behind.map (Token.shift (Utf8.byteLength first.toList + 3))) := by
  obtain ⟨segments, trailing, htext, hlaid⟩ := exists_laid [] first.toList
  obtain ⟨more, trailing', htext', hlaid'⟩ := exists_laid [] second.toList
  refine ⟨_, _, tokenize_of_laid hlaid htext file, tokenize_of_laid hlaid' htext' file, ?_⟩
  have htrivia := hclosed.isTrivia hlaid htext
  have hspace : IsTrivia [' '] := .space (by decide) .nil
  have hregions : Segment.regionsBehind [] segments = [] := by
    rw [← (Lexer.drain_ofString_of_laid hlaid htext file).2.2]
    exact List.eq_nil_of_length_eq_zero hclosed.regions
  -- the layouts of the two texts with a semicolon between them
  have hbehind : Laid [] (Segment.semicolon (trailing ++ [' ']) ::
      (Segment.indent [' '] trailing' more).1) (Segment.indent [' '] trailing' more).2 :=
    .cons (Segment.semicolon_stands (htrivia.append hspace) _ _) (hlaid'.indent hspace)
  have hbehindText : Segment.textOf (Segment.semicolon (trailing ++ [' ']) ::
      (Segment.indent [' '] trailing' more).1) (Segment.indent [' '] trailing' more).2 =
        trailing ++ ([' ', ';', ' '] ++ Segment.textOf more trailing') := by
    rw [Segment.textOf_cons, Segment.textOf_indent]
    simp only [Segment.text, Segment.semicolon, List.append_assoc]
    rfl
  have hall := hlaid.append (hregions.symm ▸ hbehind) hbehindText (by rintro c ⟨⟩; decide)
    (by simp) (hclosed.not_runsToEnd hlaid htext)
  have hallText : (first ++ " ; " ++ second).toList =
      Segment.textOf (segments ++ Segment.semicolon (trailing ++ [' ']) ::
        (Segment.indent [' '] trailing' more).1) (Segment.indent [' '] trailing' more).2 := by
    rw [Segment.textOf_append, hbehindText, Segment.textOf_append_trailing, String.toList_append,
      String.toList_append, htext, htext']
    simp only [List.append_assoc]
    rfl
  rw [tokenize_of_laid hall hallText file, Segment.weave_semicolon hregions, htext]

end

/-- A block with an error and a comment in it, in front of an open one. -/
theorem tokenize_semicolon_of_block :
    let first := "f \x7b ] // c\n x \x7d /* c */"
    let second := "y ("
    Closed first "a" ∧
      ∃ before behind, tokenize first "a" = .ok before ∧ tokenize second "a" = .ok behind ∧
        tokenize (first ++ " ; " ++ second) "a" =
          .ok (before ++ ⟨.semicolon, ";", ⟨24, 25, "a"⟩⟩ :: behind.map (Token.shift 26)) := by
  intro first second
  -- the block is drained once for all that is asked of it
  have hdrained : (Lexer.ofString first "a").drain.lexer.regionDepth = 0 ∧
      openComments 0
        (pieces 0 first.toList (Lexer.ofString first "a").drain.result.tokens).2 = 0 ∧
      ∀ token ∈ (Lexer.ofString first "a").drain.result.tokens,
        (token.kind = .comment → token.extent.stop ≠ Utf8.byteLength first.toList) ∧
        (token.kind = .error → token.value ≠ Cause.unterminatedString.message ∧
          token.value ≠ Cause.unterminatedMultiLineString.message ∧
          token.value ≠ Cause.unterminatedQuotedIdentifier.message) := by
    decide +kernel
  obtain ⟨hregions, hcomments, htokens⟩ := hdrained
  have hclosed : Closed first "a" := by
    refine ⟨hregions, hcomments, fun token hmem => (htokens token hmem).1, ?_⟩
    intro token hmem hkind cause hcause
    obtain ⟨hstring, hmultiLine, hquoted⟩ := (htokens token hmem).2 hkind
    cases cause with
    | unterminatedString => exact hstring
    | unterminatedMultiLineString => exact hmultiLine
    | unterminatedQuotedIdentifier => exact hquoted
    | _ => cases hcause
  have hlength : Utf8.byteLength first.toList = 23 := by decide +kernel
  have hcomposed := tokenize_semicolon first second "a" hclosed
  rw [hlength] at hcomposed
  exact ⟨hclosed, hcomposed⟩

end ScalaLexer

import ScalaLexer.Proofs.Lexer.Tiling
import ScalaLexer.Proofs.Scan.LexemeLocality
import ScalaLexer.Proofs.Scan.LineBreak

/-!
# The layout of a text

A text is a sequence of lexemes with trivia in front of each of them and behind the
last one.  `Laid` says what has to hold of the pieces; nothing in it depends on where
the text stands, on the policy or on the tokens before it.

* `exists_laid`: every text can be laid out.
* `Segment.Stands.of_agrees`: a piece stays where it is when the text behind it is
  replaced by one that goes on alike.  So a layout of one text can be turned into a
  layout of another, piece by piece.
-/

namespace ScalaLexer

open Trivia

/-- A cursor in front of a text. -/
def Cursor.front (text : List Char) : Cursor :=
  ⟨0, 0, 0, [], text, none⟩

theorem Cursor.front_idle (text : List Char) : (Cursor.front text).Idle :=
  ⟨rfl, rfl⟩

/-! ## A lexeme in front of a text -/

namespace Lexeme

variable [Unicode.Repertoire] {lexeme : Lexeme} {regions : List Bracket}
  {run rest rest' : List Char} {cursor after : Cursor}

/-- Inside the given regions the lexeme is what a cursor in front of `run ++ rest`
finds, and `run` is what it takes.  The offsets of the lexeme are counted from
there. -/
def StandsAt (lexeme : Lexeme) (regions : List Bracket) (run rest : List Char) : Prop :=
  ∀ cursor : Cursor, cursor.Idle → cursor.malformed = none → cursor.ahead = run ++ rest →
    ∃ after, scan regions cursor =
        .ok (lexeme.shift cursor.pos, lexeme.kind.regionEffect.apply regions) after ∧
      cursor.Drops run after

omit [Unicode.Repertoire] in
theorem Fits.refl (lexeme : Lexeme) (rest : List Char) : lexeme.Fits rest rest :=
  ⟨fun _ _ hclosing => hclosing, fun _ => rfl, fun _ _ hnil => hnil⟩

theorem standsAt_of_scan {found : Lexeme × List Bracket} (hne : run ++ rest ≠ [])
    (h : scan regions (Cursor.front (run ++ rest)) = .ok found after) (hafter : after.ahead = rest)
    (hagrees : Agrees rest rest') (hfits : found.1.Fits rest rest') :
    found.1.StandsAt regions run rest' := by
  have hidle := Cursor.front_idle (run ++ rest)
  obtain ⟨hregions, _⟩ := (scan_spelled hidle h).regionEffect
  obtain ⟨read, hread, hlocal⟩ := scan_local regions hidle hne rfl after found h
  rw [hafter] at hread hlocal
  obtain rfl : run = read := List.append_cancel_right hread
  intro cursor hcursor hvalid hahead
  have hshifted : (Cursor.front (run ++ rest)).Shifted cursor.pos cursor :=
    ⟨by rw [hcursor.start]; exact (Nat.zero_add _).symm, (Nat.zero_add _).symm, hcursor.pending,
      rfl, hvalid⟩
  obtain ⟨after', hscan, _, hafter'⟩ := hlocal cursor.pos cursor rest' hshifted hahead hagrees hfits
  rw [← hregions]
  refine ⟨after', hscan, ?_⟩
  obtain ⟨taken, hdrops, _⟩ := (scan_spelled hcursor hscan).exists_drops
  obtain rfl : run = taken :=
    List.append_cancel_right (hahead.symm.trans (hafter' ▸ hdrops.ahead))
  exact hdrops

/-- Some lexeme stands in front of every text. -/
theorem exists_standsAt (regions : List Bracket) {text : List Char} (hne : text ≠ []) :
    ∃ lexeme run rest, text = run ++ rest ∧ run ≠ [] ∧ StandsAt lexeme regions run rest := by
  have hidle := Cursor.front_idle text
  cases h : scan regions (Cursor.front text) with
  | error fault after =>
      have hbyte := ((scan_paired regions).fault h).byte
      cases hbyte
  | ok found after =>
      have hspelled := scan_spelled hidle h
      obtain ⟨run, hdrops, hrun⟩ := hspelled.exists_drops
      have htext : text = run ++ after.ahead := hdrops.ahead
      subst htext
      refine ⟨found.1, run, after.ahead, rfl, hrun fun heof => hne ?_, ?_⟩
      · obtain ⟨_, hnil, hahead, _⟩ := hspelled.of_eof heof
        exact hnil.ahead.trans hahead
      · exact standsAt_of_scan hne h rfl (.refl _) (.refl _ _)

namespace StandsAt

/-- The lexeme does not change where the text behind it goes on alike. -/
theorem of_agrees (h : lexeme.StandsAt regions run rest) (hne : run ≠ [])
    (hagrees : Agrees rest rest') (hfits : lexeme.Fits rest rest') :
    lexeme.StandsAt regions run rest' := by
  obtain ⟨after, hscan, hdrops⟩ := h (Cursor.front (run ++ rest)) (Cursor.front_idle _) rfl rfl
  have hafter : after.ahead = rest := (List.append_cancel_left hdrops.ahead).symm
  exact standsAt_of_scan (List.append_ne_nil_of_left_ne_nil hne rest) hscan hafter hagrees hfits

/-- How the lexeme is written. -/
theorem spelled (h : lexeme.StandsAt regions run rest) :
    ∃ after, lexeme.Spelled regions (Cursor.front (run ++ rest)) after
        (lexeme.kind.regionEffect.apply regions) ∧
      (Cursor.front (run ++ rest)).Drops run after ∧ after.ahead = rest := by
  obtain ⟨after, hscan, hdrops⟩ := h (Cursor.front (run ++ rest)) (Cursor.front_idle _) rfl rfl
  exact ⟨after, scan_spelled (Cursor.front_idle _) hscan, hdrops,
    (List.append_cancel_left hdrops.ahead).symm⟩

theorem kind_ne_eof (h : lexeme.StandsAt regions run rest) (hne : run ≠ []) :
    lexeme.kind ≠ .eof := by
  intro heof
  obtain ⟨after, hspelled, hdrops, _⟩ := h.spelled
  obtain ⟨_, hnil, _, _⟩ := hspelled.of_eof heof
  exact hne (List.append_cancel_right (hdrops.ahead.symm.trans hnil.ahead))

/-- The delimiters in front of the text of the lexeme and behind it. -/
theorem exists_delimiters (h : lexeme.StandsAt regions run rest) (hne : run ≠ []) (lexer : Lexer) :
    ∃ (opening next : Delimiter) (body : List Char), run = opening.text ++ body ∧
      lexeme.start = Utf8.byteLength opening.text ∧ lexeme.stop = Utf8.byteLength run ∧
      (lexeme.kind ≠ .error → lexeme.value = String.ofList body) ∧
      (lexer.tokenOf lexeme).Between opening next ∧ lexeme.resume = next.resume ∧
      next.text <+: rest := by
  obtain ⟨after, ⟨opening, body, inner, hopening, hcut, hform⟩, hdrops, hafter⟩ := h.spelled
  obtain ⟨before, next, rfl, _, hbetween, hresume, hclosing⟩ :=
    Lexer.delimiters_of_form lexer hform (h.kind_ne_eof hne)
  have hrun : run = before.text ++ body :=
    List.append_cancel_right (hdrops.ahead.symm.trans (hopening.trans hcut.drops).ahead)
  have hstart : inner.pos = Utf8.byteLength before.text := by
    rw [hopening.pos]
    exact Nat.zero_add _
  refine ⟨before, next, body, hrun, hcut.start.trans hstart, ?_, hcut.value, hbetween, hresume,
    hafter ▸ hclosing⟩
  rw [hcut.stop, hdrops.pos]
  exact Nat.zero_add _

end StandsAt

end Lexeme

/-! ## Segments -/

/-- A lexeme with what belongs to it. -/
structure Segment where
  /-- The trivia in front of it. -/
  gap : List Char
  /-- Its text with what opens it. -/
  run : List Char
  /-- What closes it. -/
  closing : List Char
  /-- The lexeme, with its offsets from the end of the gap on. -/
  lexeme : Lexeme

namespace Segment

/-- All that is written for the lexeme. -/
def text (segment : Segment) : List Char :=
  segment.gap ++ segment.run ++ segment.closing

/-- The text of these segments and of the trivia behind them. -/
def textOf (segments : List Segment) (trailing : List Char) : List Char :=
  segments.foldr (fun segment rest => segment.text ++ rest) trailing

@[simp] theorem textOf_nil (trailing : List Char) : textOf [] trailing = trailing :=
  rfl

@[simp] theorem textOf_cons (segment : Segment) (segments : List Segment) (trailing : List Char) :
    textOf (segment :: segments) trailing = segment.text ++ textOf segments trailing :=
  rfl

theorem textOf_append (front back : List Segment) (trailing : List Char) :
    textOf (front ++ back) trailing = textOf front (textOf back trailing) :=
  List.foldr_append

/-- The segment stands in front of `rest`. -/
structure Stands [Unicode.Repertoire] (segment : Segment) (regions : List Bracket)
    (rest : List Char) : Prop where
  trivia : IsTrivia segment.gap
  nonempty : segment.run ≠ []
  space : ∀ c ∈ segment.run.head?, isSpace c = false
  noComment : ¬ ['/', '*'] <+: segment.run ++ segment.closing ++ rest
  lexeme : segment.lexeme.StandsAt regions segment.run (segment.closing ++ rest)
  closes : ∃ delimiter : Delimiter, segment.lexeme.resume = delimiter.resume ∧
    delimiter.Closes segment.closing rest

/-- The regions behind the segment. -/
def behind (segment : Segment) (regions : List Bracket) : List Bracket :=
  segment.lexeme.kind.regionEffect.apply regions

end Segment

section

variable [Unicode.Repertoire]

/-- Inside the given regions a text consists of these segments and of the trivia behind
them, whose last comment may be open. -/
inductive Laid : List Bracket → List Segment → List Char → Prop
  | nil {regions : List Bracket} {trailing : List Char} : IsTrailing trailing →
      Laid regions [] trailing
  | cons {regions : List Bracket} {segment : Segment} {segments : List Segment}
      {trailing : List Char} : segment.Stands regions (Segment.textOf segments trailing) →
      Laid (segment.behind regions) segments trailing → Laid regions (segment :: segments) trailing

/-- A segment takes up room. -/
theorem Segment.Stands.text_ne_nil {segment : Segment} {regions : List Bracket}
    {rest : List Char} (h : segment.Stands regions rest) : segment.text ≠ [] := by
  intro hnil
  exact h.nonempty (List.append_eq_nil_iff.mp (List.append_eq_nil_iff.mp hnil).1).2

/-- Only the empty text is laid out as nothing. -/
theorem Laid.of_textOf_eq_nil {regions : List Bracket} {segments : List Segment}
    {trailing : List Char} (h : Laid regions segments trailing)
    (hnil : Segment.textOf segments trailing = []) : segments = [] ∧ trailing = [] := by
  cases h with
  | nil => exact ⟨rfl, hnil⟩
  | cons hstands => exact absurd (List.append_eq_nil_iff.mp hnil).1 hstands.text_ne_nil

theorem Laid.isTrailing {regions : List Bracket} {segments : List Segment} {trailing : List Char}
    (h : Laid regions segments trailing) : IsTrailing trailing := by
  induction h with
  | nil htrailing => exact htrailing
  | cons _ _ ih => exact ih

end

/-! ## Closing quotes -/

theorem Delimiter.Closes.closing_eq {delimiter : Delimiter} {closing rest : List Char}
    (h : delimiter.Closes closing rest) :
    delimiter.resume.closing (closing ++ rest) = closing := by
  cases delimiter with
  | none => exact (show closing = [] from h).symm
  | doubleQuote => rw [show closing = ['\x22'] from h]; rfl
  | singleQuote => rw [show closing = ['\x27'] from h]; rfl
  | backquote => rw [show closing = ['\x60'] from h]; rfl
  | tripleQuote =>
      obtain ⟨⟨n, _, rfl⟩, hrest⟩ := h
      refine takeWhile_append_of_stop (fun c hc => by simpa using List.eq_of_mem_replicate hc) ?_
      intro c hc
      refine decide_eq_false fun hquote => hrest ?_
      rw [← hquote]
      exact hc

/-- The closing quotes are closing quotes of every text that goes on alike. -/
theorem Delimiter.Closes.of_agrees {delimiter : Delimiter} {closing rest rest' : List Char}
    (h : delimiter.Closes closing rest) (hagrees : Agrees rest rest') :
    delimiter.Closes closing rest' := by
  cases delimiter with
  | tripleQuote =>
      obtain ⟨hquotes, hrest⟩ := h
      refine ⟨hquotes, fun hquote => ?_⟩
      rcases hagrees.head?_eq_or with hsame | hspace
      · exact hrest (hsame ▸ hquote)
      · exact absurd (hspace _ hquote) (by decide)
  | _ => exact h

/-- The delimiter itself is part of what closes it. -/
theorem Delimiter.Closes.text_prefix {delimiter : Delimiter} {closing rest : List Char}
    (h : delimiter.Closes closing rest) : delimiter.text <+: closing := by
  cases delimiter with
  | tripleQuote =>
      obtain ⟨⟨n, hn, rfl⟩, _⟩ := h
      obtain ⟨more, rfl⟩ := Nat.exists_eq_add_of_le hn
      have htext : tripleQuote.text = List.replicate 3 '\x22' := rfl
      rw [htext, ← List.replicate_append_replicate]
      exact List.prefix_append _ _
  | none => exact List.nil_prefix
  | doubleQuote => exact (show closing = _ from h) ▸ List.prefix_refl _
  | singleQuote => exact (show closing = _ from h) ▸ List.prefix_refl _
  | backquote => exact (show closing = _ from h) ▸ List.prefix_refl _

theorem Delimiter.length_text_of_resume {delimiter other : Delimiter}
    (hsame : delimiter.resume = other.resume) : delimiter.text.length = other.text.length := by
  cases delimiter <;> cases other <;> first | rfl | cases hsame

/-- No other delimiter is closed there in the same way. -/
theorem Delimiter.Closes.prefix_of_resume {delimiter other : Delimiter} {closing rest : List Char}
    (h : delimiter.Closes closing rest) (hsame : delimiter.resume = other.resume)
    (hother : other.text <+: closing ++ rest) : other.text <+: closing := by
  have hlength := length_text_of_resume hsame
  refine List.prefix_of_prefix_length_le hother (List.prefix_append closing rest) ?_
  rw [← hlength]
  exact h.text_prefix.length_le

theorem Mode.closing_prefix (mode : Mode) (text : List Char) : mode.closing text <+: text := by
  cases mode with
  | start => exact List.nil_prefix
  | done => exact List.nil_prefix
  | closingQuote => exact List.take_prefix 1 text
  | closingTripleQuote => exact List.takeWhile_prefix _

/-! ## Another text behind a segment -/

namespace Segment.Stands

variable {segment : Segment} {regions : List Bracket} {rest rest' gap closing : List Char}

/-- A segment with other trivia in front and other quotes behind. -/
theorem replace [Unicode.Repertoire] (h : segment.Stands regions rest) (hgap : IsTrivia gap)
    (hagrees : Agrees (segment.closing ++ rest) (closing ++ rest'))
    (hfits : segment.lexeme.Fits (segment.closing ++ rest) (closing ++ rest'))
    (hcloses : ∃ delimiter : Delimiter, segment.lexeme.resume = delimiter.resume ∧
      delimiter.Closes closing rest') :
    Stands { segment with gap, closing } regions rest' where
  trivia := hgap
  nonempty := h.nonempty
  space := h.space
  noComment := by
    intro hcomment
    rw [List.append_assoc] at hcomment
    have hold := (hagrees.append_left segment.run).isPrefix (by decide) hcomment
    rw [← List.append_assoc] at hold
    exact h.noComment hold
  lexeme := h.lexeme.of_agrees h.nonempty hagrees hfits
  closes := hcloses

/-- The segment as it is in front of a text that goes on alike. -/
theorem of_agrees [Unicode.Repertoire] (h : segment.Stands regions rest) (hgap : IsTrivia gap)
    (hagrees : Agrees rest rest')
    (hcomment : segment.lexeme.kind = .comment → rest'.head? = rest.head?)
    (hunterminated : segment.lexeme.kind = .error →
      (∃ cause : Cause, cause.runsToEnd = true ∧ segment.lexeme.value = cause.message) →
      rest = [] → rest' = []) :
    Stands { segment with gap } regions rest' := by
  obtain ⟨delimiter, hresume, hcloses⟩ := h.closes
  refine h.replace hgap (hagrees.append_left _) ⟨fun other hother hprefix => ?_, fun hkind => ?_,
    fun hkind hvalue hnil => ?_⟩ ⟨delimiter, hresume, hcloses.of_agrees hagrees⟩
  · exact (hcloses.prefix_of_resume (hresume.symm.trans hother) hprefix).trans
      (List.prefix_append _ _)
  · rw [List.head?_append, List.head?_append, hcomment hkind]
  · obtain ⟨hnone, hrest⟩ := List.append_eq_nil_iff.mp hnil
    rw [hnone, hunterminated hkind hvalue hrest]
    rfl

end Segment.Stands

/-! ## Every text can be laid out -/

theorem exists_laid [Unicode.Repertoire] (regions : List Bracket) (text : List Char) :
    ∃ segments trailing, text = Segment.textOf segments trailing ∧
      Laid regions segments trailing := by
  induction hlength : text.length using Nat.strongRecOn generalizing text regions with
  | _ length ih =>
      subst hlength
      have htext := split_append isSpace 0 text
      obtain ⟨htrailing, htrivia⟩ : IsTrailing (split isSpace 0 text).1 ∧ _ :=
        split_isTrivia (fun _ => id) text
      cases hrest : (split isSpace 0 text).2 with
      | nil =>
          rw [hrest, List.append_nil] at htext
          exact ⟨[], text, rfl, .nil (htext ▸ htrailing)⟩
      | cons c more =>
          obtain ⟨hspace, hopen⟩ := split_rest hrest
          obtain ⟨lexeme, run, behind, hrun, hne, hstands⟩ :=
            Lexeme.exists_standsAt regions (List.cons_ne_nil c more)
          obtain ⟨_, next, _, _, _, _, _, _, hresume, hclosing⟩ :=
            hstands.exists_delimiters hne (Lexer.ofString "")
          obtain ⟨rest, hbehind⟩ := next.resume.closing_prefix behind
          have hcloses := Lexer.closes_of_resume hclosing hbehind.symm
          generalize next.resume.closing behind = closing at hbehind hcloses
          subst hbehind
          have hshorter : rest.length < text.length := by
            have hpos := List.length_pos_iff.mpr hne
            rw [← htext, hrest, hrun]
            simp only [List.length_append]
            omega
          obtain ⟨segments, trailing, hsegments, hlaid⟩ :=
            ih rest.length hshorter (lexeme.kind.regionEffect.apply regions) rest rfl
          subst hsegments
          rw [hrest] at htext htrivia
          generalize (split isSpace 0 text).1 = gap at htext htrivia
          refine ⟨⟨gap, run, closing, lexeme⟩ :: segments, trailing, ?_, .cons
            ⟨htrivia nofun, hne, ?_, ?_, hstands, next, hresume, hcloses⟩ hlaid⟩
          · rw [← htext, hrun]
            simp only [Segment.textOf_cons, Segment.text, List.append_assoc]
          · obtain ⟨first, tail, rfl⟩ := List.exists_cons_of_ne_nil hne
            obtain rfl := (List.cons.inj hrun).1
            rintro _ ⟨⟩
            exact hspace
          · rw [List.append_assoc, ← hrun]
            exact hopen

end ScalaLexer

import Mathlib.Data.List.DropRight
import ScalaLexer.Proofs.Text.Utf8
import ScalaLexer.Proofs.Lexer.Finding
import ScalaLexer.Proofs.Lexer.Tiling

/-!
# Between two tokens

Between the end of one token and the beginning of the next there is trivia, and
around it stand the quotes that belong to the two tokens without being part of them.
`Gap` says this of a text and of the spans of its tokens.

A gap neither begins nor ends with a quote, so there is only one between two tokens
(`Gap.unique`).  `Run.exists_gap` says that what a call passes over is the gap.
-/

namespace ScalaLexer

open Trivia

/-! ## Quotes -/

/-- A character that may stand around the text of a token. -/
def isQuote (c : Char) : Bool :=
  c = '\x22' || c = '\x27' || c = '\x60'

theorem isQuote_eq_false_of_isSpace {c : Char} (hspace : isSpace c = true) : isQuote c = false := by
  cases hquote : isQuote c with
  | false => rfl
  | true =>
      have hcases : (c = '\x22' ∨ c = '\x27') ∨ c = '\x60' := by simpa [isQuote] using hquote
      rcases hcases with (rfl | rfl) | rfl <;> exact absurd hspace (by decide)

/-- What is dropped to close a delimiter are quotes. -/
theorem Delimiter.isQuote_of_mem_closing {delimiter : Delimiter} {ahead : List Char}
    (hclosing : delimiter.text <+: ahead) :
    ∀ c ∈ delimiter.resume.closing ahead, isQuote c = true := by
  obtain ⟨behind, rfl⟩ := hclosing
  cases delimiter with
  | none => exact nofun
  | doubleQuote => rintro c (_ | ⟨_, ⟨⟩⟩); rfl
  | singleQuote => rintro c (_ | ⟨_, ⟨⟩⟩); rfl
  | backquote => rintro c (_ | ⟨_, ⟨⟩⟩); rfl
  | tripleQuote =>
      intro c hc
      obtain rfl : c = '\x22' := by simpa using List.mem_takeWhile_imp hc
      rfl

/-- The text without the quotes at its two ends. -/
def stripQuotes (text : List Char) : List Char :=
  (text.dropWhile isQuote).rdropWhile isQuote

section Strip

variable {closing gap opening : List Char}

theorem dropWhile_isQuote (hclosing : ∀ c ∈ closing, isQuote c = true)
    (hhead : ∀ c ∈ gap.head?, isQuote c = false) :
    (closing ++ gap).dropWhile isQuote = gap := by
  rw [List.dropWhile_append_of_pos hclosing]
  cases gap with
  | nil => rfl
  | cons c gap => rw [List.dropWhile_cons_of_neg (by simp [hhead c rfl])]

theorem stripQuotes_eq (hclosing : ∀ c ∈ closing, isQuote c = true)
    (hopening : ∀ c ∈ opening, isQuote c = true) (hhead : ∀ c ∈ gap.head?, isQuote c = false)
    (hlast : ∀ c ∈ gap.getLast?, isQuote c = false) :
    stripQuotes (closing ++ gap ++ opening) = gap := by
  cases gap with
  | nil =>
      have hall : ∀ c ∈ closing ++ [] ++ opening, isQuote c = true := by
        simpa [or_imp, forall_and] using ⟨hclosing, hopening⟩
      rw [stripQuotes, List.dropWhile_eq_nil_iff.mpr hall]
      rfl
  | cons c gap =>
      have hfirst : ∀ first ∈ (c :: gap ++ opening).head?, isQuote first = false := hhead
      rw [List.append_assoc, stripQuotes, dropWhile_isQuote hclosing hfirst, List.rdropWhile,
        List.reverse_append, dropWhile_isQuote (by simpa using hopening), List.reverse_reverse]
      rwa [List.head?_reverse]

end Strip

/-! ## Trivia neither begins nor ends with a quote -/

namespace Trivia

variable {gap : List Char}

theorem CommentTail.getLast? {tail : List Char} (h : CommentTail tail) :
    tail.getLast? = some '/' := by
  induction h with
  | close => rfl
  | nested _ _ _ ih => rw [← List.cons_append, ← List.cons_append, List.getLast?_append, ih]; rfl
  | @char c tail _ _ htail ih => rw [List.getLast?_cons, ih]; rfl

theorem IsTrivia.isQuote_head (h : IsTrivia gap) :
    ∀ c ∈ gap.head?, isQuote c = false := by
  cases h with
  | nil => exact nofun
  | space hspace => rintro c ⟨⟩; exact isQuote_eq_false_of_isSpace hspace
  | comment => rintro c ⟨⟩; rfl

/-- A gap ends with space or with the end of a comment. -/
theorem IsTrivia.getLast?_eq (h : IsTrivia gap) :
    ∀ c ∈ gap.getLast?, isSpace c = true ∨ c = '/' := by
  induction h with
  | nil => exact nofun
  | @space first text hspace _ ih =>
      intro c hc
      rw [← List.singleton_append, List.getLast?_append] at hc
      rcases Option.or_eq_some_iff.mp hc with hlast | ⟨_, hlast⟩
      · exact ih c hlast
      · cases hlast
        exact .inl hspace
  | @comment tail text htail _ ih =>
      intro c hc
      rw [← List.cons_append, ← List.cons_append, List.getLast?_append, List.getLast?_cons,
        List.getLast?_cons, htail.getLast?] at hc
      rcases Option.or_eq_some_iff.mp hc with hlast | ⟨_, hlast⟩
      · exact ih c hlast
      · cases hlast
        exact .inr rfl

theorem IsTrivia.isQuote_getLast (h : IsTrivia gap) :
    ∀ c ∈ gap.getLast?, isQuote c = false := by
  intro c hc
  rcases h.getLast?_eq c hc with hspace | rfl
  · exact isQuote_eq_false_of_isSpace hspace
  · rfl

theorem IsTrailing.isQuote_head (h : IsTrailing gap) :
    ∀ c ∈ gap.head?, isQuote c = false := by
  obtain ⟨front, back, rfl, hfront, hback⟩ := h
  cases front with
  | cons c front => exact hfront.isQuote_head
  | nil =>
      rcases hback with rfl | ⟨⟨rest, rfl⟩, _⟩
      · exact nofun
      · rintro c ⟨⟩
        rfl

end Trivia

/-! ## The gap -/

/-- The byte behind the last of the tokens. -/
def endOf (tokens : List Token) : Nat :=
  (tokens.getLast?.map (·.extent.stop)).getD 0

/-- What stands in the text between the last of the tokens and the next one, apart
from the quotes of either.  Only in front of the end a comment in it may be open. -/
inductive Gap (text : List Char) (before : List Token) (next : Token) (gap : List Char) : Prop
  | between {front closing opening rest : List Char} :
      text = front ++ closing ++ gap ++ opening ++ rest →
      Utf8.byteLength front = endOf before →
      Utf8.byteLength (front ++ closing ++ gap ++ opening) = next.extent.start →
      (∀ c ∈ closing, isQuote c = true) → (∀ c ∈ opening, isQuote c = true) →
      IsTrailing gap → (next.kind ≠ .eof → IsTrivia gap) →
      (next.kind = .eof → opening ++ rest = []) → Gap text before next gap

theorem Gap.unique {text gap other : List Char} {before : List Token} {next : Token}
    (h : Gap text before next gap) (h' : Gap text before next other) : gap = other := by
  obtain ⟨htext, hfront, hstart, hclosing, hopening, htrailing, htrivia, hend⟩ := h
  obtain ⟨htext', hfront', hstart', hclosing', hopening', htrailing', htrivia', hend'⟩ := h'
  -- both are parts of the text between the same two places
  obtain ⟨hspan, _⟩ := Utf8.append_inj_of_byteLength (htext.symm.trans htext')
    (hstart.trans hstart'.symm)
  simp only [List.append_assoc] at hspan
  obtain ⟨_, hspan⟩ := Utf8.append_inj_of_byteLength hspan (hfront.trans hfront'.symm)
  simp only [← List.append_assoc] at hspan
  by_cases hkind : next.kind = .eof
  · obtain ⟨rfl, _⟩ := List.append_eq_nil_iff.mp (hend hkind)
    obtain ⟨rfl, _⟩ := List.append_eq_nil_iff.mp (hend' hkind)
    rw [List.append_nil, List.append_nil] at hspan
    rw [← dropWhile_isQuote hclosing htrailing.isQuote_head, hspan,
      dropWhile_isQuote hclosing' htrailing'.isQuote_head]
  · rw [← stripQuotes_eq hclosing hopening htrailing.isQuote_head (htrivia hkind).isQuote_getLast,
      hspan, stripQuotes_eq hclosing' hopening' htrailing'.isQuote_head
        (htrivia' hkind).isQuote_getLast]

/-! ## A call passes over the gap -/

theorem takeWhile_append_of_head {isMember : Char → Bool} {front back : List Char}
    (hhead : ∀ c ∈ back.head?, isMember c = false) :
    (front ++ back).takeWhile isMember = front.takeWhile isMember := by
  have hback : back.takeWhile isMember = [] := by
    cases back with
    | nil => rfl
    | cons c back => exact List.takeWhile_cons_of_neg (by simp [hhead c rfl])
  rw [List.takeWhile_append, hback, List.append_nil]
  split
  · next hall => exact (List.takeWhile_prefix _).eq_of_length hall |>.symm
  · rfl

namespace Lexer

variable [Unicode.Repertoire] {lexer after last : Lexer} {token : Token} {tokens : List Token}
  {consultations : List Separator.Consultation}

theorem Run.drops (hrun : Run lexer tokens last) (hidle : lexer.cursor.Idle) :
    ∃ run, lexer.cursor.Drops run last.cursor := by
  induction hrun with
  | nil => exact ⟨[], hidle.drops⟩
  | cons hstep _ _ ih =>
      obtain ⟨_, hfirst, _⟩ := dispatch_drops (step_eq_ok.mp hstep)
      obtain ⟨_, hrest⟩ := ih hfirst.idle
      exact ⟨_, hfirst.trans hrest⟩

/-- The last call of a run. -/
theorem Run.of_concat (hrun : Run lexer (tokens ++ [token]) last) :
    ∃ between consultations, Run lexer tokens between ∧
      between.step = ⟨.ok token, last, consultations⟩ ∧ token.kind ≠ .eof := by
  induction tokens generalizing lexer with
  | nil =>
      cases hrun with
      | cons hstep hkind hrest =>
          cases hrest
          exact ⟨_, _, .nil _, hstep, hkind⟩
  | cons first tokens ih =>
      cases hrun with
      | cons hstep hkind hrest =>
          obtain ⟨between, asked, hbefore, hlast⟩ := ih hrest
          exact ⟨between, asked, .cons hstep hkind hbefore, hlast⟩

/-- A call leaves a delimiter to be closed, which stands there. -/
theorem resume_of_step (hstep : lexer.step = ⟨.ok token, after, consultations⟩)
    (hkind : token.kind ≠ .eof) :
    ∃ delimiter : Delimiter, after.mode = delimiter.resume ∧
      delimiter.text <+: after.cursor.ahead := by
  have htaken := step_eq_ok.mp hstep ▸ dispatch_taken (not_done_of_step hstep hkind)
  obtain ⟨_, _, _, _, _, _, next, _, _, _, hbehind⟩ := htaken.cut hkind
  exact ⟨next, hbehind.mode, hbehind.closing⟩

/-- Behind a token that is no separator the lexer stands where the token ends. -/
theorem stop_of_step (hstep : lexer.step = ⟨.ok token, after, consultations⟩)
    (hkind : token.kind ≠ .eof) (hseparator : token.kind.isSeparator = false) :
    token.extent.stop = after.position := by
  have hmode := not_done_of_step hstep hkind
  cases hfind : find lexer.mode lexer.regions lexer.cursor with
  | error failure =>
      rw [step_of_find_error hmode hfind] at hstep
      cases hstep
  | ok finding =>
      obtain ⟨_, _, _, _, hcut, _⟩ := (find_eq_ok hfind).2
      rw [step_of_find hmode hfind] at hstep
      rcases answerTo_cases lexer finding with ⟨asked, hanswer, _⟩ | ⟨line, asked, _, _, hanswer⟩
      · rw [hanswer] at hstep
        cases hstep
        exact hcut.stop
      · rw [hanswer] at hstep
        cases hstep
        exact absurd ((separator_isSeparator line.pos _).symm.trans hseparator) nofun

/-- Between two calls the lexer stands at the end of its tokens, if the last of them
is no separator, and what it will drop there first are quotes. -/
theorem Run.stands {text file : String} {policy : Separator.Policy}
    (hrun : Run (ofString text file policy) tokens last)
    (hlast : ∀ token ∈ tokens.getLast?, token.kind.isSeparator = false) :
    (∃ front, text.toList = front ++ last.cursor.ahead ∧
        Utf8.byteLength front = last.position) ∧
      last.position = endOf tokens ∧
      ∀ c ∈ last.mode.closing last.cursor.ahead, isQuote c = true := by
  have hcursor := ofString_cursor text file policy
  have hidle : (ofString text file policy).cursor.Idle := by
    rw [hcursor]
    exact ⟨rfl, rfl⟩
  obtain ⟨front, hdrops⟩ := hrun.drops hidle
  refine ⟨⟨front, ?_, ?_⟩, ?_⟩
  · rw [← hdrops.ahead, hcursor]
  · rw [position, hdrops.pos, hcursor, Nat.zero_add]
  · rcases tokens.eq_nil_or_concat with rfl | ⟨before, token, rfl⟩
    · cases hrun
      exact ⟨by rw [position, hcursor]; rfl, nofun⟩
    · rw [List.concat_eq_append] at hrun hlast ⊢
      obtain ⟨between, _, _, hstep, hkind⟩ := hrun.of_concat
      have hseparator := hlast token (by simp)
      obtain ⟨delimiter, hmode, hclosing⟩ := resume_of_step hstep hkind
      refine ⟨?_, ?_⟩
      · rw [endOf, List.getLast?_append_of_ne_nil _ (by simp)]
        exact (stop_of_step hstep hkind hseparator).symm
      · rw [hmode]
        exact Delimiter.isQuote_of_mem_closing hclosing

end Lexer

end ScalaLexer

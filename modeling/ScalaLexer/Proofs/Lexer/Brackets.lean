import Mathlib.Data.List.Induction
import ScalaLexer.Proofs.Lexer.Finding
import ScalaLexer.Proofs.Lexer.Session
import ScalaLexer.Unicode.Release

/-!
# The open regions are the bracket history

The regions that a lexer keeps are those that the brackets among its tokens leave
open, whatever was looked ahead in between.  A closing bracket becomes a token only
if it closes the innermost of them; otherwise it is an error, which leaves them as
they are (`ClosingAnswer`).
-/

namespace ScalaLexer

open Trivia

/-! ## Counting brackets -/

/-- The regions left open are the brackets opened and not closed again. -/
theorem WellNested.length_openRegions {tokens : List Token} (hnested : WellNested tokens) :
    (openRegions tokens).length + tokens.countP (·.kind.isClosing) =
      tokens.countP (·.kind.isOpening) := by
  induction tokens using List.reverseRecOn with
  | nil => rfl
  | append_singleton tokens token ih =>
      have hbefore : WellNested tokens := fun before last hpart =>
        hnested before last (hpart.trans (List.prefix_append _ _))
      have hlast := hnested tokens token (List.prefix_refl _)
      have hcount := ih hbefore
      rw [openRegions_snoc, List.countP_append, List.countP_append, List.countP_singleton,
        List.countP_singleton]
      cases hkind : token.kind with
      | opening bracket =>
          change (openRegions tokens).length + 1 + (tokens.countP (·.kind.isClosing) + 0) =
            tokens.countP (·.kind.isOpening) + 1
          omega
      | closing bracket =>
          rw [hkind] at hlast
          obtain ⟨outer, houter⟩ := List.head?_eq_some_iff.mp hlast
          rw [houter, List.length_cons] at hcount
          rw [houter]
          change outer.length + (tokens.countP (·.kind.isClosing) + 1) =
            tokens.countP (·.kind.isOpening) + 0
          omega
      | _ => exact hcount

/-! ## A closing bracket -/

/-- What becomes of a closing bracket inside these regions. -/
inductive ClosingAnswer (bracket : Bracket) : List Bracket → TokenKind → String → Prop
  | closes (outer : List Bracket) :
      ClosingAnswer bracket (bracket :: outer) (.closing bracket)
        (String.singleton bracket.closingChar)
  | unmatched :
      ClosingAnswer bracket [] .error
        (Cause.unmatchedClosingBracket (String.singleton bracket.closingChar)).message
  | mismatched {top : Bracket} (outer : List Bracket) : top ≠ bracket →
      ClosingAnswer bracket (top :: outer) .error
        (Cause.mismatchedBracket (String.singleton top.closingChar)
          (String.singleton bracket.closingChar)).message

namespace ClosingAnswer

variable {bracket : Bracket} {regions : List Bracket} {kind : TokenKind} {value : String}

theorem closing_iff (h : ClosingAnswer bracket regions kind value) :
    kind = .closing bracket ↔ regions.head? = some bracket := by
  cases h with
  | closes outer => simp
  | unmatched => simp
  | mismatched outer hne => simp [hne]

theorem message_ne (found expected other : String) :
    (Cause.unmatchedClosingBracket found).message ≠
      (Cause.mismatchedBracket expected other).message := by
  intro h
  have htexts : "closing bracket " ++ Quoted.quote found ++
      " found without a matching opening bracket" =
    "unmatched bracket: expected " ++ Quoted.quote expected ++ ", found " ++
      Quoted.quote other := h
  have hfirst := congrArg (fun text => text.toList.head?) htexts
  simp at hfirst

theorem unmatched_iff (h : ClosingAnswer bracket regions kind value) :
    kind = .error ∧
        value = (Cause.unmatchedClosingBracket (String.singleton bracket.closingChar)).message ↔
      regions = [] := by
  cases h with
  | closes outer => simp
  | unmatched => simp
  | mismatched outer hne => simp [(message_ne _ _ _).symm]

theorem mismatched_of_ne (h : ClosingAnswer bracket regions kind value) {top : Bracket}
    (htop : regions.head? = some top) (hne : top ≠ bracket) :
    kind = .error ∧ value =
      (Cause.mismatchedBracket (String.singleton top.closingChar)
        (String.singleton bracket.closingChar)).message := by
  cases h with
  | closes outer => exact absurd (Option.some.inj htop).symm hne
  | unmatched => cases htop
  | mismatched outer _ =>
      obtain rfl := Option.some.inj htop
      exact ⟨rfl, rfl⟩

end ClosingAnswer

section Scan

variable {cursor : Cursor} {rest : List Char}

theorem bracket_of_closingChar (bracket : Bracket) (regions : List Bracket)
    (hidle : cursor.Idle) (hahead : cursor.ahead = bracket.closingChar :: rest) :
    ∃ lexeme behind after,
      Lexeme.bracket regions bracket.closingChar cursor = .ok (lexeme, behind) after ∧
      ClosingAnswer bracket regions lexeme.kind lexeme.value ∧
      lexeme.start = cursor.pos ∧ lexeme.stop = cursor.pos + 1 := by
  have hkind : TokenKind.ofBracketChar? bracket.closingChar = some (.closing bracket) := by
    cases bracket <;> rfl
  obtain ⟨between, hbetween⟩ : ∃ between, between = cursor.advance [bracket.closingChar] rest :=
    ⟨_, rfl⟩
  have hnext : Scan.next cursor = .ok (some bracket.closingChar) between := by
    simp only [Scan.next, hahead, hbetween]
  obtain ⟨_, hreads⟩ := Scan.next_eq_ok hahead hnext
  have hstart : between.start = cursor.pos := hreads.start.trans hidle.start
  have hpos : between.pos = cursor.pos + 1 := by
    rw [hreads.pos]
    cases bracket <;> rfl
  have hpending : String.ofList between.pending = String.singleton bracket.closingChar := by
    rw [hreads.pending, hidle.pending, List.nil_append, String.singleton_eq_ofList]
  -- an error leaves the regions as they are
  have herror (cause : Cause) : Lexeme.keeping regions (Lexeme.emitError cause) between =
      .ok (⟨.error, cause.message, cursor.pos, cursor.pos + 1, .start⟩, regions)
        between.release := by
    refine Scan.bind_eq_ok.mpr ⟨_, _, ?_, rfl⟩
    rw [Lexeme.emitError_eq, if_neg (by omega), hstart, hpos]
  cases regions with
  | nil =>
      refine ⟨⟨.error, _, cursor.pos, cursor.pos + 1, .start⟩, [], between.release,
        Scan.bind_eq_ok.mpr ⟨_, _, hnext, ?_⟩, .unmatched, rfl, rfl⟩
      simp only [hkind]
      exact herror _
  | cons top outer =>
      by_cases hfits : top = bracket
      · subst hfits
        refine ⟨⟨.closing top, String.singleton top.closingChar, cursor.pos, cursor.pos + 1,
          .start⟩, outer, between.release.settle, Scan.bind_eq_ok.mpr ⟨_, _, hnext, ?_⟩,
          .closes outer, rfl, rfl⟩
        simp only [hkind, if_pos]
        refine Scan.bind_eq_ok.mpr ⟨_, _, ?_, rfl⟩
        rw [Lexeme.emit, hpending, hstart, hpos]
      · refine ⟨⟨.error, _, cursor.pos, cursor.pos + 1, .start⟩, top :: outer, between.release,
          Scan.bind_eq_ok.mpr ⟨_, _, hnext, ?_⟩, .mismatched outer hfits, rfl, rfl⟩
        simp only [hkind, if_neg hfits]
        exact herror _

/-- A closing bracket is read inside any regions. -/
theorem scan_of_closingChar [Unicode.Repertoire] (bracket : Bracket) (regions : List Bracket)
    (hidle : cursor.Idle) (hahead : cursor.ahead = bracket.closingChar :: rest) :
    ∃ lexeme behind after, Lexeme.scan regions cursor = .ok (lexeme, behind) after ∧
      ClosingAnswer bracket regions lexeme.kind lexeme.value ∧
      lexeme.start = cursor.pos ∧ lexeme.stop = cursor.pos + 1 := by
  have hbegin : Lexeme.beginningWith regions bracket.closingChar =
      Lexeme.bracket regions bracket.closingChar := by
    cases bracket <;> rfl
  rw [Lexeme.scan_of_head regions hahead, hbegin]
  · exact bracket_of_closingChar bracket regions hidle hahead
  · rw [hahead]
    cases bracket <;> rintro ⟨_, ⟨⟩⟩
  · rw [hahead]
    cases bracket <;> rintro ⟨_, ⟨⟩⟩

end Scan

namespace Lexer

variable {lexer : Lexer}

section

variable [Unicode.Repertoire]

/-- Whatever trivia stands in front of a closing bracket, the next token is that of
the bracket. -/
theorem comesTo_closing {gap rest : List Char} {bracket : Bracket} (hmode : lexer.mode ≠ .done)
    (hgap : IsTrivia gap)
    (hahead : lexer.cursor.ahead =
      lexer.mode.closing lexer.cursor.ahead ++ gap ++ bracket.closingChar :: rest) :
    ∃ token offset, lexer.ComesTo token ∧
      ClosingAnswer bracket lexer.regions token.kind token.value ∧
      token.extent = ⟨offset, offset + 1, lexer.file⟩ ∧
      offset =
        lexer.position + Utf8.byteLength (lexer.mode.closing lexer.cursor.ahead ++ gap) := by
  rw [List.append_assoc] at hahead
  obtain ⟨lineBreak, place, happroach, hdrops, hplace, _⟩ :=
    approach_of_gap hahead hgap (by cases bracket <;> decide)
      (by cases bracket <;> rintro ⟨_, ⟨⟩⟩)
  obtain ⟨lexeme, behind, after, hscan, hanswer, hstart, hstop⟩ :=
    scan_of_closingChar bracket lexer.regions hdrops.idle hplace
  refine ⟨lexer.tokenOf lexeme, place.pos,
    comesTo_of_find hmode (find_of_scan_ok happroach hscan), hanswer, ?_, hdrops.pos⟩
  rw [tokenOf, hstart, hstop]

/-- What is open when a lexer is drained is what the tokens left open. -/
theorem drain_regions (source : List UInt8) (file : String) (policy : Separator.Policy) :
    (ofBytes source file policy).drain.lexer.regions =
        openRegions (ofBytes source file policy).drain.result.tokens ∧
      WellNested (ofBytes source file policy).drain.result.tokens := by
  obtain ⟨last, hrun, hlast⟩ := drain_cases (ofBytes source file policy)
  obtain ⟨_, _, hregions, hnested⟩ := hrun.tracks
  refine ⟨Eq.trans ?_ hregions, hnested⟩
  have hframes := step_frames last
  rcases hlast with ⟨token, hresult, heof, _, _, hlexer⟩ | ⟨diagnostic, hresult, _, hlexer⟩
  · rw [hlexer, (hframes.token token hresult).2, heof]
    rfl
  · -- behind the failure the lexer is done, and the end leaves the regions as they are
    have hstep : last.step = ⟨.error diagnostic, last.step.lexer, last.step.consultations⟩ :=
      hresult ▸ rfl
    rw [hlexer, step_of_done (mode_of_error hstep)]
    exact hframes.error diagnostic hresult

/-- **The regions are the bracket history.**  Whatever a fresh lexer is asked, the
regions that it keeps are those that the brackets among its tokens leave open, every
closing bracket among them closes the innermost one, and errors leave them as they
are.  Wherever a call comes to a closing bracket, it becomes a token if its partner is
the innermost region and the error that names what is wrong otherwise.  At the end
the number of regions is that of opening brackets less that of closing ones. -/
theorem session_regions (source : List UInt8) (file : String) (policy : Separator.Policy)
    (requests : List Request) :
    let fresh := ofBytes source file policy
    let session := fresh.session requests
    session.lexer.regions = openRegions session.tokens ∧
    WellNested session.tokens ∧
    (∀ token, session.lexer.step.result = .ok token → token.kind = .error →
      session.lexer.step.lexer.regions = session.lexer.regions) ∧
    (∀ (lexer : Lexer) (gap rest : List Char) (bracket : Bracket), lexer.mode ≠ .done →
      IsTrivia gap →
      lexer.cursor.ahead =
        lexer.mode.closing lexer.cursor.ahead ++ gap ++ bracket.closingChar :: rest →
      ∃ token offset, lexer.ComesTo token ∧
        offset =
          lexer.position + Utf8.byteLength (lexer.mode.closing lexer.cursor.ahead ++ gap) ∧
        token.extent = ⟨offset, offset + 1, lexer.file⟩ ∧
        (token.kind = .closing bracket ↔ lexer.regions.head? = some bracket) ∧
        (token.kind = .error ∧
            token.value =
              (Cause.unmatchedClosingBracket (String.singleton bracket.closingChar)).message ↔
          lexer.regions = []) ∧
        ∀ top, lexer.regions.head? = some top → top ≠ bracket →
          token.kind = .error ∧
            token.value =
              (Cause.mismatchedBracket (String.singleton top.closingChar)
                (String.singleton bracket.closingChar)).message) ∧
    session.lexer.regionDepth + session.tokens.countP (·.kind.isClosing) =
      session.tokens.countP (·.kind.isOpening) ∧
    fresh.drain.lexer.regionDepth + fresh.drain.result.tokens.countP (·.kind.isClosing) =
      fresh.drain.result.tokens.countP (·.kind.isOpening) := by
  intro fresh session
  have htracks : session.Tracks policy := session_tracks source file policy requests
  obtain ⟨hdrained, hdrainedNested⟩ := drain_regions source file policy
  refine ⟨htracks.regions, htracks.nested, fun token hresult hkind => ?_,
    fun lexer gap rest bracket hmode hgap hahead => ?_, ?_, ?_⟩
  · rw [((step_frames session.lexer).token token hresult).2, hkind]
    rfl
  · obtain ⟨token, offset, hcomes, hanswer, hspan, hoffset⟩ := comesTo_closing hmode hgap hahead
    exact ⟨token, offset, hcomes, hoffset, hspan, hanswer.closing_iff, hanswer.unmatched_iff,
      fun top => hanswer.mismatched_of_ne⟩
  · rw [regionDepth, htracks.regions]
    exact htracks.nested.length_openRegions
  · rw [regionDepth, hdrained]
    exact hdrainedNested.length_openRegions

end

/-- A brace that was opened, a bracket in a comment and one that does not fit. -/
theorem session_regions_in_braces :
    let session := (ofString "\x7b /* ) */ ]").session [.call, .lookAhead 1]
    session.lexer.mode ≠ .done ∧
      session.lexer.cursor.ahead =
        session.lexer.mode.closing session.lexer.cursor.ahead ++ " /* ) */ ".toList ++
          Bracket.square.closingChar :: [] ∧
      session.lexer.regions = [.curly] ∧
      ∃ token, session.lexer.ComesTo token ∧ token.kind = .error ∧
        token.value = (Cause.mismatchedBracket "\x7d" "]").message := by
  intro session
  have hmode : session.lexer.mode ≠ .done := by decide +kernel
  have hahead : session.lexer.cursor.ahead =
      session.lexer.mode.closing session.lexer.cursor.ahead ++ " /* ) */ ".toList ++
        Bracket.square.closingChar :: [] := by decide +kernel
  have hregions : session.lexer.regions = [.curly] := by decide +kernel
  have hcomment : CommentTail " ) */".toList :=
    .char (by decide) (by decide) (.char (by decide) (by decide)
      (.char (by decide) (by decide) .close))
  have hgap : IsTrivia (' ' :: '/' :: '*' :: (" ) */".toList ++ [' '])) :=
    .space rfl (.comment hcomment (.space rfl .nil))
  obtain ⟨_, _, _, hclosing, _⟩ := session_regions (Utf8.encode "\x7b /* ) */ ]".toList) defaultFile
    Separator.standard [.call, .lookAhead 1]
  obtain ⟨token, _, hcomes, _, _, _, _, hmismatch⟩ :=
    hclosing session.lexer _ _ _ hmode hgap hahead
  obtain ⟨hkind, hvalue⟩ := hmismatch .curly (by rw [hregions]; rfl) nofun
  exact ⟨hmode, hahead, hregions, token, hcomes, hkind, hvalue⟩

end Lexer

end ScalaLexer

import ScalaLexer.Proofs.Lexer.Decoding
import ScalaLexer.Proofs.Lexer.Invariant

/-!
# Every call comes to an end and gets somewhere

* **A call comes to an end.**  All loops over characters recurse on the text ahead.
  What is left is that a reading behind a line break reads again, first to try the
  next token out and then perhaps to return it.  `dispatchWithin` unfolds this
  recursion a number of times and gives up then, and `dispatchWithin_eq` says that it
  never has to give up: the readings inside a reading are no deeper than one.
* **A call gets somewhere.**  The length of a token is no measure, since there are
  empty ones.  What counts is the text taken from what is ahead, delimiters and
  separators included (`dispatch_drops`), and `Run.position_add_length_le` adds this up
  along a run.
* **The end is the end.**  A lexer that is done stays where it is, whether it is called
  or asked to look ahead (`session_of_done`).

`step_progress` puts this together for every state that a lexer comes to in use.
-/

namespace ScalaLexer

open Trivia

namespace Lexer

variable {lexer after last : Lexer} {token : Token} {tokens : List Token}
  {consultations : List Separator.Consultation}

/-! ## A bounded number of readings -/

variable [Unicode.Repertoire]

/-- Reads as `readToken` does, with at most `fuel` readings inside each other; gives up
where they do not suffice. -/
def readTokenWithin : Nat → Lexer → Option Answer
  | 0, _ => none
  | fuel + 1, lexer =>
    match skipBlanks lexer.cursor with
    | .error fault cursor => some (lexer.fail fault cursor)
    | .ok _ line =>
      if line.ahead.head? = some '\n' then
        match skipLines line with
        | .error fault cursor => some (lexer.fail fault cursor)
        | .ok _ after => do
          let behind := lexer.moveTo after.release
          let trial := behind.trial (← readTokenWithin fuel behind) halt
          match trial.result with
          | .error _ => return trial
          | .ok next =>
            let consultation := trial.lexer.consult next
            let answer ←
              if consultation.decision then
                pure (trial.lexer.deliver (separator line.pos (line.ahead.takeWhile isSpace))
                  trial.lexer.regions)
              else readTokenWithin fuel trial.lexer
            return answer.behind (trial.consultations ++ [consultation])
      else some (lexer.moveTo line).readLexeme

/-- Dispatches with at most `fuel` readings inside each other. -/
def dispatchWithin (fuel : Nat) (lexer : Lexer) : Option Answer :=
  if lexer.mode = .done then some lexer.dispatch
  else
    match lexer.mode.skipClosing lexer.cursor with
    | .error fault cursor => some (lexer.fail fault cursor)
    | .ok _ begin => readTokenWithin fuel (lexer.moveTo begin)

/-- A call with at most `fuel` readings inside each other. -/
def stepWithin (fuel : Nat) (lexer : Lexer) : Option Answer := do
  match ← dispatchWithin fuel lexer with
  | ⟨.ok token, after, consultations⟩ => return ⟨.ok token, after, consultations⟩
  | ⟨.error diagnostic, after, consultations⟩ =>
    return ⟨.error diagnostic, { after with mode := .done }, consultations⟩

/-- Where no line break stands in front of the next lexeme, one reading suffices. -/
theorem readTokenWithin_of_lexeme {line : Cursor} (fuel : Nat)
    (hblanks : skipBlanks lexer.cursor = .ok () line) (hline : line.ahead.head? ≠ some '\n') :
    readTokenWithin (fuel + 1) lexer = some lexer.readToken := by
  rw [readTokenWithin, hblanks, readToken_of_lexeme hblanks hline]
  exact if_neg hline

/-- Two readings inside each other always suffice. -/
theorem readTokenWithin_eq (fuel : Nat) (lexer : Lexer) :
    readTokenWithin (fuel + 2) lexer = some lexer.readToken := by
  rw [readTokenWithin, readToken_eq]
  cases hblanks : skipBlanks lexer.cursor with
  | error fault place => rfl
  | ok _ line =>
      dsimp only
      by_cases hline : line.ahead.head? = some '\n'
      · rw [if_pos hline, if_pos hline]
        cases hlines : skipLines line with
        | error fault place => rfl
        | ok _ place =>
            -- behind the line break there is no other one, and the trial leads back there
            obtain ⟨hnoBlanks, hnoLine⟩ := skipBlanks_behind_lines hlines
            have hinner (behind : Lexer) (hbehind : behind.cursor = place.release) :
                readTokenWithin (fuel + 1) behind = some behind.readToken := by
              rw [← hbehind] at hnoBlanks
              exact readTokenWithin_of_lexeme fuel hnoBlanks (hbehind ▸ hnoLine)
            have hfirst : readTokenWithin (fuel + 1) (lexer.moveTo place.release) = _ :=
              hinner _ rfl
            have hagain := hinner _ (trial_cursor (lexer.moveTo place.release)
              (lexer.moveTo place.release).readToken halt)
            simp only [hfirst, Option.bind_eq_bind, Option.bind_some]
            generalize (lexer.moveTo place.release).trial _ halt = trial at hagain ⊢
            rcases trial with ⟨diagnostic | next, behind, asked⟩
            · rfl
            · dsimp only at hagain ⊢
              rw [hagain]
              split <;> rfl
      · rw [if_neg hline, if_neg hline]

theorem dispatchWithin_eq (fuel : Nat) (lexer : Lexer) :
    dispatchWithin (fuel + 2) lexer = some lexer.dispatch := by
  unfold dispatchWithin
  by_cases hmode : lexer.mode = .done
  · rw [if_pos hmode]
  · rw [if_neg hmode, dispatch_eq_reading hmode, reading]
    cases lexer.mode.skipClosing lexer.cursor with
    | error fault place => rfl
    | ok _ begin => exact readTokenWithin_eq fuel _

theorem stepWithin_eq (fuel : Nat) (lexer : Lexer) :
    stepWithin (fuel + 2) lexer = some lexer.step := by
  rw [stepWithin, dispatchWithin_eq, step]
  rcases lexer.dispatch with ⟨diagnostic | token, after, consultations⟩ <;> rfl

/-! ## Every token takes some text -/

theorem position_lt_of_step (hstep : lexer.step = ⟨.ok token, after, consultations⟩)
    (hkind : token.kind ≠ .eof) : lexer.position < after.position := by
  obtain ⟨run, hdrops, hrun⟩ := dispatch_drops (step_eq_ok.mp hstep)
  have hlength : Utf8.byteLength run ≠ 0 := fun hzero =>
    hrun hkind (Utf8.eq_nil_of_byteLength hzero)
  have hpos : after.position = lexer.position + Utf8.byteLength run := hdrops.pos
  omega

/-- So there are no more tokens in a run than bytes between its ends. -/
theorem Run.position_add_length_le (hrun : Run lexer tokens last) :
    lexer.position + tokens.length ≤ last.position := by
  induction hrun with
  | nil => exact Nat.le_refl _
  | cons hstep hkind _ ih =>
      have hless := position_lt_of_step hstep hkind
      rw [List.length_cons]
      omega

omit [Unicode.Repertoire] in
theorem Settled.limit_le {source : List UInt8} {failed : Bool}
    (hsettled : lexer.Settled source failed) : lexer.cursor.limit ≤ source.length := by
  obtain ⟨⟨before, htext, hstart⟩, hpos, _⟩ := hsettled.state.stands
  have hlength := Utf8.byteLength_decode_le source
  rw [htext, Utf8.byteLength_append, Utf8.byteLength_append, ← hstart, ← hpos] at hlength
  exact hlength

/-- Draining comes to the end that it looks for. -/
theorem drain_eof (lexer : Lexer) :
    ∃ token, lexer.drain.result.eof = some token ∧ token.kind = .eof := by
  induction lexer using call_induction with
  | eof lexer token after consultations hstep hkind =>
      rw [drain_of_eof hstep hkind]
      exact ⟨token, rfl, hkind⟩
  | token lexer token after consultations hstep hkind ih =>
      rw [drain_of_token hstep hkind]
      exact ih
  | error lexer diagnostic after consultations hstep ih =>
      rw [drain_of_error hstep]
      exact ih

theorem drain_length_le {source : List UInt8} {failed : Bool}
    (hsettled : lexer.Settled source failed) :
    lexer.position + lexer.drain.result.tokens.length ≤ source.length := by
  obtain ⟨last, hrun, _⟩ := drain_cases lexer
  calc lexer.position + lexer.drain.result.tokens.length
      ≤ last.position := hrun.position_add_length_le
    _ ≤ last.cursor.limit := Nat.le_add_right _ _
    _ = lexer.cursor.limit := hrun.keeps.limit
    _ ≤ source.length := hsettled.limit_le

/-! ## Behind the end -/

/-- The end and a failure leave nothing to be done. -/
theorem mode_of_step (h : ∀ token, lexer.step.result = .ok token → token.kind = .eof) :
    lexer.step.lexer.mode = .done := by
  rcases hstep : lexer.step with ⟨diagnostic | token, after, consultations⟩
  · exact mode_of_error hstep
  · rw [hstep] at h
    exact (mode_of_dispatch (step_eq_ok.mp hstep)).mpr (h token rfl)

/-- Whatever a lexer is asked when it is done, it stays where it is. -/
theorem session_of_done (hdone : lexer.mode = .done) (requests : List Request) :
    (lexer.session requests).lexer.mode = .done ∧
      (lexer.session requests).lexer.position = lexer.position ∧
      (lexer.session requests).lexer.regions = lexer.regions := by
  induction requests generalizing lexer with
  | nil => exact ⟨hdone, rfl, rfl⟩
  | cons request requests ih =>
      rw [session_cons_lexer]
      cases request with
      | call =>
          obtain ⟨hmode, hposition, hregions⟩ := step_lexer_of_done hdone
          obtain ⟨hlater, hlaterPosition, hlaterRegions⟩ := ih hmode
          exact ⟨hlater, hlaterPosition.trans hposition, hlaterRegions.trans hregions⟩
      | lookAhead n =>
          have hsame : (lexer.reply (.lookAhead n)).lexer = lexer := lookAhead_untouched n lexer
          rw [hsame]
          exact ih hdone

/-! ## In every state -/

/-- However a lexer has been used so far, a call comes to its end within two readings
inside each other, and every token but the end moves the lexer forward.  So draining
comes to the end with at most one token for each byte that is left.  Once a call has
returned the end or failed, whatever is asked, the lexer stays where it is, and so do
its regions, and calls return the end. -/
theorem step_progress (source : List UInt8) (file : String) (policy : Separator.Policy)
    (operations : List Operation) :
    let lexer := ((ofBytes source file policy).usage operations).lexer
    (∀ fuel, 2 ≤ fuel → lexer.stepWithin fuel = some lexer.step) ∧
    (∀ token, lexer.step.result = .ok token → token.kind ≠ .eof →
      lexer.position < lexer.step.lexer.position) ∧
    (∃ token, lexer.drain.result.eof = some token ∧ token.kind = .eof) ∧
    lexer.position + lexer.drain.result.tokens.length ≤ source.length ∧
    ((∀ token, lexer.step.result = .ok token → token.kind = .eof) →
      ∀ requests, let later := (lexer.step.lexer.session requests).lexer
        (∃ token, later.step.result = .ok token ∧ token.kind = .eof) ∧
        later.position = lexer.step.lexer.position ∧
        later.regions = lexer.step.lexer.regions) := by
  intro lexer
  have hfresh : Usage.Settled source ⟨ofBytes source file policy, false, []⟩ :=
    ⟨ofBytes_settled source file policy, nofun⟩
  have hsettled := (hfresh.foldl_perform operations).lexer
  refine ⟨fun fuel hfuel => ?_, fun token htoken hkind => ?_, drain_eof lexer,
    drain_length_le hsettled, fun hlast requests => ?_⟩
  · obtain ⟨more, rfl⟩ := Nat.exists_eq_add_of_le' hfuel
    exact stepWithin_eq more lexer
  · rcases hstep : lexer.step with ⟨diagnostic | found, after, consultations⟩
    · rw [hstep] at htoken
      cases htoken
    · rw [hstep] at htoken
      cases htoken
      exact position_lt_of_step hstep hkind
  · obtain ⟨hmode, hposition, hregions⟩ := session_of_done (mode_of_step hlast) requests
    exact ⟨⟨_, step_result_of_done hmode, rfl⟩, hposition, hregions⟩

end Lexer

end ScalaLexer

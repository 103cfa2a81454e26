import ScalaLexer.Proofs.Lexer.Call

/-!
# Looking ahead is calling without a trace

`Lexer.lookAhead n` makes a trial on each of its `n + 1` levels, and every level
repairs the regions from the kind of its own token.

* **No trace.**  What a level goes on with leaves no trace by induction, so by
  `Frames.trial_lexer` the level leaves none either, whatever was found further
  ahead.
* **The same token.**  A level calls `dispatch` on the lexer behind the token
  before, exactly as the next call would.  Behind a token nothing is pending, so
  only the outermost level can be misused.
-/

namespace ScalaLexer

namespace Lexer

variable {lexer after : Lexer} {token : Token} {consultations : List Separator.Consultation}

/-! ## Calls in a row -/

variable [Unicode.Repertoire]

/-- The outcome of the last of `n + 1` calls; no call is made behind a failure. -/
def nthStep : Nat → Lexer → Except Diagnostic Token
  | 0, lexer => lexer.step.result
  | n + 1, lexer =>
    match lexer.step.result with
    | .error diagnostic => .error diagnostic
    | .ok _ => nthStep n lexer.step.lexer

theorem nthStep_zero (lexer : Lexer) : nthStep 0 lexer = lexer.dispatch.result := by
  unfold nthStep step
  split <;> next h => rw [h]

theorem nthStep_succ_of_error {diagnostic : Diagnostic} (n : Nat)
    (h : lexer.dispatch = ⟨.error diagnostic, after, consultations⟩) :
    nthStep (n + 1) lexer = .error diagnostic := by
  simp only [nthStep, step_eq_error.mpr ⟨after, h, rfl⟩]

theorem nthStep_succ_of_ok (n : Nat) (h : lexer.dispatch = ⟨.ok token, after, consultations⟩) :
    nthStep (n + 1) lexer = nthStep n after := by
  simp only [nthStep, step_eq_ok.mpr h]

/-! ## All levels -/

/-- Nothing is pending behind a token. -/
theorem not_begun_of_dispatch (h : lexer.dispatch = ⟨.ok token, after, consultations⟩) :
    ¬ after.cursor.start < after.cursor.pos := by
  obtain ⟨_, hdrops, _⟩ := dispatch_drops h
  rw [hdrops.idle.start]
  exact Nat.lt_irrefl _

/-- On its way back every level undoes what its own token did to the regions, so that
nothing is left of looking ahead. -/
theorem lookAhead_untouched (n : Nat) (lexer : Lexer) : (lookAhead n lexer).lexer = lexer := by
  induction n generalizing lexer with
  | zero => exact (dispatch_frames lexer).trial_lexer fun _ _ => rfl
  | succ n ih => exact (dispatch_frames lexer).trial_lexer fun _ after => ih after

/-- Looking ahead leaves no trace in the lexer, whatever comes of it. -/
theorem lookAhead_lexer (n : Nat) (lexer : Lexer) : (lookAhead n lexer).lexer = lexer :=
  lookAhead_untouched n lexer

/-- Looking ahead tells what as many calls would return, unless a token has begun. -/
theorem lookAhead_result (n : Nat) (lexer : Lexer) :
    (lookAhead n lexer).result =
      if lexer.cursor.start < lexer.cursor.pos then .error lexer.misuse else nthStep n lexer := by
  induction n generalizing lexer with
  | zero =>
      rw [lookAhead]
      by_cases hbegun : lexer.cursor.start < lexer.cursor.pos
      · rw [if_pos hbegun, trial_of_begun _ hbegun]
      · rw [if_neg hbegun, nthStep_zero]
        rcases lexer.dispatch with ⟨diagnostic | token, after, consultations⟩
        · rw [trial_of_error hbegun]
        · rw [trial_of_ok hbegun]
          rfl
  | succ n ih =>
      rw [lookAhead]
      by_cases hbegun : lexer.cursor.start < lexer.cursor.pos
      · rw [if_pos hbegun, trial_of_begun _ hbegun]
      · rw [if_neg hbegun]
        rcases hcall : lexer.dispatch with ⟨diagnostic | token, after, consultations⟩
        · rw [trial_of_error hbegun, nthStep_succ_of_error n hcall]
        · -- behind a token nothing is pending, so the level below is not misused
          rw [trial_of_ok hbegun, nthStep_succ_of_ok n hcall, ih after,
            if_neg (not_begun_of_dispatch hcall)]

end Lexer

end ScalaLexer

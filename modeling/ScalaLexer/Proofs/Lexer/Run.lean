import ScalaLexer.Lexer.Drain
import ScalaLexer.Proofs.Lexer.Call

/-!
# Runs of calls

Draining a lexer recurses on fuel that stands for the length of what is ahead.
This file takes the fuel out of it.

* **Fuel.**  `callsLeft` bounds the calls up to the one that returns the end, and
  every call before that one makes it smaller.  So `drainWithin_eq_drain`: fuel
  beyond that bound is inert, and `drain` obeys the equations `drain_of_eof`,
  `drain_of_token` and `drain_of_error`.
* **Induction.**  `call_induction` proves a property of all lexers from the calls
  that they make.
* **All at once.**  `tokens_result` says how the tokens that are taken out all at once
  are read off the record that draining keeps.
* **Runs.**  `Run` is a sequence of calls that return tokens.  By `drain_cases` a
  lexer is drained by a run and one more call, which returns the end or fails, and
  by `Run.drain_tokens` every run is the beginning of a draining.
-/

namespace ScalaLexer

namespace Lexer

variable {lexer after : Lexer} {token : Token} {diagnostic : Diagnostic}
  {consultations : List Separator.Consultation}

/-- A fresh lexer has all of the text ahead that its source begins with. -/
theorem ofBytes_cursor (source : List UInt8) (file : String) (policy : Separator.Policy) :
    (ofBytes source file policy).cursor =
      ⟨0, 0, 0, [], (Utf8.decode source).text, (Utf8.decode source).malformed⟩ :=
  rfl

/-! ## What stays the same from call to call -/

/-- The lexer reads the same file up to the same end. -/
structure Keeps (lexer after : Lexer) : Prop where
  file : after.file = lexer.file
  limit : after.cursor.limit = lexer.cursor.limit
  malformed : after.cursor.malformed = lexer.cursor.malformed

theorem keeps_of_step [Unicode.Repertoire]
    (hstep : lexer.step = ⟨.ok token, after, consultations⟩) :
    lexer.Keeps after := by
  have hdispatch := step_eq_ok.mp hstep
  have hframes := hdispatch ▸ dispatch_frames lexer
  obtain ⟨_, hdrops, _⟩ := dispatch_drops hdispatch
  exact ⟨hframes.file, hdrops.limit, hdrops.malformed⟩

theorem not_done_behind_step [Unicode.Repertoire]
    (hstep : lexer.step = ⟨.ok token, after, consultations⟩)
    (hkind : token.kind ≠ .eof) : after.mode ≠ .done := fun hdone =>
  hkind ((mode_of_dispatch (step_eq_ok.mp hstep)).mp hdone)

/-! ## Every call leaves fewer calls -/

/-- A bound on the number of calls up to the one that returns the end. -/
def callsLeft (lexer : Lexer) : Nat :=
  if lexer.mode = .done then 1 else lexer.cursor.ahead.length + 2

theorem callsLeft_of_done (hdone : lexer.mode = .done) : lexer.callsLeft = 1 :=
  if_pos hdone

theorem callsLeft_of_not_done (hmode : lexer.mode ≠ .done) :
    lexer.callsLeft = lexer.cursor.ahead.length + 2 :=
  if_neg hmode

theorem callsLeft_pos (lexer : Lexer) : 0 < lexer.callsLeft := by
  unfold callsLeft
  split <;> omega

theorem callsLeft_le_budget (lexer : Lexer) : lexer.callsLeft ≤ lexer.budget := by
  unfold callsLeft budget
  split <;> omega

variable [Unicode.Repertoire]

/-- A failed call is the last but one. -/
theorem mode_of_error (hstep : lexer.step = ⟨.error diagnostic, after, consultations⟩) :
    after.mode = .done := by
  obtain ⟨_, _, rfl⟩ := step_eq_error.mp hstep
  rfl

/-- Only the end is returned when the lexer is done. -/
theorem not_done_of_step (hstep : lexer.step = ⟨.ok token, after, consultations⟩)
    (hkind : token.kind ≠ .eof) : lexer.mode ≠ .done := by
  intro hdone
  rw [step_of_done hdone] at hstep
  cases hstep
  exact hkind rfl

theorem callsLeft_of_token (hstep : lexer.step = ⟨.ok token, after, consultations⟩)
    (hkind : token.kind ≠ .eof) : after.callsLeft < lexer.callsLeft := by
  have hdispatch := step_eq_ok.mp hstep
  obtain ⟨run, hdrops, hrun⟩ := dispatch_drops hdispatch
  have hafter := not_done_behind_step hstep hkind
  have hlength : lexer.cursor.ahead.length = run.length + after.cursor.ahead.length := by
    rw [hdrops.ahead, List.length_append]
  have hpos := List.length_pos_iff.mpr (hrun hkind)
  rw [callsLeft_of_not_done hafter, callsLeft_of_not_done (not_done_of_step hstep hkind)]
  omega

theorem callsLeft_of_error (hstep : lexer.step = ⟨.error diagnostic, after, consultations⟩) :
    after.callsLeft < lexer.callsLeft := by
  obtain ⟨place, hdispatch, _⟩ := step_eq_error.mp hstep
  rw [callsLeft_of_done (mode_of_error hstep),
    callsLeft_of_not_done (dispatch_fault hdispatch).1]
  omega

/-- A property of all lexers, proved along their calls. -/
theorem call_induction {motive : Lexer → Prop}
    (eof : ∀ lexer token after consultations, lexer.step = ⟨.ok token, after, consultations⟩ →
      token.kind = .eof → motive lexer)
    (token : ∀ lexer token after consultations, lexer.step = ⟨.ok token, after, consultations⟩ →
      token.kind ≠ .eof → motive after → motive lexer)
    (error : ∀ lexer diagnostic after consultations,
      lexer.step = ⟨.error diagnostic, after, consultations⟩ → motive after → motive lexer)
    (lexer : Lexer) : motive lexer := by
  induction hcalls : lexer.callsLeft using Nat.strongRecOn generalizing lexer with
  | _ calls ih =>
      subst hcalls
      rcases hstep : lexer.step with ⟨diagnostic | found, after, consultations⟩
      · exact error _ _ _ _ hstep (ih _ (callsLeft_of_error hstep) after rfl)
      · by_cases hkind : found.kind = .eof
        · exact eof _ _ _ _ hstep hkind
        · exact token _ _ _ _ hstep hkind (ih _ (callsLeft_of_token hstep hkind) after rfl)

/-! ## Fuel beyond the last call is inert -/

theorem drainWithin_succ (fuel : Nat) (hfuel : lexer.callsLeft ≤ fuel) :
    drainWithin (fuel + 1) lexer = drainWithin fuel lexer := by
  -- both sides make the same call and go on with one unit less
  induction fuel generalizing lexer with
  | zero =>
      have hpos := callsLeft_pos lexer
      omega
  | succ fuel ih =>
      rw [drainWithin]
      conv => rhs; rw [drainWithin]
      rcases hstep : lexer.step with ⟨diagnostic | token, after, consultations⟩
      · have hafter := callsLeft_of_error hstep
        dsimp only
        rw [ih (by omega)]
      · by_cases hkind : token.kind = .eof
        · simp only [if_pos hkind]
        · have hafter := callsLeft_of_token hstep hkind
          simp only [if_neg hkind]
          rw [ih (by omega)]

/-- All that suffices is as good as the budget. -/
theorem drainWithin_eq_drain {fuel : Nat} (hfuel : lexer.callsLeft ≤ fuel) :
    drainWithin fuel lexer = lexer.drain := by
  have hleast : ∀ larger, lexer.callsLeft ≤ larger →
      drainWithin larger lexer = drainWithin lexer.callsLeft lexer := by
    intro larger hlarger
    induction hlarger with
    | refl => rfl
    | step hlarger ih => rw [drainWithin_succ _ hlarger, ih]
  rw [hleast fuel hfuel, drain, hleast lexer.budget (callsLeft_le_budget lexer)]

theorem drain_eq (lexer : Lexer) : lexer.drain = drainWithin (lexer.callsLeft + 1) lexer :=
  (drainWithin_eq_drain (Nat.le_succ _)).symm

theorem drain_of_eof (hstep : lexer.step = ⟨.ok token, after, consultations⟩)
    (hkind : token.kind = .eof) :
    lexer.drain = ⟨⟨[], none, some token⟩, after, consultations⟩ := by
  rw [drain_eq, drainWithin, hstep]
  exact if_pos hkind

theorem drain_of_token (hstep : lexer.step = ⟨.ok token, after, consultations⟩)
    (hkind : token.kind ≠ .eof) :
    lexer.drain =
      ⟨{ after.drain.result with tokens := token :: after.drain.result.tokens }, after.drain.lexer,
        consultations ++ after.drain.consultations⟩ := by
  have hafter := callsLeft_of_token hstep hkind
  rw [drain_eq, drainWithin, hstep]
  simp only [if_neg hkind, drainWithin_eq_drain (Nat.le_of_lt hafter)]

theorem drain_of_error (hstep : lexer.step = ⟨.error diagnostic, after, consultations⟩) :
    lexer.drain =
      ⟨{ after.drain.result with failure := some diagnostic }, after.drain.lexer,
        consultations ++ after.drain.consultations⟩ := by
  have hafter := callsLeft_of_error hstep
  rw [drain_eq, drainWithin, hstep]
  simp only [drainWithin_eq_drain (Nat.le_of_lt hafter)]

/-- A lexer that is done has no token left. -/
theorem drain_of_done (hdone : lexer.mode = .done) :
    lexer.drain = ⟨⟨[], none, some lexer.endToken⟩, lexer.step.lexer, []⟩ := by
  have hstep := step_of_done hdone
  rw [drain_of_eof hstep rfl, hstep]

/-! ## All tokens or the reason why not -/

theorem tokensWithin_result {fuel : Nat} (hfuel : lexer.callsLeft ≤ fuel) :
    (tokensWithin fuel lexer).result =
      match lexer.drain.result.failure with
      | some diagnostic => .error diagnostic
      | none => .ok lexer.drain.result.tokens := by
  obtain ⟨fuel, rfl⟩ : ∃ less, fuel = less + 1 :=
    Nat.exists_eq_succ_of_ne_zero (Nat.ne_of_gt (Nat.lt_of_lt_of_le (callsLeft_pos lexer) hfuel))
  induction lexer using call_induction generalizing fuel with
  | eof lexer token after consultations hstep hkind =>
      rw [tokensWithin, hstep, drain_of_eof hstep hkind]
      simp only [if_pos hkind]
  | token lexer token after consultations hstep hkind ih =>
      have hafter := callsLeft_of_token hstep hkind
      have hpos := callsLeft_pos after
      obtain ⟨fuel, rfl⟩ : ∃ less, fuel = less + 1 :=
        Nat.exists_eq_succ_of_ne_zero (by omega)
      rw [tokensWithin, hstep, drain_of_token hstep hkind]
      simp only [if_neg hkind, ih fuel (by omega)]
      cases after.drain.result.failure <;> rfl
  | error lexer diagnostic after consultations hstep =>
      rw [tokensWithin, hstep, drain_of_error hstep]

/-- The tokens are those of the record, unless it holds a failure. -/
theorem tokens_result (lexer : Lexer) :
    lexer.tokens.result =
      match lexer.drain.result.failure with
      | some diagnostic => .error diagnostic
      | none => .ok lexer.drain.result.tokens :=
  tokensWithin_result (callsLeft_le_budget lexer)

/-! ## Runs -/

/-- A sequence of calls that return these tokens, none of which is the end. -/
inductive Run : Lexer → List Token → Lexer → Prop
  | nil (lexer : Lexer) : Run lexer [] lexer
  | cons {lexer after last : Lexer} {token : Token} {tokens : List Token}
      {consultations : List Separator.Consultation} :
      lexer.step = ⟨.ok token, after, consultations⟩ → token.kind ≠ .eof →
      Run after tokens last → Run lexer (token :: tokens) last

theorem Run.keeps {last : Lexer} {tokens : List Token} (hrun : Run lexer tokens last) :
    lexer.Keeps last := by
  induction hrun with
  | nil => exact ⟨rfl, rfl, rfl⟩
  | cons hstep _ _ ih =>
      have hfirst := keeps_of_step hstep
      exact ⟨ih.file.trans hfirst.file, ih.limit.trans hfirst.limit,
        ih.malformed.trans hfirst.malformed⟩

theorem Run.not_done {last : Lexer} {tokens : List Token} (hrun : Run lexer tokens last)
    (hmode : lexer.mode ≠ .done) : last.mode ≠ .done := by
  induction hrun with
  | nil => exact hmode
  | cons hstep hkind _ ih => exact ih (not_done_behind_step hstep hkind)

/-- Draining goes on behind a run with what is left to drain there. -/
theorem Run.drain_tokens {last : Lexer} {tokens : List Token} (hrun : Run lexer tokens last) :
    lexer.drain.result.tokens = tokens ++ last.drain.result.tokens := by
  induction hrun with
  | nil => rfl
  | cons hstep hkind _ ih =>
      rw [drain_of_token hstep hkind, List.cons_append, ← ih]

/-- A lexer is drained by a run and a call that returns the end or fails; behind a
failure one more call returns the end. -/
theorem drain_cases (lexer : Lexer) :
    ∃ last, Run lexer lexer.drain.result.tokens last ∧
      ((∃ token, last.step.result = .ok token ∧ token.kind = .eof ∧
          lexer.drain.result.failure = none ∧ lexer.drain.result.eof = some token ∧
          lexer.drain.lexer = last.step.lexer) ∨
        ∃ diagnostic, last.step.result = .error diagnostic ∧
          lexer.drain.result.failure = some diagnostic ∧
          lexer.drain.lexer = last.step.lexer.step.lexer) := by
  induction lexer using call_induction with
  | eof lexer token after consultations hstep hkind =>
      rw [drain_of_eof hstep hkind]
      exact ⟨lexer, .nil lexer, .inl ⟨token, by rw [hstep], hkind, rfl, rfl, by rw [hstep]⟩⟩
  | token lexer token after consultations hstep hkind ih =>
      obtain ⟨last, hrun, hlast⟩ := ih
      rw [drain_of_token hstep hkind]
      exact ⟨last, .cons hstep hkind hrun, hlast⟩
  | error lexer diagnostic after consultations hstep =>
      -- nothing but the end comes behind a failure
      have hend := drain_of_done (mode_of_error hstep)
      rw [drain_of_error hstep]
      refine ⟨lexer, ?_, .inr ⟨diagnostic, by rw [hstep], rfl, ?_⟩⟩
      · dsimp only
        rw [hend]
        exact .nil lexer
      · rw [hstep, hend]

end Lexer

end ScalaLexer

import ScalaLexer.Proofs.Lexer.Finding
import ScalaLexer.Proofs.Lexer.Run

/-!
# A policy only inserts separators

Two lexers that stand at the same place find the same lexeme there, whatever their
policies are.  So draining them gives the same tokens between the separators, the
same failure and the same end.

Both are compared with a lexer that separates nothing.  One call is then either
matched by a call of that lexer or it inserts a separator (`Alike.step_cases`).  The
lexer behind a separator stands where the other one is about to come to, and the
next calls of the two agree again, so `Alike.drain_sameOutcome` goes by induction
along the calls of the first.
-/

namespace ScalaLexer

/-- The tokens that are no separators. -/
def withoutSeparators (tokens : List Token) : List Token :=
  tokens.filter fun token => !token.kind.isSeparator

/-- The policy that takes no line break for a separator. -/
def Separator.never : Separator.Policy := fun _ => false

namespace Lexer

variable {lexer other : Lexer}

/-! ## One call -/

/-- The two lexers stand at the same place of the same source. -/
structure Alike (lexer other : Lexer) : Prop where
  file : other.file = lexer.file
  cursor : other.cursor = lexer.cursor
  mode : other.mode = lexer.mode
  regions : other.regions = lexer.regions

variable [Unicode.Repertoire]

/-- A lexer that separates nothing answers with what it finds. -/
theorem step_never (hnever : lexer.policy = Separator.never) (hmode : lexer.mode ≠ .done)
    {finding : Finding} (hfind : find lexer.mode lexer.regions lexer.cursor = .ok finding) :
    lexer.step.result = (lexer.deliverFound finding).result ∧
      lexer.step.lexer = (lexer.deliverFound finding).lexer := by
  rw [step_of_find hmode hfind]
  rcases answerTo_cases lexer finding with ⟨asked, hanswer, _⟩ | ⟨line, _, _, hdecision, _⟩
  · rw [hanswer]
    exact ⟨rfl, rfl⟩
  · rw [consult, hnever] at hdecision
    cases hdecision

/-- A call is matched by the call of the lexer that separates nothing, or it inserts
a separator and stands where the other lexer answers as it does now. -/
theorem Alike.step_cases (halike : lexer.Alike other) (hnever : other.policy = Separator.never) :
    (other.step.result = lexer.step.result ∧ lexer.step.lexer.Alike other.step.lexer ∧
        other.step.lexer.policy = Separator.never ∧
        ∀ token, lexer.step.result = .ok token → token.kind.isSeparator = false) ∨
      ∃ token behind, lexer.step.result = .ok token ∧ token.kind.isSeparator = true ∧
        lexer.step.lexer.Alike behind ∧ behind.policy = Separator.never ∧
        behind.step.result = other.step.result ∧ behind.step.lexer = other.step.lexer := by
  obtain ⟨hfile, hcursor, hsame, hregions⟩ := halike
  by_cases hmode : lexer.mode = .done
  · have hother : other.mode = .done := hsame.trans hmode
    rw [step_of_done hmode, step_of_done hother]
    refine .inl ⟨?_, ⟨hfile, ?_, hsame, hregions⟩, hnever, fun token htoken => ?_⟩
    · rw [endToken, endToken, hcursor, hfile]
    · exact congrArg (Cursor.settle ∘ Cursor.release) hcursor
    · cases htoken
      rfl
  · have hother : other.mode ≠ .done := hsame ▸ hmode
    have hplaces : find other.mode other.regions other.cursor =
        find lexer.mode lexer.regions lexer.cursor := by rw [hsame, hregions, hcursor]
    cases hfind : find lexer.mode lexer.regions lexer.cursor with
    | error failure =>
        rw [step_of_find_error hmode hfind, step_of_find_error hother (hplaces.trans hfind)]
        refine .inl ⟨?_, ⟨hfile, rfl, rfl, hregions⟩, hnever, nofun⟩
        rw [diagnosticOf, diagnosticOf, hfile]
    | ok finding =>
        obtain ⟨hresult, hafter⟩ := step_never hnever hother (hplaces.trans hfind)
        have htoken : other.tokenOf finding.lexeme = lexer.tokenOf finding.lexeme := by
          rw [Lexer.tokenOf, Lexer.tokenOf, hfile]
        have hkind := (find_eq_ok hfind).2.isSeparator
        rw [hresult, hafter, step_of_find hmode hfind]
        -- what holds of the answer with the lexeme, whether or not the policy was asked
        have hmatched : (other.deliverFound finding).result = (lexer.deliverFound finding).result ∧
            (lexer.deliverFound finding).lexer.Alike (other.deliverFound finding).lexer ∧
            (other.deliverFound finding).lexer.policy = Separator.never ∧
            ∀ token, (lexer.deliverFound finding).result = .ok token →
              token.kind.isSeparator = false := by
          refine ⟨congrArg Except.ok htoken, ⟨hfile, rfl, rfl, rfl⟩, hnever, fun token hok => ?_⟩
          cases hok
          exact hkind
        rcases answerTo_cases lexer finding with ⟨asked, hanswer, _⟩ | ⟨line, _, hline, _, hanswer⟩
        · rw [hanswer]
          exact .inl hmatched
        · -- the lexer that separates nothing, moved behind the separator
          rw [hanswer]
          refine .inr ⟨_, { other.moveTo finding.place with mode := .start }, rfl,
            separator_isSeparator line.pos _, ⟨hfile, rfl, rfl, hregions⟩, hnever, ?_⟩
          have hbehind : find .start other.regions finding.place =
              .ok { finding with lineBreak := none } := by
            rw [hregions]
            exact find_again hfind hline
          have hlexeme := @step_never { other.moveTo finding.place with mode := .start } _ hnever
            nofun _ hbehind
          exact hlexeme

/-! ## All calls -/

/-- The same came of both but for the separators. -/
structure SameOutcome (one other : Reply Transcript) : Prop where
  tokens : withoutSeparators one.result.tokens = withoutSeparators other.result.tokens
  failure : one.result.failure = other.result.failure
  eof : one.result.eof = other.result.eof
  position : one.lexer.position = other.lexer.position
  regions : one.lexer.regions = other.lexer.regions

omit [Unicode.Repertoire] in
theorem SameOutcome.symm {one other : Reply Transcript} (h : SameOutcome one other) :
    SameOutcome other one :=
  ⟨h.tokens.symm, h.failure.symm, h.eof.symm, h.position.symm, h.regions.symm⟩

omit [Unicode.Repertoire] in
theorem SameOutcome.trans {one other third : Reply Transcript} (h : SameOutcome one other)
    (hnext : SameOutcome other third) : SameOutcome one third :=
  ⟨h.tokens.trans hnext.tokens, h.failure.trans hnext.failure, h.eof.trans hnext.eof,
    h.position.trans hnext.position, h.regions.trans hnext.regions⟩

/-- Draining depends on the first call through its token and the lexer behind it. -/
theorem drain_sameOutcome_of_step (hresult : lexer.step.result = other.step.result)
    (hlexer : lexer.step.lexer = other.step.lexer) : SameOutcome lexer.drain other.drain := by
  rcases hstep : lexer.step with ⟨result, after, consultations⟩
  rcases hother : other.step with ⟨result', after', consultations'⟩
  rw [hstep, hother] at hresult hlexer
  dsimp only at hresult hlexer
  subst hresult hlexer
  cases result with
  | error diagnostic =>
      rw [drain_of_error hstep, drain_of_error hother]
      exact ⟨rfl, rfl, rfl, rfl, rfl⟩
  | ok token =>
      by_cases hkind : token.kind = .eof
      · rw [drain_of_eof hstep hkind, drain_of_eof hother hkind]
        exact ⟨rfl, rfl, rfl, rfl, rfl⟩
      · rw [drain_of_token hstep hkind, drain_of_token hother hkind]
        exact ⟨rfl, rfl, rfl, rfl, rfl⟩

theorem step_eq_of_result {result : Except Diagnostic Token}
    (hresult : lexer.step.result = result) :
    lexer.step = ⟨result, lexer.step.lexer, lexer.step.consultations⟩ := by
  rw [← hresult]

theorem Alike.drain_sameOutcome (halike : lexer.Alike other)
    (hnever : other.policy = Separator.never) : SameOutcome lexer.drain other.drain := by
  induction lexer using call_induction generalizing other with
  | eof lexer token after consultations hstep hkind =>
      rcases halike.step_cases hnever with ⟨hresult, hafter, _⟩ | ⟨found, _, hfound, hseparator, _⟩
      · rw [hstep] at hresult hafter
        rw [drain_of_eof hstep hkind, drain_of_eof (step_eq_of_result hresult) hkind]
        exact ⟨rfl, rfl, rfl, congrArg Cursor.pos hafter.cursor.symm, hafter.regions.symm⟩
      · rw [hstep] at hfound
        cases hfound
        rw [hkind] at hseparator
        cases hseparator
  | token lexer token after consultations hstep hkind ih =>
      rcases halike.step_cases hnever with
        ⟨hresult, hafter, hsame, hkept⟩ | ⟨found, behind, hfound, hseparator, hafter, hsame, hnext⟩
      · rw [hstep] at hresult hafter hkept
        obtain ⟨htokens, hfailure, heof, hposition, hregions⟩ := ih hafter hsame
        rw [drain_of_token hstep hkind, drain_of_token (step_eq_of_result hresult) hkind]
        refine ⟨?_, hfailure, heof, hposition, hregions⟩
        simp only [withoutSeparators, List.filter_cons, hkept token rfl]
        exact congrArg (token :: ·) htokens
      · -- the separator is left out, and the other lexer has not moved yet
        rw [hstep] at hfound hafter
        cases hfound
        have hrest := (ih hafter hsame).trans (drain_sameOutcome_of_step hnext.1 hnext.2)
        rw [drain_of_token hstep hkind]
        refine ⟨?_, hrest.failure, hrest.eof, hrest.position, hrest.regions⟩
        simp only [withoutSeparators, List.filter_cons, hseparator]
        exact hrest.tokens
  | error lexer diagnostic after consultations hstep ih =>
      rcases halike.step_cases hnever with ⟨hresult, hafter, hsame, _⟩ | ⟨found, _, hfound, _⟩
      · rw [hstep] at hresult hafter
        obtain ⟨htokens, _, heof, hposition, hregions⟩ := ih hafter hsame
        rw [drain_of_error hstep, drain_of_error (step_eq_of_result hresult)]
        exact ⟨htokens, rfl, heof, hposition, hregions⟩
      · rw [hstep] at hfound
        cases hfound

/-- Two policies differ in the separators alone, whatever the source is. -/
theorem drain_policies (source : List UInt8) (file : String) (policy other : Separator.Policy) :
    let drained := (ofBytes source file policy).drain
    let another := (ofBytes source file other).drain
    withoutSeparators drained.result.tokens = withoutSeparators another.result.tokens ∧
      drained.result.failure = another.result.failure ∧
      drained.result.eof = another.result.eof ∧
      drained.lexer.position = another.lexer.position ∧
      drained.lexer.regionDepth = another.lexer.regionDepth := by
  intro drained another
  have hnever (policy : Separator.Policy) :
      SameOutcome (ofBytes source file policy).drain (ofBytes source file Separator.never).drain :=
    Alike.drain_sameOutcome ⟨rfl, rfl, rfl, rfl⟩ rfl
  obtain ⟨htokens, hfailure, heof, hposition, hregions⟩ := (hnever policy).trans (hnever other).symm
  exact ⟨htokens, hfailure, heof, hposition, congrArg List.length hregions⟩

end Lexer

end ScalaLexer

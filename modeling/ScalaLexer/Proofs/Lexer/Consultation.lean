import ScalaLexer.Proofs.Lexer.Finding
import ScalaLexer.Proofs.Lexer.Session

/-!
# What the policy is told

A call asks the policy at most once, about the first line break in front of the
lexeme that it finds.  The token that the policy is told about is a promise: it is
the answer of this call if the policy declines the line break, and the answer of the
call behind the separator if it takes it.

The lexeme is only tried out before the policy is asked, by a lexer that remembers
another token than the one that reads it in the end.  That this makes no difference
is what `find` shows by its type.
-/

namespace ScalaLexer

namespace Lexer

variable {lexer : Lexer}

/-- The policy is not asked, or it is asked once about a token that then follows. -/
theorem step_consultations_cases [Unicode.Repertoire] (lexer : Lexer) :
    lexer.step.consultations = [] ∨
      ∃ next : Token, lexer.step.consultations = [lexer.consult next] ∧
        next.kind.isSeparator = false ∧
        if (lexer.consult next).decision then
          (∃ token, lexer.step.result = .ok token ∧ token.kind.isSeparator = true) ∧
            lexer.step.lexer.step.result = .ok next ∧ lexer.step.lexer.step.consultations = []
        else lexer.step.result = .ok next := by
  by_cases hmode : lexer.mode = .done
  · exact .inl (by rw [step_of_done hmode])
  · cases hfind : find lexer.mode lexer.regions lexer.cursor with
    | error failure => exact .inl (by rw [step_of_find_error hmode hfind])
    | ok finding =>
        have hstep := step_of_find hmode hfind
        cases hline : finding.lineBreak with
        | none => exact .inl (by rw [hstep, answerTo_of_none hline]; rfl)
        | some line =>
            have hkind := (find_eq_ok hfind).2.isSeparator
            rw [answerTo_of_some hline] at hstep
            refine .inr ⟨lexer.tokenOf finding.lexeme, by rw [hstep]; split <;> rfl, hkind, ?_⟩
            split
            · next hdecision =>
                rw [if_pos hdecision] at hstep
                have hnext := step_behind_break hfind hline
                rw [hstep]
                refine ⟨⟨_, rfl, separator_isSeparator line.pos _⟩, ?_⟩
                change (lexer.deliverBreak finding line).lexer.step.result = _ ∧
                  (lexer.deliverBreak finding line).lexer.step.consultations = []
                rw [hnext]
                exact ⟨rfl, rfl⟩
            · next hdecision =>
                rw [hstep, if_neg hdecision]
                rfl

/-- However a lexer has been used so far, a call asks its policy at most once.  The
policy is told the last token that counts, the innermost open region, and the token
that follows: at once if the policy says no, behind a separator if it says yes. -/
theorem step_consultations [Unicode.Repertoire] (source : List UInt8) (file : String)
    (policy : Separator.Policy) (requests : List Request) :
    let session := (ofBytes source file policy).session requests
    let call := session.lexer.step
    call.consultations = [] ∨
      ∃ next : Token, next.kind.isSeparator = false ∧
        let context : Separator.Context :=
          { previous := lastSignificant session.tokens
            next
            region := session.lexer.regions.head?.map .opening }
        call.consultations = [⟨context, policy context⟩] ∧
        if policy context then
          (∃ token, call.result = .ok token ∧ token.kind.isSeparator = true) ∧
            call.lexer.step.result = .ok next ∧ call.lexer.step.consultations = []
        else call.result = .ok next := by
  intro session call
  obtain ⟨hpolicy, hlast, _, _⟩ := session_tracks source file policy requests
  rcases step_consultations_cases session.lexer with hnone | ⟨next, hasked, hkind, hnext⟩
  · exact .inl hnone
  · have hconsult : session.lexer.consult next = Separator.consult policy
        { previous := lastSignificant session.tokens
          next
          region := session.lexer.regions.head?.map .opening } := by
      rw [consult, hpolicy, hlast]
    rw [hconsult] at hasked hnext
    exact .inr ⟨next, hkind, hasked, hnext⟩

end Lexer

end ScalaLexer

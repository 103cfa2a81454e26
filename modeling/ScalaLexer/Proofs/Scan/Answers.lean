import ScalaLexer.Proofs.Scan.Routine

/-!
# What a routine can answer

A routine ends in one of a few lexemes, whatever it has read before.  So a property of
its answer is a property of the lexemes that it ends in (`Scan.Answers`), and there is one
lemma for each routine that names them.
-/

namespace ScalaLexer

/-- All that the scan can answer has the property. -/
def Scan.Answers {α : Type} (property : α → Prop) (scan : Scan α) : Prop :=
  ∀ ⦃cursor value after⦄, scan cursor = .ok value after → property value

namespace Scan.Answers

variable {α β : Type} {property : β → Prop}

theorem bind {scan : Scan α} {next : α → Scan β} (hnext : ∀ value, Answers property (next value)) :
    Answers property (scan >>= next) := by
  intro _ _ _ h
  obtain ⟨value, _, _, hrest⟩ := Scan.bind_eq_ok.mp h
  exact hnext value hrest

theorem ite {condition : Prop} [Decidable condition] {yes no : Scan β}
    (hyes : Answers property yes) (hno : Answers property no) :
    Answers property (if condition then yes else no) := by
  split
  · exact hyes
  · exact hno

end Scan.Answers

namespace Lexeme

open Scan (Answers)

variable {property : Lexeme → Prop} {kind : TokenKind} {resume : Mode} {cause : Cause}

theorem emit_answers (h : ∀ value start stop, property ⟨kind, value, start, stop, resume⟩) :
    Answers property (emit kind resume) := by
  intro _ _ _ hemit
  cases hemit
  exact h ..

theorem emitError_answers
    (h : ∀ start stop, property ⟨.error, cause.message, start, stop, .start⟩) :
    Answers property (emitError cause) := by
  intro _ _ _ herror
  obtain ⟨_, _, _, _, rfl, _⟩ := emitError_eq_ok herror
  exact h ..

theorem keeping_answers {routine : Scan Lexeme} (regions : List Bracket)
    (h : Answers property routine) :
    Answers (fun found => property found.1) (keeping regions routine) :=
  fun _ _ _ hkeeping => h (keeping_eq_ok hkeeping).1

/-! ## The routines -/

theorem string_answers (hemit : Answers property (emit .string .closingQuote))
    (herror : Answers property (emitError .unterminatedString)) : Answers property string :=
  .bind fun _ => .bind fun _ => .ite hemit herror

theorem multiLineString_answers (hemit : Answers property (emit .string .closingTripleQuote))
    (herror : Answers property (emitError .unterminatedMultiLineString)) :
    Answers property multiLineString :=
  .bind fun _ => .bind fun _ => .ite hemit herror

theorem quotedIdentifier_answers (hemit : Answers property (emit .identifier .closingQuote))
    (herror : Answers property (emitError .unterminatedQuotedIdentifier)) :
    Answers property quotedIdentifier :=
  .bind fun _ => .bind fun _ => .ite hemit herror

theorem character_answers (hemit : Answers property (emit .character .closingQuote))
    (herror : ∀ text, Answers property (emitError (.unterminatedCharacter text))) :
    Answers property character :=
  .bind fun _ => .bind fun _ => .bind fun _ => .ite hemit (.bind herror)

theorem word_answers [Unicode.Repertoire]
    (hemit : ∀ text, Answers property (emit (.ofWord text) .start))
    (herror : ∀ text, Answers property (emitError (.unknownLexeme text))) :
    Answers property word :=
  .bind fun _ => .ite (.bind hemit) (.bind herror)

theorem symbol_answers [Unicode.Repertoire] (hemit : Answers property (emit .symbol .start))
    (herror : ∀ text, Answers property (emitError (.unknownLexeme text))) :
    Answers property symbol :=
  .bind fun _ => .ite hemit (.bind herror)

theorem ofNumber_answers (wellFormed : Bool) (hemit : Answers property (emit .number .start))
    (herror : ∀ text, Answers property (emitError (.malformedNumber text))) :
    Answers property (ofNumber wellFormed) :=
  .ite hemit (.bind herror)

theorem dot_answers (hemit : Answers property (emit .dot .start))
    (hnumber : Answers property (emit .number .start))
    (herror : ∀ text, Answers property (emitError (.malformedNumber text))) :
    Answers property dot :=
  .bind fun _ => .bind fun _ =>
    .ite (.bind fun wellFormed => ofNumber_answers wellFormed hnumber herror) hemit

end Lexeme

end ScalaLexer

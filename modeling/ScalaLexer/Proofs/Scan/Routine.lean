import ScalaLexer.Proofs.Scan.Reading
import ScalaLexer.Scan.Lexeme

/-!
# What all lexemes have in common

A routine is a scan that ends in a lexeme: it reads, forgets an opening quote
perhaps, and in the end turns what is pending into a lexeme or an error.  As in
`Reading.lean`, `Lexeme.Routine` is the class of these scans, `Lexeme.Paired` adds
the regions that are open behind the lexeme, and `Lexeme.scan_paired` says that
`Lexeme.scan` belongs to it.  What holds of all plain scans holds of it as well: it
fails at the malformed byte only (`Paired.fault`), and what succeeds in front of that
byte succeeds in front of the end (`Paired.ok_truncated`).
-/

namespace ScalaLexer

namespace Lexeme

open Scan (Plain)

variable {cursor after : Cursor} {lexeme : Lexeme}

/-- A scan for one lexeme.  It knows where it is only in order to say so in the
lexeme. -/
inductive Routine : Scan Lexeme → Prop
  | emit (kind : TokenKind) (resume : Mode) : Routine (emit kind resume)
  | emitError (cause : Cause) : Routine (emitError cause)
  | bind {α : Type} {scan : Scan α} {next : α → Scan Lexeme} :
      Plain scan → (∀ value, Routine (next value)) → Routine (scan >>= next)
  | get {next : Cursor → Scan Lexeme} : (∀ cursor, Routine (next cursor)) →
      (∀ cursor other : Cursor, cursor.pending = other.pending → cursor.ahead = other.ahead →
        next cursor = next other) → Routine (get >>= next)
  | release {rest : Scan Lexeme} : Routine rest → Routine (Scan.release >>= fun _ => rest)
  | skip {rest : Scan Lexeme} : Routine rest → Routine (Scan.skip >>= fun _ => rest)

/-- A scan for one lexeme and the regions that are open behind it. -/
inductive Paired : Scan (Lexeme × List Bracket) → Prop
  | keeping (regions : List Bracket) {routine : Scan Lexeme} : Routine routine →
      Paired (keeping regions routine)
  | bind {α : Type} {scan : Scan α} {next : α → Scan (Lexeme × List Bracket)} :
      Plain scan → (∀ value, Paired (next value)) → Paired (scan >>= next)

theorem Routine.ite {condition : Prop} [Decidable condition] {yes no : Scan Lexeme}
    (hyes : Routine yes) (hno : Routine no) : Routine (if condition then yes else no) := by
  split
  · exact hyes
  · exact hno

theorem Paired.ite {condition : Prop} [Decidable condition]
    {yes no : Scan (Lexeme × List Bracket)} (hyes : Paired yes) (hno : Paired no) :
    Paired (if condition then yes else no) := by
  split
  · exact hyes
  · exact hno

/-! ## The last step of a routine -/

/-- What is read before an error is one character where nothing is pending. -/
theorem emitError_eq (cause : Cause) (cursor : Cursor) :
    emitError cause cursor =
      if cursor.pos ≤ cursor.start then
        match Scan.next cursor with
        | .ok _ between =>
          .ok ⟨.error, cause.message, cursor.start, between.pos, .start⟩ between.release
        | .error fault between => .error fault between
      else .ok ⟨.error, cause.message, cursor.start, cursor.pos, .start⟩ cursor.release := by
  unfold emitError
  by_cases hpending : cursor.pos ≤ cursor.start
  · simp only [if_pos hpending]
    change (if cursor.pos ≤ cursor.start then _ else _ : Scan Lexeme) cursor = _
    rw [if_pos hpending]
    simp only [bind, EStateM.bind]
    cases Scan.next cursor <;> rfl
  · simp only [if_neg hpending]
    change (if cursor.pos ≤ cursor.start then _ else _ : Scan Lexeme) cursor = _
    rw [if_neg hpending]
    rfl

theorem emitError_eq_ok {cause : Cause} (h : emitError cause cursor = .ok lexeme after) :
    ∃ run between, cursor.Reads run between ∧
      (cursor.pos ≤ cursor.start → cursor.ahead ≠ [] → run ≠ []) ∧
      lexeme = ⟨.error, cause.message, cursor.start, between.pos, .start⟩ ∧
      after = between.release := by
  rw [emitError_eq] at h
  split at h
  · split at h
    · next hnext =>
        cases h
        cases hahead : cursor.ahead with
        | nil =>
            obtain ⟨run, hreads⟩ := Plain.next.reads hnext
            exact ⟨run, _, hreads, fun _ hne => absurd rfl hne, rfl, rfl⟩
        | cons c rest =>
            obtain ⟨_, hreads⟩ := Scan.next_eq_ok hahead hnext
            exact ⟨[c], _, hreads, nofun, rfl, rfl⟩
    · cases h
  · next hpending =>
      cases h
      exact ⟨[], _, .refl cursor, fun hidle => absurd hidle hpending, rfl, rfl⟩

theorem emitError_fault {cause : Cause} {fault : Fault}
    (h : emitError cause cursor = .error fault after) :
    cursor.Blames fault := by
  rw [emitError_eq] at h
  split at h
  · split at h
    · cases h
    · next hnext =>
        cases h
        exact Plain.next.fault hnext
  · cases h

theorem emitError_ok_truncated {cause : Cause} (h : emitError cause cursor = .ok lexeme after) :
    emitError cause cursor.truncated = .ok lexeme after.truncated := by
  rw [emitError_eq] at h ⊢
  split at h
  · next hidle =>
      rw [if_pos (show cursor.truncated.pos ≤ cursor.truncated.start from hidle)]
      split at h
      · next hnext =>
          cases h
          rw [Plain.next.ok_truncated hnext]
          rfl
      · cases h
  · next hpending =>
      cases h
      rw [if_neg (show ¬ cursor.truncated.pos ≤ cursor.truncated.start from hpending)]
      rfl

/-! ## Routines fail and succeed as plain scans do -/

theorem Routine.fault {routine : Scan Lexeme} {fault : Fault} (hroutine : Routine routine)
    (h : routine cursor = .error fault after) : cursor.Blames fault := by
  induction hroutine generalizing cursor after with
  | emit kind resume => cases h
  | emitError cause => exact emitError_fault h
  | bind hscan _ ih => exact hscan.bind_fault (fun value _ => ih value) h
  | get _ _ ih => exact ih cursor h
  | @release rest _ ih =>
      have hrest : rest cursor.release = .error fault after := h
      have hblames := ih hrest
      exact ⟨hblames.byte, hblames.offset⟩
  | skip _ ih =>
      rcases Scan.bind_eq_error.mp h with hfail | ⟨_, _, hok, hfail⟩
      · exact Scan.skip_fault hfail
      · exact (ih hfail).of_drops (Scan.skip_eq_ok hok)

theorem Routine.ok_truncated {routine : Scan Lexeme} (hroutine : Routine routine)
    (h : routine cursor = .ok lexeme after) :
    routine cursor.truncated = .ok lexeme after.truncated := by
  induction hroutine generalizing cursor after with
  | emit kind resume =>
      cases h
      rfl
  | emitError cause => exact emitError_ok_truncated h
  | bind hscan _ ih => exact hscan.bind_ok_truncated (fun value _ => ih value) h
  | get _ hlocal ih =>
      have hnext := ih cursor h
      rw [hlocal cursor cursor.truncated rfl rfl] at hnext
      exact hnext
  | release _ ih => exact ih h
  | skip _ ih =>
      obtain ⟨_, between, hok, hnext⟩ := Scan.bind_eq_ok.mp h
      exact Scan.bind_eq_ok.mpr ⟨_, _, Scan.skip_ok_truncated hok, ih hnext⟩

variable {paired : Scan (Lexeme × List Bracket)} {found : Lexeme × List Bracket}

theorem keeping_eq_ok {regions : List Bracket} {routine : Scan Lexeme}
    (h : keeping regions routine cursor = .ok found after) :
    routine cursor = .ok found.1 after ∧ found.2 = regions := by
  obtain ⟨lexeme, between, hroutine, hpure⟩ := Scan.bind_eq_ok.mp h
  obtain ⟨rfl, rfl⟩ := Scan.pure_eq_ok.mp hpure
  exact ⟨hroutine, rfl⟩

theorem Paired.fault {fault : Fault} (hpaired : Paired paired)
    (h : paired cursor = .error fault after) :
    cursor.Blames fault := by
  induction hpaired generalizing cursor after with
  | keeping regions hroutine =>
      rcases Scan.bind_eq_error.mp h with hfail | ⟨_, _, _, hfail⟩
      · exact hroutine.fault hfail
      · cases hfail
  | bind hscan _ ih => exact hscan.bind_fault (fun value _ => ih value) h

theorem Paired.ok_truncated (hpaired : Paired paired) (h : paired cursor = .ok found after) :
    paired cursor.truncated = .ok found after.truncated := by
  induction hpaired generalizing cursor after with
  | keeping regions hroutine =>
      obtain ⟨hok, rfl⟩ := keeping_eq_ok h
      exact Scan.bind_eq_ok.mpr ⟨_, _, hroutine.ok_truncated hok, rfl⟩
  | bind hscan _ ih => exact hscan.bind_ok_truncated (fun value _ => ih value) h

/-! ## Every lexeme is read by a routine -/

theorem lineComment_routine : Routine lineComment :=
  .bind (.readWhile _) fun _ => .emit ..

theorem string_routine : Routine string :=
  .bind (.readPart Literal.splitEscaped_append) fun _ => .bind (.peek 0) fun _ =>
    .ite (.emit ..) (.emitError _)

theorem multiLineString_routine : Routine multiLineString :=
  .bind (.readPart Literal.splitTripleQuoted_append) fun _ => .bind (.startsWith _) fun _ =>
    .ite (.emit ..) (.emitError _)

theorem quotedIdentifier_routine : Routine quotedIdentifier :=
  .bind (.readWhile _) fun _ => .bind (.peek 0) fun _ => .ite (.emit ..) (.emitError _)

theorem character_routine : Routine character :=
  .bind (.accept _) fun _ => .bind .next fun _ => .bind (.peek 0) fun _ =>
    .ite (.emit ..) (.bind .pending fun _ => .emitError _)

variable [Unicode.Repertoire]

theorem operatorSuffix_plain : Plain operatorSuffix :=
  .get (fun _ => .ite (.readWhile _) (.pure _)) fun _ _ hpending _ => by rw [hpending]

theorem plainIdentifier_plain : Plain plainIdentifier :=
  .bind (.peek 0) fun _ => .ite (.bind (.readWhile _) fun _ => .pure true)
    (.bind (.accept _) fun _ =>
      .ite (.bind (.readWhile _) fun _ => .bind operatorSuffix_plain fun _ => .pure true)
        (.pure false))

theorem word_routine : Routine word :=
  .bind plainIdentifier_plain fun _ => .ite (.bind .pending fun _ => .emit ..)
    (.bind .pending fun _ => .emitError _)

theorem symbol_routine : Routine symbol :=
  .bind plainIdentifier_plain fun _ => .ite (.emit ..) (.bind .pending fun _ => .emitError _)

omit [Unicode.Repertoire] in
theorem atCharacter_plain : Plain atCharacter :=
  .bind (.peek 2) fun _ => .ite (.pure true)
    (.bind (.peek 1) fun _ => .ite (.bind (.peek 3) fun _ => .pure _) (.pure false))

theorem singleQuoted_routine : Routine singleQuoted :=
  .bind atCharacter_plain fun _ => .ite (.skip character_routine)
    (.bind .next fun _ => symbol_routine)

omit [Unicode.Repertoire] in
theorem ofNumber_routine (wellFormed : Bool) : Routine (ofNumber wellFormed) :=
  .ite (.emit ..) (.bind .pending fun _ => .emitError _)

omit [Unicode.Repertoire] in
theorem dot_routine : Routine dot :=
  .bind .next fun _ => .bind (.peek 0) fun _ =>
    .ite (.bind Literal.fraction_plain ofNumber_routine) (.emit ..)

theorem operator_routine (c : Char) : Routine (operator c) := by
  refine .get (fun cursor => ?_) fun _ _ _ hahead => by rw [hahead]
  cases reservedOperator? cursor.ahead with
  | some entry => exact .bind (.readExactly _) fun _ => .emit ..
  | none => exact .ite (.bind (.readWhile _) fun _ => .emit ..) (.emitError _)

omit [Unicode.Repertoire] in
theorem bracket_paired (regions : List Bracket) (c : Char) : Paired (bracket regions c) := by
  refine .bind .next fun _ => ?_
  split
  · exact .keeping _ (.emit ..)
  · split
    · exact .keeping _ (.emitError _)
    · exact .ite (.keeping _ (.emit ..)) (.keeping _ (.emitError _))
  · exact .keeping _ (.emitError _)

theorem beginningWith_paired (regions : List Bracket) (c : Char) :
    Paired (beginningWith regions c) :=
  .ite (.keeping _ singleQuoted_routine) <|
  .ite (.keeping _ word_routine) <|
  .ite (.keeping _ (.bind Literal.number_plain ofNumber_routine)) <|
  .ite (.keeping _ (.skip string_routine)) <|
  .ite (bracket_paired regions c) <|
  .ite (.keeping _ (.bind .next fun _ => .emit ..)) <|
  .ite (.keeping _ dot_routine) <|
  .ite (.keeping _ (.skip quotedIdentifier_routine)) <|
  .keeping _ (operator_routine c)

theorem scan_paired (regions : List Bracket) : Paired (scan regions) := by
  refine .bind (.startsWith _) fun _ => .ite (.keeping _ lineComment_routine) ?_
  refine .bind (.startsWith _) fun _ => .ite (.keeping _ ?_) ?_
  · exact .bind (.readExactly 3) fun _ => .release multiLineString_routine
  · refine .bind (.peek 0) fun c? => ?_
    cases c? with
    | some c => exact beginningWith_paired regions c
    | none => exact .keeping _ (.emit ..)

end Lexeme

end ScalaLexer

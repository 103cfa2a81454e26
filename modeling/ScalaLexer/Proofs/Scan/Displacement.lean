import ScalaLexer.Proofs.Scan.LexemeLocality
import ScalaLexer.Proofs.Scan.Standing

/-!
# Scans do not look behind

A scan knows where it is only in order to say so.  So it does the same at any other
place where the same characters are pending and the same text is ahead, whether it
succeeds or fails, and what it says about places is displaced.

`Cursor.Displaced k` relates two such places that lie `k` bytes apart.  `Scan.Alike k`
relates what two scans come to there; it is closed under sequencing (`Alike.bind`), and
it holds of all primitives.  So it holds of plain scans, of routines and of
`Lexeme.scan` (`Lexeme.scan_alike`), and of the ways in which trivia is skipped.

The length of the character read last is not compared, since no scan looks at it.
-/

namespace ScalaLexer

/-- The same fault `k` bytes further behind. -/
def Fault.shift (k : Nat) (fault : Fault) : Fault :=
  { fault with offset := fault.offset + .ofNat k }

namespace Cursor

/-- The second cursor stands `k` bytes further behind than the first one, with the same
text pending and ahead. -/
structure Displaced (k : Nat) (cursor cursor' : Cursor) : Prop where
  start : cursor'.start = cursor.start + k
  pos : cursor'.pos = cursor.pos + k
  pending : cursor'.pending = cursor.pending
  ahead : cursor'.ahead = cursor.ahead
  malformed : cursor'.malformed = cursor.malformed

namespace Displaced

variable {k : Nat} {cursor cursor' : Cursor}

theorem settle (h : cursor.Displaced k cursor') : cursor.settle.Displaced k cursor'.settle :=
  ⟨h.start, h.pos, h.pending, h.ahead, h.malformed⟩

theorem release (h : cursor.Displaced k cursor') : cursor.release.Displaced k cursor'.release :=
  ⟨h.pos, h.pos, rfl, h.ahead, h.malformed⟩

theorem advance (h : cursor.Displaced k cursor') (run rest : List Char) :
    (cursor.advance run rest).Displaced k (cursor'.advance run rest) where
  start := h.start
  pos := by
    change cursor'.pos + _ = cursor.pos + _ + k
    rw [h.pos]
    omega
  pending := congrArg (· ++ run) h.pending
  ahead := rfl
  malformed := h.malformed

theorem releaseBefore (h : cursor.Displaced k cursor') {text : List Char}
    (hroom : Utf8.byteLength text ≤ cursor.pos) :
    (cursor.releaseBefore text).Displaced k (cursor'.releaseBefore text) where
  start := by
    change cursor'.pos - _ = cursor.pos - _ + k
    rw [h.pos]
    omega
  pos := h.pos
  pending := rfl
  ahead := h.ahead
  malformed := h.malformed

end Displaced

end Cursor

namespace Scan

variable {α β γ δ : Type} {k : Nat} {cursor cursor' : Cursor}

/-- Two outcomes that differ by their place only.  `Same` says when two results do. -/
inductive Alike (k : Nat) (Same : α → β → Prop) :
    EStateM.Result Fault Cursor α → EStateM.Result Fault Cursor β → Prop
  | ok {value : α} {value' : β} {after after' : Cursor} : Same value value' →
      after.Displaced k after' → Alike k Same (.ok value after) (.ok value' after')
  | error (fault : Fault) {after after' : Cursor} : after.Displaced k after' →
      Alike k Same (.error fault after) (.error (fault.shift k) after')

namespace Alike

variable {Same : α → β → Prop} {outcome : EStateM.Result Fault Cursor β} {value : α} {fault : Fault}
  {after : Cursor}

theorem of_ok (h : Alike k Same (.ok value after) outcome) :
    ∃ value' after', outcome = .ok value' after' ∧ Same value value' ∧
      after.Displaced k after' := by
  cases h with
  | ok hsame hafter => exact ⟨_, _, rfl, hsame, hafter⟩

theorem of_error (h : Alike k Same (.error fault after) outcome) :
    ∃ after', outcome = .error (fault.shift k) after' ∧ after.Displaced k after' := by
  cases h with
  | error _ hafter => exact ⟨_, rfl, hafter⟩

theorem bind {Same' : γ → δ → Prop} {scan : Scan α} {scan' : Scan β}
    {next : α → Scan γ} {next' : β → Scan δ} (hscan : Alike k Same (scan cursor) (scan' cursor'))
    (hnext : ∀ value value' after after', Same value value' → after.Displaced k after' →
      Alike k Same' (next value after) (next' value' after')) :
    Alike k Same' ((scan >>= next) cursor) ((scan' >>= next') cursor') := by
  simp only [Bind.bind, EStateM.bind]
  cases h : scan cursor with
  | ok value after =>
      obtain ⟨value', after', hok, hsame, hafter⟩ := (h ▸ hscan).of_ok
      rw [hok]
      exact hnext _ _ _ _ hsame hafter
  | error fault after =>
      obtain ⟨after', herror, hafter⟩ := (h ▸ hscan).of_error
      rw [herror]
      exact .error fault hafter

end Alike

theorem atEnd_alike (hcursor : cursor.Displaced k cursor') (value : α) :
    Alike k Eq (atEnd value cursor) (atEnd value cursor') := by
  unfold atEnd
  rw [hcursor.malformed]
  cases cursor.malformed with
  | none => exact .ok rfl hcursor.settle
  | some byte =>
      rw [hcursor.pos, UInt32.ofNat_add]
      exact .error ⟨byte, .ofNat cursor.pos⟩ hcursor

theorem release_alike (hcursor : cursor.Displaced k cursor') :
    Alike k Eq (release cursor) (release cursor') :=
  .ok rfl hcursor.release

/-- A plain scan sees only what is pending and what is ahead, so its result does not tell
the two places apart. -/
theorem Plain.alike {scan : Scan α} (hplain : Plain scan)
    (hcursor : cursor.Displaced k cursor') : Alike k Eq (scan cursor) (scan cursor') := by
  induction hplain generalizing cursor cursor' with
  | pure value => exact .ok rfl hcursor
  | bind _ _ ihscan ihnext =>
      refine (ihscan hcursor).bind fun value _ after after' hsame hafter => ?_
      subst hsame
      exact ihnext value hafter
  | @get _ next _ hlocal ihnext =>
      change Alike k Eq (next cursor cursor) (next cursor' cursor')
      rw [hlocal cursor' cursor hcursor.pending hcursor.ahead]
      exact ihnext cursor hcursor
  | next =>
      unfold Scan.next
      rw [hcursor.ahead]
      cases cursor.ahead with
      | nil => exact atEnd_alike hcursor none
      | cons c rest => exact .ok rfl (hcursor.advance [c] rest)
  | peek n =>
      unfold Scan.peek
      rw [hcursor.ahead]
      cases cursor.ahead[n]? with
      | some c => exact .ok rfl hcursor
      | none =>
          rw [hcursor.malformed]
          cases cursor.malformed with
          | none => exact .ok rfl hcursor
          | some byte =>
              rw [hcursor.pos, Nat.add_right_comm, UInt32.ofNat_add _ k]
              exact .error ⟨byte, _⟩ hcursor
  | accept isMember =>
      unfold Scan.accept
      rw [hcursor.ahead]
      cases cursor.ahead with
      | nil => exact atEnd_alike hcursor false
      | cons c rest =>
          dsimp only
          cases isMember c with
          | true => exact .ok rfl (hcursor.advance [c] rest)
          | false => exact .ok rfl hcursor.settle
  | @readPart cut happend =>
      have hafter := hcursor.advance (cut cursor.ahead).1 (cut cursor.ahead).2
      unfold Scan.readPart
      rw [hcursor.ahead]
      dsimp only
      cases (cut cursor.ahead).2.isEmpty with
      | true => exact atEnd_alike hafter ()
      | false => exact .ok rfl hafter.settle
  | readExactly n =>
      unfold Scan.readExactly
      rw [hcursor.ahead]
      exact .ok rfl (hcursor.advance _ _).settle

theorem skip_alike (hcursor : cursor.Displaced k cursor') :
    Alike k Eq (skip cursor) (skip cursor') :=
  (Plain.next.alike hcursor).bind fun _ _ _ _ _ => release_alike

theorem skipWhile_alike (isMember : Char → Bool) (hcursor : cursor.Displaced k cursor') :
    Alike k Eq (skipWhile isMember cursor) (skipWhile isMember cursor') :=
  ((Plain.readWhile isMember).alike hcursor).bind fun _ _ _ _ _ => release_alike

end Scan

/-! ## Lexemes -/

namespace Lexeme

open Scan (Alike Plain)

variable {k : Nat} {cursor cursor' : Cursor}

theorem emit_alike (kind : TokenKind) (resume : Mode) (hcursor : cursor.Displaced k cursor') :
    Alike k (fun lexeme lexeme' => lexeme' = lexeme.shift k) (emit kind resume cursor)
      (emit kind resume cursor') := by
  refine .ok ?_ hcursor.release.settle
  simp only [shift, hcursor.start, hcursor.pos, hcursor.pending]

theorem emitError_alike (cause : Cause) (hcursor : cursor.Displaced k cursor') :
    Alike k (fun lexeme lexeme' => lexeme' = lexeme.shift k) (emitError cause cursor)
      (emitError cause cursor') := by
  have hidle : cursor'.pos ≤ cursor'.start ↔ cursor.pos ≤ cursor.start := by
    rw [hcursor.pos, hcursor.start]
    exact Nat.add_le_add_iff_right
  rw [emitError_eq, emitError_eq]
  simp only [hidle]
  by_cases hpending : cursor.pos ≤ cursor.start
  · rw [if_pos hpending, if_pos hpending]
    have hnext := Plain.next.alike hcursor
    cases h : Scan.next cursor with
    | ok found after =>
        obtain ⟨_, after', hok, _, hafter⟩ := (h ▸ hnext).of_ok
        rw [hok]
        refine .ok ?_ hafter.release
        simp only [shift, hcursor.start, hafter.pos]
    | error fault after =>
        obtain ⟨after', herror, hafter⟩ := (h ▸ hnext).of_error
        rw [herror]
        exact .error fault hafter
  · rw [if_neg hpending, if_neg hpending]
    refine .ok ?_ hcursor.release
    simp only [shift, hcursor.start, hcursor.pos]

theorem Routine.alike {routine : Scan Lexeme} (hroutine : Routine routine)
    (hcursor : cursor.Displaced k cursor') :
    Alike k (fun lexeme lexeme' => lexeme' = lexeme.shift k) (routine cursor)
      (routine cursor') := by
  induction hroutine generalizing cursor cursor' with
  | emit kind resume => exact emit_alike kind resume hcursor
  | emitError cause => exact emitError_alike cause hcursor
  | bind hscan _ ih =>
      refine (hscan.alike hcursor).bind fun value _ _ _ hsame hafter => ?_
      exact hsame ▸ ih value hafter
  | @get next _ hlocal ih =>
      change Alike k _ (next cursor cursor) (next cursor' cursor')
      rw [hlocal cursor' cursor hcursor.pending hcursor.ahead]
      exact ih cursor hcursor
  | release _ ih => exact ih hcursor.release
  | skip _ ih => exact (Scan.skip_alike hcursor).bind fun _ _ _ _ _ => ih

theorem Paired.alike {paired : Scan (Lexeme × List Bracket)} (hpaired : Paired paired)
    (hcursor : cursor.Displaced k cursor') :
    Alike k (fun found found' => found' = (found.1.shift k, found.2)) (paired cursor)
      (paired cursor') := by
  induction hpaired generalizing cursor cursor' with
  | keeping regions hroutine =>
      refine (hroutine.alike hcursor).bind fun lexeme _ _ _ hsame hafter => ?_
      exact hsame ▸ .ok rfl hafter
  | bind hscan _ ih =>
      refine (hscan.alike hcursor).bind fun value _ _ _ hsame hafter => ?_
      exact hsame ▸ ih value hafter

/-- The lexeme at the cursor is the same lexeme wherever the cursor stands. -/
theorem scan_alike [Unicode.Repertoire] (regions : List Bracket)
    (hcursor : cursor.Displaced k cursor') :
    Alike k (fun found found' => found' = (found.1.shift k, found.2)) (scan regions cursor)
      (scan regions cursor') :=
  (scan_paired regions).alike hcursor

end Lexeme

/-! ## Trivia -/

namespace Trivia

open Scan (Alike Plain)

variable {k : Nat} {cursor cursor' : Cursor}

theorem skipLines_alike (hcursor : cursor.Displaced k cursor') :
    Alike k Eq (skipLines cursor) (skipLines cursor') :=
  skipLines_plain.alike hcursor

theorem skipBlanks_alike (hcursor : cursor.Displaced k cursor') :
    Alike k Eq (skipBlanks cursor) (skipBlanks cursor') := by
  have hread := (Plain.readPart (split_append isBlank 0)).alike hcursor
  unfold skipBlanks
  rw [hcursor.ahead]
  cases h : Scan.readPart (split isBlank 0) cursor with
  | ok _ after =>
      obtain ⟨_, after', hok, _, hafter⟩ := (h ▸ hread).of_ok
      rw [hok]
      exact .ok rfl hafter.release
  | error fault after =>
      obtain ⟨after', herror, hafter⟩ := (h ▸ hread).of_error
      rw [herror]
      cases hcomment : lastComment? 0 (split isBlank 0 cursor.ahead).1 with
      | none => exact .error fault hafter
      | some comment =>
          -- the comment has been read, so it does not begin in front of the source
          obtain ⟨front, hfront⟩ := lastComment?_isSuffix hcomment
          refine .error fault (hafter.releaseBefore ?_)
          rw [Scan.readPart_eq_error h]
          change _ ≤ cursor.pos + Utf8.byteLength (split isBlank 0 cursor.ahead).1
          rw [← hfront, Utf8.byteLength_append]
          omega

end Trivia

end ScalaLexer

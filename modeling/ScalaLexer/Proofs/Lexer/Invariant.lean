import ScalaLexer.Proofs.Lexer.Finding
import ScalaLexer.Proofs.Lexer.Session
import ScalaLexer.Proofs.Scan.Standing
import ScalaLexer.Unicode.Release

/-!
# What can be relied on in every state

A lexer in use is called, asked to look ahead, asked for items or for all its tokens,
and put back to snapshots that were taken of it.  This file says what holds in every
state that it comes to, and at every place that a reading passes on the way.

* **Places.**  `step_reaches`: a call only moves the cursor, also where it fails half
  way, so the cursor stands in the source as it did in the beginning.
* **Modes.**  `step_expects`: a mode that has quotes to drop is entered in front of
  them only.
* **States.**  `Snapshot.Settled` puts both together and adds that nothing is pending,
  unless the call that led to the state has failed.  Each operation keeps this up, and
  a snapshot brings it back; `Usage.Settled.perform` is the step and
  `Usage.Settled.foldl_perform` the run.

`usage_sound` reads off what this means for the bytes of the source, for the region
stack and for the branches that a lexeme is prepared to take.
-/

namespace ScalaLexer

open Trivia

/-! ## Quotes that are still to be dropped -/

/-- What stands ahead of a lexer in this mode. -/
def Mode.Expects : Mode → List Char → Prop
  | .closingQuote, ahead => ∃ quote ∈ ['\x22', '\x27', '\x60'], [quote] <+: ahead
  | .closingTripleQuote, ahead => ['\x22', '\x22', '\x22'] <+: ahead
  | .start, _ | .done, _ => True

theorem Delimiter.resume_expects {ahead : List Char} (delimiter : Delimiter)
    (hclosing : delimiter.text <+: ahead) : delimiter.resume.Expects ahead := by
  cases delimiter with
  | none => trivial
  | doubleQuote => exact ⟨'\x22', by decide, hclosing⟩
  | tripleQuote => exact hclosing
  | singleQuote => exact ⟨'\x27', by decide, hclosing⟩
  | backquote => exact ⟨'\x60', by decide, hclosing⟩

theorem Lexeme.Spelled.expects {lexeme : Lexeme} {regions behind : List Bracket}
    {cursor after : Cursor} (h : lexeme.Spelled regions cursor after behind) :
    lexeme.resume.Expects after.ahead := by
  obtain ⟨opening, body, inner, _, _, hform⟩ := h
  cases hform with
  | eof _ hresume => rw [hresume]; trivial
  | error _ _ hresume => rw [hresume]; trivial
  | text delimiter _ hresume _ hclosing => rw [hresume]; exact delimiter.resume_expects hclosing
  | opening _ _ hresume => rw [hresume]; trivial
  | closing _ _ hresume => rw [hresume]; trivial

/-! ## A call only moves the cursor -/

section Finding

open Scan (Travels)

variable {mode : Mode} {regions : List Bracket} {cursor place : Cursor} {finding : Finding}
  {fault : Fault}

theorem Mode.skipClosing_travels (mode : Mode) : Travels mode.skipClosing := by
  cases mode with
  | start => exact .pure ()
  | closingQuote => exact Scan.skip_travels
  | closingTripleQuote => exact Scan.skipWhile_travels _
  | done => exact .pure ()

theorem approach_travels (mode : Mode) : Travels (approach mode) :=
  mode.skipClosing_travels.bind fun _ => skipBlanks_travels.bind fun _ => .get fun _ =>
    .ite (skipLines_plain.travels.bind fun _ => Travels.release.bind fun _ => .pure _) (.pure _)

theorem reaches_of_find_error [Unicode.Repertoire]
    (h : find mode regions cursor = .error (fault, place)) :
    cursor.Reaches place := by
  cases happroach : approach mode cursor with
  | error _ behind =>
      rw [find_of_approach_error happroach] at h
      cases h
      exact (approach_travels mode).of_error happroach
  | ok lineBreak line =>
      have hline := (approach_travels mode).of_ok happroach
      cases hscan : Lexeme.scan regions line with
      | ok found after =>
          rw [find_of_scan_ok happroach hscan] at h
          cases h
      | error _ after =>
          rw [find_of_scan_error happroach hscan] at h
          cases h
          split
          · exact hline
          · exact hline.trans ((Lexeme.scan_paired regions).travels.of_error hscan)

theorem reaches_of_find [Unicode.Repertoire] (h : find mode regions cursor = .ok finding) :
    cursor.Reaches finding.place ∧ cursor.Reaches finding.after := by
  obtain ⟨happroach, hscan⟩ := scan_of_find h
  have hplace := (approach_travels mode).of_ok happroach
  exact ⟨hplace, hplace.trans ((Lexeme.scan_paired regions).travels.of_ok hscan)⟩

end Finding

namespace Lexer

/-- The three things that a call can do, whatever the policy says: it repeats the end,
fails, or finds a lexeme and stops in front of it or behind it. -/
theorem step_reaches [Unicode.Repertoire] (lexer : Lexer) :
    lexer.cursor.Reaches lexer.step.lexer.cursor := by
  by_cases hmode : lexer.mode = .done
  · rw [step_of_done hmode]
    exact Lexeme.emit_travels .eof .done lexer.cursor
  · cases hfind : find lexer.mode lexer.regions lexer.cursor with
    | error failure =>
        rw [step_of_find_error hmode hfind]
        exact reaches_of_find_error hfind
    | ok finding =>
        obtain ⟨hplace, hafter⟩ := reaches_of_find hfind
        rw [step_of_find hmode hfind]
        rcases answerTo_cases lexer finding with ⟨_, hanswer, _⟩ | ⟨_, _, _, _, hanswer⟩
        · rw [hanswer]
          exact hafter
        · rw [hanswer]
          exact hplace

theorem step_expects [Unicode.Repertoire] (lexer : Lexer) :
    lexer.step.lexer.mode.Expects lexer.step.lexer.cursor.ahead := by
  by_cases hmode : lexer.mode = .done
  · rw [step_of_done hmode]
    change lexer.mode.Expects _
    rw [hmode]
    trivial
  · cases hfind : find lexer.mode lexer.regions lexer.cursor with
    | error failure =>
        rw [step_of_find_error hmode hfind]
        trivial
    | ok finding =>
        rw [step_of_find hmode hfind]
        rcases answerTo_cases lexer finding with ⟨_, hanswer, _⟩ | ⟨_, _, _, _, hanswer⟩
        · rw [hanswer]
          exact (find_eq_ok hfind).2.expects
        · rw [hanswer]
          trivial

end Lexer

/-! ## States between two operations -/

/-- A state in which a lexer can be left: its cursor stands in the source in front of
the quotes that are to be dropped, and only a call that failed has left something
pending. -/
structure Snapshot.Settled (source : List UInt8) (failed : Bool) (state : Snapshot) : Prop where
  stands : state.cursor.Stands source
  pending : state.cursor.start ≠ state.cursor.pos → state.mode = .done ∧ failed = true
  expects : state.mode.Expects state.cursor.ahead

/-- A lexer of this source in such a state. -/
structure Lexer.Settled (source : List UInt8) (failed : Bool) (lexer : Lexer) : Prop where
  state : lexer.snapshot.Settled source failed
  source : lexer.source = source

namespace Lexer

variable {source : List UInt8} {failed : Bool} {lexer : Lexer}

theorem ofBytes_settled (source : List UInt8) (file : String) (policy : Separator.Policy) :
    (ofBytes source file policy).Settled source false :=
  ⟨⟨Cursor.ofOffsets_stands source, fun hpending => absurd rfl hpending, trivial⟩, rfl⟩

/-- Where nothing is pending it does not matter what happened before. -/
theorem Settled.of_false (hsettled : lexer.Settled source false) : lexer.Settled source failed :=
  ⟨⟨hsettled.state.stands, fun hpending => absurd (hsettled.state.pending hpending).2 nofun,
    hsettled.state.expects⟩, hsettled.source⟩

section

variable [Unicode.Repertoire]

theorem Settled.step (hsettled : lexer.Settled source failed) :
    lexer.step.lexer.Settled source (!lexer.step.result.isOk) := by
  refine ⟨⟨(step_reaches lexer).stands hsettled.state.stands, ?_, step_expects lexer⟩,
    (step_frames lexer).source.trans hsettled.source⟩
  rcases hstep : lexer.step with ⟨diagnostic | token, after, consultations⟩
  · exact fun _ => ⟨mode_of_error hstep, rfl⟩
  · obtain ⟨_, hdrops, _⟩ := dispatch_drops (step_eq_ok.mp hstep)
    exact fun hpending => absurd hdrops.idle.start hpending

theorem Settled.tokensWithin (hsettled : lexer.Settled source failed) {fuel : Nat}
    (hfuel : fuel = 0 → failed = false) :
    (Lexer.tokensWithin fuel lexer).lexer.Settled source
      (!(Lexer.tokensWithin fuel lexer).result.isOk) := by
  induction fuel generalizing lexer failed with
  | zero =>
      obtain rfl := hfuel rfl
      exact hsettled
  | succ fuel ih =>
      have hafter := hsettled.step
      rw [Lexer.tokensWithin]
      rcases hstep : lexer.step with ⟨diagnostic | token, after, consultations⟩
      · rw [hstep] at hafter
        exact hafter
      · rw [hstep] at hafter
        by_cases hkind : token.kind = .eof
        · simp only [if_pos hkind]
          exact hafter
        · have hrest := ih hafter fun _ => rfl
          simp only [if_neg hkind]
          cases hresult : (Lexer.tokensWithin fuel after).result with
          | error diagnostic => rw [hresult] at hrest; exact hrest
          | ok tokens => rw [hresult] at hrest; exact hrest

theorem Settled.tokens (hsettled : lexer.Settled source failed) :
    lexer.tokens.lexer.Settled source (!lexer.tokens.result.isOk) :=
  hsettled.tokensWithin nofun

/-- An item is asked for by a call, unless the end was reached. -/
theorem Settled.next? (hsettled : lexer.Settled source failed) :
    lexer.next?.lexer.Settled source
      (match lexer.next?.result with
        | some item => !item.isOk
        | none => failed) := by
  unfold Lexer.next?
  by_cases hmode : lexer.mode = .done
  · simp only [if_pos hmode]
    exact hsettled
  · have hafter := hsettled.step
    simp only [if_neg hmode]
    rcases hstep : lexer.step with ⟨diagnostic | token, after, consultations⟩
    · rw [hstep] at hafter
      exact hafter
    · rw [hstep] at hafter
      by_cases hkind : token.kind = .eof
      · simp only [if_pos hkind]
        exact hafter.of_false
      · simp only [if_neg hkind]
        exact hafter

/-- Every level of looking ahead puts back what it has moved. -/
theorem Settled.lookAhead (hsettled : lexer.Settled source failed) (n : Nat) :
    (Lexer.lookAhead n lexer).lexer.Settled source failed := by
  rw [lookAhead_untouched]
  exact hsettled

end

theorem Settled.restore {state : Snapshot} {restored : Lexer} {before : Bool}
    (hsettled : lexer.Settled source failed) (hstate : state.Settled source before)
    (h : lexer.restore? state = some restored) : restored.Settled source before := by
  unfold restore? at h
  split at h
  · cases h
    exact ⟨⟨hstate.stands, hstate.pending, hstate.expects⟩, hsettled.source⟩
  · cases h

end Lexer

/-! ## A lexer in use -/

/-- What can be done with a lexer. -/
inductive Operation where
  /-- Calls for the next token. -/
  | call
  /-- Looks for the token `n` places behind the next one. -/
  | lookAhead (n : Nat)
  /-- Asks for the next item. -/
  | next
  /-- Takes all tokens out. -/
  | takeAll
  /-- Takes a snapshot. -/
  | save
  /-- Goes back to one of the snapshots, if as many regions are open as there were. -/
  | restore (index : Nat)

/-- A lexer in use and the snapshots that were taken of it.  A state comes with the
answer to whether the call that led to it has failed. -/
structure Usage where
  lexer : Lexer
  failed : Bool
  saved : List (Snapshot × Bool)

namespace Usage

/-- Goes back to a snapshot, if the lexer accepts it. -/
def rewind (usage : Usage) (index : Nat) : Usage :=
  match usage.saved[index]? with
  | none => usage
  | some (state, failed) =>
    match usage.lexer.restore? state with
    | none => usage
    | some lexer => { usage with lexer, failed }

variable [Unicode.Repertoire]

/-- Does one thing more. -/
def perform (usage : Usage) : Operation → Usage
  | .call =>
    { usage with
      lexer := usage.lexer.step.lexer
      failed := !usage.lexer.step.result.isOk }
  | .lookAhead n => { usage with lexer := (Lexer.lookAhead n usage.lexer).lexer }
  | .next =>
    { usage with
      lexer := usage.lexer.next?.lexer
      failed :=
        match usage.lexer.next?.result with
        | some item => !item.isOk
        | none => usage.failed }
  | .takeAll =>
    { usage with
      lexer := usage.lexer.tokens.lexer
      failed := !usage.lexer.tokens.result.isOk }
  | .save => { usage with saved := usage.saved ++ [(usage.lexer.snapshot, usage.failed)] }
  | .restore index => usage.rewind index

/-- The lexer and all that it may be put back to are settled. -/
structure Settled (source : List UInt8) (usage : Usage) : Prop where
  lexer : usage.lexer.Settled source usage.failed
  saved : ∀ entry ∈ usage.saved, entry.1.Settled source entry.2

variable {source : List UInt8} {usage : Usage}

omit [Unicode.Repertoire] in
theorem Settled.rewind (hsettled : usage.Settled source) (index : Nat) :
    (usage.rewind index).Settled source := by
  unfold Usage.rewind
  split
  · exact hsettled
  · next state failed hentry =>
      have hstate := hsettled.saved _ (List.mem_of_getElem? hentry)
      split
      · exact hsettled
      · next hrestored => exact ⟨hsettled.lexer.restore hstate hrestored, hsettled.saved⟩

theorem Settled.perform (hsettled : usage.Settled source) (operation : Operation) :
    (usage.perform operation).Settled source := by
  obtain ⟨hlexer, hsaved⟩ := hsettled
  cases operation with
  | call => exact ⟨hlexer.step, hsaved⟩
  | lookAhead n => exact ⟨hlexer.lookAhead n, hsaved⟩
  | next => exact ⟨hlexer.next?, hsaved⟩
  | takeAll => exact ⟨hlexer.tokens, hsaved⟩
  | save =>
      refine ⟨hlexer, fun entry hentry => ?_⟩
      rcases List.mem_append.mp hentry with hearlier | hnow
      · exact hsaved entry hearlier
      · obtain rfl := List.mem_singleton.mp hnow
        exact hlexer.state
  | restore index => exact Settled.rewind ⟨hlexer, hsaved⟩ index

theorem Settled.foldl_perform (hsettled : usage.Settled source) (operations : List Operation) :
    (operations.foldl Usage.perform usage).Settled source := by
  induction operations generalizing usage with
  | nil => exact hsettled
  | cons operation operations ih => exact ih (hsettled.perform operation)

end Usage

/-! ## Branches that are never taken -/

/-- A word is found wherever a letter stands ahead. -/
theorem Lexeme.plainIdentifier_of_isLetter [Unicode.Repertoire] {cursor after : Cursor}
    {c : Char} {found : Bool} (hahead : cursor.ahead.head? = some c) (hletter : isLetter c = true)
    (h : plainIdentifier cursor = .ok found after) : found = true := by
  obtain ⟨c?, last, hpeek, hrest⟩ := Scan.bind_eq_ok.mp h
  obtain ⟨rfl, _⟩ := Scan.peek_eq_ok hpeek
  split at hrest
  · obtain ⟨_, between, _, hpure⟩ := Scan.bind_eq_ok.mp hrest
    exact (Scan.pure_eq_ok.mp hpure).1.symm
  · obtain ⟨accepted, between, haccept, hrest⟩ := Scan.bind_eq_ok.mp hrest
    rcases Scan.accept_eq_ok haccept with ⟨rfl, _⟩ | ⟨_, hnone, _⟩
    · obtain ⟨_, middle, _, hrest⟩ := Scan.bind_eq_ok.mp hrest
      obtain ⟨_, last, _, hpure⟩ := Scan.bind_eq_ok.mp hrest
      exact (Scan.pure_eq_ok.mp hpure).1.symm
    · rw [hnone c hahead] at hletter
      cases hletter

/-- All brackets are in the table. -/
theorem TokenKind.ofBracketChar?_of_isBracket {c : Char} (h : isBracket c = true) :
    ∃ bracket, ofBracketChar? c = some (.opening bracket) ∨
      ofBracketChar? c = some (.closing bracket) := by
  have hc : c = '(' ∨ c = ')' ∨ c = '[' ∨ c = ']' ∨ c = '\x7b' ∨ c = '\x7d' := by
    simpa [isBracket] using h
  rcases hc with rfl | rfl | rfl | rfl | rfl | rfl
  · exact ⟨.paren, .inl (by decide)⟩
  · exact ⟨.paren, .inr (by decide)⟩
  · exact ⟨.square, .inl (by decide)⟩
  · exact ⟨.square, .inr (by decide)⟩
  · exact ⟨.curly, .inl (by decide)⟩
  · exact ⟨.curly, .inr (by decide)⟩

/-- What opens a region has a partner, and the partner has a name. -/
theorem TokenKind.partner?_opening (bracket : Bracket) :
    (opening bracket).partner? = some (closing bracket) ∧ (closing bracket).name ≠ "" := by
  cases bracket <;> decide

/-! ## What can be relied on -/

namespace Lexer

variable {source : List UInt8} {failed : Bool} {lexer : Lexer}

theorem Settled.expects_of_mode (hsettled : lexer.Settled source failed) {mode : Mode}
    (hmode : lexer.mode = mode) : mode.Expects lexer.cursor.ahead :=
  hmode ▸ hsettled.state.expects

/-- The texts ahead are those of the remaining bytes. -/
theorem Settled.encode_prefix_remainder (hsettled : lexer.Settled source failed)
    {front : List Char} (hfront : front <+: lexer.cursor.ahead) :
    Utf8.encode front <+: lexer.remainder := by
  have hahead : Utf8.encode lexer.cursor.ahead <+: lexer.remainder := by
    rw [remainder, hsettled.source]
    exact hsettled.state.stands.encode_ahead_prefix
  obtain ⟨back, hback⟩ := hfront
  rw [← hback, Utf8.encode_append] at hahead
  exact (List.prefix_append _ _).trans hahead

section

variable [Unicode.Repertoire]

/-- What holds of a lexer in use at any time. -/
structure Sound (lexer : Lexer) (failed : Bool) : Prop where
  /-- A call passes places that can be come to from where the lexer is, and all of these
  are sound, the place of the lexer itself to begin with. -/
  reaches : lexer.cursor.Reaches lexer.step.lexer.cursor
  places : ∀ place, lexer.cursor.Reaches place → place.Sound lexer.source
  /-- Only a call that failed leaves anything pending. -/
  idle : lexer.cursor.start = lexer.cursor.pos ∨ lexer.mode = .done ∧ failed = true
  closingQuote : lexer.mode = .closingQuote →
    ∃ quote ∈ [0x22, 0x27, 0x60], [quote] <+: lexer.remainder
  closingTripleQuote : lexer.mode = .closingTripleQuote →
    [0x22, 0x22, 0x22] <+: lexer.remainder
  /-- The open regions are opening brackets, and what closes them has a name. -/
  regions : ∀ kind ∈ lexer.regions.map TokenKind.opening, kind.isOpening = true ∧
    ∃ partner, kind.partner? = some partner ∧ partner.name ≠ ""

theorem Settled.sound (hsettled : lexer.Settled source failed) : lexer.Sound failed where
  reaches := step_reaches lexer
  places := fun place hreaches =>
    (hreaches.stands (hsettled.source ▸ hsettled.state.stands)).sound
  idle := or_iff_not_imp_left.mpr hsettled.state.pending
  closingQuote := by
    intro hmode
    obtain ⟨quote, hquote, hahead⟩ := hsettled.expects_of_mode hmode
    have hstands := hsettled.encode_prefix_remainder hahead
    obtain rfl | rfl | rfl : quote = '\x22' ∨ quote = '\x27' ∨ quote = '\x60' := by
      simpa using hquote
    · exact ⟨0x22, by decide, hstands⟩
    · exact ⟨0x27, by decide, hstands⟩
    · exact ⟨0x60, by decide, hstands⟩
  closingTripleQuote := fun hmode =>
    hsettled.encode_prefix_remainder (hsettled.expects_of_mode hmode)
  regions := by
    intro kind hkind
    obtain ⟨bracket, _, rfl⟩ := List.mem_map.mp hkind
    exact ⟨rfl, _, TokenKind.partner?_opening bracket⟩

/-- The use of a lexer in which these things are done, one after the other. -/
def usage (lexer : Lexer) (operations : List Operation) : Usage :=
  operations.foldl Usage.perform ⟨lexer, false, []⟩

/-- Whatever is done with a fresh lexer, its offsets stay in range and between two
characters of the longest text that the source begins with, and its mode and its
regions are what they should be.  So there is always room to take a character back,
and neither a word that begins with a letter nor a bracket is ever unknown. -/
theorem usage_sound (source : List UInt8) (file : String) (policy : Separator.Policy) :
    (∀ operations, let usage := (ofBytes source file policy).usage operations
      usage.lexer.source = source ∧ usage.lexer.Sound usage.failed) ∧
    (∀ isMember, Scan.accept isMember = do
      if (← Scan.next).any isMember then
        return true
      else
        modify Cursor.backup
        return false) ∧
    (∀ cursor c found after, cursor.ahead.head? = some c → isLetter c = true →
      Lexeme.plainIdentifier cursor = .ok found after → found = true) ∧
    ∀ c, isBracket c = true → ∃ bracket,
      TokenKind.ofBracketChar? c = some (.opening bracket) ∨
        TokenKind.ofBracketChar? c = some (.closing bracket) := by
  refine ⟨fun operations => ?_, Scan.accept_eq_backup,
    fun _ _ _ _ => Lexeme.plainIdentifier_of_isLetter,
    fun _ => TokenKind.ofBracketChar?_of_isBracket⟩
  have hfresh : Usage.Settled source ⟨ofBytes source file policy, false, []⟩ :=
    ⟨ofBytes_settled source file policy, nofun⟩
  have hsettled := (hfresh.foldl_perform operations).lexer
  exact ⟨hsettled.source, hsettled.sound⟩

end

/-- A byte at which no character starts leaves pending what was read in front of it. -/
example :
    let usage := (ofBytes [0x61, 0xFF]).usage [.call, .save, .lookAhead 1, .restore 0]
    (usage.lexer.cursor.start, usage.lexer.cursor.pos, usage.lexer.mode, usage.failed) =
      (0, 1, .done, true) := by
  decide +kernel

end Lexer

end ScalaLexer

import ScalaLexer.Proofs.Lexer.Displacement
import ScalaLexer.Proofs.Lexer.Progress
import ScalaLexer.Proofs.Lexer.Rewind
import ScalaLexer.Unicode.Release

/-!
# Going on behind an error

An error token takes some text away and nothing else: the regions and the last token are
those from before, and the lexer stands at the root behind the error.  Two facts about a
lexer in use make this exact.

* `Lexer.usage_keeps`: what a call keeps holds in every state of a lexer in use.  So
  wherever it is, it was moved there from the beginning (`Lexer.usage_reaches`).
* `Cursor.Reaches.follows`: what a cursor has ahead is then what the bytes from its
  offset on decode to, so that its offset tells all about it.

So what an error leaves behind is what the lexer from before is when it is put down at
the root at the end of the error (`Lexer.rootAt`), and it answers like that from then on
(`step_recovers`).  The length of the character read last may differ; nothing looks at
it.
-/

namespace ScalaLexer

/-! ## What the offset of a cursor tells -/

namespace Cursor

variable {source : List UInt8} {cursor : Cursor}

/-- Where nothing is pending the offset tells everything but the length of the character
read last. -/
theorem Follows.displaced (hfollows : cursor.Follows source) (hidle : cursor.Idle) :
    (ofOffsets source cursor.pos cursor.pos).Displaced 0 cursor := by
  have hpending : (source.take cursor.pos).drop cursor.pos = [] := List.drop_take_self
  refine ⟨hidle.start, rfl, ?_, ?_, ?_⟩
  · rw [hidle.pending, ofOffsets, hpending]
    rfl
  · rw [ofOffsets, hfollows]
  · rw [ofOffsets, hfollows]

end Cursor

/-! ## What holds of a lexer in use -/

/-- The state of the lexer and all states that it may be put back to have the property. -/
structure Usage.Throughout (property : Snapshot → Prop) (usage : Usage) : Prop where
  lexer : property usage.lexer.snapshot
  saved : ∀ entry ∈ usage.saved, property entry.1

section Throughout

variable [Unicode.Repertoire] {property : Snapshot → Prop} {usage : Usage}
  (hstep : ∀ lexer : Lexer, property lexer.snapshot → property lexer.step.lexer.snapshot)

include hstep

theorem Lexer.tokensWithin_keeps (fuel : Nat) (lexer : Lexer) (h : property lexer.snapshot) :
    property (tokensWithin fuel lexer).lexer.snapshot := by
  induction fuel generalizing lexer with
  | zero => exact h
  | succ fuel ih =>
      have hfirst := hstep lexer h
      rw [tokensWithin]
      rcases hanswer : lexer.step with ⟨diagnostic | token, after, consultations⟩
      · rw [hanswer] at hfirst
        exact hfirst
      · rw [hanswer] at hfirst
        by_cases hkind : token.kind = .eof
        · simp only [if_pos hkind]
          exact hfirst
        · simp only [if_neg hkind]
          exact ih after hfirst

namespace Usage

omit [Unicode.Repertoire] hstep in
theorem Throughout.rewind (h : usage.Throughout property) (index : Nat) :
    (usage.rewind index).Throughout property := by
  unfold Usage.rewind
  split
  · exact h
  · next state failed hentry =>
      have hstate := h.saved _ (List.mem_of_getElem? hentry)
      split
      · exact h
      · next hrestored =>
          obtain ⟨hdepth, rfl⟩ := Lexer.restore?_eq_some hrestored
          have hback : (usage.lexer.restore state).snapshot = state := by
            change { state with regionDepth := usage.lexer.regionDepth } = state
            rw [← hdepth]
          exact ⟨hback ▸ hstate, h.saved⟩

/-- What a call keeps is kept by all that can be done with a lexer. -/
theorem Throughout.perform (h : usage.Throughout property) (operation : Operation) :
    (usage.perform operation).Throughout property := by
  obtain ⟨hlexer, hsaved⟩ := h
  cases operation with
  | call => exact ⟨hstep usage.lexer hlexer, hsaved⟩
  | lookAhead n =>
      have hafter : property (Lexer.lookAhead n usage.lexer).lexer.snapshot := by
        rw [Lexer.lookAhead_untouched]
        exact hlexer
      exact ⟨hafter, hsaved⟩
  | next =>
      have hafter : property usage.lexer.next?.lexer.snapshot := by
        rw [Lexer.next?_lexer]
        split
        · exact hlexer
        · exact hstep usage.lexer hlexer
      exact ⟨hafter, hsaved⟩
  | takeAll => exact ⟨Lexer.tokensWithin_keeps hstep _ usage.lexer hlexer, hsaved⟩
  | save =>
      refine ⟨hlexer, fun entry hentry => ?_⟩
      rcases List.mem_append.mp hentry with hearlier | hnow
      · exact hsaved entry hearlier
      · obtain rfl := List.mem_singleton.mp hnow
        exact hlexer
  | restore index => exact Throughout.rewind ⟨hlexer, hsaved⟩ index

theorem Throughout.foldl_perform (h : usage.Throughout property) (operations : List Operation) :
    (operations.foldl Usage.perform usage).Throughout property := by
  induction operations generalizing usage with
  | nil => exact h
  | cons operation operations ih => exact ih (h.perform hstep operation)

end Usage

end Throughout

/-- What a call keeps holds of a lexer in use if it held in the beginning. -/
theorem Lexer.usage_keeps [Unicode.Repertoire] (property : Snapshot → Prop)
    (hstep : ∀ lexer : Lexer, property lexer.snapshot → property lexer.step.lexer.snapshot)
    (lexer : Lexer) (h : property lexer.snapshot) (operations : List Operation) :
    property (lexer.usage operations).lexer.snapshot := by
  have hfresh : Usage.Throughout property ⟨lexer, false, []⟩ := ⟨h, List.forall_mem_nil _⟩
  exact (hfresh.foldl_perform hstep operations).lexer

/-! ## What an error leaves behind -/

theorem Delimiter.Encloses.ne_error {delimiter : Delimiter} {kind : TokenKind}
    (h : delimiter.Encloses kind) : kind ≠ .error := by
  rintro rfl
  cases delimiter <;> exact h

/-- Behind an error nothing of a literal is left to be dropped. -/
theorem Lexeme.Spelled.resume_of_error {lexeme : Lexeme} {regions behind : List Bracket}
    {cursor after : Cursor} (h : lexeme.Spelled regions cursor after behind)
    (hkind : lexeme.kind = .error) : lexeme.resume = .start := by
  obtain ⟨_, _, _, _, _, hform⟩ := h
  cases hform with
  | eof heof => rw [heof] at hkind; cases hkind
  | error _ _ hresume => exact hresume
  | text _ hencloses => exact absurd hkind hencloses.ne_error
  | opening _ hopening => rw [hopening] at hkind; cases hkind
  | closing _ hclosing => rw [hclosing] at hkind; cases hkind

namespace Lexer

variable {lexer : Lexer} {closing : List Char} {answer : Answer} {token : Token}

/-- A lexer in use was moved to where it is. -/
theorem usage_reaches [Unicode.Repertoire] (lexer : Lexer) (operations : List Operation) :
    lexer.cursor.Reaches (lexer.usage operations).lexer.cursor := by
  exact usage_keeps (fun state => lexer.cursor.Reaches state.cursor)
    (fun other h => h.trans (step_reaches other)) lexer .refl operations

theorem Taken.of_error_token (htaken : lexer.Taken closing answer)
    (hresult : answer.result = .ok token) (hkind : token.kind = .error) :
    answer.lexer.mode = .start ∧ answer.lexer.cursor.Idle ∧
      token.extent.stop = answer.lexer.cursor.pos := by
  cases htaken with
  | fault => cases hresult
  | lexeme _ _ _ hspelled =>
      cases hresult
      have hresume := hspelled.resume_of_error hkind
      obtain ⟨_, _, _, _, hcut, _⟩ := hspelled
      exact ⟨hresume, hcut.drops.idle, hcut.stop⟩
  | @separator _ _ _ line =>
      cases hresult
      have hseparator := separator_isSeparator line.pos (line.ahead.takeWhile isSpace)
      change (Lexer.separator line.pos _).kind = .error at hkind
      rw [hkind] at hseparator
      cases hseparator

/-- The lexer put down at the root at this offset. -/
def rootAt (lexer : Lexer) (pos : Nat) : Lexer :=
  { lexer with
    cursor := .ofOffsets lexer.source pos pos
    mode := .start }

/-- What every lexer does with an error: it goes on behind it and remembers what it
remembered before. -/
theorem step_of_error_token [Unicode.Repertoire] (hresult : lexer.step.result = .ok token)
    (hkind : token.kind = .error) :
    lexer.step.lexer.regions = lexer.regions ∧
      lexer.step.lexer.lastToken = lexer.lastToken ∧
      lexer.step.lexer.mode = .start ∧ lexer.step.lexer.cursor.Idle ∧
      token.extent.stop = lexer.step.lexer.cursor.pos ∧
      lexer.position < lexer.step.lexer.position := by
  have hstep : lexer.step = ⟨.ok token, lexer.step.lexer, lexer.step.consultations⟩ :=
    hresult ▸ rfl
  have hmode : lexer.mode ≠ .done := by
    intro hdone
    rw [step_of_done hdone] at hresult
    cases hresult
    cases hkind
  have htaken := dispatch_taken hmode
  rw [step_eq_ok.mp hstep] at htaken
  obtain ⟨hstart, hidle, hstop⟩ := htaken.of_error_token rfl hkind
  have hregions := ((step_frames lexer).token token hresult).2
  have hlast := lastToken_of_step lexer
  rw [hresult] at hlast
  dsimp only at hlast
  rw [hkind] at hregions hlast
  exact ⟨hregions, hlast, hstart, hidle, hstop,
    position_lt_of_step hstep (by rw [hkind]; exact TokenKind.noConfusion)⟩

/-- What is put down where the lexer stands already is the lexer. -/
theorem rootAt_displaced {after : Lexer} (hfile : lexer.SameFile after)
    (hfollows : after.cursor.Follows lexer.source) (hidle : after.cursor.Idle)
    (hmode : after.mode = .start) (hlast : after.lastToken = lexer.lastToken)
    (hregions : after.regions = lexer.regions) :
    (lexer.rootAt after.cursor.pos).Displaced 0 after where
  file := hfile.file
  policy := fun context => by rw [hfile.policy]; rfl
  cursor := hfollows.displaced hidle
  mode := hmode
  lastToken := hlast
  regions := hregions

theorem readToken_result_of_step [Unicode.Repertoire] (hmode : lexer.mode = .start) :
    lexer.step.result = lexer.readToken.result := by
  have hroot : lexer.dispatch = lexer.readToken := by
    rw [dispatch, hmode]
  unfold step
  split
  · next hdispatch => rw [← hroot, hdispatch]
  · next hdispatch => rw [← hroot, hdispatch]

theorem shiftResult_zero (result : Except Diagnostic Token) : shiftResult 0 result = result := by
  cases result with
  | ok token => rfl
  | error diagnostic =>
      have hoffset : diagnostic.position.offset + .ofNat 0 = diagnostic.position.offset :=
        UInt32.add_zero _
      simp only [shiftResult, Diagnostic.shift, hoffset]

/-- Two lexers at one place of a file are the same but for the length of the character
read last. -/
theorem Displaced.eq_moveTo {after : Lexer} (h : lexer.Displaced 0 after)
    (hfile : lexer.SameFile after) :
    after = lexer.moveTo { lexer.cursor with width := after.cursor.width } := by
  obtain ⟨_, _, _, ⟨_, _, _, _, _, _⟩, _, _, _⟩ := lexer
  obtain ⟨_, _, _, ⟨_, _, _, _, _, _⟩, _, _, _⟩ := after
  obtain ⟨rfl, rfl, rfl⟩ := hfile
  obtain ⟨_, _, ⟨rfl, rfl, rfl, rfl, rfl⟩, rfl, rfl, rfl⟩ := h
  rfl

/-- **Going on behind an error.**  Whatever was done with a fresh lexer, an error token
leaves the regions and the last token as they were, and the lexer stands at the root at
the end of the error, further on than before.  Of that place the span keeps 32 bits, which
are all of it in a source of less than 4 GiB.  The lexer is what the lexer from before is
when it is put down there, and from the next call on it answers like that. -/
theorem step_recovers [Unicode.Repertoire] (source : List UInt8) (file : String)
    (policy : Separator.Policy) (operations : List Operation) (token : Token) :
    let lexer := ((ofBytes source file policy).usage operations).lexer
    let after := lexer.step.lexer
    let root := lexer.rootAt token.extent.stop
    lexer.step.result = .ok token → token.kind = .error →
      after.regions = lexer.regions ∧ after.lastToken = lexer.lastToken ∧
      after.mode = .start ∧ after.cursor.start = token.extent.stop ∧
      after.cursor.pos = token.extent.stop ∧ token.span.stop = .ofNat after.cursor.pos ∧
      (source.length < UInt32.size → (token.span.stop : Nat) = after.cursor.pos) ∧
      lexer.cursor.pos < after.cursor.pos ∧
      after = root.moveTo { root.cursor with width := after.cursor.width } ∧
      after.step.result = root.readToken.result ∧
      ∀ requests, after.replies requests = root.replies requests := by
  intro lexer after root hresult hkind
  obtain ⟨hregions, hlast, hmode, hidle, hstop, hless⟩ := step_of_error_token hresult hkind
  have hsame : lexer.SameFile after := .step lexer
  have hreaches : (Cursor.ofOffsets source 0 0).Reaches after.cursor :=
    (usage_reaches (ofBytes source file policy) operations).trans (step_reaches lexer)
  have hsource : lexer.source = source :=
    (Usage.foldl_perform_sameFile ⟨ofBytes source file policy, false, []⟩ operations).source
  have hfollows : after.cursor.Follows lexer.source := by
    rw [hsource]
    exact hreaches.follows (Cursor.ofOffsets_follows source 0 0)
  have hroot : root.Displaced 0 after := by
    have hplace := rootAt_displaced hsame hfollows hidle hmode hlast hregions
    rwa [← hstop] at hplace
  have hcall : after.step.result = root.step.result := by
    rw [hroot.step.result, shiftResult_zero]
  have hspan : token.span.stop = .ofNat after.cursor.pos := congrArg UInt32.ofNat hstop
  have hexact (hsize : source.length < UInt32.size) :
      (token.span.stop : Nat) = after.cursor.pos := by
    rw [hspan]
    have hsound := (hreaches.stands (Cursor.ofOffsets_stands source)).sound
    exact UInt32.toNat_ofNat_of_lt'
      ((hsound.pos_le_text.trans hsound.text_le_length).trans_lt hsize)
  refine ⟨hregions, hlast, hmode, hidle.start.trans hstop.symm, hstop.symm, hspan, hexact, hless,
    hroot.eq_moveTo ⟨hsame.source, hsame.file, hsame.policy⟩,
    hcall.trans (readToken_result_of_step rfl), fun requests => ?_⟩
  rw [hroot.replies, funext shiftResult_zero]
  exact List.map_id _

/-- A bracket that does not fit, behind a line break that is no separator. -/
theorem step_recovers_in_parens :
    let lexer := ((ofString "(\n])").usage [.call, .lookAhead 1]).lexer
    let token : Token := ⟨.error, (Cause.mismatchedBracket ")" "]").message, ⟨2, 3, defaultFile⟩⟩
    lexer.step.result = .ok token ∧ token.kind = .error ∧
      lexer.step.lexer.regions = [.paren] ∧
      lexer.step.lexer.lastToken = some (.opening .paren) ∧
      lexer.step.lexer.cursor.pos = 3 ∧ token.span.stop = 3 ∧
      ∀ requests, lexer.step.lexer.replies requests = (lexer.rootAt 3).replies requests := by
  intro lexer token
  have hresult : lexer.step.result = .ok token := by decide +kernel
  obtain ⟨hregions, hlast, _, _, hpos, _, _, _, _, _, hreplies⟩ :=
    step_recovers (Utf8.encode "(\n])".toList) defaultFile Separator.standard
      [.call, .lookAhead 1] token hresult rfl
  refine ⟨hresult, rfl, hregions.trans ?_, hlast.trans ?_, hpos, rfl, hreplies⟩
  · decide +kernel
  · decide +kernel

end Lexer

end ScalaLexer

import Mathlib.Logic.Function.Iterate
import ScalaLexer.Proofs.Lexer.Truncation
import ScalaLexer.Proofs.Text.Utf8

/-!
# Malformed sources

A source that is not the encoding of a text is the encoding of its longest text
followed by a malformed byte.  Draining it fails exactly there.

* **There is a failure.**  The end is returned only where no byte is malformed, and
  the malformed byte stays the same from call to call.
* **It is the malformed byte.**  Whatever a call was about to do, it fails with the
  byte behind the text (`dispatch_fault`).
* **The tokens before it.**  They come from a run, and by `Run.truncated` this is
  also a run on the text alone, where draining goes on behind it.
* **Nothing comes after it.**  A failed call leaves a lexer that is done.
-/

namespace ScalaLexer

namespace Lexer

variable {lexer last : Lexer} {tokens : List Token} {diagnostic : Diagnostic}

/-! ## Behind the last token -/

variable [Unicode.Repertoire]

theorem step_result_of_done (hdone : lexer.mode = .done) :
    lexer.step.result = .ok lexer.endToken := by
  rw [step_of_done hdone]

theorem step_lexer_of_done (hdone : lexer.mode = .done) :
    lexer.step.lexer.mode = .done ∧ lexer.step.lexer.position = lexer.position ∧
      lexer.step.lexer.regions = lexer.regions := by
  rw [step_of_done hdone]
  exact ⟨hdone, rfl, rfl⟩

/-- However often it is called, a lexer that is done stays as it is. -/
theorem iterate_step_of_done (hdone : lexer.mode = .done) (n : Nat) :
    let later := (fun lexer : Lexer => lexer.step.lexer)^[n] lexer
    later.mode = .done ∧ later.position = lexer.position ∧ later.regions = lexer.regions := by
  induction n with
  | zero => exact ⟨hdone, rfl, rfl⟩
  | succ n ih =>
      obtain ⟨hmode, hposition, hregions⟩ := ih
      obtain ⟨hmode, hsamePosition, hsameRegions⟩ := step_lexer_of_done hmode
      simp only [Function.iterate_succ_apply']
      exact ⟨hmode, hsamePosition.trans hposition, hsameRegions.trans hregions⟩

/-! ## The end of a run -/

/-- The end is returned only if no byte is malformed. -/
theorem malformed_of_run_eof {token : Token} (hmode : lexer.mode ≠ .done)
    (hrun : Run lexer tokens last) (hlast : last.step.result = .ok token)
    (hkind : token.kind = .eof) : lexer.cursor.malformed = none := by
  rcases hstep : last.step with ⟨diagnostic | found, after, consultations⟩
  · rw [hstep] at hlast
    cases hlast
  · rw [hstep] at hlast
    cases hlast
    have htaken := step_eq_ok.mp hstep ▸ dispatch_taken (hrun.not_done hmode)
    obtain ⟨_, _, hmalformed, _⟩ := htaken.eof hkind
    rw [← hrun.keeps.malformed, ← (keeps_of_step hstep).malformed, hmalformed]

/-- A run that fails, fails at the malformed byte behind the text. -/
theorem diagnostic_of_run_error (hrun : Run lexer tokens last)
    (hlast : last.step.result = .error diagnostic) :
    last.step.lexer.mode = .done ∧ ∃ byte, lexer.cursor.malformed = some byte ∧
      diagnostic = ⟨.invalidEncoding byte, ⟨.ofNat lexer.cursor.limit, lexer.file⟩⟩ := by
  rcases hstep : last.step with ⟨found | token, after, consultations⟩
  · rw [hstep] at hlast
    cases hlast
    obtain ⟨_, hdispatch, _⟩ := step_eq_error.mp hstep
    obtain ⟨_, fault, hblames, rfl⟩ := dispatch_fault hdispatch
    obtain ⟨hfile, hlimit, hmalformed⟩ := hrun.keeps
    refine ⟨mode_of_error hstep, fault.byte, hmalformed ▸ hblames.byte, ?_⟩
    rw [diagnosticOf, hblames.offset, hlimit, hfile]
  · rw [hstep] at hlast
    cases hlast

/-! ## Draining a source -/

omit [Unicode.Repertoire] in
theorem truncated_ofBytes (source : List UInt8) (file : String) (policy : Separator.Policy) :
    (ofBytes source file policy).truncated (Utf8.encode (Utf8.decode source).text) =
      ofBytes (Utf8.encode (Utf8.decode source).text) file policy := by
  simp only [ofBytes, truncated, Cursor.ofOffsets, List.drop_zero, Utf8.decode_encode]
  rfl

/-- Draining fails if and only if the source is not the encoding of a text.  The
failure is the byte behind the longest text that the source begins with, the tokens
before it are the first ones of that text alone, and behind it there is only the
end. -/
theorem drain_failure (source : List UInt8) (file : String) (policy : Separator.Policy) :
    let fresh := ofBytes source file policy
    (fresh.drain.result.failure.isSome ↔ ∀ text, Utf8.encode text ≠ source) ∧
    ∀ diagnostic, fresh.drain.result.failure = some diagnostic →
      ∃ (valid : List Char) (byte : UInt8) (last : Lexer),
        Utf8.encode valid <+: source ∧ (∀ text, Utf8.encode text <+: source → text <+: valid) ∧
        source[(Utf8.encode valid).length]? = some byte ∧
        diagnostic = ⟨.invalidEncoding byte, ⟨.ofNat (Utf8.encode valid).length, file⟩⟩ ∧
        (source.length < UInt32.size →
          (diagnostic.position.offset : Nat) = (Utf8.encode valid).length) ∧
        fresh.drain.result.tokens <+:
          (ofBytes (Utf8.encode valid) file policy).drain.result.tokens ∧
        Run fresh fresh.drain.result.tokens last ∧ last.step.result = .error diagnostic ∧
        ∀ n, let later := (fun lexer : Lexer => lexer.step.lexer)^[n] last.step.lexer
          (∃ token, later.step.result = .ok token ∧ token.kind = .eof) ∧
          later.position = last.step.lexer.position ∧
          later.regions = last.step.lexer.regions := by
  intro fresh
  have hmalformed : fresh.cursor.malformed = (Utf8.decode source).malformed := rfl
  have hmode : fresh.mode ≠ .done := nofun
  obtain ⟨last, hrun, hlast⟩ := drain_cases fresh
  rcases hlast with ⟨token, hlast, hkind, hfailure, _⟩ | ⟨diagnostic, hlast, hfailure, _⟩
  · have hnone := malformed_of_run_eof hmode hrun hlast hkind
    obtain ⟨text, htext⟩ := Utf8.decode_malformed_eq_none_iff.mp (hmalformed.symm.trans hnone)
    rw [hfailure]
    exact ⟨⟨nofun, fun hinvalid => absurd htext (hinvalid text)⟩, nofun⟩
  · obtain ⟨hdone, byte, hbyte, rfl⟩ := diagnostic_of_run_error hrun hlast
    rw [hmalformed] at hbyte
    constructor
    · refine ⟨fun _ text htext => ?_, fun _ => by rw [hfailure]; rfl⟩
      rw [Utf8.decode_malformed_eq_none_iff.mpr ⟨text, htext⟩] at hbyte
      cases hbyte
    · intro diagnostic hdiagnostic
      obtain rfl := Option.some.inj (hfailure.symm.trans hdiagnostic)
      have hlimit : fresh.cursor.limit = (Utf8.encode (Utf8.decode source).text).length := by
        rw [Utf8.length_encode]
        exact Nat.zero_add _
      refine ⟨(Utf8.decode source).text, byte, last,
        Utf8.encode_prefix_iff.mpr (List.prefix_refl _), fun text => Utf8.encode_prefix_iff.mp,
        (Utf8.getElem?_length_encode_decode source).trans hbyte, by rw [hlimit]; rfl,
        fun hsize => ?_, ?_, hrun, hlast, fun n => ?_⟩
      · have hle : fresh.cursor.limit ≤ source.length := by
          rw [hlimit]
          exact (Utf8.encode_prefix_iff.mpr (List.prefix_refl _)).length_le
        exact (UInt32.toNat_ofNat_of_lt' (Nat.lt_of_le_of_lt hle hsize)).trans hlimit
      · -- the run is one of the text alone, and draining it goes on from there
        have hsame := (hrun.truncated (Utf8.encode (Utf8.decode source).text)).drain_tokens
        rw [truncated_ofBytes] at hsame
        exact ⟨_, hsame.symm⟩
      · obtain ⟨hlater, hposition, hregions⟩ := iterate_step_of_done hdone n
        exact ⟨⟨_, step_result_of_done hlater, rfl⟩, hposition, hregions⟩

end Lexer

end ScalaLexer

import ScalaLexer.Proofs.Lexer.Decoding

/-!
# Three ways to take all tokens out

Calling until the end is returned or a call fails is what all of them come to.
`Exhausts` says so without fuel: these tokens are returned on the way, this is why the
last call failed, if it did, and here the lexer is left.  There is one way to exhaust a
lexer (`exists_exhausts`, `Exhausts.unique`).

* **All at once.**  `Lexer.tokens` makes the same calls on fuel that suffices
  (`Exhausts.tokens_eq`).
* **Item by item.**  `Lexer.next?` looks at the mode before it calls.  A lexer that is
  done is not asked again, and no other lexer is spared a call, so the items are the
  tokens with the failure behind them, and nothing ever after (`Exhausts.asked_result`).
* **All items.**  `Lexer.collect` asks for them until there is none
  (`Exhausts.collect_eq`).

The last call is made in two ways.  Calling again at the end returns the end again,
where asking again does nothing.  Neither moves the lexer, and `SamePlace` is what the
three have in common.
-/

namespace ScalaLexer

namespace Lexer

variable [Unicode.Repertoire] {lexer after final : Lexer} {token : Token} {tokens : List Token}
  {diagnostic : Diagnostic} {failure : Option Diagnostic}
  {consultations : List Separator.Consultation}

/-! ## Calling until the end -/

/-- Calling until the end is returned or a call fails returns these tokens before and
leaves the lexer `final`.  The failure is the one of the last call. -/
inductive Exhausts : Lexer → List Token → Option Diagnostic → Lexer → Prop
  | eof {lexer after : Lexer} {token : Token} {consultations : List Separator.Consultation} :
      lexer.step = ⟨.ok token, after, consultations⟩ → token.kind = .eof →
      Exhausts lexer [] none after
  | error {lexer after : Lexer} {diagnostic : Diagnostic}
      {consultations : List Separator.Consultation} :
      lexer.step = ⟨.error diagnostic, after, consultations⟩ →
      Exhausts lexer [] (some diagnostic) after
  | token {lexer after final : Lexer} {token : Token} {tokens : List Token}
      {failure : Option Diagnostic} {consultations : List Separator.Consultation} :
      lexer.step = ⟨.ok token, after, consultations⟩ → token.kind ≠ .eof →
      Exhausts after tokens failure final → Exhausts lexer (token :: tokens) failure final

/-- Every lexer comes to an end. -/
theorem exists_exhausts (lexer : Lexer) :
    ∃ tokens failure final, lexer.Exhausts tokens failure final := by
  induction lexer using call_induction with
  | eof lexer token after consultations hstep hkind => exact ⟨[], none, after, .eof hstep hkind⟩
  | token lexer token after consultations hstep hkind ih =>
      obtain ⟨tokens, failure, final, hrest⟩ := ih
      exact ⟨token :: tokens, failure, final, .token hstep hkind hrest⟩
  | error lexer diagnostic after consultations hstep _ =>
      exact ⟨[], some diagnostic, after, .error hstep⟩

theorem Exhausts.unique {tokens' : List Token} {failure' : Option Diagnostic} {final' : Lexer}
    (h : lexer.Exhausts tokens failure final) (h' : lexer.Exhausts tokens' failure' final') :
    tokens = tokens' ∧ failure = failure' ∧ final = final' := by
  induction h generalizing tokens' with
  | eof hstep hkind =>
      cases h' with
      | eof hstep' _ => cases hstep.symm.trans hstep'; exact ⟨rfl, rfl, rfl⟩
      | error hstep' => cases hstep.symm.trans hstep'
      | token hstep' hkind' _ => cases hstep.symm.trans hstep'; exact absurd hkind hkind'
  | error hstep =>
      cases h' with
      | eof hstep' _ => cases hstep.symm.trans hstep'
      | error hstep' => cases hstep.symm.trans hstep'; exact ⟨rfl, rfl, rfl⟩
      | token hstep' _ _ => cases hstep.symm.trans hstep'
  | token hstep hkind _ ih =>
      cases h' with
      | eof hstep' hkind' => cases hstep.symm.trans hstep'; exact absurd hkind' hkind
      | error hstep' => cases hstep.symm.trans hstep'
      | token hstep' _ hrest' =>
          cases hstep.symm.trans hstep'
          obtain ⟨rfl, hrest⟩ := ih hrest'
          exact ⟨rfl, hrest⟩

/-- The record that draining keeps holds the same. -/
theorem Exhausts.drain_eq (h : lexer.Exhausts tokens failure final) :
    lexer.drain.result.tokens = tokens ∧ lexer.drain.result.failure = failure := by
  induction h with
  | eof hstep hkind => simp [drain_of_eof hstep hkind]
  | error hstep => simp [drain_of_error hstep, drain_of_done (mode_of_error hstep)]
  | token hstep hkind _ ih => simp [drain_of_token hstep hkind, ih]

/-- What a lexer makes of the tokens that it was exhausted of. -/
def outcome (tokens : List Token) : Option Diagnostic → Except Diagnostic (List Token)
  | none => .ok tokens
  | some diagnostic => .error diagnostic

/-! ## All at once -/

theorem Exhausts.tokensWithin_eq (h : lexer.Exhausts tokens failure final) {fuel : Nat}
    (hfuel : lexer.callsLeft ≤ fuel) :
    (tokensWithin fuel lexer).result = outcome tokens failure ∧
      (tokensWithin fuel lexer).lexer = final := by
  induction h generalizing fuel with
  | @eof lexer _ _ _ hstep hkind =>
      have hpos := callsLeft_pos lexer
      obtain ⟨less, rfl⟩ : ∃ less, fuel = less + 1 := ⟨fuel - 1, by omega⟩
      simp [tokensWithin, hstep, hkind, outcome]
  | @error lexer _ _ _ hstep =>
      have hpos := callsLeft_pos lexer
      obtain ⟨less, rfl⟩ : ∃ less, fuel = less + 1 := ⟨fuel - 1, by omega⟩
      simp [tokensWithin, hstep, outcome]
  | @token lexer after final token tokens failure _ hstep hkind _ ih =>
      have hless := callsLeft_of_token hstep hkind
      obtain ⟨less, rfl⟩ : ∃ less, fuel = less + 1 := ⟨fuel - 1, by omega⟩
      obtain ⟨hresult, hlexer⟩ := @ih less (by omega)
      simp only [tokensWithin, hstep, if_neg hkind, hresult]
      exact ⟨by cases failure <;> rfl, hlexer⟩

theorem Exhausts.tokens_eq (h : lexer.Exhausts tokens failure final) :
    lexer.tokens.result = outcome tokens failure ∧ lexer.tokens.lexer = final :=
  h.tokensWithin_eq (callsLeft_le_budget lexer)

/-! ## Item by item -/

/-- The two lexers stand at the same offset in the same open regions. -/
structure SamePlace (lexer lexer' : Lexer) : Prop where
  position : lexer'.position = lexer.position
  regions : lexer'.regions = lexer.regions

omit [Unicode.Repertoire] in
theorem SamePlace.refl (lexer : Lexer) : lexer.SamePlace lexer := ⟨rfl, rfl⟩

theorem next?_of_done (hdone : lexer.mode = .done) : lexer.next? = ⟨none, lexer, []⟩ := by
  simp [next?, hdone]

theorem next?_of_token (hstep : lexer.step = ⟨.ok token, after, consultations⟩)
    (hkind : token.kind ≠ .eof) : lexer.next? = ⟨some (.ok token), after, consultations⟩ := by
  have hmode := not_done_of_step hstep hkind
  simp [next?, hmode, hstep, hkind]

theorem next?_of_error (hstep : lexer.step = ⟨.error diagnostic, after, consultations⟩) :
    lexer.next? = ⟨some (.error diagnostic), after, consultations⟩ := by
  obtain ⟨_, hdispatch, _⟩ := step_eq_error.mp hstep
  have hmode := (dispatch_fault hdispatch).1
  simp [next?, hmode, hstep]

/-- At the end there is no item, whether the lexer is asked for the end or knows it. -/
theorem next?_of_eof (hstep : lexer.step = ⟨.ok token, after, consultations⟩)
    (hkind : token.kind = .eof) :
    lexer.next?.result = none ∧ lexer.next?.lexer.mode = .done ∧
      after.SamePlace lexer.next?.lexer := by
  by_cases hdone : lexer.mode = .done
  · obtain ⟨_, hposition, hregions⟩ := step_lexer_of_done hdone
    rw [hstep] at hposition hregions
    rw [next?_of_done hdone]
    exact ⟨rfl, hdone, hposition.symm, hregions.symm⟩
  · have hend : after.mode = .done := (mode_of_dispatch (step_eq_ok.mp hstep)).mpr hkind
    simp [next?, hdone, hstep, hkind, hend, SamePlace.refl]

/-- The lexer when it was asked for this many items. -/
def asked (n : Nat) (lexer : Lexer) : Lexer :=
  (fun lexer => lexer.next?.lexer)^[n] lexer

theorem asked_succ (n : Nat) (lexer : Lexer) : asked (n + 1) lexer = asked n lexer.next?.lexer :=
  rfl

theorem asked_of_done (hdone : lexer.mode = .done) (n : Nat) : asked n lexer = lexer := by
  induction n with
  | zero => rfl
  | succ n ih => rw [asked_succ, next?_of_done hdone, ih]

/-- The items of a lexer: the tokens it is exhausted of, and the failure behind them. -/
def items (tokens : List Token) (failure : Option Diagnostic) : List (Except Diagnostic Token) :=
  tokens.map .ok ++ failure.toList.map .error

/-- Each item is the answer when it is asked for, and there is none behind the last. -/
theorem Exhausts.asked_result (h : lexer.Exhausts tokens failure final) (n : Nat) :
    (asked n lexer).next?.result = (items tokens failure)[n]? := by
  induction h generalizing n with
  | eof hstep hkind =>
      obtain ⟨hnone, hdone, _⟩ := next?_of_eof hstep hkind
      cases n with
      | zero => exact hnone
      | succ n => rw [asked_succ, asked_of_done hdone, next?_of_done hdone]; rfl
  | error hstep =>
      cases n with
      | zero => exact congrArg Reply.result (next?_of_error hstep)
      | succ n =>
          have hdone := mode_of_error hstep
          rw [asked_succ, next?_of_error hstep, asked_of_done hdone, next?_of_done hdone]
          rfl
  | token hstep hkind _ ih =>
      cases n with
      | zero => exact congrArg Reply.result (next?_of_token hstep hkind)
      | succ n =>
          rw [asked_succ, next?_of_token hstep hkind, ih n]
          rfl

/-- Behind the last item the lexer stays where calling leaves it. -/
theorem Exhausts.asked_samePlace (h : lexer.Exhausts tokens failure final) {n : Nat}
    (hn : (items tokens failure).length < n) : final.SamePlace (asked n lexer) := by
  induction h generalizing n with
  | eof hstep hkind =>
      obtain ⟨less, rfl⟩ : ∃ less, n = less + 1 := ⟨n - 1, by omega⟩
      obtain ⟨_, hdone, hsame⟩ := next?_of_eof hstep hkind
      rw [asked_succ, asked_of_done hdone]
      exact hsame
  | error hstep =>
      obtain ⟨less, rfl⟩ : ∃ less, n = less + 1 := ⟨n - 1, by omega⟩
      rw [asked_succ, next?_of_error hstep, asked_of_done (mode_of_error hstep)]
      exact .refl _
  | @token _ _ _ token tokens failure _ hstep hkind _ ih =>
      have hlength : (items (token :: tokens) failure).length =
          (items tokens failure).length + 1 := rfl
      obtain ⟨less, rfl⟩ : ∃ less, n = less + 1 := ⟨n - 1, by omega⟩
      rw [asked_succ, next?_of_token hstep hkind]
      exact ih (by omega)

/-! ## All items -/

theorem Exhausts.collectWithin_eq (h : lexer.Exhausts tokens failure final) {fuel : Nat}
    (hfuel : lexer.callsLeft ≤ fuel) :
    (collectWithin fuel lexer).result = items tokens failure ∧
      final.SamePlace (collectWithin fuel lexer).lexer := by
  induction h generalizing fuel with
  | @eof lexer _ _ _ hstep hkind =>
      have hpos := callsLeft_pos lexer
      obtain ⟨less, rfl⟩ : ∃ less, fuel = less + 1 := ⟨fuel - 1, by omega⟩
      obtain ⟨hnone, _, hsame⟩ := next?_of_eof hstep hkind
      rcases hnext : lexer.next? with ⟨item, last, asked⟩
      rw [hnext] at hnone hsame
      cases hnone
      rw [collectWithin, hnext]
      exact ⟨rfl, hsame⟩
  | @error lexer after _ _ hstep =>
      have hless := callsLeft_of_error hstep
      have hpos := callsLeft_pos after
      -- one unit of fuel for the failure and one for finding out that nothing is left
      obtain ⟨less, rfl⟩ : ∃ less, fuel = less + 2 := ⟨fuel - 2, by omega⟩
      have hdone := next?_of_done (mode_of_error hstep)
      simp only [collectWithin, next?_of_error hstep, hdone]
      exact ⟨rfl, .refl _⟩
  | token hstep hkind _ ih =>
      have hless := callsLeft_of_token hstep hkind
      obtain ⟨less, rfl⟩ : ∃ less, fuel = less + 1 := ⟨fuel - 1, by omega⟩
      obtain ⟨hresult, hsame⟩ := @ih less (by omega)
      simp only [collectWithin, next?_of_token hstep hkind, hresult]
      exact ⟨rfl, hsame⟩

theorem Exhausts.collect_eq (h : lexer.Exhausts tokens failure final) :
    lexer.collect.result = items tokens failure ∧ final.SamePlace lexer.collect.lexer :=
  h.collectWithin_eq (callsLeft_le_budget lexer)

/-! ## The three agree -/

/-- Exhausting a fresh lexer fails where its source stops being the encoding of a text,
and only there. -/
theorem Exhausts.failure_of_ofBytes {source : List UInt8} {file : String}
    {policy : Separator.Policy}
    (h : (ofBytes source file policy).Exhausts tokens failure final) :
    (failure = none ∧ ∃ text, Utf8.encode text = source) ∨
      ∃ valid byte rest, source = Utf8.encode valid ++ byte :: rest ∧
        (∀ text, Utf8.encode text <+: source → text <+: valid) ∧
        failure = some ⟨.invalidEncoding byte, ⟨.ofNat (Utf8.encode valid).length, file⟩⟩ := by
  have hmode : (ofBytes source file policy).mode ≠ .done := nofun
  obtain ⟨last, hrun, hlast⟩ := drain_cases (ofBytes source file policy)
  rw [h.drain_eq.2] at hlast
  rcases hlast with ⟨token, hlast, hkind, hnone, _⟩ | ⟨diagnostic, hlast, hsome, _⟩
  · exact .inl ⟨hnone, Utf8.decode_malformed_eq_none_iff.mp
      (malformed_of_run_eof hmode hrun hlast hkind)⟩
  · obtain ⟨_, byte, hbyte, rfl⟩ := diagnostic_of_run_error hrun hlast
    have hmalformed : (Utf8.decode source).malformed = some byte := hbyte
    have hlimit : (ofBytes source file policy).cursor.limit =
        (Utf8.encode (Utf8.decode source).text).length := by
      rw [Utf8.length_encode]
      exact Nat.zero_add _
    obtain ⟨rest, hsource, hhead⟩ := Utf8.exists_eq_encode_decode_append source
    obtain ⟨behind, rfl⟩ := List.head?_eq_some_iff.mp (hhead.symm.trans hmalformed)
    refine .inr ⟨(Utf8.decode source).text, byte, behind, hsource,
      fun text => Utf8.encode_prefix_iff.mp, ?_⟩
    rw [hsome, hlimit]
    rfl

/-- A text has no malformed byte, so exhausting a lexer of it does not fail. -/
theorem Exhausts.failure_of_ofString {source file : String} {policy : Separator.Policy}
    (h : (ofString source file policy).Exhausts tokens failure final) : failure = none := by
  rcases h.failure_of_ofBytes with ⟨hnone, _⟩ | ⟨valid, byte, rest, hsource, hlongest, _⟩
  · exact hnone
  · rw [hsource] at hlongest
    exact absurd hsource (Utf8.encode_ne_of_longest hlongest source.toList)

/-- However the tokens are taken out of a lexer, whatever was done with it before, they
are the ones that calls return before the end or the first failure.  Taking them all at
once gives them or the failure; asking for one item after the other gives them, the
failure and nothing ever after; and the lexer is left at the same place.  The tokens of
a text are those of a fresh lexer. -/
theorem drivers_agree :
    (∀ lexer : Lexer, ∃ tokens failure final, lexer.Exhausts tokens failure final ∧
      lexer.tokens.result = outcome tokens failure ∧
      (∀ n, (asked n lexer).next?.result = (items tokens failure)[n]?) ∧
      lexer.collect.result = items tokens failure ∧
      final.SamePlace lexer.tokens.lexer ∧ final.SamePlace lexer.collect.lexer ∧
      ∀ n, (items tokens failure).length < n → final.SamePlace (asked n lexer)) ∧
    ∀ source file : String, ∃ tokens final,
      (ofString source file).Exhausts tokens none final ∧ tokenize source file = .ok tokens := by
  constructor
  · intro lexer
    obtain ⟨tokens, failure, final, h⟩ := exists_exhausts lexer
    obtain ⟨hresult, hlexer⟩ := h.tokens_eq
    obtain ⟨hitems, hcollected⟩ := h.collect_eq
    exact ⟨tokens, failure, final, h, hresult, h.asked_result, hitems, hlexer ▸ .refl _,
      hcollected, fun n hn => h.asked_samePlace hn⟩
  · intro source file
    obtain ⟨tokens, failure, final, h⟩ := exists_exhausts (ofString source file)
    obtain rfl := h.failure_of_ofString
    exact ⟨tokens, final, h, h.tokens_eq.1⟩

end Lexer

end ScalaLexer

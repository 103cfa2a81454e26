import ScalaLexer.Proofs.Lexer.Run
import ScalaLexer.Proofs.Lexer.LookAhead

/-!
# A lexer in use

Between its calls a lexer may be asked to look ahead.  A `Session` is a lexer in
use, together with the tokens that its calls have returned so far.  What the lexer
remembers of them can be told from these tokens alone.

* `lastSignificant` is the kind of the last of them that is neither a comment nor
  an error.
* `openRegions` are the regions that they leave open, bracket by bracket.

`Session.Tracks.serve` says that every request keeps this up, and
`session_tracks` that it holds of every session of a fresh lexer.  Looking ahead
has to take back what it did to the regions on each of its levels; the rest is
restored from a snapshot.
-/

namespace ScalaLexer

/-! ## What the tokens tell -/

/-- The kinds of tokens that a lexer remembers. -/
def TokenKind.isSignificant : TokenKind → Bool
  | .comment | .error => false
  | _ => true

/-- The kind of the last token that is neither a comment nor an error. -/
def lastSignificant (tokens : List Token) : Option TokenKind :=
  ((tokens.map Token.kind).filter TokenKind.isSignificant).getLast?

/-- The regions that the tokens leave open, the innermost first: an opening bracket
opens a region and a closing one closes the innermost. -/
def openRegions (tokens : List Token) : List Bracket :=
  tokens.foldl (fun regions token => token.kind.regionEffect.apply regions) []

/-- Every closing bracket closes the region that is innermost where it stands. -/
def WellNested (tokens : List Token) : Prop :=
  ∀ before token, before ++ [token] <+: tokens →
    token.kind.regionEffect.Admissible (openRegions before)

theorem lastSignificant_snoc (tokens : List Token) (token : Token) :
    lastSignificant (tokens ++ [token]) = Lexer.remember token.kind (lastSignificant tokens) := by
  unfold lastSignificant
  rw [List.map_append, List.filter_append]
  cases hkind : token.kind <;> simp [TokenKind.isSignificant, Lexer.remember, hkind]

theorem openRegions_snoc (tokens : List Token) (token : Token) :
    openRegions (tokens ++ [token]) = token.kind.regionEffect.apply (openRegions tokens) := by
  rw [openRegions, List.foldl_append]
  rfl

theorem wellNested_nil : WellNested [] := by
  intro before token hprefix
  have hnil := List.prefix_nil.mp hprefix
  simp at hnil

theorem WellNested.snoc {tokens : List Token} {token : Token} (hnested : WellNested tokens)
    (htoken : token.kind.regionEffect.Admissible (openRegions tokens)) :
    WellNested (tokens ++ [token]) := by
  intro before last hprefix
  rcases List.prefix_concat_iff.mp hprefix with heq | hearlier
  · obtain ⟨rfl, hlast⟩ := List.append_inj' heq rfl
    obtain rfl : last = token := by simpa using hlast
    exact htoken
  · exact hnested before last hearlier

/-! ## Sessions -/

/-- What a lexer can be asked. -/
inductive Request where
  /-- The next token. -/
  | call
  /-- The token `n` places behind the next one. -/
  | lookAhead (n : Nat)

/-- A lexer in use, with the tokens that its calls have returned. -/
structure Session where
  tokens : List Token
  lexer : Lexer

variable [Unicode.Repertoire]

/-- Answers a request.  A call that fails returns no token. -/
def Session.serve (session : Session) : Request → Session
  | .call =>
    { tokens := session.tokens ++ session.lexer.step.result.toOption.toList
      lexer := session.lexer.step.lexer }
  | .lookAhead n => { session with lexer := (Lexer.lookAhead n session.lexer).lexer }

namespace Lexer

/-- The session in which these requests were answered, one after the other. -/
def session (lexer : Lexer) (requests : List Request) : Session :=
  requests.foldl Session.serve ⟨[], lexer⟩

variable {lexer after : Lexer} {token : Token} {consultations : List Separator.Consultation}
  {closing : List Char} {answer : Answer}

/-! ## What one call remembers -/

omit [Unicode.Repertoire] in
theorem Taken.lastToken (htaken : lexer.Taken closing answer) :
    answer.lexer.lastToken =
      match answer.result with
      | .ok token => remember token.kind lexer.lastToken
      | .error _ => lexer.lastToken := by
  cases htaken with
  | fault => rfl
  | lexeme => rfl
  | separator => rfl

theorem lastToken_of_step (lexer : Lexer) :
    lexer.step.lexer.lastToken =
      match lexer.step.result with
      | .ok token => remember token.kind lexer.lastToken
      | .error _ => lexer.lastToken := by
  by_cases hmode : lexer.mode = .done
  · rw [step_of_done hmode]
    rfl
  · have hlast := (dispatch_taken hmode).lastToken
    unfold step
    split <;> next h => rw [h] at hlast; exact hlast

theorem step_frames (lexer : Lexer) : lexer.Frames lexer.step := by
  have hframes := dispatch_frames lexer
  unfold step
  split <;> next h =>
    rw [h] at hframes
    exact ⟨hframes.source, hframes.file, hframes.policy, hframes.token, hframes.error⟩

/-! ## What a lexer answers -/

/-- What the lexer answers to a request. -/
def reply (lexer : Lexer) : Request → Answer
  | .call => lexer.step
  | .lookAhead n => lookAhead n lexer

/-- What the lexer answers to these requests, one after the other. -/
def replies (lexer : Lexer) : List Request → List (Except Diagnostic Token)
  | [] => []
  | request :: requests =>
    (lexer.reply request).result :: (lexer.reply request).lexer.replies requests

/-- The tokens returned so far make no difference to the lexer. -/
theorem lexer_foldl_serve (session : Session) (requests : List Request) :
    (requests.foldl Session.serve session).lexer = (session.lexer.session requests).lexer := by
  have hsame (first second : Session) (h : first.lexer = second.lexer) :
      (requests.foldl Session.serve first).lexer = (requests.foldl Session.serve second).lexer := by
    induction requests generalizing first second with
    | nil => exact h
    | cons request requests ih =>
        refine ih _ _ ?_
        cases request with
        | call => exact congrArg (fun lexer => lexer.step.lexer) h
        | lookAhead n => exact congrArg (fun lexer => (lookAhead n lexer).lexer) h
  exact hsame _ _ rfl

theorem session_cons_lexer (lexer : Lexer) (request : Request) (requests : List Request) :
    (lexer.session (request :: requests)).lexer =
      ((lexer.reply request).lexer.session requests).lexer := by
  rw [session, List.foldl_cons, lexer_foldl_serve]
  cases request <;> rfl

end Lexer

/-! ## What a session remembers -/

/-- What the lexer of a session remembers can be told from the tokens. -/
structure Session.Tracks (policy : Separator.Policy) (session : Session) : Prop where
  policy : session.lexer.policy = policy
  lastToken : session.lexer.lastToken = lastSignificant session.tokens
  regions : session.lexer.regions = openRegions session.tokens
  nested : WellNested session.tokens

variable {policy : Separator.Policy} {session : Session}

theorem Session.Tracks.serve_call (htracks : session.Tracks policy) :
    (session.serve .call).Tracks policy := by
  obtain ⟨hpolicy, hlast, hregions, hnested⟩ := htracks
  have hframes := Lexer.step_frames session.lexer
  have hremembered := Lexer.lastToken_of_step session.lexer
  rcases hstep : session.lexer.step with ⟨diagnostic | token, after, consultations⟩
  · rw [hstep] at hframes hremembered
    have hserve : session.serve .call = ⟨session.tokens, after⟩ := by
      simp [Session.serve, hstep, Except.toOption]
    rw [hserve]
    exact ⟨hframes.policy.trans hpolicy, hremembered.trans hlast,
      (hframes.error diagnostic rfl).trans hregions, hnested⟩
  · rw [hstep] at hframes hremembered
    have hserve : session.serve .call = ⟨session.tokens ++ [token], after⟩ := by
      simp [Session.serve, hstep, Except.toOption]
    obtain ⟨hadmissible, happlied⟩ := hframes.token token rfl
    rw [hregions] at hadmissible happlied
    rw [hserve]
    refine ⟨hframes.policy.trans hpolicy, ?_, ?_, hnested.snoc hadmissible⟩
    · rw [lastSignificant_snoc, ← hlast]
      exact hremembered
    · rw [openRegions_snoc]
      exact happlied

theorem Session.Tracks.serve (htracks : session.Tracks policy) (request : Request) :
    (session.serve request).Tracks policy := by
  cases request with
  | call => exact htracks.serve_call
  | lookAhead n =>
      have hsame : session.serve (.lookAhead n) = session :=
        congrArg (Session.mk session.tokens) (Lexer.lookAhead_untouched n session.lexer)
      rw [hsame]
      exact htracks

theorem Session.Tracks.foldl_serve (htracks : session.Tracks policy) (requests : List Request) :
    (requests.foldl Session.serve session).Tracks policy := by
  induction requests generalizing session with
  | nil => exact htracks
  | cons request requests ih => exact ih (htracks.serve request)

namespace Lexer

/-- Whatever a fresh lexer is asked, it remembers what its tokens tell. -/
theorem session_tracks (source : List UInt8) (file : String) (policy : Separator.Policy)
    (requests : List Request) :
    ((ofBytes source file policy).session requests).Tracks policy := by
  have hfresh : Session.Tracks policy ⟨[], ofBytes source file policy⟩ :=
    ⟨rfl, rfl, rfl, wellNested_nil⟩
  exact hfresh.foldl_serve requests

/-- A run is a session of calls. -/
theorem Run.foldl_serve {lexer last : Lexer} {tokens : List Token} (hrun : Run lexer tokens last)
    (seen : List Token) :
    (List.replicate tokens.length Request.call).foldl Session.serve ⟨seen, lexer⟩ =
      ⟨seen ++ tokens, last⟩ := by
  induction hrun generalizing seen with
  | nil => simp
  | @cons lexer after _ token tokens _ hstep _ _ ih =>
      have hserve : Session.serve ⟨seen, lexer⟩ .call = ⟨seen ++ [token], after⟩ := by
        simp [Session.serve, hstep, Except.toOption]
      rw [List.length_cons, List.replicate_succ, List.foldl_cons, hserve, ih,
        List.append_assoc, List.singleton_append]

/-- Behind a run the lexer remembers what the tokens of the run tell. -/
theorem Run.tracks {source : List UInt8} {file : String} {policy : Separator.Policy}
    {last : Lexer} {tokens : List Token} (hrun : Run (ofBytes source file policy) tokens last) :
    Session.Tracks policy ⟨tokens, last⟩ := by
  have htracks := session_tracks source file policy (List.replicate tokens.length .call)
  rwa [session, hrun.foldl_serve] at htracks

end Lexer

end ScalaLexer

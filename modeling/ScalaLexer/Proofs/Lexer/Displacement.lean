import ScalaLexer.Proofs.Scan.Displacement
import ScalaLexer.Proofs.Lexer.Finding
import ScalaLexer.Proofs.Lexer.Session
import ScalaLexer.Proofs.Lexer.Composition
import ScalaLexer.Unicode.Release

/-!
# A lexer does not look behind

What stands in front of a lexer makes no difference to it.  `Lexer.Displaced k` relates
a lexer to one that does the same `k` bytes further behind.  It is kept up by whatever
the two are asked (`Displaced.reply`), and their answers differ by these `k` bytes.

The relation is proved along the parts of a call: the same lexeme is found at both
places (`find_alike`), the policies agree about a line break in front of it
(`Displaced.answerTo`), and this is all that a call does (`Displaced.dispatch`).

The main statement is `replies_behind`, about two lexers in front of the same text, each
of them behind another one.  Neither text need be shorter than the other, so both lexers
are compared with one that has nothing in front of it at all.
-/

namespace ScalaLexer

open Trivia

/-- The same diagnostic `k` bytes further behind. -/
def Diagnostic.shift (k : Nat) (diagnostic : Diagnostic) : Diagnostic :=
  { diagnostic with
    position := ⟨diagnostic.position.offset + .ofNat k, diagnostic.position.file⟩ }

/-- The same question about a token `k` bytes further behind. -/
def Separator.Context.shift (k : Nat) (context : Context) : Context :=
  { context with next := context.next.shift k }

/-! ## What is found -/

theorem Mode.skipClosing_alike (mode : Mode) {k : Nat} {cursor cursor' : Cursor}
    (hcursor : cursor.Displaced k cursor') :
    Scan.Alike k Eq (mode.skipClosing cursor) (mode.skipClosing cursor') := by
  cases mode with
  | start => exact .ok rfl hcursor
  | done => exact .ok rfl hcursor
  | closingQuote => exact Scan.skip_alike hcursor
  | closingTripleQuote => exact Scan.skipWhile_alike _ hcursor

/-- The second finding is the first one, `k` bytes further behind. -/
structure Finding.Displaced (k : Nat) (finding finding' : Finding) : Prop where
  lineBreak : Option.Rel (Cursor.Displaced k) finding.lineBreak finding'.lineBreak
  place : finding.place.Displaced k finding'.place
  lexeme : finding'.lexeme = finding.lexeme.shift k
  regions : finding'.regions = finding.regions
  after : finding.after.Displaced k finding'.after

/-- What is found differs by its place only. -/
inductive Finding.Alike (k : Nat) :
    Except (Fault × Cursor) Finding → Except (Fault × Cursor) Finding → Prop
  | ok {finding finding' : Finding} : finding.Displaced k finding' →
      Alike k (.ok finding) (.ok finding')
  | error (fault : Fault) {place place' : Cursor} : place.Displaced k place' →
      Alike k (.error (fault, place)) (.error (fault.shift k, place'))

section Find

variable {k : Nat} {cursor cursor' : Cursor}

theorem approach_alike (mode : Mode) (hcursor : cursor.Displaced k cursor') :
    Scan.Alike k (Option.Rel (Cursor.Displaced k)) (approach mode cursor)
      (approach mode cursor') := by
  refine (mode.skipClosing_alike hcursor).bind fun _ _ begin begin' _ hbegin => ?_
  refine (skipBlanks_alike hbegin).bind fun _ _ line line' _ hline => ?_
  change Scan.Alike k _ ((if line.ahead.head? = some '\n' then _ else _ : Scan _) line)
    ((if line'.ahead.head? = some '\n' then _ else _ : Scan _) line')
  rw [hline.ahead]
  by_cases hbreak : line.ahead.head? = some '\n'
  · rw [if_pos hbreak, if_pos hbreak]
    refine (skipLines_alike hline).bind fun _ _ _ _ _ hafter => ?_
    exact (Scan.release_alike hafter).bind fun _ _ _ _ _ hbehind => .ok (.some hline) hbehind
  · rw [if_neg hbreak, if_neg hbreak]
    exact .ok .none hline

theorem find_alike [Unicode.Repertoire] (mode : Mode) (regions : List Bracket)
    (hcursor : cursor.Displaced k cursor') :
    Finding.Alike k (find mode regions cursor) (find mode regions cursor') := by
  have happroach := approach_alike mode hcursor
  cases h : approach mode cursor with
  | error fault place =>
      obtain ⟨place', herror, hplace⟩ := (h ▸ happroach).of_error
      rw [find_of_approach_error h, find_of_approach_error herror]
      exact .error fault hplace
  | ok lineBreak place =>
      obtain ⟨lineBreak', place', hok, hbreak, hplace⟩ := (h ▸ happroach).of_ok
      have hscan := Lexeme.scan_alike regions hplace
      cases hfound : Lexeme.scan regions place with
      | ok found after =>
          obtain ⟨_, after', hok', rfl, hafter⟩ := (hfound ▸ hscan).of_ok
          rw [find_of_scan_ok h hfound, find_of_scan_ok hok hok']
          exact .ok ⟨hbreak, hplace, rfl, rfl, hafter⟩
      | error fault after =>
          obtain ⟨after', herror, hafter⟩ := (hfound ▸ hscan).of_error
          rw [find_of_scan_error h hfound, find_of_scan_error hok herror]
          cases hbreak with
          | none => exact .error fault hafter
          | some => exact .error fault hplace

end Find

namespace Lexer

/-! ## What is answered -/

/-- The second lexer does as the first one, `k` bytes further behind.  A policy is told
where the next token stands, so the policies have to agree about tokens `k` bytes apart. -/
structure Displaced (k : Nat) (lexer lexer' : Lexer) : Prop where
  file : lexer'.file = lexer.file
  policy : ∀ context : Separator.Context, lexer'.policy (context.shift k) = lexer.policy context
  cursor : lexer.cursor.Displaced k lexer'.cursor
  mode : lexer'.mode = lexer.mode
  lastToken : lexer'.lastToken = lexer.lastToken
  regions : lexer'.regions = lexer.regions

/-- The same result `k` bytes further behind. -/
def shiftResult (k : Nat) : Except Diagnostic Token → Except Diagnostic Token
  | .ok token => .ok (token.shift k)
  | .error diagnostic => .error (diagnostic.shift k)

/-- The second answer is the first one, `k` bytes further behind. -/
structure Reply.Displaced (k : Nat) (answer answer' : Answer) : Prop where
  result : answer'.result = shiftResult k answer.result
  lexer : answer.lexer.Displaced k answer'.lexer

theorem separator_shift (start k : Nat) (run : List Char) :
    separator (start + k) run = (separator start run).shift k := by
  simp only [separator, Lexeme.shift, Nat.add_right_comm]

namespace Displaced

variable {k : Nat} {lexer lexer' : Lexer} {finding finding' : Finding} {place place' : Cursor}

theorem deliver (hlexer : lexer.Displaced k lexer') (hplace : place.Displaced k place')
    (lexeme : Lexeme) (regions : List Bracket) :
    Reply.Displaced k ((lexer.moveTo place).deliver lexeme regions)
      ((lexer'.moveTo place').deliver (lexeme.shift k) regions) := by
  refine ⟨?_, hlexer.file, hlexer.policy, hplace, rfl, ?_, rfl⟩
  · change Except.ok (tokenOf _ _) = Except.ok ((tokenOf _ _).shift k)
    simp only [tokenOf, moveTo, Lexeme.shift, Token.shift, hlexer.file]
  · change remember _ lexer'.lastToken = remember _ lexer.lastToken
    rw [hlexer.lastToken]
    rfl

theorem fail (hlexer : lexer.Displaced k lexer') (hplace : place.Displaced k place')
    (fault : Fault) :
    Reply.Displaced k (lexer.fail fault place) (lexer'.fail (fault.shift k) place') := by
  refine ⟨?_, hlexer.file, hlexer.policy, hplace, hlexer.mode, hlexer.lastToken, hlexer.regions⟩
  change Except.error (diagnosticOf _ _) = Except.error ((diagnosticOf _ _).shift k)
  simp only [diagnosticOf, Fault.shift, Diagnostic.shift, hlexer.file]

/-- The policies agree about a line break in front of a lexeme. -/
theorem decision (hlexer : lexer.Displaced k lexer') (lexeme : Lexeme) :
    (lexer'.consult (lexer'.tokenOf (lexeme.shift k))).decision =
      (lexer.consult (lexer.tokenOf lexeme)).decision := by
  have hpolicy := hlexer.policy
    ⟨lexer.lastToken, lexer.tokenOf lexeme, lexer.regions.head?.map .opening⟩
  refine Eq.trans ?_ hpolicy
  change lexer'.policy ⟨_, _, _⟩ = lexer'.policy _
  rw [hlexer.lastToken, hlexer.regions, tokenOf, hlexer.file]
  rfl

theorem deliverFound (hlexer : lexer.Displaced k lexer') (hfinding : finding.Displaced k finding') :
    Reply.Displaced k (lexer.deliverFound finding) (lexer'.deliverFound finding') := by
  unfold Lexer.deliverFound
  rw [hfinding.lexeme, hfinding.regions]
  exact hlexer.deliver hfinding.after finding.lexeme finding.regions

theorem deliverBreak (hlexer : lexer.Displaced k lexer') (hfinding : finding.Displaced k finding')
    {line line' : Cursor} (hline : line.Displaced k line') :
    Reply.Displaced k (lexer.deliverBreak finding line) (lexer'.deliverBreak finding' line') := by
  unfold Lexer.deliverBreak
  rw [hline.pos, hline.ahead, separator_shift, hlexer.regions]
  exact hlexer.deliver hfinding.place _ lexer.regions

theorem answerTo (hlexer : lexer.Displaced k lexer') (hfinding : finding.Displaced k finding') :
    Reply.Displaced k (lexer.answerTo finding) (lexer'.answerTo finding') := by
  have hfound := hlexer.deliverFound hfinding
  have hbreak := hfinding.lineBreak
  unfold Lexer.answerTo
  generalize finding.lineBreak = lineBreak at hbreak ⊢
  generalize finding'.lineBreak = lineBreak' at hbreak ⊢
  cases hbreak with
  | none => exact hfound
  | some hline =>
      rw [hfinding.lexeme]
      dsimp only
      rw [hlexer.decision finding.lexeme]
      split
      · have hseparator := hlexer.deliverBreak hfinding hline
        exact ⟨hseparator.result, hseparator.lexer⟩
      · exact ⟨hfound.result, hfound.lexer⟩

/-! ## What is asked -/

variable [Unicode.Repertoire]

theorem dispatch (hlexer : lexer.Displaced k lexer') :
    Reply.Displaced k lexer.dispatch lexer'.dispatch := by
  by_cases hdone : lexer.mode = .done
  · rw [dispatch_of_done hdone, dispatch_of_done (hlexer.mode.trans hdone)]
    refine ⟨?_, hlexer.file, hlexer.policy, hlexer.cursor.release.settle, hlexer.mode, rfl,
      hlexer.regions⟩
    simp only [shiftResult, Token.shift, endToken, hlexer.cursor.start, hlexer.cursor.pos,
      hlexer.cursor.pending, hlexer.file]
  · have hfind := find_alike lexer.mode lexer.regions hlexer.cursor
    rw [dispatch_of_find hdone, dispatch_of_find (hlexer.mode ▸ hdone), hlexer.mode, hlexer.regions]
    generalize find lexer.mode lexer.regions lexer.cursor = found at hfind ⊢
    generalize find lexer.mode lexer.regions lexer'.cursor = found' at hfind ⊢
    cases hfind with
    | ok hfinding => exact hlexer.answerTo hfinding
    | error fault hplace => exact hlexer.fail hplace fault

theorem step (hlexer : lexer.Displaced k lexer') :
    Reply.Displaced k lexer.step lexer'.step := by
  have hdispatch := hlexer.dispatch
  unfold Lexer.step
  generalize lexer.dispatch = answer at hdispatch ⊢
  generalize lexer'.dispatch = answer' at hdispatch ⊢
  obtain ⟨result, after, asked⟩ := answer
  obtain ⟨_, after', asked'⟩ := answer'
  obtain ⟨rfl, hafter⟩ := hdispatch
  cases result with
  | ok token => exact ⟨rfl, hafter⟩
  | error diagnostic =>
      exact ⟨rfl, hafter.file, hafter.policy, hafter.cursor, rfl, hafter.lastToken, hafter.regions⟩

omit [Unicode.Repertoire] in
/-- A trial tells the same and puts both lexers back. -/
theorem trial {first first' : Answer} {further further' : Token → Lexer → Answer}
    (hlexer : lexer.Displaced k lexer') (hfirst : Reply.Displaced k first first')
    (hfurther : ∀ token after after', after.Displaced k after' →
      Reply.Displaced k (further token after) (further' (token.shift k) after')) :
    Reply.Displaced k (lexer.trial first further) (lexer'.trial first' further') := by
  have hbegun : lexer'.cursor.start < lexer'.cursor.pos ↔
      lexer.cursor.start < lexer.cursor.pos := by
    rw [hlexer.cursor.start, hlexer.cursor.pos]
    exact Nat.add_lt_add_iff_right
  obtain ⟨result, after, asked⟩ := first
  obtain ⟨_, after', asked'⟩ := first'
  obtain ⟨rfl, hafter⟩ := hfirst
  by_cases hpending : lexer.cursor.start < lexer.cursor.pos
  · rw [trial_of_begun _ hpending, trial_of_begun _ (hbegun.mpr hpending)]
    refine ⟨?_, hlexer⟩
    simp only [shiftResult, Diagnostic.shift, misuse, hlexer.cursor.pending, hlexer.cursor.start,
      hlexer.file, UInt32.ofNat_add]
  · have hpending' := mt hbegun.mp hpending
    cases result with
    | error diagnostic =>
        dsimp only [shiftResult]
        rw [trial_of_error hpending, trial_of_error hpending']
        exact ⟨rfl, hafter.file, hafter.policy, hlexer.cursor, hlexer.mode, hlexer.lastToken,
          hafter.regions⟩
    | ok token =>
        have hdeeper := hfurther token after after' hafter
        dsimp only [shiftResult]
        rw [trial_of_ok hpending, trial_of_ok hpending']
        refine ⟨hdeeper.result, hdeeper.lexer.file, hdeeper.lexer.policy, hlexer.cursor,
          hlexer.mode, hlexer.lastToken, ?_⟩
        exact congrArg token.kind.regionEffect.undo hdeeper.lexer.regions

theorem lookAhead (hlexer : lexer.Displaced k lexer') (n : Nat) :
    Reply.Displaced k (lookAhead n lexer) (lookAhead n lexer') := by
  induction n generalizing lexer lexer' with
  | zero => exact hlexer.trial hlexer.dispatch fun token _ _ hafter => ⟨rfl, hafter⟩
  | succ n ih => exact hlexer.trial hlexer.dispatch fun _ _ _ hafter => ih hafter

theorem reply (hlexer : lexer.Displaced k lexer') (request : Request) :
    Reply.Displaced k (lexer.reply request) (lexer'.reply request) := by
  cases request with
  | call => exact hlexer.step
  | lookAhead n => exact hlexer.lookAhead n

theorem replies (hlexer : lexer.Displaced k lexer') (requests : List Request) :
    lexer'.replies requests = (lexer.replies requests).map (shiftResult k) := by
  induction requests generalizing lexer lexer' with
  | nil => rfl
  | cons request requests ih =>
      have hreply := hlexer.reply request
      rw [Lexer.replies, Lexer.replies, List.map_cons, hreply.result, ih hreply.lexer]

theorem session (hlexer : lexer.Displaced k lexer') (requests : List Request) :
    (lexer.session requests).lexer.Displaced k (lexer'.session requests).lexer := by
  induction requests generalizing lexer lexer' with
  | nil => exact hlexer
  | cons request requests ih =>
      rw [session_cons_lexer, session_cons_lexer]
      exact ih (hlexer.reply request).lexer

end Displaced

/-! ## Two texts in front of the same one -/

/-- The lexer stands between the parts `front` and `rest` of its source, and nothing is
pending. -/
structure StandsBetween (lexer : Lexer) (front rest : List UInt8) : Prop where
  source : lexer.source = front ++ rest
  cursor : ∃ width, lexer.cursor =
    { Cursor.ofOffsets lexer.source front.length front.length with width }

/-- Both lexers remember the same of what they have read. -/
structure SameMemory (lexer lexer' : Lexer) : Prop where
  mode : lexer'.mode = lexer.mode
  lastToken : lexer'.lastToken = lexer.lastToken
  regions : lexer'.regions = lexer.regions

theorem SameMemory.trans {first second third : Lexer} (hfirst : first.SameMemory second)
    (hsecond : second.SameMemory third) : first.SameMemory third :=
  ⟨hsecond.mode.trans hfirst.mode, hsecond.lastToken.trans hfirst.lastToken,
    hsecond.regions.trans hfirst.regions⟩

theorem SameMemory.symm {lexer lexer' : Lexer} (hmemory : lexer.SameMemory lexer') :
    lexer'.SameMemory lexer :=
  ⟨hmemory.mode.symm, hmemory.lastToken.symm, hmemory.regions.symm⟩

theorem Displaced.memory {k : Nat} {lexer lexer' : Lexer} (hlexer : lexer.Displaced k lexer') :
    lexer.SameMemory lexer' :=
  ⟨hlexer.mode, hlexer.lastToken, hlexer.regions⟩

theorem shiftResult_shiftResult (k l : Nat) (result : Except Diagnostic Token) :
    shiftResult k (shiftResult l result) = shiftResult (k + l) result := by
  cases result with
  | ok token => simp only [shiftResult, Token.shift, Nat.add_assoc, Nat.add_comm l]
  | error diagnostic =>
      simp only [shiftResult, Diagnostic.shift, UInt32.add_assoc, Nat.add_comm k, UInt32.ofNat_add]

section Behind

variable {lexer lexer' : Lexer} {front front' rest : List UInt8}

/-- What the lexer would be with nothing in front of it. -/
def alone (lexer : Lexer) (front rest : List UInt8) : Lexer :=
  { lexer with
    source := rest
    policy := fun context => lexer.policy (context.shift front.length)
    cursor := .ofOffsets rest 0 0 }

theorem StandsBetween.displaced (hlexer : lexer.StandsBetween front rest) :
    (Cursor.ofOffsets rest 0 0).Displaced front.length lexer.cursor := by
  obtain ⟨hsource, width, hcursor⟩ := hlexer
  rw [hcursor, hsource]
  have hbehind : (front ++ rest).drop front.length = rest := List.drop_left
  refine ⟨(Nat.zero_add _).symm, (Nat.zero_add _).symm, ?_, ?_, ?_⟩
  · change Utf8.decodeLossy _ = Utf8.decodeLossy _
    rw [List.drop_take_self]
    rfl
  · change (Utf8.decode _).text = (Utf8.decode _).text
    rw [hbehind]
    rfl
  · change (Utf8.decode _).malformed = (Utf8.decode _).malformed
    rw [hbehind]
    rfl

/-- **No look-behind.**  Two lexers stand in front of the same text, behind different
ones.  If they remember the same and their policies agree, then whatever they are asked,
they answer the same, as far apart as they stand, and go on remembering the same.

A policy is told the next token with its place in the file.  So policies agree if they
answer alike about the same text at the two places, as a policy does with itself if it
has no interest in places. -/
theorem replies_behind [Unicode.Repertoire] (hlexer : lexer.StandsBetween front rest)
    (hlexer' : lexer'.StandsBetween front' rest) (hmemory : lexer.SameMemory lexer')
    (hfile : lexer'.file = lexer.file)
    (hpolicy : ∀ context : Separator.Context,
      lexer.policy (context.shift front.length) = lexer'.policy (context.shift front'.length))
    (requests : List Request) :
    (lexer'.replies requests).map (shiftResult front.length) =
        (lexer.replies requests).map (shiftResult front'.length) ∧
      (lexer.session requests).lexer.SameMemory (lexer'.session requests).lexer := by
  let base := lexer.alone front rest
  have hbase : base.Displaced front.length lexer :=
    ⟨rfl, fun _ => rfl, hlexer.displaced, rfl, rfl, rfl⟩
  have hbase' : base.Displaced front'.length lexer' :=
    ⟨hfile, fun context => (hpolicy context).symm, hlexer'.displaced, hmemory.mode,
      hmemory.lastToken, hmemory.regions⟩
  constructor
  · rw [hbase.replies, hbase'.replies, List.map_map, List.map_map]
    refine List.map_congr_left fun result _ => ?_
    rw [Function.comp_apply, Function.comp_apply, shiftResult_shiftResult, shiftResult_shiftResult,
      Nat.add_comm]
  · exact (hbase.session requests).memory.symm.trans (hbase'.session requests).memory

/-- Not even an open comment in front of a lexer is noticed. -/
theorem replies_behind_open_comment :
    let rest := Utf8.encode "= (1\n\ny".toList
    let lexer (front : List UInt8) : Lexer :=
      { ofBytes (front ++ rest) with
        cursor := .ofOffsets (front ++ rest) front.length front.length
        lastToken := some .identifier }
    let word := Utf8.encode "val x ".toList
    let comment := Utf8.encode "/* é".toList
    let requests : List Request := [.call, .lookAhead 2, .call, .call]
    ((lexer comment).replies requests).map (shiftResult word.length) =
      ((lexer word).replies requests).map (shiftResult comment.length) := by
  intro rest lexer word comment requests
  have hword : (lexer word).StandsBetween word rest := ⟨rfl, 0, rfl⟩
  have hcomment : (lexer comment).StandsBetween comment rest := ⟨rfl, 0, rfl⟩
  exact (replies_behind hword hcomment ⟨rfl, rfl, rfl⟩ rfl (fun _ => rfl) requests).1

/-- A policy that looks at the place of the next token tells the two apart. -/
theorem replies_behind_placed :
    ¬ ∀ (lexer lexer' : Lexer) (front front' rest : List UInt8) (requests : List Request),
      front.length + rest.length < UInt32.size → front'.length + rest.length < UInt32.size →
      lexer.StandsBetween front rest → lexer'.StandsBetween front' rest →
      lexer.SameMemory lexer' → lexer'.file = lexer.file → lexer'.policy = lexer.policy →
        (lexer'.replies requests).map (shiftResult front.length) =
          (lexer.replies requests).map (shiftResult front'.length) := by
  intro hclaim
  let rest := Utf8.encode "\ny".toList
  let lexer (front : List UInt8) : Lexer :=
    { ofBytes (front ++ rest) "shell" (fun context => context.next.span.start < 5) with
      cursor := .ofOffsets (front ++ rest) front.length front.length
      lastToken := some .identifier }
  have hsame := hclaim (lexer [0x78]) (lexer (List.replicate 8 0x78)) [0x78]
    (List.replicate 8 0x78) rest [.call] (by decide) (by decide) ⟨rfl, 0, rfl⟩ ⟨rfl, 0, rfl⟩
    ⟨rfl, rfl, rfl⟩ rfl rfl
  exact absurd hsame (by decide +kernel)

end Behind

end Lexer

end ScalaLexer

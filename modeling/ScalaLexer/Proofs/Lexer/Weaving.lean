import ScalaLexer.Proofs.Lexer.Layout
import ScalaLexer.Proofs.Lexer.Separation

/-!
# From a layout to the tokens

A layout of a text says what its tokens are: `weave` takes the segments one after the
other and puts the separators in between that the rule of the language wants.
`drain_of_laid` says that this is what a lexer in front of the text returns.

A separator needs three things to be known: the first line break in the gap
(`lineBreak?`), the last token that counts and the regions.  The separator itself is
never the last token that counts, since a token that may begin a statement counts.
-/

namespace ScalaLexer

open Trivia

/-! ## The first line break of a gap -/

/-- The text in front of the first line break outside of comments, and the text from
there on. -/
def Trivia.lineBreak? (gap : List Char) : Option (List Char × List Char) :=
  let parts := split isBlank 0 gap
  if parts.2.head? = some '\n' then some parts else none

theorem Trivia.lineBreak?_eq_some_iff {gap front line : List Char} :
    lineBreak? gap = some (front, line) ↔
      ∃ back, line = '\n' :: back ∧ BreaksAt gap front back := by
  constructor
  · intro h
    simp only [lineBreak?, Option.ite_none_right_eq_some, Option.some.injEq] at h
    obtain ⟨hline, hparts⟩ := h
    rw [hparts] at hline
    obtain ⟨back, rfl⟩ := List.head?_eq_some_iff.mp hline
    have happend := split_append isBlank 0 gap
    have htrivia := (split_isTrivia isSpace_of_isBlank gap).2 (by rw [hparts]; exact nofun)
    rw [hparts] at happend htrivia
    exact ⟨back, rfl, happend.symm, htrivia.mixture_isBlank (happend.symm ▸ hparts)⟩
  · rintro ⟨back, rfl, hbreaks⟩
    have hsplit := hbreaks.split []
    rw [List.append_nil, List.append_nil] at hsplit
    simp [lineBreak?, hsplit]

theorem Trivia.lineBreak?_eq_none_iff {gap : List Char} :
    lineBreak? gap = none ↔ ∀ front back, ¬ BreaksAt gap front back := by
  constructor
  · intro hnone front back hbreaks
    rw [lineBreak?_eq_some_iff.mpr ⟨back, rfl, hbreaks⟩] at hnone
    cases hnone
  · intro hnot
    cases h : lineBreak? gap with
    | none => rfl
    | some parts =>
        obtain ⟨back, _, hbreaks⟩ := lineBreak?_eq_some_iff.mp h
        exact absurd hbreaks (hnot _ back)

/-- Trivia at the end of a text is skipped as a whole. -/
theorem Trivia.IsTrailing.split_eq {text : List Char} (h : IsTrailing text) :
    split isSpace 0 text = (text, []) := by
  obtain ⟨front, back, rfl, hfront, hback⟩ := h
  rw [split_mixture (by decide) hfront.mixture]
  rcases hback with rfl | ⟨⟨rest, rfl⟩, hunclosed⟩
  · rfl
  · have hopen : split isSpace 1 rest = (rest, []) := by
      refine split_of_open isSpace 0 rest fun tail htail hprefix => hunclosed tail htail ?_
      exact List.cons_prefix_cons.mpr ⟨rfl, List.cons_prefix_cons.mpr ⟨rfl, hprefix⟩⟩
    have hback : split isSpace 0 (['/', '*'] ++ rest) = (['/', '*'] ++ rest, []) := by
      change split isSpace 0 ('/' :: '*' :: rest) = _
      rw [split_open, hopen]
      rfl
    rw [hback]

/-! ## The tokens of a layout -/

/-- The lexeme as a token of a file. -/
def Lexeme.token (file : String) (lexeme : Lexeme) : Token :=
  ⟨lexeme.kind, lexeme.value, ⟨lexeme.start, lexeme.stop, file⟩⟩

namespace Segment

/-- The token of a segment that begins at byte `offset`. -/
def token (segment : Segment) (file : String) (offset : Nat) : Token :=
  (segment.lexeme.shift (offset + Utf8.byteLength segment.gap)).token file

@[simp] theorem token_kind (segment : Segment) (file : String) (offset : Nat) :
    (segment.token file offset).kind = segment.lexeme.kind :=
  rfl

@[simp] theorem token_value (segment : Segment) (file : String) (offset : Nat) :
    (segment.token file offset).value = segment.lexeme.value :=
  rfl

/-- The rule of the language, asked about a line break in front of the segment. -/
def wantsSeparator (segment : Segment) (last : Option TokenKind) (regions : List Bracket) : Bool :=
  Separator.standard ⟨last, segment.token "" 0, regions.head?.map .opening⟩

/-- The separator in front of the segment, if there is one. -/
def separator? (segment : Segment) (file : String) (offset : Nat) (last : Option TokenKind)
    (regions : List Bracket) : Option Token :=
  match lineBreak? segment.gap with
  | some (front, line) =>
    if segment.wantsSeparator last regions then
      some ((Lexer.separator (offset + Utf8.byteLength front) (line.takeWhile isSpace)).token file)
    else none
  | none => none

/-- The tokens of these segments from byte `offset` on, with the separators between
them. -/
def weave (file : String) : Nat → Option TokenKind → List Bracket → List Segment → List Token
  | _, _, _, [] => []
  | offset, last, regions, segment :: segments =>
    (segment.separator? file offset last regions).toList ++
      segment.token file offset ::
        weave file (offset + Utf8.byteLength segment.text)
          (Lexer.remember segment.lexeme.kind last) (segment.behind regions) segments

/-- The regions behind these segments. -/
def regionsBehind (regions : List Bracket) (segments : List Segment) : List Bracket :=
  segments.foldl (fun regions segment => segment.behind regions) regions

@[simp] theorem regionsBehind_nil (regions : List Bracket) : regionsBehind regions [] = regions :=
  rfl

@[simp] theorem regionsBehind_cons (regions : List Bracket) (segment : Segment)
    (segments : List Segment) :
    regionsBehind regions (segment :: segments) =
      regionsBehind (segment.behind regions) segments :=
  rfl

end Segment

/-! ## What follows a lexeme that is found -/

namespace Lexer

variable {lexer : Lexer} {finding : Finding}

theorem decision_eq_standard (hpolicy : lexer.policy = Separator.standard) (token : Token) :
    (lexer.consult token).decision =
      Separator.standard ⟨lexer.lastToken, token, lexer.regions.head?.map .opening⟩ := by
  rw [consult, hpolicy]
  rfl

theorem canBeginStatement_of_decision (hpolicy : lexer.policy = Separator.standard) {token : Token}
    (hdecision : (lexer.consult token).decision = true) : token.kind.canBeginStatement = true := by
  rw [decision_eq_standard hpolicy] at hdecision
  exact (Separator.standard_iff.mp hdecision).2.2

/-- A token that may begin a statement is remembered. -/
theorem remember_of_canBeginStatement {kind : TokenKind} (hkind : kind.canBeginStatement = true)
    (last : Option TokenKind) : remember kind last = some kind := by
  cases kind <;> first | rfl | cases hkind

/-- The lexer behind the lexeme. -/
def behindFound (lexer : Lexer) (finding : Finding) : Lexer :=
  { lexer with
    cursor := finding.after
    mode := finding.lexeme.resume
    lastToken := remember finding.lexeme.kind lexer.lastToken
    regions := finding.regions }

/-- Draining returns the lexeme that is found, behind its separator, and goes on behind
the lexeme. -/
theorem drain_of_find [Unicode.Repertoire] (hpolicy : lexer.policy = Separator.standard)
    (hmode : lexer.mode ≠ .done)
    (hfind : find lexer.mode lexer.regions lexer.cursor = .ok finding)
    (hkind : finding.lexeme.kind ≠ .eof) :
    lexer.drain.result.tokens =
        lexer.insertion finding ++
          finding.lexeme.token lexer.file :: (lexer.behindFound finding).drain.result.tokens ∧
      lexer.drain.result.failure = (lexer.behindFound finding).drain.result.failure ∧
      lexer.drain.lexer = (lexer.behindFound finding).drain.lexer := by
  have hstep := step_of_find hmode hfind
  rcases answerTo_cases lexer finding with
    ⟨asked, hanswer, hdecision⟩ | ⟨line, asked, hline, hdecision, hanswer⟩
  · have hnone : lexer.insertion finding = [] := by
      cases hline : finding.lineBreak with
      | none => exact insertion_of_none hline
      | some line => rw [insertion_of_some hline, hdecision line hline, if_neg nofun]
    rw [drain_of_token (hstep.trans hanswer) hkind, hnone]
    exact ⟨rfl, rfl, rfl⟩
  · have hbegin := canBeginStatement_of_decision hpolicy hdecision
    have hremember (last : Option TokenKind) :
        remember finding.lexeme.kind last = some finding.lexeme.kind :=
      remember_of_canBeginStatement hbegin last
    -- the separator is forgotten at once
    have hsecond : (lexer.deliverBreak finding line).lexer.step =
        ⟨.ok (finding.lexeme.token lexer.file), lexer.behindFound finding, []⟩ := by
      rw [step_behind_break hfind hline]
      simp only [deliverFound, deliverBreak, deliver, behindFound, moveTo, hremember]
      rfl
    rw [drain_of_token (hstep.trans hanswer) (separator_ne_eof line.pos _),
      insertion_of_some hline, if_pos hdecision]
    have hrest := drain_of_token hsecond hkind
    rw [show (lexer.deliverBreak finding line).lexer.drain = _ from hrest]
    exact ⟨rfl, rfl, rfl⟩

/-- The end needs no separator. -/
theorem drain_of_find_eof [Unicode.Repertoire] (hpolicy : lexer.policy = Separator.standard)
    (hmode : lexer.mode ≠ .done)
    (hfind : find lexer.mode lexer.regions lexer.cursor = .ok finding)
    (hkind : finding.lexeme.kind = .eof) :
    lexer.drain.result.tokens = [] ∧ lexer.drain.result.failure = none ∧
      lexer.drain.lexer.regions = finding.regions := by
  have hstep := step_of_find hmode hfind
  rcases answerTo_cases lexer finding with
    ⟨asked, hanswer, _⟩ | ⟨line, asked, _, hdecision, _⟩
  · rw [drain_of_eof (hstep.trans hanswer) hkind]
    exact ⟨rfl, rfl, rfl⟩
  · have hbegin : finding.lexeme.kind.canBeginStatement = true :=
      canBeginStatement_of_decision hpolicy hdecision
    rw [hkind] at hbegin
    cases hbegin

/-! ## What is found in front of a layout -/

section Approach

variable {mode : Mode} {cursor begin place : Cursor} {lineBreak : Option Cursor} {gap : List Char}

/-- The line break that is reported on the way through a gap is the first one. -/
theorem lineBreak_of_approach (happroach : approach mode cursor = .ok lineBreak place)
    (hskip : mode.skipClosing cursor = .ok () begin) (hgap : begin.ahead = gap ++ place.ahead)
    (hspace : ∀ c ∈ place.ahead.head?, isSpace c = false) :
    lineBreak.map (fun line => (line.pos, line.ahead.takeWhile isSpace)) =
      (lineBreak? gap).map fun parts =>
        (begin.pos + Utf8.byteLength parts.1, parts.2.takeWhile isSpace) := by
  obtain ⟨start, passed, hstart, hpasses, hnone, hsome⟩ := approach_eq_ok happroach
  obtain rfl : passed = gap := by
    have hahead : start.ahead = begin.ahead :=
      List.append_cancel_left (hstart.ahead.symm.trans (skipClosing_drops hskip).ahead)
    exact List.append_cancel_right (hpasses.drops.ahead.symm.trans (hahead.trans hgap))
  cases hline : lineBreak with
  | none => rw [lineBreak?_eq_none_iff.mpr (hnone hline)]; rfl
  | some line =>
      obtain ⟨front, back, hbreaks, hahead⟩ := hsome line hline
      obtain ⟨begin', line', hskip', hblanks, hcases⟩ := approach_cases happroach
      rw [hskip] at hskip'
      cases hskip'
      obtain rfl : line = line' := by
        rcases hcases with ⟨hnot, _⟩ | ⟨hbreak, _⟩
        · rw [hline] at hnot
          cases hnot
        · exact Option.some.inj (hline.symm.trans hbreak)
      have hpos := (skipBlanks_eq_ok hblanks).pos
      rw [hgap, hbreaks.split place.ahead] at hpos
      rw [lineBreak?_eq_some_iff.mpr ⟨back, rfl, hbreaks⟩]
      simp only [Option.map_some, hpos, hahead]
      rw [← List.cons_append, takeWhile_append_of_head hspace]

end Approach

end Lexer

/-! ## Draining a layout -/

namespace Lexer

variable {lexer : Lexer}

/-- The rule of the language asks for the kind of the next token only. -/
theorem standard_congr {previous region : Option TokenKind} {next other : Token}
    (hkind : next.kind = other.kind) :
    Separator.standard ⟨previous, next, region⟩ = Separator.standard ⟨previous, other, region⟩ := by
  simp only [Separator.standard, hkind]

/-- The separator of a segment is the one that goes in front of its lexeme. -/
theorem insertion_eq_separator? {finding : Finding} {segment : Segment} {begin : Cursor}
    {regions : List Bracket} (hpolicy : lexer.policy = Separator.standard)
    (hregions : lexer.regions = regions) (hkind : finding.lexeme.kind = segment.lexeme.kind)
    (hline : finding.lineBreak.map (fun line => (line.pos, line.ahead.takeWhile isSpace)) =
      (lineBreak? segment.gap).map fun parts =>
        (begin.pos + Utf8.byteLength parts.1, parts.2.takeWhile isSpace)) :
    lexer.insertion finding =
      (segment.separator? lexer.file begin.pos lexer.lastToken regions).toList := by
  have hdecision : (lexer.consult (lexer.tokenOf finding.lexeme)).decision =
      segment.wantsSeparator lexer.lastToken regions := by
    rw [decision_eq_standard hpolicy, hregions]
    exact standard_congr hkind
  cases hbreak : lineBreak? segment.gap with
  | none =>
      rw [hbreak] at hline
      rw [insertion_of_none (Option.map_eq_none_iff.mp hline), Segment.separator?, hbreak]
      rfl
  | some parts =>
      rw [hbreak] at hline
      obtain ⟨line, hsome, hparts⟩ := Option.map_eq_some_iff.mp hline
      obtain ⟨hpos, hspace⟩ := Prod.mk.inj hparts
      rw [insertion_of_some hsome, hdecision, Segment.separator?, hbreak]
      dsimp only
      rw [hpos, hspace]
      split <;> rfl

variable [Unicode.Repertoire]

/-- A call finds something in a text without malformed bytes. -/
theorem exists_find (hvalid : lexer.cursor.malformed = none) (hmode : lexer.mode ≠ .done) :
    ∃ finding, find lexer.mode lexer.regions lexer.cursor = .ok finding := by
  cases hfind : find lexer.mode lexer.regions lexer.cursor with
  | ok finding => exact ⟨finding, rfl⟩
  | error failure =>
      obtain ⟨_, hdispatch, _⟩ := step_eq_error.mp (step_of_find_error hmode hfind)
      obtain ⟨_, _, hblames, _⟩ := dispatch_fault hdispatch
      have hbyte := hblames.byte
      rw [hvalid] at hbyte
      cases hbyte

/-- Behind the last lexeme the end is found. -/
theorem exists_find_eof {trailing : List Char} (htrailing : IsTrailing trailing)
    (hvalid : lexer.cursor.malformed = none) (hmode : lexer.mode ≠ .done)
    (hahead : lexer.cursor.ahead = lexer.mode.closing lexer.cursor.ahead ++ trailing) :
    ∃ finding, find lexer.mode lexer.regions lexer.cursor = .ok finding ∧
      finding.lexeme.kind = .eof ∧ finding.regions = lexer.regions := by
  obtain ⟨finding, hfind⟩ := exists_find hvalid hmode
  obtain ⟨happroach, hspelled⟩ := find_eq_ok hfind
  obtain ⟨begin, gap, hclosing, hpasses, _⟩ := approach_eq_ok happroach
  have hgap : trailing = gap ++ finding.place.ahead :=
    List.append_cancel_left (hahead.symm.trans
      (hclosing.ahead.trans (congrArg _ hpasses.drops.ahead)))
  -- all of the trivia is passed over
  have hend : finding.place.ahead = [] := by
    cases hplace : finding.place.ahead with
    | nil => rfl
    | cons c rest =>
        obtain ⟨hspace, hopen⟩ := approach_head happroach hplace
        have htrivia := hpasses.trivia (by rw [hplace]; exact nofun)
        have hhead : ∀ first ∈ (c :: rest).head?, isSpace first = false := by
          rintro _ ⟨⟩
          exact hspace
        have hsplit := htrivia.split_eq hhead hopen
        rw [← hplace, ← hgap, htrailing.split_eq, hplace] at hsplit
        cases (Prod.mk.inj hsplit).2
  have hkind : finding.lexeme.kind = .eof := by
    obtain ⟨run, hdrops, hrun⟩ := hspelled.exists_drops
    by_contra hnot
    exact hrun hnot (List.append_eq_nil_iff.mp (hdrops.ahead.symm.trans hend)).1
  refine ⟨finding, hfind, hkind, ?_⟩
  rw [hspelled.regionEffect.1, hkind]
  rfl

/-- In front of a segment its lexeme is found. -/
theorem exists_find_of_stands {segment : Segment} {rest : List Char}
    (hstands : segment.Stands lexer.regions rest) (hvalid : lexer.cursor.malformed = none)
    (hahead : lexer.cursor.ahead =
      lexer.mode.closing lexer.cursor.ahead ++ (segment.text ++ rest)) :
    ∃ finding begin, find lexer.mode lexer.regions lexer.cursor = .ok finding ∧
      lexer.mode.skipClosing lexer.cursor = .ok () begin ∧
      begin.Drops segment.gap finding.place ∧
      finding.place.Drops segment.run finding.after ∧
      finding.after.ahead = segment.closing ++ rest ∧ finding.after.malformed = none ∧
      finding.lexeme = segment.lexeme.shift finding.place.pos ∧
      finding.regions = segment.behind lexer.regions ∧
      finding.lineBreak.map (fun line => (line.pos, line.ahead.takeWhile isSpace)) =
        (lineBreak? segment.gap).map fun parts =>
          (begin.pos + Utf8.byteLength parts.1, parts.2.takeWhile isSpace) := by
  obtain ⟨first, tail, hrun⟩ := List.exists_cons_of_ne_nil hstands.nonempty
  have htext : segment.text ++ rest =
      segment.gap ++ first :: (tail ++ segment.closing ++ rest) := by
    simp only [Segment.text, hrun, List.append_assoc, List.cons_append]
  have hspace : isSpace first = false := hstands.space first (by rw [hrun]; rfl)
  have hopen : ¬ ['/', '*'] <+: first :: (tail ++ segment.closing ++ rest) := by
    have hnot := hstands.noComment
    rw [hrun] at hnot
    exact hnot
  obtain ⟨begin, hskip, hbegin⟩ := exists_skipClosing hahead (by rw [htext]; simp)
  obtain ⟨lineBreak, place, happroach, hdrops⟩ :=
    approach_of_trivia hskip (hbegin.trans htext) hstands.trivia hspace hopen
  have hplace : place.ahead = segment.run ++ (segment.closing ++ rest) := by
    have hall : segment.gap ++ place.ahead =
        segment.gap ++ (segment.run ++ (segment.closing ++ rest)) := by
      rw [← hdrops.ahead, hbegin]
      simp only [Segment.text, List.append_assoc]
    exact List.append_cancel_left hall
  have hplaceValid : place.malformed = none := by
    rw [hdrops.malformed, ← hvalid]
    exact (skipClosing_drops hskip).malformed
  obtain ⟨after, hscan, htaken⟩ := hstands.lexeme place hdrops.idle hplaceValid hplace
  refine ⟨_, begin, find_of_scan_ok happroach hscan, hskip, hdrops, htaken,
    (List.append_cancel_left (htaken.ahead.symm.trans hplace)), htaken.malformed.trans hplaceValid,
    rfl, rfl, ?_⟩
  refine lineBreak_of_approach happroach hskip hdrops.ahead ?_
  rw [hplace, hrun]
  rintro _ ⟨⟩
  exact hspace

/-- **The tokens of a layout.**  Draining a lexer in front of a layout returns the
tokens of its segments with the separators between them. -/
theorem drain_of_laid {regions : List Bracket} {segments : List Segment} {trailing : List Char}
    (hlaid : Laid regions segments trailing) (hpolicy : lexer.policy = Separator.standard)
    (hmode : lexer.mode ≠ .done) (hvalid : lexer.cursor.malformed = none)
    (hregions : lexer.regions = regions)
    (hahead : lexer.cursor.ahead =
      lexer.mode.closing lexer.cursor.ahead ++ Segment.textOf segments trailing) :
    lexer.drain.result.tokens =
        Segment.weave lexer.file
          (lexer.cursor.pos + Utf8.byteLength (lexer.mode.closing lexer.cursor.ahead))
          lexer.lastToken regions segments ∧
      lexer.drain.result.failure = none ∧
      lexer.drain.lexer.regions = Segment.regionsBehind regions segments := by
  induction hlaid generalizing lexer with
  | nil htrailing =>
      obtain ⟨finding, hfind, hkind, hsame⟩ := exists_find_eof htrailing hvalid hmode hahead
      rw [← hregions, ← hsame]
      exact drain_of_find_eof hpolicy hmode hfind hkind
  | @cons regions segment segments trailing hstands hlaid ih =>
      subst hregions
      obtain ⟨finding, begin, hfind, hskip, hgap, hrun, hafter, hafterValid, hlexeme, hbehind,
        hline⟩ := exists_find_of_stands hstands hvalid hahead
      have hkind : finding.lexeme.kind = segment.lexeme.kind := by rw [hlexeme]; rfl
      obtain ⟨delimiter, hdelimiter, hcloses⟩ := hstands.closes
      have hresume : finding.lexeme.resume = delimiter.resume := by rw [hlexeme]; exact hdelimiter
      obtain ⟨htokens, hfailure, hlast⟩ := drain_of_find hpolicy hmode hfind
        (hkind ▸ hstands.lexeme.kind_ne_eof hstands.nonempty)
      -- the lexer behind the lexeme is in front of the other segments
      have hclosing : (lexer.behindFound finding).mode.closing
          (lexer.behindFound finding).cursor.ahead = segment.closing := by
        change finding.lexeme.resume.closing finding.after.ahead = segment.closing
        rw [hresume, hafter, hcloses.closing_eq]
      have hnotDone : (lexer.behindFound finding).mode ≠ .done := by
        change finding.lexeme.resume ≠ .done
        rw [hresume]
        cases delimiter <;> exact nofun
      obtain ⟨ihtokens, ihfailure, ihregions⟩ :=
        @ih (lexer.behindFound finding) hpolicy hnotDone hafterValid hbehind (hclosing ▸ hafter)
      refine ⟨?_, hfailure.trans ihfailure, hlast ▸ ihregions⟩
      have hbegin : begin.pos = _ := (skipClosing_drops hskip).pos
      have hplace := hgap.pos
      have hoffset : (lexer.behindFound finding).cursor.pos + Utf8.byteLength segment.closing =
          begin.pos + Utf8.byteLength segment.text := by
        change finding.after.pos + _ = _
        rw [hrun.pos, hplace, Segment.text]
        simp only [Utf8.byteLength_append]
        omega
      rw [htokens, ihtokens, insertion_eq_separator? hpolicy rfl hkind hline, Segment.weave,
        ← hbegin, hclosing, hoffset]
      simp only [behindFound, Segment.token, ← hplace, hlexeme]
      rfl

/-- The tokens of a text that is laid out from its beginning on. -/
theorem drain_ofString_of_laid {segments : List Segment} {trailing : List Char} {text : String}
    (hlaid : Laid [] segments trailing) (htext : text.toList = Segment.textOf segments trailing)
    (file : String) :
    (ofString text file).drain.result.tokens = Segment.weave file 0 none [] segments ∧
      (ofString text file).drain.result.failure = none ∧
      (ofString text file).drain.lexer.regions = Segment.regionsBehind [] segments := by
  have hcursor : (ofString text file).cursor = ⟨0, 0, 0, [], text.toList, none⟩ := by
    rw [ofString, ofBytes_cursor, Utf8.decode_encode]
  have hmode : (ofString text file).mode ≠ .done := by
    change Mode.start ≠ .done
    decide
  exact drain_of_laid hlaid rfl hmode (by rw [hcursor]) rfl (by rw [hcursor]; exact htext)

end Lexer

theorem tokenize_of_laid [Unicode.Repertoire] {text : String} {segments : List Segment}
    {trailing : List Char} (hlaid : Laid [] segments trailing)
    (htext : text.toList = Segment.textOf segments trailing)
    (file : String) : tokenize text file = .ok (Segment.weave file 0 none [] segments) := by
  obtain ⟨htokens, hfailure, _⟩ := Lexer.drain_ofString_of_laid hlaid htext file
  rw [tokenize, Lexer.tokens_result, hfailure, htokens]

end ScalaLexer

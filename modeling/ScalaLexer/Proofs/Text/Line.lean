import ScalaLexer.Text.Line
import ScalaLexer.Proofs.Text.Utf8
import Mathlib.Data.List.Basic

/-!
# The line of an offset

`Locates` says which line holds a byte of a text, in terms of the text before and behind
that line.  No text is located in two lines at once (`Locates.unique`), and `lineAt?` finds
the line (`lineAt?_exact`).  Two places need a rule.  The offset behind a line feed
belongs to the next line, and the end of the text to its last line, also where that ends in
a line feed: no empty line stands behind it.
-/

namespace ScalaLexer

namespace LinePlace

variable {content text line before after : List Char} {front back : List (List Char)}
  {offset : Nat} {place place' : LinePlace}

/-! ## Lines -/

/-- A line is never empty, a line feed stands at its end only, and it stands there unless
the text ends with the line. -/
structure IsLine (line after : List Char) : Prop where
  nonempty : line ≠ []
  inside : '\n' ∉ line.dropLast
  ends : after = [] ∨ line.getLast? = some '\n'

theorem IsLine.cons {c : Char} (h : IsLine line after) (hc : c ≠ '\n') :
    IsLine (c :: line) after := by
  obtain ⟨d, more, rfl⟩ := List.exists_cons_of_ne_nil h.nonempty
  refine ⟨List.cons_ne_nil _ _, ?_, ?_⟩
  · rw [List.dropLast_cons_of_ne_nil (List.cons_ne_nil _ _), List.mem_cons, not_or]
    exact ⟨hc.symm, h.inside⟩
  · rw [List.getLast?_cons_cons]
    exact h.ends

/-- Every line of a text, with what stands behind it. -/
theorem isLine_of_lines (h : lines text = front ++ line :: back) :
    IsLine line back.flatten := by
  fun_induction lines text generalizing front line with
  | case1 => simp at h
  | case2 rest ih =>
      cases front with
      | nil =>
          obtain ⟨rfl, rfl⟩ := List.cons.inj h
          exact ⟨by simp, by simp, .inr rfl⟩
      | cons first front => exact ih (List.cons.inj h).2
  | case3 c rest hc hlines ih =>
      cases front with
      | nil =>
          obtain ⟨rfl, rfl⟩ := List.cons.inj h
          exact ⟨by simp, by simp, .inl rfl⟩
      | cons first front => simp at h
  | case4 c rest hc first others hlines ih =>
      cases front with
      | nil =>
          obtain ⟨rfl, rfl⟩ := List.cons.inj h
          have hfirst : lines rest = [] ++ first :: others := hlines
          exact (ih hfirst).cons hc
      | cons _ front =>
          have hlater : lines rest = (first :: front) ++ line :: back := by
            rw [hlines, (List.cons.inj h).2]
            rfl
          exact ih hlater

/-- In front of a line stand lines that end in their line feed. -/
theorem exists_of_mem_front (h : lines text = front ++ line :: back) {earlier : List Char}
    (hearlier : earlier ∈ front) :
    ∃ inside, '\n' ∉ inside ∧ earlier = inside ++ ['\n'] := by
  obtain ⟨first, others, rfl⟩ := List.append_of_mem hearlier
  have hline : IsLine line back.flatten := isLine_of_lines h
  have hsplit : lines text = first ++ earlier :: (others ++ line :: back) := by
    rw [h, List.append_assoc]
    rfl
  have hfront := isLine_of_lines hsplit
  rcases hfront.ends with hnil | hlast
  · exact absurd (List.flatten_eq_nil_iff.mp hnil line (by simp)) hline.nonempty
  · obtain ⟨inside, rfl⟩ := List.getLast?_eq_some_iff.mp hlast
    have hinside := hfront.inside
    rw [List.dropLast_concat] at hinside
    exact ⟨inside, hinside, rfl⟩

theorem count_flatten_front (h : lines text = front ++ line :: back) :
    front.flatten.count '\n' = front.length := by
  have hone : ∀ earlier ∈ front, earlier.count '\n' = 1 := by
    intro earlier hearlier
    obtain ⟨inside, hinside, rfl⟩ := exists_of_mem_front h hearlier
    simp [List.count_eq_zero_of_not_mem hinside]
  rw [List.count_flatten, List.map_congr_left hone, List.map_const', List.sum_replicate_nat,
    Nat.mul_one]

theorem getLast?_flatten_front (h : lines text = front ++ line :: back) :
    front.flatten = [] ∨ front.flatten.getLast? = some '\n' := by
  rcases List.eq_nil_or_concat front with rfl | ⟨first, earlier, rfl⟩
  · exact .inl rfl
  · have hmem : earlier ∈ first.concat earlier := by simp
    obtain ⟨inside, _, rfl⟩ := exists_of_mem_front h hmem
    right
    simp

/-! ## The place of an offset -/

/-- The place is the one of byte `offset` in a text: `before` and `after` are the text
around its line. -/
structure Locates (content : List Char) (offset : Nat) (before after : List Char)
    (place : LinePlace) : Prop where
  split : content = before ++ place.text ++ after
  reaches : Utf8.byteLength before + place.offset = offset
  begins : before = [] ∨ before.getLast? = some '\n'
  number : place.number = before.count '\n' + 1
  inside : '\n' ∉ place.text.dropLast
  ends : after = [] ∨ place.text.getLast? = some '\n'
  within : offset ≠ Utf8.byteLength content → place.offset < Utf8.byteLength place.text
  last : offset = Utf8.byteLength content →
    place.offset = Utf8.byteLength place.text ∧ after = []
  empty : place.text = [] → content = []

/-- The walk over the lines of a text stops at one of them. -/
theorem exists_find (number : Nat) (hne : back ≠ [])
    (hoffset : offset ≤ Utf8.byteLength back.flatten) :
    ∃ front line rest, back = front ++ line :: rest ∧
      find number offset back =
        ⟨number + front.length, line, offset - Utf8.byteLength front.flatten⟩ ∧
      Utf8.byteLength front.flatten ≤ offset ∧
      (offset < Utf8.byteLength front.flatten + Utf8.byteLength line ∨
        rest = [] ∧ offset = Utf8.byteLength front.flatten + Utf8.byteLength line) := by
  fun_induction find number offset back with
  | case1 => exact absurd rfl hne
  | case2 number offset line rest hhere =>
      simp only [Bool.or_eq_true, Bool.and_eq_true, decide_eq_true_eq, List.isEmpty_iff] at hhere
      refine ⟨[], line, rest, rfl, rfl, Nat.zero_le _, ?_⟩
      simpa using hhere
  | case3 number offset line rest hhere ih =>
      simp only [Bool.or_eq_true, Bool.and_eq_true, decide_eq_true_eq, List.isEmpty_iff,
        not_or, not_and, Nat.not_lt] at hhere
      rw [List.flatten_cons, Utf8.byteLength_append] at hoffset
      have hrest : rest ≠ [] := by
        rintro rfl
        exact hhere.2 rfl (Nat.le_antisymm (by simpa using hoffset) hhere.1)
      obtain ⟨front, found, behind, rfl, hfind, hle, hfound⟩ := ih hrest (by omega)
      refine ⟨line :: front, found, behind, rfl, ?_, ?_, ?_⟩
      · rw [hfind, List.flatten_cons, Utf8.byteLength_append, List.length_cons,
          Nat.sub_add_eq, Nat.add_right_comm, Nat.add_assoc]
      · rw [List.flatten_cons, Utf8.byteLength_append]
        omega
      · rw [List.flatten_cons, Utf8.byteLength_append]
        exact hfound.imp (fun hlt => by omega) fun ⟨hnil, hend⟩ => ⟨hnil, by omega⟩

theorem exists_locates_find (hoffset : offset ≤ Utf8.byteLength content) :
    ∃ before after, Locates content offset before after (find 1 offset (lines content)) := by
  by_cases hnil : content = []
  · subst hnil
    obtain rfl : offset = 0 := Nat.le_zero.mp hoffset
    exact ⟨[], [], ⟨rfl, rfl, .inl rfl, rfl, by decide, .inl rfl, fun h => absurd rfl h,
      fun _ => ⟨rfl, rfl⟩, fun _ => rfl⟩⟩
  · have hlines : lines content ≠ [] := by
      intro hempty
      rw [← flatten_lines content, hempty] at hnil
      exact hnil rfl
    have hlast : offset ≤ Utf8.byteLength (lines content).flatten := by
      rwa [flatten_lines]
    obtain ⟨front, line, rest, hsplit, hfind, hle, hhere⟩ := exists_find 1 hlines hlast
    have hline : IsLine line rest.flatten := isLine_of_lines hsplit
    have hcontent : content = front.flatten ++ line ++ rest.flatten := by
      rw [← flatten_lines content, hsplit, List.flatten_append, List.flatten_cons,
        List.append_assoc]
    have hlength := congrArg Utf8.byteLength hcontent
    rw [Utf8.byteLength_append, Utf8.byteLength_append] at hlength
    rw [hfind]
    refine ⟨front.flatten, rest.flatten, hcontent, Nat.add_sub_cancel' hle,
      getLast?_flatten_front hsplit, ?_, hline.inside, hline.ends, ?_, ?_, ?_⟩
    · rw [count_flatten_front hsplit, Nat.add_comm]
    · intro hend
      show offset - Utf8.byteLength front.flatten < Utf8.byteLength line
      rcases hhere with hlt | ⟨rfl, hlast⟩
      · omega
      · simp at hlength
        omega
    · intro hend
      show offset - Utf8.byteLength front.flatten = Utf8.byteLength line ∧ rest.flatten = []
      rcases hhere with hlt | ⟨rfl, hlast⟩
      · omega
      · exact ⟨by omega, rfl⟩
    · intro hempty
      exact absurd hempty hline.nonempty

theorem Locates.offset_le (h : place.Locates content offset before after) :
    place.offset ≤ Utf8.byteLength place.text := by
  rcases Nat.decEq offset (Utf8.byteLength content) with hinner | hend
  · exact Nat.le_of_lt (h.within hinner)
  · exact Nat.le_of_eq (h.last hend).1

theorem Locates.le (h : place.Locates content offset before after) :
    offset ≤ Utf8.byteLength content := by
  have hoffset := h.offset_le
  rw [h.split, Utf8.byteLength_append, Utf8.byteLength_append, ← h.reaches]
  omega

/-! ## There is only one -/

/-- What a line begins with up to a line feed is all of it. -/
theorem eq_of_prefix_of_getLast? (hbegin : before <+: line) (hinside : '\n' ∉ line.dropLast)
    (hlast : before.getLast? = some '\n') : before = line := by
  obtain ⟨more, rfl⟩ := hbegin
  by_cases hmore : more = []
  · rw [hmore, List.append_nil]
  · rw [List.dropLast_append_of_ne_nil hmore, List.mem_append, not_or] at hinside
    exact absurd (List.mem_of_getLast? hlast) hinside.1

variable {before' after' : List Char}

/-- The line of a place does not begin within the line of another one. -/
theorem Locates.before_eq_of_prefix (h : place.Locates content offset before after)
    (h' : place'.Locates content offset before' after') (hbegin : before' <+: before) :
    before' = before := by
  obtain ⟨more, rfl⟩ := hbegin
  by_cases hmore : more = []
  · rw [hmore, List.append_nil]
  have hreaches : Utf8.byteLength more + place.offset = place'.offset := by
    have hboth := h.reaches.trans h'.reaches.symm
    rw [Utf8.byteLength_append] at hboth
    omega
  have hsplit : place'.text ++ after' = more ++ (place.text ++ after) := by
    have hboth := h'.split.symm.trans h.split
    simp only [List.append_assoc] at hboth
    exact List.append_cancel_left hboth
  have hlast : more.getLast? = some '\n' := by
    have hbegins := h.begins
    rw [List.append_eq_nil_iff, List.getLast?_append_of_ne_nil _ hmore] at hbegins
    exact hbegins.resolve_left fun hnil => hmore hnil.2
  -- the text in between ends in a line feed, so the other line does not go on behind it
  have hle : Utf8.byteLength place'.text ≤ Utf8.byteLength more := by
    rcases List.append_eq_append_iff.mp hsplit with ⟨rest, hrest, _⟩ | ⟨rest, hrest, _⟩
    · rw [hrest, Utf8.byteLength_append]
      omega
    · have hwhole := eq_of_prefix_of_getLast? ⟨rest, hrest.symm⟩ h'.inside hlast
      exact Nat.le_of_eq (congrArg Utf8.byteLength hwhole.symm)
  have hend : offset = Utf8.byteLength content := by
    rcases Nat.decEq offset (Utf8.byteLength content) with hinner | hend
    · have hwithin := h'.within hinner
      omega
    · exact hend
  have hempty : place.text = [] := by
    have hplace := (h.last hend).1
    have hplace' := (h'.last hend).1
    exact Utf8.eq_nil_of_byteLength (by omega)
  have hcontent := h.split
  rw [h.empty hempty] at hcontent
  simp [hmore] at hcontent

/-- The line of a place does not end within the line of another one. -/
theorem Locates.text_eq_of_prefix (h : place.Locates content offset before after)
    (h' : place'.Locates content offset before after') (hbegin : place.text <+: place'.text) :
    place.text = place'.text := by
  rcases h.ends with hnil | hlast
  · have hsplit := h.split.symm.trans h'.split
    rw [List.append_assoc, List.append_assoc] at hsplit
    have hsplit := List.append_cancel_left hsplit
    rw [hnil, List.append_nil] at hsplit
    exact hbegin.eq_of_length_le (by rw [hsplit, List.length_append]; omega)
  · exact eq_of_prefix_of_getLast? hbegin h'.inside hlast

/-- No text is located in two lines at once. -/
theorem Locates.unique (h : place.Locates content offset before after)
    (h' : place'.Locates content offset before' after') :
    before = before' ∧ after = after' ∧ place = place' := by
  have hbefore : before = before' := by
    have hsplit := h.split.symm.trans h'.split
    rw [List.append_assoc, List.append_assoc] at hsplit
    rcases Nat.le_total (Utf8.byteLength before) (Utf8.byteLength before') with hle | hle
    · exact h'.before_eq_of_prefix h (Utf8.prefix_of_byteLength_le hsplit hle)
    · exact (h.before_eq_of_prefix h' (Utf8.prefix_of_byteLength_le hsplit.symm hle)).symm
  subst hbefore
  have hsplit := h.split.symm.trans h'.split
  rw [List.append_assoc, List.append_assoc] at hsplit
  have hsplit := List.append_cancel_left hsplit
  have htext : place.text = place'.text := by
    rcases Nat.le_total (Utf8.byteLength place.text) (Utf8.byteLength place'.text) with
      hle | hle
    · exact h.text_eq_of_prefix h' (Utf8.prefix_of_byteLength_le hsplit hle)
    · exact (h'.text_eq_of_prefix h (Utf8.prefix_of_byteLength_le hsplit.symm hle)).symm
  rw [htext] at hsplit
  refine ⟨rfl, List.append_cancel_left hsplit, ?_⟩
  have hnumber := h.number.trans h'.number.symm
  have hoffset := Nat.add_left_cancel (h.reaches.trans h'.reaches.symm)
  cases place
  cases place'
  simp_all

end LinePlace

/-! ## The line that is found -/

variable {content : List Char} {offset : Nat} {place : LinePlace}

theorem lineAt?_eq_none_iff :
    lineAt? content offset = none ↔ Utf8.byteLength content < offset := by
  unfold lineAt?
  split <;> simp_all

theorem locates_of_lineAt? (h : lineAt? content offset = some place) :
    ∃ before after, place.Locates content offset before after := by
  unfold lineAt? at h
  split at h
  · cases h
  · next hle =>
      cases h
      exact LinePlace.exists_locates_find (Nat.not_lt.mp hle)

/-- The line that holds the offset is found. -/
theorem lineAt?_of_locates {before after : List Char}
    (hplace : place.Locates content offset before after) :
    lineAt? content offset = some place := by
  cases hfound : lineAt? content offset with
  | none =>
      exact absurd hplace.le (Nat.not_le.mpr (lineAt?_eq_none_iff.mp hfound))
  | some found =>
      obtain ⟨_, _, hlocates⟩ := locates_of_lineAt? hfound
      rw [(hlocates.unique hplace).2.2]

/-- **The line of an offset.**  Every offset up to the end of the text lies in exactly one
line, which is found with its number and the offset in it; behind the end there is none. -/
theorem lineAt?_exact (content : List Char) (offset : Nat) :
    (lineAt? content offset = none ↔ Utf8.byteLength content < offset) ∧
      ∀ place, lineAt? content offset = some place ↔
        ∃ before after, place.Locates content offset before after := by
  refine ⟨lineAt?_eq_none_iff, fun place => ⟨locates_of_lineAt?, ?_⟩⟩
  rintro ⟨before, after, hplace⟩
  exact lineAt?_of_locates hplace

-- behind the last line feed of a text no line begins
example : lineAt? "a\nb\n".toList 4 = some ⟨2, "b\n".toList, 2⟩ := by decide

end ScalaLexer

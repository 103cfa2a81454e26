import Mathlib.Data.List.TakeWhile
import ScalaLexer.Scan.Lexeme

/-!
# Texts that go on alike

What stands behind a lexeme may change without changing the lexeme.  `Agrees` says
how much: the new text goes on as the old one did, up to a place where it ends or
goes on with space.  No lexeme runs over space, apart from those between quotes, so
none of the classes of characters that a lexeme is made of notices the difference.

One scanner looks further than to the next character.  A single quote opens a
character literal if another one stands two places behind it, or three.  So the
space may be followed by a single quote only if it takes the place of a slash, which
is an operator character and would have been read.
-/

namespace ScalaLexer

/-- The second text goes on as the first one does, up to a place where it ends or
goes on with space. -/
inductive Agrees : List Char → List Char → Prop
  | apart {rest rest' : List Char} : (∀ c ∈ rest'.head?, isSpace c = true) →
      (rest'[1]? = some '\x27' → rest.head? = some '/') → Agrees rest rest'
  | cons (c : Char) {rest rest' : List Char} : Agrees rest rest' → Agrees (c :: rest) (c :: rest')

/-- No space is in the class. -/
def Spaceless (isMember : Char → Bool) : Prop :=
  ∀ c, isSpace c = true → isMember c = false

/-! ## Classes without space -/

theorem Spaceless.isSpace_eq_false {isMember : Char → Bool} (h : Spaceless isMember) {c : Char}
    (hmember : isMember c = true) : isSpace c = false := by
  refine Bool.eq_false_iff.mpr fun hspace => ?_
  rw [h c hspace] at hmember
  cases hmember

theorem spaceless_of_any {isMember : Char → Bool}
    (h : ['\n', ' ', '\t', '\r', '\x0c'].any isMember = false) : Spaceless isMember := by
  intro c hspace
  have hmem : c ∈ ['\n', ' ', '\t', '\r', '\x0c'] := by
    simpa [isSpace, isBlank, or_assoc] using hspace
  exact Bool.eq_false_iff.mpr (List.any_eq_false.mp h c hmem)

theorem spaceless_isLetter : Spaceless isLetter :=
  spaceless_of_any (by decide)

theorem spaceless_isDigit : Spaceless isDigit :=
  spaceless_of_any (by decide)

theorem spaceless_isHexDigit : Spaceless isHexDigit :=
  spaceless_of_any (by decide)

theorem spaceless_isLetterOrDigit : Spaceless isLetterOrDigit :=
  spaceless_of_any (by decide)

theorem spaceless_isAlphanumeric : Spaceless isAlphanumeric :=
  spaceless_of_any (by decide)

theorem spaceless_isOperator [Unicode.Repertoire] : Spaceless isOperator :=
  spaceless_of_any rfl

theorem spaceless_contains {members : List Char} (h : members.any isSpace = false) :
    Spaceless members.contains := by
  intro c hspace
  refine Bool.eq_false_iff.mpr fun hmember => ?_
  exact List.any_eq_false.mp h c (List.contains_iff_mem.mp hmember) hspace

namespace Agrees

variable {rest rest' front : List Char} {isMember : Char → Bool}

theorem refl (rest : List Char) : Agrees rest rest := by
  induction rest with
  | nil => exact .apart nofun nofun
  | cons c rest ih => exact .cons c ih

theorem append_left (front : List Char) (h : Agrees rest rest') :
    Agrees (front ++ rest) (front ++ rest') := by
  induction front with
  | nil => exact h
  | cons c front ih => exact .cons c ih

/-- The next character is the same, or there is space. -/
theorem head?_eq_or (h : Agrees rest rest') :
    rest'.head? = rest.head? ∨ ∀ c ∈ rest'.head?, isSpace c = true := by
  cases h with
  | apart hspace => exact .inr hspace
  | cons c => exact .inl rfl

/-- A run of a class that ends in front of the one text ends in front of the other. -/
theorem stops (h : Agrees rest rest') (hmember : Spaceless isMember)
    (hstop : ∀ c ∈ rest.head?, isMember c = false) :
    ∀ c ∈ rest'.head?, isMember c = false := by
  rcases h.head?_eq_or with hsame | hspace
  · rwa [hsame]
  · exact fun c hc => hmember c (hspace c hc)

/-- What the second text begins with is not new, unless there is space in it. -/
theorem isPrefix (h : Agrees rest rest') (hfront : front.any isSpace = false)
    (hbegins : front <+: rest') : front <+: rest := by
  induction h generalizing front with
  | @apart rest rest' hspace hquote =>
      cases front with
      | nil => exact List.nil_prefix
      | cons c front =>
          obtain ⟨more, rfl⟩ := hbegins
          exact absurd (hspace c rfl) (List.any_eq_false.mp hfront c List.mem_cons_self)
  | cons c _ ih =>
      cases front with
      | nil => exact List.nil_prefix
      | cons first front =>
          obtain ⟨rfl, hmore⟩ := List.cons_prefix_cons.mp hbegins
          rw [List.any_cons, Bool.or_eq_false_iff] at hfront
          exact List.cons_prefix_cons.mpr ⟨rfl, ih hfront.2 hmore⟩

/-- A single quote right behind the next character is not new, unless a slash stood
there. -/
theorem quote_behind_head (h : Agrees rest rest') (hquote : rest'[1]? = some '\x27') :
    rest[1]? = some '\x27' ∨ rest.head? = some '/' := by
  cases h with
  | apart _ hslash => exact .inr (hslash hquote)
  | @cons c rest rest' hrest =>
      have hhead : ['\x27'] <+: rest' := by
        cases rest' with
        | nil => cases hquote
        | cons first more =>
            cases hquote
            exact ⟨more, rfl⟩
      obtain ⟨more, rfl⟩ := hrest.isPrefix (by decide) hhead
      exact .inl rfl

end Agrees

/-! ## Cutting texts that go on alike -/

theorem any_head?_eq_false {isMember : Char → Bool} {text : List Char} :
    (text.head?).any isMember = false ↔ ∀ c ∈ text.head?, isMember c = false := by
  cases text <;> simp

theorem head?_dropWhile_eq_false (isMember : Char → Bool) (text : List Char) :
    ∀ c ∈ (text.dropWhile isMember).head?, isMember c = false := by
  intro c hc
  have hnot := List.head?_dropWhile_not isMember text
  rw [Option.mem_def.mp hc] at hnot
  simpa using hnot

theorem takeWhile_append_of_stop {isMember : Char → Bool} {run rest : List Char}
    (hrun : ∀ c ∈ run, isMember c = true) (hstop : ∀ c ∈ rest.head?, isMember c = false) :
    (run ++ rest).takeWhile isMember = run := by
  rw [List.takeWhile_append_of_pos hrun]
  cases rest with
  | nil => simp
  | cons c rest => simp [hstop c rfl]

/-- The run of a class at the front of a text ends where space begins. -/
theorem Agrees.takeWhile_eq {isMember : Char → Bool} {text rest' : List Char}
    (hmember : Spaceless isMember) (h : Agrees (text.dropWhile isMember) rest') :
    (text.takeWhile isMember ++ rest').takeWhile isMember = text.takeWhile isMember :=
  takeWhile_append_of_stop (fun _ => List.mem_takeWhile_imp)
    (h.stops hmember (head?_dropWhile_eq_false isMember text))

namespace Literal

theorem splitEscaped_rest (text : List Char) :
    (splitEscaped text).2 = [] ∨ ∃ more, (splitEscaped text).2 = '\x22' :: more := by
  fun_induction splitEscaped text with
  | case1 c text ih => exact ih
  | case2 text => exact .inr ⟨text, rfl⟩
  | case3 c text _ _ ih => exact ih
  | case4 => exact .inl rfl

/-- A string is cut off in front of its closing quote, whatever comes behind. -/
theorem splitEscaped_of_quote {text more : List Char}
    (h : (splitEscaped text).2 = '\x22' :: more) (more' : List Char) :
    splitEscaped ((splitEscaped text).1 ++ '\x22' :: more') =
      ((splitEscaped text).1, '\x22' :: more') := by
  fun_induction splitEscaped text with
  | case1 c text ih =>
      change splitEscaped ('\\' :: c :: ((splitEscaped text).1 ++ '\x22' :: more')) = _
      rw [splitEscaped, ih h]
      rfl
  | case2 text => rfl
  | case3 c text hescape hquote ih =>
      -- no backslash is the last character in front of a quote
      have hc : c ≠ '\\' := by
        rintro rfl
        cases text with
        | nil => cases h
        | cons next text => exact hescape next text rfl rfl
      change splitEscaped (c :: ((splitEscaped text).1 ++ '\x22' :: more')) = _
      rw [splitEscaped, ih h]
      · rfl
      · exact fun _ _ hbackslash => absurd hbackslash hc
      · exact hquote
  | case4 => cases h

theorem splitTripleQuoted_rest (text : List Char) :
    (splitTripleQuoted text).2 = [] ∨ ['\x22', '\x22', '\x22'] <+: (splitTripleQuoted text).2 := by
  fun_induction splitTripleQuoted text with
  | case1 text => exact .inr ⟨text, rfl⟩
  | case2 c text _ ih => exact ih
  | case3 => exact .inl rfl

/-- A multi-line string is cut off in front of its closing quotes, whatever comes
behind. -/
theorem splitTripleQuoted_of_quotes {text more : List Char}
    (h : (splitTripleQuoted text).2 = '\x22' :: '\x22' :: '\x22' :: more) (more' : List Char) :
    splitTripleQuoted ((splitTripleQuoted text).1 ++ '\x22' :: '\x22' :: '\x22' :: more') =
      ((splitTripleQuoted text).1, '\x22' :: '\x22' :: '\x22' :: more') := by
  fun_induction splitTripleQuoted text with
  | case1 text => rfl
  | case2 c text hquotes ih =>
      replace h : (splitTripleQuoted text).2 = '\x22' :: '\x22' :: '\x22' :: more := h
      have happend := splitTripleQuoted_append text
      rw [h] at happend
      change splitTripleQuoted (c :: ((splitTripleQuoted text).1 ++ _)) = _
      rw [splitTripleQuoted, ih h]
      · rfl
      · -- three quotes here would stand in the first text as well
        intro rest hc hrest
        obtain ⟨rest', hrest'⟩ : ['\x22', '\x22'] <+: text := by
          rw [← happend]
          rcases hbody : (splitTripleQuoted text).1 with _ | ⟨first, _ | ⟨second, body⟩⟩
          · exact ⟨_, rfl⟩
          · rw [hbody] at hrest
            cases hrest
            exact ⟨_, rfl⟩
          · rw [hbody] at hrest
            cases hrest
            exact ⟨_, rfl⟩
        exact hquotes rest' hc hrest'.symm
  | case3 => cases h

end Literal

/-! ## The longest reserved operator -/

private theorem foldl_longer_le (entries : List String) (longest : Option String) :
    ∀ other, (longest = some other ∨ other ∈ entries) →
      ∃ entry, entries.foldl
          (fun longest entry =>
            match longest with
            | some other => if other.length < entry.length then some entry else longest
            | none => some entry)
          longest = some entry ∧ other.length ≤ entry.length := by
  induction entries generalizing longest with
  | nil =>
      rintro other (rfl | hmem)
      · exact ⟨other, rfl, Nat.le_refl _⟩
      · cases hmem
  | cons first entries ih =>
      intro other hother
      rw [List.foldl_cons]
      -- what is kept in front of the rest is at least as long as either
      have hkept (kept : String) (hle : other.length ≤ kept.length) :=
        (ih (some kept) kept (.inl rfl)).imp fun _ hentry =>
          And.intro hentry.1 (hle.trans hentry.2)
      rcases hother with rfl | hmem
      · dsimp only
        split
        · next hless => exact hkept first (Nat.le_of_lt hless)
        · exact hkept other (Nat.le_refl _)
      · rcases List.mem_cons.mp hmem with rfl | hmem
        · cases longest with
          | none => exact hkept other (Nat.le_refl _)
          | some longest =>
              dsimp only
              split
              · exact hkept other (Nat.le_refl _)
              · next hnot => exact hkept longest (Nat.le_of_not_lt hnot)
        · exact ih _ other (.inr hmem)

/-- What is found is as long as any reserved operator that stands there. -/
theorem reservedOperator?_longest {text : List Char} {other : String}
    (hmem : other ∈ reservedOperators) (hbegins : other.toList <+: text) :
    ∃ entry, reservedOperator? text = some entry ∧ other.length ≤ entry.length := by
  refine foldl_longer_le _ none other (.inr ?_)
  simpa using ⟨hmem, hbegins⟩

theorem isSpace_of_mem_reservedOperator {entry : String} (hmem : entry ∈ reservedOperators) :
    entry.toList.any isSpace = false := by
  revert entry
  decide

namespace Agrees

variable {text text' rest rest' : List Char}

/-- No longer operator comes about where the text goes on alike. -/
theorem reservedOperator?_eq_some {entry : String} (h : Agrees rest rest')
    (hentry : reservedOperator? (entry.toList ++ rest) = some entry) :
    reservedOperator? (entry.toList ++ rest') = some entry := by
  obtain ⟨hmem, _⟩ := mem_of_reservedOperator? hentry
  obtain ⟨found, hfound, hlonger⟩ :=
    reservedOperator?_longest hmem (List.prefix_append entry.toList rest')
  obtain ⟨hmem', hprefix⟩ := mem_of_reservedOperator? hfound
  -- the operator found stands in the first text as well
  have hold := (h.append_left entry.toList).isPrefix (isSpace_of_mem_reservedOperator hmem') hprefix
  obtain ⟨other, hother, hlength⟩ := reservedOperator?_longest hmem' hold
  obtain rfl : entry = other := Option.some.inj (hentry.symm.trans hother)
  have hsame : found.toList = entry.toList := by
    simp only [← String.length_toList] at hlength hlonger
    have hshorter := List.prefix_of_prefix_length_le hprefix
      (List.prefix_append entry.toList rest') hlength
    exact hshorter.eq_of_length_le hlonger
  rw [hfound, String.toList_inj.mp hsame]

theorem reservedOperator?_eq_none (h : Agrees text text')
    (hnone : reservedOperator? text = none) : reservedOperator? text' = none := by
  cases hfound : reservedOperator? text' with
  | none => rfl
  | some entry =>
      obtain ⟨hmem, hprefix⟩ := mem_of_reservedOperator? hfound
      have hold := h.isPrefix (isSpace_of_mem_reservedOperator hmem) hprefix
      obtain ⟨other, hother, _⟩ := reservedOperator?_longest hmem hold
      rw [hnone] at hother
      cases hother

end Agrees

end ScalaLexer

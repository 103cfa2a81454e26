import ScalaLexer.Token.Kind

/-!
# Reserved words and operators

What a word means once it is cut out, and which operators are cut out before any
other.
-/

namespace ScalaLexer

/-- The word is a truth value. -/
def isBoolean (word : String) : Bool :=
  word == "true" || word == "false"

/-- The kind of token that a word is. -/
def TokenKind.ofWord (word : String) : TokenKind :=
  if isBoolean word then .boolean
  else
    match Keyword.ofSpelling? word with
    | some reserved => .keyword reserved
    | none => .identifier

/-- The operators and delimiters that are tokens of their own wherever an
operator may begin. -/
def reservedOperators : List String :=
  ["=>", "<-", ">:", "<:", "<%", "-", ",", "#", "@", ":", "*", "=", "|", "~", "!", "+"]

/-- The longest reserved operator that the text begins with. -/
def reservedOperator? (text : List Char) : Option String :=
  (reservedOperators.filter fun entry => entry.toList.isPrefixOf text).foldl
    (fun longest entry =>
      match longest with
      | some other => if other.length < entry.length then some entry else longest
      | none => some entry)
    none

private theorem foldl_longer_mem (entries : List String) (longest : Option String) :
    ∀ entry, entries.foldl
        (fun longest entry =>
          match longest with
          | some other => if other.length < entry.length then some entry else longest
          | none => some entry)
        longest = some entry → longest = some entry ∨ entry ∈ entries := by
  induction entries generalizing longest with
  | nil => exact fun entry h => .inl h
  | cons first rest ih =>
    intro entry h
    rcases ih _ entry h with hlongest | hrest
    · cases longest with
      | none => exact .inr (by simp_all)
      | some other =>
        simp only at hlongest
        split at hlongest
        · exact .inr (by simp_all)
        · exact .inl hlongest
    · exact .inr (List.mem_cons_of_mem _ hrest)

/-- What is found is in the table and stands at the front of the text. -/
theorem mem_of_reservedOperator? {text : List Char} {entry : String}
    (h : reservedOperator? text = some entry) :
    entry ∈ reservedOperators ∧ entry.toList <+: text := by
  rcases foldl_longer_mem _ none entry h with hnone | hmem
  · cases hnone
  · simpa using hmem

end ScalaLexer

/-!
# Sets of code points

A property of the Unicode Character Database is a set of code points, kept here
as the ascending list of its maximal ranges.  `inRanges` is the only operation
on such a list.
-/

namespace ScalaLexer.Unicode

/-- A nonempty range of code points, both ends included. -/
abbrev CodeRange := Nat × Nat

/-- The character lies in one of the ranges. -/
def inRanges (ranges : List CodeRange) (c : Char) : Bool :=
  ranges.any fun r => r.1 ≤ c.toNat && c.toNat ≤ r.2

end ScalaLexer.Unicode

import ScalaLexer.Token.Kind

/-!
# Open regions

The regions that are open at a place of the source form a stack, the innermost
one first.  A token changes the stack by its kind alone, and such a change can be
taken back.
-/

namespace ScalaLexer

/-- How a token changes the stack of open regions. -/
inductive RegionEffect where
  | none
  | pushed (bracket : Bracket)
  | popped (bracket : Bracket)
  deriving Repr, DecidableEq

/-- An opening bracket opens a region and a closing bracket closes one; no other
token does either. -/
def TokenKind.regionEffect : TokenKind → RegionEffect
  | .opening bracket => .pushed bracket
  | .closing bracket => .popped bracket
  | _ => .none

namespace RegionEffect

/-- The stack behind the token. -/
def apply : RegionEffect → List Bracket → List Bracket
  | none, regions => regions
  | pushed bracket, regions => bracket :: regions
  | popped _, regions => regions.tail

/-- The stack before the token, from the stack behind it. -/
def undo : RegionEffect → List Bracket → List Bracket
  | none, regions => regions
  | pushed _, regions => regions.tail
  | popped bracket, regions => bracket :: regions

/-- A region was open that the effect can close. -/
def Admissible : RegionEffect → List Bracket → Prop
  | popped bracket, regions => regions.head? = some bracket
  | _, _ => True

theorem undo_apply {effect : RegionEffect} {regions : List Bracket}
    (h : effect.Admissible regions) : effect.undo (effect.apply regions) = regions := by
  cases effect with
  | none => rfl
  | pushed bracket => rfl
  | popped bracket =>
    cases regions with
    | nil => simp [Admissible] at h
    | cons top rest =>
      have htop : top = bracket := by simpa [Admissible] using h
      rw [htop]
      rfl

end RegionEffect

end ScalaLexer

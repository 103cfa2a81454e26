/-!
# Places in a file

A place is told by a number of bytes, of which 32 bits are kept.  Below 4 GiB nothing is
lost; behind that the numbers begin again at zero.
-/

namespace ScalaLexer

/-- An offset as a number of bytes. -/
scoped instance coeToNat : Coe UInt32 Nat := ⟨UInt32.toNat⟩

/-- The offset that is kept of a number of bytes. -/
scoped instance coeOfNat : Coe Nat UInt32 := ⟨UInt32.ofNat⟩

/-- A place in a file. -/
structure Position where
  offset : UInt32
  file : String
  deriving Repr, DecidableEq

namespace Position

/-- The position of something that stands in no file. -/
def null : Position := ⟨0, "<null>"⟩

end Position

/-- A stretch of a file, between two offsets. -/
structure Span where
  start : UInt32
  stop : UInt32
  file : String
  deriving Repr, DecidableEq

/-- A stretch of a file from byte `start` up to byte `stop`, in full. -/
structure Extent where
  start : Nat
  stop : Nat
  file : String
  deriving Repr, DecidableEq

namespace Extent

/-- The span that is kept of a stretch. -/
def span (extent : Extent) : Span :=
  ⟨extent.start, extent.stop, extent.file⟩

/-- The span of a stretch that ends below 4 GiB is the stretch. -/
theorem span_exact {extent : Extent} (horder : extent.start ≤ extent.stop)
    (hstop : extent.stop < UInt32.size) :
    (extent.span.start : Nat) = extent.start ∧ (extent.span.stop : Nat) = extent.stop :=
  ⟨UInt32.toNat_ofNat_of_lt' (Nat.lt_of_le_of_lt horder hstop), UInt32.toNat_ofNat_of_lt' hstop⟩

end Extent

end ScalaLexer

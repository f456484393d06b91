import TypeSig.Text.Basic

/-!
# Spans

A span is a half-open range of positions. `Text.slice?` reads the part of a text that a span of
bytes covers, and `Text.charSpan?` gives the same part as a range of characters; both need ends on
character boundaries.
-/

namespace TypeSig

/-- The positions from `start` up to and without `stop`. -/
structure Span where
  start : Nat
  stop : Nat
  deriving DecidableEq, Repr

namespace Span

/-- The span moved `n` positions to the right. -/
def shift (n : Nat) (s : Span) : Span := ⟨s.start + n, s.stop + n⟩

end Span

namespace Text

/-- The text before a span of bytes and the text the span covers. -/
def slice? (t : Text) (s : Span) : Option (Text × Text) := do
  let (before, rest) ← cutAt? s.start t
  let (covered, _) ← cutAt? (s.stop - s.start) rest
  return (before, covered)

/-- The characters that a span of bytes covers, as a range of character positions. -/
def charSpan? (t : Text) (s : Span) : Option Span :=
  (slice? t s).map fun (before, covered) => ⟨before.length, before.length + covered.length⟩

end Text

end TypeSig

/-!
# Ranges of code points

A character property is given by the ranges of code points that have it.
-/

namespace TypeSig.Text

/-- A set of code points as a list of ranges, both ends included. -/
abbrev CodeRanges := List (Nat × Nat)

namespace CodeRanges

/-- Whether one of the ranges holds the character. -/
def has (ranges : CodeRanges) (c : Char) : Bool :=
  ranges.any fun (first, last) => first ≤ c.toNat && c.toNat ≤ last

end CodeRanges

end TypeSig.Text

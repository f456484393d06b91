import TypeSig.ParseError
import TypeSig.Text.Blank

/-!
# Constraints

The metadata of a stage is a list of constraints, separated by commas. Each relates two names by an
operator and consists of exactly three words; operators are not interpreted. The first constraint
with another number of words is an error, which tells its bytes in the block.
-/

namespace TypeSig

/-- A relation `left operator right`. -/
structure Constraint where
  left : Text
  operator : Text
  right : Text
  deriving DecidableEq, Repr

namespace Constraint

/-- The error of a constraint text that begins at byte `start`; its span has no blanks at the
ends. -/
def malformed (start : Nat) (t : Text) : ParseError :=
  let trimmed := t.trim
  let first := start + (t.bytes - t.trimStart.bytes)
  .malformedConstraint trimmed t.words.length ⟨first, first + trimmed.bytes⟩

/-- Reads the constraint text that begins at byte `start`. -/
def parse (start : Nat) (t : Text) : Except ParseError Constraint :=
  match t.words with
  | [left, operator, right] => .ok ⟨left, operator, right⟩
  | _ => .error (malformed start t)

/-- Reads constraint texts of which the first begins at byte `start`, with one byte between two. -/
def parsePieces (start : Nat) : List Text → Except ParseError (List Constraint)
  | [] => .ok []
  | t :: ts => do
    let c ← parse start t
    let cs ← parsePieces (start + t.bytes + 1) ts
    return c :: cs

/-- Reads a block of constraints. Its commas always separate: neither escapes nor brackets protect
them. -/
def parseBlock (block : Text) : Except ParseError (List Constraint) :=
  parsePieces 0 (block.splitOn ',')

end Constraint

end TypeSig

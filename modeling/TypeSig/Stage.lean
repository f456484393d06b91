import TypeSig.Constraint
import TypeSig.TypeDescriptor

/-!
# Stages

A stage is a comma list of types, after an optional block of constraints that ends with `::`.

Reading goes in two steps. The outline of a stage is what its text alone decides: its constraints
and the tokens of its types. `Outline.fill` then reads the tokens, with a reader that may transform
them, remember them or fail; it cannot change the structure.
-/

namespace TypeSig

structure Stage where
  types : List TypeDescriptor
  /-- The constraints, if the stage has a block of them. -/
  dependent : Option (List Constraint)
  deriving DecidableEq, Repr

namespace Stage

/-- The structure of a stage before its types are read. -/
structure Outline where
  tokens : List Text
  dependent : Option (List Constraint)
  deriving DecidableEq, Repr

/-- The tokens of a comma list of types. -/
def tokensOf (t : Text) : List Text := Piece.splitTexts (· == .comma) t

/-- The outline of a stage. The text before the first `::` is a block of constraints if anything
follows it, and any further `::` belongs to the types. -/
def outline (t : Text) : Except ParseError Outline :=
  match Piece.split (· == .doubleColon) t with
  | block :: p :: ps => do
    let constraints ← (Constraint.parseBlock block.text).mapError (·.shift block.start)
    let types := [':', ':'].intercalate ((p :: ps).map Piece.text)
    return ⟨tokensOf types, some constraints⟩
  | ps => return ⟨tokensOf (ps.flatMap Piece.text), none⟩

namespace Outline

variable {m : Type → Type} [Monad m]

/-- Reads the tokens of an outline from left to right. -/
def fill (read : Text → m TypeDescriptor) (o : Outline) : m Stage :=
  return ⟨← o.tokens.mapM read, o.dependent⟩

end Outline

/-- Reads a stage. -/
def parse (t : Text) : Except ParseError Stage := do
  (← outline t).fill fun token => .ok (.parse token)

end Stage

end TypeSig

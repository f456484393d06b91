import TypeSig.Piece

/-!
# Wrappers and clauses

A type may be wrapped in square brackets and may carry a generic clause in angle brackets.
`Wrapper.inner?` reads inside the wrapper, `Clause.interior?` inside the outermost clause, and
`Clause.subtypes` lists the subtypes of that clause: blanks and escapes at their top level are
resolved, and nested clauses are kept as they stand until they are read themselves.
-/

namespace TypeSig

namespace Wrapper

/-- The text inside a wrapper around all of `t`. It must not be empty and holds no right bracket
of its own. -/
def inner? (t : Text) : Option Text :=
  match Lexeme.scan t with
  | ⟨.leftBracket, _⟩ :: rest =>
    let inner := rest.takeWhile (·.symbol != .rightBracket)
    match rest.dropWhile (·.symbol != .rightBracket) with
    | [_] => if inner.isEmpty then none else some (Lexeme.source inner)
    | _ => none
  | _ => none

end Wrapper

namespace Clause

/-- The lexemes before the angle bracket that closes the clause, when `d` more clauses are open
inside it; all of them if it is never closed. -/
def untilClosed (d : Nat) : List Lexeme → List Lexeme
  | [] => []
  | x :: xs =>
    match x.symbol, d with
    | .rightAngle, 0 => []
    | .rightAngle, d + 1 => x :: untilClosed d xs
    | .leftAngle, d => x :: untilClosed (d + 1) xs
    | _, d => x :: untilClosed d xs

/-- The text between the first left angle bracket and its partner, or the end of the text. -/
def interior? (t : Text) : Option Text :=
  match (Lexeme.scan t).dropWhile (·.symbol != .leftAngle) with
  | [] => none
  | _ :: rest => some (Lexeme.source (untilClosed 0 rest))

/-- What a lexeme contributes to a subtype at nesting `d`. -/
def resolve (d : Nat) (x : Lexeme) : Text :=
  if d == 0 then if x.symbol == .blank then [] else x.literal else x.text

/-- The text of a subtype whose lexemes stand after `d` open clauses. -/
def normalize (d : Nat) : List Lexeme → Text
  | [] => []
  | x :: xs =>
    let d' := x.symbol.nesting d
    resolve d' x ++ normalize d' xs

/-- The subtypes of the outermost clause of a type. -/
def subtypes (t : Text) : List Text :=
  let body := t.trim
  match interior? ((Wrapper.inner? body).getD body) with
  | some interior =>
    (Piece.splitTexts Symbol.separatesSubtypes interior).map fun p => normalize 0 (Lexeme.scan p)
  | none => []

end Clause

end TypeSig

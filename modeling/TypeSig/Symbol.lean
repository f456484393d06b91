import TypeSig.Text.Blank

/-!
# Symbols

The kinds of lexical units in the notation, and the two ways in which they move a nesting depth.
`nesting` counts the generic clauses that are open; `depth` also closes all of them at a `::`,
because the constraints before it may hold comparison signs that never close.
-/

namespace TypeSig

inductive Symbol where
  /-- `=>`, which separates the stages of a signature. -/
  | arrow
  /-- `::`, which ends the constraints of a stage. -/
  | doubleColon
  /-- `%` and the character it protects. -/
  | escape
  | leftAngle
  | rightAngle
  | leftBracket
  | rightBracket
  | comma
  | semicolon
  | colon
  | blank
  /-- Any other character, a lone `=` and a final `%` included. -/
  | plain
  deriving DecidableEq, Repr

namespace Symbol

/-- The kind of a character that is a unit on its own. -/
def ofChar (c : Char) : Symbol :=
  match c with
  | '<' => leftAngle
  | '>' => rightAngle
  | '[' => leftBracket
  | ']' => rightBracket
  | ',' => comma
  | ';' => semicolon
  | ':' => colon
  | c => if Text.isBlank c then blank else plain

/-- The number of open clauses after a symbol, when `d` were open before it. -/
def nesting (d : Nat) : Symbol → Nat
  | leftAngle => d + 1
  | rightAngle => d - 1
  | _ => d

/-- The depth at which a symbol stands for the splitter, when the depth before it was `d`. -/
def depth (d : Nat) : Symbol → Nat
  | doubleColon => 0
  | s => s.nesting d

/-- The symbols that separate the subtypes of a clause. -/
def separatesSubtypes (s : Symbol) : Bool := s == comma || s == semicolon

end Symbol

end TypeSig

import TypeSig.Text.Basic

/-!
# Lines

`lines` cuts a text after its line breaks, and `position` finds the line of a character.
-/

namespace TypeSig.Text

/-- Whether a character ends a line. -/
def isLineBreak (c : Char) : Bool :=
  c == '\n' || c == '\r' || c == '\x0b' || c == '\x0c' || c == '\u0085' || c == '\u2028'
    || c == '\u2029'

/-- The lines of a text with the breaks that end them; a carriage return and the line feed after it
are one break. -/
def lines : Text → List Text
  | [] => [[]]
  | '\r' :: '\n' :: t => ['\r', '\n'] :: lines t
  | c :: t => if isLineBreak c then [c] :: lines t else (lines t).modifyHead (c :: ·)

/-- The line and the column of the character with the index `n`, both counted from zero. -/
def position (n : Nat) : List Text → Nat × Nat
  | [] => (0, n)
  | line :: rest =>
    if n < line.length then (0, n)
    else
      let (row, column) := position (n - line.length) rest
      (row + 1, column)

end TypeSig.Text

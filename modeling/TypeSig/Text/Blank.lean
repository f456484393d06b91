import TypeSig.Text.Basic
import TypeSig.Text.CodeRange

/-!
# Blanks

Blank characters are those with the Unicode property White_Space. `trim` removes them at both ends
of a text, and `words` are the maximal runs of other characters.
-/

namespace TypeSig.Text

/-- The code points with the Unicode property White_Space. -/
def blanks : CodeRanges :=
  [(0x09, 0x0d), (0x20, 0x20), (0x85, 0x85), (0xa0, 0xa0), (0x1680, 0x1680), (0x2000, 0x200a),
    (0x2028, 0x2029), (0x202f, 0x202f), (0x205f, 0x205f), (0x3000, 0x3000)]

def isBlank (c : Char) : Bool := blanks.has c

def trimStart (t : Text) : Text := t.dropWhile isBlank

def trimEnd (t : Text) : Text := (t.reverse.dropWhile isBlank).reverse

/-- The text without the blanks at its two ends. -/
def trim (t : Text) : Text := trimEnd (trimStart t)

/-- The maximal runs of characters that are not blank. -/
def words (t : Text) : List Text := (t.splitOnP isBlank).filter fun w => !w.isEmpty

end TypeSig.Text

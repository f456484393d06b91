/-!
# Blocks

A printed value is a tree of atoms, labelled fields and bracketed groups. `inline` writes it on one
line, and `indented` gives every item of a group a line of its own, as a `Style` says.
-/

namespace TypeSig

inductive Block where
  | atom (text : String)
  /-- A value after its label. -/
  | field (label : String) (value : Block)
  /-- Items between brackets; `padded` brackets stand off from the items on one line. -/
  | group (opening closing : String) (padded : Bool) (items : List Block)

namespace Block

/-- How the lines of a group are set. -/
structure Style where
  indent : Nat
  /-- Whether the last item is followed by a comma, as the others are. -/
  trailingComma : Bool

mutual

/-- The value on one line. -/
def inline : Block → String
  | atom text => text
  | field label value => label ++ inline value
  | group opening closing padded items =>
    let pad := if padded then " " else ""
    opening ++ pad ++ ", ".intercalate (inlineItems items) ++ pad ++ closing

def inlineItems : List Block → List String
  | [] => []
  | b :: bs => inline b :: inlineItems bs

end

/-- Puts a text in front of the first line. -/
def mapFirst (before : String) : List String → List String
  | [] => [before]
  | line :: lines => (before ++ line) :: lines

/-- Puts a text behind the last line. -/
def mapLast (after : String) : List String → List String
  | [] => [after]
  | [line] => [line ++ after]
  | line :: lines => line :: mapLast after lines

def indentLines (n : Nat) (lines : List String) : List String := lines.map ("".pushn ' ' n ++ ·)

mutual

/-- The lines of a value. -/
def lines (style : Style) : Block → List String
  | atom text => [text]
  | field label value => mapFirst label (lines style value)
  | group opening closing _ items =>
    match items with
    | [] => [opening ++ closing]
    | items => [opening] ++ itemLines style items ++ [closing]

/-- The indented lines of the items of a group. -/
def itemLines (style : Style) : List Block → List String
  | [] => []
  | b :: bs =>
    let comma := if bs.isEmpty && !style.trailingComma then "" else ","
    indentLines style.indent (mapLast comma (lines style b)) ++ itemLines style bs

end

/-- The value over several lines. -/
def indented (style : Style) (b : Block) : String := "\n".intercalate (lines style b)

end Block

end TypeSig

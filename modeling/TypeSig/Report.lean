import TypeSig.ParseError
import TypeSig.Text.CellWidth
import TypeSig.Text.Line
import TypeSig.Text.Terminal

/-!
# Reports

A report shows an error in its source. It names the place where the region of the error begins,
draws the lines at the two ends of the region, and marks the region with a label. An error whose
region cannot be found is reported by its headline alone.

A region within one line is underlined, and the label hangs from its middle. A region over several
lines is drawn as a bracket from its first to its last line; the lines between are left out. The bar
of the bracket ends at the label, except for a region that begins where the first line of the source
ends: there the bar goes on beside the remarks.
-/

namespace TypeSig

namespace Report

open Text (cells trimEnd)

def repeated (n : Nat) (s : String) : String := String.join (List.replicate n s)

def spaces (n : Nat) : String := repeated n " "

/-- The cells of the first columns of a line; one each past its last visible character. -/
def widths (line : Text) (columns : Nat) : List Nat :=
  ((trimEnd line).mapIdx cells ++ List.replicate columns 1).take columns

/-- A line as it is drawn: without blanks at the end, and with spaces for the other blanks. -/
def shown (line : Text) : String :=
  String.join ((trimEnd line).mapIdx fun column c =>
    if Text.isBlank c then spaces (cells column c) else String.singleton c)

/-- One row of a drawing: what each column begins with and what fills its other cells. -/
def row (line : Text) (columns : Nat) (pick : Nat → String × String) : String :=
  String.join ((widths line columns).mapIdx fun column width =>
    let (first, fill) := pick column
    match width with
    | 0 => ""
    | n + 1 => first ++ repeated n fill)

/-- The underline of the columns of a region, with the mark from which the label hangs. -/
def underline (line : Text) (region : Span) : String :=
  let middle := (region.start + region.stop) / 2
  row line (region.stop + 2) fun column =>
    if column = middle then ("┬", "─")
    else if region.start ≤ column && column < region.stop then ("─", "─")
    else (" ", " ")

/-- The line that leads from the underline to the label. -/
def lead (line : Text) (region : Span) : String :=
  let middle := (region.start + region.stop) / 2
  row line (region.stop + 2) fun column =>
    if column < middle then (" ", " ")
    else if column = middle then ("╰", "─")
    else ("─", "─")

/-- The texts of a report. -/
structure Wording where
  title : String
  label : String
  /-- What stands below the drawing. -/
  remarks : List String

/-- The margin to the left of a drawing whose largest line number has `width` digits. -/
structure Margin where
  width : Nat

namespace Margin

def empty (m : Margin) : String := spaces (m.width + 2)

/-- The margin of the line with the index `row`. -/
def numbered (m : Margin) (row : Nat) : String :=
  let number := toString (row + 1)
  " " ++ spaces (m.width - number.length) ++ number ++ " │ "

end Margin

/-- The drawing of a region within one line. -/
def drawWithin (m : Margin) (lines : List Text) (row : Nat) (columns : Span) (label : String) :
    List String :=
  let line := lines[row]?.getD []
  [m.numbered row ++ shown line,
    m.empty ++ "│ " ++ underline line columns,
    m.empty ++ "│ " ++ lead line columns ++ " " ++ label]

/-- The drawing of a region from the line `first` to a later line `last`. -/
def drawAcross (m : Margin) (lines : List Text) (first last : Nat) (label : String) :
    List String :=
  let line := lines[last]?.getD []
  let width := (widths line (line.length + 2)).foldl (· + ·) 0
  [m.numbered first ++ "╭─▶ " ++ shown (lines[first]?.getD [])]
    ++ (if first + 1 < last then [m.empty ++ "┆ ┆"] else [])
    ++ [m.numbered last ++ "├─▶ " ++ shown line,
      m.empty ++ "│ │",
      m.empty ++ "│ ╰───" ++ repeated width "─" ++ " " ++ label]

/-- The report on a region of characters, which is not empty. -/
def draw (file source : Text) (region : Span) (w : Wording) : List String :=
  let lines := source.lines
  let (first, column) := Text.position region.start lines
  let (last, _) := Text.position (region.stop - 1) lines
  let m : Margin := ⟨(toString (last + 1)).length⟩
  let drawing :=
    if first = last then
      drawWithin m lines first ⟨column, column + (region.stop - region.start)⟩ w.label
    else drawAcross m lines first last w.label
  let (gap, indent) :=
    if first = last then ("", "")
    else if first = 1 && column = 0 then (" │", "│   ")
    else ("", "    ")
  [m.empty ++ "╭─[" ++ String.ofList file.unstyled ++ ":" ++ toString (first + 1) ++ ":"
      ++ toString (column + 1) ++ "]",
    m.empty ++ "│"]
    ++ drawing
    ++ w.remarks.flatMap (fun remark =>
      [m.empty ++ "│" ++ gap, m.empty ++ "│ " ++ indent ++ remark])
    ++ [repeated (m.width + 2) "─" ++ "╯"]

/-- How an error is put in a report. A broken contract of macros has no place in the source, so
only its title is ever shown. -/
def wording : ParseError → Wording
  | .macroContract .. =>
    { title := "Macro returned a non-string value", label := "", remarks := [] }
  | .missingOutput =>
    { title := ParseError.missingOutput.message
      label := "no '=>' found in this signature"
      remarks := ["Help: declare the return stage after '=>', e.g. 'name:string => *'"] }
  | .malformedConstraint _ found _ =>
    { title := "Malformed dependent constraint"
      label := "expected 3 tokens here, found " ++ toString found
      remarks := ["Help: constraints are comma separated and read 'left operator right'",
        "Note: found " ++ toString found ++ " whitespace separated token(s)"] }

/-- The characters of the source that an error is about. -/
def region? (source : Text) (e : ParseError) : Option Span := do
  source.charSpan? (← e.locate source)

/-- The lines of a report. -/
def lines (file source : Text) (e : ParseError) : List String :=
  let w := wording e
  ("[" ++ e.code ++ "] Error: " ++ w.title)
    :: ((region? source e).map fun region => draw file source region w).getD []

/-- A report as it is printed. -/
def render (file source : Text) (e : ParseError) : String :=
  String.join ((lines file source e).map (· ++ "\n"))

end Report

end TypeSig

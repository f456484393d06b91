import TypeSig.Decimal.Layout

/-!
# Macro outputs

What a macro may return. Only a text is a valid result; the other kinds exist to be refused with
their kind and their text.
-/

namespace TypeSig

inductive MacroOutput where
  | text (t : Text)
  | null
  | boolean (b : Bool)
  | number (x : Float)

/-- The kinds of macro outputs. -/
inductive OutputKind where
  | string
  | null
  | boolean
  | number
  deriving DecidableEq, Repr

def OutputKind.label : OutputKind → String
  | string => "string"
  | null => "null"
  | boolean => "boolean"
  | number => "number"

namespace MacroOutput

def kind : MacroOutput → OutputKind
  | text _ => .string
  | null => .null
  | boolean _ => .boolean
  | number _ => .number

def booleanText (b : Bool) : Text :=
  if b then ['t', 'r', 'u', 'e'] else ['f', 'a', 'l', 's', 'e']

/-- The text that messages show for an output. -/
def display : MacroOutput → Text
  | text t => t
  | null => ['n', 'u', 'l', 'l']
  | boolean b => booleanText b
  | number x => Decimal.Layout.plain.write x

/-- A whole number, rounded to the nearest floating-point number. -/
def ofInt (n : Int) : MacroOutput := number (Float.ofInt n)

end MacroOutput

end TypeSig

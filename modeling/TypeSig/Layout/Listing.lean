import TypeSig.Layout.Block
import TypeSig.Signature
import TypeSig.Text.Quoted

/-!
# Listings

Values written out with the names of their types and fields, for a person who looks into them.
Texts are quoted with every character visible. `Listing.pretty` indents by four spaces and puts a
comma behind every item.
-/

namespace TypeSig

namespace Listing

def text (t : Text) : Block := .atom t.quote

def boolean (b : Bool) : Block := .atom (String.ofList (MacroOutput.booleanText b))

def nat (n : Nat) : Block := .atom (toString n)

def list (items : List Block) : Block := .group "[" "]" false items

/-- A value inside a named wrapper. -/
def wrapped (name : String) (b : Block) : Block := .group (name ++ "(") ")" false [b]

def option : Option Block → Block
  | none => .atom "None"
  | some b => wrapped "Some" b

def record (name : String) (fields : List (String × Block)) : Block :=
  .group (name ++ " \x7b") "\x7d" true
    (fields.map fun (label, value) => .field (label ++ ": ") value)

def pretty (b : Block) : String := b.indented ⟨4, true⟩

end Listing

def TypeDescriptor.listing (d : TypeDescriptor) : Block :=
  Listing.record "TypeDescriptor"
    [("name", Listing.option (d.name.map Listing.text)), ("base", Listing.text d.base),
      ("subtype", Listing.list (d.subtypes.map Listing.text)),
      ("optional", Listing.boolean d.optional)]

def Constraint.listing (c : Constraint) : Block :=
  Listing.record "DependentConstraint"
    [("left", Listing.text c.left), ("operator", Listing.text c.operator),
      ("right", Listing.text c.right)]

def Stage.listing (s : Stage) : Block :=
  Listing.record "ParameterList"
    [("types", Listing.list (s.types.map TypeDescriptor.listing)),
      ("dependent",
        Listing.option (s.dependent.map fun cs => Listing.list (cs.map Constraint.listing)))]

def Signature.listing (s : Signature) : Block :=
  Listing.record "Signature" [("stages", Listing.list (s.stages.map Stage.listing))]

def MacroOutput.listing : MacroOutput → Block
  | text t => Listing.wrapped "Text" (Listing.text t)
  | null => .atom "Null"
  | boolean b => Listing.wrapped "Bool" (Listing.boolean b)
  | number x => Listing.wrapped "Number" (.atom (String.ofList (Decimal.Layout.listing.write x)))

def ParseError.listing : ParseError → Block
  | macroContract value kind =>
    Listing.record "MacroContract"
      [("value", Listing.text value), ("kind", Listing.text kind.label.toList)]
  | missingOutput => .atom "MissingOutput"
  | malformedConstraint constraint found span =>
    Listing.record "MalformedConstraint"
      [("constraint", Listing.text constraint), ("found", Listing.nat found),
        ("span", .atom (toString span.start ++ ".." ++ toString span.stop))]

end TypeSig

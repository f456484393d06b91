import TypeSig.Layout.Block
import TypeSig.Signature
import TypeSig.Text.Quoted

/-!
# JSON

Types, constraints, stages and signatures as JSON values. A signature is the bare list of its
stages. `Json.pretty` indents by two spaces.
-/

namespace TypeSig

namespace Json

def text (t : Text) : Block := .atom t.quoteJson

def boolean (b : Bool) : Block := .atom (String.ofList (MacroOutput.booleanText b))

def list (items : List Block) : Block := .group "[" "]" false items

def object (fields : List (String × Block)) : Block :=
  .group "\x7b" "\x7d" false
    (fields.map fun (key, value) => .field (Text.quoteJson key.toList ++ ": ") value)

def option : Option Block → Block
  | none => .atom "null"
  | some b => b

def pretty (b : Block) : String := b.indented ⟨2, false⟩

end Json

def TypeDescriptor.json (d : TypeDescriptor) : Block :=
  Json.object
    [("name", Json.option (d.name.map Json.text)), ("type", Json.text d.base),
      ("subtype", Json.list (d.subtypes.map Json.text)), ("optional", Json.boolean d.optional)]

def Constraint.json (c : Constraint) : Block :=
  Json.object
    [("left", Json.text c.left), ("operator", Json.text c.operator), ("right", Json.text c.right)]

def Stage.json (s : Stage) : Block :=
  Json.object
    [("types", Json.list (s.types.map TypeDescriptor.json)),
      ("dependent", Json.option (s.dependent.map fun cs => Json.list (cs.map Constraint.json)))]

def Signature.json (s : Signature) : Block := Json.list (s.stages.map Stage.json)

end TypeSig

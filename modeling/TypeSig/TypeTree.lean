import TypeSig.TypeDescriptor

/-!
# Type trees

The subtypes of a type are texts that can be read as types again. A type tree holds what is read
that way, down to a given depth.
-/

namespace TypeSig

/-- Descriptors of a type, of its subtypes, of theirs, and so on. -/
inductive TypeTree where
  /-- A type whose subtypes are not read any further. -/
  | leaf (type : TypeDescriptor)
  | node (type : TypeDescriptor) (children : List TypeTree)

namespace TypeTree

/-- Reads the subtypes of a token `depth` levels down. -/
def parse : Nat → Text → TypeTree
  | 0, token => leaf (.parse token)
  | depth + 1, token =>
    let type := TypeDescriptor.parse token
    node type (type.subtypes.map (parse depth))

end TypeTree

end TypeSig

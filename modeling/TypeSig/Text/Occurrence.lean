import TypeSig.Text.Basic

/-!
# Occurrences

Finding a text inside another one, and replacing it there.
-/

namespace TypeSig.Text

/-- Whether `needle` occurs in a text. -/
def contains (needle : Text) : Text → Bool
  | [] => needle.isEmpty
  | c :: t => needle.isPrefixOf (c :: t) || contains needle t

/-- Replaces the occurrences of a non-empty `old` from left to right; `skip` characters still
belong to the occurrence replaced last. -/
def replaceFrom (old new : Text) : Nat → Text → Text
  | _, [] => []
  | skip + 1, _ :: t => replaceFrom old new skip t
  | 0, c :: t =>
    if old.isPrefixOf (c :: t) then new ++ replaceFrom old new (old.length - 1) t
    else c :: replaceFrom old new 0 t

/-- Replaces every occurrence of a non-empty `old` by `new`, from left to right and without
overlap. -/
def replaceAll (old new t : Text) : Text := replaceFrom old new 0 t

end TypeSig.Text

import TypeSig.Clause

/-!
# Type descriptors

A type token reads `name:[base<subtype;subtype>]`, where the name, the wrapper and the clause may
be missing. Every token has a descriptor; nothing is refused.
-/

namespace TypeSig

structure TypeDescriptor where
  name : Option Text
  base : Text
  subtypes : List Text
  /-- Whether the type is wrapped in square brackets. -/
  optional : Bool
  deriving DecidableEq, Repr

namespace TypeDescriptor

/-- The symbols that can stand in a name. -/
def inName (s : Symbol) : Bool := s != .colon && s != .leftAngle

/-- The name of a token and the text after its colon. Only the first colon counts, only in front
of every clause, and only if neither side is blank; otherwise there is no name and the whole token
is the type. -/
def splitName (token : Text) : Option Text × Text :=
  let lexemes := Lexeme.scan token
  match lexemes.dropWhile (inName ·.symbol) with
  | ⟨.colon, _⟩ :: after =>
    let name := (Lexeme.source (lexemes.takeWhile (inName ·.symbol))).trim
    let rest := Lexeme.source after
    if name.isEmpty || rest.trim.isEmpty then (none, token) else (some name, rest)
  | _ => (none, token)

def isBracket (s : Symbol) : Bool := s == .leftBracket || s == .rightBracket

/-- The text before the first clause, without square brackets. -/
def baseOf (t : Text) : Text :=
  let before := (Lexeme.scan t).takeWhile (·.symbol != .leftAngle)
  (Lexeme.source (before.filter fun x => !isBracket x.symbol)).trim

/-- The descriptor of a type token. -/
def parse (token : Text) : TypeDescriptor :=
  let (name, rest) := splitName token
  let body := rest.trim
  { name, base := baseOf body, subtypes := Clause.subtypes body,
    optional := (Wrapper.inner? body).isSome }

end TypeDescriptor

end TypeSig

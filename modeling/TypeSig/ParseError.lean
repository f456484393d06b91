import TypeSig.MacroOutput
import TypeSig.Text.Span

/-!
# Parse errors

The three causes for which a text is refused, with their messages and codes. Only a malformed
constraint has a place in the text; `shift` moves it when the error was found in a part of a longer
text, and `locate` finds the part of the text that an error is about.
-/

namespace TypeSig

inductive ParseError where
  /-- A macro returned something other than a text. -/
  | macroContract (value : Text) (kind : OutputKind)
  /-- A signature has no output stage although one is required. -/
  | missingOutput
  /-- A constraint has `found` words instead of three; `span` are its bytes. -/
  | malformedConstraint (constraint : Text) (found : Nat) (span : Span)
  deriving DecidableEq, Repr

namespace ParseError

def message : ParseError → String
  | macroContract value kind =>
    "Macro Error: All macros must return a string; got " ++ String.ofList value ++ " of type "
      ++ kind.label
  | missingOutput => "Signature must contain an output declaration"
  | malformedConstraint constraint found _ =>
    "Malformed constraint '" ++ String.ofList constraint
      ++ "': expected 'left operator right', found " ++ toString found ++ " token(s)"

def exitCode : ParseError → Nat
  | macroContract .. => 201
  | missingOutput => 202
  | malformedConstraint .. => 203

def code : ParseError → String
  | macroContract .. => "E201"
  | missingOutput => "E202"
  | malformedConstraint .. => "E203"

/-- The error of a part that begins `n` bytes into the text. -/
def shift (n : Nat) : ParseError → ParseError
  | malformedConstraint constraint found span => malformedConstraint constraint found (span.shift n)
  | e => e

/-- The bytes of the source that an error is about: the whole source for a missing output, and the
constraint for a malformed one, as far as its span is a non-empty part of the source. -/
def locate (source : Text) : ParseError → Option Span
  | macroContract .. => none
  | missingOutput => if source.isEmpty then none else some ⟨0, source.bytes⟩
  | malformedConstraint _ _ span =>
    if span.start < span.stop && (source.cutAt? span.start).isSome
        && (source.cutAt? span.stop).isSome then some span
    else none

end ParseError

/-- The text of an output, or the error that it breaks the contract of macros. -/
def MacroOutput.toText : MacroOutput → Except ParseError Text
  | text t => .ok t
  | o => .error (.macroContract o.display o.kind)

end TypeSig

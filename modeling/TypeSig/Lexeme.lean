import TypeSig.Symbol
import TypeSig.Text.Span

/-!
# Lexemes

`scan` cuts a text into lexemes. The three sequences `=>`, `::` and `%c` are read eagerly, and any
other character is a lexeme of its own, so no text is refused and nothing of it is lost:
`source_scan` says that the lexemes of a text spell it.
-/

namespace TypeSig

/-- A symbol with the text it was read from. -/
structure Lexeme where
  symbol : Symbol
  text : Text
  deriving DecidableEq, Repr

namespace Lexeme

/-- The lexemes of a text, from left to right. -/
def scan : Text → List Lexeme
  | [] => []
  | '=' :: '>' :: t => ⟨.arrow, ['=', '>']⟩ :: scan t
  | ':' :: ':' :: t => ⟨.doubleColon, [':', ':']⟩ :: scan t
  | '%' :: c :: t => ⟨.escape, ['%', c]⟩ :: scan t
  | c :: t => ⟨.ofChar c, [c]⟩ :: scan t

/-- The text that lexemes spell. -/
def source (xs : List Lexeme) : Text := xs.flatMap text

@[simp] theorem source_nil : source [] = [] := rfl

@[simp] theorem source_cons (x : Lexeme) (xs : List Lexeme) :
    source (x :: xs) = x.text ++ source xs := rfl

@[simp] theorem source_append (xs ys : List Lexeme) :
    source (xs ++ ys) = source xs ++ source ys := by
  simp [source]

theorem source_scan (t : Text) : source (scan t) = t := by
  fun_induction scan t <;> simp_all

/-- What a lexeme stands for: an escape for the character it protects, any other for itself. -/
def literal (x : Lexeme) : Text :=
  match x.symbol with
  | .escape => x.text.tail
  | _ => x.text

/-- The lexemes with the bytes they occupy, when the first of them begins at `start`. -/
def withSpans (start : Nat) : List Lexeme → List (Lexeme × Span)
  | [] => []
  | x :: xs =>
    let stop := start + x.text.bytes
    (x, ⟨start, stop⟩) :: withSpans stop xs

end Lexeme

/-- The text with every escape resolved to the character it protects. -/
def Text.unescape (t : Text) : Text := (Lexeme.scan t).flatMap Lexeme.literal

end TypeSig

import TypeSig.Text.Extender
import TypeSig.Text.Printable
import TypeSig.Text.Basic

/-!
# Quoted text

Two ways to write a text between double quotes: `quote` escapes whatever a reader could not see on
a page, and `quoteJson` escapes what a JSON string must escape and nothing else.
-/

namespace TypeSig.Text

/-- The hexadecimal digits of a code point, in lower case and without leading zeros. -/
def hexDigits (c : Char) : Text := Nat.toDigits 16 c.toNat

/-- How a character stands inside `quote`. -/
def quoteChar (c : Char) : Text :=
  match c with
  | '\x00' => ['\\', '0']
  | '\t' => ['\\', 't']
  | '\r' => ['\\', 'r']
  | '\n' => ['\\', 'n']
  | '"' => ['\\', '"']
  | '\\' => ['\\', '\\']
  | c =>
    if isMark c || !isPrintable c then ['\\', 'u', '\x7b'] ++ hexDigits c ++ ['\x7d']
    else [c]

/-- The text between double quotes, with every character visible. -/
def quote (t : Text) : String := String.ofList (['"'] ++ t.flatMap quoteChar ++ ['"'])

/-- How a character stands inside a JSON string. -/
def quoteJsonChar (c : Char) : Text :=
  match c with
  | '\x08' => ['\\', 'b']
  | '\t' => ['\\', 't']
  | '\n' => ['\\', 'n']
  | '\x0c' => ['\\', 'f']
  | '\r' => ['\\', 'r']
  | '"' => ['\\', '"']
  | '\\' => ['\\', '\\']
  | c => if c.toNat < 0x20 then ['\\', 'u'] ++ (hexDigits c).leftpad 4 '0' else [c]

/-- The text as a JSON string. -/
def quoteJson (t : Text) : String := String.ofList (['"'] ++ t.flatMap quoteJsonChar ++ ['"'])

end TypeSig.Text

import TypeSig.Lexeme

/-!
# Pieces

`Piece.split` cuts a text at the symbols that a test accepts, but only where no generic clause is
open. Empty pieces between two cuts are kept; an empty piece after the last cut is dropped.
-/

namespace TypeSig

/-- A part of a text with the byte at which it begins. -/
structure Piece where
  text : Text
  start : Nat
  deriving DecidableEq, Repr

namespace Piece

/-- The byte after the piece. -/
def stop (p : Piece) : Nat := p.start + p.text.bytes

def span (p : Piece) : Span := ⟨p.start, p.stop⟩

/-- Puts a text that begins at `start` in front of the first piece. -/
def grow (start : Nat) (t : Text) : List Piece → List Piece
  | [] => [⟨t, start⟩]
  | p :: ps => ⟨t ++ p.text, start⟩ :: ps

/-- The pieces of lexemes that begin at byte `start`, with `d` clauses open before them. A symbol
is a cut if it passes the test and the depth is zero once it is counted. -/
def cut (test : Symbol → Bool) (d start : Nat) : List Lexeme → List Piece
  | [] => []
  | x :: xs =>
    let d' := x.symbol.depth d
    let rest := cut test d' (start + x.text.bytes) xs
    if test x.symbol && d' == 0 then ⟨[], start⟩ :: rest else grow start x.text rest

/-- The pieces of a text between the symbols that pass the test outside every clause. -/
def split (test : Symbol → Bool) (t : Text) : List Piece := cut test 0 0 (Lexeme.scan t)

/-- The texts of the pieces. -/
def splitTexts (test : Symbol → Bool) (t : Text) : List Text := (split test t).map text

end Piece

end TypeSig

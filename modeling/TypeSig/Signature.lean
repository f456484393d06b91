import TypeSig.Stage

/-!
# Signatures

A signature is a list of stages between arrows, inputs first and the output last. Its stages are
read from left to right, each from its outline, so the first stage that fails decides the error.
-/

namespace TypeSig

structure Signature where
  stages : List Stage
  deriving DecidableEq, Repr

namespace Signature

/-- Every stage but the last. -/
def inputs (s : Signature) : List Stage := s.stages.dropLast

/-- The last stage. -/
def output? (s : Signature) : Option Stage := s.stages.getLast?

/-- The outlines of the stages, or for some of them why they have none. A required output is
missing if there are fewer than two stages. -/
def outlines (requireOutput : Bool) (t : Text) :
    Except ParseError (List (Except ParseError Stage.Outline)) :=
  let pieces := Piece.split (· == .arrow) t
  if requireOutput && pieces.length < 2 then .error .missingOutput
  else .ok (pieces.map fun p => (Stage.outline p.text).mapError (·.shift p.start))

variable {m : Type → Type} [Monad m] [MonadExcept ParseError m]

/-- Reads the stages from left to right, up to the first that fails. -/
def fill (read : Text → m TypeDescriptor) (outlines : List (Except ParseError Stage.Outline)) :
    m Signature :=
  return ⟨← outlines.mapM fun o => do (← ofExcept o).fill read⟩

/-- Reads a signature with a reader for its type tokens. -/
def parseWith (requireOutput : Bool) (read : Text → m TypeDescriptor) (t : Text) : m Signature := do
  fill read (← ofExcept (outlines requireOutput t))

/-- Reads a signature whose output is required. -/
def parse (t : Text) : Except ParseError Signature :=
  parseWith true (fun token => .ok (.parse token)) t

end Signature

end TypeSig

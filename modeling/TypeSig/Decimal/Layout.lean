import TypeSig.Decimal.Shortest

/-!
# Number text

How a 64-bit floating-point number is written: `Layout` holds the decisions of a format, and
`Layout.write` applies them to the shortest digits of the number.
-/

namespace TypeSig.Decimal

/-- What the bits of a 64-bit floating-point number stand for. -/
inductive Double where
  | nan
  | infinite (negative : Bool)
  /-- The number `m * 2 ^ q`; `powerOfTwo` tells that its lower neighbour is nearer. -/
  | finite (negative : Bool) (m : Nat) (q : Int) (powerOfTwo : Bool)

namespace Double

/-- One bit of sign, eleven of exponent and fifty-two of fraction. -/
def ofBits (bits : Nat) : Double :=
  let negative := bits >>> 63 == 1
  let exponent := (bits >>> 52) % 0x800
  let fraction := bits % 0x10000000000000
  if exponent = 0x7ff then
    if fraction = 0 then .infinite negative else .nan
  else if exponent = 0 then .finite negative fraction (-1074) false
  else
    .finite negative (0x10000000000000 + fraction) (Int.ofNat exponent - 1075)
      (fraction == 0 && exponent != 1)

def ofFloat (x : Float) : Double := ofBits x.toBits.toNat

end Double

/-- The decisions of a number format. -/
structure Layout where
  /-- The places of the point at which a number is written without exponent. -/
  positional : Int → Bool
  /-- What follows a whole number. -/
  whole : Text

namespace Layout

/-- Never an exponent, and nothing after a whole number. -/
def plain : Layout where
  positional := fun _ => true
  whole := []

/-- An exponent below `10 ^ -4` and from `10 ^ 16` on, and a fraction on every number without. -/
def listing : Layout where
  positional := fun point => -3 ≤ point && point ≤ 16
  whole := ['.', '0']

def zeros (n : Nat) : Text := List.replicate n '0'

/-- The digits without exponent. -/
def writePositional (l : Layout) (d : Digits) : Text :=
  if d.point ≤ 0 then ['0', '.'] ++ zeros (-d.point).toNat ++ d.digits
  else
    let point := d.point.toNat
    if d.digits.length ≤ point then d.digits ++ zeros (point - d.digits.length) ++ l.whole
    else d.digits.take point ++ ['.'] ++ d.digits.drop point

/-- The digits with an exponent, and a point after the first of several. -/
def writeExponent (d : Digits) : Text :=
  let fraction := match d.digits.drop 1 with
    | [] => []
    | rest => '.' :: rest
  d.digits.take 1 ++ fraction ++ ['e'] ++ (toString (d.point - 1)).toList

def writeDigits (l : Layout) (d : Digits) : Text :=
  if l.positional d.point then l.writePositional d else writeExponent d

def sign (negative : Bool) : Text := if negative then ['-'] else []

/-- The text of a number. -/
def writeDouble (l : Layout) : Double → Text
  | .nan => ['N', 'a', 'N']
  | .infinite negative => sign negative ++ ['i', 'n', 'f']
  | .finite negative m q powerOfTwo =>
    let digits := if m = 0 then .zero else (Interval.ofBinary m q powerOfTwo).shortest
    sign negative ++ l.writeDigits digits

def write (l : Layout) (x : Float) : Text := l.writeDouble (.ofFloat x)

end Layout

end TypeSig.Decimal

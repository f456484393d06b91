import TypeSig.Text.Basic

/-!
# Shortest decimals

A binary number `m * 2 ^ q` is what a reader makes of every decimal that is nearer to it than to
its neighbours, the two midpoints included if `m` is even. `shortest` gives the fewest digits of
such a decimal, and of several with so few digits the nearest one. All arithmetic is exact.
-/

namespace TypeSig.Decimal

/-- The quotient of two natural numbers. -/
structure Ratio where
  num : Nat
  den : Nat
  deriving Repr

namespace Ratio

/-- The number `n * base ^ e`. -/
def scaled (n base : Nat) : Int → Ratio
  | .ofNat e => ⟨n * base.pow e, 1⟩
  | .negSucc e => ⟨n, base.pow (e + 1)⟩

def le (a b : Ratio) : Bool := a.num * b.den ≤ b.num * a.den

def lt (a b : Ratio) : Bool := !b.le a

def mul (a b : Ratio) : Ratio := ⟨a.num * b.num, a.den * b.den⟩

def floor (a : Ratio) : Nat := a.num / a.den

def ceil (a : Ratio) : Nat := (a.num + a.den - 1) / a.den

def inv (a : Ratio) : Ratio := ⟨a.den, a.num⟩

end Ratio

/-- The number of decimal digits of a positive number. -/
def width (n : Nat) : Nat := (Nat.toDigits 10 n).length

/-- The place `k` with `10 ^ (k - 1) ≤ v < 10 ^ k`, for a positive `v`. -/
def magnitude (v : Ratio) : Int :=
  if v.floor = 0 then 1 - width (v.inv.ceil - 1) else width v.floor

/-- Digits after a decimal point that is moved `point` places to the right. -/
structure Digits where
  digits : Text
  point : Int
  deriving DecidableEq, Repr

namespace Digits

def zero : Digits := ⟨['0'], 1⟩

/-- The digits of `n * 10 ^ e` for a positive `n`, without zeros at the end. -/
def ofNat (n : Nat) (e : Int) : Digits :=
  let all := Nat.toDigits 10 n
  ⟨(all.reverse.dropWhile (· == '0')).reverse, all.length + e⟩

end Digits

/-- A number with the ends of the interval that reads back as it. -/
structure Interval where
  low : Ratio
  value : Ratio
  high : Ratio
  closed : Bool

namespace Interval

/-- The interval of `m * 2 ^ q`. Below a power of two the neighbour is only half as far away, so
the ends are counted in quarters of the last place. -/
def ofBinary (m : Nat) (q : Int) (powerOfTwo : Bool) : Interval where
  low := .scaled (4 * m - (if powerOfTwo then 1 else 2)) 2 (q - 2)
  value := .scaled (4 * m) 2 (q - 2)
  high := .scaled (4 * m + 2) 2 (q - 2)
  closed := m % 2 == 0

def holds (i : Interval) (x : Ratio) : Bool :=
  if i.closed then i.low.le x && x.le i.high else i.low.lt x && x.lt i.high

/-- The multiple of `10 ^ e` in the interval that is nearest to its value, the upper one if two
are. -/
def nearest? (i : Interval) (e : Int) : Option Nat :=
  let below := (i.value.mul (.scaled 1 10 (-e))).floor
  let down := i.holds (.scaled below 10 e)
  let up := i.holds (.scaled (below + 1) 10 e)
  let upper := (Ratio.scaled (2 * below + 1) 10 e).le (i.value.mul ⟨2, 1⟩)
  if up && (!down || upper) then some (below + 1) else if down then some below else none

/-- The nearest decimal with the fewest digits, from `n` digits on; `more` bounds the search. -/
def search (i : Interval) (k : Int) : Nat → Nat → Digits
  | 0, n => .ofNat (i.value.mul (.scaled 1 10 (n - k))).floor (k - n)
  | more + 1, n =>
    match i.nearest? (k - n) with
    | some d => .ofNat d (k - n)
    | none => search i k more (n + 1)

/-- Seventeen digits always read back. -/
def shortest (i : Interval) : Digits := search i (magnitude i.value) 17 1

end Interval

end TypeSig.Decimal

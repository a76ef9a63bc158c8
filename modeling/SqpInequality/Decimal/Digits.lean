import SqpInequality.Decimal.Binary

/-!
# Decimal/Digits — decimal digits of a magnitude

`shortest` takes the fewest digits that read back as the same double; `rounded` takes a given number
of digits of the exact value, a half going to the even neighbour.
-/

namespace SqpInequality

namespace Decimal

/-- The decimal `0.d₁d₂… * 10 ^ point`, given by its digits. -/
structure Digits where
  /-- The digits from the leading one on. -/
  digits : List Char
  /-- Where the decimal point stands, counted from before the leading digit. -/
  point : Int
deriving DecidableEq, Repr

/-- How many decimal digits a number has. -/
def digitCount (n : Nat) : Nat := (Nat.toDigits 10 n).length

/-- The least `p` with `numerator / denominator < 10 ^ p`, for a positive fraction. -/
def leadingPoint (numerator denominator : Nat) : Int :=
  if denominator ≤ numerator then digitCount (numerator / denominator)
  else 1 - (digitCount ((denominator - 1) / numerator) : Int)

/-- The digits of `count * 10 ^ unit` without the zeros at the end. -/
def Digits.ofGrid (count : Nat) (unit : Int) : Digits :=
  let digits := Nat.toDigits 10 count
  ⟨(digits.reverse.dropWhile (· == '0')).reverse, unit + digits.length⟩

/-- The quotient rounded to the nearest number, a half going to the even neighbour. -/
def roundEven (numerator denominator : Nat) : Nat :=
  let q := numerator / denominator
  let r := numerator % denominator
  if denominator < 2 * r || (2 * r == denominator && q % 2 == 1) then q + 1 else q

/-- The first `count` digits of a positive magnitude, rounded. -/
def rounded (count : Nat) (x : Magnitude) : Digits :=
  let point := leadingPoint x.numerator x.denominator
  let unit := point - count
  let q := roundEven (x.numerator * pow10 (-unit)) (x.denominator * pow10 unit)
  if q == pow10 count then ⟨Nat.toDigits 10 (pow10 (count - 1)), point + 1⟩
  else ⟨Nat.toDigits 10 q, point⟩

/-- A decimal grid laid over a magnitude: its four lengths share one unit. -/
structure Grid where
  /-- The distance between two points of the grid. -/
  spacing : Nat
  /-- The magnitude. -/
  value : Nat
  /-- Halfway to the next smaller double. -/
  lower : Nat
  /-- Halfway to the next larger double. -/
  upper : Nat
  /-- Whether the two ends still read back as the magnitude. -/
  closed : Bool

/-- The grid of spacing `10 ^ unit` over a magnitude. -/
def Magnitude.grid (x : Magnitude) (unit : Int) : Grid :=
  let quarter := x.exponent - 2
  let scale := pow2 quarter * pow10 (-unit)
  { spacing := pow10 unit * pow2 (-quarter)
    value := 4 * x.mantissa * scale
    lower := (4 * x.mantissa - if x.isNarrowBelow then 1 else 2) * scale
    upper := (4 * x.mantissa + 2) * scale
    closed := x.mantissa % 2 == 0 }

namespace Grid

/-- Whether the point of the given count reads back as the magnitude. -/
def readsBack (g : Grid) (count : Nat) : Bool :=
  let reached := count * g.spacing
  if g.closed then g.lower ≤ reached && reached ≤ g.upper else g.lower < reached && reached < g.upper

/-- The point of the grid that reads back and is nearest, the larger of two equally near ones. -/
def nearest? (g : Grid) : Option Nat :=
  let below := g.value / g.spacing
  let above := below + 1
  match g.readsBack below, g.readsBack above with
  | true, true =>
    some (if (below + above) * g.spacing ≤ 2 * g.value then above else below)
  | true, false => some below
  | false, true => some above
  | false, false => none

end Grid

/-- The fewest digits that read back as a positive magnitude, seventeen at most. -/
def shortest (x : Magnitude) : Digits :=
  let point := leadingPoint x.numerator x.denominator
  let found := (List.range 17).findSome? fun n =>
    let unit := point - (n + 1 : Nat)
    (x.grid unit).nearest?.map fun count => Digits.ofGrid count unit
  found.getD (rounded 17 x)

end Decimal

end SqpInequality

/-!
# Decimal/Binary — a double taken apart

A finite double is a sign and `mantissa * 2 ^ exponent`; texts of numbers are computed from that
exact value, never from rounded arithmetic.
-/

namespace SqpInequality

namespace Decimal

/-- Two to a power; a negative power counts as zero. -/
def pow2 (n : Int) : Nat := Nat.pow 2 n.toNat

/-- Ten to a power; a negative power counts as zero. -/
def pow10 (n : Int) : Nat := Nat.pow 10 n.toNat

/-- The magnitude of a finite double: `mantissa * 2 ^ exponent`. -/
structure Magnitude where
  /-- The whole-number factor, below `2 ^ 53`. -/
  mantissa : Nat
  /-- The power of two. -/
  exponent : Int
deriving DecidableEq, Repr

/-- What the bits of a double say. -/
inductive Binary where
  /-- No number. -/
  | nan
  /-- An infinity and whether it is negative. -/
  | infinite (negative : Bool)
  /-- A number: whether its sign is negative, and its magnitude. -/
  | finite (negative : Bool) (magnitude : Magnitude)
deriving DecidableEq, Repr

/-- Splits the 64 bits of a double: one for the sign, 11 for the exponent, 52 for the fraction. -/
def Binary.ofBits (bits : Nat) : Binary :=
  let negative := bits / pow2 63 % 2 == 1
  let exponent := bits / pow2 52 % 2048
  let fraction := bits % pow2 52
  if exponent == 2047 then
    if fraction == 0 then .infinite negative else .nan
  else if exponent == 0 then .finite negative ⟨fraction, -1074⟩
  else .finite negative ⟨pow2 52 + fraction, (exponent : Int) - 1075⟩

/-- Takes a double apart. -/
def Binary.ofFloat (x : Float) : Binary := ofBits x.toBits.toNat

namespace Magnitude

/-- The numerator of the magnitude as a fraction. -/
def numerator (x : Magnitude) : Nat := x.mantissa * pow2 x.exponent

/-- The denominator of the magnitude as a fraction. -/
def denominator (x : Magnitude) : Nat := pow2 (-x.exponent)

/-- Whether the gap to the next smaller double is half the gap to the next larger one. -/
def isNarrowBelow (x : Magnitude) : Bool := x.mantissa == pow2 52 && decide (-1074 < x.exponent)

end Magnitude

end Decimal

end SqpInequality

import SqpInequality.Decimal.Digits

/-!
# Decimal/Text — how numbers are written

Three forms: `plain` in running text (the fewest digits, no exponent), `literal` in descriptions of
values (always recognisable as a fraction, with an exponent for very large and very small numbers)
and `scientific` in reports (a fixed number of places).
-/

namespace SqpInequality

namespace Decimal

/-- How the shortest digits of a number are laid out. -/
structure Layout where
  /-- Which positions of the decimal point are written without an exponent. -/
  isPositional : Int → Bool
  /-- Whether a whole number keeps a fraction of one zero. -/
  keepsFraction : Bool

/-- Digits with the decimal point in its place, padded with zeros. -/
def positional (keepsFraction : Bool) (d : Digits) : String :=
  let places := d.point.toNat
  let whole := d.digits.take places ++ List.replicate (places - d.digits.length) '0'
  let behind := List.replicate (-d.point).toNat '0' ++ d.digits.drop places
  let fraction := if behind.isEmpty && keepsFraction then ['0'] else behind
  String.ofList (if whole.isEmpty then ['0'] else whole) ++
    if fraction.isEmpty then "" else "." ++ String.ofList fraction

/-- Digits with the point after the first one, and the power of ten behind. -/
def exponential (d : Digits) : String :=
  let fraction := d.digits.drop 1
  String.ofList (d.digits.take 1) ++
    (if fraction.isEmpty then "" else "." ++ String.ofList fraction) ++
    "e" ++ toString (d.point - 1)

/-- Writes a double: its sign, then its magnitude in the given words. -/
def write (zero : String) (magnitude : Magnitude → String) (x : Float) : String :=
  let signed (negative : Bool) (text : String) := if negative then "-" ++ text else text
  match Binary.ofFloat x with
  | .nan => "NaN"
  | .infinite negative => signed negative "inf"
  | .finite negative m => signed negative (if m.mantissa == 0 then zero else magnitude m)

/-- Writes the fewest digits that read back, in the given layout. -/
def writeShortest (layout : Layout) : Float → String :=
  write (positional layout.keepsFraction ⟨['0'], 1⟩) fun m =>
    let d := shortest m
    if layout.isPositional d.point then positional layout.keepsFraction d else exponential d

/-- In running text a number has no exponent, and a whole number no fraction. -/
def plain : Float → String := writeShortest ⟨fun _ => true, false⟩

/-- In a description a whole number keeps its fraction, and a number has an exponent from `1e16` on
and below `1e-4`. -/
def literal : Float → String := writeShortest ⟨fun p => -4 < p && p ≤ 16, true⟩

/-- In a report a number has one digit before the point and a fixed number of places behind. -/
def scientific (places : Nat) : Float → String :=
  write (exponential ⟨List.replicate (places + 1) '0', 1⟩) fun m =>
    exponential (rounded (places + 1) m)

end Decimal

end SqpInequality

/-!
# Scalar — the arithmetic a constraint is evaluated in

Every evaluator of the library is written once over `Scalar α`.  At `Float` it is the double
precision arithmetic that answers are computed in; at an ordered field with a square root it is the
mathematics that the evaluators approximate.
-/

namespace SqpInequality

/-- The operations that residuals, linear models and their checks are made of. -/
class Scalar (α : Type) extends Zero α, One α, Add α, Sub α, Neg α, Mul α, Div α, LT α, LE α,
    BEq α, OfScientific α where
  /-- Strict comparison can be evaluated. -/
  decideLt : DecidableLT α
  /-- Comparison can be evaluated. -/
  decideLe : DecidableLE α
  /-- The square root. -/
  sqrt : α → α
  /-- The absolute value. -/
  abs : α → α
  /-- Whether the value stands for no number at all. -/
  isNaN : α → Bool
  /-- Whether the value is a number and not an infinity. -/
  isFinite : α → Bool
  /-- The gap between one and the next larger double, below which two points count as coincident. -/
  epsilon : α

attribute [reducible, instance] Scalar.decideLt Scalar.decideLe

/-- Double precision, rounding to nearest with ties to even. -/
instance : Scalar Float where
  decideLt := inferInstance
  decideLe := inferInstance
  sqrt := Float.sqrt
  abs := Float.abs
  isNaN := Float.isNaN
  isFinite := Float.isFinite
  epsilon := 2.220446049250313e-16

namespace Scalar

variable {α : Type} [Scalar α]

/-- A limit that a check may be asked for: a finite number that is not negative. -/
def isLimit (a : α) : Bool := isFinite a && decide (0 ≤ a)

/-- A step that a difference quotient may be taken with: a finite number above zero. -/
def isStep (a : α) : Bool := isFinite a && decide (0 < a)

end Scalar

end SqpInequality

import SqpInequality.Constraint

/-!
# Factor — anything with a residual

A factor may or may not be an inequality constraint.  Which it is decides whether it is admitted to
a constraint graph.
-/

namespace SqpInequality

/-- A user's factor that has no multiplier. -/
structure PlainFactor (α : Type) where
  /-- How the factor describes itself. -/
  description : String
  /-- The variables. -/
  keys : List Key
  /-- The dimension of the residual. -/
  dimension : Nat
  /-- The residual at a point. -/
  residual : Point α → Except (Failure α) (Vec α)
  /-- The first-order model at a point. -/
  linearize : Point α → Except (Failure α) (LinearModel α)

/-- A factor: an inequality constraint, or a plain factor. -/
inductive Factor (α : Type) where
  /-- An inequality constraint. -/
  | inequality (c : Constraint α)
  /-- A factor without a multiplier. -/
  | plain (f : PlainFactor α)

namespace Factor

variable {α : Type}

/-- The constraint that a factor is, if it is one. -/
def inequality? : Factor α → Option (Constraint α)
  | inequality c => some c
  | plain _ => none

/-- The variables. -/
def keys : Factor α → List Key
  | inequality c => c.keys
  | plain f => f.keys

/-- The dimension of the residual. -/
def dimension : Factor α → Nat
  | inequality c => c.dimension
  | plain f => f.dimension

/-- The constraint that a factor is; a factor without a multiplier is refused under its
description. -/
def toConstraint : Factor α → Except (Fault α) (Constraint α)
  | inequality c => .ok c
  | plain f => .error (.notAnInequality f.description)

end Factor

end SqpInequality

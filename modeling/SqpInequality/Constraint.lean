import SqpInequality.Constraint.Affine
import SqpInequality.Constraint.Bound
import SqpInequality.Constraint.Distance
import SqpInequality.Constraint.Numerical

/-!
# Constraint — scalar inequalities `c(x) ≤ 0` with a multiplier

The library's own kinds are bounds, affine and distance constraints and functions; `custom` is any
other constraint that a user brings along.  All are used through `residual` and `linearize`.
-/

namespace SqpInequality

/-- A user's constraint: nothing is known of it but its answers. -/
structure Custom (α : Type) where
  /-- The variables. -/
  keys : List Key
  /-- The dimension of the residual, as the user gives it. -/
  dimension : Nat
  /-- The key of the multiplier. -/
  dualKey : Key
  /-- The residual at a point. -/
  residual : Point α → Except (Failure α) (Vec α)
  /-- The first-order model at a point. -/
  linearize : Point α → Except (Failure α) (LinearModel α)

/-- A scalar inequality constraint. -/
inductive Constraint (α : Type) where
  /-- A limit on one component of a variable. -/
  | bound (c : Bound α)
  /-- A weighted sum of variables below an offset. -/
  | affine (c : Affine α)
  /-- Two points no further apart than a limit. -/
  | distance (c : MaxDistance α)
  /-- A function of some variables. -/
  | numerical (c : Numerical α)
  /-- A user's constraint. -/
  | custom (c : Custom α)

namespace Constraint

variable {α : Type}

/-- Whether a constraint is one of the library's own kinds. -/
def isBuiltIn : Constraint α → Bool
  | custom _ => false
  | _ => true

/-- The variables. -/
def keys : Constraint α → List Key
  | bound c => [c.key]
  | affine c => c.keys
  | distance c => c.keys
  | numerical c => c.keys
  | custom c => c.keys

/-- The dimension of the residual. -/
def dimension : Constraint α → Nat
  | custom c => c.dimension
  | _ => 1

/-- The key of the multiplier. -/
def dualKey : Constraint α → Key
  | bound c => c.dualKey
  | affine c => c.dualKey
  | distance c => c.dualKey
  | numerical c => c.dualKey
  | custom c => c.dualKey

/-- Whether two constraints of one comparable kind have the same parameters.  Functions cannot be
compared. -/
def sameAs [BEq α] : Constraint α → Constraint α → Bool
  | bound a, bound b => a == b
  | affine a, affine b => a == b
  | distance a, distance b => a == b
  | _, _ => false

/-- The one entry of a residual; any other number of entries is refused. -/
def scalarOf (dualKey : Key) : Vec α → Except (Failure α) α
  | [e] => .ok e
  | v => .error (.refused (.residualNotScalar dualKey v.length))

variable [Scalar α]

/-- The residual at a point. -/
def residual (c : Constraint α) (p : Point α) : Except (Failure α) (Vec α) :=
  match c with
  | bound c => (c.residual p).mapError .refused
  | affine c => (c.residual p).mapError .refused
  | distance c => (c.residual p).mapError .refused
  | numerical c => (c.residual p).mapError .refused
  | custom c => c.residual p

/-- The first-order model at a point. -/
def linearize (c : Constraint α) (p : Point α) : Except (Failure α) (LinearModel α) :=
  match c with
  | bound c => (c.linearize p).mapError .refused
  | affine c => (c.linearize p).mapError .refused
  | distance c => (c.linearize p).mapError .refused
  | numerical c => (c.linearize p).mapError .refused
  | custom c => c.linearize p

/-- The scalar residual at a point; positive means violated. -/
def scalarError (c : Constraint α) (p : Point α) : Except (Failure α) α :=
  (c.residual p).bind (scalarOf c.dualKey)

end Constraint

end SqpInequality

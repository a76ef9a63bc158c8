import SqpInequality.Linear.Model
import SqpInequality.Point

/-!
# Constraint/Bound — a limit on one component of a variable

An upper bound is `x[i] - limit ≤ 0`, a lower bound `limit - x[i] ≤ 0`.  The coefficients are a unit
row and do not depend on the point.
-/

namespace SqpInequality

/-- On which side of the limit a component may lie. -/
inductive Side where
  /-- The limit is the largest value allowed. -/
  | upper
  /-- The limit is the smallest value allowed. -/
  | lower
deriving DecidableEq, Repr

namespace Side

variable {α : Type} [Scalar α]

/-- How far a value lies beyond the limit. -/
def excess (s : Side) (limit x : α) : α :=
  match s with
  | upper => x - limit
  | lower => limit - x

/-- How far a value may still move towards the limit. -/
def slack (s : Side) (limit x : α) : α :=
  match s with
  | upper => limit - x
  | lower => x - limit

/-- How the excess changes with the value. -/
def slope : Side → α
  | upper => 1
  | lower => -1

end Side

/-- A limit on one component of a variable. -/
structure Bound (α : Type) where
  /-- The side on which the component may lie. -/
  side : Side
  /-- The variable. -/
  key : Key
  /-- The component, counted from zero. -/
  index : Nat
  /-- The limit. -/
  limit : α
  /-- The key of the multiplier. -/
  dualKey : Key
deriving BEq

namespace Bound

variable {α : Type}

/-- The bound `x[index] ≤ limit`. -/
def upper (key : Key) (index : Nat) (limit : α) (dualKey : Key) : Bound α :=
  ⟨.upper, key, index, limit, dualKey⟩

/-- The bound `limit ≤ x[index]`. -/
def lower (key : Key) (index : Nat) (limit : α) (dualKey : Key) : Bound α :=
  ⟨.lower, key, index, limit, dualKey⟩

/-- The component's value, and the dimension of its variable. -/
def component (b : Bound α) (p : Point α) : Except (Fault α) (α × Nat) :=
  (p.value b.key).bind fun v =>
    match v[b.index]? with
    | some x => .ok (x, v.length)
    | none => .error (.boundComponent b.index b.key v.length)

variable [Scalar α]

/-- The residual at a point. -/
def residual (b : Bound α) (p : Point α) : Except (Fault α) (Vec α) :=
  (b.component p).map fun c => [b.side.excess b.limit c.1]

/-- The first-order model at a point. -/
def linearize (b : Bound α) (p : Point α) : Except (Fault α) (LinearModel α) :=
  (b.component p).bind fun c =>
    LinearModel.new [(b.key, Block.ofRow (Vec.unit c.2 b.index b.side.slope))]
      [b.side.slack b.limit c.1]

end Bound

end SqpInequality

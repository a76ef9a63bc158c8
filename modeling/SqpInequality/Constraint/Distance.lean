import SqpInequality.Linear.Model
import SqpInequality.Point

/-!
# Constraint/Distance — two points no further apart than a limit

The constraint is `‖x - y‖ - limit ≤ 0`.  Its gradient is the unit vector from `y` to `x` and the
opposite one; where the points coincide up to `Scalar.epsilon` both are zero.
-/

namespace SqpInequality

/-- A largest distance between two variables. -/
structure MaxDistance (α : Type) where
  /-- The first variable. -/
  first : Key
  /-- The second variable. -/
  second : Key
  /-- The largest distance allowed. -/
  limit : α
  /-- The key of the multiplier. -/
  dualKey : Key
  /-- The variables differ. -/
  distinct : first ≠ second

namespace MaxDistance

variable {α : Type}

/-- Distance constraints are compared by variables, limit and dual key. -/
instance [BEq α] : BEq (MaxDistance α) :=
  ⟨fun a b => a.first == b.first && a.second == b.second && a.limit == b.limit &&
    a.dualKey == b.dualKey⟩

/-- The two variables. -/
def keys (c : MaxDistance α) : List Key := [c.first, c.second]

variable [Scalar α]

/-- The constraint between two variables.  The limit has to be finite and not negative, and is
checked before the variables. -/
def new (first second : Key) (limit : α) (dualKey : Key) :
    Except (Fault α) (MaxDistance α) :=
  if Scalar.isLimit limit then
    if hd : first = second then .error (.distanceToSelf first)
    else .ok ⟨first, second, limit, dualKey, hd⟩
  else .error (.distanceNotLimit limit)

/-- The vector from the second point to the first; both have to be assigned and equally long. -/
def difference (c : MaxDistance α) (p : Point α) : Except (Fault α) (Vec α) :=
  (p.value c.first).bind fun x =>
    (p.value c.second).bind fun y =>
      if x.length = y.length then .ok (Vec.sub x y)
      else .error (.pointDimensions c.first x.length c.second y.length)

/-- The unit vector along a difference, or zero where the points coincide. -/
def direction (difference : Vec α) : Vec α :=
  if Scalar.epsilon < Vec.norm difference then Vec.divide difference (Vec.norm difference)
  else Vec.zero difference.length

/-- The residual at a point. -/
def residual (c : MaxDistance α) (p : Point α) : Except (Fault α) (Vec α) :=
  (c.difference p).map fun d => [Vec.norm d - c.limit]

/-- The first-order model at a point. -/
def linearize (c : MaxDistance α) (p : Point α) : Except (Fault α) (LinearModel α) :=
  (c.difference p).bind fun d =>
    LinearModel.new
      [(c.first, Block.ofRow (direction d)), (c.second, Block.ofRow (Vec.neg (direction d)))]
      [c.limit - Vec.norm d]

end MaxDistance

end SqpInequality

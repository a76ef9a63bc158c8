import SqpInequality.Vec

/-!
# Constraint/Differences — slopes from evaluations nearby

The slope of a function along one coordinate is read from two evaluations, one step forward and one
step back, with all other coordinates at the point.  The evaluations run in any monad, which tells
their order and arguments apart from their values.
-/

namespace SqpInequality

namespace Differences

variable {α : Type} [Scalar α]

/-- The vectors with component `i` of vector `j` replaced. -/
def replace (x : List (Vec α)) (j i : Nat) (v : α) : List (Vec α) := x.modify j fun w => w.set i v

variable {m : Type → Type} [Monad m]

/-- The slope along component `i` of vector `j`, whose value is `t`. -/
def slope (f : List (Vec α) → m α) (h : α) (x : List (Vec α)) (j i : Nat) (t : α) : m α := do
  let forward ← f (replace x j i (t + h))
  let backward ← f (replace x j i (t - h))
  pure ((forward - backward) / ((1 + 1) * h))

/-- The slopes along all components, vector by vector. -/
def slopes (f : List (Vec α) → m α) (h : α) (x : List (Vec α)) : m (List (Vec α)) :=
  x.zipIdx.mapM fun w => w.1.zipIdx.mapM fun t => slope f h x w.2 t.2 t.1

/-- The value at a point and the slopes around it. -/
def firstOrder (f : List (Vec α) → m α) (h : α) (x : List (Vec α)) : m (α × List (Vec α)) := do
  let value ← f x
  let rows ← slopes f h x
  pure (value, rows)

end Differences

end SqpInequality

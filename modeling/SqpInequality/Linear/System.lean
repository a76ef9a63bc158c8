import SqpInequality.Linear.Row

/-!
# Linear/System — a list of linear inequalities
-/

namespace SqpInequality

/-- Linear inequalities, in the order of the constraints that they model. -/
structure LinearSystem (α : Type) where
  /-- The inequalities. -/
  rows : List (LinearRow α)
deriving BEq

namespace LinearSystem

variable {α : Type}

/-- The system without inequalities. -/
def empty : LinearSystem α := ⟨[]⟩

/-- Adds an inequality behind all others. -/
def add (s : LinearSystem α) (r : LinearRow α) : LinearSystem α := ⟨s.rows ++ [r]⟩

/-- How many inequalities there are. -/
def size (s : LinearSystem α) : Nat := s.rows.length

/-- The inequality at an index, if there is one. -/
def get? (s : LinearSystem α) (i : Nat) : Option (LinearRow α) := s.rows[i]?

/-- The dual keys, in the order of the inequalities. -/
def dualKeys (s : LinearSystem α) : List Key := s.rows.map LinearRow.dualKey

/-- The right-hand sides, in the order of the inequalities. -/
def rhs (s : LinearSystem α) : Vec α := s.rows.map LinearRow.rhs

variable [Scalar α]

/-- The error of each inequality along a step, or the first refusal. -/
def errors (s : LinearSystem α) (step : VectorMap α) : Except (Fault α) (Vec α) :=
  s.rows.mapM fun r => r.error step

/-- Whether each inequality holds along a step, up to a tolerance, or the first refusal. -/
def verdicts (s : LinearSystem α) (step : VectorMap α) (tolerance : α) :
    Except (Fault α) (List Bool) :=
  s.rows.mapM fun r => r.isSatisfied step tolerance

end LinearSystem

end SqpInequality

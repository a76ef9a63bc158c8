import SqpInequality.Linear.Model

/-!
# Linear/Row — one linear inequality

A row is a model of a single row read as `∑ aⱼ * dⱼ ≤ rhs`, tagged with the dual key of the
constraint that it models.
-/

namespace SqpInequality

/-- A linear inequality and the dual key of its multiplier. -/
structure LinearRow (α : Type) where
  /-- The model that the inequality bounds by zero. -/
  model : LinearModel α
  /-- The key of the multiplier. -/
  dualKey : Key
  /-- The model is a single row. -/
  single : model.rowCount = 1

namespace LinearRow

variable {α : Type}

/-- Inequalities are compared by their models and their dual keys. -/
instance [BEq α] : BEq (LinearRow α) := ⟨fun a b => a.model == b.model && a.dualKey == b.dualKey⟩

/-- Reads a model of a single row as an inequality. -/
def ofModel (model : LinearModel α) (dualKey : Key) : Except (Fault α) (LinearRow α) :=
  if h : model.rowCount = 1 then .ok ⟨model, dualKey, h⟩
  else .error (.notSingleRow dualKey model.rowCount)

/-- The keys that the inequality mentions. -/
def keys (r : LinearRow α) : List Key := r.model.keys

/-- The coefficients of a key, if the inequality mentions it. -/
def coefficients? (r : LinearRow α) (k : Key) : Option (Block α) := r.model.block? k

/-- The scalar right-hand side. -/
def rhs (r : LinearRow α) : α :=
  r.model.rhs.head (List.ne_nil_of_length_pos (by
    have h := r.single
    rw [LinearModel.rowCount] at h
    omega))

/-! ## Evaluation along a step -/

variable [Scalar α]

/-- The left side less the right side along a step; positive means violated.  The model has one
row, so its one entry is taken. -/
def error (r : LinearRow α) (step : VectorMap α) : Except (Fault α) α :=
  (r.model.error step).map fun e => e.headD 0

/-- Whether the inequality holds along a step, up to a tolerance. -/
def isSatisfied (r : LinearRow α) (step : VectorMap α) (tolerance : α) :
    Except (Fault α) Bool :=
  (r.error step).map fun e => decide (e ≤ tolerance)

end LinearRow

end SqpInequality

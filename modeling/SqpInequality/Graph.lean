import SqpInequality.Factor
import SqpInequality.Graph.Run
import SqpInequality.Linear.System

/-!
# Graph — the inequality constraints of a problem

A graph lists constraints in the order of their admission.  Its two services visit them in that
order: `linearize` turns each into a row of a linear system, `report` checks a candidate point with
its multipliers and ends at the first constraint that fails.
-/

namespace SqpInequality

/-- Inequality constraints, in the order of their admission. -/
structure Graph (α : Type) where
  /-- The constraints. -/
  constraints : List (Constraint α)

namespace Graph

variable {α : Type}

/-! ## Admission -/

/-- The graph without constraints. -/
def empty : Graph α := ⟨[]⟩

/-- Admits a constraint behind all others. -/
def add (g : Graph α) (c : Constraint α) : Graph α := ⟨g.constraints ++ [c]⟩

/-- Admits a factor, which has to be an inequality constraint. -/
def tryAdd (g : Graph α) (f : Factor α) : Except (Fault α) (Graph α) := f.toConstraint.map g.add

/-- The graph of a list of factors; the first that is no inequality constraint is refused. -/
def ofFactors (fs : List (Factor α)) : Except (Fault α) (Graph α) := fs.foldlM tryAdd empty

/-- Admits a constraint behind all others, in place. -/
def addInPlace (c : Constraint α) : InPlace α (Graph α) Unit :=
  modify fun g => ⟨g.constraints ++ [c]⟩

@[simp] theorem on_addInPlace (g : Graph α) (c : Constraint α) :
    (addInPlace c).on g = (.ok (), g.add c) := rfl

/-- Admits a factor, in place. -/
def tryAddInPlace : Factor α → InPlace α (Graph α) Unit
  | .inequality c => modify fun g => ⟨g.constraints ++ [c]⟩
  | .plain f => throw (.notAnInequality f.description)

theorem does_tryAddInPlace (f : Factor α) : (tryAddInPlace f).Does fun g => g.tryAdd f := by
  intro g
  cases f with
  | inequality c => rfl
  | plain u => rfl

/-- How many constraints there are. -/
def size (g : Graph α) : Nat := g.constraints.length

/-- The constraint at an index, if there is one. -/
def get? (g : Graph α) (i : Nat) : Option (Constraint α) := g.constraints[i]?

variable [Scalar α]

/-- The scalar residual of each constraint at a point, or the first failure. -/
def scalarErrors (g : Graph α) (p : Point α) : Run α (Vec α) :=
  g.constraints.mapM fun c => Run.askScalar c p

/-! ## Linearization -/

/-- The rows of some constraints at a point, or the first failure. -/
def linearRows (p : Point α) : List (Constraint α) → Run α (List (LinearRow α))
  | [] => pure []
  | c :: rest => do
    let model ← Run.askModel c p
    Run.announce (.linearized c.dualKey model.rhs.head?)
    let row ← Run.check (LinearRow.ofModel model c.dualKey)
    let rows ← linearRows p rest
    pure (row :: rows)

/-- One row for each constraint at a point, in order and with the same dual keys, or the first
failure. -/
def linearize (g : Graph α) (p : Point α) : Run α (LinearSystem α) := do
  let rows ← linearRows p g.constraints
  Run.announce (.systemBuilt rows.length)
  pure ⟨rows⟩

/-! ## The check of a candidate -/

/-- Ends a check with a rejection. -/
def reject (r : Kkt.Report α) (status : Kkt.Status α) : Run α (Kkt.Report α) := do
  Run.announce (.rejected status)
  pure { r with status := status }

/-- Goes on with a check from a report on the constraints before the given ones. -/
def reportFrom (p : Point α) (duals : VectorMap α) (tolerance : α) (r : Kkt.Report α) :
    List (Constraint α) → Run α (Kkt.Report α)
  | [] => do
    Run.announce (.accepted r.evaluated r.active)
    pure r
  | c :: rest => do
    let error ← Run.askScalar c p
    let site : Kkt.Site α := ⟨r.evaluated, c.dualKey, error⟩
    let counted := r.count error
    Run.announce (.evaluated c.dualKey error)
    if tolerance < error ∨ Scalar.isNaN error = true then
      reject counted (.primalInfeasible site)
    else
      match duals.status c.dualKey with
      | .inactive => reportFrom p duals tolerance counted rest
      | .active _ =>
        if tolerance < Scalar.abs error then
          reject counted.countActive (.complementarityViolated site)
        else reportFrom p duals tolerance counted.countActive rest

/-- The report on a candidate point with its multipliers.  The tolerance is checked first. -/
def report (g : Graph α) (p : Point α) (duals : VectorMap α) (tolerance : α) :
    Run α (Kkt.Report α) := do
  Run.check (Kkt.validateTolerance tolerance)
  reportFrom p duals tolerance (.initial tolerance) g.constraints

/-- Whether a candidate point with its multipliers is accepted. -/
def isSatisfied (g : Graph α) (p : Point α) (duals : VectorMap α) (tolerance : α) :
    Run α Bool := do
  let r ← g.report p duals tolerance
  pure r.isSatisfied

/-- Whether a candidate is accepted at the tolerance of a configuration. -/
def isSatisfiedUnder (g : Graph α) (p : Point α) (duals : VectorMap α)
    (config : Kkt.Config α) : Run α Bool :=
  g.isSatisfied p duals config.tolerance

end Graph

end SqpInequality

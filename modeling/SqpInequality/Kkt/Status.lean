import SqpInequality.Decimal.Text
import SqpInequality.Key.Name

/-!
# Kkt/Status — verdicts on a candidate solution

A candidate is accepted when every residual is at most the tolerance, and every active residual is
also at least its negation.  A rejection names the first constraint that fails.
-/

namespace SqpInequality

namespace Kkt

/-- The constraint that a verdict is about. -/
structure Site (α : Type) where
  /-- Its place in the graph, counted from zero. -/
  index : Nat
  /-- The key of its multiplier. -/
  dualKey : Key
  /-- Its residual. -/
  error : α
deriving BEq

/-- The verdict of a check. -/
inductive Status (α : Type) where
  /-- Every constraint holds, and every active one holds with equality. -/
  | satisfied
  /-- A residual is larger than the tolerance, or no number. -/
  | primalInfeasible (site : Site α)
  /-- An active residual is further from zero than the tolerance. -/
  | complementarityViolated (site : Site α)
deriving BEq

namespace Status

variable {α : Type}

/-- Whether the candidate is accepted. -/
def isSatisfied : Status α → Bool
  | satisfied => true
  | _ => false

/-- The constraint that a rejection is about. -/
def site? : Status α → Option (Site α)
  | satisfied => none
  | primalInfeasible site => some site
  | complementarityViolated site => some site

/-- The verdict in words. -/
def text : Status Float → String
  | satisfied => "satisfied"
  | primalInfeasible s =>
    s!"primal infeasible at constraint #{s.index} ({s.dualKey.name}), c(x) = " ++
      Decimal.scientific 6 s.error
  | complementarityViolated s =>
    s!"complementarity violated at active constraint #{s.index} ({s.dualKey.name}), c(x) = " ++
      Decimal.scientific 6 s.error

end Status

end Kkt

end SqpInequality

import SqpInequality.Kkt.Report

/-!
# Graph/Event — what the operations on a graph announce

An event about one constraint is a detail, an event about a whole operation is a summary; a log line
carries the level of detail in front.
-/

namespace SqpInequality

/-- What an operation on a graph announces. -/
inductive Event (α : Type) where
  /-- A constraint has a first-order model, whose right-hand side may be empty. -/
  | linearized (dualKey : Key) (rhs : Option α)
  /-- All constraints have become rows. -/
  | systemBuilt (rows : Nat)
  /-- A constraint has a scalar residual. -/
  | evaluated (dualKey : Key) (error : α)
  /-- A check has rejected its candidate. -/
  | rejected (status : Kkt.Status α)
  /-- A check has accepted its candidate. -/
  | accepted (visited active : Nat)

namespace Event

/-- Whether an event is about a whole operation and not about one constraint. -/
def isSummary {α : Type} : Event α → Bool
  | .systemBuilt _ | .rejected _ | .accepted .. => true
  | .linearized .. | .evaluated .. => false

/-- The event in words. -/
def text : Event Float → String
  | .linearized dualKey rhs =>
    s!"Linearized constraint {dualKey.name}: rhs = " ++
      rhs.elim "NaN" (Decimal.scientific 6)
  | .systemBuilt rows => s!"Linearized {rows} inequality constraints"
  | .evaluated dualKey error =>
    s!"Constraint {dualKey.name}: c(x) = " ++ Decimal.scientific 6 error
  | .rejected status => "KKT check failed: " ++ status.text
  | .accepted visited active =>
    s!"KKT check satisfied: {visited} constraints, {active} active"

/-- The line of a log: the level of detail, then the event. -/
def line (e : Event Float) : String := (if e.isSummary then "DEBUG " else "TRACE ") ++ e.text

end Event

end SqpInequality

import SqpInequality.Fault
import SqpInequality.Kkt.Status
import SqpInequality.Scalar

/-!
# Kkt/Report — tolerances, and the summary of a check
-/

namespace SqpInequality

namespace Kkt

variable {α : Type}

/-- Checks that a tolerance is finite and not negative. -/
def validateTolerance [Scalar α] (tolerance : α) : Except (Fault α) Unit :=
  if Scalar.isLimit tolerance then .ok () else .error (.toleranceNotLimit tolerance)

/-- How a check is configured. -/
structure Config (α : Type) where
  /-- The absolute tolerance on residuals. -/
  tolerance : α
deriving BEq

namespace Config

/-- The tolerance that a check uses unless another one is asked for. -/
def default [Scalar α] : Config α := ⟨1e-9⟩

/-- The configuration with another tolerance, which is not checked yet. -/
def withTolerance (_ : Config α) (tolerance : α) : Config α := ⟨tolerance⟩

/-- Checks that the tolerance is finite and not negative. -/
def validate [Scalar α] (c : Config α) : Except (Fault α) Unit := validateTolerance c.tolerance

end Config

/-- The summary of a check, which ends at the first constraint that fails. -/
structure Report (α : Type) where
  /-- The verdict. -/
  status : Status α
  /-- The tolerance of the check. -/
  tolerance : α
  /-- How many constraints were evaluated. -/
  evaluated : Nat
  /-- How many of the evaluated constraints carry a multiplier. -/
  active : Nat
  /-- The largest positive residual that was seen, or zero. -/
  maxViolation : α
deriving BEq

namespace Report

/-- The report before the first constraint. -/
def initial [Zero α] (tolerance : α) : Report α := ⟨.satisfied, tolerance, 0, 0, 0⟩

/-- Whether the candidate is accepted. -/
def isSatisfied (r : Report α) : Bool := r.status.isSatisfied

/-- Counts one more evaluated constraint with its residual. -/
def count [Scalar α] (r : Report α) (error : α) : Report α :=
  { r with
    evaluated := r.evaluated + 1
    maxViolation := if r.maxViolation < error then error else r.maxViolation }

/-- Counts one more active constraint. -/
def countActive (r : Report α) : Report α := { r with active := r.active + 1 }

/-- The report in words, line by line. -/
def text (r : Report Float) : String :=
  "\n".intercalate
    [ "=== KKT Check ===",
      "Status:                " ++ r.status.text,
      "Tolerance:             " ++ Decimal.scientific 3 r.tolerance,
      "Constraints evaluated: " ++ toString r.evaluated,
      "Active constraints:    " ++ toString r.active,
      "Max violation:         " ++ Decimal.scientific 6 r.maxViolation ]

end Report

end Kkt

end SqpInequality

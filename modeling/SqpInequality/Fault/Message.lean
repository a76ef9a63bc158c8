import SqpInequality.Decimal.Text
import SqpInequality.Fault
import SqpInequality.Key.Name
import SqpInequality.Text.Quoted

/-!
# Fault/Message — refusals in words

A message is the label of the refusal's kind, a colon and the cause.
-/

namespace SqpInequality

/-- The words that open every message of a kind. -/
def ErrorKind.label : ErrorKind → String
  | .typeMismatch => "Type mismatch"
  | .missingCapability => "Missing capability"
  | .missingVariable => "Missing variable"
  | .duplicateKey => "Duplicate key"
  | .dimensionMismatch => "Dimension mismatch"
  | .invalidInput => "Invalid input"
  | .linearAlgebra => "Linear algebra error"

/-- Why a character and an index do not name a variable. -/
def NameFault.text : NameFault → String
  | .notAscii c => "symbol character " ++ Text.quoted c ++ " is not ASCII"
  | .indexTooLarge index => s!"symbol index {index} does not fit in 56 bits"

namespace Fault

/-- The cause of a refusal, in words. -/
def text : Fault Float → String
  | unfitName cause => cause.text
  | alreadyAssigned key => s!"variable {key.name} is already assigned"
  | updateUnassigned key => s!"cannot update unassigned variable {key.name}"
  | updateDimension key dimension given =>
    s!"variable {key.name} has dimension {dimension}, update has {given}"
  | notInPoint key => s!"variable {key.name} is not in the linearization point"
  | stepUnassigned key => s!"step references unassigned variable {key.name}"
  | stepDimension key dimension given =>
    s!"variable {key.name} has dimension {dimension}, step has {given}"
  | vectorAlreadyPresent key => s!"vector {key.name} is already present"
  | alreadyLaidOut key => s!"{key.name} is already in the ordering"
  | blockRows key rows expected =>
    s!"block for {key.name} has {rows} rows, right-hand side has {expected}"
  | blockRepeated key => s!"Jacobian factor already has a block for {key.name}"
  | stepMissing key => s!"step has no entry for {key.name}"
  | blockColumns key columns entries =>
    s!"block for {key.name} has {columns} columns, step has {entries} entries"
  | notSingleRow dualKey rows =>
    s!"linearization of constraint {dualKey.name} has {rows} rows, expected a single row"
  | notLaidOut dualKey key =>
    s!"constraint {dualKey.name} references {key.name} which is not in the ordering"
  | reservedColumns dualKey columns key reserved =>
    s!"constraint {dualKey.name} has {columns} columns for {key.name}, " ++
      s!"ordering reserves {reserved}"
  | matrixRefused reason => "Failed to build constraint matrix: " ++ reason
  | affineEmpty => "affine inequality needs at least one term"
  | affineRepeated key => s!"affine inequality has two terms for {key.name}"
  | coefficientLength key entries dimension =>
    s!"coefficient for {key.name} has {entries} entries, variable has {dimension}"
  | boundComponent index key dimension =>
    s!"bound on component {index} of {key.name} which has dimension {dimension}"
  | distanceNotLimit value =>
    "maximum distance must be finite and non-negative, got " ++ Decimal.plain value
  | distanceToSelf key => s!"distance constraint between {key.name} and itself"
  | pointDimensions key dimension other otherDimension =>
    s!"{key.name} has dimension {dimension}, {other.name} has dimension {otherDimension}"
  | numericalEmpty => "numerical inequality needs at least one variable"
  | numericalRepeated key => s!"numerical inequality lists {key.name} twice"
  | stepNotPositive value =>
    "finite-difference step must be positive, got " ++ Decimal.plain value
  | residualNotScalar dualKey dimension =>
    s!"constraint {dualKey.name} has a residual of dimension {dimension}, expected a scalar"
  | toleranceNotLimit value =>
    "KKT tolerance must be finite and non-negative, got " ++ Decimal.plain value
  | notAnInequality description =>
    "factor " ++ description ++ " is not an inequality constraint with a dual key"
  | user _ text => text

/-- The full message of a refusal. -/
def message (f : Fault Float) : String := f.kind.label ++ ": " ++ f.text

end Fault

namespace Failure

/-- What is reported of a failure: a refusal's message, or the text that an abandoned run left. -/
def message : Failure Float → String
  | refused fault => fault.message
  | aborted text => text

end Failure

/-- Names a symbol whose fitness is taken for granted: an unfit name abandons the run. -/
def Symbol.new (c : Char) (index : UInt64) : Except (Failure Float) Symbol :=
  (tryNew c index).mapError fun cause => .aborted (Fault.unfitName cause : Fault Float).message

end SqpInequality

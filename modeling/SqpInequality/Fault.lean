import SqpInequality.Key.Symbol

/-!
# Fault — why an operation refuses its input

A refusal is recorded as its cause, with the keys and sizes that it names.  `Fault.kind` sorts the
causes; `Fault/Message` puts them into words.
-/

namespace SqpInequality

/-- The kinds of refusal. -/
inductive ErrorKind where
  /-- A residual or a linear model is not a single row. -/
  | typeMismatch
  /-- A factor cannot do what is asked of it. -/
  | missingCapability
  /-- A variable has no value, or no column. -/
  | missingVariable
  /-- A key occurs twice. -/
  | duplicateKey
  /-- Sizes do not agree. -/
  | dimensionMismatch
  /-- A parameter is out of its range. -/
  | invalidInput
  /-- A matrix cannot be built. -/
  | linearAlgebra
deriving DecidableEq, Repr

/-- Whether the shape or the capabilities of a constraint are to blame. -/
def ErrorKind.isStructural : ErrorKind → Bool
  | .typeMismatch | .missingCapability => true
  | _ => false

/-- A refusal, as its cause.  Numbers out of range are kept as scalars. -/
inductive Fault (α : Type) where
  /-- A character and an index do not name a variable. -/
  | unfitName (cause : NameFault)
  /-- A variable is inserted a second time. -/
  | alreadyAssigned (key : Key)
  /-- An update names a variable without a value. -/
  | updateUnassigned (key : Key)
  /-- An update has another length than the variable. -/
  | updateDimension (key : Key) (dimension given : Nat)
  /-- A point has no value for a variable. -/
  | notInPoint (key : Key)
  /-- A step names a variable without a value. -/
  | stepUnassigned (key : Key)
  /-- A step has another length than the variable. -/
  | stepDimension (key : Key) (dimension given : Nat)
  /-- A vector is inserted a second time. -/
  | vectorAlreadyPresent (key : Key)
  /-- A column layout lists a key already. -/
  | alreadyLaidOut (key : Key)
  /-- A block has another number of rows than the right-hand side. -/
  | blockRows (key : Key) (rows expected : Nat)
  /-- A linear model has two blocks for one key. -/
  | blockRepeated (key : Key)
  /-- A step has no entry for a block's key. -/
  | stepMissing (key : Key)
  /-- A step has another length than a block has columns. -/
  | blockColumns (key : Key) (columns entries : Nat)
  /-- A linear model that should be a single row is not. -/
  | notSingleRow (dualKey : Key) (rows : Nat)
  /-- A row mentions a key without columns. -/
  | notLaidOut (dualKey key : Key)
  /-- A block has another number of columns than the layout reserves. -/
  | reservedColumns (dualKey : Key) (columns : Nat) (key : Key) (reserved : Nat)
  /-- The stacked matrix could not be assembled, for a reason in words. -/
  | matrixRefused (reason : String)
  /-- An affine inequality has no term. -/
  | affineEmpty
  /-- An affine inequality has two terms for one key. -/
  | affineRepeated (key : Key)
  /-- A coefficient vector has another length than its variable. -/
  | coefficientLength (key : Key) (entries dimension : Nat)
  /-- A bound is on a component that its variable does not have. -/
  | boundComponent (index : Nat) (key : Key) (dimension : Nat)
  /-- A maximum distance is negative or not finite. -/
  | distanceNotLimit (value : α)
  /-- A distance is between a variable and itself. -/
  | distanceToSelf (key : Key)
  /-- Two points of a distance differ in dimension. -/
  | pointDimensions (key : Key) (dimension : Nat) (other : Key) (otherDimension : Nat)
  /-- A numerical inequality has no variable. -/
  | numericalEmpty
  /-- A numerical inequality lists one key twice. -/
  | numericalRepeated (key : Key)
  /-- A difference step is not positive and finite. -/
  | stepNotPositive (value : α)
  /-- A residual that should be a scalar is not. -/
  | residualNotScalar (dualKey : Key) (dimension : Nat)
  /-- A tolerance is negative or not finite. -/
  | toleranceNotLimit (value : α)
  /-- A factor has no dual key. -/
  | notAnInequality (description : String)
  /-- A user's own refusal. -/
  | user (kind : ErrorKind) (text : String)

namespace Fault

variable {α : Type}

/-- The kind that a refusal belongs to. -/
def kind : Fault α → ErrorKind
  | unfitName .. | affineEmpty | distanceNotLimit .. | numericalEmpty | stepNotPositive ..
  | toleranceNotLimit .. => .invalidInput
  | alreadyAssigned .. | vectorAlreadyPresent .. | alreadyLaidOut .. | blockRepeated ..
  | affineRepeated .. | distanceToSelf .. | numericalRepeated .. => .duplicateKey
  | updateUnassigned .. | notInPoint .. | stepUnassigned .. | stepMissing ..
  | notLaidOut .. => .missingVariable
  | updateDimension .. | stepDimension .. | blockRows .. | blockColumns .. | reservedColumns ..
  | coefficientLength .. | boundComponent .. | pointDimensions .. => .dimensionMismatch
  | notSingleRow .. | residualNotScalar .. => .typeMismatch
  | notAnInequality .. => .missingCapability
  | matrixRefused .. => .linearAlgebra
  | user kind _ => kind

end Fault

/-- Why an evaluation ends without a value: it was refused, or a user's constraint gave up. -/
inductive Failure (α : Type) where
  /-- A refusal, which the caller may handle. -/
  | refused (fault : Fault α)
  /-- The evaluation was abandoned with a text, and nothing runs after it. -/
  | aborted (text : String)

end SqpInequality

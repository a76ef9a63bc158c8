import SqpInequality.Linear.Layout
import SqpInequality.Linear.Sparse
import SqpInequality.Linear.System

/-!
# Linear/Stacked — all inequalities as one sparse system

Row `i` of the stacked system is inequality `i`, its columns are those of a layout.  Zero
coefficients, of either sign, are not stored; a coefficient that is no number is.
-/

namespace SqpInequality

/-- A system `matrix * d ≤ rhs`. -/
structure StackedSystem (α : Type) where
  /-- The coefficients. -/
  matrix : SparseMatrix α
  /-- The right-hand sides. -/
  rhs : Vec α

namespace LinearSystem

variable {α : Type} [Scalar α]

/-- The triplets of a row of coefficients that starts at the given column. -/
def coefficientTriplets (row offset : Nat) (coefficients : Vec α) : List (Triplet α) :=
  (coefficients.zipIdx offset).filterMap fun e =>
    if e.1 == 0 then none else some ⟨row, e.2, e.1⟩

/-- The triplets of one term of an inequality.  Its key has to be laid out, with as many columns as
its block has. -/
def termTriplets (layout : ColumnLayout) (row : Nat) (dualKey : Key) (term : Key × Block α) :
    Except (Fault α) (List (Triplet α)) :=
  match layout.column? term.1 with
  | none => .error (.notLaidOut dualKey term.1)
  | some (offset, dimension) =>
    if term.2.columnCount = dimension then
      .ok (coefficientTriplets row offset (term.2.rows.headD []))
    else .error (.reservedColumns dualKey term.2.columnCount term.1 dimension)

/-- The triplets of one inequality, term by term. -/
def rowTriplets (layout : ColumnLayout) (r : LinearRow α) (row : Nat) :
    Except (Fault α) (List (Triplet α)) :=
  (r.model.terms.mapM (termTriplets layout row r.dualKey)).map List.flatten

/-- The triplets of all inequalities, row by row, or the first refusal. -/
def triplets (s : LinearSystem α) (layout : ColumnLayout) :
    Except (Fault α) (List (Triplet α)) :=
  (s.rows.zipIdx.mapM fun e => rowTriplets layout e.1 e.2).map List.flatten

/-- All inequalities over the columns of a layout, in a matrix that is assembled from their triplets
in the given way.  Where no matrix is assembled, the system is refused for that reason, in words. -/
def stackWith {ε : Type} [ToString ε]
    (assemble : Nat → Nat → List (Triplet α) → Except ε (SparseMatrix α))
    (s : LinearSystem α) (layout : ColumnLayout) : Except (Fault α) (StackedSystem α) :=
  (s.triplets layout).bind fun ts =>
    ((assemble s.size layout.total ts).mapError fun e => .matrixRefused (toString e)).map
      fun matrix => ⟨matrix, s.rhs⟩

/-- All inequalities over the columns of a layout. -/
def stack (s : LinearSystem α) (layout : ColumnLayout) : Except (Fault α) (StackedSystem α) :=
  s.stackWith SparseMatrix.ofTriplets layout

end LinearSystem

end SqpInequality

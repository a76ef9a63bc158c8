import SqpInequality.Scalar

/-!
# Linear/Sparse — matrices of few entries

A sparse matrix is assembled from triplets in any order; triplets at one position are summed.  Its
entries are stored column by column, from the top down.
-/

namespace SqpInequality

/-- A value at a position of a matrix. -/
structure Triplet (α : Type) where
  /-- The row, counted from zero. -/
  row : Nat
  /-- The column, counted from zero. -/
  column : Nat
  /-- The value. -/
  value : α
deriving DecidableEq, Repr

/-- Why a matrix is too large to be stored. -/
inductive SizeRefusal where
  /-- A column number would not fit an index. -/
  | indexOverflow
  /-- The column pointers would not fit in memory. -/
  | outOfMemory
deriving DecidableEq, Repr

/-- Why a matrix is not stored, in words. -/
instance : ToString SizeRefusal where
  toString
    | .indexOverflow => "Generic(IndexOverflow)"
    | .outOfMemory => "Generic(OutOfMemory)"

/-- A matrix given by the entries that are stored. -/
structure SparseMatrix (α : Type) where
  /-- How many rows the matrix has. -/
  rowCount : Nat
  /-- How many columns the matrix has. -/
  columnCount : Nat
  /-- The stored entries, column by column and from the top down. -/
  entries : List (Triplet α)

namespace Triplet

variable {α : Type}

/-- Whether a triplet comes no later than another, column by column and from the top down. -/
def le (s t : Triplet α) : Bool :=
  decide (s.column < t.column) || (s.column == t.column && decide (s.row ≤ t.row))

/-- Whether two triplets are at one position. -/
def meets (s t : Triplet α) : Bool := s.column == t.column && s.row == t.row

/-- Sums neighbours at one position. -/
def merge [Add α] : List (Triplet α) → List (Triplet α)
  | [] => []
  | t :: rest =>
    match merge rest with
    | [] => [t]
    | u :: us => if t.meets u then ⟨t.row, t.column, t.value + u.value⟩ :: us else t :: u :: us

end Triplet

namespace SparseMatrix

variable {α : Type}

/-- From this many columns on, 60 bits and more, the column starts do not fit in memory. -/
def memoryLimit : Nat := 0x1000000000000000

/-- From this many columns on, 63 bits and more, a column number does not fit an index. -/
def indexLimit : Nat := 0x8000000000000000

/-- Why a matrix of so many columns is not stored, if it is not. -/
def refusal? (columnCount : Nat) : Option SizeRefusal :=
  if indexLimit ≤ columnCount then some .indexOverflow
  else if memoryLimit ≤ columnCount then some .outOfMemory
  else none

/-- Assembles a matrix; triplets at one position are summed. -/
def ofTriplets [Add α] (rowCount columnCount : Nat) (triplets : List (Triplet α)) :
    Except SizeRefusal (SparseMatrix α) :=
  match refusal? columnCount with
  | some reason => .error reason
  | none => .ok ⟨rowCount, columnCount, Triplet.merge (triplets.mergeSort Triplet.le)⟩

/-- Where the entries of each column start, and behind them where the last column ends. -/
def columnStarts (m : SparseMatrix α) : Array Nat :=
  let counts := m.entries.foldl (fun counts t => counts.modify t.column (· + 1))
    (Array.replicate m.columnCount 0)
  counts.foldl (fun starts count => starts.push (starts.back?.getD 0 + count)) #[0]

/-- The entry at a position: the sum of what is stored there. -/
def entry [Scalar α] (m : SparseMatrix α) (i j : Nat) : α :=
  ((m.entries.filter fun t => t.row == i && t.column == j).map Triplet.value).foldl (· + ·) 0

end SparseMatrix

end SqpInequality

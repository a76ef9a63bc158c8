import SqpInequality.Vec

/-!
# Linear/Block — dense blocks of coefficients
-/

namespace SqpInequality

/-- A dense matrix, row by row. -/
structure Block (α : Type) where
  /-- How many columns every row has. -/
  columnCount : Nat
  /-- The rows. -/
  rows : List (Vec α)
  /-- The rows are equally long. -/
  uniform : ∀ r ∈ rows, r.length = columnCount

namespace Block

variable {α : Type}

/-- Blocks are compared by shape and entry by entry. -/
instance [BEq α] : BEq (Block α) := ⟨fun a b => a.columnCount == b.columnCount && a.rows == b.rows⟩

/-- How many rows a block has. -/
def rowCount (b : Block α) : Nat := b.rows.length

/-- The block of one row. -/
def ofRow (row : Vec α) : Block α where
  columnCount := row.length
  rows := [row]
  uniform := fun _ hr => List.eq_of_mem_singleton hr ▸ rfl

/-- Splits a list into consecutive pieces of one length. -/
def pieces (length : Nat) : Nat → List α → List (Vec α)
  | 0, _ => []
  | count + 1, entries => entries.take length :: pieces length count (entries.drop length)

/-- The block with the given entries, row by row, if their number is right. -/
def ofEntries? (rows columns : Nat) (entries : List α) : Option (Block α) :=
  let split := pieces columns rows entries
  if h : entries.length = rows * columns ∧ ∀ r ∈ split, r.length = columns then
    some ⟨columns, split, h.2⟩
  else none

/-- The entries, row by row. -/
def entries (b : Block α) : List α := b.rows.flatten

/-- The product with a vector. -/
def apply [Scalar α] (b : Block α) (v : Vec α) : Vec α := b.rows.map fun row => Vec.weighted row v

@[simp] theorem rowCount_ofRow (row : Vec α) : (ofRow row).rowCount = 1 := rfl

@[simp] theorem columnCount_ofRow (row : Vec α) : (ofRow row).columnCount = row.length := rfl

@[simp] theorem length_apply [Scalar α] (b : Block α) (v : Vec α) :
    (b.apply v).length = b.rowCount := List.length_map _

end Block

end SqpInequality

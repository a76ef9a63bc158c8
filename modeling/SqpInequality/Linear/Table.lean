import SqpInequality.Point

/-!
# Linear/Table — which columns belong to which variable, kept in a table

A table has the keys in column order, the columns of each key, and the number of all columns, each
in a field of its own.  `append` writes all three and checks nothing; `push` checks first.
-/

namespace SqpInequality

/-- Variables with their columns. -/
structure ColumnTable where
  /-- The keys, in column order. -/
  keys : List Key
  /-- The first column of each key and the number of its columns. -/
  columns : KeyMap (Nat × Nat)
  /-- How many columns there are. -/
  total : Nat
deriving BEq

namespace ColumnTable

/-- The table without columns. -/
def empty : ColumnTable := ⟨[], KeyMap.empty, 0⟩

/-- The first column of a key and the number of its columns, if it is listed. -/
def column? (t : ColumnTable) (k : Key) : Option (Nat × Nat) := t.columns.get? k

/-- How many keys are listed. -/
def size (t : ColumnTable) : Nat := t.keys.length

/-- Writes a key with its columns behind all others, listed before or not. -/
def append (k : Key) (dimension : Nat) : StateM ColumnTable Unit := do
  modify fun t => { t with columns := t.columns.insert k (t.total, dimension) }
  modify fun t => { t with keys := t.keys ++ [k] }
  modify fun t => { t with total := t.total + dimension }

/-- Lists a new key with its columns behind all others. -/
def push {α : Type} (k : Key) (dimension : Nat) : InPlace α ColumnTable Unit := do
  if (← get).columns.contains k then throw (.alreadyLaidOut k)
  append k dimension

/-- Writes a variable of a point with as many columns as it has components. -/
def appendVariable {α : Type} (p : Point α) (k : Key) : StateM ColumnTable Unit :=
  match p.get? k with
  | some v => append k v.length
  | none => pure ()

/-- The table of all variables of a point, which are written in ascending key order, unchecked. -/
def ofPoint {α : Type} (p : Point α) : ColumnTable :=
  ((p.keys.forM (appendVariable p)).run empty).2

end ColumnTable

end SqpInequality

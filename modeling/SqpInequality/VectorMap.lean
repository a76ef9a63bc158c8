import SqpInequality.InPlace
import SqpInequality.Key.Map
import SqpInequality.Vec

/-!
# VectorMap — a vector for each of some keys

A vector map is a step of an iteration, or the multipliers of the active constraints.  For
multipliers the presence of a key is the message: `status` reads it.
-/

namespace SqpInequality

/-- A vector for each of some keys. -/
structure VectorMap (α : Type) where
  /-- The vectors under their keys. -/
  vectors : KeyMap (Vec α)
deriving BEq

/-- Whether a constraint carries a multiplier.  A multiplier of zero is still carried. -/
inductive DualStatus (α : Type) where
  /-- The constraint carries this multiplier. -/
  | active (multiplier : Vec α)
  /-- The constraint carries none. -/
  | inactive

/-- Whether a multiplier is carried. -/
def DualStatus.isActive {α : Type} : DualStatus α → Bool
  | active _ => true
  | inactive => false

namespace VectorMap

variable {α : Type}

/-- The map without vectors. -/
def empty : VectorMap α := ⟨KeyMap.empty⟩

/-- The map of a list of entries; of two entries with one key the later counts. -/
def ofList (entries : List (Key × Vec α)) : VectorMap α := ⟨KeyMap.ofList entries⟩

/-- The vector under a key, if there is one. -/
def get? (d : VectorMap α) (k : Key) : Option (Vec α) := d.vectors.get? k

/-- Whether a key has a vector. -/
def contains (d : VectorMap α) (k : Key) : Bool := d.vectors.contains k

/-- How many keys have a vector. -/
def size (d : VectorMap α) : Nat := d.vectors.size

/-- The keys with their vectors, in ascending key order. -/
def entries (d : VectorMap α) : List (Key × Vec α) := d.vectors.entries

/-- Puts a vector under a key, in place of the one that was there. -/
def assign (d : VectorMap α) (k : Key) (v : Vec α) : VectorMap α := ⟨d.vectors.insert k v⟩

/-- Puts a vector under a new key. -/
def insert (d : VectorMap α) (k : Key) (v : Vec α) : Except (Fault α) (VectorMap α) :=
  if d.contains k then .error (.vectorAlreadyPresent k) else .ok (d.assign k v)

/-- Removes a key; gives back the vector that was there and the map without it. -/
def remove (d : VectorMap α) (k : Key) : Option (Vec α) × VectorMap α :=
  (d.get? k, ⟨d.vectors.erase k⟩)

/-! ## In place -/

/-- Puts a vector under a key, in place. -/
def assignInPlace (k : Key) (v : Vec α) : InPlace α (VectorMap α) Unit :=
  modify fun d => ⟨d.vectors.insert k v⟩

@[simp] theorem on_assignInPlace (d : VectorMap α) (k : Key) (v : Vec α) :
    (assignInPlace k v).on d = (.ok (), d.assign k v) := rfl

/-- Puts a vector under a new key, in place. -/
def insertInPlace (k : Key) (v : Vec α) : InPlace α (VectorMap α) Unit := do
  if (← get).contains k then throw (.vectorAlreadyPresent k)
  modify fun d => ⟨d.vectors.insert k v⟩

theorem does_insertInPlace (k : Key) (v : Vec α) :
    (insertInPlace k v).Does fun d => d.insert k v :=
  InPlace.does_unless (fun d : VectorMap α => d.contains k) (.vectorAlreadyPresent k)
    fun d => ⟨d.vectors.insert k v⟩

/-- Removes a key, in place, and gives back the vector that was there. -/
def removeInPlace (k : Key) : InPlace α (VectorMap α) (Option (Vec α)) := do
  let d ← get
  set (⟨d.vectors.erase k⟩ : VectorMap α)
  pure (d.get? k)

@[simp] theorem on_removeInPlace (d : VectorMap α) (k : Key) :
    (removeInPlace k).on d = (.ok (d.remove k).1, (d.remove k).2) := rfl

/-! ## Presence -/

/-- Whether the constraint that owns a dual key carries a multiplier. -/
def status (d : VectorMap α) (dualKey : Key) : DualStatus α :=
  match d.get? dualKey with
  | some multiplier => .active multiplier
  | none => .inactive

/-- **A constraint is active exactly when its dual key is present.** -/
theorem isActive_status (d : VectorMap α) (k : Key) : (d.status k).isActive = d.contains k := by
  rw [status, contains, KeyMap.contains, get?]
  cases d.vectors.get? k <;> rfl

end VectorMap

end SqpInequality

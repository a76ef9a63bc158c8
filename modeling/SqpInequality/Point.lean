import SqpInequality.InPlace
import SqpInequality.VectorMap

/-!
# Point — the values of the primal variables

A point gives a vector to each assigned variable.  `insert` assigns, `update` replaces, `retract`
moves along a step; none of them unassigns a variable or changes its dimension.  Each of them is
also an operation in place.
-/

namespace SqpInequality

/-- A vector for each assigned variable. -/
structure Point (α : Type) where
  /-- The vectors under the variables' keys. -/
  values : KeyMap (Vec α)
deriving BEq

namespace Point

variable {α : Type}

/-- The point without variables. -/
def empty : Point α := ⟨KeyMap.empty⟩

/-- The vector of a variable, if it is assigned. -/
def get? (p : Point α) (k : Key) : Option (Vec α) := p.values.get? k

/-- Whether a variable is assigned. -/
def contains (p : Point α) (k : Key) : Bool := p.values.contains k

/-- How many variables are assigned. -/
def size (p : Point α) : Nat := p.values.size

/-- The assigned variables, in ascending key order. -/
def keys (p : Point α) : List Key := p.values.keys

/-- The variables with their vectors, in ascending key order. -/
def entries (p : Point α) : List (Key × Vec α) := p.values.entries

/-- The vector of a variable, which has to be assigned. -/
def value (p : Point α) (k : Key) : Except (Fault α) (Vec α) :=
  match p.get? k with
  | some v => .ok v
  | none => .error (.notInPoint k)

/-- The vectors of some variables, in their order; the first unassigned one is refused. -/
def gather (p : Point α) (ks : List Key) : Except (Fault α) (List (Vec α)) := ks.mapM p.value

/-- Assigns a new variable. -/
def insert (p : Point α) (k : Key) (v : Vec α) : Except (Fault α) (Point α) :=
  if p.contains k then .error (.alreadyAssigned k) else .ok ⟨p.values.insert k v⟩

/-- Replaces the vector of a variable by one of the same length. -/
def update (p : Point α) (k : Key) (v : Vec α) : Except (Fault α) (Point α) :=
  match p.get? k with
  | none => .error (.updateUnassigned k)
  | some old =>
    if old.length = v.length then .ok ⟨p.values.insert k v⟩
    else .error (.updateDimension k old.length v.length)

/-- Assigns a new variable, in place. -/
def insertInPlace (k : Key) (v : Vec α) : InPlace α (Point α) Unit := do
  if (← get).contains k then throw (.alreadyAssigned k)
  modify fun p => ⟨p.values.insert k v⟩

theorem does_insertInPlace (k : Key) (v : Vec α) :
    (insertInPlace k v).Does fun p => p.insert k v :=
  InPlace.does_unless (fun p : Point α => p.contains k) (.alreadyAssigned k)
    fun p => ⟨p.values.insert k v⟩

/-- Replaces the vector of a variable by one of the same length, in place. -/
def updateInPlace (k : Key) (v : Vec α) : InPlace α (Point α) Unit := do
  match (← get).get? k with
  | none => throw (.updateUnassigned k)
  | some old =>
    if old.length ≠ v.length then throw (.updateDimension k old.length v.length)
    modify fun p => ⟨p.values.insert k v⟩

theorem does_updateInPlace (k : Key) (v : Vec α) :
    (updateInPlace k v).Does fun p => p.update k v := by
  intro p
  simp only [update, updateInPlace, InPlace.on_bind, InPlace.on_get]
  cases p.get? k with
  | none => rfl
  | some old =>
    by_cases h : old.length = v.length
    · simp only [h, ne_eq, not_true_eq_false, if_false, if_true, InPlace.on_modify]
    · simp only [h, ne_eq, not_false_eq_true, if_false, if_true]
      rfl

/-! ## Moving along a step -/

variable [Scalar α]

/-- Adds a vector of the same length to a variable. -/
def shift (p : Point α) (k : Key) (s : Vec α) : Except (Fault α) (Point α) :=
  match p.get? k with
  | none => .error (.stepUnassigned k)
  | some x =>
    if x.length = s.length then .ok ⟨p.values.insert k (Vec.add x s)⟩
    else .error (.stepDimension k x.length s.length)

/-- Shifts one variable after the other. -/
def shiftAll (p : Point α) : List (Key × Vec α) → Except (Fault α) (Point α)
  | [] => .ok p
  | e :: rest => (p.shift e.1 e.2).bind fun q => q.shiftAll rest

/-- Moves along a step: each variable of the step is shifted, the others stay. -/
def retract (p : Point α) (step : VectorMap α) : Except (Fault α) (Point α) :=
  p.shiftAll step.entries

/-- Moves along a step, in place: the point that is reached takes the place of the old one. -/
def retractInPlace (step : VectorMap α) : InPlace α (Point α) Unit := do
  let p ← get
  let q ← p.retract step
  set q

theorem does_retractInPlace (step : VectorMap α) :
    (retractInPlace step).Does fun p => p.retract step := by
  intro p
  simp only [retractInPlace, InPlace.on_bind, InPlace.on_get]
  cases p.retract step with
  | ok q => rfl
  | error fault => rfl

end Point

end SqpInequality

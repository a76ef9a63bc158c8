import SqpInequality.Point

/-!
# Linear/Layout — which columns belong to which variable

A layout lists variables with the number of columns each one owns; a variable's columns follow
those of the variables before it.
-/

namespace SqpInequality

/-- Variables and their numbers of columns, from the first column on. -/
structure ColumnLayout where
  /-- The keys with their numbers of columns. -/
  slots : List (Key × Nat)
  /-- No key is listed twice. -/
  distinct : (slots.map Prod.fst).Nodup

namespace ColumnLayout

/-- Layouts are compared slot by slot. -/
instance : BEq ColumnLayout := ⟨fun a b => a.slots == b.slots⟩

/-- The layout without columns. -/
def empty : ColumnLayout := ⟨[], List.nodup_nil⟩

/-- The keys, in column order. -/
def keys (l : ColumnLayout) : List Key := l.slots.map Prod.fst

/-- How many keys are listed. -/
def size (l : ColumnLayout) : Nat := l.slots.length

/-- How many columns there are. -/
def total (l : ColumnLayout) : Nat := l.slots.foldr (fun s columns => s.2 + columns) 0

/-- Finds a key among slots of which the first starts at the given column. -/
def locate? (k : Key) : Nat → List (Key × Nat) → Option (Nat × Nat)
  | _, [] => none
  | offset, (j, dimension) :: rest =>
    if j = k then some (offset, dimension) else locate? k (offset + dimension) rest

/-- The first column of a key and the number of its columns, if it is listed. -/
def column? (l : ColumnLayout) (k : Key) : Option (Nat × Nat) := locate? k 0 l.slots

theorem nodup_push {slots : List (Key × Nat)} {k : Key} (d : Nat)
    (hs : (slots.map Prod.fst).Nodup) (hk : k ∉ slots.map Prod.fst) :
    ((slots ++ [(k, d)]).map Prod.fst).Nodup := by
  rw [List.map_append, List.nodup_append]
  refine ⟨hs, List.pairwise_singleton _ _, fun a ha b hb => ?_⟩
  obtain rfl : b = k := List.mem_singleton.mp hb
  exact fun hab => hk (hab ▸ ha)

/-- Lists a new key with its columns behind all others. -/
def push {α : Type} (l : ColumnLayout) (k : Key) (dimension : Nat) :
    Except (Fault α) ColumnLayout :=
  if h : k ∈ l.slots.map Prod.fst then .error (.alreadyLaidOut k)
  else .ok ⟨l.slots ++ [(k, dimension)], nodup_push dimension l.distinct h⟩

/-- The layout of all variables of a point, in ascending key order. -/
def ofPoint {α : Type} (p : Point α) : ColumnLayout where
  slots := p.entries.map fun e => (e.1, e.2.length)
  distinct := by
    rw [List.map_map]
    exact List.pairwise_map.mpr (p.values.ascending.imp fun h => UInt64.ne_of_lt h)

end ColumnLayout

end SqpInequality

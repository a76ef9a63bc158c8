import SqpInequality.VectorMap

/-!
# Proofs/VectorMap/Writes — which keys are present after some writes

A key is present if the last write that concerns it has put a vector there.  No write reads a
vector, so which keys are present after a run of writes is known from the writes without their
vectors (`VectorMap.contains_ofWrites`).
-/

namespace SqpInequality

/-! ## One operation on a map -/

namespace KeyMap

variable {β : Type}

theorem contains_insert (m : KeyMap β) (k : Key) (v : β) (j : Key) :
    (m.insert k v).contains j = (j == k || m.contains j) := by
  rw [contains, contains, get?_insert]
  by_cases h : j = k
  · rw [if_pos h, beq_iff_eq.mpr h]
    rfl
  · rw [if_neg h, beq_eq_false_iff_ne.mpr h, Bool.false_or]

theorem contains_erase (m : KeyMap β) (k j : Key) :
    (m.erase k).contains j = (j != k && m.contains j) := by
  rw [contains, contains, get?_erase]
  by_cases h : j = k
  · rw [if_pos h, h, bne_self_eq_false]
    rfl
  · rw [if_neg h, bne_iff_ne.mpr h, Bool.true_and]

theorem contains_foldl_insert (j : Key) : ∀ (es : List (Key × β)) (m : KeyMap β),
    (es.foldl (fun m e => m.insert e.1 e.2) m).contains j
      = (es.any (fun e => j == e.1) || m.contains j)
  | [], _ => rfl
  | e :: es, m => by
    rw [List.foldl_cons, contains_foldl_insert j es, contains_insert, List.any_cons,
      Bool.or_left_comm, Bool.or_assoc]

theorem contains_ofList (es : List (Key × β)) (j : Key) :
    (ofList es).contains j = es.any fun e => j == e.1 := by
  rw [ofList, contains_foldl_insert]
  exact Bool.or_false _

end KeyMap

/-! ## Runs of writes -/

namespace VectorMap

variable {α : Type}

/-- A write to a vector map. -/
inductive Write (α : Type) where
  /-- Put a vector under a new key. -/
  | insert (k : Key) (v : Vec α)
  /-- Put a vector under a key, new or not. -/
  | assign (k : Key) (v : Vec α)
  /-- Remove a key. -/
  | remove (k : Key)
  /-- Start over from a list of entries. -/
  | collect (entries : List (Key × Vec α))

/-- A write as it is carried out in place. -/
def Write.inPlace : Write α → InPlace α (VectorMap α) Unit
  | insert k v => insertInPlace k v
  | assign k v => assignInPlace k v
  | remove k => discard (removeInPlace k)
  | collect entries => set (ofList entries)

/-- The map that a write leaves, refused or not. -/
def written (d : VectorMap α) (w : Write α) : VectorMap α := (w.inPlace.on d).2

/-- The map that writes lead to from the one without vectors. -/
def ofWrites (writes : List (Write α)) : VectorMap α := writes.foldl written empty

/-- Whether a key is present after a write, from whether it was there before.  The vector that is
written has no part in it. -/
def Write.leaves (j : Key) (present : Bool) : Write α → Bool
  | .insert k _ => j == k || present
  | .assign k _ => j == k || present
  | .remove k => j != k && present
  | .collect entries => entries.any fun e => j == e.1

/-- Whether some writes leave a key present. -/
def leave (writes : List (Write α)) (j : Key) : Bool := writes.foldl (Write.leaves j) false

theorem contains_assign (d : VectorMap α) (k : Key) (v : Vec α) (j : Key) :
    (d.assign k v).contains j = (j == k || d.contains j) := KeyMap.contains_insert _ _ _ _

theorem contains_written (d : VectorMap α) (w : Write α) (j : Key) :
    (d.written w).contains j = w.leaves j (d.contains j) := by
  cases w with
  | insert k v =>
    rw [written, Write.inPlace, Write.leaves]
    by_cases hk : d.contains k = true
    · have hrefused : d.insert k v = .error (.vectorAlreadyPresent k) := if_pos hk
      rw [(does_insertInPlace k v).on_of_error hrefused]
      by_cases hjk : j = k
      · rw [beq_iff_eq.mpr hjk, hjk]
        exact hk
      · rw [beq_eq_false_iff_ne.mpr hjk]
        rfl
    · have haccepted : d.insert k v = .ok (d.assign k v) := if_neg hk
      rw [(does_insertInPlace k v).on_of_ok haccepted]
      exact contains_assign d k v j
  | assign k v => exact contains_assign d k v j
  | remove k => exact KeyMap.contains_erase _ _ _
  | collect entries => exact KeyMap.contains_ofList _ _

theorem contains_foldl_written (j : Key) : ∀ (writes : List (Write α)) (d : VectorMap α),
    (writes.foldl written d).contains j = writes.foldl (Write.leaves j) (d.contains j)
  | [], _ => rfl
  | w :: writes, d => by
    rw [List.foldl_cons, List.foldl_cons, contains_foldl_written j writes, contains_written]

/-- **The keys of a map are known from its writes without their vectors.** -/
theorem contains_ofWrites (writes : List (Write α)) (j : Key) :
    (ofWrites writes).contains j = leave writes j := contains_foldl_written j writes empty

end VectorMap

end SqpInequality

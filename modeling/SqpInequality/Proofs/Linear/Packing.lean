import SqpInequality.Proofs.Linear.Evaluation
import SqpInequality.Proofs.Linear.Columns

/-!
# Proofs/Linear/Packing — a step as one vector over the columns of a layout

A step that has for each key of a layout a vector of its dimension is packed by laying those vectors
one behind the other (`ColumnLayout.packs_pack`).
-/

namespace SqpInequality

namespace ColumnLayout

variable {α : Type}

/-- **A step supplies a layout**: it has for each listed key a vector with a component for each
column. -/
def SuppliedBy (l : ColumnLayout) (step : VectorMap α) : Prop :=
  ∀ s ∈ l.slots, (step.get? s.1).map List.length = some s.2

instance (l : ColumnLayout) (step : VectorMap α) : Decidable (l.SuppliedBy step) :=
  inferInstanceAs (Decidable (∀ s ∈ l.slots, (step.get? s.1).map List.length = some s.2))

/-- **A vector packs a step**: it has a component for each column, and in the columns of a key those
of the step's vector under it. -/
structure Packs (l : ColumnLayout) (step : VectorMap α) (x : Vec α) : Prop where
  /-- There is a component for each column. -/
  length_eq : x.length = l.total
  /-- The columns of a key hold the step's vector under it. -/
  getElem?_eq : ∀ k o d c, l.column? k = some (o, d) → c < d → x[o + c]? = (step.vector k)[c]?

/-- The vectors of a step under the listed keys, one behind the other. -/
def pack (l : ColumnLayout) (step : VectorMap α) : Vec α :=
  l.slots.flatMap fun s => step.vector s.1

theorem get?_of_suppliedBy {l : ColumnLayout} {step : VectorMap α} (h : l.SuppliedBy step)
    {k : Key} {d : Nat} (hk : l.dimension? k = some d) :
    ∃ v, step.get? k = some v ∧ v.length = d := by
  obtain ⟨o, ho⟩ := dimension?_eq_some_iff.mp hk
  obtain ⟨v, hv, hlength⟩ := Option.map_eq_some_iff.mp (h (k, d) (locate?_bounds ho).1)
  exact ⟨v, hv, hlength⟩

theorem length_vector_of_mem {l : ColumnLayout} {step : VectorMap α} (h : l.SuppliedBy step)
    {s : Key × Nat} (hs : s ∈ l.slots) : (step.vector s.1).length = s.2 := by
  obtain ⟨v, hv, hlength⟩ := Option.map_eq_some_iff.mp (h s hs)
  rw [VectorMap.vector_eq hv, hlength]

theorem length_flatMap_vector {step : VectorMap α} : ∀ {slots : List (Key × Nat)}
    (_ : ∀ s ∈ slots, (step.vector s.1).length = s.2),
    (slots.flatMap fun s => step.vector s.1).length = columns slots
  | [], _ => rfl
  | s :: rest, h => by
    obtain ⟨hs, hrest⟩ := List.forall_mem_cons.mp h
    rw [List.flatMap_cons, List.length_append, hs, length_flatMap_vector hrest, columns_cons]

/-- The vectors of slots that start at a column are found from that column on. -/
theorem getElem?_flatMap_vector {step : VectorMap α} {k : Key} {o d c : Nat} (hc : c < d) :
    ∀ {slots : List (Key × Nat)} {start : Nat}
      (_ : ∀ s ∈ slots, (step.vector s.1).length = s.2) (_ : locate? k start slots = some (o, d)),
      (slots.flatMap fun s => step.vector s.1)[o - start + c]? = (step.vector k)[c]?
  | (j, e) :: rest, start, h, hk => by
    obtain ⟨hj, hrest⟩ := List.forall_mem_cons.mp h
    change (step.vector j).length = e at hj
    rw [List.flatMap_cons]
    by_cases hjk : j = k
    · subst hjk
      rw [locate?_cons_self] at hk
      cases hk
      rw [Nat.sub_self, Nat.zero_add]
      exact List.getElem?_append_left (Nat.lt_of_lt_of_eq hc hj.symm)
    · rw [locate?_cons_ne hjk] at hk
      have hstart := (locate?_bounds hk).2.1
      have hbehind : (step.vector j).length ≤ o - start + c := by omega
      have hindex : o - start + c - (step.vector j).length = o - (start + e) + c := by omega
      refine (List.getElem?_append_right hbehind).trans ?_
      rw [hindex]
      exact getElem?_flatMap_vector hc hrest hk

/-- **A step that supplies a layout is packed by its vectors, one behind the other.** -/
theorem packs_pack {l : ColumnLayout} {step : VectorMap α} (h : l.SuppliedBy step) :
    l.Packs step (l.pack step) := by
  refine ⟨length_flatMap_vector fun s hs => length_vector_of_mem h hs, fun k o d c hk hc => ?_⟩
  exact getElem?_flatMap_vector hc (fun s hs => length_vector_of_mem h hs) hk

end ColumnLayout

end SqpInequality

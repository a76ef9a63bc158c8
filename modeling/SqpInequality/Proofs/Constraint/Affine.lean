import SqpInequality.Proofs.Exact
import SqpInequality.Constraint.Affine
import SqpInequality.Proofs.Outcome
import SqpInequality.Proofs.Point.Retract

/-!
# Proofs/Constraint/Affine — the value of an affine inequality

An affine inequality has a value at a point exactly when the point fits it, that is, gives to each
variable as many components as the variable has coefficients (`excess_eq_ok_iff`).  In exact
arithmetic the value is the weighted sum less the offset.
-/

namespace SqpInequality

/-- The vector of a point under a key, empty if there is none. -/
def Point.vector {α : Type} (p : Point α) (k : Key) : Vec α := (p.get? k).getD []

theorem Point.vector_eq {α : Type} {p : Point α} {k : Key} {v : Vec α}
    (h : p.get? k = some v) : p.vector k = v := by
  rw [vector, h, Option.getD_some]

/-- Variables that are all assigned are gathered in order. -/
theorem Point.gather_eq_ok_iff {α : Type} {p : Point α} {ks : List Key} {xs : List (Vec α)} :
    p.gather ks = .ok xs ↔ (∀ k ∈ ks, (p.get? k).isSome) ∧ xs = ks.map p.vector := by
  refine mapM_eq_ok_iff_of fun k v => ⟨fun h => ?_, fun ⟨hsome, hv⟩ => ?_⟩
  · have hget := get?_of_value h
    rw [hget, vector_eq hget]
    exact ⟨rfl, rfl⟩
  · obtain ⟨w, hw⟩ := Option.isSome_iff_exists.mp hsome
    rw [hv, vector_eq hw, value_eq hw]

theorem Point.exists_gather {α : Type} {p : Point α} {ks : List Key}
    (h : ∀ k ∈ ks, p.contains k = true) : ∃ xs, p.gather ks = .ok xs :=
  ⟨_, gather_eq_ok_iff.mpr ⟨h, rfl⟩⟩

/-- What is gathered is what the point has under the keys. -/
theorem Point.gather_eq_ok_iff_get? {α : Type} {p : Point α} {ks : List Key}
    {xs : List (Vec α)} :
    p.gather ks = .ok xs ↔ List.Forall₂ (fun k v => p.get? k = some v) ks xs := by
  rw [gather, mapM_eq_ok_iff]
  exact ⟨fun h => h.imp fun _ _ hv => get?_of_value hv, fun h => h.imp fun _ _ hv => value_eq hv⟩

namespace Affine

variable {α : Type}

/-- **A point fits an affine inequality**: each variable has as many components as coefficients. -/
def Fits (a : Affine α) (p : Point α) : Prop :=
  ∀ t ∈ a.terms, ∃ x, p.get? t.1 = some x ∧ t.2.length = x.length

/-- The terms side by side with the vectors that a point gives to their variables. -/
theorem zip_keys_map_vector (a : Affine α) (p : Point α) :
    a.terms.zip (a.keys.map p.vector) = a.terms.map fun t => (t, p.vector t.1) := by
  rw [keys, List.map_map, ← List.zip_map', List.map_id']
  rfl

variable [Scalar α]

theorem addTerm_eq_ok_iff (total : α) (t : (Key × Vec α) × Vec α) (next : α) :
    addTerm total t = .ok next ↔
      t.1.2.length = t.2.length ∧ next = total + Vec.dot t.1.2 t.2 := by
  rw [addTerm]
  constructor
  · intro h
    split at h
    · rename_i hlength
      exact ⟨hlength, (Except.ok.inj h).symm⟩
    · contradiction
  · rintro ⟨hlength, rfl⟩
    exact if_pos hlength

/-- **An affine inequality has a value exactly at the points that fit it.** -/
theorem excess_eq_ok_iff {a : Affine α} {p : Point α} {e : α} :
    a.excess p = .ok e ↔ a.Fits p ∧
      e = a.terms.foldl (fun total t => total + Vec.dot t.2 (p.vector t.1)) (-a.offset) := by
  have hfits : a.Fits p ↔ (∀ k ∈ a.keys, (p.get? k).isSome) ∧
      ∀ t ∈ a.terms, t.2.length = (p.vector t.1).length := by
    rw [keys, List.forall_mem_map, ← forall₂_and]
    refine forall₂_congr fun t _ => ⟨fun ⟨x, hx, hlength⟩ => ?_, fun ⟨hsome, hlength⟩ => ?_⟩
    · rw [hx, Point.vector_eq hx]
      exact ⟨rfl, hlength⟩
    · obtain ⟨x, hx⟩ := Option.isSome_iff_exists.mp hsome
      rw [Point.vector_eq hx] at hlength
      exact ⟨x, hx, hlength⟩
  rw [excess, hfits, bind_eq_ok_iff]
  constructor
  · rintro ⟨xs, hxs, hfold⟩
    obtain ⟨hsome, rfl⟩ := Point.gather_eq_ok_iff.mp hxs
    rw [zip_keys_map_vector, foldlM_eq_ok_iff_of addTerm_eq_ok_iff, List.forall_mem_map,
      List.foldl_map] at hfold
    exact ⟨⟨hsome, hfold.1⟩, hfold.2⟩
  · rintro ⟨⟨hsome, hlength⟩, he⟩
    refine ⟨_, Point.gather_eq_ok_iff.mpr ⟨hsome, rfl⟩, ?_⟩
    rw [zip_keys_map_vector, foldlM_eq_ok_iff_of addTerm_eq_ok_iff, List.forall_mem_map,
      List.foldl_map]
    exact ⟨hlength, he⟩

end Affine

/-! ## In exact arithmetic -/

namespace Affine

variable {α : Type} [ExactScalar α]

/-- The weighted sum less the offset. -/
def excessAt (a : Affine α) (p : Point α) : α :=
  (a.terms.map fun t => Vec.weighted t.2 (p.vector t.1)).sum - a.offset

/-- **In exact arithmetic the value is the weighted sum less the offset.** -/
theorem excess_eq_ok_iff_excessAt {a : Affine α} {p : Point α} {e : α} :
    a.excess p = .ok e ↔ a.Fits p ∧ e = a.excessAt p := by
  have hfold : a.terms.foldl (fun total t => total + Vec.dot t.2 (p.vector t.1)) (-a.offset)
      = a.excessAt p := by
    simp only [Vec.dot_eq_weighted]
    rw [excessAt, sub_eq_add_neg, add_comm, ← Vec.foldl_add_eq, List.foldl_map]
  rw [excess_eq_ok_iff, hfold]

end Affine

end SqpInequality

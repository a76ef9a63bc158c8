import SqpInequality.Proofs.Exact
import SqpInequality.Linear.System
import SqpInequality.Proofs.Outcome

/-!
# Proofs/Linear/Evaluation — a linear model along a step that supplies it

A step supplies a model if it has, for each of the model's keys, a vector as long as the key's block
has columns.  Exactly then the model has a value (`LinearModel.error_eq_ok_iff`), and that of a single
row is the sum of its products less its right-hand side (`LinearRow.error_eq_excess`).
-/

namespace SqpInequality

/-! ## Steps and rows -/

/-- The vector of a step under a key, empty if there is none. -/
def VectorMap.vector {α : Type} (step : VectorMap α) (k : Key) : Vec α := (step.get? k).getD []

theorem VectorMap.vector_eq {α : Type} {step : VectorMap α} {k : Key} {v : Vec α}
    (h : step.get? k = some v) : step.vector k = v := by
  rw [vector, h, Option.getD_some]

/-- **A step supplies a term**: it has under the term's key a vector with a component for each
column of the block. -/
def VectorMap.Supplies {α : Type} (step : VectorMap α) (t : Key × Block α) : Prop :=
  ∃ v, step.get? t.1 = some v ∧ v.length = t.2.columnCount

instance {α : Type} (step : VectorMap α) (t : Key × Block α) : Decidable (step.Supplies t) :=
  inferInstanceAs (Decidable (∃ v ∈ step.get? t.1, v.length = t.2.columnCount))

/-- The coefficients of a block that is a single row. -/
def Block.row {α : Type} (b : Block α) : Vec α := b.rows.headD []

theorem Block.rows_eq {α : Type} {b : Block α} (h : b.rowCount = 1) : b.rows = [b.row] := by
  obtain ⟨row, hrow⟩ := List.length_eq_one_iff.mp h
  rw [Block.row, hrow, List.headD_cons]

theorem Block.length_row {α : Type} {b : Block α} (h : b.rowCount = 1) :
    b.row.length = b.columnCount :=
  b.uniform _ (Block.rows_eq h ▸ List.mem_singleton_self _)

namespace LinearModel

variable {α : Type}

/-- **A step supplies a model**: it has for each block a vector with a component for each column. -/
def Supplied (m : LinearModel α) (step : VectorMap α) : Prop :=
  ∀ t ∈ m.terms, ∃ v, step.get? t.1 = some v ∧ v.length = t.2.columnCount

/-- Building a model changes nothing of what it is built from. -/
theorem new_eq_ok {terms : List (Key × Block α)} {rhs : Vec α} {m : LinearModel α}
    (h : new terms rhs = .ok m) : m.terms = terms ∧ m.rhs = rhs := by
  rw [new] at h
  split at h
  · contradiction
  · obtain rfl := Except.ok.inj h
    exact ⟨rfl, rfl⟩

variable [Scalar α]

/-- A term that is supplied, and no other, adds its share. -/
theorem addTerm_eq_ok_iff {step : VectorMap α} (total : Vec α) (t : Key × Block α)
    (next : Vec α) : addTerm step total t = .ok next ↔
      step.Supplies t ∧ next = Vec.add total (t.2.apply (step.vector t.1)) := by
  rw [addTerm]
  constructor
  · intro h
    split at h
    · contradiction
    · rename_i v hv
      split at h
      · rename_i hlength
        obtain rfl := Except.ok.inj h
        rw [VectorMap.vector_eq hv]
        exact ⟨⟨v, hv, hlength⟩, rfl⟩
      · contradiction
  · rintro ⟨⟨v, hv, hlength⟩, rfl⟩
    rw [hv, VectorMap.vector_eq hv]
    exact if_pos hlength

/-- **A model has a value exactly if it is supplied**: the shares of its terms, added up from the
negated right-hand side. -/
theorem error_eq_ok_iff {m : LinearModel α} {step : VectorMap α} {e : Vec α} :
    m.error step = .ok e ↔ m.Supplied step ∧ e = m.terms.foldl
      (fun total t => Vec.add total (t.2.apply (step.vector t.1))) (Vec.neg m.rhs) :=
  foldlM_eq_ok_iff_of addTerm_eq_ok_iff

end LinearModel

namespace LinearRow

variable {α : Type}

theorem rhs_eq (r : LinearRow α) : r.model.rhs = [r.rhs] := by
  obtain ⟨b, hb⟩ := List.length_eq_one_iff.mp r.single
  rw [rhs]
  simp only [hb, List.head_cons]

theorem rhs_eq_of_model {r : LinearRow α} {b : α} (h : r.model.rhs = [b]) : r.rhs = b := by
  rw [rhs_eq] at h
  exact (List.cons.inj h).1

theorem rowCount_eq_one (r : LinearRow α) {t : Key × Block α} (ht : t ∈ r.model.terms) :
    t.2.rowCount = 1 := (r.model.matched t ht).trans r.single

theorem model_eq_of_ofModel {m : LinearModel α} {dualKey : Key} {r : LinearRow α}
    (h : ofModel m dualKey = .ok r) : r.model = m ∧ r.dualKey = dualKey := by
  rw [ofModel] at h
  split at h
  · obtain rfl := Except.ok.inj h
    exact ⟨rfl, rfl⟩
  · contradiction

/-- The left side less the right side along a step, as one sum. -/
def excess [Scalar α] (r : LinearRow α) (step : VectorMap α) : α :=
  (r.model.terms.map fun t => Vec.weighted t.2.row (step.vector t.1)).sum - r.rhs

variable [Scalar α]

/-- The shares of terms that are single rows add up as numbers do. -/
theorem foldl_add_apply (step : VectorMap α) : ∀ {ts : List (Key × Block α)}
    (_ : ∀ t ∈ ts, t.2.rowCount = 1) (total : α),
    ts.foldl (fun total t => Vec.add total (t.2.apply (step.vector t.1))) [total]
      = [ts.foldl (fun total t => total + Vec.weighted t.2.row (step.vector t.1)) total]
  | [], _, _ => rfl
  | t :: ts, h, total => by
    have happly : t.2.apply (step.vector t.1) = [Vec.weighted t.2.row (step.vector t.1)] := by
      rw [Block.apply, Block.rows_eq (h t List.mem_cons_self), List.map_singleton]
    rw [List.foldl_cons, List.foldl_cons, happly]
    exact foldl_add_apply step (fun u hu => h u (List.mem_cons_of_mem _ hu)) _

/-- A row that has a value holds exactly if the value is at most the tolerance. -/
theorem isSatisfied_iff {r : LinearRow α} {step : VectorMap α} {tolerance e : α}
    (h : r.error step = .ok e) : r.isSatisfied step tolerance = .ok true ↔ e ≤ tolerance := by
  rw [isSatisfied, h]
  exact ⟨fun hd => of_decide_eq_true (Except.ok.inj hd), fun hle => congrArg _ (decide_eq_true hle)⟩

end LinearRow

/-! ## In exact arithmetic -/

namespace LinearRow

variable {α : Type} [ExactScalar α]

/-- **In exact arithmetic the value of a single row is the sum of its products less its right-hand
side.** -/
theorem error_model_eq_excess {r : LinearRow α} {step : VectorMap α}
    (h : r.model.Supplied step) : r.model.error step = .ok [r.excess step] := by
  have hfold : ∀ (ts : List (Key × Block α)) (total : α),
      ts.foldl (fun total t => total + Vec.weighted t.2.row (step.vector t.1)) total
        = total + (ts.map fun t => Vec.weighted t.2.row (step.vector t.1)).sum := by
    intro ts total
    rw [← Vec.foldl_add_eq, List.foldl_map]
  have hsum := foldl_add_apply step (fun t ht => r.rowCount_eq_one ht) (-r.rhs)
  rw [LinearModel.error_eq_ok_iff, rhs_eq, excess, sub_eq_add_neg, add_comm, ← hfold]
  exact ⟨h, hsum.symm⟩

theorem error_eq_excess {r : LinearRow α} {step : VectorMap α} (h : r.model.Supplied step) :
    r.error step = .ok (r.excess step) := by
  rw [error, error_model_eq_excess h]
  rfl

end LinearRow

end SqpInequality

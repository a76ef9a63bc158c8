import SqpInequality.Proofs.Binary64.Rank
import SqpInequality.Proofs.Guarded.Linear

/-!
# Proofs/Linear/TermByTerm — models are evaluated term by term, systems row by row

A model is evaluated from the negated right-hand side on, one term after the other:

    -b  ──+ A₀ d₀──▸  ──+ A₁ d₁──▸  …  ──+ Aₙ dₙ──▸  error

A term can be added exactly if the step supplies it.  So a model has a value exactly if the step
supplies all of its terms, and otherwise the first term that is not supplied decides the refusal
(`LinearModel.error_eq_error_iff`).  In exact arithmetic each entry of the value is the double sum
over terms and columns (`LinearModel.getElem?_error`).  A system takes the errors of its rows in
order, and fails as the first row that fails (`LinearSystem.evaluated_term_by_term`).
-/

namespace SqpInequality

/-! ## One term -/

namespace VectorMap

variable {α : Type}

/-- **A step lacks what a term needs**, and this is what the term is refused for. -/
inductive Lacks (step : VectorMap α) (t : Key × Block α) : Fault α → Prop where
  /-- There is no vector under the term's key. -/
  | vector (h : step.get? t.1 = none) : Lacks step t (.stepMissing t.1)
  /-- The vector under the term's key has another length than the block has columns. -/
  | length {v : Vec α} (hv : step.get? t.1 = some v) (h : v.length ≠ t.2.columnCount) :
      Lacks step t (.blockColumns t.1 t.2.columnCount v.length)

theorem Lacks.kind_eq {step : VectorMap α} {t : Key × Block α} {fault : Fault α}
    (h : step.Lacks t fault) :
    fault.kind = if step.contains t.1 then .dimensionMismatch else .missingVariable := by
  cases h with
  | vector h =>
    have habsent : step.contains t.1 = false :=
      Option.isSome_eq_false_iff.mpr (Option.isNone_iff_eq_none.mpr h)
    rw [habsent]
    rfl
  | length hv _ =>
    have hpresent : step.contains t.1 = true := Option.isSome_iff_exists.mpr ⟨_, hv⟩
    rw [hpresent]
    rfl

end VectorMap

namespace LinearModel

variable {α : Type} [Scalar α]

theorem addTerm_eq_error_iff {step : VectorMap α} (total : Vec α) (t : Key × Block α)
    (fault : Fault α) : addTerm step total t = .error fault ↔ step.Lacks t fault := by
  rw [addTerm]
  constructor
  · intro h
    split at h
    · rename_i hnone
      obtain rfl := Except.error.inj h
      exact .vector hnone
    · rename_i v hv
      split at h
      · contradiction
      · rename_i hlength
        obtain rfl := Except.error.inj h
        exact .length hv hlength
  · rintro (hnone | ⟨hv, hlength⟩)
    · rw [hnone]
    · rw [hv]
      exact if_neg hlength

/-! ## All terms -/

/-- **A model has a value exactly if the step supplies all of its terms.** -/
theorem exists_error_iff {m : LinearModel α} {step : VectorMap α} :
    (∃ e, m.error step = .ok e) ↔ m.Supplied step :=
  ⟨fun ⟨_, h⟩ => (error_eq_ok_iff.mp h).1, fun h => ⟨_, error_eq_ok_iff.mpr ⟨h, rfl⟩⟩⟩

/-- **A model is refused for the first of its terms that is not supplied.** -/
theorem error_eq_error_iff {m : LinearModel α} {step : VectorMap α} {fault : Fault α} :
    m.error step = .error fault ↔ ∃ k t, m.terms[k]? = some t ∧
      (∀ u ∈ m.terms.take k, step.Supplies u) ∧ step.Lacks t fault :=
  foldlM_eq_error_iff_of addTerm_eq_ok_iff addTerm_eq_error_iff

end LinearModel

/-! ## The value in exact arithmetic -/

/-- The entry of a block in a row and a column, zero where there is none. -/
def Block.entry {α : Type} [Zero α] (b : Block α) (i j : Nat) : α := (b.rows.getD i []).getD j 0

section Exact

variable {α : Type} [ExactScalar α]

/-- The components of a sum of vectors are the sums of their components. -/
theorem Vec.getElem?_foldl_add {β : Type} {share : β → Vec α} {part : β → α} {i : Nat} :
    ∀ {ts : List β} (_ : ∀ t ∈ ts, (share t)[i]? = some (part t)) {total : Vec α} {a : α},
      total[i]? = some a →
        (ts.foldl (fun total t => add total (share t)) total)[i]? = some (a + (ts.map part).sum)
  | [], _, total, a, ha => by
    rw [List.foldl_nil, List.map_nil, List.sum_nil, add_zero, ha]
  | t :: ts, h, total, a, ha => by
    obtain ⟨ht, hts⟩ := List.forall_mem_cons.mp h
    rw [List.foldl_cons, List.map_cons, List.sum_cons, ← add_assoc]
    exact getElem?_foldl_add hts (getElem?_add ha ht)

/-- An entry of a product is the sum over the columns. -/
theorem Block.getElem?_apply {b : Block α} {v : Vec α} {i : Nat} (hi : i < b.rowCount)
    (hv : v.length = b.columnCount) : (b.apply v)[i]?
      = some (∑ j ∈ Finset.range b.columnCount, b.entry i j * v.getD j 0) := by
  have hrow : b.rows[i]? = some b.rows[i] := List.getElem?_eq_getElem hi
  have hlength : b.rows[i].length = b.columnCount := b.uniform _ (List.getElem_mem hi)
  have hentry : ∀ j, b.entry i j = b.rows[i].getD j 0 := fun j => by
    rw [Block.entry, List.getD_eq_getElem _ _ hi]
  simp only [apply, List.getElem?_map, hrow, Option.map_some, hentry]
  rw [Vec.weighted_eq_sum_range (hlength.trans hv.symm), hv]

namespace LinearModel

/-- The modelled residual in a row: the sum over all terms and all columns of their blocks, less the
right-hand side. -/
def errorAt (m : LinearModel α) (step : VectorMap α) (i : Nat) : α :=
  (m.terms.map fun t => ∑ j ∈ Finset.range t.2.columnCount,
    t.2.entry i j * (step.vector t.1).getD j 0).sum - m.rhs.getD i 0

/-- **In exact arithmetic each entry of a value is the double sum over terms and columns.** -/
theorem getElem?_error {m : LinearModel α} {step : VectorMap α} {e : Vec α}
    (h : m.error step = .ok e) {i : Nat} (hi : i < m.rowCount) :
    e[i]? = some (m.errorAt step i) := by
  obtain ⟨hsupplied, rfl⟩ := error_eq_ok_iff.mp h
  have hrhs : (Vec.neg m.rhs)[i]? = some (-m.rhs.getD i 0) := by
    rw [Vec.neg, List.getElem?_map, List.getElem?_eq_getElem hi, List.getD_eq_getElem _ _ hi,
      Option.map_some]
  have hshare : ∀ t ∈ m.terms, (t.2.apply (step.vector t.1))[i]?
      = some (∑ j ∈ Finset.range t.2.columnCount,
          t.2.entry i j * (step.vector t.1).getD j 0) := by
    intro t ht
    obtain ⟨v, hv, hlength⟩ := hsupplied t ht
    rw [VectorMap.vector_eq hv]
    exact Block.getElem?_apply (Nat.lt_of_lt_of_eq hi (m.matched t ht).symm) hlength
  rw [Vec.getElem?_foldl_add hshare hrhs, errorAt, sub_eq_add_neg, add_comm]

end LinearModel

end Exact

/-! ## Rows -/

namespace LinearRow

variable {α : Type} [Scalar α]

/-- The value of a row is the one entry of its model's. -/
theorem error_eq_ok_iff {r : LinearRow α} {step : VectorMap α} {e : α} :
    r.error step = .ok e ↔ r.model.error step = .ok [e] := by
  rw [error, map_eq_ok_iff]
  constructor
  · rintro ⟨v, hv, rfl⟩
    obtain ⟨a, rfl⟩ := List.length_eq_one_iff.mp ((LinearModel.length_of_error hv).trans r.single)
    exact hv
  · exact fun h => ⟨[e], h, rfl⟩

/-- A row fails as its model does. -/
theorem error_eq_error_iff {r : LinearRow α} {step : VectorMap α} {fault : Fault α} :
    r.error step = .error fault ↔ r.model.error step = .error fault := map_eq_error_iff

theorem isSatisfied_eq_ok_true_iff {r : LinearRow α} {step : VectorMap α} {tolerance : α} :
    r.isSatisfied step tolerance = .ok true ↔ ∃ e, r.error step = .ok e ∧ e ≤ tolerance := by
  simp only [isSatisfied, map_eq_ok_iff, decide_eq_true_eq]

/-- **An inequality holds exactly if its value is a number and at most the tolerance.** -/
theorem isSatisfied_iff_number {r : LinearRow Float} {step : VectorMap Float} {tolerance : Float} :
    r.isSatisfied step tolerance = .ok true ↔
      ∃ e, r.error step = .ok e ∧ e.isNaN = false ∧ e ≤ tolerance := by
  rw [isSatisfied_eq_ok_true_iff]
  refine exists_congr fun e => and_congr_right fun _ => ⟨fun h => ?_, fun h => h.2⟩
  exact ⟨(float_le_iff_not_lt.mp h).1, h⟩

end LinearRow

/-! ## Systems -/

namespace LinearSystem

/-- **A system fails as the first of its rows that fails.** -/
theorem errors_eq_error_iff {α : Type} [Scalar α] {s : LinearSystem α} {step : VectorMap α}
    {fault : Fault α} : s.errors step = .error fault ↔ ∃ k r, s.get? k = some r ∧
      (∀ q ∈ s.rows.take k, ∃ e, q.error step = .ok e) ∧ r.error step = .error fault :=
  mapM_eq_error_iff_of (fun _ => Iff.rfl) fun _ _ => Iff.rfl

/-- **Models are evaluated term by term, and systems row by row.**  A model has a value exactly if
the step supplies all of its terms; otherwise the first term that is not supplied decides the
refusal: a missing vector is a missing variable, one of another length a mismatch of dimensions.  A
value has one entry for each row, in exact arithmetic the double sum over terms and columns less the
right-hand side.  The errors of a system are those of its rows in order, or the failure of the first
row that fails.  A row is satisfied exactly if its error is a number and at most the tolerance. -/
theorem evaluated_term_by_term :
    (∀ {α : Type} [Scalar α] (m : LinearModel α) (step : VectorMap α),
      ((∃ e, m.error step = .ok e) ↔ ∀ t ∈ m.terms, step.Supplies t) ∧
      (∀ fault, m.error step = .error fault ↔ ∃ k t, m.terms[k]? = some t ∧
        (∀ u ∈ m.terms.take k, step.Supplies u) ∧ step.Lacks t fault ∧
        fault.kind = if step.contains t.1 then .dimensionMismatch else .missingVariable) ∧
      ∀ e, m.error step = .ok e → e.length = m.rowCount) ∧
    (∀ {α : Type} [ExactScalar α] (m : LinearModel α) (step : VectorMap α) (e : Vec α),
      m.error step = .ok e → ∀ i, i < m.rowCount → e[i]? = some (m.errorAt step i)) ∧
    (∀ {α : Type} [Scalar α] (s : LinearSystem α) (step : VectorMap α),
      ((∃ es, s.errors step = .ok es) ↔ ∀ r ∈ s.rows, ∃ e, r.error step = .ok e) ∧
      (∀ es, s.errors step = .ok es ↔
        List.Forall₂ (fun r e => r.error step = .ok e) s.rows es) ∧
      ∀ fault, s.errors step = .error fault ↔ ∃ k r, s.get? k = some r ∧
        (∀ q ∈ s.rows.take k, ∃ e, q.error step = .ok e) ∧ r.error step = .error fault) ∧
    (∀ {α : Type} [Scalar α] (r : LinearRow α) (step : VectorMap α),
      (∀ e, r.error step = .ok e ↔ r.model.error step = .ok [e]) ∧
      ∀ fault, r.error step = .error fault ↔ r.model.error step = .error fault) ∧
    ∀ (r : LinearRow Float) (step : VectorMap Float) (tolerance : Float),
      r.isSatisfied step tolerance = .ok true ↔
        ∃ e, r.error step = .ok e ∧ e.isNaN = false ∧ e ≤ tolerance := by
  refine ⟨fun m step => ⟨LinearModel.exists_error_iff, fun fault => ?_,
      fun e he => LinearModel.length_of_error he⟩,
    fun m step e he i hi => LinearModel.getElem?_error he hi,
    fun s step => ⟨exists_mapM_iff, fun es => mapM_eq_ok_iff, fun fault => errors_eq_error_iff⟩,
    fun r step => ⟨fun e => LinearRow.error_eq_ok_iff, fun fault => LinearRow.error_eq_error_iff⟩,
    fun r step tolerance => LinearRow.isSatisfied_iff_number⟩
  rw [LinearModel.error_eq_error_iff]
  refine exists_congr fun k => exists_congr fun t => and_congr_right fun _ =>
    and_congr_right fun _ => ?_
  exact ⟨fun h => ⟨h, h.kind_eq⟩, fun h => h.1⟩

/-- A model of two rows, of which the second block has no columns. -/
def threeBlocks : LinearModel ℚ where
  terms := [(0, ⟨2, [[1, 2], [3, 4]], by decide⟩), (5, ⟨0, [[], []], by decide⟩),
    (1, ⟨1, [[-1], [2]], by decide⟩)]
  rhs := [3, 1]
  matched := by decide
  distinct := by decide

/-- An inequality with the right-hand side 2. -/
def atMostTwo : LinearRow Float := ⟨⟨[(0, .ofRow [1])], [2], by decide, by decide⟩, 100, rfl⟩

/-- An inequality with a right-hand side that is not a number. -/
def unbounded : LinearRow Float :=
  ⟨⟨[(0, .ofRow [1])], [0 / 0], by decide, by decide⟩, 101, rfl⟩

theorem evaluated_threeBlocks :
    threeBlocks.error (.ofList [(0, [1, 1]), (1, [2]), (5, [])]) = .ok [-2, 10] ∧
    threeBlocks.error (.ofList [(0, [1, 1]), (1, [2, 2])]) = .error (.stepMissing 5) ∧
    threeBlocks.error (.ofList [(0, [1, 1]), (1, [2, 2]), (5, [])])
      = .error (.blockColumns 1 1 2) ∧
    errors ⟨[atMostTwo, unbounded]⟩ (.ofList [(1, [0])]) = .error (.stepMissing 0) ∧
    atMostTwo.isSatisfied (.ofList [(0, [1])]) 0 = .ok true ∧
    ∀ tolerance, unbounded.isSatisfied (.ofList [(0, [1])]) tolerance ≠ .ok true := by
  obtain ⟨hmodel, hexact, hsystem, hrow, hsatisfied⟩ := evaluated_term_by_term
  refine ⟨?_, ?_, ?_, ?_, ?_, fun tolerance h => ?_⟩
  · obtain ⟨haccepted, -, hlength⟩ :=
      hmodel threeBlocks (.ofList [(0, [1, 1]), (1, [2]), (5, [])])
    obtain ⟨e, he⟩ := haccepted.mpr (by decide +kernel)
    have hentry := hexact _ _ e he
    obtain ⟨a, b, rfl⟩ := List.length_eq_two.mp (hlength e he)
    obtain rfl : a = -2 := (Option.some.inj (hentry 0 (by decide))).trans (by decide +kernel)
    obtain rfl : b = 10 := (Option.some.inj (hentry 1 (by decide))).trans (by decide +kernel)
    exact he
  · exact ((hmodel _ _).2.1 _).mpr ⟨1, _, rfl, by decide +kernel, .vector rfl, rfl⟩
  · refine ((hmodel _ _).2.1 _).mpr ⟨2, _, rfl, by decide +kernel, ?_, rfl⟩
    exact .length (v := [2, 2]) rfl (by decide)
  · refine ((hsystem _ _).2.2 _).mpr ⟨0, _, rfl, nofun, ((hrow _ _).2 _).mpr ?_⟩
    exact ((hmodel _ _).2.1 _).mpr ⟨0, _, rfl, nofun, .vector rfl, rfl⟩
  · exact (hsatisfied _ _ _).mpr ⟨_, rfl, by decide +kernel, by decide +kernel⟩
  · obtain ⟨e, he, hnumber, -⟩ := (hsatisfied _ _ _).mp h
    obtain rfl := Except.ok.inj he
    exact absurd hnumber (by decide +kernel)

end LinearSystem

end SqpInequality

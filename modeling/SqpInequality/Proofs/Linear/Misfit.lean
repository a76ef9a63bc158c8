import SqpInequality.Fault.Message
import SqpInequality.Proofs.Linear.Assembly

/-!
# Proofs/Linear/Misfit — the first misfit decides why a system is not stacked

The terms of a system are placed row by row, and in each row in the order of the terms:

    row 0     (k₀₀, B₀₀) (k₀₁, B₀₁) …
      ⋮
    row i     (kᵢ₀, Bᵢ₀) …   (kᵢⱼ, Bᵢⱼ) …       the first that the layout does not hold

A term is looked up and its columns are counted before its coefficients are read, so a misfit is
refused even if all of its coefficients are zero.  Without one, all triplets are in range, and what
is left to refuse is the size of the matrix (`LinearSystem.stackWith_decided_by_first_misfit`).
-/

namespace SqpInequality

variable {α : Type}

/-! ## One term -/

namespace ColumnLayout

/-- **A layout holds a term**: its key is listed, with as many columns as its block has. -/
def Holds (l : ColumnLayout) (t : Key × Block α) : Prop := l.dimension? t.1 = some t.2.columnCount

instance (l : ColumnLayout) (t : Key × Block α) : Decidable (l.Holds t) :=
  inferInstanceAs (Decidable (l.dimension? t.1 = some t.2.columnCount))

/-- **A term misfits a layout**, and this is what it is refused for.  The dual key is that of the
inequality which the term belongs to. -/
inductive Misfit (l : ColumnLayout) (dualKey : Key) (t : Key × Block α) : Fault α → Prop where
  /-- The key is not listed. -/
  | unlisted (h : l.column? t.1 = none) : Misfit l dualKey t (.notLaidOut dualKey t.1)
  /-- The key is listed with another number of columns than the block has. -/
  | resized {o d : Nat} (h : l.column? t.1 = some (o, d)) (hd : d ≠ t.2.columnCount) :
      Misfit l dualKey t (.reservedColumns dualKey t.2.columnCount t.1 d)

variable {l : ColumnLayout} {dualKey : Key} {t : Key × Block α} {fault : Fault α}

theorem Misfit.kind_eq (h : l.Misfit dualKey t fault) :
    fault.kind = if (l.column? t.1).isSome then .dimensionMismatch else .missingVariable := by
  cases h with
  | unlisted h => simp only [h, Option.isSome_none, Bool.false_eq_true, if_false, Fault.kind]
  | resized h _ => simp only [h, Option.isSome_some, if_true, Fault.kind]

/-- A layout does not hold a term whose key is not listed, or listed with other columns. -/
theorem not_holds_iff : ¬ l.Holds t ↔
    l.column? t.1 = none ∨ ∃ o d, l.column? t.1 = some (o, d) ∧ d ≠ t.2.columnCount := by
  rw [Holds, dimension?]
  cases l.column? t.1 with
  | none => exact iff_of_true (Option.some_ne_none _).symm (Or.inl rfl)
  | some c =>
    obtain ⟨o, d⟩ := c
    refine ⟨fun h => Or.inr ⟨o, d, rfl, fun hd => h (congrArg some hd)⟩, ?_⟩
    rintro (h | ⟨_, _, h, hd⟩) hholds
    · contradiction
    · cases h
      exact hd (Option.some.inj hholds)

/-- **The words of a refusal name the inequality and the variable.** -/
theorem Misfit.text_eq {t : Key × Block Float} {fault : Fault Float}
    (h : l.Misfit dualKey t fault) : ∃ between behind,
      fault.text = "constraint " ++ dualKey.name ++ between ++ t.1.name ++ behind := by
  cases h with
  | unlisted _ => exact ⟨" references ", " which is not in the ordering", rfl⟩
  | @resized _ d _ _ =>
    refine ⟨s!" has {t.2.columnCount} columns for ", ", " ++ s!"ordering reserves {d}", ?_⟩
    change s!"constraint {dualKey.name} has {t.2.columnCount} columns for {t.1.name}, "
      ++ s!"ordering reserves {d}" = _
    simp only [toString, ← String.append_assoc]

end ColumnLayout

open ColumnLayout

namespace LinearSystem

variable {l : ColumnLayout}

/-- A system does not fit a layout if one of its terms is a misfit. -/
theorem not_fits_iff {s : LinearSystem α} : ¬ s.Fits l ↔
    ∃ r ∈ s.rows, ∃ t ∈ r.model.terms,
      l.column? t.1 = none ∨ ∃ o d, l.column? t.1 = some (o, d) ∧ d ≠ t.2.columnCount := by
  simp only [Fits, not_forall, exists_prop, ← not_holds_iff, Holds]

variable [Scalar α]

theorem termTriplets_eq_error_iff {i : Nat} {dualKey : Key} (t : Key × Block α)
    (fault : Fault α) : termTriplets l i dualKey t = .error fault ↔ l.Misfit dualKey t fault := by
  rw [termTriplets]
  constructor
  · intro h
    split at h
    · rename_i hnone
      obtain rfl := Except.error.inj h
      exact .unlisted hnone
    · rename_i o d hcolumn
      split at h
      · contradiction
      · rename_i hd
        obtain rfl := Except.error.inj h
        exact .resized hcolumn (Ne.symm hd)
  · rintro (hnone | ⟨hcolumn, hd⟩)
    · rw [hnone]
    · rw [hcolumn]
      exact if_neg hd.symm

/-! ## All terms -/

/-- **An inequality is refused for its first term that the layout does not hold.** -/
theorem rowTriplets_eq_error_iff {i : Nat} (r : LinearRow α) (fault : Fault α) :
    rowTriplets l r i = .error fault ↔ ∃ k t, r.model.terms[k]? = some t ∧
      (∀ u ∈ r.model.terms.take k, l.Holds u) ∧ l.Misfit r.dualKey t fault := by
  have hholds : ∀ t : Key × Block α,
      (∃ ts : List (Triplet α), termTriplets l i r.dualKey t = .ok ts) ↔ l.Holds t := by
    intro t
    simp only [termTriplets_eq_ok_iff, exists_and_left, exists_eq, and_true]
    rfl
  rw [rowTriplets, map_eq_error_iff]
  exact mapM_eq_error_iff_of hholds termTriplets_eq_error_iff

/-- **A system is refused for its first inequality with a term that the layout does not hold.** -/
theorem triplets_eq_error_iff {s : LinearSystem α} {fault : Fault α} :
    s.triplets l = .error fault ↔ ∃ i r, s.get? i = some r ∧
      (∀ q ∈ s.rows.take i, ∀ u ∈ q.model.terms, l.Holds u) ∧
      ∃ k t, r.model.terms[k]? = some t ∧ (∀ u ∈ r.model.terms.take k, l.Holds u) ∧
        l.Misfit r.dualKey t fault := by
  have hholds : ∀ e : LinearRow α × Nat, (∃ ts, rowTriplets l e.1 e.2 = .ok ts) ↔
      ∀ u ∈ e.1.model.terms, l.Holds u := by
    intro e
    simp only [rowTriplets_eq_ok_iff, exists_and_left, exists_eq, and_true]
    rfl
  -- the rows are numbered on the way, which has no part in what they are refused for
  have hnumbered : ∀ i, (∀ e ∈ s.rows.zipIdx.take i, ∀ u ∈ e.1.model.terms, l.Holds u) ↔
      ∀ q ∈ s.rows.take i, ∀ u ∈ q.model.terms, l.Holds u := by
    intro i
    conv_rhs => rw [← List.zipIdx_map_fst 0 s.rows, ← List.map_take, List.forall_mem_map]
  rw [triplets, map_eq_error_iff,
    mapM_eq_error_iff_of hholds fun e fault => rowTriplets_eq_error_iff e.1 fault]
  simp only [hnumbered, List.getElem?_zipIdx, Option.map_eq_some_iff, get?]
  refine exists_congr fun i => ⟨?_, ?_⟩
  · rintro ⟨_, ⟨r, hr, rfl⟩, hbefore, hmisfit⟩
    exact ⟨r, hr, hbefore, hmisfit⟩
  · rintro ⟨r, hr, hbefore, hmisfit⟩
    exact ⟨_, ⟨r, hr, rfl⟩, hbefore, hmisfit⟩

/-! ## What a system is refused for -/

section Refused

variable {ε : Type} [ToString ε] {accepts : Nat → Nat → Prop}
  {assemble : Nat → Nat → List (Triplet α) → Except ε (SparseMatrix α)}

/-- **A system is refused for a key or a dimension exactly if its triplets are.** -/
theorem stackWith_eq_error_iff {s : LinearSystem α} {fault : Fault α} :
    (s.stackWith assemble l = .error fault ∧
        (fault.kind = .missingVariable ∨ fault.kind = .dimensionMismatch)) ↔
      s.triplets l = .error fault := by
  constructor
  · rintro ⟨h, hkind⟩
    rcases bind_eq_error_iff.mp h with htriplets | ⟨ts, -, hmatrix⟩
    · exact htriplets
    · obtain ⟨e, -, rfl⟩ := mapError_eq_error_iff.mp (map_eq_error_iff.mp hmatrix)
      rcases hkind with hkind | hkind <;> contradiction
  · intro h
    refine ⟨bind_eq_error_iff.mpr (Or.inl h), ?_⟩
    obtain ⟨i, r, -, -, k, t, -, -, hmisfit⟩ := triplets_eq_error_iff.mp h
    rw [hmisfit.kind_eq]
    split
    · exact Or.inr rfl
    · exact Or.inl rfl

/-- **A system is refused for a key or a dimension exactly if one of its terms is a misfit.** -/
theorem exists_refused_iff (s : LinearSystem α) :
    (∃ fault, s.stackWith assemble l = .error fault ∧
        (fault.kind = .missingVariable ∨ fault.kind = .dimensionMismatch)) ↔
      ∃ r ∈ s.rows, ∃ t ∈ r.model.terms,
        l.column? t.1 = none ∨ ∃ o d, l.column? t.1 = some (o, d) ∧ d ≠ t.2.columnCount := by
  simp only [stackWith_eq_error_iff, ← not_fits_iff]
  constructor
  · rintro ⟨fault, h⟩ hfits
    rw [triplets_eq_ok_iff.mpr ⟨hfits, rfl⟩] at h
    contradiction
  · intro hmisfit
    cases h : s.triplets l with
    | error fault => exact ⟨fault, rfl⟩
    | ok ts => exact absurd (triplets_eq_ok_iff.mp h).1 hmisfit

/-- **Only the size of a system without a misfit can be refused.** -/
theorem refused_by_size_of_fits (hassemble : SparseMatrix.RefusesBySize accepts assemble)
    {s : LinearSystem α} (hfits : s.Fits l) :
    (∀ fault, s.stackWith assemble l = .error fault →
      fault.kind = .linearAlgebra ∧ ¬ accepts s.size l.total) ∧
    (accepts s.size l.total → ∃ m, s.stackWith assemble l = .ok ⟨m, s.rhs⟩) := by
  have hassembled : accepts s.size l.total →
      ∃ m, assemble s.size l.total (s.tripletsOver l) = .ok m := fun haccepts =>
    hassemble haccepts fun t ht => tripletsOver_in_range hfits ht
  refine ⟨fun fault h => ?_, fun haccepts => ?_⟩
  · obtain ⟨e, he, rfl⟩ := (stackWith_of_fits_eq_error_iff hfits).mp h
    -- the triplets are in range, so the size must have been the reason
    refine ⟨rfl, fun haccepts => ?_⟩
    obtain ⟨m, hm⟩ := hassembled haccepts
    rw [he] at hm
    contradiction
  · obtain ⟨m, hm⟩ := hassembled haccepts
    exact ⟨m, stackWith_of_fits_of_ok hfits hm⟩

/-- **The first misfit decides why a system is not stacked, and without one it is the size of the
matrix.**  A key that is not listed is a missing variable, one with another number of columns a
mismatch of dimensions; the refusal names the inequality and the variable.  A system without a
misfit is handed to the assembly as it is, which can only refuse its size. -/
theorem stackWith_decided_by_first_misfit
    (hassemble : SparseMatrix.RefusesBySize accepts assemble) (s : LinearSystem α)
    (l : ColumnLayout) :
    ((∃ fault, s.stackWith assemble l = .error fault ∧
        (fault.kind = .missingVariable ∨ fault.kind = .dimensionMismatch)) ↔
      ∃ r ∈ s.rows, ∃ t ∈ r.model.terms,
        l.column? t.1 = none ∨ ∃ o d, l.column? t.1 = some (o, d) ∧ d ≠ t.2.columnCount) ∧
    (∀ fault, (s.stackWith assemble l = .error fault ∧
        (fault.kind = .missingVariable ∨ fault.kind = .dimensionMismatch)) ↔
      ∃ i r, s.get? i = some r ∧ (∀ q ∈ s.rows.take i, ∀ u ∈ q.model.terms, l.Holds u) ∧
        ∃ k t, r.model.terms[k]? = some t ∧ (∀ u ∈ r.model.terms.take k, l.Holds u) ∧
          l.Misfit r.dualKey t fault ∧
          fault.kind = if (l.column? t.1).isSome then .dimensionMismatch else .missingVariable) ∧
    ((∀ r ∈ s.rows, ∀ t ∈ r.model.terms, l.Holds t) →
      ∃ ts, s.triplets l = .ok ts ∧
        s.stackWith assemble l = ((assemble s.size l.total ts).mapError fun e =>
          .matrixRefused (toString e)).map (fun m => ⟨m, s.rhs⟩) ∧
        (∀ fault, s.stackWith assemble l = .error fault →
          fault.kind = .linearAlgebra ∧ ¬ accepts s.size l.total) ∧
        (accepts s.size l.total → ∃ m, s.stackWith assemble l = .ok ⟨m, s.rhs⟩)) ∧
    ∀ (dualKey : Key) (t : Key × Block Float) (fault : Fault Float), l.Misfit dualKey t fault →
      ∃ between behind,
        fault.text = "constraint " ++ dualKey.name ++ between ++ t.1.name ++ behind := by
  refine ⟨exists_refused_iff s, fun fault => ?_, fun hfits => ?_,
    fun _ _ _ => Misfit.text_eq⟩
  · rw [stackWith_eq_error_iff, triplets_eq_error_iff]
    refine exists_congr fun i => exists_congr fun r => and_congr_right fun _ =>
      and_congr_right fun _ => exists_congr fun k => exists_congr fun t =>
      and_congr_right fun _ => and_congr_right fun _ => ?_
    exact ⟨fun h => ⟨h, h.kind_eq⟩, fun h => h.1⟩
  · exact ⟨_, triplets_eq_ok_iff.mpr ⟨hfits, rfl⟩, stackWith_of_fits_eq assemble hfits,
      refused_by_size_of_fits hassemble hfits⟩

end Refused

/-- Three inequalities.  The second has a zero coefficient for one component of a variable and
mentions another variable, the third only that one. -/
def threeRows : LinearSystem Float where
  rows :=
    [ ⟨⟨[(1, .ofRow [1, 0])], [2], by decide, by decide⟩, 100, rfl⟩,
      ⟨⟨[(0, .ofRow [3]), (1, .ofRow [0]), (9, .ofRow [1])], [-1], by decide, by decide⟩, 101, rfl⟩,
      ⟨⟨[(9, .ofRow [4])], [0], by decide, by decide⟩, 102, rfl⟩ ]

/-- The first row alone is stacked, the second is refused for its zero block before its key that is
not listed, and the third for that key. -/
theorem stackWith_of_threeRows :
    (∃ m, stackWith SparseMatrix.ofTriplets ⟨threeRows.rows.take 1⟩ ⟨[(0, 1), (1, 2)], by decide⟩
      = .ok ⟨m, [2]⟩) ∧
    threeRows.stackWith SparseMatrix.ofTriplets ⟨[(0, 1), (1, 2)], by decide⟩
      = .error (.reservedColumns 101 1 1 2) ∧
    stackWith SparseMatrix.ofTriplets ⟨threeRows.rows.eraseIdx 1⟩ ⟨[(0, 1), (1, 2)], by decide⟩
      = .error (.notLaidOut 102 9) := by
  have hdecided := fun s => stackWith_decided_by_first_misfit (α := Float)
    SparseMatrix.refusesBySize_ofTriplets s ⟨[(0, 1), (1, 2)], by decide⟩
  refine ⟨?_, ?_, ?_⟩
  · obtain ⟨ts, -, -, -, hstacked⟩ := (hdecided ⟨threeRows.rows.take 1⟩).2.2.1 (by decide)
    exact hstacked rfl
  · refine (((hdecided threeRows).2.1 _).mpr
      ⟨1, _, rfl, by decide, 1, _, rfl, by decide, ?_, rfl⟩).1
    exact .resized rfl (by decide)
  · refine (((hdecided ⟨threeRows.rows.eraseIdx 1⟩).2.1 _).mpr
      ⟨1, _, rfl, by decide, 0, _, rfl, by decide, ?_, rfl⟩).1
    exact .unlisted rfl

end LinearSystem

end SqpInequality

import SqpInequality.Proofs.Linear.Triplets

/-!
# Proofs/Linear/Assembly — matrices made from triplets at different positions

Triplets at one position are summed, and rounding makes a sum depend on its order.  Where no two
triplets share a position there is nothing to sum.  An assembly is relied on for just that
(`SparseMatrix.Assembles`), and for refusing nothing but a size (`SparseMatrix.RefusesBySize`); that
of this library can be.
-/

namespace SqpInequality

variable {α : Type}

/-! ## The values at a position -/

namespace Triplet

/-- The values at a position, in the order of their triplets. -/
def valuesAt (ts : List (Triplet α)) (i j : Nat) : List α :=
  (ts.filter fun t => t.row == i && t.column == j).map Triplet.value

theorem at_iff {t : Triplet α} {i j : Nat} :
    (t.row == i && t.column == j) = true ↔ t.position = (i, j) := by
  rw [Bool.and_eq_true, beq_iff_eq, beq_iff_eq, position, Prod.mk.injEq]

theorem valuesAt_cons (t : Triplet α) (ts : List (Triplet α)) (i j : Nat) :
    valuesAt (t :: ts) i j
      = if t.position = (i, j) then t.value :: valuesAt ts i j else valuesAt ts i j := by
  rw [valuesAt, List.filter_cons]
  by_cases hat : t.position = (i, j)
  · rw [if_pos (at_iff.mpr hat), if_pos hat]
    rfl
  · rw [if_neg (mt at_iff.mp hat), if_neg hat]
    rfl

theorem valuesAt_eq_nil {ts : List (Triplet α)} {i j : Nat}
    (h : ∀ t ∈ ts, t.position ≠ (i, j)) : valuesAt ts i j = [] := by
  rw [valuesAt, List.map_eq_nil_iff, List.filter_eq_nil_iff]
  exact fun t ht hat => h t ht (at_iff.mp hat)

/-- **A triplet that shares its position with no other is the value there.** -/
theorem valuesAt_eq_singleton {t : Triplet α} : ∀ {ts : List (Triplet α)}
    (_ : ts.Pairwise fun t u => t.position ≠ u.position) (_ : t ∈ ts),
    valuesAt ts t.row t.column = [t.value]
  | u :: us, h, ht => by
    obtain ⟨hu, hus⟩ := List.pairwise_cons.mp h
    by_cases hat : u.position = (t.row, t.column)
    · have htu : t = u := by
        rcases List.mem_cons.mp ht with htu | hmem
        · exact htu
        · exact absurd hat (hu t hmem)
      subst htu
      have hrest : valuesAt us t.row t.column = [] :=
        valuesAt_eq_nil fun v hv hvat => hu v hv hvat.symm
      rw [valuesAt_cons, if_pos hat, hrest]
    · have hmem : t ∈ us := by
        rcases List.mem_cons.mp ht with rfl | hmem
        · exact absurd rfl hat
        · exact hmem
      rw [valuesAt_cons, if_neg hat, valuesAt_eq_singleton hus hmem]

/-- The order of triplets at different positions has no part in the values there. -/
theorem valuesAt_congr_of_perm {ts us : List (Triplet α)}
    (h : ts.Pairwise fun t u => t.position ≠ u.position) (hperm : us.Perm ts) (i j : Nat) :
    valuesAt us i j = valuesAt ts i j := by
  have hvalues : (valuesAt us i j).Perm (valuesAt ts i j) := (hperm.filter _).map _
  by_cases hat : ∃ t ∈ ts, t.position = (i, j)
  · obtain ⟨t, ht, hpos⟩ := hat
    cases hpos
    rw [valuesAt_eq_singleton h ht] at hvalues ⊢
    exact List.perm_singleton.mp hvalues
  · rw [valuesAt_eq_nil fun t ht hpos => hat ⟨t, ht, hpos⟩] at hvalues ⊢
    exact List.perm_nil.mp hvalues

/-- Triplets at different positions are not merged. -/
theorem merge_eq_self [Add α] : ∀ {ts : List (Triplet α)},
    (ts.Pairwise fun t u => t.position ≠ u.position) → merge ts = ts
  | [], _ => rfl
  | [_], _ => rfl
  | t :: u :: us, h => by
    obtain ⟨ht, hrest⟩ := List.pairwise_cons.mp h
    have hmeets : ¬ t.meets u = true := by
      rw [meets, Bool.and_eq_true, beq_iff_eq, beq_iff_eq]
      rintro ⟨hcolumn, hrow⟩
      exact ht u List.mem_cons_self (Prod.ext hrow hcolumn)
    rw [merge, merge_eq_self hrest]
    exact if_neg hmeets

end Triplet

/-! ## Assemblies -/

namespace SparseMatrix

variable [Scalar α]

/-- **An assembly**: what it makes of triplets in range, no two of them at one position, is a matrix
of the size asked for.  Its entries are their values, and zero elsewhere. -/
def Assembles {ε : Type} (assemble : Nat → Nat → List (Triplet α) → Except ε (SparseMatrix α)) :
    Prop :=
  ∀ rowCount columnCount ts m, assemble rowCount columnCount ts = .ok m →
    (∀ t ∈ ts, t.row < rowCount ∧ t.column < columnCount) →
    (ts.Pairwise fun t u => t.position ≠ u.position) →
    m.rowCount = rowCount ∧ m.columnCount = columnCount ∧
      ∀ i j, i < rowCount → j < columnCount →
        m.entry i j = (Triplet.valuesAt ts i j).foldl (· + ·) 0

/-- **Sorting triplets and merging neighbours is an assembly.** -/
theorem assembles_ofTriplets : Assembles (ofTriplets (α := α)) := by
  intro rowCount columnCount ts m hm _ hpositions
  rw [ofTriplets] at hm
  split at hm
  · contradiction
  · obtain rfl := Except.ok.inj hm
    refine ⟨rfl, rfl, fun i j _ _ => ?_⟩
    have hperm : (ts.mergeSort Triplet.le).Perm ts := List.mergeSort_perm ts Triplet.le
    have hsorted : (ts.mergeSort Triplet.le).Pairwise fun t u => t.position ≠ u.position :=
      hperm.symm.pairwise hpositions fun hne => hne.symm
    rw [Triplet.merge_eq_self hsorted, ← Triplet.valuesAt_congr_of_perm hpositions hperm]
    rfl

end SparseMatrix

/-! ## Assemblies that refuse nothing but a size -/

namespace SparseMatrix

/-- **An assembly refuses by size alone**: from triplets in range it makes a matrix of any size that
it accepts. -/
def RefusesBySize {ε : Type} (accepts : Nat → Nat → Prop)
    (assemble : Nat → Nat → List (Triplet α) → Except ε (SparseMatrix α)) : Prop :=
  ∀ {rowCount columnCount : Nat} {ts : List (Triplet α)}, accepts rowCount columnCount →
    (∀ t ∈ ts, t.row < rowCount ∧ t.column < columnCount) →
      ∃ m, assemble rowCount columnCount ts = .ok m

/-- Sorting triplets and merging neighbours is refused by the number of columns alone. -/
theorem refusesBySize_ofTriplets [Add α] :
    RefusesBySize (fun _ columnCount => refusal? columnCount = none) (ofTriplets (α := α)) := by
  intro rowCount columnCount ts haccepts _
  rw [ofTriplets, haccepts]
  exact ⟨_, rfl⟩

end SparseMatrix

/-! ## The stacked system -/

namespace LinearSystem

variable [Scalar α]

/-- A system that fits a layout is stacked by assembling its triplets, and by nothing else. -/
theorem stackWith_of_fits_eq {ε : Type} [ToString ε]
    (assemble : Nat → Nat → List (Triplet α) → Except ε (SparseMatrix α))
    {s : LinearSystem α} {l : ColumnLayout} (h : s.Fits l) :
    s.stackWith assemble l
      = ((assemble s.size l.total (s.tripletsOver l)).mapError fun e =>
          .matrixRefused (toString e)).map fun m => ⟨m, s.rhs⟩ := by
  rw [stackWith, triplets_eq_ok_iff.mpr ⟨h, rfl⟩]
  rfl

/-- **A system that fits is refused only where its matrix is**, and for that reason. -/
theorem stackWith_of_fits_eq_error_iff {ε : Type} [ToString ε]
    {assemble : Nat → Nat → List (Triplet α) → Except ε (SparseMatrix α)}
    {s : LinearSystem α} {l : ColumnLayout} (h : s.Fits l) {fault : Fault α} :
    s.stackWith assemble l = .error fault ↔
      ∃ e, assemble s.size l.total (s.tripletsOver l) = .error e ∧
        fault = .matrixRefused (toString e) := by
  rw [stackWith_of_fits_eq assemble h, map_eq_error_iff, mapError_eq_error_iff]

/-- A system that fits is stacked where its matrix is assembled. -/
theorem stackWith_of_fits_of_ok {ε : Type} [ToString ε]
    {assemble : Nat → Nat → List (Triplet α) → Except ε (SparseMatrix α)}
    {s : LinearSystem α} {l : ColumnLayout} (h : s.Fits l) {m : SparseMatrix α}
    (hm : assemble s.size l.total (s.tripletsOver l) = .ok m) :
    s.stackWith assemble l = .ok ⟨m, s.rhs⟩ := by
  rw [stackWith_of_fits_eq assemble h, hm]
  rfl

/-- **At a position in the columns of a key there is its coefficient, unless that is zero or
missing.** -/
theorem valuesAt_tripletsOver {s : LinearSystem α} {l : ColumnLayout} (h : s.Fits l) {k : Key}
    {o d : Nat} (hk : l.column? k = some (o, d)) {c : Nat} (hc : c < d) (i : Nat) :
    Triplet.valuesAt (s.tripletsOver l) i (o + c)
      = (s.coefficient? i k c).toList.filter fun v => !(v == 0) := by
  have hmem := fun v => mem_tripletsOver_iff_coefficient h hk hc (i := i) (v := v)
  by_cases hat : ∃ v, ⟨i, o + c, v⟩ ∈ s.tripletsOver l
  · obtain ⟨v, hv⟩ := hat
    obtain ⟨hcoefficient, hvalue⟩ := (hmem v).mp hv
    have hsingle := Triplet.valuesAt_eq_singleton (pairwise_position_tripletsOver h) hv
    rw [hcoefficient, Option.toList_some, List.filter_singleton, hvalue]
    exact hsingle
  · rw [Triplet.valuesAt_eq_nil]
    · symm
      rw [List.filter_eq_nil_iff]
      intro v hv hvalue
      rw [Option.mem_toList] at hv
      exact hat ⟨v, (hmem v).mpr ⟨hv, (Bool.not_eq_true' _).mp hvalue⟩⟩
    · rintro ⟨_, _, v⟩ ht hpos
      cases hpos
      exact hat ⟨v, ht⟩

end LinearSystem

end SqpInequality

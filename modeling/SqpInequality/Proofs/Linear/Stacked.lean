import SqpInequality.Proofs.Binary64
import SqpInequality.Proofs.Linear.Assembly

/-!
# Proofs/Linear/Stacked — the stacked system has each coefficient in its row and column

A system that fits a layout is stacked without loss (`LinearSystem.stackWith_of_fits`): a
coefficient is found in the row of its inequality and the column of its component, and everything
else is zero.
-/

namespace SqpInequality

namespace LinearSystem

theorem coefficient?_eq_none {α : Type} {s : LinearSystem α} {i : Nat} {r : LinearRow α} {k : Key}
    (hr : s.get? i = some r) (hk : k ∉ r.keys) (c : Nat) : s.coefficient? i k c = none := by
  rw [Option.eq_none_iff_forall_ne_some]
  intro v hv
  obtain ⟨r', hr', b, hb, -⟩ := coefficient?_eq_some_iff.mp hv
  obtain rfl : r' = r := Option.some.inj (hr'.symm.trans hr)
  exact hk (List.mem_map_of_mem hb)

/-- A coefficient of a system that fits is in a row and in one of the columns of its key. -/
theorem Fits.bounds_of_coefficient? {α : Type} {s : LinearSystem α} {l : ColumnLayout}
    (h : s.Fits l) {i : Nat} {k : Key} {o d c : Nat} {v : α} (hk : l.column? k = some (o, d))
    (hv : s.coefficient? i k c = some v) : i < s.size ∧ c < d := by
  obtain ⟨r, hr, b, hb, hget⟩ := coefficient?_eq_some_iff.mp hv
  obtain ⟨d', hcolumn, hlt⟩ := h.column? (List.mem_of_getElem? hr) hb hget
  rw [hk] at hcolumn
  cases hcolumn
  exact ⟨(List.getElem?_eq_some_iff.mp hr).1, hlt⟩

/-- **A system that fits a layout is stacked over it.**  Its triplets are at different positions of
the matrix, and are the coefficients that are not zero, in the row of their inequality and the
column of their component.  The matrix that is assembled from them has one row for each inequality,
one column for each column of the layout, and the coefficients as its entries. -/
theorem stackWith_of_fits {ε : Type} [ToString ε]
    {assemble : Nat → Nat → List (Triplet Float) → Except ε (SparseMatrix Float)}
    (hassemble : SparseMatrix.Assembles assemble) {s : LinearSystem Float} {l : ColumnLayout}
    (hfits : s.Fits l) :
    ∃ ts, s.triplets l = .ok ts ∧
      (ts.Pairwise fun t u => t.position ≠ u.position) ∧
      (∀ t ∈ ts, t.row < s.size ∧ t.column < l.total) ∧
      (∀ i k o d c v, l.column? k = some (o, d) → c < d →
        (⟨i, o + c, v⟩ ∈ ts ↔ s.coefficient? i k c = some v ∧ (v == 0) = false)) ∧
      ∀ m, assemble s.size l.total ts = .ok m → s.stackWith assemble l = .ok ⟨m, s.rhs⟩ ∧
        m.rowCount = s.size ∧ m.columnCount = l.total ∧
        (∀ i k o d c v, l.column? k = some (o, d) → s.coefficient? i k c = some v →
          m.entry i (o + c) = if v == 0 then 0 else v) ∧
        (∀ i r k o d c, s.get? i = some r → k ∉ r.keys → l.column? k = some (o, d) → c < d →
          m.entry i (o + c) = 0) ∧
        s.rhs.length = s.size ∧ ∀ i r, s.get? i = some r → s.rhs[i]? = some r.rhs := by
  have htriplets : s.triplets l = .ok (s.tripletsOver l) := triplets_eq_ok_iff.mpr ⟨hfits, rfl⟩
  have hpositions := pairwise_position_tripletsOver hfits
  refine ⟨_, htriplets, hpositions, fun t ht => tripletsOver_in_range hfits ht,
    fun i k o d c v hk hc => mem_tripletsOver_iff_coefficient hfits hk hc, fun m hm => ?_⟩
  obtain ⟨hrows, hcolumns, hentry⟩ := hassemble _ _ _ m hm
    (fun t ht => tripletsOver_in_range hfits ht) hpositions
  -- at most one triplet is at a position, so there is nothing to sum but its value
  have hcolumn : ∀ {i k o d c}, i < s.size → l.column? k = some (o, d) → c < d →
      m.entry i (o + c)
        = ((s.coefficient? i k c).toList.filter fun v => !(v == 0)).foldl (· + ·) 0 := by
    intro i k o d c hi hk hc
    have hend := ColumnLayout.column?_bounds hk
    rw [hentry i (o + c) hi (by omega), valuesAt_tripletsOver hfits hk hc]
  refine ⟨stackWith_of_fits_of_ok hfits hm, hrows, hcolumns, fun i k o d c v hk hv => ?_,
    fun i r k o d c hr hkey hk hc => ?_, List.length_map _, fun i r hr => ?_⟩
  · obtain ⟨hi, hc⟩ := hfits.bounds_of_coefficient? hk hv
    rw [hcolumn hi hk hc, hv, Option.toList_some, List.filter_singleton]
    cases hvalue : v == 0 with
    | true => rfl
    | false => exact zero_add_float v hvalue
  · have hi := (List.getElem?_eq_some_iff.mp hr).1
    rw [hcolumn hi hk hc, coefficient?_eq_none hr hkey]
    rfl
  · rw [rhs, List.getElem?_map]
    exact congrArg (Option.map LinearRow.rhs) hr

/-- Two inequalities that mention two of three variables, with a zero of each sign. -/
def twoRows : LinearSystem Float where
  rows :=
    [ ⟨⟨[(1, .ofRow [1, -0.0])], [2], by decide, by decide⟩, 100, rfl⟩,
      ⟨⟨[(1, .ofRow [0, 5]), (0, .ofRow [3])], [-1], by decide, by decide⟩, 101, rfl⟩ ]

/-- Three variables, of which the one in the middle has no component. -/
def threeSlots : ColumnLayout := ⟨[(0, 1), (7, 0), (1, 2)], by decide⟩

theorem entries_of_twoRows :
    ∃ m, twoRows.stackWith SparseMatrix.ofTriplets threeSlots = .ok ⟨m, [2, -1]⟩ ∧
      m.rowCount = 2 ∧ m.columnCount = 3 ∧ m.entry 0 0 = 0 ∧ m.entry 0 2 = 0 ∧
      m.entry 1 2 = 5 ∧ m.entry 1 0 = 3 := by
  obtain ⟨ts, -, -, -, -, hmatrix⟩ :=
    stackWith_of_fits SparseMatrix.assembles_ofTriplets (s := twoRows) (l := threeSlots) (by decide)
  obtain ⟨hstack, hrows, hcolumns, hentry, hzero, -⟩ := hmatrix _ rfl
  refine ⟨_, hstack, hrows, hcolumns, ?_, ?_, ?_, ?_⟩
  · exact hzero 0 _ 0 0 1 0 rfl (by decide) rfl (by decide)
  · exact hentry 0 1 1 2 1 _ rfl rfl
  · exact hentry 1 1 1 2 1 _ rfl rfl
  · exact hentry 1 0 0 1 0 _ rfl rfl

end LinearSystem

end SqpInequality

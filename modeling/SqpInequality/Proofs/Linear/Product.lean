import SqpInequality.Proofs.Linear.Assembly
import SqpInequality.Proofs.Linear.Packing

/-!
# Proofs/Linear/Product — the stacked system and its rows have the same errors

In exact arithmetic a row of `matrix * x` is the sum over the triplets of that row
(`sum_valuesAt_mul`), and that is the sum over the terms of the inequality
(`sum_rowTripletsOver`).  So the product less the right-hand side is the list of the errors of the
rows (`LinearSystem.errors_eq_apply_sub_rhs`).
-/

namespace SqpInequality

/-- The product with a vector. -/
def SparseMatrix.apply {α : Type} [Scalar α] (m : SparseMatrix α) (x : Vec α) : Vec α :=
  (List.range m.rowCount).map fun i => Vec.weighted ((List.range m.columnCount).map (m.entry i)) x

/-- A step that supplies a layout supplies the inequalities that fit it. -/
theorem LinearSystem.Fits.supplied {α : Type} {s : LinearSystem α} {l : ColumnLayout}
    {step : VectorMap α} (h : s.Fits l) (hstep : l.SuppliedBy step) {r : LinearRow α}
    (hr : r ∈ s.rows) : r.model.Supplied step :=
  fun u hu => ColumnLayout.get?_of_suppliedBy hstep (h r hr u hu)

variable {α : Type} [ExactScalar α]

/-! ## A row of the product -/

/-- **The sum over the columns of a row is the sum over the triplets in it.** -/
theorem Triplet.sum_valuesAt_mul {n i : Nat} (y : Nat → α) : ∀ {ts : List (Triplet α)}
    (_ : ∀ t ∈ ts, t.column < n),
    ∑ j ∈ Finset.range n, (valuesAt ts i j).sum * y j
      = ((ts.filter fun t => t.row == i).map fun t => t.value * y t.column).sum
  | [], _ => Finset.sum_eq_zero fun j _ => zero_mul _
  | t :: ts, h => by
    obtain ⟨ht, hts⟩ := List.forall_mem_cons.mp h
    have ih := sum_valuesAt_mul y (i := i) hts
    by_cases hrow : t.row = i
    -- the first triplet adds to one column only, which is in range
    · have hfirst : ∀ j, (valuesAt (t :: ts) i j).sum * y j
          = (if t.column = j then t.value * y j else 0) + (valuesAt ts i j).sum * y j := by
        intro j
        rw [valuesAt_cons, position, hrow]
        by_cases hcolumn : t.column = j
        · rw [hcolumn, if_pos rfl, if_pos rfl, List.sum_cons, add_mul]
        · rw [if_neg (fun heq => hcolumn (Prod.mk.inj heq).2), if_neg hcolumn, zero_add]
      rw [Finset.sum_congr rfl fun j _ => hfirst j, Finset.sum_add_distrib, Finset.sum_ite_eq,
        if_pos (Finset.mem_range.mpr ht), ih, List.filter_cons, if_pos (beq_iff_eq.mpr hrow),
        List.map_cons, List.sum_cons]
    · have hskip : ∀ j, valuesAt (t :: ts) i j = valuesAt ts i j := by
        intro j
        have hposition : t.position ≠ (i, j) := fun heq => hrow (congrArg Prod.fst heq)
        rw [valuesAt_cons, if_neg hposition]
      simp only [hskip]
      rw [ih, List.filter_cons, if_neg fun heq => hrow (beq_iff_eq.mp heq)]

namespace LinearSystem

/-- Zeros that are not stored have no part in a product. -/
theorem sum_coefficientTriplets (i : Nat) (y : Nat → α) : ∀ {o : Nat} {cs v : Vec α},
    cs.length = v.length → (∀ c, c < v.length → v[c]? = some (y (o + c))) →
    ((coefficientTriplets i o cs).map fun t => t.value * y t.column).sum = Vec.weighted cs v
  | _, [], [], _, _ => rfl
  | o, a :: cs, b :: v, hlength, hy => by
    have hb : b = y o := Option.some.inj (hy 0 (Nat.succ_pos _))
    have ih := sum_coefficientTriplets i y (o := o + 1) (Nat.succ.inj hlength) fun c hc => by
      have hnext := hy (c + 1) (Nat.succ_lt_succ hc)
      rwa [List.getElem?_cons_succ, Nat.add_comm c 1, ← Nat.add_assoc] at hnext
    rw [coefficientTriplets_cons, List.map_append, List.sum_append, ih, Vec.weighted_cons_cons, hb]
    by_cases ha : (a == 0) = true
    · rw [if_pos ha, (ExactScalar.beq_iff_eq a 0).mp ha, zero_mul]
      rfl
    · rw [if_neg ha, List.map_singleton, List.sum_singleton]

/-- **The sum over the triplets of an inequality is the sum over its terms.** -/
theorem sum_rowTripletsOver {l : ColumnLayout} {s : LinearSystem α} {r : LinearRow α} (i : Nat)
    {step : VectorMap α} {x : Vec α} (hfits : s.Fits l) (hr : r ∈ s.rows)
    (hstep : l.SuppliedBy step) (hx : l.Packs step x) :
    ((rowTripletsOver l r i).map fun t => t.value * x.getD t.column 0).sum
      = (r.model.terms.map fun u => Vec.weighted u.2.row (step.vector u.1)).sum := by
  rw [rowTripletsOver, List.map_flatMap, List.flatMap_def, List.sum_flatten, List.map_map]
  congr 1
  refine List.map_congr_left fun u hu => ?_
  obtain ⟨v, hv, hlength⟩ := ColumnLayout.get?_of_suppliedBy hstep (hfits r hr u hu)
  obtain ⟨o, ho⟩ := ColumnLayout.dimension?_eq_some_iff.mp (hfits r hr u hu)
  rw [Function.comp_apply, ColumnLayout.offset_eq ho, VectorMap.vector_eq hv]
  refine sum_coefficientTriplets i (fun j => x.getD j 0) ?_ fun c hc => ?_
  · rw [Block.length_row (r.rowCount_eq_one hu), hlength]
  · have hget := hx.getElem?_eq u.1 o u.2.columnCount c ho (hlength ▸ hc)
    rw [VectorMap.vector_eq hv, List.getElem?_eq_getElem hc] at hget
    rw [List.getElem?_eq_getElem hc, List.getD_eq_getElem?_getD, hget, Option.getD_some]

/-! ## The whole product -/

theorem filter_row_rowTripletsOver (l : ColumnLayout) (r : LinearRow α) (i j : Nat) :
    (rowTripletsOver l r i).filter (fun t => t.row == j)
      = if i = j then rowTripletsOver l r i else [] := by
  split
  · rename_i hij
    subst hij
    exact List.filter_eq_self.mpr fun t ht => beq_iff_eq.mpr (mem_rowTripletsOver.mp ht).1
  · rename_i hij
    refine List.filter_eq_nil_iff.mpr fun t ht heq => hij ?_
    rw [← (mem_rowTripletsOver.mp ht).1, beq_iff_eq.mp heq]

/-- The triplets of a row are those of its inequality. -/
theorem filter_row_flatMap_zipIdx {l : ColumnLayout} {r : LinearRow α} :
    ∀ {rows : List (LinearRow α)} {n i : Nat}, rows[i]? = some r →
      ((rows.zipIdx n).flatMap fun e => rowTripletsOver l e.1 e.2).filter
        (fun t => t.row == n + i) = rowTripletsOver l r (n + i)
  | r' :: rows, n, 0, h => by
    obtain rfl : r' = r := Option.some.inj h
    have hlater : ((rows.zipIdx (n + 1)).flatMap fun e => rowTripletsOver l e.1 e.2).filter
        (fun t => t.row == n) = [] := by
      rw [List.filter_flatMap, List.flatMap_eq_nil_iff]
      intro e he
      have hindex := List.le_snd_of_mem_zipIdx he
      rw [filter_row_rowTripletsOver, if_neg (by omega)]
    rw [List.zipIdx_cons, List.flatMap_cons, List.filter_append, Nat.add_zero, hlater,
      List.append_nil, filter_row_rowTripletsOver, if_pos rfl]
  | r' :: rows, n, i + 1, h => by
    rw [List.zipIdx_cons, List.flatMap_cons, List.filter_append, filter_row_rowTripletsOver,
      if_neg (by omega), List.nil_append, ← Nat.add_assoc, Nat.add_right_comm]
    exact filter_row_flatMap_zipIdx (List.getElem?_cons_succ.symm.trans h)

/-- **The triplets in a row are those of its inequality.** -/
theorem filter_row_tripletsOver {s : LinearSystem α} {i : Nat} {r : LinearRow α}
    (h : s.get? i = some r) (l : ColumnLayout) :
    (s.tripletsOver l).filter (fun t => t.row == i) = rowTripletsOver l r i := by
  have hrow := filter_row_flatMap_zipIdx (l := l) (n := 0) h
  rwa [Nat.zero_add] at hrow

/-- **The product of the matrix with a packed step has in each row the left side of its
inequality.** -/
theorem apply_eq_map_excess {ε : Type} {assemble : Nat → Nat → List (Triplet α) →
      Except ε (SparseMatrix α)} (hassemble : SparseMatrix.Assembles assemble)
    {s : LinearSystem α} {l : ColumnLayout} {m : SparseMatrix α} {step : VectorMap α} {x : Vec α}
    (hfits : s.Fits l) (hm : assemble s.size l.total (s.tripletsOver l) = .ok m)
    (hstep : l.SuppliedBy step) (hx : l.Packs step x) :
    m.apply x = s.rows.map fun r => r.excess step + r.rhs := by
  obtain ⟨hrows, hcolumns, hentry⟩ := hassemble _ _ _ m hm
    (fun t ht => tripletsOver_in_range hfits ht) (pairwise_position_tripletsOver hfits)
  have hlength : (m.apply x).length = s.rows.length := by
    rw [SparseMatrix.apply, List.length_map, List.length_range, hrows]
    rfl
  have hvalues : ∀ i < s.size, ∀ j < l.total,
      m.entry i j = (Triplet.valuesAt (s.tripletsOver l) i j).sum := by
    intro i hi j hj
    rw [hentry i j hi hj, Vec.foldl_add_eq, zero_add]
  have hinside : ∀ t ∈ s.tripletsOver l, t.column < x.length := fun t ht =>
    hx.length_eq ▸ (tripletsOver_in_range hfits ht).2
  refine List.ext_getElem (hlength.trans (List.length_map _).symm) fun i hi _ => ?_
  have hlt : i < s.rows.length := hlength ▸ hi
  have hr : s.get? i = some s.rows[i] := List.getElem?_eq_getElem hlt
  have hproduct : Vec.weighted ((List.range m.columnCount).map (m.entry i)) x
      = s.rows[i].excess step + s.rows[i].rhs := by
    rw [hcolumns, ← hx.length_eq, Vec.weighted_map_range, Finset.sum_congr rfl fun j hj => by
        rw [hvalues i hlt j (hx.length_eq ▸ Finset.mem_range.mp hj)],
      Triplet.sum_valuesAt_mul (fun j => x.getD j 0) hinside, filter_row_tripletsOver hr,
      sum_rowTripletsOver i hfits (List.getElem_mem hlt) hstep hx, LinearRow.excess, sub_add_cancel]
  rw [List.getElem_map, ← hproduct]
  simp only [SparseMatrix.apply, List.getElem_map, List.getElem_range]

/-- **The product of the matrix with a packed step, less the right-hand side, is the list of the
errors of the rows.  So a step is feasible for the stacked system exactly if it is for each row, at
every tolerance.** -/
theorem errors_eq_apply_sub_rhs {ε : Type} [ToString ε] {assemble : Nat → Nat →
      List (Triplet α) → Except ε (SparseMatrix α)} (hassemble : SparseMatrix.Assembles assemble)
    {s : LinearSystem α} {l : ColumnLayout} {stacked : StackedSystem α} {step : VectorMap α}
    (hstacked : s.stackWith assemble l = .ok stacked) (hstep : l.SuppliedBy step) :
    (∃ x, l.Packs step x) ∧ ∀ x, l.Packs step x →
      (stacked.matrix.apply x).length = stacked.rhs.length ∧
      s.errors step = .ok (Vec.sub (stacked.matrix.apply x) stacked.rhs) ∧
      ∀ tolerance, List.Forall₂ (fun left right => left ≤ right + tolerance)
          (stacked.matrix.apply x) stacked.rhs ↔
        ∀ r ∈ s.rows, r.isSatisfied step tolerance = .ok true := by
  obtain ⟨ts, hts, hmatrix⟩ := bind_eq_ok_iff.mp hstacked
  obtain ⟨hfits, rfl⟩ := triplets_eq_ok_iff.mp hts
  obtain ⟨m, hassembled, rfl⟩ := map_eq_ok_iff.mp hmatrix
  have hm := mapError_eq_ok_iff.mp hassembled
  have herror : ∀ r ∈ s.rows, r.error step = .ok (r.excess step) := fun r hr =>
    LinearRow.error_eq_excess (hfits.supplied hstep hr)
  refine ⟨⟨_, ColumnLayout.packs_pack hstep⟩, fun x hx => ?_⟩
  have happly := apply_eq_map_excess hassemble hfits hm hstep hx
  refine ⟨?_, ?_, fun tolerance => ?_⟩
  · rw [happly, rhs, List.length_map, List.length_map]
  · have hdifference : Vec.sub (m.apply x) s.rhs = s.rows.map fun r => r.excess step := by
      rw [happly, rhs, Vec.sub, List.zipWith_map, List.zipWith_self]
      exact List.map_congr_left fun r _ => add_sub_cancel_right _ _
    rw [hdifference, errors, mapM_eq_ok_iff, List.forall₂_map_right_iff, List.forall₂_same]
    exact herror
  · rw [happly, rhs, List.forall₂_map_left_iff, List.forall₂_map_right_iff, List.forall₂_same]
    refine forall₂_congr fun r hr => ?_
    rw [LinearRow.isSatisfied_iff (herror r hr), add_comm, add_le_add_iff_left]

/-- Two inequalities, the second of which has its terms in another order than the columns. -/
def crossed : LinearSystem ℚ where
  rows :=
    [ ⟨⟨[(1, .ofRow [1, -1])], [2], by decide, by decide⟩, 100, rfl⟩,
      ⟨⟨[(1, .ofRow [0, 5]), (0, .ofRow [3])], [-1], by decide, by decide⟩, 101, rfl⟩ ]

/-- A layout with a variable that the inequalities do not mention. -/
def crossedLayout : ColumnLayout := ⟨[(0, 1), (7, 2), (1, 2)], by decide⟩

/-- A step with an entry that has no columns. -/
def crossedStep : VectorMap ℚ := .ofList [(0, [2]), (1, [4, -1]), (5, [9]), (7, [6, 6])]

theorem apply_sub_rhs_of_crossed :
    ∃ stacked, crossed.stackWith SparseMatrix.ofTriplets crossedLayout = .ok stacked ∧
      Vec.sub (stacked.matrix.apply [2, 6, 6, 4, -1]) stacked.rhs = [3, 2] ∧
      List.Forall₂ (fun left right => left ≤ right + 3)
        (stacked.matrix.apply [2, 6, 6, 4, -1]) stacked.rhs := by
  have hstep : crossedLayout.SuppliedBy crossedStep := by decide
  refine ⟨_, rfl, ?_⟩
  obtain ⟨-, hpacked⟩ := errors_eq_apply_sub_rhs SparseMatrix.assembles_ofTriplets
    (s := crossed) (l := crossedLayout) rfl hstep
  obtain ⟨-, herrors, hfeasible⟩ := hpacked [2, 6, 6, 4, -1] (ColumnLayout.packs_pack hstep)
  have hvalues : crossed.errors crossedStep = .ok [3, 2] := by
    refine mapM_eq_ok_iff.mpr (.cons ?_ (.cons ?_ .nil))
    all_goals exact congrArg Except.ok (by decide +kernel)
  refine ⟨Except.ok.inj (herrors.symm.trans hvalues), (hfeasible 3).mpr ?_⟩
  rw [← List.forall_iff_forall_mem]
  refine ⟨?_, ?_⟩
  all_goals exact (LinearRow.isSatisfied_iff rfl).mpr (by decide +kernel)

end LinearSystem

end SqpInequality

import SqpInequality.Proofs.Linear.Evaluation
import SqpInequality.Linear.Stacked
import SqpInequality.Proofs.Linear.Columns

/-!
# Proofs/Linear/Triplets — one triplet for each coefficient that is not zero

The triplets of a system exist exactly when the system fits the layout
(`LinearSystem.triplets_eq_ok_iff`).  Their positions differ pairwise, since no inequality has two
blocks for one key and no two keys share a column (`pairwise_position_tripletsOver`), and they are
the coefficients that are not zero (`mem_tripletsOver_iff_coefficient`).
-/

namespace SqpInequality

variable {α : Type}

/-! ## Coefficients -/

/-- Where the columns of a key start, zero if it is not listed. -/
def ColumnLayout.offset (l : ColumnLayout) (k : Key) : Nat := ((l.column? k).getD (0, 0)).1

theorem ColumnLayout.offset_eq {l : ColumnLayout} {k : Key} {o d : Nat}
    (h : l.column? k = some (o, d)) : l.offset k = o := by
  rw [offset, h, Option.getD_some]

/-- Where a triplet is. -/
def Triplet.position (t : Triplet α) : Nat × Nat := (t.row, t.column)

theorem LinearModel.block?_eq_some_iff {m : LinearModel α} {k : Key} {b : Block α} :
    m.block? k = some b ↔ (k, b) ∈ m.terms := by
  rw [block?, List.lookup_eq_some_iff]
  constructor
  · rintro ⟨before, after, hterms, -⟩
    rw [hterms]
    exact List.mem_append_right _ List.mem_cons_self
  · intro h
    obtain ⟨before, after, hterms⟩ := List.append_of_mem h
    refine ⟨before, after, hterms, fun t ht => bne_iff_ne.mpr fun hk => ?_⟩
    have hdistinct := m.distinct
    rw [hterms, List.map_append, List.map_cons, List.nodup_append] at hdistinct
    exact hdistinct.2.2 t.1 (List.mem_map_of_mem ht) k List.mem_cons_self hk.symm

namespace LinearSystem

/-- The coefficient of inequality `i` for component `c` of a key, if the inequality mentions it. -/
def coefficient? (s : LinearSystem α) (i : Nat) (k : Key) (c : Nat) : Option α :=
  (s.get? i).bind fun r => (r.coefficients? k).bind fun b => b.row[c]?

/-- **A system fits a layout**: every key of every inequality is listed, with as many columns as its
block has. -/
def Fits (s : LinearSystem α) (l : ColumnLayout) : Prop :=
  ∀ r ∈ s.rows, ∀ t ∈ r.model.terms, l.dimension? t.1 = some t.2.columnCount

instance (s : LinearSystem α) (l : ColumnLayout) : Decidable (s.Fits l) :=
  inferInstanceAs (Decidable (∀ r ∈ s.rows, ∀ t ∈ r.model.terms,
    l.dimension? t.1 = some t.2.columnCount))

theorem coefficient?_eq_some_iff {s : LinearSystem α} {i : Nat} {k : Key} {c : Nat} {v : α} :
    s.coefficient? i k c = some v ↔
      ∃ r, s.get? i = some r ∧ ∃ b, (k, b) ∈ r.model.terms ∧ b.row[c]? = some v := by
  rw [coefficient?, Option.bind_eq_some_iff]
  refine exists_congr fun r => and_congr_right fun _ => ?_
  rw [Option.bind_eq_some_iff]
  exact exists_congr fun b => and_congr_left fun _ => LinearModel.block?_eq_some_iff

/-- A coefficient of a system that fits is in a column of its key. -/
theorem Fits.column? {s : LinearSystem α} {l : ColumnLayout} (h : s.Fits l) {r : LinearRow α}
    (hr : r ∈ s.rows) {u : Key × Block α} (hu : u ∈ r.model.terms) {c : Nat} {v : α}
    (hc : u.2.row[c]? = some v) :
    ∃ d, l.column? u.1 = some (l.offset u.1, d) ∧ c < d := by
  obtain ⟨o, ho⟩ := ColumnLayout.dimension?_eq_some_iff.mp (h r hr u hu)
  obtain ⟨hlt, -⟩ := List.getElem?_eq_some_iff.mp hc
  rw [Block.length_row (r.rowCount_eq_one hu)] at hlt
  exact ⟨u.2.columnCount, by rw [ColumnLayout.offset_eq ho, ho], hlt⟩

/-! ## The triplets of one term -/

variable [Scalar α]

theorem coefficientTriplets_cons (i o : Nat) (a : α) (cs : Vec α) :
    coefficientTriplets i o (a :: cs)
      = (if a == 0 then [] else [⟨i, o, a⟩]) ++ coefficientTriplets i (o + 1) cs := by
  rw [coefficientTriplets, List.zipIdx_cons, List.filterMap_cons, coefficientTriplets]
  by_cases ha : (a == 0) = true
  · simp only [if_pos ha, List.nil_append]
  · simp only [if_neg ha, List.singleton_append]

theorem mem_coefficientTriplets {i o : Nat} {cs : Vec α} {t : Triplet α} :
    t ∈ coefficientTriplets i o cs ↔
      t.row = i ∧ (t.value == 0) = false ∧ ∃ c, t.column = o + c ∧ cs[c]? = some t.value := by
  rw [coefficientTriplets, List.mem_filterMap]
  constructor
  · rintro ⟨⟨a, j⟩, hmem, ht⟩
    obtain ⟨hle, hget⟩ := List.mk_mem_zipIdx_iff_le_and_getElem?_sub.mp hmem
    by_cases ha : (a == 0) = true
    · rw [if_pos ha] at ht
      contradiction
    · rw [if_neg ha] at ht
      obtain rfl := Option.some.inj ht
      exact ⟨rfl, Bool.eq_false_iff.mpr ha, j - o, (Nat.add_sub_of_le hle).symm, hget⟩
  · rintro ⟨rfl, hvalue, c, hc, hget⟩
    refine ⟨(t.value, t.column), ?_, ?_⟩
    · refine List.mk_mem_zipIdx_iff_le_and_getElem?_sub.mpr ⟨by omega, ?_⟩
      rwa [hc, Nat.add_sub_cancel_left]
    · exact if_neg (Bool.eq_false_iff.mp hvalue)

theorem pairwise_position_coefficientTriplets (i : Nat) : ∀ (o : Nat) (cs : Vec α),
    (coefficientTriplets i o cs).Pairwise fun t u => t.position ≠ u.position
  | _, [] => .nil
  | o, a :: cs => by
    rw [coefficientTriplets_cons, List.pairwise_append]
    refine ⟨?_, pairwise_position_coefficientTriplets i (o + 1) cs, ?_⟩
    · split
      · exact .nil
      · exact List.pairwise_singleton _ _
    · intro t ht u hu heq
      have hcolumn : t.column = o := by
        split at ht
        · cases ht
        · rw [List.mem_singleton.mp ht]
      obtain ⟨-, -, c, hc, -⟩ := mem_coefficientTriplets.mp hu
      have hsame : t.column = u.column := congrArg Prod.snd heq
      omega

/-! ## The triplets of a system -/

/-- The triplets of inequality `i`. -/
def rowTripletsOver (l : ColumnLayout) (r : LinearRow α) (i : Nat) : List (Triplet α) :=
  r.model.terms.flatMap fun t => coefficientTriplets i (l.offset t.1) t.2.row

/-- The triplets of all inequalities, row by row. -/
def tripletsOver (l : ColumnLayout) (s : LinearSystem α) : List (Triplet α) :=
  s.rows.zipIdx.flatMap fun e => rowTripletsOver l e.1 e.2

theorem termTriplets_eq_ok_iff {l : ColumnLayout} {i : Nat} {dualKey : Key} (t : Key × Block α)
    (ts : List (Triplet α)) : termTriplets l i dualKey t = .ok ts ↔
      l.dimension? t.1 = some t.2.columnCount ∧
        ts = coefficientTriplets i (l.offset t.1) t.2.row := by
  rw [termTriplets, ColumnLayout.dimension?_eq_some_iff]
  constructor
  · intro h
    split at h
    · contradiction
    · rename_i o d hcolumn
      split at h
      · rename_i hd
        obtain rfl := Except.ok.inj h
        rw [ColumnLayout.offset_eq hcolumn]
        exact ⟨⟨o, hd ▸ hcolumn⟩, rfl⟩
      · contradiction
  · rintro ⟨⟨o, hcolumn⟩, rfl⟩
    rw [hcolumn, ColumnLayout.offset_eq hcolumn]
    exact if_pos rfl

theorem rowTriplets_eq_ok_iff {l : ColumnLayout} (r : LinearRow α) (i : Nat)
    (ts : List (Triplet α)) : rowTriplets l r i = .ok ts ↔
      (∀ t ∈ r.model.terms, l.dimension? t.1 = some t.2.columnCount) ∧
        ts = rowTripletsOver l r i := by
  simp only [rowTriplets, map_eq_ok_iff, mapM_eq_ok_iff_of termTriplets_eq_ok_iff]
  constructor
  · rintro ⟨_, ⟨hfits, rfl⟩, rfl⟩
    exact ⟨hfits, List.flatMap_def.symm⟩
  · rintro ⟨hfits, rfl⟩
    exact ⟨_, ⟨hfits, rfl⟩, List.flatMap_def.symm⟩

/-- **The triplets of a system exist exactly when it fits the layout.** -/
theorem triplets_eq_ok_iff {s : LinearSystem α} {l : ColumnLayout} {ts : List (Triplet α)} :
    s.triplets l = .ok ts ↔ s.Fits l ∧ ts = s.tripletsOver l := by
  simp only [triplets, map_eq_ok_iff, mapM_eq_ok_iff_of fun e : LinearRow α × Nat =>
    rowTriplets_eq_ok_iff e.1 e.2]
  constructor
  · rintro ⟨_, ⟨hfits, rfl⟩, rfl⟩
    refine ⟨fun r hr => ?_, List.flatMap_def.symm⟩
    obtain ⟨i, hi⟩ := List.mem_iff_getElem?.mp hr
    exact hfits (r, i) (List.mk_mem_zipIdx_iff_getElem?.mpr hi)
  · rintro ⟨hfits, rfl⟩
    exact ⟨_, ⟨fun e he => hfits e.1 (List.fst_mem_of_mem_zipIdx he), rfl⟩,
      List.flatMap_def.symm⟩

/-! ## Where the triplets are -/

theorem mem_rowTripletsOver {l : ColumnLayout} {r : LinearRow α} {i : Nat} {t : Triplet α} :
    t ∈ rowTripletsOver l r i ↔ t.row = i ∧ (t.value == 0) = false ∧
      ∃ u ∈ r.model.terms, ∃ c, t.column = l.offset u.1 + c ∧ u.2.row[c]? = some t.value := by
  rw [rowTripletsOver, List.mem_flatMap]
  constructor
  · rintro ⟨u, hu, ht⟩
    obtain ⟨hrow, hvalue, hc⟩ := mem_coefficientTriplets.mp ht
    exact ⟨hrow, hvalue, u, hu, hc⟩
  · rintro ⟨hrow, hvalue, u, hu, hc⟩
    exact ⟨u, hu, mem_coefficientTriplets.mpr ⟨hrow, hvalue, hc⟩⟩

theorem mem_tripletsOver {l : ColumnLayout} {s : LinearSystem α} {t : Triplet α} :
    t ∈ s.tripletsOver l ↔ ∃ r, s.get? t.row = some r ∧ t ∈ rowTripletsOver l r t.row := by
  rw [tripletsOver, List.mem_flatMap]
  constructor
  · rintro ⟨⟨r, i⟩, hmem, ht⟩
    obtain rfl : t.row = i := (mem_rowTripletsOver.mp ht).1
    exact ⟨r, List.mk_mem_zipIdx_iff_getElem?.mp hmem, ht⟩
  · rintro ⟨r, hr, ht⟩
    exact ⟨(r, t.row), List.mk_mem_zipIdx_iff_getElem?.mpr hr, ht⟩

/-- **Every triplet is at a position of the matrix.** -/
theorem tripletsOver_in_range {s : LinearSystem α} {l : ColumnLayout} (h : s.Fits l)
    {t : Triplet α} (ht : t ∈ s.tripletsOver l) : t.row < s.size ∧ t.column < l.total := by
  obtain ⟨r, hr, htriplet⟩ := mem_tripletsOver.mp ht
  obtain ⟨-, -, u, hu, c, hc, hvalue⟩ := mem_rowTripletsOver.mp htriplet
  obtain ⟨d, hcolumn, hlt⟩ := h.column? (List.mem_of_getElem? hr) hu hvalue
  have hend := ColumnLayout.column?_bounds hcolumn
  exact ⟨(List.getElem?_eq_some_iff.mp hr).1, by omega⟩

/-- **No two triplets are at one position.** -/
theorem pairwise_position_tripletsOver {s : LinearSystem α} {l : ColumnLayout} (h : s.Fits l) :
    (s.tripletsOver l).Pairwise fun t u => t.position ≠ u.position := by
  have hindices : s.rows.zipIdx.Pairwise fun e f => e.2 ≠ f.2 := by
    have hnodup : (s.rows.zipIdx.map Prod.snd).Nodup := by
      rw [List.zipIdx_map_snd]
      exact List.nodup_range'
    exact List.pairwise_map.mp hnodup
  rw [tripletsOver, List.pairwise_flatMap]
  refine ⟨fun e he => ?_, hindices.imp fun hne t ht u hu heq => ?_⟩
  -- in one row the keys of the terms differ, and no two keys share a column
  · have hr : e.1 ∈ s.rows := List.fst_mem_of_mem_zipIdx he
    have hkeys : e.1.model.terms.Pairwise fun t u => t.1 ≠ u.1 :=
      List.pairwise_map.mp e.1.model.distinct
    rw [rowTripletsOver, List.pairwise_flatMap]
    refine ⟨fun u _ => pairwise_position_coefficientTriplets e.2 _ _, ?_⟩
    refine hkeys.imp_of_mem fun hu hv hne t ht t' ht' heq => hne ?_
    obtain ⟨-, -, c, hc, hget⟩ := mem_coefficientTriplets.mp ht
    obtain ⟨-, -, c', hc', hget'⟩ := mem_coefficientTriplets.mp ht'
    obtain ⟨d, hcolumn, hlt⟩ := h.column? hr hu hget
    obtain ⟨d', hcolumn', hlt'⟩ := h.column? hr hv hget'
    have hsame : t.column = t'.column := congrArg Prod.snd heq
    exact (ColumnLayout.eq_of_column_eq hcolumn hcolumn' hlt hlt' (by omega)).1
  -- two rows have different numbers
  · have hsame : t.row = u.row := congrArg Prod.fst heq
    rw [(mem_rowTripletsOver.mp ht).1, (mem_rowTripletsOver.mp hu).1] at hsame
    exact hne hsame

/-- **The triplets in the columns of a key are its coefficients that are not zero.** -/
theorem mem_tripletsOver_iff_coefficient {s : LinearSystem α} {l : ColumnLayout} (h : s.Fits l)
    {k : Key} {o d : Nat} (hk : l.column? k = some (o, d)) {c : Nat} (hc : c < d) {i : Nat}
    {v : α} : ⟨i, o + c, v⟩ ∈ s.tripletsOver l ↔
      s.coefficient? i k c = some v ∧ (v == 0) = false := by
  rw [mem_tripletsOver, coefficient?_eq_some_iff]
  constructor
  · rintro ⟨r, hr, ht⟩
    obtain ⟨-, hvalue, ⟨j, b⟩, hu, c', hc', hget⟩ := mem_rowTripletsOver.mp ht
    obtain ⟨d', hcolumn, hlt⟩ := h.column? (List.mem_of_getElem? hr) hu hget
    obtain ⟨rfl, rfl⟩ := ColumnLayout.eq_of_column_eq hk hcolumn hc hlt hc'
    exact ⟨⟨r, hr, b, hu, hget⟩, hvalue⟩
  · rintro ⟨⟨r, hr, b, hb, hget⟩, hvalue⟩
    refine ⟨r, hr, mem_rowTripletsOver.mpr ⟨rfl, hvalue, (k, b), hb, c, ?_, hget⟩⟩
    rw [ColumnLayout.offset_eq hk]

end LinearSystem

end SqpInequality

import SqpInequality.Proofs.Binary64

/-!
# Proofs/Binary64/Rank — doubles that are numbers stand in one row

    -∞ < negative doubles < zeros < positive doubles < ∞        (no number: nowhere)

A comparison is one of places in this row (`lt_iff_rank`), so it is transitive (`float_lt_trans`),
and a number between two doubles cannot be beyond both (`float_lt_or_lt`).  From this the larger of
some doubles does not depend on how they are grouped (`larger_assoc`).
-/

open Float.Model Float.Model.UnpackedFloat

namespace SqpInequality

/-! ## The row -/

/-- The place of a double in the row: the part of the row that it is in, and there its exponent and
its mantissa, mirrored below zero.  What is no number has no place of its own. -/
def rank : UnpackedFloat → ℤ ×ₗ ℤ ×ₗ ℤ
  | .infinity .negative => toLex (-2, toLex (0, 0))
  | .finite .negative m e _ => toLex (-1, toLex (-e, -m))
  | .zero _ | .notANumber => toLex (0, toLex (0, 0))
  | .finite .positive m e _ => toLex (1, toLex (e, m))
  | .infinity .positive => toLex (2, toLex (0, 0))

theorem rank_lt_iff {a b a' b' a'' b'' : ℤ} :
    (toLex (a, toLex (a', a'')) : ℤ ×ₗ ℤ ×ₗ ℤ) < toLex (b, toLex (b', b'')) ↔
      a < b ∨ a = b ∧ (a' < b' ∨ a' = b' ∧ a'' < b'') := by
  rw [Prod.Lex.toLex_lt_toLex, Prod.Lex.toLex_lt_toLex]

theorem compare_then_eq_lt_iff {e f : ℤ} {m n : ℕ} :
    (compare e f).then (compare m n) = .lt ↔ e < f ∨ e = f ∧ m < n := by
  rw [Ordering.then_eq_lt, compare_lt_iff_lt, compare_eq_iff_eq, compare_lt_iff_lt]

theorem compare_then_eq_gt_iff {e f : ℤ} {m n : ℕ} :
    (compare e f).then (compare m n) = .gt ↔ f < e ∨ e = f ∧ n < m := by
  rw [Ordering.then_eq_gt, compare_gt_iff_gt, compare_eq_iff_eq, compare_gt_iff_gt]

/-- **A comparison of doubles is one of numbers by their places in the row.** -/
theorem lt_iff_rank (x y : UnpackedFloat) :
    x.lt y = true ↔ x.isNaN = false ∧ y.isNaN = false ∧ rank x < rank y := by
  -- Within one part of the row exponents and mantissas decide, across parts their order.
  have hsign : compare Sign.negative Sign.positive = .lt := rfl
  rw [UnpackedFloat.lt, beq_iff_eq]
  rcases x with (_ | _) | _ | _ | ⟨_ | _, m, e, hm⟩ <;>
    rcases y with (_ | _) | _ | _ | ⟨_ | _, n, f, hn⟩ <;>
    simp [UnpackedFloat.compare, UnpackedFloat.isNaN, rank, rank_lt_iff, compare_then_eq_lt_iff,
      compare_then_eq_gt_iff, hsign]

theorem le_iff_not_lt (x y : UnpackedFloat) :
    x.le y = true ↔ x.isNaN = false ∧ y.isNaN = false ∧ ¬ y.lt x = true := by
  have hsign : compare Sign.negative Sign.positive = .lt := rfl
  have hsign' : compare Sign.positive Sign.negative = .gt := rfl
  have hgt {e f : ℤ} {m n : ℕ} : (compare e f).then (compare m n) = .gt ↔ f < e ∨ f = e ∧ n < m :=
    compare_then_eq_gt_iff.trans (by rw [eq_comm])
  rw [UnpackedFloat.lt, UnpackedFloat.le, beq_iff_eq]
  rcases x with (_ | _) | _ | _ | ⟨_ | _, m, e, hm⟩ <;>
    rcases y with (_ | _) | _ | _ | ⟨_ | _, n, f, hn⟩ <;>
    simp [UnpackedFloat.compare, UnpackedFloat.isNaN, compare_then_eq_lt_iff, hgt, hsign, hsign',
      Ordering.isLE_iff_ne_gt, Ordering.isGE_iff_ne_lt]

/-! ## The order of doubles -/

theorem float_lt_iff_rank {x y : Float} :
    x < y ↔ x.isNaN = false ∧ y.isNaN = false ∧
      rank x.toModel.unpack < rank y.toModel.unpack := (float_lt_iff x y).trans (lt_iff_rank _ _)

/-- What is larger than something is a number. -/
theorem isNaN_of_float_lt {x y : Float} (h : x < y) : y.isNaN = false :=
  (float_lt_iff_rank.mp h).2.1

theorem float_lt_trans {x y z : Float} (hxy : x < y) (hyz : y < z) : x < z := by
  obtain ⟨hx, -, hlt⟩ := float_lt_iff_rank.mp hxy
  obtain ⟨-, hz, hlt'⟩ := float_lt_iff_rank.mp hyz
  exact float_lt_iff_rank.mpr ⟨hx, hz, hlt.trans hlt'⟩

/-- **A number is above the smaller of two doubles or below the larger.** -/
theorem float_lt_or_lt {x y z : Float} (hy : y.isNaN = false) (hxz : x < z) : x < y ∨ y < z := by
  obtain ⟨hx, hz, hlt⟩ := float_lt_iff_rank.mp hxz
  rcases lt_or_ge (rank x.toModel.unpack) (rank y.toModel.unpack) with hxy | hyx
  · exact Or.inl (float_lt_iff_rank.mpr ⟨hx, hy, hxy⟩)
  · exact Or.inr (float_lt_iff_rank.mpr ⟨hy, hz, hyx.trans_lt hlt⟩)

/-- **A double is at most another one exactly if both are numbers and the other is not smaller.** -/
theorem float_le_iff_not_lt {x y : Float} :
    x ≤ y ↔ x.isNaN = false ∧ y.isNaN = false ∧ ¬ y < x := by
  rw [float_le_iff, float_lt_iff]
  exact le_iff_not_lt _ _

theorem float_lt_of_le_of_lt {x y z : Float} (hxy : x ≤ y) (hyz : y < z) : x < z := by
  obtain ⟨hx, -, hnot⟩ := float_le_iff_not_lt.mp hxy
  exact (float_lt_or_lt hx hyz).resolve_left hnot

theorem float_le_refl {x : Float} (hx : x.isNaN = false) : x ≤ x :=
  float_le_iff_not_lt.mpr ⟨hx, hx, fun h => (float_lt_iff_rank.mp h).2.2.false⟩

theorem float_le_of_lt {x y : Float} (h : x < y) : x ≤ y := by
  obtain ⟨hx, hy, hlt⟩ := float_lt_iff_rank.mp h
  exact float_le_iff_not_lt.mpr ⟨hx, hy, fun hyx => hlt.not_gt (float_lt_iff_rank.mp hyx).2.2⟩

theorem float_le_trans {x y z : Float} (hxy : x ≤ y) (hyz : y ≤ z) : x ≤ z := by
  obtain ⟨hx, -, hnot⟩ := float_le_iff_not_lt.mp hxy
  obtain ⟨-, hz, -⟩ := float_le_iff_not_lt.mp hyz
  exact float_le_iff_not_lt.mpr ⟨hx, hz, fun hzx => hnot (float_lt_of_le_of_lt hyz hzx)⟩

/-! ## The larger of two doubles -/

/-- The second double if it is larger than the first, else the first. -/
def larger (x y : Float) : Float := if x < y then y else x

theorem larger_of_lt {x y : Float} (h : x < y) : larger x y = y := if_pos h

theorem larger_of_not_lt {x y : Float} (h : ¬ x < y) : larger x y = x := if_neg h

theorem isNaN_larger {x y : Float} (hx : x.isNaN = false) : (larger x y).isNaN = false := by
  by_cases h : x < y
  · rw [larger_of_lt h]
    exact isNaN_of_float_lt h
  · rwa [larger_of_not_lt h]

/-- The larger of two doubles is below nothing that the first is not below. -/
theorem not_larger_lt {x y z : Float} (hx : ¬ x < z) : ¬ larger x y < z := by
  by_cases h : x < y
  · rw [larger_of_lt h]
    exact fun hyz => hx (float_lt_trans h hyz)
  · rwa [larger_of_not_lt h]

theorem le_larger_left {x y : Float} (hx : x.isNaN = false) : x ≤ larger x y := by
  by_cases h : x < y
  · rw [larger_of_lt h]
    exact float_le_of_lt h
  · rw [larger_of_not_lt h]
    exact float_le_refl hx

theorem le_larger_right {x y : Float} (hx : x.isNaN = false) (hy : y.isNaN = false) :
    y ≤ larger x y := by
  by_cases h : x < y
  · rw [larger_of_lt h]
    exact float_le_refl hy
  · rw [larger_of_not_lt h]
    exact float_le_iff_not_lt.mpr ⟨hy, hx, h⟩

theorem larger_le {x y z : Float} (hx : x ≤ z) (hy : y ≤ z) : larger x y ≤ z := by
  rw [larger]
  split
  · exact hy
  · exact hx

/-- **The largest of three doubles does not depend on their grouping** if the middle one is a
number. -/
theorem larger_assoc {x y : Float} (hy : y.isNaN = false) (z : Float) :
    larger (larger x y) z = larger x (larger y z) := by
  by_cases hxy : x < y
  · rw [larger_of_lt hxy]
    by_cases hyz : y < z
    · rw [larger_of_lt hyz, larger_of_lt (float_lt_trans hxy hyz)]
    · rw [larger_of_not_lt hyz, larger_of_lt hxy]
  · rw [larger_of_not_lt hxy]
    by_cases hyz : y < z
    · rw [larger_of_lt hyz]
    · have hxz : ¬ x < z := fun h => (float_lt_or_lt hy h).elim hxy hyz
      rw [larger_of_not_lt hyz, larger_of_not_lt hxy, larger_of_not_lt hxz]

end SqpInequality

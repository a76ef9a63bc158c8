import SqpInequality.Proofs.Exact

/-!
# Proofs/Exact/Norm — lengths of vectors, without rounding

With an exact root the norm is the length of Euclid: no product exceeds the product of the lengths
(`weighted_le_norm_mul_norm`).  So the norm lies above its tangent at every vector that is not zero
(`norm_add_weighted_divide_le`).
-/

namespace SqpInequality

/-- **Exact arithmetic with lengths**: the norm is the root of the sum of the squares that is not
negative.  Other roots need not exist. -/
class NormedScalar (α : Type) extends ExactScalar α where
  /-- A norm is not negative. -/
  norm_nonneg (v : Vec α) : 0 ≤ Vec.norm v
  /-- The square of a norm is the sum of the squares of the components. -/
  norm_mul_norm (v : Vec α) : Vec.norm v * Vec.norm v = (v.map fun a => a * a).sum
  /-- The distance up to which points count as coincident is not negative. -/
  epsilon_nonneg : 0 ≤ (Scalar.epsilon : α)

namespace Vec

section Field

variable {α : Type} [FieldScalar α]

theorem weighted_self (v : Vec α) : weighted v v = (v.map fun a => a * a).sum := by
  rw [weighted_eq_sum, List.zipWith_self]

theorem weighted_divide (s : α) : ∀ v w : Vec α, weighted (divide v s) w = weighted v w / s
  | [], w => by rw [divide, List.map_nil, weighted_nil_left, zero_div]
  | a :: v, [] => by rw [weighted_nil_right, weighted_nil_right, zero_div]
  | a :: v, x :: w => by
    have ih := weighted_divide s v w
    rw [divide] at ih ⊢
    rw [List.map_cons, weighted_cons_cons, weighted_cons_cons, ih]
    ring

theorem weighted_neg : ∀ v w : Vec α, weighted (neg v) w = -weighted v w
  | [], w => by rw [neg, List.map_nil, weighted_nil_left, neg_zero]
  | a :: v, [] => by rw [weighted_nil_right, weighted_nil_right, neg_zero]
  | a :: v, x :: w => by
    have ih := weighted_neg v w
    rw [neg] at ih ⊢
    rw [List.map_cons, weighted_cons_cons, weighted_cons_cons, ih]
    ring

theorem weighted_sub : ∀ (row : Vec α) {v w : Vec α}, v.length = w.length →
    weighted row (sub v w) = weighted row v - weighted row w
  | [], _, _, _ => by rw [weighted_nil_left, weighted_nil_left, weighted_nil_left, sub_zero]
  | _ :: _, [], [], _ => by rw [sub, List.zipWith_nil_left, weighted_nil_right, sub_zero]
  | a :: row, x :: v, y :: w, h => by
    have ih := weighted_sub row (Nat.succ.inj h)
    rw [sub] at ih ⊢
    rw [List.zipWith_cons_cons, weighted_cons_cons, weighted_cons_cons, weighted_cons_cons, ih]
    ring

/-- The difference of two sums is the sum of the differences. -/
theorem sub_add_add : ∀ {v w x y : Vec α}, v.length = x.length → w.length = y.length →
    sub (add v w) (add x y) = add (sub v x) (sub w y)
  | [], _, [], _, _, _ => rfl
  | _ :: _, [], _ :: _, [], _, _ => rfl
  | a :: v, b :: w, c :: x, d :: y, h₁, h₂ => by
    have ih := sub_add_add (Nat.succ.inj h₁) (Nat.succ.inj h₂)
    rw [sub, add, add, add, sub, sub] at ih ⊢
    simp only [List.zipWith_cons_cons]
    rw [ih, add_sub_add_comm]

end Field

/-! ## Products and lengths -/

variable {α : Type} [NormedScalar α]

theorem weighted_self_eq (v : Vec α) : weighted v v = norm v * norm v :=
  (weighted_self v).trans (NormedScalar.norm_mul_norm v).symm

/-- **A product of two vectors is at most the product of their lengths.** -/
theorem weighted_le_norm_mul_norm {v w : Vec α} (h : v.length = w.length) :
    weighted v w ≤ norm v * norm w := by
  have hsquares : weighted v w ^ 2 ≤ weighted v v * weighted w w := by
    rw [weighted_eq_sum_range h, weighted_eq_sum_range rfl, weighted_eq_sum_range rfl, h]
    simp only [← sq]
    exact Finset.sum_mul_sq_le_sq_mul_sq _ _ _
  have hsquare : weighted v w ^ 2 ≤ (norm v * norm w) ^ 2 := by
    rw [weighted_self_eq, weighted_self_eq] at hsquares
    linarith
  have hnonneg : 0 ≤ norm v * norm w :=
    mul_nonneg (NormedScalar.norm_nonneg v) (NormedScalar.norm_nonneg w)
  exact (le_abs_self _).trans (abs_le_of_sq_le_sq hsquare hnonneg)

/-- **A vector's length grows at least as its tangent does**: the product with the unit vector. -/
theorem norm_add_weighted_divide_le {v w : Vec α} (h : v.length = w.length) (hpos : 0 < norm v) :
    norm v + weighted (divide v (norm v)) w ≤ norm (add v w) := by
  have hlength : v.length = (add v w).length := by rw [length_add, ← h, Nat.min_self]
  have hproduct : norm v * norm v + weighted v w ≤ norm v * norm (add v w) := by
    rw [← weighted_self_eq, ← weighted_add v h]
    exact weighted_le_norm_mul_norm hlength
  rw [weighted_divide]
  refine le_of_mul_le_mul_left ?_ hpos
  rw [mul_add, mul_div_cancel₀ _ hpos.ne']
  exact hproduct

end Vec

/-! ## The real numbers -/

/-- The real numbers, with all of their roots. -/
noncomputable instance : ExactScalar ℝ where
  __ := (inferInstance : Field ℝ)
  __ := (inferInstance : LinearOrder ℝ)
  __ := (inferInstance : IsStrictOrderedRing ℝ)
  beq a b := decide (a = b)
  decideLt := inferInstance
  decideLe := inferInstance
  sqrt := Real.sqrt
  abs a := |a|
  isNaN _ := false
  isFinite _ := true
  epsilon := 1 / 4503599627370496
  beq_iff_eq _ _ := decide_eq_true_iff
  abs_eq_abs _ := rfl
  isNaN_eq_false _ := rfl
  isFinite_eq_true _ := rfl

noncomputable instance : NormedScalar ℝ where
  norm_nonneg v := Real.sqrt_nonneg _
  norm_mul_norm v := by
    have hsum : Vec.dot v v = (v.map fun a => a * a).sum := by
      rw [Vec.dot_eq_weighted, Vec.weighted_self]
    have hnonneg : 0 ≤ (v.map fun a => a * a).sum :=
      List.sum_nonneg (List.forall_mem_map.mpr fun a _ => mul_self_nonneg a)
    rw [← hsum] at hnonneg ⊢
    exact Real.mul_self_sqrt hnonneg
  epsilon_nonneg := by
    change (0 : ℝ) ≤ 1 / 4503599627370496
    norm_num

end SqpInequality

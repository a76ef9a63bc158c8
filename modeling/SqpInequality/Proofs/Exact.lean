import Mathlib
import SqpInequality.Vec

/-!
# Proofs/Exact — arithmetic without rounding

In exact arithmetic a scalar is an element of an ordered field, every one of them a finite number.
For sums any field will do: the order in which a product is summed has no part in its value,
`dot_eq_weighted` and `weighted_eq_sum`.
-/

namespace SqpInequality

/-- **Arithmetic in a field**: the operations are those of a field of characteristic zero.  Of the
order it is only asked that what lies above zero is not zero. -/
class FieldScalar (α : Type) extends Scalar α, Field α, CharZero α where
  /-- A scalar above zero is not zero. -/
  ne_zero_of_pos (a : α) : 0 < a → a ≠ 0

/-- **Exact arithmetic**: the operations are those of an ordered field. -/
class ExactScalar (α : Type) extends Scalar α, Field α, LinearOrder α, IsStrictOrderedRing α where
  /-- The test for equality is equality. -/
  beq_iff_eq (a b : α) : (a == b) = true ↔ a = b
  /-- The absolute value is that of the order. -/
  abs_eq_abs (a : α) : Scalar.abs a = |a|
  /-- Every scalar stands for a number. -/
  isNaN_eq_false (a : α) : Scalar.isNaN a = false
  /-- No scalar is infinite. -/
  isFinite_eq_true (a : α) : Scalar.isFinite a = true

/-- An ordered field has characteristic zero. -/
instance {α : Type} [ExactScalar α] : FieldScalar α where
  __ := ‹ExactScalar α›
  cast_injective := Nat.cast_injective
  ne_zero_of_pos _ := ne_of_gt

/-- The rational numbers, with the root of the squares among them. -/
instance : ExactScalar ℚ where
  __ := (inferInstance : Field ℚ)
  __ := (inferInstance : LinearOrder ℚ)
  __ := (inferInstance : IsStrictOrderedRing ℚ)
  decideLt := inferInstance
  decideLe := inferInstance
  sqrt := Rat.sqrt
  abs a := |a|
  isNaN _ := false
  isFinite _ := true
  epsilon := 1 / 4503599627370496
  beq_iff_eq _ _ := beq_iff_eq
  abs_eq_abs _ := rfl
  isNaN_eq_false _ := rfl
  isFinite_eq_true _ := rfl

namespace Scalar

variable {α : Type} [ExactScalar α]

/-- A limit is a number that is not negative. -/
theorem isLimit_iff {a : α} : isLimit a = true ↔ 0 ≤ a := by
  rw [isLimit, ExactScalar.isFinite_eq_true, Bool.true_and, decide_eq_true_eq]

/-- A step is a number above zero. -/
theorem isStep_iff {a : α} : isStep a = true ↔ 0 < a := by
  rw [isStep, ExactScalar.isFinite_eq_true, Bool.true_and, decide_eq_true_eq]

end Scalar

namespace Vec

variable {α : Type} [FieldScalar α]

/-! ## The order of a sum -/

theorem foldl_add_eq : ∀ (ts : List α) (a : α), ts.foldl (· + ·) a = a + ts.sum
  | [], a => (add_zero a).symm
  | t :: ts, a => by
    rw [List.foldl_cons, foldl_add_eq ts, List.sum_cons, add_assoc]

theorem chainedSum_eq_sum : ∀ ts : List α, chainedSum ts = ts.sum
  | [] => rfl
  | t :: ts => by
    have hflip : (fun total u : α => u + total) = (· + ·) := funext₂ fun a b => add_comm b a
    rw [chainedSum, hflip, foldl_add_eq, List.sum_cons]

theorem sum_zipWith_add : ∀ {v w : List α}, v.length = w.length →
    (List.zipWith (· + ·) v w).sum = v.sum + w.sum
  | [], [], _ => (add_zero 0).symm
  | a :: v, b :: w, h => by
    rw [List.zipWith_cons_cons, List.sum_cons, List.sum_cons, List.sum_cons,
      sum_zipWith_add (Nat.succ.inj h)]
    ring

/-- Full blocks move from the terms to the running sums, and nothing is lost. -/
theorem sum_addBlocks (sums terms : List α) (h : sums.length = 8) :
    (addBlocks sums terms).1.length = 8 ∧
      (addBlocks sums terms).1.sum + (addBlocks sums terms).2.sum = sums.sum + terms.sum := by
  fun_induction addBlocks sums terms with
  | case1 sums a b c d e f g k rest ih =>
    obtain ⟨hlength, hsum⟩ := ih (by rw [List.length_zipWith, h]; rfl)
    refine ⟨hlength, hsum.trans ?_⟩
    rw [sum_zipWith_add h]
    simp only [List.sum_cons, List.sum_nil]
    ring
  | case2 sums rest => exact ⟨h, rfl⟩

theorem blockedSum_eq_sum (terms : List α) : blockedSum terms = terms.sum := by
  obtain ⟨hlength, hsum⟩ := sum_addBlocks (List.replicate 8 (0 : α)) terms rfl
  rw [blockedSum]
  generalize addBlocks (List.replicate 8 (0 : α)) terms = blocks at *
  obtain ⟨sums, rest⟩ := blocks
  have hhalves : (sums.take 4).length = (sums.drop 4).length := by
    rw [List.length_take, List.length_drop, hlength]
    rfl
  simp only [foldl_add_eq, sum_zipWith_add hhalves, List.sum_take_add_sum_drop, zero_add, hsum,
    List.sum_replicate, nsmul_zero]

/-! ## Products -/

theorem weighted_eq_sum (row v : Vec α) : weighted row v = (List.zipWith (· * ·) row v).sum :=
  chainedSum_eq_sum _

/-- **Both products are the sum of the products of the components.** -/
theorem dot_eq_weighted (v w : Vec α) : dot v w = weighted v w := by
  rw [dot, blockedSum_eq_sum, weighted_eq_sum]

@[simp] theorem weighted_nil_left (v : Vec α) : weighted [] v = 0 := rfl

@[simp] theorem weighted_nil_right (row : Vec α) : weighted row [] = 0 := by
  rw [weighted, List.zipWith_nil_right, chainedSum]

@[simp] theorem weighted_cons_cons (a x : α) (row v : Vec α) :
    weighted (a :: row) (x :: v) = a * x + weighted row v := by
  rw [weighted_eq_sum, weighted_eq_sum, List.zipWith_cons_cons, List.sum_cons]

/-- A vector as the list of its components, place by place. -/
theorem map_getD_range (x : Vec α) : ((List.range x.length).map fun j => x.getD j 0) = x := by
  refine List.ext_getElem (by rw [List.length_map, List.length_range]) fun j _ hj => ?_
  rw [List.getElem_map, List.getElem_range, List.getD_eq_getElem _ _ hj]

/-- A product with all components of a vector, in the order of their columns. -/
theorem weighted_map_range (f : Nat → α) (x : Vec α) :
    weighted ((List.range x.length).map f) x = ∑ j ∈ Finset.range x.length, f j * x.getD j 0 := by
  have hproducts : List.zipWith (· * ·) ((List.range x.length).map f) x
      = (List.range x.length).map fun j => f j * x.getD j 0 := by
    conv_lhs => rw [← map_getD_range x]
    rw [List.length_map, List.length_range, List.zipWith_map, List.zipWith_self]
  rw [weighted_eq_sum, hproducts]
  rfl

/-- A product as a sum over the components of its row. -/
theorem weighted_eq_sum_range {v w : Vec α} (h : v.length = w.length) :
    weighted v w = ∑ i ∈ Finset.range w.length, v.getD i 0 * w.getD i 0 := by
  conv_lhs => rw [← map_getD_range v, h]
  exact weighted_map_range _ w

/-- **A product with a sum is the sum of the products.** -/
theorem weighted_add : ∀ (row : Vec α) {v w : Vec α}, v.length = w.length →
    weighted row (add v w) = weighted row v + weighted row w
  | [], _, _, _ => by simp
  | _ :: _, [], [], _ => by simp [add]
  | a :: row, x :: v, y :: w, h => by
    have ih := weighted_add row (Nat.succ.inj h)
    rw [add] at ih ⊢
    rw [List.zipWith_cons_cons, weighted_cons_cons, weighted_cons_cons, weighted_cons_cons, ih]
    ring

theorem weighted_zero : ∀ (n : Nat) (v : Vec α), weighted (zero n) v = 0
  | 0, v => weighted_nil_left v
  | n + 1, [] => weighted_nil_right _
  | n + 1, x :: v => by
    have ih := weighted_zero n v
    rw [zero] at ih ⊢
    rw [List.replicate_succ, weighted_cons_cons, ih, zero_mul, add_zero]

/-- **A unit row picks out one component.** -/
theorem weighted_unit (s : α) : ∀ {v : Vec α} {i : Nat} {x : α}, v[i]? = some x →
    weighted (unit v.length i s) v = s * x
  | y :: v, 0, x, h => by
    obtain rfl : y = x := Option.some.inj h
    have hzero := weighted_zero v.length v
    rw [zero] at hzero
    rw [unit, zero, List.length_cons, List.replicate_succ, List.set_cons_zero, weighted_cons_cons,
      hzero, add_zero]
  | y :: v, i + 1, x, h => by
    have ih := weighted_unit s (List.getElem?_cons_succ.symm.trans h)
    rw [unit, zero] at ih ⊢
    rw [List.length_cons, List.replicate_succ, List.set_cons_succ, weighted_cons_cons, ih,
      zero_mul, zero_add]

end Vec

end SqpInequality

import SqpInequality.Constraint.Formula
import SqpInequality.Proofs.Constraint.Quadratic

/-!
# Proofs/Constraint/Formula — what a formula does not read

A formula asks for some components of its vectors, and its value depends on no other
(`Formula.eval_replace`).  Central differences change one component at a time.  So along a component
that the formula of a constraint does not read both steps give the value at the point itself, and
the coefficient is the quotient of that value less itself (`Numerical.coefficient_of_not_reads`).
-/

namespace SqpInequality

/-! ## Vectors with one component replaced -/

namespace Differences

variable {α : Type} {j k : Nat}

theorem get?_replace_of_ne (x : List (Vec α)) (i : Nat) (t : α) (h : j ≠ k) :
    (replace x j i t)[k]? = x[k]? := by
  rw [replace, List.getElem?_modify_ne _ _ h]

theorem length_get?_replace (x : List (Vec α)) (j i k : Nat) (t : α) :
    (replace x j i t)[k]?.map List.length = x[k]?.map List.length := by
  rw [← List.getElem?_map, ← List.getElem?_map, map_length_replace]

/-- Any other component is as it was. -/
theorem component_replace (x : List (Vec α)) {i n : Nat} (t : α) (h : ¬ (k = j ∧ n = i)) :
    ((replace x j i t)[k]?.bind fun v => v[n]?) = x[k]?.bind fun v => v[n]? := by
  by_cases hk : k = j
  · subst hk
    have hn : i ≠ n := fun hn => h ⟨rfl, hn.symm⟩
    cases hv : x[k]? with
    | none =>
      rw [replace, List.getElem?_modify, hv]
      rfl
    | some v => rw [get?_replace hv, Option.bind_some, Option.bind_some, List.getElem?_set_ne hn]
  · rw [get?_replace_of_ne x i t (Ne.symm hk)]

end Differences

/-! ## Formulas -/

namespace Formula

/-- Whether a formula reads a component: it asks for it, or for a sum over its vector. -/
def reads (j i : Nat) : Formula → Bool
  | number _ => false
  | component k n => k == j && n == i
  | total k => k == j
  | squares k => k == j
  | dimension _ => false
  | negate a => a.reads j i
  | magnitude a => a.reads j i
  | root a => a.reads j i
  | sum a b => a.reads j i || b.reads j i
  | difference a b => a.reads j i || b.reads j i
  | product a b => a.reads j i || b.reads j i
  | quotient a b => a.reads j i || b.reads j i
  | ifLess a b c d => a.reads j i || b.reads j i || c.reads j i || d.reads j i

/-- **The value of a formula does not depend on a component that it does not read.** -/
theorem eval_replace (x : List (Vec Float)) {j i : Nat} (t : Float) :
    ∀ {a : Formula}, a.reads j i = false → a.eval (Differences.replace x j i t) = a.eval x
  | number _, _ => rfl
  | component k n, h => by
    have hother : ¬ (k = j ∧ n = i) := by simpa [reads] using h
    rw [eval, eval, Differences.component_replace x t hother]
  | total k, h => by
    have hk : j ≠ k := Ne.symm (by simpa [reads] using h)
    rw [eval, eval, Differences.get?_replace_of_ne x i t hk]
  | squares k, h => by
    have hk : j ≠ k := Ne.symm (by simpa [reads] using h)
    rw [eval, eval, Differences.get?_replace_of_ne x i t hk]
  | dimension k, _ => by
    -- The vector may be the one with the component replaced, but it is as long as before.
    have hvalue := congrArg (·.elim missing Float.ofNat)
      (Differences.length_get?_replace x j i k t)
    rwa [Option.elim_map, Option.elim_map] at hvalue
  | negate a, h => congrArg (-·) (eval_replace x t (a := a) h)
  | magnitude a, h => congrArg Float.abs (eval_replace x t (a := a) h)
  | root a, h => congrArg Float.sqrt (eval_replace x t (a := a) h)
  | sum a b, h => by
    obtain ⟨ha, hb⟩ := Bool.or_eq_false_iff.mp h
    rw [eval, eval, eval_replace x t ha, eval_replace x t hb]
  | difference a b, h => by
    obtain ⟨ha, hb⟩ := Bool.or_eq_false_iff.mp h
    rw [eval, eval, eval_replace x t ha, eval_replace x t hb]
  | product a b, h => by
    obtain ⟨ha, hb⟩ := Bool.or_eq_false_iff.mp h
    rw [eval, eval, eval_replace x t ha, eval_replace x t hb]
  | quotient a b, h => by
    obtain ⟨ha, hb⟩ := Bool.or_eq_false_iff.mp h
    rw [eval, eval, eval_replace x t ha, eval_replace x t hb]
  | ifLess a b c d, h => by
    obtain ⟨habc, hd⟩ := Bool.or_eq_false_iff.mp h
    obtain ⟨hab, hc⟩ := Bool.or_eq_false_iff.mp habc
    obtain ⟨ha, hb⟩ := Bool.or_eq_false_iff.mp hab
    rw [eval, eval, eval_replace x t ha, eval_replace x t hb, eval_replace x t hc,
      eval_replace x t hd]

end Formula

/-! ## Constraints given by a formula -/

/-- **Along a component that its formula does not read, a constraint has the quotient of equal
answers as its coefficient**, at every point that assigns its variables. -/
theorem Numerical.coefficient_of_not_reads {c : Numerical Float} {a : Formula}
    (hc : ∀ x, c.function x = a.eval x) {p : Point Float} {x : List (Vec Float)}
    (hx : p.gather c.keys = .ok x) :
    ∃ model, c.linearize p = .ok model ∧ model.keys = c.keys ∧
      ∀ {j i : Nat} {v : Vec Float}, x[j]? = some v → i < v.length → a.reads j i = false →
        ∃ row, model.blocks[j]? = some (Block.ofRow row) ∧ row.length = v.length ∧
          row[i]? = some ((a.eval x - a.eval x) / ((1 + 1) * c.step)) := by
  obtain ⟨model, hmodel, hkeys, hblocks, -⟩ := exists_linearize hx
  refine ⟨model, hmodel, hkeys, fun {j i v} hv hi hreads => ?_⟩
  refine ⟨Differences.slopesAlong c.function c.step x (v, j), ?_,
    Differences.length_slopesAlong _ _ _ _, ?_⟩
  · rw [hblocks, List.getElem?_map, List.getElem?_map, getElem?_zipIdx_of_getElem? hv]
    rfl
  · rw [Differences.getElem?_slopesAlong _ _ _ _ (List.getElem?_eq_getElem hi), hc, hc,
      Formula.eval_replace x _ hreads, Formula.eval_replace x _ hreads]

end SqpInequality

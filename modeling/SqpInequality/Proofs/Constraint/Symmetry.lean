import SqpInequality.Proofs.Constraint.Distance

/-!
# Proofs/Constraint/Symmetry — a distance knows neither an order nor an origin

    points    a ↦ x      b ↦ y             b ↦ y      a ↦ x           a ↦ x + t    b ↦ y + t
    norm        ‖x - y‖             =        ‖y - x‖            =        ‖(x + t) - (y + t)‖
    blocks    a ↦ u      b ↦ -u            b ↦ -u     a ↦ u           a ↦ u        b ↦ -u

Exchanging the points turns their difference around (`Vec.sub_eq_neg_sub`), which turns the unit
vector around as well (`MaxDistance.direction_neg`), so each key keeps its block.  Moving both by the
same vector leaves the difference as it is (`Vec.sub_add_add_right`): of the points it is all that
the constraint depends on, and of a step all that the row depends on.
-/

namespace SqpInequality

/-! ## Differences that are turned around or moved -/

namespace Vec

variable {α : Type} [FieldScalar α]

theorem neg_neg_eq (v : Vec α) : neg (neg v) = v := by
  simp [neg]

theorem neg_zero_eq (n : Nat) : neg (zero n : Vec α) = zero n := by
  simp [neg, zero]

theorem divide_neg (v : Vec α) (s : α) : divide (neg v) s = neg (divide v s) := by
  simp [divide, neg, neg_div]

/-- A difference the other way round is its negation. -/
theorem sub_eq_neg_sub (v w : Vec α) : sub w v = neg (sub v w) := by
  rw [neg, sub, sub, List.map_zipWith, List.zipWith_comm]
  simp only [neg_sub]

/-- **The norm is that of the vector turned around**: it is a function of the product with itself. -/
theorem norm_neg (v : Vec α) : norm (neg v) = norm v := by
  rw [norm, norm, dot_eq_weighted, dot_eq_weighted, weighted_self, weighted_self, neg, List.map_map]
  simp only [Function.comp_def, neg_mul_neg]

/-- What is added on both sides has no part in a difference. -/
theorem sub_add_add_right {v w t : Vec α} (hv : v.length = t.length) (hw : w.length = t.length) :
    sub (add v t) (add w t) = sub v w := by
  refine List.ext_getElem (by simp [hv, hw]) fun i _ _ => ?_
  simp [sub, add]

end Vec

/-! ## Models of two blocks -/

/-- The blocks of a model of two terms. -/
theorem LinearModel.block?_of_terms {α : Type} {m : LinearModel α} {a b : Key} {A B : Block α}
    (h : m.terms = [(a, A), (b, B)]) (k : Key) :
    m.block? k = if k = a then some A else if k = b then some B else none := by
  rw [block?, h]
  by_cases ha : k = a
  · rw [if_pos ha, ha, KeyMap.lookup_cons_self]
  · rw [if_neg ha, KeyMap.lookup_cons_ne ha]
    by_cases hb : k = b
    · rw [if_pos hb, hb, KeyMap.lookup_cons_self]
    · rw [if_neg hb, KeyMap.lookup_cons_ne hb]
      rfl

namespace MaxDistance

/-! ## What a distance is evaluated at -/

section Evaluation

variable {α : Type} [Scalar α] {c : MaxDistance α} {p q : Point α}

/-- A constraint is evaluated at the difference of its points, and nothing else. -/
theorem linearize_congr (h : c.difference p = c.difference q) :
    (Constraint.distance c).linearize p = (Constraint.distance c).linearize q := by
  rw [Constraint.linearize, Constraint.linearize, linearize, linearize, h]

theorem new_eq_ok {a b : Key} {limit : α} (hab : a ≠ b) (hlimit : Scalar.isLimit limit = true)
    (dualKey : Key) : new a b limit dualKey = .ok ⟨a, b, limit, dualKey, hab⟩ := by
  rw [new, if_pos hlimit, dif_neg hab]

end Evaluation

/-! ## Exchanged and moved points -/

variable {α : Type} [ExactScalar α]

/-- **The unit vector turns around with the difference**, also where it is taken to be zero. -/
theorem direction_neg (d : Vec α) : direction (Vec.neg d) = Vec.neg (direction d) := by
  rw [direction, direction, Vec.norm_neg, Vec.length_neg, Vec.divide_neg]
  split
  · rfl
  · exact (Vec.neg_zero_eq _).symm

/-- Two constraints between the same points in either order have the same blocks. -/
theorem block?_exchanged {a b : Key} (hab : a ≠ b) {m n : LinearModel α} {d : Vec α}
    (hm : m.terms = [(a, Block.ofRow (direction d)), (b, Block.ofRow (Vec.neg (direction d)))])
    (hn : n.terms = [(b, Block.ofRow (direction (Vec.neg d))),
      (a, Block.ofRow (Vec.neg (direction (Vec.neg d))))]) (k : Key) :
    m.block? k = n.block? k := by
  rw [LinearModel.block?_of_terms hm, LinearModel.block?_of_terms hn, direction_neg,
    Vec.neg_neg_eq]
  by_cases hk : k = a
  · subst hk
    rw [if_pos rfl, if_neg hab, if_pos rfl]
  · rw [if_neg hk, if_neg hk]

/-- The value of a distance's row along a step of both points. -/
theorem error_eq {c : MaxDistance α} {r : LinearRow α} {step : VectorMap α} {d s t : Vec α}
    (hterms : r.model.terms = [(c.first, Block.ofRow (direction d)),
      (c.second, Block.ofRow (Vec.neg (direction d)))])
    (hrhs : r.rhs = c.limit - Vec.norm d) (hs : step.get? c.first = some s)
    (ht : step.get? c.second = some t) (hslength : s.length = d.length)
    (htlength : t.length = d.length) :
    r.model.error step
      = .ok [Vec.norm d + Vec.weighted (direction d) (Vec.sub s t) - c.limit] := by
  have hsupplied : r.model.Supplied step := by
    rw [LinearModel.Supplied, hterms, List.forall_mem_cons, List.forall_mem_singleton]
    refine ⟨⟨s, hs, ?_⟩, t, ht, ?_⟩
    · rw [Block.columnCount_ofRow, length_direction, hslength]
    · rw [Block.columnCount_ofRow, Vec.length_neg, length_direction, htlength]
  rw [LinearRow.error_model_eq_excess hsupplied,
    excess_eq hterms hrhs hs ht (hslength.trans htlength.symm)]

/-- **A distance knows neither an order nor an origin.**  The constraints between two points in
either order have the same residual and the same right-hand side, and each point has the same block
in both, the one the negation of the other.  Moving both points by a vector changes neither the
residual nor the model, and moving both along it in a step does not change the value of the model.
So it is wherever both points are there and equally long, also where they coincide. -/
theorem symmetric_and_translation_invariant {a b : Key} {limit : α} (hab : a ≠ b)
    (hlimit : Scalar.isLimit limit = true) (dualKey dualKey' : Key) :
    ∃ c d : MaxDistance α, new a b limit dualKey = .ok c ∧ new b a limit dualKey' = .ok d ∧
      ∀ (p : Point α) (x y : Vec α), p.get? a = some x → p.get? b = some y →
        x.length = y.length →
        ∃ (e : α) (m n : LinearModel α),
          (Constraint.distance c).residual p = .ok [e] ∧
          (Constraint.distance d).residual p = .ok [e] ∧
          (Constraint.distance c).linearize p = .ok m ∧
          (Constraint.distance d).linearize p = .ok n ∧
          m.rhs = n.rhs ∧ (∀ k, m.block? k = n.block? k) ∧
          (∃ row, m.block? a = some (Block.ofRow row) ∧
            m.block? b = some (Block.ofRow (Vec.neg row))) ∧
          (∀ (q : Point α) (t : Vec α), t.length = x.length → q.get? a = some (Vec.add x t) →
            q.get? b = some (Vec.add y t) →
            (Constraint.distance c).residual q = .ok [e] ∧
              (Constraint.distance c).linearize q = .ok m) ∧
          ∀ (step moved : VectorMap α) (s u t : Vec α), step.get? a = some s →
            step.get? b = some u → s.length = x.length → u.length = x.length →
            t.length = x.length → moved.get? a = some (Vec.add s t) →
            moved.get? b = some (Vec.add u t) →
            ∃ v, m.error step = .ok v ∧ m.error moved = .ok v := by
  refine ⟨_, _, new_eq_ok hab hlimit dualKey, new_eq_ok hab.symm hlimit dualKey',
    fun p x y hx hy hlength => ?_⟩
  have hdiff : (⟨a, b, limit, dualKey, hab⟩ : MaxDistance α).difference p = .ok (Vec.sub x y) :=
    difference_eq hx hy hlength
  have hexchanged : (⟨b, a, limit, dualKey', hab.symm⟩ : MaxDistance α).difference p
      = .ok (Vec.neg (Vec.sub x y)) := by
    rw [← Vec.sub_eq_neg_sub]
    exact difference_eq hy hx hlength.symm
  -- Both rows are read off one difference, the second off its negation.
  obtain ⟨r, ⟨hr, -⟩, hterms, hrhs⟩ := exists_row hdiff
  obtain ⟨r', ⟨hr', -⟩, hterms', hrhs'⟩ := exists_row hexchanged
  refine ⟨_, r.model, r'.model, residual_eq hdiff, ?_, hr, hr', ?_,
    block?_exchanged hab hterms hterms', ⟨direction (Vec.sub x y), ?_, ?_⟩,
    fun q t ht hqx hqy => ?_, fun step moved s u t hs hu hsx hux htx hms hmu => ?_⟩
  · rw [residual_eq hexchanged, Vec.norm_neg]
  · rw [LinearRow.rhs_eq, LinearRow.rhs_eq, hrhs, hrhs', Vec.norm_neg]
  · rw [LinearModel.block?_of_terms hterms, if_pos rfl]
  · rw [LinearModel.block?_of_terms hterms, if_neg hab.symm, if_pos rfl]
  · have hmoved : (⟨a, b, limit, dualKey, hab⟩ : MaxDistance α).difference q
        = .ok (Vec.sub x y) := by
      rw [← Vec.sub_add_add_right ht.symm (hlength.symm.trans ht.symm)]
      exact difference_eq hqx hqy (by simp [hlength])
    exact ⟨residual_eq hmoved, (linearize_congr (hmoved.trans hdiff.symm)).trans hr⟩
  · have hpoints : (Vec.sub x y).length = x.length := by simp [hlength]
    refine ⟨_, error_eq hterms hrhs hs hu (hsx.trans hpoints.symm) (hux.trans hpoints.symm), ?_⟩
    rw [← Vec.sub_add_add_right (hsx.trans htx.symm) (hux.trans htx.symm)]
    exact error_eq hterms hrhs hms hmu (by simp [hsx, htx, hpoints]) (by simp [hux, htx, hpoints])

/-- Two points that are five apart, in either order and after both were moved. -/
theorem symmetric_and_translation_invariant_of_fiveApart :
    ∃ (c d : MaxDistance ℚ) (e : ℚ), new 0 1 4 100 = .ok c ∧ new 1 0 4 101 = .ok d ∧
      (Constraint.distance c).residual ⟨.ofList [(0, [3, 4]), (1, [0, 0])]⟩ = .ok [e] ∧
      (Constraint.distance d).residual ⟨.ofList [(0, [3, 4]), (1, [0, 0])]⟩ = .ok [e] ∧
      (Constraint.distance c).residual ⟨.ofList [(0, [4, 6]), (1, [1, 2])]⟩ = .ok [e] := by
  have hkeys : (0 : Key) ≠ 1 := by decide
  have hlimit : Scalar.isLimit (4 : ℚ) = true := by decide
  obtain ⟨c, d, hc, hd, hpoints⟩ := symmetric_and_translation_invariant hkeys hlimit 100 101
  obtain ⟨e, m, n, hfirst, hsecond, -, -, -, -, -, hmoved, -⟩ :=
    hpoints ⟨.ofList [(0, [3, 4]), (1, [0, 0])]⟩ [3, 4] [0, 0] rfl rfl rfl
  obtain ⟨hresidual, -⟩ :=
    hmoved ⟨.ofList [(0, [4, 6]), (1, [1, 2])]⟩ [1, 2] rfl (by decide +kernel) (by decide +kernel)
  exact ⟨c, d, e, hc, hd, hfirst, hsecond, hresidual⟩

end MaxDistance

end SqpInequality

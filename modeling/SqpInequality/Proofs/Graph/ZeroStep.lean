import SqpInequality.Proofs.Constraint.Keys
import SqpInequality.Proofs.Graph.FirstOrder

/-!
# Proofs/Graph/ZeroStep — along a step of zeros the rows are the constraints

Residual and right-hand side of a constraint are computed apart, an upper bound as `x - limit` and
`limit - x`, a distance as `‖d‖ - limit` and `limit - ‖d‖`.  In exact arithmetic they are opposite
(`Constraint.opposed_of_linearize`), and a step of zeros adds nothing to the right-hand side
(`LinearRow.error_of_rests`).  So along it the errors of a linear system are the residuals at the
point that it was made for, and the rows hold exactly if the check without multipliers accepts that
point (`Graph.errors_eq_scalarError_of_rests`).
-/

namespace SqpInequality

/-! ## A step of zeros -/

/-- **A step rests on variables**: it has for each of them as many zeros as it has components. -/
def VectorMap.Rests {α : Type} [Scalar α] (step : VectorMap α) (p : Point α) (ks : List Key) :
    Prop :=
  ∀ k ∈ ks, ∀ d, p.dimension? k = some d → step.get? k = some (Vec.zero d)

/-- The step of zeros for each variable of a point. -/
def Point.rest {α : Type} [Scalar α] (p : Point α) : VectorMap α where
  vectors :=
    { entries := p.values.entries.map fun e => (e.1, Vec.zero e.2.length)
      ascending := List.pairwise_map.mpr p.values.ascending }

theorem lookup_map_zero {α : Type} [Scalar α] (k : Key) : ∀ es : List (Key × Vec α),
    (es.map fun e => (e.1, (Vec.zero e.2.length : Vec α))).lookup k
      = (es.lookup k).map fun v => Vec.zero v.length
  | [] => rfl
  | (i, v) :: es => by
    rw [List.map_cons]
    by_cases hik : k = i
    · subst hik
      rw [KeyMap.lookup_cons_self, KeyMap.lookup_cons_self, Option.map_some]
    · rw [KeyMap.lookup_cons_ne hik, KeyMap.lookup_cons_ne hik, lookup_map_zero k es]

/-- **There is a step that rests on all variables of a point.** -/
theorem Point.rests_rest {α : Type} [Scalar α] (p : Point α) (ks : List Key) :
    p.rest.Rests p ks := by
  intro k _ d hd
  obtain ⟨v, hv, rfl⟩ := Point.dimension?_eq_some_iff.mp hd
  refine (lookup_map_zero k p.values.entries).trans ?_
  change (p.get? k).map _ = _
  rw [hv, Option.map_some]

section Rest

variable {α : Type} [ExactScalar α]

/-- A product does not depend on which side is the row. -/
theorem Vec.weighted_comm (v w : Vec α) : weighted v w = weighted w v := by
  rw [weighted_eq_sum, weighted_eq_sum, List.zipWith_comm_of_comm fun a b => mul_comm a b]

namespace LinearRow

variable {r : LinearRow α} {p : Point α} {step : VectorMap α}

/-- A step that rests on the variables of a row has a vector for each block, and it is zero. -/
theorem get?_of_rests (hfits : r.model.Fits p) (hrests : step.Rests p r.keys)
    {t : Key × Block α} (ht : t ∈ r.model.terms) :
    step.get? t.1 = some (Vec.zero t.2.columnCount) :=
  hrests t.1 (List.mem_map_of_mem ht) _ (hfits t ht)

/-- **Along a step of zeros the error of a row is its right-hand side, negated.** -/
theorem error_of_rests (hfits : r.model.Fits p) (hrests : step.Rests p r.keys) :
    r.error step = .ok (-r.rhs) := by
  have hsupplied : r.model.Supplied step := fun t ht =>
    ⟨_, get?_of_rests hfits hrests ht, Vec.length_zero _⟩
  have hzero : ∀ t ∈ r.model.terms, Vec.weighted t.2.row (step.vector t.1) = 0 := by
    intro t ht
    rw [VectorMap.vector_eq (get?_of_rests hfits hrests ht), Vec.weighted_comm, Vec.weighted_zero]
  rw [error_eq_excess hsupplied, excess, List.map_congr_left hzero, List.map_const',
    List.sum_replicate, nsmul_zero, zero_sub]

end LinearRow

end Rest

/-! ## Residuals and right-hand sides -/

section Opposed

variable {α : Type} [ExactScalar α] {p : Point α} {m : LinearModel α}

/-- A residual and a right-hand side that are read off one evaluation are opposite if they are so
whatever it gives. -/
theorem LinearModel.opposed_of_evaluation {β : Type} {evaluation : Except (Fault α) β}
    {terms : β → List (Key × Block α)} (value rhs : β → α) (hopposed : ∀ b, rhs b = -value b)
    (h : (evaluation.bind fun b => LinearModel.new (terms b) [rhs b]) = .ok m) :
    ∃ e, evaluation.map (fun b => [value b]) = .ok [e] ∧ m.rhs = [-e] := by
  obtain ⟨b, hb, hnew⟩ := bind_eq_ok_iff.mp h
  refine ⟨value b, map_eq_ok_iff.mpr ⟨b, hb, rfl⟩, ?_⟩
  rw [(LinearModel.new_eq_ok hnew).2, hopposed]

theorem Bound.opposed_of_linearize {b : Bound α} (h : b.linearize p = .ok m) :
    ∃ e, b.residual p = .ok [e] ∧ m.rhs = [-e] :=
  LinearModel.opposed_of_evaluation (fun c : α × Nat => b.side.excess b.limit c.1)
    (fun c => b.side.slack b.limit c.1) (fun c => b.side.slack_eq_neg_excess b.limit c.1) h

theorem Affine.opposed_of_linearize {a : Affine α} (h : a.linearize p = .ok m) :
    ∃ e, a.residual p = .ok [e] ∧ m.rhs = [-e] :=
  LinearModel.opposed_of_evaluation (fun e => e) (fun e => -e) (fun _ => rfl) h

theorem MaxDistance.opposed_of_linearize {c : MaxDistance α} (h : c.linearize p = .ok m) :
    ∃ e, c.residual p = .ok [e] ∧ m.rhs = [-e] :=
  LinearModel.opposed_of_evaluation (fun d => Vec.norm d - c.limit) (fun d => c.limit - Vec.norm d)
    (fun d => (neg_sub (Vec.norm d) c.limit).symm) h

/-- The value of a function is taken once more with its slopes, and is the same. -/
theorem Numerical.opposed_of_linearize {c : Numerical α} (h : c.linearize p = .ok m) :
    ∃ e, c.residual p = .ok [e] ∧ m.rhs = [-e] := by
  refine LinearModel.opposed_of_evaluation c.function
    (fun x => -(Id.run (Differences.firstOrder (fun x => pure (c.function x)) c.step x)).1)
    (fun x => ?_) h
  rw [Differences.run_firstOrder]

namespace Constraint

/-- **Residual and right-hand side of a constraint of the library are opposite.** -/
theorem opposed_of_linearize {c : Constraint α} (hkind : c.isBuiltIn = true)
    (h : c.linearize p = .ok m) : ∃ e, c.scalarError p = .ok e ∧ m.rhs = [-e] := by
  have hresidual : ∃ e, c.residual p = .ok [e] ∧ m.rhs = [-e] := by
    cases c with
    | bound b =>
      obtain ⟨e, he, hrhs⟩ := b.opposed_of_linearize (mapError_eq_ok_iff.mp h)
      exact ⟨e, mapError_eq_ok_iff.mpr he, hrhs⟩
    | affine a =>
      obtain ⟨e, he, hrhs⟩ := a.opposed_of_linearize (mapError_eq_ok_iff.mp h)
      exact ⟨e, mapError_eq_ok_iff.mpr he, hrhs⟩
    | distance d =>
      obtain ⟨e, he, hrhs⟩ := d.opposed_of_linearize (mapError_eq_ok_iff.mp h)
      exact ⟨e, mapError_eq_ok_iff.mpr he, hrhs⟩
    | numerical n =>
      obtain ⟨e, he, hrhs⟩ := n.opposed_of_linearize (mapError_eq_ok_iff.mp h)
      exact ⟨e, mapError_eq_ok_iff.mpr he, hrhs⟩
    | custom _ => contradiction
  exact hresidual.imp fun e he => he.imp_left scalarError_eq_ok_iff.mpr

/-- **Along a step of zeros the error of a constraint's row is its residual**, which is the
right-hand side of the row, negated. -/
theorem error_of_rests {c : Constraint α} {r : LinearRow α} {step : VectorMap α}
    (hkind : c.isBuiltIn = true) (hrow : c.LinearizesTo p r) (hrests : step.Rests p c.keys) :
    c.scalarError p = .ok (-r.rhs) ∧ r.error step = .ok (-r.rhs) := by
  have hfits : r.model.Fits p := by
    have hmatched := matched_of_isBuiltIn hkind p
    rw [hrow.1] at hmatched
    exact hmatched.fits
  have hkeys : r.keys = c.keys := keys_of_linearize hkind hrow.1
  obtain ⟨e, he, hrhs⟩ := opposed_of_linearize hkind hrow.1
  refine ⟨?_, LinearRow.error_of_rests hfits (hkeys ▸ hrests)⟩
  rw [LinearRow.rhs_eq_of_model hrhs, neg_neg, he]

end Constraint

end Opposed

/-! ## The graph -/

namespace Graph

/-- **Along a step of zeros the errors of the rows are the residuals**: each right-hand side is the
residual of its constraint, negated.  So the rows all hold along it exactly if the check, without
multipliers, accepts the point. -/
theorem errors_eq_scalarError_of_rests {α : Type} [ExactScalar α] {g : Graph α} {p : Point α}
    {s : LinearSystem α} {step : VectorMap α} (hkind : ∀ c ∈ g.constraints, c.isBuiltIn = true)
    (hlinear : (g.linearize p).outcome = .ok s)
    (hrests : ∀ c ∈ g.constraints, step.Rests p c.keys) :
    (∃ errors, s.errors step = .ok errors ∧
      g.constraints.map (fun c => c.scalarError p) = errors.map .ok) ∧
    List.Forall₂ (fun c r => c.scalarError p = .ok (-r.rhs)) g.constraints s.rows ∧
    ∀ tolerance, 0 ≤ tolerance →
      ((∀ r ∈ s.rows, r.isSatisfied step tolerance = .ok true) ↔
        ∃ report, (g.report p .empty tolerance).outcome = .ok report ∧
          report.status = .satisfied) := by
  have hrows : List.Forall₂
      (fun c r => c.scalarError p = .ok (-r.rhs) ∧ r.error step = .ok (-r.rhs))
      g.constraints s.rows := by
    have hboth := (List.forall₂_and_left _ _).mpr
      ⟨fun c hc => And.intro (hkind c hc) (hrests c hc), outcome_linearize_eq_ok_iff.mp hlinear⟩
    exact hboth.imp fun c r h => Constraint.error_of_rests h.1.1 h.2 h.1.2
  refine ⟨?_, hrows.imp fun _ _ h => h.1, fun tolerance ht => ?_⟩
  · refine ⟨s.rows.map fun r => -r.rhs, ?_, ?_⟩
    · rw [LinearSystem.errors, mapM_eq_ok_iff, List.forall₂_map_right_iff, List.forall₂_same]
      intro r hr
      obtain ⟨c, -, h⟩ := exists_mem_of_forall₂ hrows hr
      exact h.2
    · rw [← List.forall₂_eq_eq_eq, List.forall₂_map_left_iff, List.forall₂_map_right_iff,
        List.forall₂_map_right_iff]
      exact hrows.imp fun _ _ h => h.1
  · rw [report_satisfied_iff (Scalar.isLimit_iff.mpr ht)]
    refine (forall_mem_congr_of_forall₂ (hrows.imp fun c r h => ?_)).symm
    rw [Constraint.passes_empty_iff h.1, LinearRow.isSatisfied_iff h.2]

/-- One constraint of each kind; the function is a square less a half. -/
def exactKinds : Graph ℚ where
  constraints :=
    [ .bound (.upper 0 0 1 100), .bound (.lower 0 1 0 101),
      .affine ⟨[(1, [2]), (0, [1, 1])], 4, 102, by decide, by decide⟩,
      .distance ⟨2, 0, 4, 103, by decide⟩,
      .numerical ⟨[1], fun x => Vec.dot x.flatten x.flatten - 1 / 2, 104, 1 / 8, by decide,
        by decide⟩ ]

/-- A point where the upper bound, the affine inequality and the distance, which is five, are
violated. -/
def exactKindsPoint : Point ℚ := ⟨.ofList [(0, [3, 4]), (1, [1 / 2]), (2, [0, 0])]⟩

/-- Along the step of zeros the rows have the five residuals as their errors, and all hold at a
tolerance of four. -/
theorem errors_of_exactKinds :
    ∃ s, (exactKinds.linearize exactKindsPoint).outcome = .ok s ∧
      s.errors exactKindsPoint.rest = .ok [2, -4, 4, 1, -1 / 4] ∧
      ∃ report, (exactKinds.report exactKindsPoint .empty 4).outcome = .ok report ∧
        report.status = .satisfied := by
  have hlinear : ∃ s, (exactKinds.linearize exactKindsPoint).outcome = .ok s := ⟨_, rfl⟩
  obtain ⟨s, hs⟩ := hlinear
  obtain ⟨⟨errors, herrors, hscalar⟩, -, hverdict⟩ := errors_eq_scalarError_of_rests (by decide) hs
    fun c _ => exactKindsPoint.rests_rest c.keys
  have hvalues : exactKinds.constraints.map (fun c => (c.scalarError exactKindsPoint).toOption)
      = [2, -4, 4, 1, -1 / 4].map some := by decide +kernel
  have hoptions := congrArg (List.map Except.toOption) hscalar
  rw [List.map_map, List.map_map] at hoptions
  obtain rfl : errors = [2, -4, 4, 1, -1 / 4] :=
    List.map_injective_iff.mpr (Option.some_injective ℚ) (hoptions.symm.trans hvalues)
  refine ⟨s, hs, herrors, (hverdict 4 (by decide)).mp fun r hr => ?_⟩
  obtain ⟨e, he, hr⟩ := exists_mem_of_forall₂ (mapM_eq_ok_iff.mp herrors).flip hr
  have hsmall : ∀ e ∈ ([2, -4, 4, 1, -1 / 4] : List ℚ), e ≤ 4 := by decide +kernel
  exact (LinearRow.isSatisfied_iff hr).mpr (hsmall e he)

end Graph

end SqpInequality

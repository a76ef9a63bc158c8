import SqpInequality.Proofs.Constraint.Affine
import SqpInequality.Proofs.Graph.Linearize

/-!
# Proofs/Constraint/FirstOrder — constraints that their first-order models do not approximate

A bound and an affine inequality change with the variables exactly as their models say: along a
step, the error of the row is the residual at the point moved by it (`Bound.error_eq_residual`,
`Affine.error_eq_residual`).
-/

namespace SqpInequality

/-- The vectors of a step, and of a point before and after it is moved. -/
theorem Point.Moves.shifted_of_contains {α : Type} [Scalar α] {p next : Point α}
    {step : VectorMap α} (h : p.Moves step.entries next) {k : Key} (hk : step.contains k = true) :
    ∃ x d, p.get? k = some x ∧ step.get? k = some d ∧ x.length = d.length ∧
      next.get? k = some (Vec.add x d) := by
  obtain ⟨d, hd⟩ := Option.isSome_iff_exists.mp hk
  obtain ⟨x, hx, hlength, hnext⟩ := h.shifted k d hd
  exact ⟨x, d, hx, hd, hlength, hnext⟩

/-! ## Bounds -/

theorem Side.slack_eq_neg_excess {α : Type} [ExactScalar α] (s : Side) (limit x : α) :
    s.slack limit x = -s.excess limit x := by
  cases s with
  | upper => exact (neg_sub x limit).symm
  | lower => exact (neg_sub limit x).symm

namespace Bound

variable {α : Type}

theorem component_eq_ok_iff {b : Bound α} {p : Point α} {x : α} {n : Nat} :
    b.component p = .ok (x, n) ↔
      ∃ v, p.get? b.key = some v ∧ v[b.index]? = some x ∧ v.length = n := by
  rw [component, bind_eq_ok_iff]
  refine exists_congr fun v => ⟨fun ⟨hv, hx⟩ => ?_, fun ⟨hv, hx, hn⟩ => ?_⟩
  · split at hx
    · rename_i y hy
      obtain ⟨rfl, rfl⟩ := Prod.mk.inj (Except.ok.inj hx)
      exact ⟨Point.get?_of_value hv, hy, rfl⟩
    · contradiction
  · refine ⟨Point.value_eq hv, ?_⟩
    rw [hx]
    subst hn
    rfl

variable [ExactScalar α]

/-- The excess over a limit changes with the value at the slope of its side. -/
theorem excess_add (s : Side) (limit x y : α) :
    s.excess limit (x + y) = s.slope * y - s.slack limit x := by
  cases s with
  | upper =>
    rw [Side.excess, Side.slope, Side.slack]
    ring
  | lower =>
    rw [Side.excess, Side.slope, Side.slack]
    ring

theorem residual_eq_ok {b : Bound α} {p : Point α} {v : Vec α} {x : α}
    (hv : p.get? b.key = some v) (hx : v[b.index]? = some x) :
    b.residual p = .ok [b.side.excess b.limit x] :=
  map_eq_ok_iff.mpr ⟨(x, v.length), component_eq_ok_iff.mpr ⟨v, hv, hx, rfl⟩, rfl⟩

/-- A bound that has a model bounds a component that its variable has. -/
theorem model_of_linearize {b : Bound α} {p : Point α} {m : LinearModel α}
    (h : b.linearize p = .ok m) :
    ∃ v x, p.get? b.key = some v ∧ v[b.index]? = some x ∧
      m.terms = [(b.key, Block.ofRow (Vec.unit v.length b.index b.side.slope))] ∧
      m.rhs = [b.side.slack b.limit x] := by
  obtain ⟨⟨x, n⟩, hcomponent, hnew⟩ := bind_eq_ok_iff.mp h
  obtain ⟨v, hv, hx, rfl⟩ := component_eq_ok_iff.mp hcomponent
  exact ⟨v, x, hv, hx, LinearModel.new_eq_ok hnew⟩

/-- **The error of a bound's row along a step is the residual at the point moved by it.** -/
theorem error_eq_residual {b : Bound α} {r : LinearRow α} {p next : Point α} {step : VectorMap α}
    (hmodel : b.linearize p = .ok r.model) (hkey : step.contains b.key = true)
    (hmoves : p.Moves step.entries next) :
    ∃ e, r.error step = .ok e ∧ b.residual next = .ok [e] := by
  obtain ⟨v, x, hv, hx, hterms, hrhs⟩ := model_of_linearize hmodel
  obtain ⟨v', d, hv', hd, hlength, hnext⟩ := hmoves.shifted_of_contains hkey
  obtain rfl : v' = v := Option.some.inj (hv'.symm.trans hv)
  obtain ⟨y, hy⟩ : ∃ y, d[b.index]? = some y := by
    obtain ⟨hi, -⟩ := List.getElem?_eq_some_iff.mp hx
    exact ⟨_, List.getElem?_eq_getElem (hlength ▸ hi)⟩
  have hsupplied : r.model.Supplied step := by
    rw [LinearModel.Supplied, hterms, List.forall_mem_singleton]
    exact ⟨d, hd, by rw [Block.columnCount_ofRow, Vec.length_unit, hlength]⟩
  have hrow : r.excess step = b.side.excess b.limit (x + y) := by
    rw [LinearRow.excess, hterms, List.map_singleton, List.sum_singleton,
      LinearRow.rhs_eq_of_model hrhs, VectorMap.vector_eq hd, hlength, excess_add]
    exact congrArg (· - _) (Vec.weighted_unit b.side.slope hy)
  exact ⟨_, LinearRow.error_eq_excess hsupplied,
    hrow ▸ residual_eq_ok hnext (Vec.getElem?_add hx hy)⟩

end Bound

/-! ## Affine inequalities -/

namespace Affine

variable {α : Type} [ExactScalar α]

/-- A point that is moved still fits. -/
theorem Fits.of_moves {a : Affine α} {p next : Point α} {step : VectorMap α} (h : a.Fits p)
    (hkeys : ∀ k ∈ a.keys, step.contains k = true) (hmoves : p.Moves step.entries next) :
    a.Fits next := by
  intro t ht
  obtain ⟨x, hx, hfit⟩ := h t ht
  obtain ⟨x', d, hx', -, hlength, hnext⟩ :=
    hmoves.shifted_of_contains (hkeys t.1 (List.mem_map_of_mem ht))
  obtain rfl : x' = x := Option.some.inj (hx'.symm.trans hx)
  exact ⟨_, hnext, by rw [Vec.length_add, ← hlength, min_self, hfit]⟩

/-- The weighted sum at a point that is moved is that at the point and that of the step. -/
theorem excessAt_of_moves {a : Affine α} {p next : Point α} {step : VectorMap α}
    (hkeys : ∀ k ∈ a.keys, step.contains k = true) (hmoves : p.Moves step.entries next) :
    a.excessAt next
      = (a.terms.map fun t => Vec.weighted t.2 (step.vector t.1)).sum + a.excessAt p := by
  have hterm : ∀ t ∈ a.terms, Vec.weighted t.2 (next.vector t.1)
      = Vec.weighted t.2 (p.vector t.1) + Vec.weighted t.2 (step.vector t.1) := by
    intro t ht
    obtain ⟨x, d, hx, hd, hlength, hnext⟩ :=
      hmoves.shifted_of_contains (hkeys t.1 (List.mem_map_of_mem ht))
    rw [Point.vector_eq hnext, Point.vector_eq hx, VectorMap.vector_eq hd,
      Vec.weighted_add t.2 hlength]
  rw [excessAt, excessAt, List.map_congr_left hterm, List.sum_map_add]
  ring

/-- An affine inequality that has a model has the negated value as its right-hand side. -/
theorem model_of_linearize {a : Affine α} {p : Point α} {m : LinearModel α}
    (h : a.linearize p = .ok m) :
    a.Fits p ∧ m.terms = a.terms.map (fun t => (t.1, Block.ofRow t.2)) ∧
      m.rhs = [-a.excessAt p] := by
  obtain ⟨e, hexcess, hnew⟩ := bind_eq_ok_iff.mp h
  obtain ⟨hfits, rfl⟩ := excess_eq_ok_iff_excessAt.mp hexcess
  exact ⟨hfits, LinearModel.new_eq_ok hnew⟩

/-- **The error of an affine inequality's row along a step is the residual at the point moved by
it.** -/
theorem error_eq_residual {a : Affine α} {r : LinearRow α} {p next : Point α}
    {step : VectorMap α} (hmodel : a.linearize p = .ok r.model)
    (hkeys : ∀ k ∈ a.keys, step.contains k = true) (hmoves : p.Moves step.entries next) :
    ∃ e, r.error step = .ok e ∧ a.residual next = .ok [e] := by
  obtain ⟨hfits, hterms, hrhs⟩ := model_of_linearize hmodel
  have hsupplied : r.model.Supplied step := by
    rw [LinearModel.Supplied, hterms, List.forall_mem_map]
    intro t ht
    obtain ⟨x, hx, hfit⟩ := hfits t ht
    obtain ⟨x', d, hx', hd, hlength, -⟩ :=
      hmoves.shifted_of_contains (hkeys t.1 (List.mem_map_of_mem ht))
    obtain rfl : x' = x := Option.some.inj (hx'.symm.trans hx)
    exact ⟨d, hd, by rw [Block.columnCount_ofRow, hfit, hlength]⟩
  have hrow : r.excess step = a.excessAt next := by
    rw [LinearRow.excess, hterms, LinearRow.rhs_eq_of_model hrhs, List.map_map,
      excessAt_of_moves hkeys hmoves, sub_neg_eq_add]
    rfl
  have hnext : a.excess next = .ok (a.excessAt next) :=
    excess_eq_ok_iff_excessAt.mpr ⟨hfits.of_moves hkeys hmoves, rfl⟩
  exact ⟨_, LinearRow.error_eq_excess hsupplied, map_eq_ok_iff.mpr ⟨_, hnext, by rw [hrow]⟩⟩

end Affine

end SqpInequality

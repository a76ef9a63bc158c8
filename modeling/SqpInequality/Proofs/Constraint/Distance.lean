import SqpInequality.Proofs.Constraint.BuiltIn
import SqpInequality.Proofs.Exact.Norm
import SqpInequality.Proofs.Graph.Linearize

/-!
# Proofs/Constraint/Distance — the row of a distance is an outer approximation

    along a step:   ‖d‖ + u · e   ≤   ‖d + e‖        u = d / ‖d‖, or zero if ‖d‖ is small
                    row of the        distance at the
                    distance          point moved

A distance is convex, and its row is a tangent, so the row is nowhere above the distance
(`MaxDistance.tangent_le`).  Where the points coincide only up to `Scalar.epsilon` the row is flat
although the distance is not, and exceeds it by less than that.  So a point that the constraint
admits is at most so far beyond the row (`MaxDistance.error_le_scalarError_of_retract`).
-/

namespace SqpInequality

namespace MaxDistance

section Evaluation

variable {α : Type} [Scalar α] {c : MaxDistance α} {p : Point α} {d x y : Vec α}

theorem difference_eq (hx : p.get? c.first = some x) (hy : p.get? c.second = some y)
    (h : x.length = y.length) : c.difference p = .ok (Vec.sub x y) := by
  rw [difference, Point.value_eq hx, Point.value_eq hy]
  exact if_pos h

theorem residual_eq (h : c.difference p = .ok d) :
    (Constraint.distance c).residual p = .ok [Vec.norm d - c.limit] := by
  rw [Constraint.residual, residual, h]
  rfl

theorem scalarError_eq (h : c.difference p = .ok d) :
    (Constraint.distance c).scalarError p = .ok (Vec.norm d - c.limit) := by
  rw [Constraint.scalarError, residual_eq h]
  rfl

/-- A distance that has a value has a row. -/
theorem exists_row (h : c.difference p = .ok d) :
    ∃ r : LinearRow α, (Constraint.distance c).LinearizesTo p r ∧
      r.model.terms = [(c.first, Block.ofRow (direction d)),
        (c.second, Block.ofRow (Vec.neg (direction d)))] ∧
      r.rhs = c.limit - Vec.norm d := by
  have hdistinct : [c.first, c.second].Nodup := by
    rw [List.nodup_cons, List.mem_singleton]
    exact ⟨c.distinct, List.nodup_singleton _⟩
  have hnew : ∃ m, LinearModel.new [(c.first, Block.ofRow (direction d)),
      (c.second, Block.ofRow (Vec.neg (direction d)))] [c.limit - Vec.norm d] = .ok m :=
    LinearModel.exists_new
      (List.forall_mem_cons.mpr ⟨rfl, List.forall_mem_singleton.mpr rfl⟩) hdistinct
  obtain ⟨m, hm⟩ := hnew
  obtain ⟨hterms, hrhs⟩ := LinearModel.new_eq_ok hm
  refine ⟨⟨m, c.dualKey, by rw [LinearModel.rowCount, hrhs, List.length_singleton]⟩, ⟨?_, rfl⟩,
    hterms, LinearRow.rhs_eq_of_model hrhs⟩
  rw [Constraint.linearize, linearize, h]
  exact mapError_eq_ok_iff.mpr hm

end Evaluation

/-! ## The row and the distance along a step -/

/-- The error of a distance's row along a step: the tangent in the direction in which the points
move apart, less the limit. -/
theorem excess_eq {α : Type} [ExactScalar α] {c : MaxDistance α} {r : LinearRow α}
    {step : VectorMap α} {d a b : Vec α}
    (hterms : r.model.terms = [(c.first, Block.ofRow (direction d)),
      (c.second, Block.ofRow (Vec.neg (direction d)))])
    (hrhs : r.rhs = c.limit - Vec.norm d) (ha : step.get? c.first = some a)
    (hb : step.get? c.second = some b) (hlength : a.length = b.length) :
    r.excess step
      = Vec.norm d + Vec.weighted (direction d) (Vec.sub a b) - c.limit := by
  rw [LinearRow.excess, hterms, hrhs]
  simp only [List.map_cons, List.map_nil, List.sum_cons, List.sum_nil, VectorMap.vector_eq ha,
    VectorMap.vector_eq hb]
  change Vec.weighted (direction d) a + (Vec.weighted (Vec.neg (direction d)) b + 0) - _ = _
  rw [Vec.weighted_neg, Vec.weighted_sub _ hlength]
  ring

variable {α : Type} [NormedScalar α]

/-- **The tangent at a vector lies below the norm**, and by no more than `Scalar.epsilon` above it
where it is taken to be flat. -/
theorem tangent_le {d e : Vec α} (h : d.length = e.length) :
    (Vec.norm d = 0 ∨ Scalar.epsilon < Vec.norm d →
      Vec.norm d + Vec.weighted (direction d) e ≤ Vec.norm (Vec.add d e)) ∧
    Vec.norm d + Vec.weighted (direction d) e ≤ Vec.norm (Vec.add d e) + Scalar.epsilon := by
  have hnonneg := NormedScalar.norm_nonneg (Vec.add d e)
  have hepsilon : (0 : α) ≤ Scalar.epsilon := NormedScalar.epsilon_nonneg
  by_cases hfar : Scalar.epsilon < Vec.norm d
  · have htangent : Vec.norm d + Vec.weighted (direction d) e ≤ Vec.norm (Vec.add d e) := by
      rw [direction, if_pos hfar]
      exact Vec.norm_add_weighted_divide_le h (hepsilon.trans_lt hfar)
    exact ⟨fun _ => htangent, by linarith⟩
  · have hflat : Vec.weighted (direction d) e = 0 := by
      rw [direction, if_neg hfar, Vec.weighted_zero]
    rw [hflat, add_zero]
    refine ⟨fun h => ?_, ?_⟩
    · rw [h.resolve_right hfar]
      exact hnonneg
    · linarith [not_lt.mp hfar]

/-- **The row of a distance is an outer approximation.**  Along a step of both points its error is
at most the residual at the point moved by the step, if the points coincide or are further apart
than `Scalar.epsilon`, and by no more than that above it if not.  So the row keeps, up to
`Scalar.epsilon`, every point that the constraint admits.  The point can be moved if the step has
its dimensions. -/
theorem error_le_scalarError_of_retract {c : MaxDistance α} {p : Point α} {step : VectorMap α}
    {x y a b : Vec α} (hx : p.get? c.first = some x) (hy : p.get? c.second = some y)
    (hpoints : x.length = y.length) (ha : step.get? c.first = some a)
    (hb : step.get? c.second = some b) (hfirst : x.length = a.length)
    (hsecond : y.length = b.length) :
    ∃ (row : LinearRow α) (e : α), (Constraint.distance c).LinearizesTo p row ∧
      row.model.error step = .ok [e] ∧
      ((∀ t ∈ step.entries, p.dimension? t.1 = some t.2.length) →
        ∃ next, p.retract step = .ok next) ∧
      ∀ next, p.retract step = .ok next →
        ∃ s, (Constraint.distance c).scalarError next = .ok s ∧
          (Vec.norm (Vec.sub x y) = 0 ∨ Scalar.epsilon < Vec.norm (Vec.sub x y) → e ≤ s) ∧
          e ≤ s + Scalar.epsilon ∧
          ∀ tolerance, s ≤ tolerance →
            row.isSatisfied step (tolerance + Scalar.epsilon) = .ok true := by
  have hd := difference_eq hx hy hpoints
  have hsteps : a.length = b.length := by rw [← hfirst, hpoints, hsecond]
  have hlength : (Vec.sub x y).length = (Vec.sub a b).length := by
    rw [Vec.length_sub, Vec.length_sub, hfirst, hsecond]
  obtain ⟨row, hrow, hterms, hrhs⟩ := exists_row hd
  have hsupplied : row.model.Supplied step := by
    rw [LinearModel.Supplied, hterms, List.forall_mem_cons, List.forall_mem_singleton]
    refine ⟨⟨a, ha, ?_⟩, b, hb, ?_⟩
    · rw [Block.columnCount_ofRow, length_direction, Vec.length_sub, ← hpoints, Nat.min_self,
        hfirst]
    · rw [Block.columnCount_ofRow, Vec.length_neg, length_direction, Vec.length_sub, hpoints,
        Nat.min_self, hsecond]
  refine ⟨row, row.excess step, hrow, LinearRow.error_model_eq_excess hsupplied,
    Point.exists_retract, fun next hnext => ?_⟩
  have hmoves := Point.moves_of_retract hnext
  obtain ⟨x', hx', -, hnextx⟩ := hmoves.shifted c.first a ha
  obtain ⟨y', hy', -, hnexty⟩ := hmoves.shifted c.second b hb
  obtain rfl : x' = x := Option.some.inj (hx'.symm.trans hx)
  obtain rfl : y' = y := Option.some.inj (hy'.symm.trans hy)
  have hmoved : c.difference next = .ok (Vec.add (Vec.sub x' y') (Vec.sub a b)) := by
    rw [← Vec.sub_add_add hpoints hsteps]
    refine difference_eq hnextx hnexty ?_
    rw [Vec.length_add, Vec.length_add, hpoints, hsteps]
  obtain ⟨hbelow, hclose⟩ := tangent_le hlength
  have hexcess := excess_eq hterms hrhs ha hb hsteps
  have herror : row.excess step
      ≤ Vec.norm (Vec.add (Vec.sub x' y') (Vec.sub a b)) - c.limit + Scalar.epsilon := by
    rw [hexcess]
    linarith
  refine ⟨_, scalarError_eq hmoved, fun hcase => ?_, herror, fun tolerance htolerance => ?_⟩
  · rw [hexcess]
    linarith [hbelow hcase]
  · refine (LinearRow.isSatisfied_iff (LinearRow.error_eq_excess hsupplied)).mpr ?_
    linarith

/-- A distance of at most four between points of the plane. -/
noncomputable def withinFour : MaxDistance ℝ := ⟨0, 1, 4, 100, by decide⟩

/-- Two points at a distance of five. -/
noncomputable def fiveApart : Point ℝ := ⟨.ofList [(0, [3, 4]), (1, [0, 0])]⟩

/-- A step after which the two points are at a distance of five again. -/
noncomputable def turning : VectorMap ℝ := .ofList [(0, [1, 0]), (1, [0, 1])]

/-- The row at two points that are too far apart does not overstate the distance after a step. -/
theorem error_le_scalarError_of_turning :
    ∃ (row : LinearRow ℝ) (e s : ℝ) (next : Point ℝ),
      (Constraint.distance withinFour).LinearizesTo fiveApart row ∧
      row.model.error turning = .ok [e] ∧ fiveApart.retract turning = .ok next ∧
      (Constraint.distance withinFour).scalarError next = .ok s ∧ e ≤ s + Scalar.epsilon := by
  have hx : fiveApart.get? withinFour.first = some [3, 4] := rfl
  have hy : fiveApart.get? withinFour.second = some [0, 0] := rfl
  have ha : turning.get? withinFour.first = some [1, 0] := rfl
  have hb : turning.get? withinFour.second = some [0, 1] := rfl
  have hdimensions : ∀ t ∈ turning.entries, fiveApart.dimension? t.1 = some t.2.length :=
    List.forall_mem_cons.mpr ⟨rfl, List.forall_mem_singleton.mpr rfl⟩
  obtain ⟨row, e, hrow, he, hmoved, hnext⟩ :=
    error_le_scalarError_of_retract hx hy rfl ha hb rfl rfl
  obtain ⟨next, hretract⟩ := hmoved hdimensions
  obtain ⟨s, hs, -, hle, -⟩ := hnext next hretract
  exact ⟨row, e, s, next, hrow, he, hretract, hs, hle⟩

end MaxDistance

end SqpInequality

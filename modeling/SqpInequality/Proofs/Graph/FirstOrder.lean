import SqpInequality.Proofs.Constraint.FirstOrder
import SqpInequality.Proofs.Kkt.FirstFailure

/-!
# Proofs/Graph/FirstOrder — a step that the rows accept leads to a point that the check accepts

For a graph of bounds and affine inequalities the linear system is not an approximation: along a
step its errors are the residuals at the point moved by the step, so both services of the graph come
to one verdict (`Graph.errors_eq_scalarError_of_retract`).
-/

namespace SqpInequality

namespace Constraint

variable {α : Type}

/-- Whether a constraint is a bound or an affine inequality. -/
def isAffine : Constraint α → Bool
  | bound _ | affine _ => true
  | _ => false

variable [ExactScalar α]

/-- **The error of a constraint's row along a step is the residual at the point moved by it.** -/
theorem error_eq_scalarError {c : Constraint α} {r : LinearRow α} {p next : Point α}
    {step : VectorMap α} (hkind : c.isAffine = true) (hrow : c.LinearizesTo p r)
    (hkeys : ∀ k ∈ c.keys, step.contains k = true) (hmoves : p.Moves step.entries next) :
    ∃ e, r.error step = .ok e ∧ c.scalarError next = .ok e := by
  have hresidual : ∃ e, r.error step = .ok e ∧ c.residual next = .ok [e] := by
    cases c with
    | bound b =>
      obtain ⟨e, he, hb⟩ := Bound.error_eq_residual (mapError_eq_ok_iff.mp hrow.1)
        (hkeys b.key (List.mem_singleton_self _)) hmoves
      exact ⟨e, he, mapError_eq_ok_iff.mpr hb⟩
    | affine a =>
      obtain ⟨e, he, ha⟩ := Affine.error_eq_residual (mapError_eq_ok_iff.mp hrow.1) hkeys hmoves
      exact ⟨e, he, mapError_eq_ok_iff.mpr ha⟩
    | distance _ => contradiction
    | numerical _ => contradiction
    | custom _ => contradiction
  exact hresidual.imp fun e h => h.imp_right scalarError_eq_ok_iff.mpr

/-- Without multipliers a constraint passes exactly if its residual is at most the tolerance. -/
theorem passes_empty_iff {c : Constraint α} {p : Point α} {tolerance e : α}
    (h : c.scalarError p = .ok e) : c.Passes p .empty tolerance ↔ e ≤ tolerance := by
  have he := scalarError_eq_ok_iff.mp h
  constructor
  · rintro ⟨e', he', -, hle, -⟩
    rw [he] at he'
    cases he'
    exact not_lt.mp hle
  · intro hle
    exact ⟨e, he, ExactScalar.isNaN_eq_false e, not_lt.mpr hle, fun hactive => (nomatch hactive)⟩

end Constraint

namespace Graph

variable {α : Type} [ExactScalar α]

/-- **The errors of the rows along a step are the residuals at the point moved by it.  So the rows
all hold along the step exactly if the check, without multipliers, accepts that point.** -/
theorem errors_eq_scalarError_of_retract {g : Graph α} {p next : Point α} {s : LinearSystem α}
    {step : VectorMap α} (hkind : ∀ c ∈ g.constraints, c.isAffine = true)
    (hlinear : (g.linearize p).outcome = .ok s)
    (hkeys : ∀ c ∈ g.constraints, ∀ k ∈ c.keys, step.contains k = true)
    (hnext : p.retract step = .ok next) :
    (∃ errors, s.errors step = .ok errors ∧
      g.constraints.map (fun c => c.scalarError next) = errors.map .ok) ∧
    ∀ tolerance, 0 ≤ tolerance →
      ((∀ r ∈ s.rows, r.isSatisfied step tolerance = .ok true) ↔
        ∃ report, (g.report next .empty tolerance).outcome = .ok report ∧
          report.status = .satisfied) := by
  have hmoves := Point.moves_of_retract hnext
  have hrows := outcome_linearize_eq_ok_iff.mp hlinear
  have hsame : List.Forall₂ (fun c r => ∃ e, c.scalarError next = .ok e ∧ r.error step = .ok e)
      g.constraints s.rows := by
    have hboth := (List.forall₂_and_left _ _).mpr
      ⟨fun c hc => And.intro (hkind c hc) (hkeys c hc), hrows⟩
    exact hboth.imp fun c r h =>
      (Constraint.error_eq_scalarError h.1.1 h.2 h.1.2 hmoves).imp fun _ he => he.symm
  refine ⟨?_, fun tolerance ht => ?_⟩
  · obtain ⟨errors, hscalar, herrors⟩ := exists_forall₂_of_forall₂_exists hsame
    refine ⟨errors, mapM_eq_ok_iff.mpr herrors, ?_⟩
    rw [← List.forall₂_eq_eq_eq, List.forall₂_map_left_iff, List.forall₂_map_right_iff]
    exact hscalar
  · rw [report_satisfied_iff (Scalar.isLimit_iff.mpr ht)]
    refine (forall_mem_congr_of_forall₂ (hsame.imp fun c r he => ?_)).symm
    obtain ⟨e, hc, hr⟩ := he
    rw [Constraint.passes_empty_iff hc, LinearRow.isSatisfied_iff hr]

/-- A bound from above, one from below, and an affine inequality that shares their variable. -/
def threeKinds : Graph ℚ where
  constraints :=
    [ .bound (.upper 0 0 1 100), .bound (.lower 0 1 0 101),
      .affine ⟨[(0, [1, 1]), (1, [2])], 4, 102, by decide, by decide⟩ ]

/-- A point with one variable more than the constraints use. -/
def threeKindsPoint : Point ℚ := ⟨.ofList [(0, [3, 2]), (1, [3]), (2, [5])]⟩

/-- A step that leads to where every constraint holds. -/
def threeKindsStep : VectorMap ℚ := .ofList [(0, [-2, -1]), (1, [-2])]

theorem rows_hold_of_threeKinds :
    ∃ s next, (threeKinds.linearize threeKindsPoint).outcome = .ok s ∧
      threeKindsPoint.retract threeKindsStep = .ok next ∧
      (∃ report, (threeKinds.report next .empty 0).outcome = .ok report ∧
        report.status = .satisfied) ∧
      ∀ r ∈ s.rows, r.isSatisfied threeKindsStep 0 = .ok true := by
  have hnext : threeKindsPoint.retract threeKindsStep = .ok _ := rfl
  have hkeys : (threeKinds.constraints.all fun c => c.keys.all threeKindsStep.contains) = true :=
    rfl
  simp only [List.all_eq_true] at hkeys
  obtain ⟨-, hverdict⟩ := errors_eq_scalarError_of_retract (by decide) rfl hkeys hnext
  refine ⟨_, _, rfl, rfl, ?_⟩
  rw [← hverdict 0 le_rfl, and_self, ← List.forall_iff_forall_mem]
  refine ⟨?_, ?_, ?_⟩
  all_goals exact (LinearRow.isSatisfied_iff rfl).mpr (by decide +kernel)

end Graph

end SqpInequality

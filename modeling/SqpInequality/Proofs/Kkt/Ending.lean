import SqpInequality.Proofs.Kkt.FirstFailure

/-!
# Proofs/Kkt/Ending — the four ways in which a check ends

    c₀ … cₙ₋₁ pass                                        accepted
    c₀ … cₖ₋₁ pass, and cₖ  has no scalar residual        failed
                            is above the tolerance        infeasible
                            is active and not tight       violated

A check ends in one of these ways, and its report is then known to the last number
(`Graph.ending_report`).
-/

namespace SqpInequality

variable {α : Type} [Scalar α]

namespace Kkt

namespace Report

/-- The report that ends at a residual above the tolerance, or at one that is no number. -/
def infeasible (r : Report α) (dualKey : Key) (e : α) : Report α :=
  { r.count e with status := .primalInfeasible ⟨r.evaluated, dualKey, e⟩ }

/-- The report that ends at an active residual that is not tight. -/
def violated (r : Report α) (dualKey : Key) (e : α) : Report α :=
  { (r.count e).countActive with status := .complementarityViolated ⟨r.evaluated, dualKey, e⟩ }

end Report

/-- **How a check ends** that goes on from a report over some constraints. -/
inductive Ending (p : Point α) (duals : VectorMap α) (tolerance : α) (r : Report α) :
    List (Constraint α) → Except (Failure α) (Report α) → Prop where
  /-- Every constraint passes. -/
  | accepted {cs : List (Constraint α)} (hall : ∀ c ∈ cs, c.Passes p duals tolerance) :
      Ending p duals tolerance r cs (.ok (cs.foldl (Report.pass p duals) r))
  /-- Behind constraints that pass, one has no scalar residual. -/
  | failed {pre : List (Constraint α)} {c : Constraint α} {post : List (Constraint α)}
      {failure : Failure α} (hpre : ∀ d ∈ pre, d.Passes p duals tolerance)
      (hc : c.scalarError p = .error failure) :
      Ending p duals tolerance r (pre ++ c :: post) (.error failure)
  /-- Behind constraints that pass, one is above the tolerance or no number. -/
  | infeasible {pre : List (Constraint α)} {c : Constraint α} {post : List (Constraint α)} {e : α}
      (hpre : ∀ d ∈ pre, d.Passes p duals tolerance) (hc : c.scalarError p = .ok e)
      (he : tolerance < e ∨ Scalar.isNaN e = true) :
      Ending p duals tolerance r (pre ++ c :: post)
        (.ok ((pre.foldl (Report.pass p duals) r).infeasible c.dualKey e))
  /-- Behind constraints that pass, one holds and is active, and is not tight. -/
  | violated {pre : List (Constraint α)} {c : Constraint α} {post : List (Constraint α)} {e : α}
      (hpre : ∀ d ∈ pre, d.Passes p duals tolerance) (hc : c.scalarError p = .ok e)
      (hholds : ¬ (tolerance < e ∨ Scalar.isNaN e = true))
      (hactive : duals.contains c.dualKey = true) (he : tolerance < Scalar.abs e) :
      Ending p duals tolerance r (pre ++ c :: post)
        (.ok ((pre.foldl (Report.pass p duals) r).violated c.dualKey e))

variable {p : Point α} {duals : VectorMap α} {tolerance : α}

/-- In front of a check a constraint may stand that passes. -/
theorem Ending.cons {c : Constraint α} {r : Report α} {cs : List (Constraint α)}
    {outcome : Except (Failure α) (Report α)} (hc : c.Passes p duals tolerance)
    (h : Ending p duals tolerance (r.pass p duals c) cs outcome) :
    Ending p duals tolerance r (c :: cs) outcome := by
  cases h with
  | accepted hall => exact accepted (List.forall_mem_cons.mpr ⟨hc, hall⟩)
  | failed hpre hd =>
    rw [← List.cons_append]
    exact failed (List.forall_mem_cons.mpr ⟨hc, hpre⟩) hd
  | infeasible hpre hd he =>
    rw [← List.cons_append]
    exact infeasible (List.forall_mem_cons.mpr ⟨hc, hpre⟩) hd he
  | violated hpre hd hholds hactive he =>
    rw [← List.cons_append]
    exact violated (List.forall_mem_cons.mpr ⟨hc, hpre⟩) hd hholds hactive he

end Kkt

namespace Graph

open Kkt (Ending)

variable {p : Point α} {duals : VectorMap α} {tolerance : α}

/-- **A check ends in one of the four ways**, from whatever report on. -/
theorem ending_reportFrom : ∀ (cs : List (Constraint α)) (r : Kkt.Report α),
    Ending p duals tolerance r cs (reportFrom p duals tolerance r cs).outcome
  | [], _ => .accepted fun _ hc => (nomatch hc)
  | c :: cs, r => by
    have hnone : ∀ d ∈ ([] : List (Constraint α)), d.Passes p duals tolerance :=
      fun _ hd => (nomatch hd)
    by_cases hpasses : c.Passes p duals tolerance
    · rw [reportFrom_of_passes hpasses]
      exact (ending_reportFrom cs _).cons hpasses
    · cases hc : c.scalarError p with
      | error failure =>
        rw [reportFrom_of_error hc]
        exact .failed hnone hc
      | ok e =>
        rw [reportFrom_of_ok hc]
        by_cases he : tolerance < e ∨ Scalar.isNaN e = true
        · simp only [if_pos he]
          exact .infeasible hnone hc he
        · have hviolates := Constraint.violates_of_not_passes hpasses
            (Constraint.scalarError_eq_ok_iff.mp hc) he
          simp only [if_neg he, if_pos hviolates.1, if_pos hviolates.2]
          exact .violated hnone hc he hviolates.1 hviolates.2

/-- **A check whose tolerance is accepted ends in one of the four ways.** -/
theorem ending_report (ht : Scalar.isLimit tolerance = true) (g : Graph α) :
    Ending p duals tolerance (.initial tolerance) g.constraints
      (g.report p duals tolerance).outcome := by
  rw [report_of_limit ht]
  exact ending_reportFrom g.constraints _

/-- A report is known by the way in which its check ended. -/
theorem ending_of_report {g : Graph α} {r : Kkt.Report α}
    (h : (g.report p duals tolerance).outcome = .ok r) :
    Ending p duals tolerance (.initial tolerance) g.constraints (.ok r) :=
  h ▸ ending_report (isLimit_of_report h) g

/-- A check comes no further than a constraint without a scalar residual. -/
theorem outcome_report_of_error (ht : Scalar.isLimit tolerance = true)
    {pre post : List (Constraint α)} {c : Constraint α} {failure : Failure α}
    (hpre : ∀ d ∈ pre, d.Passes p duals tolerance) (hc : c.scalarError p = .error failure) :
    ((⟨pre ++ c :: post⟩ : Graph α).report p duals tolerance).outcome = .error failure := by
  rw [report_of_limit ht, outcome_reportFrom_append hpre, reportFrom_of_error hc]

/-- **A rejection is about the last constraint that was evaluated**, which has a scalar residual and
stands behind constraints that pass. -/
theorem exists_split_of_site {g : Graph α} {r : Kkt.Report α} {site : Kkt.Site α}
    (h : (g.report p duals tolerance).outcome = .ok r) (hsite : r.status.site? = some site) :
    ∃ pre c post, g.constraints = pre ++ c :: post ∧ (∀ d ∈ pre, d.Passes p duals tolerance) ∧
      c.scalarError p = .ok site.error ∧ c.dualKey = site.dualKey ∧ site.index = pre.length ∧
      r.evaluated = site.index + 1 := by
  obtain ⟨cs⟩ := g
  have hending : Ending p duals tolerance (.initial tolerance) cs (.ok r) := ending_of_report h
  cases hending with
  | accepted hall =>
    rw [Kkt.Report.status_foldl_pass] at hsite
    contradiction
  | infeasible hpre hc he =>
    obtain rfl := Option.some.inj hsite
    exact ⟨_, _, _, rfl, hpre, hc, rfl, evaluated_foldl_pass_initial hpre, rfl⟩
  | violated hpre hc hholds hactive he =>
    obtain rfl := Option.some.inj hsite
    exact ⟨_, _, _, rfl, hpre, hc, rfl, evaluated_foldl_pass_initial hpre, rfl⟩

/-- The constraint that a rejection is about is found in its place. -/
theorem get?_of_site {g : Graph α} {r : Kkt.Report α} {site : Kkt.Site α}
    (h : (g.report p duals tolerance).outcome = .ok r) (hsite : r.status.site? = some site) :
    ∃ c, g.get? site.index = some c ∧ c.dualKey = site.dualKey ∧
      r.evaluated = site.index + 1 := by
  obtain ⟨pre, c, post, hsplit, -, -, hkey, hindex, hevaluated⟩ := exists_split_of_site h hsite
  refine ⟨c, ?_, hkey, hevaluated⟩
  rw [get?, hsplit, hindex, List.getElem?_append_right (Nat.le_refl _), Nat.sub_self,
    List.getElem?_cons_zero]

end Graph

end SqpInequality

import SqpInequality.Proofs.Binary64.Rank
import SqpInequality.Proofs.Kkt.FirstFailure

/-!
# Proofs/Kkt/Behind — a report on constraints that stand behind others

A check that goes on from a report on earlier constraints finds what a check of its own would find,
read behind that report (`Graph.outcome_reportFrom_behind`): places and numbers of constraints add
up, and of two largest violations the larger counts.
-/

namespace SqpInequality

namespace Kkt

variable {α : Type}

/-- The constraint of a verdict, with `n` more constraints in front of it. -/
def Site.shift (n : Nat) (site : Site α) : Site α := { site with index := n + site.index }

/-- A verdict on constraints, with `n` more constraints in front of them. -/
def Status.shift (n : Nat) : Status α → Status α
  | satisfied => satisfied
  | primalInfeasible site => primalInfeasible (site.shift n)
  | complementarityViolated site => complementarityViolated (site.shift n)

namespace Report

/-- **A report behind another**: `r` as the summary of a check that has come through the constraints
of `base` before. -/
def behind (base r : Report Float) : Report Float where
  status := r.status.shift base.evaluated
  tolerance := r.tolerance
  evaluated := base.evaluated + r.evaluated
  active := base.active + r.active
  maxViolation := larger base.maxViolation r.maxViolation

/-- A check goes on counting behind another report as it would on its own. -/
theorem count_behind (base : Report Float) {r : Report Float} (h : r.maxViolation.isNaN = false)
    (e : Float) : (base.behind r).count e = base.behind (r.count e) :=
  congrArg (Report.mk (r.status.shift base.evaluated) r.tolerance
    (base.evaluated + (r.evaluated + 1)) (base.active + r.active)) (larger_assoc h e)

/-! ## The report of a check under way -/

/-- **A check under way** has rejected nothing, keeps its tolerance, and its largest violation is a
number that is not negative. -/
structure UnderWay (tolerance : Float) (r : Report Float) : Prop where
  /-- Nothing is rejected. -/
  status_eq : r.status = .satisfied
  /-- The tolerance is that of the check. -/
  tolerance_eq : r.tolerance = tolerance
  /-- The largest violation is a number. -/
  isNaN_eq : r.maxViolation.isNaN = false
  /-- The largest violation is not negative. -/
  not_lt_zero : ¬ r.maxViolation < 0

theorem underWay_initial (tolerance : Float) : UnderWay tolerance (.initial tolerance) where
  status_eq := rfl
  tolerance_eq := rfl
  isNaN_eq := by
    change Float.isNaN 0 = false
    decide
  not_lt_zero := by
    change ¬ (0 : Float) < 0
    decide

variable {tolerance : Float} {r : Report Float}

theorem UnderWay.count (h : UnderWay tolerance r) (e : Float) : UnderWay tolerance (r.count e) :=
  ⟨h.status_eq, h.tolerance_eq, isNaN_larger h.isNaN_eq, not_larger_lt h.not_lt_zero⟩

theorem UnderWay.countActive (h : UnderWay tolerance r) : UnderWay tolerance r.countActive :=
  ⟨h.status_eq, h.tolerance_eq, h.isNaN_eq, h.not_lt_zero⟩

theorem UnderWay.pass (h : UnderWay tolerance r) (p : Point Float) (duals : VectorMap Float)
    (c : Constraint Float) : UnderWay tolerance (r.pass p duals c) := by
  rw [Report.pass]
  split
  · split
    · exact (h.count _).countActive
    · exact h.count _
  · exact h

theorem UnderWay.foldl_pass (p : Point Float) (duals : VectorMap Float) :
    ∀ (cs : List (Constraint Float)) {r : Report Float}, UnderWay tolerance r →
      UnderWay tolerance (cs.foldl (Report.pass p duals) r)
  | [], _, h => h
  | c :: cs, _, h => UnderWay.foldl_pass p duals cs (h.pass p duals c)

/-- Behind a check under way, one that has not begun adds nothing. -/
theorem UnderWay.behind_initial (h : UnderWay tolerance r) : r.behind (.initial tolerance) = r := by
  obtain ⟨hstatus, rfl, -, hnonneg⟩ := h
  have hmax : larger r.maxViolation 0 = r.maxViolation := larger_of_not_lt hnonneg
  calc r.behind (.initial r.tolerance)
      = ⟨.satisfied, r.tolerance, r.evaluated, r.active, larger r.maxViolation 0⟩ := rfl
    _ = r := by rw [hmax, ← hstatus]

end Report

end Kkt

namespace Graph

variable {p : Point Float} {duals : VectorMap Float} {tolerance : Float}

/-- **A check behind a report finds what it would find on its own**, read behind that report. -/
theorem outcome_reportFrom_behind (base : Kkt.Report Float) : ∀ (cs : List (Constraint Float))
    {r : Kkt.Report Float} (_ : r.maxViolation.isNaN = false),
    (reportFrom p duals tolerance (base.behind r) cs).outcome
      = (reportFrom p duals tolerance r cs).outcome.map base.behind
  | [], _, _ => rfl
  | c :: cs, r, hr => by
    cases hs : c.scalarError p with
    | error failure =>
      rw [reportFrom_of_error hs, reportFrom_of_error hs]
      rfl
    | ok e =>
      -- Both runs decide alike, as no test reads the report.
      have hnumber : (r.count e).maxViolation.isNaN = false := isNaN_larger hr
      rw [reportFrom_of_ok hs, reportFrom_of_ok hs, Kkt.Report.count_behind base hr]
      by_cases hp : tolerance < e ∨ Scalar.isNaN e = true
      · simp only [if_pos hp]
        rfl
      · simp only [if_neg hp]
        by_cases hd : duals.contains c.dualKey = true
        · simp only [if_pos hd]
          by_cases ha : tolerance < Scalar.abs e
          · simp only [if_pos ha]
            rfl
          · simp only [if_neg ha]
            exact outcome_reportFrom_behind base cs (r := (r.count e).countActive) hnumber
        · simp only [if_neg hd]
          exact outcome_reportFrom_behind base cs hnumber

end Graph

end SqpInequality

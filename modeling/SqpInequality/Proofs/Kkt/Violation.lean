import SqpInequality.Proofs.Binary64.Sign
import SqpInequality.Proofs.Kkt.Ending

/-!
# Proofs/Kkt/Violation — what the numbers of a report say

    residuals:       e₀   e₁   …   eₖ₋₁   eₖ           (all evaluated, in order)
    satisfied:       all numbers and at most the tolerance
    violated:        eₖ  too, and further from zero than the tolerance, so below its negation
    infeasible:      eₖ  above the tolerance, and so above all before it, or no number

The largest violation is the largest of zero and those residuals that are numbers
(`IsMaxViolation`).  Constraints that pass keep it within the tolerance
(`Report.Passed.foldl_pass`), and the constraint that decides the check settles the rest
(`Graph.report_numbers`).
-/

namespace SqpInequality

/-! ## The largest of zero and some residuals -/

/-- **The largest violation of some residuals**: a number that is not negative, at least each of the
residuals that is a number, and zero or one of them. -/
structure IsMaxViolation (es : List Float) (m : Float) : Prop where
  /-- It is a number. -/
  isNaN_eq : m.isNaN = false
  /-- It is not negative. -/
  zero_le : 0 ≤ m
  /-- No residual is larger. -/
  le_of_mem : ∀ e ∈ es, e.isNaN = false → e ≤ m
  /-- It is zero or a residual. -/
  eq_zero_or_mem : m = 0 ∨ m ∈ es

theorem isMaxViolation_nil : IsMaxViolation [] 0 where
  isNaN_eq := rfl
  zero_le := float_le_refl rfl
  le_of_mem := fun _ he => (nomatch he)
  eq_zero_or_mem := Or.inl rfl

/-- With one more residual the larger of the two counts; what is no number is never larger. -/
theorem IsMaxViolation.concat {es : List Float} {m : Float} (h : IsMaxViolation es m) (e : Float) :
    IsMaxViolation (es ++ [e]) (larger m e) where
  isNaN_eq := isNaN_larger h.isNaN_eq
  zero_le := float_le_trans h.zero_le (le_larger_left h.isNaN_eq)
  le_of_mem := by
    intro d hd hnumber
    rcases List.mem_append.mp hd with hd | hd
    · exact float_le_trans (h.le_of_mem d hd hnumber) (le_larger_left h.isNaN_eq)
    · obtain rfl := List.mem_singleton.mp hd
      exact le_larger_right h.isNaN_eq hnumber
  eq_zero_or_mem := by
    by_cases hlt : m < e
    · rw [larger_of_lt hlt]
      exact Or.inr (List.mem_append_right _ List.mem_cons_self)
    · rw [larger_of_not_lt hlt]
      exact h.eq_zero_or_mem.imp_right (List.mem_append_left _)

/-! ## Constraints that pass -/

namespace Kkt.Report

variable {p : Point Float} {duals : VectorMap Float} {tolerance : Float}

/-- **A report covers some constraints**: they have scalar residuals, of which it has the largest
violation. -/
def Covers (p : Point Float) (cs : List (Constraint Float)) (r : Report Float) : Prop :=
  ∃ es, List.Forall₂ (fun c e => c.scalarError p = .ok e) cs es ∧ IsMaxViolation es r.maxViolation

theorem Covers.count {cs : List (Constraint Float)} {r : Report Float} (h : Covers p cs r)
    {c : Constraint Float} {e : Float} (hc : c.scalarError p = .ok e) :
    Covers p (cs ++ [c]) (r.count e) := by
  obtain ⟨es, hes, hmax⟩ := h
  exact ⟨es ++ [e], List.rel_append hes (.cons hc .nil), hmax.concat e⟩

/-- **The report on constraints that have passed** covers them, within the tolerance. -/
structure Passed (p : Point Float) (tolerance : Float) (cs : List (Constraint Float))
    (r : Report Float) : Prop where
  /-- It covers the constraints. -/
  covers : Covers p cs r
  /-- No residual is above the tolerance. -/
  le : r.maxViolation ≤ tolerance

theorem passed_initial (ht : Scalar.isLimit tolerance = true) :
    Passed p tolerance [] (.initial tolerance) where
  covers := ⟨[], .nil, isMaxViolation_nil⟩
  le := of_decide_eq_true (Bool.and_eq_true_iff.mp ht).2

theorem Passed.pass {cs : List (Constraint Float)} {r : Report Float} (h : Passed p tolerance cs r)
    {c : Constraint Float} (hc : c.Passes p duals tolerance) :
    Passed p tolerance (cs ++ [c]) (r.pass p duals c) := by
  obtain ⟨e, he, hnumber, hholds, -⟩ := hc
  have hs : c.scalarError p = .ok e := Constraint.scalarError_eq he
  have hle : e ≤ tolerance :=
    float_le_iff_not_lt.mpr ⟨hnumber, (float_le_iff_not_lt.mp h.le).2.1, hholds⟩
  have hcounted : Passed p tolerance (cs ++ [c]) (r.count e) :=
    ⟨h.covers.count hs, larger_le h.le hle⟩
  rw [Report.pass, hs]
  dsimp only
  split
  · exact ⟨hcounted.covers, hcounted.le⟩
  · exact hcounted

theorem Passed.foldl_pass : ∀ {cs : List (Constraint Float)}
    (_ : ∀ c ∈ cs, c.Passes p duals tolerance) {earlier : List (Constraint Float)}
    {r : Report Float}, Passed p tolerance earlier r →
      Passed p tolerance (earlier ++ cs) (cs.foldl (Report.pass p duals) r)
  | [], _, earlier, _, h => by rwa [List.append_nil]
  | c :: cs, hall, earlier, r, h => by
    obtain ⟨hc, hcs⟩ := List.forall_mem_cons.mp hall
    rw [List.append_cons]
    exact Passed.foldl_pass hcs (h.pass hc)

/-- A check that has passed some constraints has a report on just these. -/
theorem passed_foldl_pass (ht : Scalar.isLimit tolerance = true) {cs : List (Constraint Float)}
    (hall : ∀ c ∈ cs, c.Passes p duals tolerance) :
    Passed p tolerance cs (cs.foldl (Report.pass p duals) (.initial tolerance)) :=
  Passed.foldl_pass hall (passed_initial ht)

end Kkt.Report

/-! ## The report of a check -/

namespace Graph

open Kkt (Ending)
open Kkt.Report (Covers passed_foldl_pass)

variable {g : Graph Float} {p : Point Float} {duals : VectorMap Float} {tolerance : Float}
  {r : Kkt.Report Float} {site : Kkt.Site Float}

/-- Behind constraints that have passed, one with a scalar residual is covered with them. -/
theorem exists_covers_of_split (ht : Scalar.isLimit tolerance = true)
    {pre post : List (Constraint Float)} {c : Constraint Float} {e : Float}
    (hpre : ∀ d ∈ pre, d.Passes p duals tolerance) (hc : c.scalarError p = .ok e) :
    ∃ seen rest, pre ++ c :: post = seen ++ rest ∧
      seen.length = (pre.foldl (Kkt.Report.pass p duals) (.initial tolerance)).evaluated + 1 ∧
      Covers p seen ((pre.foldl (Kkt.Report.pass p duals) (.initial tolerance)).count e) := by
  refine ⟨pre ++ [c], post, List.append_cons .., ?_, (passed_foldl_pass ht hpre).covers.count hc⟩
  rw [List.length_append, evaluated_foldl_pass_initial hpre, List.length_singleton]

/-- **A report covers the constraints that were evaluated**, which stand in front of all others. -/
theorem exists_covers_of_report (h : (g.report p duals tolerance).outcome = .ok r) :
    ∃ seen rest, g.constraints = seen ++ rest ∧ seen.length = r.evaluated ∧ Covers p seen r := by
  obtain ⟨cs⟩ := g
  have ht := isLimit_of_report h
  have hending : Ending p duals tolerance (.initial tolerance) cs (.ok r) := ending_of_report h
  cases hending with
  | accepted hall =>
    exact ⟨cs, [], (List.append_nil cs).symm, (evaluated_foldl_pass_initial hall).symm,
      (passed_foldl_pass ht hall).covers⟩
  | infeasible hpre hc he => exact exists_covers_of_split ht hpre hc
  | violated hpre hc hholds hactive he => exact exists_covers_of_split ht hpre hc

/-- A check that accepts has met no residual above the tolerance. -/
theorem maxViolation_le_of_satisfied (h : (g.report p duals tolerance).outcome = .ok r)
    (hstatus : r.status = .satisfied) : r.maxViolation ≤ tolerance := by
  obtain ⟨cs⟩ := g
  have ht := isLimit_of_report h
  have hall : ∀ c ∈ cs, c.Passes p duals tolerance := (report_satisfied_iff ht).mp ⟨r, h, hstatus⟩
  obtain rfl := Except.ok.inj ((outcome_report_of_all ht ⟨cs⟩ hall).symm.trans h)
  exact (passed_foldl_pass ht hall).le

/-- **A residual that violates complementarity is below the negated tolerance**, and none before it
is above the tolerance. -/
theorem numbers_of_violated (h : (g.report p duals tolerance).outcome = .ok r)
    (hstatus : r.status = .complementarityViolated site) :
    r.maxViolation ≤ tolerance ∧ site.error < -tolerance ∧ site.error < 0 := by
  obtain ⟨cs⟩ := g
  have ht := isLimit_of_report h
  have hnonneg : ¬ tolerance < 0 := fun hlt =>
    (isLimit_eq_true_iff tolerance).mp ht (Or.inr (Or.inr hlt))
  have hending : Ending p duals tolerance (.initial tolerance) cs (.ok r) := ending_of_report h
  cases hending with
  | accepted hall =>
    rw [Kkt.Report.status_foldl_pass] at hstatus
    contradiction
  | infeasible hpre hc he => cases hstatus
  | @violated pre c post e hpre hc hholds hactive he =>
    cases hstatus
    obtain ⟨hle, hnumber⟩ := not_or.mp hholds
    have hbase := (passed_foldl_pass ht hpre).le
    have hbelow : e < -tolerance := float_lt_neg_of_lt_abs hle he
    refine ⟨larger_le hbase ?_, hbelow, float_lt_zero_of_lt_neg hnonneg hbelow⟩
    exact float_le_iff_not_lt.mpr
      ⟨Bool.eq_false_iff.mpr hnumber, (float_le_iff_not_lt.mp hbase).2.1, hle⟩

/-- **An infeasible residual is the largest violation, or no number**; then the largest violation is
that of the constraints before it. -/
theorem numbers_of_infeasible (h : (g.report p duals tolerance).outcome = .ok r)
    (hstatus : r.status = .primalInfeasible site) :
    (tolerance < site.error ∨ site.error.isNaN = true) ∧
    (site.error.isNaN = false → r.maxViolation = site.error ∧ tolerance < r.maxViolation) ∧
    (site.error.isNaN = true →
      ∃ before, ((Graph.mk (g.constraints.take site.index)).report p duals tolerance).outcome
          = .ok before ∧ before.evaluated = site.index ∧
        r.maxViolation = before.maxViolation) := by
  obtain ⟨cs⟩ := g
  have ht := isLimit_of_report h
  have hending : Ending p duals tolerance (.initial tolerance) cs (.ok r) := ending_of_report h
  cases hending with
  | accepted hall =>
    rw [Kkt.Report.status_foldl_pass] at hstatus
    contradiction
  | violated hpre hc hholds hactive he => cases hstatus
  | @infeasible pre c post e hpre hc he =>
    cases hstatus
    have hbase := passed_foldl_pass ht hpre
    have hlength := evaluated_foldl_pass_initial hpre
    refine ⟨he, fun hnumber => ?_, fun hnan => ⟨_, ?_, rfl, ?_⟩⟩
    · have habove : tolerance < e := he.resolve_right (Bool.eq_false_iff.mp hnumber)
      have hmax := larger_of_lt (float_lt_of_le_of_lt hbase.le habove)
      refine ⟨hmax, ?_⟩
      change tolerance < larger _ e
      rwa [hmax]
    · change ((Graph.mk ((pre ++ c :: post).take _)).report p duals tolerance).outcome = _
      rw [hlength, List.take_left]
      exact outcome_report_of_all ht ⟨_⟩ hpre
    · -- nothing is below what is no number, so the largest violation stays as it was
      refine larger_of_not_lt fun hlt => ?_
      rw [isNaN_of_float_lt hlt] at hnan
      contradiction

/-- **What the numbers of a report say.**  The largest violation is the largest of zero and the
residuals that were evaluated.  It is within the tolerance, unless a residual is infeasible, which
is above the tolerance or no number: a number is then the largest violation, and otherwise the
largest violation is that of the constraints before.  A residual that violates complementarity is
below the negated tolerance, and so negative. -/
theorem report_numbers (h : (g.report p duals tolerance).outcome = .ok r) :
    (∃ es, List.Forall₂ (fun c e => c.scalarError p = .ok e) (g.constraints.take r.evaluated) es ∧
      es.length = r.evaluated ∧ IsMaxViolation es r.maxViolation) ∧
    (r.status = .satisfied → r.maxViolation ≤ tolerance) ∧
    (∀ site, r.status = .complementarityViolated site →
      r.maxViolation ≤ tolerance ∧ site.error < -tolerance ∧ site.error < 0) ∧
    ∀ site, r.status = .primalInfeasible site →
      (tolerance < site.error ∨ site.error.isNaN = true) ∧
      (site.error.isNaN = false → r.maxViolation = site.error ∧ tolerance < r.maxViolation) ∧
      (site.error.isNaN = true →
        ∃ before, ((Graph.mk (g.constraints.take site.index)).report p duals tolerance).outcome
            = .ok before ∧ before.evaluated = site.index ∧
          r.maxViolation = before.maxViolation) := by
  refine ⟨?_, maxViolation_le_of_satisfied h, fun site => numbers_of_violated h,
    fun site => numbers_of_infeasible h⟩
  obtain ⟨seen, rest, hsplit, hlength, es, hes, hmax⟩ := exists_covers_of_report h
  refine ⟨es, ?_, hes.length_eq.symm.trans hlength, hmax⟩
  rwa [hsplit, List.take_left' hlength]

/-- A limit at `1 / 2`, one at infinity, and one that is no number. -/
def oddLimits : Graph Float where
  constraints := [.bound (.upper 0 0 0.5 100), .bound (.upper 0 0 (1 / 0) 101),
    .bound (.upper 0 0 (0 / 0) 102)]

/-- At `3 / 4` the second residual is infinite and negative: it violates complementarity if it is
active.  If not, then the third one ends the check, which is no number and leaves the largest
violation at the first. -/
theorem report_numbers_of_oddLimits :
    (∃ r, (oddLimits.report ⟨.ofList [(0, [0.75])]⟩ (.ofList [(101, [0])]) 0.5).outcome = .ok r ∧
      r.status = .complementarityViolated ⟨1, 101, 0.75 - 1 / 0⟩ ∧ r.maxViolation ≤ 0.5 ∧
      (0.75 - 1 / 0 : Float) < -0.5) ∧
    ∃ r before, (oddLimits.report ⟨.ofList [(0, [0.75])]⟩ .empty 0.5).outcome = .ok r ∧
      r.status = .primalInfeasible ⟨2, 102, 0.75 - 0 / 0⟩ ∧
      ((Graph.mk (oddLimits.constraints.take 2)).report ⟨.ofList [(0, [0.75])]⟩ .empty 0.5).outcome
        = .ok before ∧ r.maxViolation = before.maxViolation ∧ before.maxViolation = 0.75 - 0.5 := by
  constructor
  · have hreport : ∃ r,
        (oddLimits.report ⟨.ofList [(0, [0.75])]⟩ (.ofList [(101, [0])]) 0.5).outcome = .ok r ∧
        r.status = .complementarityViolated ⟨1, 101, 0.75 - 1 / 0⟩ := ⟨_, rfl, rfl⟩
    obtain ⟨r, hr, hstatus⟩ := hreport
    obtain ⟨-, -, hviolated, -⟩ := report_numbers hr
    obtain ⟨hmax, hbelow, -⟩ := hviolated _ hstatus
    exact ⟨r, hr, hstatus, hmax, hbelow⟩
  · have hreport : ∃ r, (oddLimits.report ⟨.ofList [(0, [0.75])]⟩ .empty 0.5).outcome = .ok r ∧
        r.status = .primalInfeasible ⟨2, 102, 0.75 - 0 / 0⟩ ∧ r.maxViolation = 0.75 - 0.5 :=
      ⟨_, rfl, rfl, rfl⟩
    obtain ⟨r, hr, hstatus, hvalue⟩ := hreport
    obtain ⟨-, -, -, hinfeasible⟩ := report_numbers hr
    obtain ⟨before, hbefore, -, hmax⟩ := (hinfeasible _ hstatus).2.2 rfl
    exact ⟨r, before, hr, hstatus, hbefore, hmax, hmax ▸ hvalue⟩

end Graph

end SqpInequality

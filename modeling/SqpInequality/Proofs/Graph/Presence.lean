import SqpInequality.Proofs.Graph.Rows
import SqpInequality.Proofs.Kkt.FirstFailure
import SqpInequality.Proofs.VectorMap.Writes

/-!
# Proofs/Graph/Presence — of the multipliers a check sees their keys alone

A multiplier makes its constraint active by being there, and nothing else of the multipliers has a
part in a check (`Graph.report_congr`).  The active constraints that a check counts are those with a
multiplier among the ones that it found to hold (`Graph.countsPresent_of_report`).
-/

namespace SqpInequality

variable {α : Type} [Scalar α]

/-! ## Two checks with the same keys -/

namespace Graph

variable {p : Point α} {tolerance : α}

/-- **Checks with the same dual keys present do and find the same**, from whatever report on. -/
theorem reportFrom_congr {d₁ d₂ : VectorMap α} : ∀ {cs : List (Constraint α)}
    (_ : ∀ c ∈ cs, d₁.contains c.dualKey = d₂.contains c.dualKey) (r : Kkt.Report α),
    reportFrom p d₁ tolerance r cs = reportFrom p d₂ tolerance r cs
  | [], _, _ => rfl
  | c :: cs, h, r => by
    have hc := h c List.mem_cons_self
    have ih := reportFrom_congr fun d hd => h d (List.mem_cons_of_mem _ hd)
    cases hs : c.scalarError p with
    | error failure => rw [reportFrom_of_error hs, reportFrom_of_error hs]
    | ok e => simp only [reportFrom_of_ok hs, hc, ih]

/-- **Of the multipliers, a check sees which of the graph's dual keys are present.** -/
theorem report_congr {g : Graph α} {d₁ d₂ : VectorMap α}
    (h : ∀ c ∈ g.constraints, d₁.contains c.dualKey = d₂.contains c.dualKey) :
    g.report p d₁ tolerance = g.report p d₂ tolerance := by
  cases ht : Scalar.isLimit tolerance with
  | false => rw [report_of_not_limit ht, report_of_not_limit ht]
  | true => rw [report_of_limit ht, report_of_limit ht, reportFrom_congr h]

end Graph

/-! ## The active constraints of a report -/

namespace Kkt.Report

/-- How many constraints a check found to hold: those that it evaluated, but for one that is
infeasible. -/
def feasible (r : Report α) : Nat :=
  match r.status with
  | .primalInfeasible _ => r.evaluated - 1
  | _ => r.evaluated

/-- **Presence decides what a check counts**: on the way from `r` to `r'` it has counted as active
those of the constraints `cs` that carry a multiplier and were found to hold. -/
structure CountsPresent (duals : VectorMap α) (cs : List (Constraint α)) (r r' : Report α) :
    Prop where
  /-- The constraints before `cs` were found to hold. -/
  evaluated_le : r.evaluated ≤ r'.feasible
  /-- The active constraints are those that carry a multiplier. -/
  active_eq : r'.active = r.active +
    (cs.take (r'.feasible - r.evaluated)).countP fun c => duals.contains c.dualKey
  /-- A constraint that is not tight fails only if it carries a multiplier. -/
  carried : ∀ site, r'.status = .complementarityViolated site →
    duals.contains site.dualKey = true

variable {duals : VectorMap α} {c : Constraint α}

omit [Scalar α] in
/-- The constraints behind one that was found to hold go on from the report on it. -/
theorem CountsPresent.cons {cs : List (Constraint α)} {r next r' : Report α}
    (h : CountsPresent duals cs next r') (hevaluated : next.evaluated = r.evaluated + 1)
    (hactive : next.active = r.active + [c].countP fun c => duals.contains c.dualKey) :
    CountsPresent duals (c :: cs) r r' := by
  obtain ⟨hle, heq, hcarried⟩ := h
  rw [hevaluated] at hle heq
  refine ⟨Nat.le_of_succ_le hle, ?_, hcarried⟩
  have hsplit : r'.feasible - r.evaluated = r'.feasible - (r.evaluated + 1) + 1 := by omega
  rw [hsplit, List.take_succ_cons, ← List.singleton_append, List.countP_append, ← Nat.add_assoc,
    ← hactive, heq]

omit [Scalar α] in
/-- A check that has not come to a verdict has counted what it is to count. -/
theorem CountsPresent.refl {r : Report α} (h : r.status = .satisfied) :
    CountsPresent duals [] r r := by
  have hfeasible : r.feasible = r.evaluated := by rw [feasible, h]
  refine ⟨hfeasible.ge, by rw [List.take_nil]; rfl, fun site hsite => ?_⟩
  rw [h] at hsite
  contradiction

/-- An infeasible constraint is not counted as active, whatever its dual key. -/
theorem countsPresent_infeasible (r : Report α) (e : α) (site : Site α)
    (cs : List (Constraint α)) :
    CountsPresent duals cs r { r.count e with status := .primalInfeasible site } := by
  refine ⟨Nat.le_refl _, ?_, fun _ h => nomatch h⟩
  change r.active = r.active + (cs.take (r.evaluated - r.evaluated)).countP _
  rw [Nat.sub_self]
  rfl

/-- A constraint that is not tight is counted, as it carries a multiplier. -/
theorem countsPresent_violated (hc : duals.contains c.dualKey = true) (r : Report α) (e : α)
    (cs : List (Constraint α)) :
    CountsPresent duals (c :: cs) r { (r.count e).countActive with
      status := .complementarityViolated ⟨r.evaluated, c.dualKey, e⟩ } := by
  refine ⟨Nat.le_succ _, ?_, fun site hsite => ?_⟩
  · change r.active + 1 = r.active + ((c :: cs).take (r.evaluated + 1 - r.evaluated)).countP _
    rw [Nat.add_sub_cancel_left, List.take_succ_cons, List.countP_cons, if_pos hc]
    rfl
  · cases hsite
    exact hc

end Kkt.Report

namespace Graph

open Kkt.Report (CountsPresent)

variable {p : Point α} {duals : VectorMap α} {tolerance : α}

/-- **From a report on, a check counts by presence.** -/
theorem countsPresent_of_reportFrom : ∀ {cs : List (Constraint α)} {r r' : Kkt.Report α}
    (_ : r.status = .satisfied) (_ : (reportFrom p duals tolerance r cs).outcome = .ok r'),
    CountsPresent duals cs r r'
  | [], r, r', hstatus, hr => by
    obtain rfl : r = r' := Except.ok.inj hr
    exact .refl hstatus
  | c :: cs, r, r', hstatus, hr => by
    cases hs : c.scalarError p with
    | error failure =>
      rw [reportFrom_of_error hs] at hr
      contradiction
    | ok e =>
      rw [reportFrom_of_ok hs] at hr
      dsimp only at hr
      split at hr
      · obtain rfl := Except.ok.inj hr
        exact Kkt.Report.countsPresent_infeasible r e _ _
      · -- The constraint holds, so from here on presence decides alone.
        by_cases hc : duals.contains c.dualKey = true
        · rw [if_pos hc] at hr
          split at hr
          · obtain rfl := Except.ok.inj hr
            exact Kkt.Report.countsPresent_violated hc r e cs
          · have hnext : CountsPresent duals cs (r.count e).countActive r' :=
              countsPresent_of_reportFrom hstatus hr
            refine hnext.cons rfl ?_
            rw [List.countP_singleton, if_pos hc]
            rfl
        · rw [if_neg hc] at hr
          have hnext : CountsPresent duals cs (r.count e) r' :=
            countsPresent_of_reportFrom hstatus hr
          refine hnext.cons rfl ?_
          rw [List.countP_singleton, if_neg hc]
          rfl

/-- **A report counts as active the constraints with a multiplier among those that hold.** -/
theorem countsPresent_of_report {g : Graph α} {r : Kkt.Report α}
    (h : (g.report p duals tolerance).outcome = .ok r) :
    CountsPresent duals g.constraints (.initial tolerance) r := by
  rw [report_of_limit (isLimit_of_report h)] at h
  exact countsPresent_of_reportFrom rfl h

/-- **A check sees of the multipliers only which dual keys are present.**  Two assignments with the
same dual keys of the graph give the same run: what is asked, what is announced and what comes out.
For assignments built by writes, these keys are known from the writes without their vectors.  A
constraint is active if its dual key is present, whatever the multiplier.  A report counts as active
just those of the constraints that hold, and a constraint that is not active never violates
complementarity. -/
theorem report_depends_on_presence (g : Graph α) (p : Point α) (tolerance : α) :
    (∀ d₁ d₂ : VectorMap α,
      (∀ c ∈ g.constraints, d₁.contains c.dualKey = d₂.contains c.dualKey) →
        g.report p d₁ tolerance = g.report p d₂ tolerance) ∧
    (∀ ws₁ ws₂ : List (VectorMap.Write α),
      (∀ c ∈ g.constraints,
        VectorMap.leave ws₁ c.dualKey = VectorMap.leave ws₂ c.dualKey) →
      g.report p (.ofWrites ws₁) tolerance = g.report p (.ofWrites ws₂) tolerance) ∧
    ∀ duals : VectorMap α, (∀ k, (duals.status k).isActive = duals.contains k) ∧
      ∀ r, (g.report p duals tolerance).outcome = .ok r →
        r.active = (g.constraints.take r.feasible).countP (fun c => duals.contains c.dualKey) ∧
        ∀ site, r.status = .complementarityViolated site →
          duals.contains site.dualKey = true := by
  refine ⟨fun d₁ d₂ h => report_congr h, fun ws₁ ws₂ h => report_congr fun c hc => ?_,
    fun duals => ⟨duals.isActive_status, fun r hr => ?_⟩⟩
  · rw [VectorMap.contains_ofWrites, VectorMap.contains_ofWrites, h c hc]
  · have hcounts := countsPresent_of_report hr
    refine ⟨hcounts.active_eq.trans ?_, hcounts.carried⟩
    exact Nat.zero_add _

/-- Two bounds share a dual key: both are active with a multiplier of zero as with any other, and
neither is once it has been removed. -/
theorem report_of_sharedKey_zero_or_any :
    sharedKey.report ⟨.ofList [(0, [0.5])]⟩ (.ofWrites [.insert 100 [0], .assign 9 [1]]) 0.5
      = sharedKey.report ⟨.ofList [(0, [0.5])]⟩
        (.ofWrites [.collect [(100, [2]), (101, [])], .remove 101, .insert 100 [-3, 7]]) 0.5 ∧
    (∃ r, (sharedKey.report ⟨.ofList [(0, [0.5])]⟩ (.ofList [(100, [0])]) 0.5).outcome = .ok r ∧
      r.active = 2) ∧
    ∃ r, (sharedKey.report ⟨.ofList [(0, [0.5])]⟩
        (.ofWrites [.insert 100 [2], .remove 100]) 0.5).outcome = .ok r ∧ r.active = 0 := by
  obtain ⟨-, hwrites, hcount⟩ := report_depends_on_presence sharedKey ⟨.ofList [(0, [0.5])]⟩ 0.5
  refine ⟨hwrites _ _ (by decide), ⟨_, rfl, ?_⟩, ⟨_, rfl, ?_⟩⟩
  · exact ((hcount (.ofList [(100, [0])])).2 _ rfl).1.trans rfl
  · exact ((hcount (.ofWrites [.insert 100 [2], .remove 100])).2 _ rfl).1.trans rfl

end Graph

end SqpInequality

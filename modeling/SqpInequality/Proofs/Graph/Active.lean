import SqpInequality.Proofs.Graph.Presence
import SqpInequality.Proofs.Kkt.Ending

/-!
# Proofs/Graph/Active — the active constraints of a report against the multipliers it met

    evaluated:   c₀  c₁  …  cₖ
    counted:     those with a multiplier among c₀ … cₖ₋₁ if cₖ is infeasible, and among all else

A report counts an evaluated constraint that carries a multiplier as active once it was found to
hold.  So the count is that of the evaluated constraints with a multiplier, but for an infeasible
one, which ends the check before it is counted (`Graph.active_eq_carriers_iff`).
-/

namespace SqpInequality

variable {α : Type}

/-! ## Constraints with a multiplier -/

namespace Graph

/-- How many of the first `n` constraints carry a multiplier. -/
def carriers (g : Graph α) (duals : VectorMap α) (n : Nat) : Nat :=
  (g.constraints.take n).countP fun c => duals.contains c.dualKey

/-- One more constraint is one more carrier if it carries a multiplier. -/
theorem carriers_succ {g : Graph α} {k : Nat} {c : Constraint α} (hk : g.get? k = some c)
    (duals : VectorMap α) :
    g.carriers duals (k + 1) = g.carriers duals k + if duals.contains c.dualKey then 1 else 0 := by
  have hsome : g.constraints[k]? = some c := hk
  rw [carriers, List.take_add_one, hsome, Option.toList_some, List.countP_append,
    List.countP_singleton, carriers]

end Graph

/-- A report that finds no constraint infeasible finds all that were evaluated to hold. -/
theorem Kkt.Report.feasible_eq_evaluated {r : Kkt.Report α}
    (h : ∀ site, r.status ≠ .primalInfeasible site) : r.feasible = r.evaluated := by
  rw [feasible]
  split
  · rename_i site hsite
    exact absurd hsite (h site)
  · rfl

variable [Scalar α]

namespace Graph

variable {g : Graph α} {p : Point α} {duals : VectorMap α} {tolerance : α} {r : Kkt.Report α}
  {site : Kkt.Site α}

/-! ## Multipliers that were met, and those that were counted -/

theorem active_eq_carriers_feasible (h : (g.report p duals tolerance).outcome = .ok r) :
    r.active = g.carriers duals r.feasible :=
  (countsPresent_of_report h).active_eq.trans (Nat.zero_add _)

/-- **An infeasible constraint is met and not counted**: the evaluated constraints with a multiplier
are the active ones, and it if it carries one. -/
theorem carriers_of_infeasible (h : (g.report p duals tolerance).outcome = .ok r)
    (hstatus : r.status = .primalInfeasible site) :
    g.carriers duals r.evaluated
      = r.active + if duals.contains site.dualKey then 1 else 0 := by
  obtain ⟨c, hc, hkey, hevaluated⟩ := get?_of_site h (by rw [hstatus, Kkt.Status.site?])
  have hfeasible : r.feasible = site.index := by
    rw [Kkt.Report.feasible, hstatus, hevaluated]
    rfl
  rw [active_eq_carriers_feasible h, hfeasible, hevaluated, carriers_succ hc, hkey]

/-- **The active constraints of a report are the evaluated ones that carry a multiplier, unless the
last one of them is infeasible and carries one**; then they are one less. -/
theorem active_eq_carriers_iff (h : (g.report p duals tolerance).outcome = .ok r) :
    (r.active = g.carriers duals r.evaluated ↔
      ∀ site, r.status = .primalInfeasible site → duals.contains site.dualKey = false) ∧
    ∀ site, r.status = .primalInfeasible site → duals.contains site.dualKey = true →
      r.active + 1 = g.carriers duals r.evaluated := by
  refine ⟨⟨fun hactive site hsite => ?_, fun hnone => ?_⟩, fun site hsite hcarried => ?_⟩
  · have hcarriers := carriers_of_infeasible h hsite
    by_contra hcarried
    rw [if_pos (Bool.of_not_eq_false hcarried)] at hcarriers
    omega
  · by_cases hinfeasible : ∃ site, r.status = .primalInfeasible site
    · obtain ⟨site, hsite⟩ := hinfeasible
      rw [carriers_of_infeasible h hsite, hnone site hsite]
      rfl
    · rw [← Kkt.Report.feasible_eq_evaluated (not_exists.mp hinfeasible)]
      exact active_eq_carriers_feasible h
  · rw [carriers_of_infeasible h hsite, if_pos hcarried]

/-- A bound that is tight at `3 / 2`, and one that is violated there. -/
def tightThenViolated : Graph Float where
  constraints := [.bound (.upper 0 0 1.5 100), .bound (.upper 0 0 1 101)]

/-- A multiplier for each of the two bounds. -/
def bothCarried : VectorMap Float := .ofList [(100, [0]), (101, [2])]

/-- Both bounds are evaluated and carry a multiplier; only the tight one is counted. -/
theorem active_of_tightThenViolated :
    ∃ r, (tightThenViolated.report ⟨.ofList [(0, [1.5])]⟩ bothCarried 0.25).outcome = .ok r ∧
      r.evaluated = 2 ∧ r.active = 1 ∧ r.active + 1 = tightThenViolated.carriers bothCarried 2 := by
  have hreport : ∃ r, (tightThenViolated.report ⟨.ofList [(0, [1.5])]⟩ bothCarried 0.25).outcome
      = .ok r ∧ r.evaluated = 2 ∧ r.active = 1 ∧
        r.status = .primalInfeasible ⟨1, 101, 1.5 - 1⟩ := ⟨_, rfl, rfl, rfl, rfl⟩
  obtain ⟨r, hr, hevaluated, hactive, hstatus⟩ := hreport
  exact ⟨r, hr, hevaluated, hactive,
    hevaluated ▸ (active_eq_carriers_iff hr).2 _ hstatus rfl⟩

/-- **The count is not always that of the evaluated constraints with a multiplier**: here the
violated bound is evaluated and carries one. -/
theorem active_ne_carriers :
    ¬ ∀ (g : Graph Float) (p : Point Float) (duals : VectorMap Float) (tolerance : Float)
      (r : Kkt.Report Float), (g.report p duals tolerance).outcome = .ok r →
        r.active = g.carriers duals r.evaluated := by
  intro h
  have hcount := h tightThenViolated ⟨.ofList [(0, [1.5])]⟩ bothCarried 0.25 _ rfl
  exact absurd hcount (by decide)

end Graph

end SqpInequality

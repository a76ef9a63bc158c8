import SqpInequality.Proofs.Binary64.Rank
import SqpInequality.Proofs.Kkt.Ending
import SqpInequality.Proofs.VectorMap.Writes

/-!
# Proofs/Graph/Looser — a check with a larger tolerance or fewer multipliers

    strict:   c₀ … cₖ₋₁ pass,  cₖ ends the check
    looser:   c₀ … cₖ₋₁ pass,  cₖ passes or ends the check  →  cₖ₊₁ …

What passes a check passes every looser one (`Constraint.Passes.looser`), so a looser check comes at
least as far as the strict one and may meet failures there that the strict one never sees
(`Graph.outcome_reportFrom_of_ok`).  Up to where both come they count the same, but for the active
constraints, of which the looser one has no more (`Kkt.Report.NoMoreActive`).
-/

namespace SqpInequality

/-! ## One constraint -/

/-- **What passes a check passes a looser one.** -/
theorem Constraint.Passes.looser {p : Point Float} {duals duals' : VectorMap Float}
    {tolerance tolerance' : Float} {c : Constraint Float} (h : c.Passes p duals tolerance)
    (hle : tolerance ≤ tolerance')
    (hkeys : duals'.contains c.dualKey = true → duals.contains c.dualKey = true) :
    c.Passes p duals' tolerance' := by
  obtain ⟨e, he, hnumber, hholds, htight⟩ := h
  refine ⟨e, he, hnumber, fun hlt => hholds (float_lt_of_le_of_lt hle hlt), fun hactive hlt => ?_⟩
  exact htight (hkeys hactive) (float_lt_of_le_of_lt hle hlt)

variable {α : Type}

/-! ## The same count with fewer multipliers -/

namespace Kkt.Report

/-- **Two reports on the same constraints**, the first with no more active ones. -/
structure NoMoreActive (r' r : Report α) : Prop where
  /-- The verdicts agree. -/
  status_eq : r'.status = r.status
  /-- The numbers of constraints agree. -/
  evaluated_eq : r'.evaluated = r.evaluated
  /-- The largest violations agree. -/
  maxViolation_eq : r'.maxViolation = r.maxViolation
  /-- The first report has no more active constraints. -/
  active_le : r'.active ≤ r.active

variable [Scalar α] {p : Point α} {duals duals' : VectorMap α} {r r' : Report α}

theorem NoMoreActive.count (h : NoMoreActive r' r) (e : α) :
    NoMoreActive (r'.count e) (r.count e) where
  status_eq := h.status_eq
  evaluated_eq := congrArg (· + 1) h.evaluated_eq
  maxViolation_eq := congrArg (fun m => if m < e then e else m) h.maxViolation_eq
  active_le := h.active_le

/-- Constraints that pass in both checks are counted in both, and as active in the first only if in
the second. -/
theorem NoMoreActive.pass (h : NoMoreActive r' r) {c : Constraint α}
    (hkeys : duals'.contains c.dualKey = true → duals.contains c.dualKey = true) :
    NoMoreActive (r'.pass p duals' c) (r.pass p duals c) := by
  rw [Report.pass, Report.pass]
  cases c.scalarError p with
  | error failure => exact h
  | ok e =>
    obtain ⟨hstatus, hevaluated, hmax, hactive⟩ := h.count e
    dsimp only
    by_cases hd' : duals'.contains c.dualKey = true
    · rw [if_pos hd', if_pos (hkeys hd')]
      exact ⟨hstatus, hevaluated, hmax, Nat.succ_le_succ hactive⟩
    · rw [if_neg hd']
      split
      · exact ⟨hstatus, hevaluated, hmax, Nat.le_succ_of_le hactive⟩
      · exact ⟨hstatus, hevaluated, hmax, hactive⟩

theorem NoMoreActive.foldl_pass
    (hkeys : ∀ k, duals'.contains k = true → duals.contains k = true) :
    ∀ (cs : List (Constraint α)) {r' r : Report α}, NoMoreActive r' r →
      NoMoreActive (cs.foldl (Report.pass p duals') r') (cs.foldl (Report.pass p duals) r)
  | [], _, _, h => h
  | c :: cs, _, _, h => NoMoreActive.foldl_pass hkeys cs (h.pass (hkeys c.dualKey))

end Kkt.Report

namespace Graph

/-! ## As far as a check comes -/

section Progress

variable [Scalar α] {p : Point α} {duals : VectorMap α} {tolerance : α}

/-- **A check comes to a report, or to a constraint without a scalar residual.**  In a report it has
counted on from where it began. -/
theorem outcome_reportFrom_progress (cs : List (Constraint α)) (r : Kkt.Report α) :
    (∃ (i : Nat) (d : Constraint α) (failure : Failure α), cs[i]? = some d ∧
      d.scalarError p = .error failure ∧
      (reportFrom p duals tolerance r cs).outcome = .error failure) ∨
    ∃ r', (reportFrom p duals tolerance r cs).outcome = .ok r' ∧ r.evaluated ≤ r'.evaluated := by
  have hending : Kkt.Ending p duals tolerance r cs _ := ending_reportFrom cs r
  generalize (reportFrom p duals tolerance r cs).outcome = outcome at hending ⊢
  cases hending with
  | accepted hall => exact Or.inr ⟨_, rfl, Kkt.Report.le_evaluated_foldl_pass hall r⟩
  | @failed pre c post failure hpre hc => exact Or.inl ⟨pre.length, c, failure, by simp, hc, rfl⟩
  | infeasible hpre hc he =>
    exact Or.inr ⟨_, rfl, Nat.le_succ_of_le (Kkt.Report.le_evaluated_foldl_pass hpre r)⟩
  | violated hpre hc hholds hactive he =>
    exact Or.inr ⟨_, rfl, Nat.le_succ_of_le (Kkt.Report.le_evaluated_foldl_pass hpre r)⟩

/-- From a constraint with a scalar residual on, a check counts it and may fail only behind it. -/
theorem outcome_reportFrom_of_ok {c : Constraint α} {e : α} (hc : c.scalarError p = .ok e)
    (r : Kkt.Report α) (post : List (Constraint α)) :
    (∃ (i : Nat) (d : Constraint α) (failure : Failure α), post[i]? = some d ∧
      d.scalarError p = .error failure ∧
      (reportFrom p duals tolerance r (c :: post)).outcome = .error failure) ∨
    ∃ r', (reportFrom p duals tolerance r (c :: post)).outcome = .ok r' ∧
      r.evaluated + 1 ≤ r'.evaluated := by
  rw [reportFrom_of_ok hc]
  dsimp only
  split
  · exact Or.inr ⟨_, rfl, Nat.le_refl _⟩
  · split
    · split
      · exact Or.inr ⟨_, rfl, Nat.le_refl _⟩
      · exact outcome_reportFrom_progress post (r.count e).countActive
    · exact outcome_reportFrom_progress post (r.count e)

end Progress

/-! ## The strict check and the looser one -/

section Looser

variable {p : Point Float} {duals duals' : VectorMap Float} {tolerance tolerance' : Float}

/-- **What a strict check fails with, a looser one fails with.** -/
theorem outcome_report_looser_of_error (ht : Scalar.isLimit tolerance = true)
    (ht' : Scalar.isLimit tolerance' = true) (hle : tolerance ≤ tolerance')
    (hkeys : ∀ k, duals'.contains k = true → duals.contains k = true) {g : Graph Float}
    {failure : Failure Float} (h : (g.report p duals tolerance).outcome = .error failure) :
    (g.report p duals' tolerance').outcome = .error failure := by
  obtain ⟨cs⟩ := g
  have hending : Kkt.Ending p duals tolerance _ cs _ := ending_report ht ⟨cs⟩
  rw [h] at hending
  cases hending with
  | failed hpre hc =>
    exact outcome_report_of_error ht' (fun d hd => (hpre d hd).looser hle (hkeys d.dualKey)) hc

/-- **What a strict check accepts, a looser one accepts**, with the same counts but for the active
constraints. -/
theorem outcome_report_looser_of_satisfied (ht : Scalar.isLimit tolerance = true)
    (ht' : Scalar.isLimit tolerance' = true) (hle : tolerance ≤ tolerance')
    (hkeys : ∀ k, duals'.contains k = true → duals.contains k = true) {g : Graph Float}
    {r : Kkt.Report Float} (h : (g.report p duals tolerance).outcome = .ok r)
    (hstatus : r.status = .satisfied) :
    ∃ r', (g.report p duals' tolerance').outcome = .ok r' ∧ r'.NoMoreActive r := by
  obtain ⟨cs⟩ := g
  have hall : ∀ c ∈ cs, c.Passes p duals tolerance :=
    (report_satisfied_iff ht).mp ⟨r, h, hstatus⟩
  have hall' : ∀ c ∈ cs, c.Passes p duals' tolerance' := fun c hc =>
    (hall c hc).looser hle (hkeys c.dualKey)
  obtain rfl := Except.ok.inj ((outcome_report_of_all ht ⟨cs⟩ hall).symm.trans h)
  exact ⟨_, outcome_report_of_all ht' ⟨cs⟩ hall',
    .foldl_pass hkeys cs ⟨rfl, rfl, rfl, Nat.le_refl _⟩⟩

/-- **Where a strict check rejects, a looser one has not ended before**: it counts that constraint
too, or fails at one behind it. -/
theorem outcome_report_looser_of_site (ht' : Scalar.isLimit tolerance' = true)
    (hle : tolerance ≤ tolerance')
    (hkeys : ∀ k, duals'.contains k = true → duals.contains k = true) {g : Graph Float}
    {r : Kkt.Report Float} {site : Kkt.Site Float}
    (h : (g.report p duals tolerance).outcome = .ok r) (hsite : r.status.site? = some site) :
    (∃ j c failure, site.index < j ∧ g.get? j = some c ∧ c.scalarError p = .error failure ∧
      (g.report p duals' tolerance').outcome = .error failure) ∨
    ∃ r', (g.report p duals' tolerance').outcome = .ok r' ∧ site.index + 1 ≤ r'.evaluated := by
  obtain ⟨pre, c, post, hsplit, hpre, hc, -, hindex, -⟩ := exists_split_of_site h hsite
  have hpre' : ∀ d ∈ pre, d.Passes p duals' tolerance' := fun d hd =>
    (hpre d hd).looser hle (hkeys d.dualKey)
  -- the looser check comes to `c` as well, and `c` has a scalar residual, so it goes on from there
  rw [report_of_limit ht', hsplit, outcome_reportFrom_append hpre', hindex,
    ← evaluated_foldl_pass_initial hpre']
  refine (outcome_reportFrom_of_ok hc _ post).imp_left ?_
  rintro ⟨i, d, failure, hd, hfail, houtcome⟩
  refine ⟨pre.length + (i + 1), d, failure, ?_, ?_, hfail, houtcome⟩
  · rw [evaluated_foldl_pass_initial hpre']
    omega
  · change g.constraints[pre.length + (i + 1)]? = some d
    rw [hsplit, List.getElem?_append_right (Nat.le_add_right _ _), Nat.add_sub_cancel_left,
      List.getElem?_cons_succ, hd]

/-- **A looser check comes at least as far as a strict one, and accepts what that one accepts.**
Let the tolerance be no smaller and no multiplier be new.  If the strict check fails, then the looser
one fails with the same.  If the strict check accepts, then so does the looser one, with the same
number of constraints, the same largest violation and no more active constraints.  If the strict
check rejects a constraint, then the looser one fails at a constraint behind it, or comes to a
report that has counted it. -/
theorem report_looser (g : Graph Float) (p : Point Float) (duals duals' : VectorMap Float)
    (tolerance tolerance' : Float)
    (ht : ¬ (tolerance.isNaN = true ∨ tolerance.isInf = true ∨ tolerance < 0))
    (ht' : ¬ (tolerance'.isNaN = true ∨ tolerance'.isInf = true ∨ tolerance' < 0))
    (hle : tolerance ≤ tolerance')
    (hkeys : ∀ k, duals'.contains k = true → duals.contains k = true) :
    (∀ failure, (g.report p duals tolerance).outcome = .error failure →
      (g.report p duals' tolerance').outcome = .error failure) ∧
    (∀ r, (g.report p duals tolerance).outcome = .ok r → r.status = .satisfied →
      ∃ r', (g.report p duals' tolerance').outcome = .ok r' ∧ r'.status = .satisfied ∧
        r'.evaluated = r.evaluated ∧ r'.maxViolation = r.maxViolation ∧ r'.active ≤ r.active) ∧
    (∀ r site, (g.report p duals tolerance).outcome = .ok r → r.status.site? = some site →
      (∃ j c failure, site.index < j ∧ g.get? j = some c ∧ c.scalarError p = .error failure ∧
        (g.report p duals' tolerance').outcome = .error failure) ∨
      ∃ r', (g.report p duals' tolerance').outcome = .ok r' ∧ site.index + 1 ≤ r'.evaluated) ∧
    ((g.isSatisfied p duals tolerance).outcome = .ok true →
      (g.isSatisfied p duals' tolerance').outcome = .ok true) := by
  have hlimit := (isLimit_eq_true_iff tolerance).mpr ht
  have hlimit' := (isLimit_eq_true_iff tolerance').mpr ht'
  have haccepts : ∀ r, (g.report p duals tolerance).outcome = .ok r → r.status = .satisfied →
      ∃ r', (g.report p duals' tolerance').outcome = .ok r' ∧ r'.status = .satisfied ∧
        r'.evaluated = r.evaluated ∧ r'.maxViolation = r.maxViolation ∧ r'.active ≤ r.active := by
    intro r hr hstatus
    obtain ⟨r', hr', hsame⟩ :=
      outcome_report_looser_of_satisfied hlimit hlimit' hle hkeys hr hstatus
    exact ⟨r', hr', hsame.status_eq.trans hstatus, hsame.evaluated_eq, hsame.maxViolation_eq,
      hsame.active_le⟩
  refine ⟨fun failure => outcome_report_looser_of_error hlimit hlimit' hle hkeys, haccepts,
    fun r site => outcome_report_looser_of_site hlimit' hle hkeys, fun h => ?_⟩
  rw [outcome_isSatisfied, map_eq_ok_iff] at h ⊢
  obtain ⟨r, hr, hyes⟩ := h
  have hstatus : r.status = .satisfied := by
    cases hs : r.status with
    | satisfied => rfl
    | primalInfeasible site => rw [hs] at hyes; contradiction
    | complementarityViolated site => rw [hs] at hyes; contradiction
  obtain ⟨r', hr', hstatus', -⟩ := haccepts r hr hstatus
  exact ⟨r', hr', by rw [hstatus']; rfl⟩

/-- A multiplier for the first bound of `looseSecond`. -/
def firstCarried : VectorMap Float := .ofList [(100, [0])]

/-- With a multiplier for each bound and at a small tolerance the first bound of `looseSecond` is
rejected.  At a larger one and with `firstCarried` both bounds pass, and the constraint behind them
gives up, as it does at any larger tolerance; without that constraint the check accepts. -/
theorem report_looser_of_looseSecond :
    (∃ r, (looseSecond.report ⟨.ofList [(0, [0.5])]⟩ (firstCarried.assign 101 [0]) 0.25).outcome
        = .ok r ∧ r.status.site? = some ⟨0, 100, 0.5 - 1⟩) ∧
    (∃ j c failure, 0 < j ∧ looseSecond.get? j = some c ∧
      c.scalarError ⟨.ofList [(0, [0.5])]⟩ = .error failure ∧
      (looseSecond.report ⟨.ofList [(0, [0.5])]⟩ firstCarried 0.5).outcome = .error failure) ∧
    (looseSecond.report ⟨.ofList [(0, [0.5])]⟩ firstCarried 1).outcome
      = .error (.aborted "gave up") ∧
    ∃ r, ((Graph.mk (looseSecond.constraints.take 2)).report ⟨.ofList [(0, [0.5])]⟩ firstCarried
      1).outcome = .ok r ∧ r.status = .satisfied ∧ r.active ≤ 2 := by
  have hkeys : ∀ k, firstCarried.contains k = true →
      (firstCarried.assign 101 [0]).contains k = true := fun k hk => by
    rw [VectorMap.contains_assign, hk, Bool.or_true]
  refine ⟨⟨_, rfl, rfl⟩, ?_, ?_, ?_⟩
  · obtain ⟨-, -, hrejects, -⟩ := report_looser looseSecond ⟨.ofList [(0, [0.5])]⟩
      (firstCarried.assign 101 [0]) firstCarried 0.25 0.5 (by decide) (by decide) (by decide) hkeys
    refine (hrejects _ ⟨0, 100, 0.5 - 1⟩ rfl rfl).resolve_right ?_
    rintro ⟨r, hr, -⟩
    cases hr
  · obtain ⟨hfails, -⟩ := report_looser looseSecond ⟨.ofList [(0, [0.5])]⟩
      (firstCarried.assign 101 [0]) firstCarried 0.5 1 (by decide) (by decide) (by decide) hkeys
    exact hfails _ rfl
  · obtain ⟨-, haccepts, -⟩ := report_looser ⟨looseSecond.constraints.take 2⟩
      ⟨.ofList [(0, [0.5])]⟩ (firstCarried.assign 101 [0]) firstCarried 0.5 1 (by decide)
      (by decide) (by decide) hkeys
    obtain ⟨r, hr, hstatus, -, -, hactive⟩ := haccepts _ rfl rfl
    exact ⟨r, hr, hstatus, hactive⟩

end Looser

end Graph

end SqpInequality

import SqpInequality.Proofs.Graph.Record
import SqpInequality.Proofs.Kkt.Behind

/-!
# Proofs/Graph/Append — a check of one graph behind another

    g₁ ++ g₂     g₁ rejects or fails:   the check of g₁, whatever g₂ is
                 g₁ accepts:            the check of g₂, read behind the report on g₁

The check of a graph behind another is known from the two checks (`Graph.report_append`).  If every
residual is a scalar, a check accepts exactly if every constraint passes
(`Graph.outcome_isSatisfied_of_scalar`), so the order of the constraints does not matter.
-/

namespace SqpInequality

namespace Graph

variable {α : Type}

/-- The constraints of one graph, and behind them those of another. -/
instance : Append (Graph α) := ⟨fun g₁ g₂ => ⟨g₁.constraints ++ g₂.constraints⟩⟩

theorem constraints_append (g₁ g₂ : Graph α) :
    (g₁ ++ g₂).constraints = g₁.constraints ++ g₂.constraints := rfl

/-! ## Checks of any scalars -/

section Check

variable [Scalar α] {p : Point α} {duals : VectorMap α} {tolerance : α}

/-- **Behind constraints that do not all pass, nothing has a part in a check.** -/
theorem reportFrom_append_of_not_all : ∀ {cs : List (Constraint α)}
    (_ : ¬ ∀ c ∈ cs, c.Passes p duals tolerance) (r : Kkt.Report α) (post : List (Constraint α)),
    reportFrom p duals tolerance r (cs ++ post) = reportFrom p duals tolerance r cs
  | [], h, _, _ => absurd (fun _ hc => (nomatch hc)) h
  | c :: cs, h, r, post => by
    rw [List.cons_append]
    by_cases hc : c.Passes p duals tolerance
    · have hcs : ¬ ∀ d ∈ cs, d.Passes p duals tolerance := fun hall =>
        h (List.forall_mem_cons.mpr ⟨hc, hall⟩)
      rw [reportFrom_of_passes hc, reportFrom_of_passes hc, reportFrom_append_of_not_all hcs]
    · obtain ⟨run, hrun, -⟩ := reportFrom_of_not_passes hc r
      rw [hrun, hrun]

/-- A check that fails or rejects does so with any graph behind its own. -/
theorem report_append_of_not_satisfied {g₁ : Graph α}
    (h : ∀ r, (g₁.report p duals tolerance).outcome = .ok r → r.status ≠ .satisfied)
    (g₂ : Graph α) : (g₁ ++ g₂).report p duals tolerance = g₁.report p duals tolerance := by
  cases ht : Scalar.isLimit tolerance with
  | false => rw [report_of_not_limit ht, report_of_not_limit ht]
  | true =>
    have hnot : ¬ ∀ c ∈ g₁.constraints, c.Passes p duals tolerance := fun hall => by
      obtain ⟨r, hr, hstatus⟩ := (report_satisfied_iff ht).mpr hall
      exact h r hr hstatus
    rw [report_of_limit ht, report_of_limit ht, constraints_append,
      reportFrom_append_of_not_all hnot]

/-- **If every residual is a scalar, then a check has a yes or no: whether every constraint
passes.** -/
theorem outcome_isSatisfied_of_scalar (ht : Scalar.isLimit tolerance = true) {g : Graph α}
    (h : ∀ c ∈ g.constraints, ∃ e, c.scalarError p = .ok e) :
    (g.isSatisfied p duals tolerance).outcome
      = .ok (decide (∀ c ∈ g.constraints, c.Passes p duals tolerance)) := by
  rw [outcome_isSatisfied]
  by_cases hall : ∀ c ∈ g.constraints, c.Passes p duals tolerance
  · obtain ⟨r, hr, hstatus, -⟩ := outcome_report_of_all_pass ht hall
    rw [hr, decide_eq_true hall, Except.map, hstatus]
    rfl
  · obtain ⟨k, c, hk, hbefore, hc⟩ := exists_first_not hall
    obtain ⟨e, he⟩ := h c (List.mem_of_getElem? hk)
    have hdecides := outcome_report_of_first_not_passing ht hk hbefore hc
    have hrejects := hdecides
    rw [Constraint.Decides, Constraint.scalarError_eq_ok_iff.mp he] at hrejects
    obtain ⟨r, hr, -⟩ := hrejects
    rw [hr] at hdecides ⊢
    have hstatus := hdecides.status_ne_satisfied
    rw [decide_eq_false hall, Except.map]
    cases hs : r.status with
    | satisfied => exact absurd hs hstatus
    | primalInfeasible site => rfl
    | complementarityViolated site => rfl

/-- If every residual is a scalar, then the order of the constraints has no part in the yes or no of
a check. -/
theorem outcome_isSatisfied_of_perm {g g' : Graph α} (hperm : g.constraints.Perm g'.constraints)
    (h : ∀ c ∈ g.constraints, ∃ e, c.scalarError p = .ok e) :
    (g.isSatisfied p duals tolerance).outcome = (g'.isSatisfied p duals tolerance).outcome := by
  cases ht : Scalar.isLimit tolerance with
  | false =>
    rw [outcome_isSatisfied, outcome_isSatisfied, outcome_report_of_not_limit ht,
      outcome_report_of_not_limit ht]
  | true =>
    have h' : ∀ c ∈ g'.constraints, ∃ e, c.scalarError p = .ok e := fun c hc =>
      h c (hperm.mem_iff.mpr hc)
    rw [outcome_isSatisfied_of_scalar ht h, outcome_isSatisfied_of_scalar ht h']
    simp only [hperm.mem_iff]

/-- If every residual is a scalar, then a check accepts a graph behind another exactly if it accepts
both. -/
theorem outcome_isSatisfied_append (ht : Scalar.isLimit tolerance = true) {g₁ g₂ : Graph α}
    (h : ∀ c ∈ (g₁ ++ g₂).constraints, ∃ e, c.scalarError p = .ok e) :
    ∃ b₁ b₂, (g₁.isSatisfied p duals tolerance).outcome = .ok b₁ ∧
      (g₂.isSatisfied p duals tolerance).outcome = .ok b₂ ∧
      ((g₁ ++ g₂).isSatisfied p duals tolerance).outcome = .ok (b₁ && b₂) := by
  obtain ⟨h₁, h₂⟩ := List.forall_mem_append.mp h
  refine ⟨_, _, outcome_isSatisfied_of_scalar ht h₁, outcome_isSatisfied_of_scalar ht h₂, ?_⟩
  rw [outcome_isSatisfied_of_scalar ht h, ← Bool.decide_and]
  simp only [constraints_append, List.forall_mem_append]

end Check

/-! ## Checks in double precision -/

section DoublePrecision

variable {p : Point Float} {duals : VectorMap Float} {tolerance : Float}

/-- **Behind a graph that is accepted, a check finds what it finds on its own**, read behind the
report on that graph. -/
theorem outcome_report_append {g₁ : Graph Float} {r₁ : Kkt.Report Float}
    (hr : (g₁.report p duals tolerance).outcome = .ok r₁) (hstatus : r₁.status = .satisfied)
    (g₂ : Graph Float) :
    r₁.evaluated = g₁.size ∧ ((g₁ ++ g₂).report p duals tolerance).outcome
      = (g₂.report p duals tolerance).outcome.map r₁.behind := by
  have ht : Scalar.isLimit tolerance = true := isLimit_of_report hr
  have hall : ∀ c ∈ g₁.constraints, c.Passes p duals tolerance :=
    (report_satisfied_iff ht).mp ⟨r₁, hr, hstatus⟩
  have hpassed : (g₁.constraints.foldl (Kkt.Report.pass p duals) (.initial tolerance)) = r₁ :=
    Except.ok.inj ((outcome_report_of_all ht g₁ hall).symm.trans hr)
  have hunderWay : r₁.UnderWay tolerance :=
    hpassed ▸ (Kkt.Report.underWay_initial tolerance).foldl_pass p duals g₁.constraints
  constructor
  · rw [← hpassed, evaluated_foldl_pass_initial hall]
    rfl
  · rw [report_of_limit ht, report_of_limit ht, constraints_append, outcome_reportFrom_append hall,
      hpassed, ← outcome_reportFrom_behind r₁ _ (Kkt.Report.underWay_initial tolerance).isNaN_eq,
      hunderWay.behind_initial]

/-- **The check of a graph behind another is known from the two checks.**  If the first fails or
rejects, then it is the first.  If the first accepts, then it is the second, with its place moved
behind the constraints of the first, their numbers added, and the larger of the largest violations;
a failure stays as it is.  If every residual is a scalar, then the check accepts exactly if both
checks do, in whatever order the constraints stand. -/
theorem report_append (g₁ g₂ : Graph Float) (p : Point Float) (duals : VectorMap Float)
    (tolerance : Float) :
    ((∀ r₁, (g₁.report p duals tolerance).outcome = .ok r₁ → r₁.status ≠ .satisfied) →
      (g₁ ++ g₂).report p duals tolerance = g₁.report p duals tolerance) ∧
    (∀ r₁, (g₁.report p duals tolerance).outcome = .ok r₁ → r₁.status = .satisfied →
      ((g₁ ++ g₂).report p duals tolerance).outcome
        = (g₂.report p duals tolerance).outcome.map fun r₂ =>
          { status := r₂.status.shift g₁.size
            tolerance := r₂.tolerance
            evaluated := g₁.size + r₂.evaluated
            active := r₁.active + r₂.active
            maxViolation := larger r₁.maxViolation r₂.maxViolation }) ∧
    ((∀ c ∈ (g₁ ++ g₂).constraints, ∃ e, c.scalarError p = .ok e) →
      (¬ (tolerance.isNaN = true ∨ tolerance.isInf = true ∨ tolerance < 0) →
        ∃ b₁ b₂, (g₁.isSatisfied p duals tolerance).outcome = .ok b₁ ∧
          (g₂.isSatisfied p duals tolerance).outcome = .ok b₂ ∧
          ((g₁ ++ g₂).isSatisfied p duals tolerance).outcome = .ok (b₁ && b₂)) ∧
      ∀ g : Graph Float, (g₁ ++ g₂).constraints.Perm g.constraints →
        (g.isSatisfied p duals tolerance).outcome
          = ((g₁ ++ g₂).isSatisfied p duals tolerance).outcome) := by
  refine ⟨fun h => report_append_of_not_satisfied h g₂, fun r₁ hr hstatus => ?_,
    fun hscalar => ⟨fun ht => ?_, fun g hperm => ?_⟩⟩
  · obtain ⟨hsize, happend⟩ := outcome_report_append hr hstatus g₂
    rw [happend, ← hsize]
    rfl
  · exact outcome_isSatisfied_append ((isLimit_eq_true_iff tolerance).mpr ht) hscalar
  · exact (outcome_isSatisfied_of_perm hperm hscalar).symm

/-- A variable is between zero and one. -/
def unitRange : Graph Float where
  constraints := [.bound (.upper 0 0 1 100), .bound (.lower 0 0 0 101)]

/-- A variable is at least one half and at most one quarter. -/
def emptyRange : Graph Float where
  constraints := [.bound (.lower 0 0 0.5 102), .bound (.upper 0 0 0.25 103)]

/-- At one half the second bound of `emptyRange` fails.  It is the fourth bound behind `unitRange`,
and in front of it `unitRange` has no part. -/
theorem report_of_unitRange_emptyRange :
    (∃ r, ((unitRange ++ emptyRange).report ⟨.ofList [(0, [0.5])]⟩ (.ofList [(102, [0])]) 0).outcome
        = .ok r ∧ r.status = .primalInfeasible ⟨3, 103, 0.5 - 0.25⟩ ∧ r.evaluated = 4 ∧
      r.active = 1) ∧
    (emptyRange ++ unitRange).report ⟨.ofList [(0, [0.5])]⟩ (.ofList [(102, [0])]) 0
      = emptyRange.report ⟨.ofList [(0, [0.5])]⟩ (.ofList [(102, [0])]) 0 ∧
    ((emptyRange ++ unitRange).isSatisfied ⟨.ofList [(0, [0.5])]⟩ (.ofList [(102, [0])]) 0).outcome
      = .ok false := by
  obtain ⟨-, hbehind, hscalar⟩ := report_append unitRange emptyRange ⟨.ofList [(0, [0.5])]⟩
    (.ofList [(102, [0])]) 0
  obtain ⟨hfront, -⟩ := report_append emptyRange unitRange ⟨.ofList [(0, [0.5])]⟩
    (.ofList [(102, [0])]) 0
  obtain ⟨hvalid, hperm⟩ := hscalar (by
    rw [← List.forall_iff_forall_mem]
    exact ⟨⟨_, rfl⟩, ⟨_, rfl⟩, ⟨_, rfl⟩, ⟨_, rfl⟩⟩)
  refine ⟨⟨_, (hbehind _ rfl rfl).trans rfl, rfl, rfl, rfl⟩, hfront ?_, ?_⟩
  · intro r hr
    obtain rfl := Except.ok.inj hr
    exact fun h => nomatch h
  · have hswap : (unitRange ++ emptyRange).constraints.Perm (emptyRange ++ unitRange).constraints :=
      List.perm_append_comm
    obtain ⟨b₁, b₂, -, h₂, hboth⟩ := hvalid (by decide)
    obtain rfl : b₂ = false := (Except.ok.inj h₂).symm
    rw [hperm _ hswap, hboth, Bool.and_false]

end DoublePrecision

end Graph

end SqpInequality

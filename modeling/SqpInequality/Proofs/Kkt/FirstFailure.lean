import SqpInequality.Proofs.Binary64
import SqpInequality.Graph
import SqpInequality.Proofs.Graph.Visit
import SqpInequality.Proofs.Outcome

/-!
# Proofs/Kkt/FirstFailure — a check is decided by the first constraint that does not pass

Whether a constraint passes is a fact about that constraint alone (`Constraint.Passes`).  A check
runs through the constraints that pass (`outcome_reportFrom_append`) and ends at the first that
does not (`outcome_reportFrom_of_not_passes`).
-/

namespace SqpInequality

variable {α : Type} [Scalar α]

namespace Constraint

/-- **A constraint passes**: its residual is one number, at most the tolerance, and not further from
zero than the tolerance if the constraint carries a multiplier. -/
def Passes (p : Point α) (duals : VectorMap α) (tolerance : α) (c : Constraint α) : Prop :=
  ∃ e, c.residual p = .ok [e] ∧ Scalar.isNaN e = false ∧ ¬ tolerance < e ∧
    (duals.contains c.dualKey = true → ¬ tolerance < Scalar.abs e)

/-- What a check comes to when constraint number `k` is the first that does not pass. -/
def Decides (p : Point α) (tolerance : α) (k : Nat) (c : Constraint α)
    (outcome : Except (Failure α) (Kkt.Report α)) : Prop :=
  match c.residual p with
  | .error failure => outcome = .error failure
  | .ok [e] => ∃ r, outcome = .ok r ∧ r.evaluated = k + 1 ∧
      r.status = if tolerance < e ∨ Scalar.isNaN e = true then .primalInfeasible ⟨k, c.dualKey, e⟩
        else .complementarityViolated ⟨k, c.dualKey, e⟩
  | .ok _ => ∃ fault, outcome = .error (.refused fault) ∧ fault.kind = .typeMismatch

theorem scalarError_eq {c : Constraint α} {p : Point α} {v : Vec α} (h : c.residual p = .ok v) :
    c.scalarError p = scalarOf c.dualKey v := by
  rw [scalarError, h]
  rfl

theorem scalarError_eq_ok_iff {c : Constraint α} {p : Point α} {e : α} :
    c.scalarError p = .ok e ↔ c.residual p = .ok [e] := by
  refine ⟨fun h => ?_, scalarError_eq⟩
  obtain ⟨v, hv, hscalar⟩ := bind_eq_ok_iff.mp h
  rw [scalarOf.eq_def] at hscalar
  split at hscalar
  · obtain rfl := Except.ok.inj hscalar
    exact hv
  · contradiction

/-- A constraint that holds and does not pass carries a multiplier, and is not tight. -/
theorem violates_of_not_passes {p : Point α} {duals : VectorMap α} {tolerance : α}
    {c : Constraint α} (h : ¬ c.Passes p duals tolerance) {e : α} (he : c.residual p = .ok [e])
    (hp : ¬ (tolerance < e ∨ Scalar.isNaN e = true)) :
    duals.contains c.dualKey = true ∧ tolerance < Scalar.abs e := by
  obtain ⟨hle, hnan⟩ := not_or.mp hp
  by_contra hn
  exact h ⟨e, he, Bool.eq_false_iff.mpr hnan, hle, fun hd ha => hn ⟨hd, ha⟩⟩

/-- A constraint that decides a check does not accept it. -/
theorem Decides.status_ne_satisfied {p : Point α} {tolerance : α} {k : Nat} {c : Constraint α}
    {r : Kkt.Report α} (h : c.Decides p tolerance k (.ok r)) : r.status ≠ .satisfied := by
  rw [Decides] at h
  split at h
  · contradiction
  · obtain ⟨r', hr, -, hstatus⟩ := h
    obtain rfl := Except.ok.inj hr
    rw [hstatus]
    split <;> exact fun hs => (nomatch hs)
  · obtain ⟨fault, hfault, -⟩ := h
    contradiction

end Constraint

/-! ## One constraint of a check -/

namespace Kkt.Report

/-- The report after one more constraint that passes. -/
def pass (p : Point α) (duals : VectorMap α) (r : Report α) (c : Constraint α) : Report α :=
  match c.scalarError p with
  | .ok e => if duals.contains c.dualKey then (r.count e).countActive else r.count e
  | .error _ => r

theorem status_pass (p : Point α) (duals : VectorMap α) (r : Report α) (c : Constraint α) :
    (r.pass p duals c).status = r.status := by
  rw [pass]
  split
  · split <;> rfl
  · rfl

theorem evaluated_pass {p : Point α} {duals : VectorMap α} {tolerance : α} {c : Constraint α}
    (h : c.Passes p duals tolerance) (r : Report α) :
    (r.pass p duals c).evaluated = r.evaluated + 1 := by
  obtain ⟨e, he, -⟩ := h
  rw [pass, Constraint.scalarError_eq he]
  change (if duals.contains c.dualKey then (r.count e).countActive else r.count e).evaluated = _
  split <;> rfl

theorem status_foldl_pass (p : Point α) (duals : VectorMap α) :
    ∀ (cs : List (Constraint α)) (r : Report α),
      (cs.foldl (pass p duals) r).status = r.status
  | [], _ => rfl
  | c :: cs, r => by
    rw [List.foldl_cons, status_foldl_pass p duals cs, status_pass]

theorem evaluated_foldl_pass {p : Point α} {duals : VectorMap α} {tolerance : α} :
    ∀ {cs : List (Constraint α)} (_ : ∀ c ∈ cs, c.Passes p duals tolerance) (r : Report α),
      (cs.foldl (pass p duals) r).evaluated = r.evaluated + cs.length
  | [], _, _ => rfl
  | c :: cs, h, r => by
    rw [List.foldl_cons, evaluated_foldl_pass fun d hd => h d (List.mem_cons_of_mem _ hd),
      evaluated_pass (h c List.mem_cons_self), List.length_cons]
    omega

/-- Constraints that pass take nothing from the count. -/
theorem le_evaluated_foldl_pass {p : Point α} {duals : VectorMap α} {tolerance : α}
    {cs : List (Constraint α)} (h : ∀ c ∈ cs, c.Passes p duals tolerance) (r : Report α) :
    r.evaluated ≤ (cs.foldl (pass p duals) r).evaluated := by
  rw [evaluated_foldl_pass h]
  exact Nat.le_add_right _ _

end Kkt.Report

namespace Graph

variable {p : Point α} {duals : VectorMap α} {tolerance : α}

/-- A constraint without a scalar residual ends a check when it is asked. -/
theorem reportFrom_of_error {c : Constraint α} {failure : Failure α}
    (h : c.scalarError p = .error failure) (r : Kkt.Report α) (rest : List (Constraint α)) :
    reportFrom p duals tolerance r (c :: rest) = ⟨[.askResidual c], .error failure⟩ := by
  rw [reportFrom, Run.bind_error ((Run.outcome_askScalar c p).trans h), Run.record_askScalar]

/-- A constraint with a scalar residual is asked, announced and judged. -/
theorem reportFrom_of_ok {c : Constraint α} {e : α} (h : c.scalarError p = .ok e)
    (r : Kkt.Report α) (rest : List (Constraint α)) :
    reportFrom p duals tolerance r (c :: rest) =
      let next :=
        if tolerance < e ∨ Scalar.isNaN e = true then
          reject (r.count e) (.primalInfeasible ⟨r.evaluated, c.dualKey, e⟩)
        else if duals.contains c.dualKey = true then
          if tolerance < Scalar.abs e then
            reject (r.count e).countActive (.complementarityViolated ⟨r.evaluated, c.dualKey, e⟩)
          else reportFrom p duals tolerance (r.count e).countActive rest
        else reportFrom p duals tolerance (r.count e) rest
      ⟨Run.entry .askResidual (Constraint.residualEvent? p) c ++ next.record, next.outcome⟩ := by
  have hentry : Run.entry .askResidual (Constraint.residualEvent? p) c
      = [.askResidual c, .announce (.evaluated c.dualKey e)] := by
    rw [Run.entry, Constraint.residualEvent?, h]
    rfl
  rw [reportFrom, Run.bind_ok ((Run.outcome_askScalar c p).trans h), Run.record_askScalar, hentry,
    ← VectorMap.isActive_status]
  cases duals.status c.dualKey <;> rfl

/-- **A constraint that passes is asked and counted, and the check goes on.** -/
theorem reportFrom_of_passes {c : Constraint α} (h : c.Passes p duals tolerance)
    (r : Kkt.Report α) (rest : List (Constraint α)) :
    reportFrom p duals tolerance r (c :: rest) =
      let next := reportFrom p duals tolerance (r.pass p duals c) rest
      ⟨Run.entry .askResidual (Constraint.residualEvent? p) c ++ next.record, next.outcome⟩ := by
  obtain ⟨e, he, hnan, hle, habs⟩ := h
  have hs : c.scalarError p = .ok e := Constraint.scalarError_eq he
  rw [reportFrom_of_ok hs, if_neg (by simp [hle, hnan]), Kkt.Report.pass, hs]
  by_cases hd : duals.contains c.dualKey = true
  · simp only [if_pos hd, if_neg (habs hd)]
  · simp only [if_neg hd]

/-- **A constraint that does not pass ends the check.** -/
theorem outcome_reportFrom_of_not_passes {c : Constraint α} (h : ¬ c.Passes p duals tolerance)
    (r : Kkt.Report α) (rest : List (Constraint α)) :
    c.Decides p tolerance r.evaluated (reportFrom p duals tolerance r (c :: rest)).outcome := by
  rw [Constraint.Decides]
  split
  · rename_i failure he
    have hs : c.scalarError p = .error failure := bind_eq_error_iff.mpr (Or.inl he)
    rw [reportFrom_of_error hs]
  · rename_i e he
    rw [reportFrom_of_ok (Constraint.scalarError_eq he)]
    by_cases hp : tolerance < e ∨ Scalar.isNaN e = true
    · simp only [if_pos hp]
      exact ⟨_, rfl, rfl, rfl⟩
    · have hact := Constraint.violates_of_not_passes h he hp
      simp only [if_neg hp, if_pos hact.1, if_pos hact.2]
      exact ⟨_, rfl, rfl, rfl⟩
  · rename_i v hv he
    have hs : c.scalarError p = .error (.refused (.residualNotScalar c.dualKey v.length)) := by
      rw [Constraint.scalarError_eq he, Constraint.scalarOf]
      exact hv
    rw [reportFrom_of_error hs]
    exact ⟨_, rfl, rfl⟩

/-! ## A whole check -/

/-- **A check runs through the constraints that pass.** -/
theorem outcome_reportFrom_append : ∀ {pre : List (Constraint α)}
    (_ : ∀ c ∈ pre, c.Passes p duals tolerance) (r : Kkt.Report α) (post : List (Constraint α)),
    (reportFrom p duals tolerance r (pre ++ post)).outcome
      = (reportFrom p duals tolerance (pre.foldl (Kkt.Report.pass p duals) r) post).outcome
  | [], _, _, _ => rfl
  | c :: pre, h, r, post => by
    rw [List.cons_append, reportFrom_of_passes (h c List.mem_cons_self)]
    exact outcome_reportFrom_append (fun d hd => h d (List.mem_cons_of_mem _ hd)) _ post

theorem report_of_limit (h : Scalar.isLimit tolerance = true) (g : Graph α) :
    g.report p duals tolerance
      = reportFrom p duals tolerance (.initial tolerance) g.constraints := by
  have hcheck : (Run.check (Kkt.validateTolerance tolerance) : Run α Unit).outcome = .ok () := by
    rw [Run.outcome_check, Kkt.validateTolerance, if_pos h]
    rfl
  rw [report, Run.bind_ok hcheck]
  rfl

/-- A check whose tolerance is refused does nothing. -/
theorem report_of_not_limit (h : Scalar.isLimit tolerance = false) (g : Graph α) :
    g.report p duals tolerance = ⟨[], .error (.refused (.toleranceNotLimit tolerance))⟩ := by
  have hcheck : (Run.check (Kkt.validateTolerance tolerance) : Run α Unit).outcome
      = .error (.refused (.toleranceNotLimit tolerance)) := by
    rw [Run.outcome_check, Kkt.validateTolerance, if_neg (Bool.eq_false_iff.mp h)]
    rfl
  rw [report, Run.bind_error hcheck]
  rfl

theorem outcome_report_of_not_limit (h : Scalar.isLimit tolerance = false) (g : Graph α) :
    (g.report p duals tolerance).outcome
      = .error (.refused (.toleranceNotLimit tolerance)) := by
  rw [report_of_not_limit h]

/-- A check that comes to a report has not refused its tolerance. -/
theorem isLimit_of_report {g : Graph α} {r : Kkt.Report α}
    (h : (g.report p duals tolerance).outcome = .ok r) : Scalar.isLimit tolerance = true := by
  by_contra hnot
  rw [outcome_report_of_not_limit (Bool.eq_false_iff.mpr hnot)] at h
  contradiction

/-- A check that every constraint passes has counted them one by one. -/
theorem outcome_report_of_all (ht : Scalar.isLimit tolerance = true) (g : Graph α)
    (h : ∀ c ∈ g.constraints, c.Passes p duals tolerance) :
    (g.report p duals tolerance).outcome
      = .ok (g.constraints.foldl (Kkt.Report.pass p duals) (.initial tolerance)) := by
  rw [report_of_limit ht, ← List.append_nil g.constraints, outcome_reportFrom_append h,
    List.append_nil]
  rfl

/-- A check counts the constraints that pass from zero on. -/
theorem evaluated_foldl_pass_initial {cs : List (Constraint α)}
    (h : ∀ c ∈ cs, c.Passes p duals tolerance) :
    (cs.foldl (Kkt.Report.pass p duals) (.initial tolerance)).evaluated = cs.length := by
  rw [Kkt.Report.evaluated_foldl_pass h]
  exact Nat.zero_add _

/-- A check that every constraint passes accepts, and has counted them all. -/
theorem outcome_report_of_all_pass (ht : Scalar.isLimit tolerance = true) {g : Graph α}
    (h : ∀ c ∈ g.constraints, c.Passes p duals tolerance) :
    ∃ r, (g.report p duals tolerance).outcome = .ok r ∧ r.status = .satisfied ∧
      r.evaluated = g.size :=
  ⟨_, outcome_report_of_all ht g h, Kkt.Report.status_foldl_pass p duals _ _,
    evaluated_foldl_pass_initial h⟩

/-- A check that accepts has found every constraint to pass. -/
theorem passes_of_reportFrom_satisfied : ∀ {cs : List (Constraint α)} {r r' : Kkt.Report α},
    (reportFrom p duals tolerance r cs).outcome = .ok r' → r'.status = .satisfied →
      ∀ c ∈ cs, c.Passes p duals tolerance
  | [], _, _, _, _ => fun _ hc => (nomatch hc)
  | c :: cs, r, r', hr, hstatus => by
    have hc : c.Passes p duals tolerance := by
      by_contra hc
      have hend := outcome_reportFrom_of_not_passes hc r cs
      rw [hr] at hend
      exact hend.status_ne_satisfied hstatus
    rw [reportFrom_of_passes hc] at hr
    exact List.forall_mem_cons.mpr ⟨hc, passes_of_reportFrom_satisfied hr hstatus⟩

/-- **A check accepts exactly if every constraint passes.** -/
theorem report_satisfied_iff (ht : Scalar.isLimit tolerance = true) {g : Graph α} :
    (∃ r, (g.report p duals tolerance).outcome = .ok r ∧ r.status = .satisfied) ↔
      ∀ c ∈ g.constraints, c.Passes p duals tolerance := by
  constructor
  · rintro ⟨r, hr, hstatus⟩
    rw [report_of_limit ht] at hr
    exact passes_of_reportFrom_satisfied hr hstatus
  · intro h
    obtain ⟨r, hr, hstatus, -⟩ := outcome_report_of_all_pass ht h
    exact ⟨r, hr, hstatus⟩

/-- **The first constraint that does not pass decides a check.** -/
theorem outcome_report_of_first_not_passing (ht : Scalar.isLimit tolerance = true) {g : Graph α}
    {k : Nat} {c : Constraint α} (hk : g.get? k = some c)
    (hbefore : ∀ j d, j < k → g.get? j = some d → d.Passes p duals tolerance)
    (hc : ¬ c.Passes p duals tolerance) :
    c.Decides p tolerance k (g.report p duals tolerance).outcome := by
  obtain ⟨hlt, hget⟩ := List.getElem?_eq_some_iff.mp hk
  have hsplit : g.constraints = g.constraints.take k ++ c :: g.constraints.drop (k + 1) := by
    rw [← hget, ← List.drop_eq_getElem_cons hlt, List.take_append_drop]
  have hpre : ∀ d ∈ g.constraints.take k, d.Passes p duals tolerance := by
    intro d hd
    obtain ⟨j, hj, rfl⟩ := List.mem_take_iff_getElem.mp hd
    exact hbefore j _ (by omega) (List.getElem?_eq_getElem _)
  have hcount : ((g.constraints.take k).foldl (Kkt.Report.pass p duals)
      (.initial tolerance)).evaluated = k := by
    rw [evaluated_foldl_pass_initial hpre, List.length_take_of_le (Nat.le_of_lt hlt)]
  rw [report_of_limit ht, hsplit, outcome_reportFrom_append hpre]
  have hend := outcome_reportFrom_of_not_passes hc
    ((g.constraints.take k).foldl (Kkt.Report.pass p duals) (.initial tolerance))
    (g.constraints.drop (k + 1))
  rwa [hcount] at hend

/-- The yes or no of a check is the verdict of its report. -/
theorem outcome_isSatisfied (g : Graph α) (p : Point α) (duals : VectorMap α) (tolerance : α) :
    (g.isSatisfied p duals tolerance).outcome
      = (g.report p duals tolerance).outcome.map fun r => r.status.isSatisfied := by
  rw [isSatisfied, Run.outcome_bind]
  cases (g.report p duals tolerance).outcome <;> rfl

/-! ## In double precision -/

/-- **A check refuses a tolerance that is no number, infinite or negative.  Otherwise it accepts if
every constraint passes, and else the first constraint that does not pass decides it.**  Its yes or
no is the verdict of the report. -/
theorem report_decided_by_first_not_passing (g : Graph Float) (p : Point Float)
    (duals : VectorMap Float) (tolerance : Float) :
    ((tolerance.isNaN = true ∨ tolerance.isInf = true ∨ tolerance < 0) →
      ∃ fault, (g.report p duals tolerance).outcome = .error (.refused fault) ∧
        fault.kind = .invalidInput) ∧
    (¬ (tolerance.isNaN = true ∨ tolerance.isInf = true ∨ tolerance < 0) →
      ((∀ c ∈ g.constraints, c.Passes p duals tolerance) →
        ∃ r, (g.report p duals tolerance).outcome = .ok r ∧ r.status = .satisfied ∧
          r.evaluated = g.size) ∧
      ∀ k c, g.get? k = some c → (∀ j d, j < k → g.get? j = some d → d.Passes p duals tolerance) →
        ¬ c.Passes p duals tolerance →
        c.Decides p tolerance k (g.report p duals tolerance).outcome) ∧
    (g.isSatisfied p duals tolerance).outcome
      = (g.report p duals tolerance).outcome.map (fun r => r.status.isSatisfied) ∧
    ∀ config : Kkt.Config Float, (g.isSatisfiedUnder p duals config).outcome
      = (g.report p duals config.tolerance).outcome.map (fun r => r.status.isSatisfied) := by
  have hlimit : ¬ (tolerance.isNaN = true ∨ tolerance.isInf = true ∨ tolerance < 0) →
      Scalar.isLimit tolerance = true := fun ht =>
    Bool.of_not_eq_false (mt (isLimit_eq_false_iff tolerance).mp ht)
  refine ⟨fun ht => ?_, fun ht => ⟨fun hall => ?_, fun k c hk hbefore hc => ?_⟩, ?_,
    fun config => ?_⟩
  · have hrefused := (isLimit_eq_false_iff tolerance).mpr ht
    exact ⟨_, outcome_report_of_not_limit hrefused g, rfl⟩
  · exact outcome_report_of_all_pass (hlimit ht) hall
  · exact outcome_report_of_first_not_passing (hlimit ht) hk hbefore hc
  · exact outcome_isSatisfied g p duals tolerance
  · exact outcome_isSatisfied g p duals config.tolerance

/-- A bound that holds, a bound that holds but is not tight, and a constraint that gives up. -/
def looseSecond : Graph Float where
  constraints :=
    [ .bound (.upper 0 0 1 100), .bound (.lower 0 0 0 101),
      .custom ⟨[], 1, 102, fun _ => .error (.aborted "gave up"), fun _ => .error (.aborted "")⟩ ]

/-- The second bound carries a multiplier, so its slack of one half decides the check. -/
theorem report_decided_by_loose_second :
    ∃ r, (looseSecond.report ⟨.ofList [(0, [0.5])]⟩ (.ofList [(101, [0])]) 0.25).outcome = .ok r ∧
      r.evaluated = 2 ∧ r.status = .complementarityViolated ⟨1, 101, 0 - 0.5⟩ := by
  obtain ⟨-, hfit, -⟩ := report_decided_by_first_not_passing looseSecond
    ⟨.ofList [(0, [0.5])]⟩ (.ofList [(101, [0])]) 0.25
  obtain ⟨-, hfirst⟩ := hfit (by decide)
  have hd := hfirst 1 _ rfl ?_ ?_
  · obtain ⟨r, hr, hcount, hstatus⟩ := hd
    exact ⟨r, hr, hcount, hstatus.trans (if_neg (by decide))⟩
  · intro j d hj hd
    obtain rfl : j = 0 := Nat.lt_one_iff.mp hj
    cases hd
    exact ⟨0.5 - 1, rfl, rfl, by decide, fun hactive => by cases hactive⟩
  · rintro ⟨e, he, -, -, hactive⟩
    cases he
    exact hactive rfl (by decide)

end Graph

end SqpInequality

import SqpInequality.Proofs.Graph.Rows
import SqpInequality.Proofs.Kkt.FirstFailure

/-!
# Proofs/Graph/Record — what the two services do on the way to their result

A check visits the constraints up to the first that does not pass (`Graph.record_reportFrom`), a
linearization those up to the first without a row (`Graph.record_linearRows`).  Nothing behind that
constraint has a part in the run (`Graph.reportFrom_visited`, `Graph.linearRows_visited`).
-/

namespace SqpInequality

variable {α : Type}

/-! ## Where the services stop -/

namespace Constraint

variable [Scalar α]

/-- Whether a constraint passes can be evaluated. -/
instance (p : Point α) (duals : VectorMap α) (tolerance : α) :
    DecidablePred (Passes p duals tolerance) := fun c =>
  match h : c.residual p with
  | .ok [e] =>
    decidable_of_iff (Scalar.isNaN e = false ∧ ¬ tolerance < e ∧
        (duals.contains c.dualKey = true → ¬ tolerance < Scalar.abs e))
      ⟨fun he => ⟨e, h, he⟩, fun ⟨_, he', he⟩ => by cases h.symm.trans he'; exact he⟩
  | .ok [] => isFalse fun ⟨_, he, _⟩ => by cases h.symm.trans he
  | .ok (_ :: _ :: _) => isFalse fun ⟨_, he, _⟩ => by cases h.symm.trans he
  | .error _ => isFalse fun ⟨_, he, _⟩ => by cases h.symm.trans he

/-- Whether a constraint has a row can be evaluated. -/
instance (p : Point α) : DecidablePred (HasRow p) := fun c =>
  match h : c.linearize p with
  | .ok m =>
    decidable_of_iff (m.rowCount = 1)
      ⟨fun hm => ⟨m, h, hm⟩, fun ⟨_, hm', hm⟩ => by cases h.symm.trans hm'; exact hm⟩
  | .error _ => isFalse fun ⟨_, hm, _⟩ => by cases h.symm.trans hm

end Constraint

/-- What a check announces at its end. -/
def Kkt.Report.verdict (r : Kkt.Report α) : Event α :=
  match r.status with
  | .satisfied => .accepted r.evaluated r.active
  | status => .rejected status

theorem Kkt.Report.isSummary_verdict (r : Kkt.Report α) : r.verdict.isSummary = true := by
  rw [verdict]
  split <;> rfl

/-- What a linearization announces at its end. -/
def LinearSystem.builtEvent (s : LinearSystem α) : Event α := .systemBuilt s.size

namespace Graph

/-! ## The check -/

section Check

variable [Scalar α] {p : Point α} {duals : VectorMap α} {tolerance : α}

/-- **A constraint that does not pass is the last one of a check**: whatever follows it, it is asked
and announced, and the check is summed up if it comes to a verdict. -/
theorem reportFrom_of_not_passes {c : Constraint α} (h : ¬ c.Passes p duals tolerance)
    (r : Kkt.Report α) :
    ∃ run : Run α (Kkt.Report α),
      (∀ rest, reportFrom p duals tolerance r (c :: rest) = run) ∧
        run.record = Run.entry .askResidual (Constraint.residualEvent? p) c ++
          ((run.closing? Kkt.Report.verdict).map .announce).toList := by
  cases hs : c.scalarError p with
  | error failure =>
    refine ⟨_, reportFrom_of_error hs r, ?_⟩
    rw [Run.entry, Constraint.residualEvent?, hs]
    rfl
  | ok e =>
    simp only [reportFrom_of_ok hs]
    by_cases hp : tolerance < e ∨ Scalar.isNaN e = true
    · simp only [if_pos hp]
      exact ⟨_, fun _ => rfl, rfl⟩
    · have hact := Constraint.violates_of_not_passes h (Constraint.scalarError_eq_ok_iff.mp hs) hp
      simp only [if_neg hp, if_pos hact.1, if_pos hact.2]
      exact ⟨_, fun _ => rfl, rfl⟩

theorem record_reportFrom : ∀ (cs : List (Constraint α)) {r : Kkt.Report α}
    (_ : r.status = .satisfied),
    (reportFrom p duals tolerance r cs).record
      = (visited (Constraint.Passes p duals tolerance) cs).flatMap
          (Run.entry .askResidual (Constraint.residualEvent? p)) ++
        (((reportFrom p duals tolerance r cs).closing? Kkt.Report.verdict).map .announce).toList
  | [], r, hr => by
    have hverdict : r.verdict = .accepted r.evaluated r.active := by
      rw [Kkt.Report.verdict, hr]
    change [Action.announce (.accepted r.evaluated r.active)] = [Action.announce r.verdict]
    rw [hverdict]
  | c :: rest, r, hr => by
    by_cases hc : c.Passes p duals tolerance
    · have hrest := record_reportFrom rest ((r.status_pass p duals c).trans hr)
      rw [visited_cons_of hc, reportFrom_of_passes hc, List.flatMap_cons, List.append_assoc]
      exact congrArg (Run.entry .askResidual (Constraint.residualEvent? p) c ++ ·) hrest
    · obtain ⟨run, hrun, hrecord⟩ := reportFrom_of_not_passes hc r
      rw [visited_cons_of_not hc, List.flatMap_singleton, hrun, hrecord]

/-- What lies behind the constraint that decides a check has no part in it. -/
theorem reportFrom_visited : ∀ (cs : List (Constraint α)) (r : Kkt.Report α),
    reportFrom p duals tolerance r (visited (Constraint.Passes p duals tolerance) cs)
      = reportFrom p duals tolerance r cs
  | [], _ => rfl
  | c :: rest, r => by
    by_cases hc : c.Passes p duals tolerance
    · rw [visited_cons_of hc, reportFrom_of_passes hc, reportFrom_of_passes hc,
        reportFrom_visited rest]
    · obtain ⟨run, hrun, -⟩ := reportFrom_of_not_passes hc r
      rw [visited_cons_of_not hc, hrun, hrun]

/-- The last constraint that a check visits decides it, unless it passes. -/
theorem decides_of_length_visited (ht : Scalar.isLimit tolerance = true) {g : Graph α} {k : Nat}
    {c : Constraint α}
    (hlength : (visited (Constraint.Passes p duals tolerance) g.constraints).length = k + 1)
    (hk : g.get? k = some c) (hc : ¬ c.Passes p duals tolerance) :
    c.Decides p tolerance k (g.report p duals tolerance).outcome :=
  outcome_report_of_first_not_passing ht hk
    (fun _ _ hj hd => of_lt_length_visited (by omega) hd) hc

end Check

/-! ## The linearization -/

section Linearization

variable [Scalar α] {p : Point α}

theorem linearRows_of_row {c : Constraint α} {r : LinearRow α} (h : c.row p = .ok r)
    (rest : List (Constraint α)) :
    linearRows p (c :: rest) =
      ⟨Run.entry .askModel (Constraint.modelEvent? p) c ++ (linearRows p rest).record,
        (linearRows p rest).outcome.map (r :: ·)⟩ := by
  rw [linearRows_cons, h]

/-- **A constraint without a row is the last one of a linearization**, whatever follows it. -/
theorem linearRows_of_not_hasRow {c : Constraint α} (h : ¬ c.HasRow p) :
    ∃ failure, ∀ rest, linearRows p (c :: rest)
      = ⟨Run.entry .askModel (Constraint.modelEvent? p) c, .error failure⟩ := by
  cases hrow : c.row p with
  | ok r => exact absurd (Constraint.hasRow_iff.mpr ⟨r, hrow⟩) h
  | error failure =>
    refine ⟨failure, fun rest => ?_⟩
    rw [linearRows_cons, hrow]

theorem record_linearRows : ∀ cs : List (Constraint α),
    (linearRows p cs).record
      = (visited (Constraint.HasRow p) cs).flatMap
          (Run.entry .askModel (Constraint.modelEvent? p))
  | [] => rfl
  | c :: rest => by
    by_cases hc : c.HasRow p
    · obtain ⟨r, hr⟩ := Constraint.hasRow_iff.mp hc
      rw [visited_cons_of hc, linearRows_of_row hr, List.flatMap_cons, record_linearRows rest]
    · obtain ⟨failure, hrun⟩ := linearRows_of_not_hasRow hc
      rw [visited_cons_of_not hc, hrun, List.flatMap_singleton]

/-- What lies behind the first constraint without a row has no part in a linearization. -/
theorem linearRows_visited : ∀ cs : List (Constraint α),
    linearRows p (visited (Constraint.HasRow p) cs) = linearRows p cs
  | [] => rfl
  | c :: rest => by
    by_cases hc : c.HasRow p
    · obtain ⟨r, hr⟩ := Constraint.hasRow_iff.mp hc
      rw [visited_cons_of hc, linearRows_of_row hr, linearRows_of_row hr, linearRows_visited rest]
    · obtain ⟨failure, hrun⟩ := linearRows_of_not_hasRow hc
      rw [visited_cons_of_not hc, hrun, hrun]

theorem record_linearize (g : Graph α) (p : Point α) :
    (g.linearize p).record
      = (visited (Constraint.HasRow p) g.constraints).flatMap
          (Run.entry .askModel (Constraint.modelEvent? p)) ++
        (((g.linearize p).closing? LinearSystem.builtEvent).map .announce).toList := by
  rw [← record_linearRows, linearize]
  cases h : (linearRows p g.constraints).outcome with
  | error failure =>
    rw [Run.bind_error h]
    exact (List.append_nil _).symm
  | ok rows =>
    rw [Run.bind_ok h]
    rfl

end Linearization

/-! ## Both services -/

/-- **Both services visit constraints in order and end early.**  A check whose tolerance is refused
does nothing.  Otherwise it visits the constraints up to the first that does not pass, which decides
it, and a linearization visits those up to the first without a row.  Whatever lies behind has no
part in what they do and find, even a constraint that would give up if it was asked. -/
theorem services_visit_in_order [Scalar α] (g : Graph α) (p : Point α) (duals : VectorMap α)
    (tolerance : α) :
    (Scalar.isLimit tolerance = false →
      g.report p duals tolerance = ⟨[], .error (.refused (.toleranceNotLimit tolerance))⟩) ∧
    (Scalar.isLimit tolerance = true →
      (g.report p duals tolerance).Visits .askResidual (Constraint.residualEvent? p)
        Kkt.Report.verdict (visited (Constraint.Passes p duals tolerance) g.constraints) ∧
      (∀ k c, (visited (Constraint.Passes p duals tolerance) g.constraints).length = k + 1 →
        g.get? k = some c → ¬ c.Passes p duals tolerance →
        c.Decides p tolerance k (g.report p duals tolerance).outcome) ∧
      (Graph.mk (visited (Constraint.Passes p duals tolerance) g.constraints)).report p duals
        tolerance = g.report p duals tolerance) ∧
    (g.linearize p).Visits .askModel (Constraint.modelEvent? p) LinearSystem.builtEvent
      (visited (Constraint.HasRow p) g.constraints) ∧
    (Graph.mk (visited (Constraint.HasRow p) g.constraints)).linearize p = g.linearize p := by
  refine ⟨fun ht => report_of_not_limit ht g, fun ht => ⟨?_, ?_, ?_⟩, ?_, ?_⟩
  · rw [report_of_limit ht]
    exact .of_record (fun _ => rfl) (record_reportFrom _ rfl)
      (fun _ _ _ => Constraint.isSummary_of_residualEvent?) fun r _ => r.isSummary_verdict
  · exact fun k c hlength hk hc => decides_of_length_visited ht hlength hk hc
  · rw [report_of_limit ht, report_of_limit ht, reportFrom_visited]
  · exact .of_record (fun _ => rfl) (record_linearize g p)
      (fun _ _ _ => Constraint.isSummary_of_modelEvent?) fun _ _ => rfl
  · rw [linearize, linearize, linearRows_visited]

/-- The slack second bound of `looseSecond` carries a multiplier and is the last one that a check
asks; a linearization gets to the constraint that gives up, and announces nothing of it. -/
theorem services_visit_in_order_of_looseSecond :
    (looseSecond.report ⟨.ofList [(0, [0.5])]⟩ (.ofList [(101, [0])]) (-1)).record = [] ∧
    (looseSecond.report ⟨.ofList [(0, [0.5])]⟩ (.ofList [(101, [0])]) 0.25).requests
      = (looseSecond.constraints.take 2).map .askResidual ∧
    (looseSecond.linearize ⟨.ofList [(0, [0.5])]⟩).requests
      = looseSecond.constraints.map .askModel ∧
    (looseSecond.linearize ⟨.ofList [(0, [0.5])]⟩).events
      = [.linearized 100 (some (1 - 0.5)), .linearized 101 (some (0.5 - 0))] := by
  obtain ⟨hrefused, -⟩ := services_visit_in_order looseSecond ⟨.ofList [(0, [0.5])]⟩
    (.ofList [(101, [0])]) (-1)
  obtain ⟨-, hcheck, hmodels, -⟩ := services_visit_in_order looseSecond ⟨.ofList [(0, [0.5])]⟩
    (.ofList [(101, [0])]) 0.25
  refine ⟨by rw [hrefused (by decide)], ?_, ?_, ?_⟩
  · rw [(hcheck (by decide)).1.requests_eq]
    rfl
  · rw [hmodels.requests_eq]
    rfl
  · rw [hmodels.events_eq]
    rfl

end Graph

end SqpInequality

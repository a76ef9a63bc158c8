import SqpInequality.Proofs.Constraint.BuiltIn
import SqpInequality.Proofs.Graph.Rows
import SqpInequality.Proofs.Kkt.FirstFailure

/-!
# Proofs/Graph/Failures — a check and a linearization fail for one reason

For the constraints of the library residual and model belong together, so a constraint has a row
exactly if it has a scalar residual (`Constraint.hasRow_iff_residual`).  A check may end before a
linearization does, at a verdict; where it ends in a failure, the linearization ends there too and
with the same one (`Graph.outcome_linearize_of_report_eq_error`).
-/

namespace SqpInequality

namespace Constraint

variable {α : Type} [Scalar α]

/-- A constraint of the library has a row exactly if it has a scalar residual. -/
theorem hasRow_iff_residual {c : Constraint α} (h : c.isBuiltIn = true) {p : Point α} :
    c.HasRow p ↔ ∃ e, c.residual p = .ok [e] := by
  have hmatched := matched_of_isBuiltIn h p
  rw [HasRow]
  generalize c.residual p = x, c.linearize p = y at hmatched
  cases hmatched with
  | refused _ => simp only [reduceCtorEq, false_and, exists_false]
  | row single _ => exact iff_of_true ⟨_, rfl, single⟩ ⟨_, rfl⟩

/-- What a constraint of the library fails with, it fails with in both services. -/
theorem row_eq_error_iff {c : Constraint α} (h : c.isBuiltIn = true) {p : Point α}
    {failure : Failure α} : c.row p = .error failure ↔ c.residual p = .error failure := by
  have hmatched := matched_of_isBuiltIn h p
  rw [hmatched.error_iff]
  cases hm : c.linearize p with
  | error failure' => rw [row_eq_error hm, Except.error.injEq, Except.error.injEq]
  | ok m =>
    rw [hm] at hmatched
    obtain ⟨r, hr⟩ := hasRow_iff.mp ⟨m, hm, hmatched.rowCount_eq_one⟩
    simp only [hr, reduceCtorEq]

end Constraint

namespace Graph

section Failures

variable {α : Type} [Scalar α] {g : Graph α} {p : Point α} {duals : VectorMap α} {tolerance : α}

/-- A check that fails does so at a constraint without a residual, behind constraints that have
one. -/
theorem exists_of_report_eq_error (hkind : ∀ c ∈ g.constraints, c.isBuiltIn = true)
    (ht : Scalar.isLimit tolerance = true) {failure : Failure α}
    (h : (g.report p duals tolerance).outcome = .error failure) :
    ∃ k c, g.get? k = some c ∧ c.residual p = .error failure ∧
      ∀ j d, j < k → g.get? j = some d → d.HasRow p := by
  have hnot : ¬ ∀ c ∈ g.constraints, c.Passes p duals tolerance := by
    intro hall
    obtain ⟨r, hr, -⟩ := outcome_report_of_all_pass ht hall
    rw [hr] at h
    contradiction
  obtain ⟨k, c, hk, hbefore, hc⟩ := exists_first_not hnot
  have hdecides := outcome_report_of_first_not_passing ht hk hbefore hc
  refine ⟨k, c, hk, ?_, fun j d hj hd => ?_⟩
  · have hmatched := Constraint.matched_of_isBuiltIn (hkind c (List.mem_of_getElem? hk)) p
    rw [h, Constraint.Decides] at hdecides
    generalize c.residual p = x, c.linearize p = y at hmatched hdecides
    cases hmatched with
    | refused _ => exact congrArg _ (Except.error.inj hdecides).symm
    -- a constraint with a residual would have ended the check with a verdict
    | row _ _ =>
      obtain ⟨r, hr, -⟩ := hdecides
      contradiction
  · obtain ⟨e, he, -⟩ := hbefore j d hj hd
    exact (Constraint.hasRow_iff_residual (hkind d (List.mem_of_getElem? hd))).mpr ⟨e, he⟩

/-- **What a check fails with, the linearization fails with.** -/
theorem outcome_linearize_of_report_eq_error (hkind : ∀ c ∈ g.constraints, c.isBuiltIn = true)
    (ht : Scalar.isLimit tolerance = true) {failure : Failure α}
    (h : (g.report p duals tolerance).outcome = .error failure) :
    (g.linearize p).outcome = .error failure := by
  obtain ⟨k, c, hk, hc, hbefore⟩ := exists_of_report_eq_error hkind ht h
  have hrow := (Constraint.row_eq_error_iff (hkind c (List.mem_of_getElem? hk))).mpr hc
  exact outcome_linearize_eq_error_iff.mpr ⟨k, c, hk, hrow, hbefore⟩

/-- A linearization fails at a variable that is missing or of the wrong dimension. -/
theorem aboutPoint_of_linearize (hkind : ∀ c ∈ g.constraints, c.isBuiltIn = true)
    {failure : Failure α} (h : (g.linearize p).outcome = .error failure) :
    ∃ fault, failure = .refused fault ∧ fault.AboutPoint := by
  obtain ⟨k, c, hk, hrow, -⟩ := outcome_linearize_eq_error_iff.mp h
  have hbuilt := hkind c (List.mem_of_getElem? hk)
  have hmatched := Constraint.matched_of_isBuiltIn hbuilt p
  rw [(Constraint.row_eq_error_iff hbuilt).mp hrow] at hmatched
  exact hmatched.aboutPoint

/-- A check fails at its tolerance, or as the linearization does. -/
theorem kind_ne_of_report (hkind : ∀ c ∈ g.constraints, c.isBuiltIn = true) {failure : Failure α}
    (h : (g.report p duals tolerance).outcome = .error failure) :
    ∃ fault, failure = .refused fault ∧ fault.kind ≠ .typeMismatch := by
  cases ht : Scalar.isLimit tolerance with
  | false =>
    rw [report_of_not_limit ht] at h
    exact ⟨_, (Except.error.inj h).symm, fun hk => (nomatch hk)⟩
  | true =>
    obtain ⟨fault, heq, habout⟩ :=
      aboutPoint_of_linearize hkind (outcome_linearize_of_report_eq_error hkind ht h)
    exact ⟨fault, heq, habout.kind_ne⟩

/-- **The residual and the model of a constraint of the library fail for one reason, or are one
number and one row.  So a graph of such constraints that can be linearized can be checked, and what
a check fails with, its tolerance apart, the linearization fails with.**  Neither failure is a type
mismatch. -/
theorem failures_agree (p : Point α) :
    (∀ c : Constraint α, c.isBuiltIn = true →
      ((∃ v, c.residual p = .ok v) ↔ ∃ m, c.linearize p = .ok m) ∧
      (∀ failure, c.residual p = .error failure ↔ c.linearize p = .error failure) ∧
      (∀ v, c.residual p = .ok v → v.length = 1) ∧
      ∀ m, c.linearize p = .ok m → m.rowCount = 1) ∧
    ∀ g : Graph α, (∀ c ∈ g.constraints, c.isBuiltIn = true) →
      (∀ s, (g.linearize p).outcome = .ok s → ∀ duals tolerance, Scalar.isLimit tolerance = true →
        ∃ r, (g.report p duals tolerance).outcome = .ok r) ∧
      (∀ duals tolerance failure, Scalar.isLimit tolerance = true →
        (g.report p duals tolerance).outcome = .error failure →
        (g.linearize p).outcome = .error failure) ∧
      (∀ failure, (g.linearize p).outcome = .error failure →
        ∃ fault, failure = .refused fault ∧ fault.kind ≠ .typeMismatch) ∧
      ∀ duals tolerance failure, (g.report p duals tolerance).outcome = .error failure →
        ∃ fault, failure = .refused fault ∧ fault.kind ≠ .typeMismatch := by
  refine ⟨fun c hc => ?_, fun g hkind => ⟨fun s hs duals tolerance ht => ?_, ?_, ?_, ?_⟩⟩
  · have hmatched := Constraint.matched_of_isBuiltIn hc p
    refine ⟨hmatched.ok_iff, fun failure => hmatched.error_iff, fun v hv => ?_, fun m hm => ?_⟩
    · exact (hv ▸ hmatched).length_eq_one
    · exact (hm ▸ hmatched).rowCount_eq_one
  · cases hr : (g.report p duals tolerance).outcome with
    | ok r => exact ⟨r, rfl⟩
    | error failure =>
      rw [outcome_linearize_of_report_eq_error hkind ht hr] at hs
      contradiction
  · exact fun duals tolerance failure ht => outcome_linearize_of_report_eq_error hkind ht
  · intro failure h
    obtain ⟨fault, heq, habout⟩ := aboutPoint_of_linearize hkind h
    exact ⟨fault, heq, habout.kind_ne⟩
  · exact fun duals tolerance failure => kind_ne_of_report hkind

end Failures

/-- Where all variables are assigned nothing stops a check; where the first variable has one
component only, the second constraint ends the linearization as it ends a check. -/
theorem failures_agree_of_oneOfEachKind :
    (∃ r, (Graph.report ⟨Constraint.oneOfEachKind⟩ Constraint.oneOfEachKindPoint
      (.ofList [(102, [0])]) 0.5).outcome = .ok r) ∧
    (Graph.linearize ⟨Constraint.oneOfEachKind⟩
      ⟨.ofList [(0, [0.5]), (1, [1]), (2, [3, 2])]⟩).outcome
      = .error (.refused (.boundComponent 1 0 1)) := by
  constructor
  · obtain ⟨-, hgraph⟩ := failures_agree Constraint.oneOfEachKindPoint
    obtain ⟨hcheck, -⟩ := hgraph ⟨Constraint.oneOfEachKind⟩ Constraint.isBuiltIn_of_oneOfEachKind
    exact hcheck _ rfl _ _ (by decide)
  · obtain ⟨-, hgraph⟩ := failures_agree ⟨.ofList [(0, [0.5]), (1, [1]), (2, [3, 2])]⟩
    obtain ⟨-, hfails, -⟩ :=
      hgraph ⟨Constraint.oneOfEachKind⟩ Constraint.isBuiltIn_of_oneOfEachKind
    exact hfails .empty 0.5 _ (by decide) rfl

end Graph

end SqpInequality

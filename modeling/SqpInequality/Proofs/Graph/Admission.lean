import SqpInequality.Fault.Message
import SqpInequality.Proofs.Graph.Record
import SqpInequality.Proofs.Kkt.Ending

/-!
# Proofs/Graph/Admission — a graph lists what it has accepted, in order

Constraints come in over three routes.  Two take a constraint, the third takes a factor and refuses
one that is no constraint; the graph goes on as it was (`Graph.admitted_eq`):

    own c₀ · shared c₁ · factor f (plain) · factor c₂ · own c₀        lists  [c₀, c₁, c₂, c₀]

So after any run of admissions a graph lists what was accepted, with repetitions
(`Graph.ofAdmissions_eq`), and this list is what its size, its look-ups and its services show
(`Graph.Lists`).
-/

namespace SqpInequality

variable {α : Type}

namespace Graph

/-! ## What a graph shows of its constraints -/

section Services

variable [Scalar α] {p : Point α} {duals : VectorMap α} {tolerance : α}

/-- A linearization asks the constraints up to the first without a row. -/
theorem requests_linearize (g : Graph α) (p : Point α) :
    (g.linearize p).requests
      = (visited (Constraint.HasRow p) g.constraints).map .askModel :=
  (Run.Visits.of_record (fun _ => rfl) (record_linearize g p)
    (fun _ _ _ => Constraint.isSummary_of_modelEvent?) fun _ _ => rfl).requests_eq

/-- A check asks the constraints up to the first that does not pass. -/
theorem requests_report (ht : Scalar.isLimit tolerance = true) (g : Graph α) :
    (g.report p duals tolerance).requests
      = (visited (Constraint.Passes p duals tolerance) g.constraints).map .askResidual := by
  rw [report_of_limit ht]
  exact (Run.Visits.of_record (fun _ => rfl) (record_reportFrom _ rfl)
    (fun _ _ _ => Constraint.isSummary_of_residualEvent?) fun r _ => r.isSummary_verdict).requests_eq

/-- **A graph lists some constraints**: they are what its size counts, what it has under the indices,
and what its two services ask, one after the other.  A linearization has a row for each of them, and
a check that accepts has asked them all; the one that a rejection is about stands at the index that
is reported. -/
structure Lists (cs : List (Constraint α)) (g : Graph α) : Prop where
  /-- The constraints, from first to last. -/
  constraints_eq : g.constraints = cs
  /-- Each of them is counted. -/
  size_eq : g.size = cs.length
  /-- Each of them stands in its place. -/
  get?_eq : ∀ i, g.get? i = cs[i]?
  /-- A linearization asks them in order. -/
  models : ∀ p, (g.linearize p).requests <+: cs.map .askModel
  /-- The rows of a linearization are theirs, in order. -/
  rows : ∀ p s, (g.linearize p).outcome = .ok s →
    List.Forall₂ (Constraint.LinearizesTo p) cs s.rows
  /-- A check asks them in order. -/
  residuals : ∀ p duals tolerance,
    (g.report p duals tolerance).requests <+: cs.map .askResidual
  /-- A check that accepts has asked them all. -/
  accepting : ∀ p duals tolerance r, (g.report p duals tolerance).outcome = .ok r →
    r.status = .satisfied → (g.report p duals tolerance).requests = cs.map .askResidual
  /-- A rejection is about the one at the index that it reports. -/
  rejecting : ∀ p duals tolerance r site, (g.report p duals tolerance).outcome = .ok r →
    r.status.site? = some site → ∃ c, cs[site.index]? = some c ∧ c.dualKey = site.dualKey

theorem lists_constraints (g : Graph α) : g.Lists g.constraints where
  constraints_eq := rfl
  size_eq := rfl
  get?_eq := fun _ => rfl
  models := fun p => by
    rw [requests_linearize]
    exact (isPrefix_visited _).map _
  rows := fun p s h => outcome_linearize_eq_ok_iff.mp h
  residuals := fun p duals tolerance => by
    cases ht : Scalar.isLimit tolerance with
    | false =>
      rw [report_of_not_limit ht]
      exact List.nil_prefix
    | true =>
      rw [requests_report ht]
      exact (isPrefix_visited _).map _
  accepting := fun p duals tolerance r h hstatus => by
    have ht := isLimit_of_report h
    rw [requests_report ht, visited_of_all ((report_satisfied_iff ht).mp ⟨r, h, hstatus⟩)]
  rejecting := fun p duals tolerance r site h hsite => by
    obtain ⟨c, hc, hkey, -⟩ := get?_of_site h hsite
    exact ⟨c, hc, hkey⟩

end Services

/-! ## Admissions -/

/-- A call that admits something to a graph. -/
inductive Admission (α : Type) where
  /-- Admit a constraint that only this graph has. -/
  | own (c : Constraint α)
  /-- Admit a constraint that other graphs may have as well. -/
  | shared (c : Constraint α)
  /-- Admit a factor, if it is a constraint. -/
  | factor (f : Factor α)

/-- The constraint that an admission is about, if there is one. -/
def Admission.constraint? : Admission α → Option (Constraint α)
  | own c | shared c => some c
  | factor f => f.inequality?

/-- The graph after an admission, or why the admission is refused. -/
def tryAdmit (g : Graph α) : Admission α → Except (Fault α) (Graph α)
  | .own c | .shared c => .ok (g.add c)
  | .factor f => g.tryAdd f

/-- An admission as it is carried out in place. -/
def Admission.inPlace : Admission α → InPlace α (Graph α) Unit
  | own c | shared c => addInPlace c
  | factor f => tryAddInPlace f

theorem Admission.does_inPlace (a : Admission α) : a.inPlace.Does fun g => g.tryAdmit a := by
  cases a with
  | own c => exact fun _ => rfl
  | shared c => exact fun _ => rfl
  | factor f => exact does_tryAddInPlace f

/-- The graph that an admission leaves, refused or not. -/
def admitted (g : Graph α) (a : Admission α) : Graph α := (a.inPlace.on g).2

/-- The graph that admissions lead to from the one without constraints. -/
def ofAdmissions (as : List (Admission α)) : Graph α := as.foldl admitted empty

/-- **An admission puts its constraint behind all others**, and without one changes nothing. -/
theorem admitted_eq (g : Graph α) (a : Admission α) :
    g.admitted a = ⟨g.constraints ++ a.constraint?.toList⟩ := by
  rcases a with c | c | c | f
  · rfl
  · rfl
  · rfl
  · exact congrArg Graph.mk (List.append_nil _).symm

theorem foldl_admitted (as : List (Admission α)) (g : Graph α) :
    as.foldl admitted g = ⟨g.constraints ++ as.filterMap Admission.constraint?⟩ := by
  induction as generalizing g with
  | nil => exact congrArg Graph.mk (List.append_nil _).symm
  | cons a as ih =>
    rw [List.foldl_cons, ih, admitted_eq, List.append_assoc]
    cases h : a.constraint? with
    | none => rw [List.filterMap_cons_none h, Option.toList_none, List.nil_append]
    | some c => rw [List.filterMap_cons_some h, Option.toList_some, List.singleton_append]

/-- **A graph is the list of what was accepted**, in order. -/
theorem ofAdmissions_eq (as : List (Admission α)) :
    ofAdmissions as = ⟨as.filterMap Admission.constraint?⟩ := foldl_admitted as empty

/-- Constraints over one of the first two routes are all accepted. -/
theorem ofAdmissions_shared (cs : List (Constraint α)) :
    ofAdmissions (cs.map .shared) = ⟨cs⟩ := by
  rw [ofAdmissions_eq, List.filterMap_map]
  exact congrArg Graph.mk List.filterMap_some

/-- Of factors those are accepted that are constraints. -/
theorem ofAdmissions_factor (fs : List (Factor α)) :
    ofAdmissions (fs.map .factor) = ⟨fs.filterMap Factor.inequality?⟩ := by
  rw [ofAdmissions_eq, List.filterMap_map]
  rfl

/-! ## Factors that are refused -/

section Factors

variable {g next : Graph α} {f : Factor α} {fault : Fault α}

theorem tryAdd_eq_ok_iff :
    g.tryAdd f = .ok next ↔ (∃ c, f.inequality? = some c) ∧ next = g.admitted (.factor f) := by
  cases f with
  | inequality c =>
    refine ⟨fun h => ⟨⟨c, rfl⟩, (Except.ok.inj h).symm⟩, ?_⟩
    rintro ⟨-, rfl⟩
    rfl
  | plain u =>
    refine iff_of_false (fun h => (nomatch h)) ?_
    rintro ⟨⟨c, hc⟩, -⟩
    exact (nomatch hc)

/-- **A factor is refused under its description.** -/
theorem tryAdd_eq_error_iff :
    g.tryAdd f = .error fault ↔ ∃ u, f = .plain u ∧ fault = .notAnInequality u.description := by
  cases f with
  | inequality c =>
    refine iff_of_false (fun h => (nomatch h)) ?_
    rintro ⟨u, hu, -⟩
    exact (nomatch hu)
  | plain u =>
    refine ⟨fun h => ⟨u, rfl, (Except.error.inj h).symm⟩, ?_⟩
    rintro ⟨w, hw, rfl⟩
    obtain rfl := Factor.plain.inj hw
    rfl

theorem exists_tryAdd_error_iff :
    (∃ fault, g.tryAdd f = .error fault) ↔ f.inequality? = none := by
  simp only [tryAdd_eq_error_iff]
  cases f with
  | inequality c => simp [Factor.inequality?]
  | plain u => simp [Factor.inequality?]

/-- A factor that is refused leaves no trace among other admissions. -/
theorem ofAdmissions_of_refused (h : f.inequality? = none) (as later : List (Admission α)) :
    ofAdmissions (as ++ .factor f :: later) = ofAdmissions (as ++ later) := by
  have hnone : (Admission.factor f).constraint? = none := h
  rw [ofAdmissions_eq, ofAdmissions_eq, List.filterMap_append, List.filterMap_append,
    List.filterMap_cons_none hnone]

/-- **Factors make a graph if all of them are constraints**, the graph that lists these. -/
theorem ofFactors_eq_ok_iff {fs : List (Factor α)} :
    ofFactors fs = .ok g ↔ (∀ f ∈ fs, ∃ c, f.inequality? = some c) ∧
      g = ofAdmissions ((fs.filterMap Factor.inequality?).map .shared) := by
  -- Each factor takes the third route, and the graph lists the same constraints as over the second.
  have hone : fs.foldl (fun g f => g.admitted (.factor f)) empty = ofAdmissions (fs.map .factor) :=
    List.foldl_map.symm
  rw [ofFactors, foldlM_eq_ok_iff_of fun _ _ _ => tryAdd_eq_ok_iff, hone, ofAdmissions_factor,
    ofAdmissions_shared]

/-- **Otherwise the first that is none is refused.** -/
theorem ofFactors_eq_error_iff {fs : List (Factor α)} :
    ofFactors fs = .error fault ↔ ∃ (i : Nat) (u : PlainFactor α), fs[i]? = some (.plain u) ∧
      (∀ f ∈ fs.take i, ∃ c, f.inequality? = some c) ∧ fault = .notAnInequality u.description := by
  rw [ofFactors, foldlM_eq_error_iff_of (fun _ _ _ => tryAdd_eq_ok_iff)
    fun _ _ _ => tryAdd_eq_error_iff]
  refine exists_congr fun i => ⟨?_, ?_⟩
  · rintro ⟨_, hi, hbefore, u, rfl, hfault⟩
    exact ⟨u, hi, hbefore, hfault⟩
  · rintro ⟨u, hi, hbefore, hfault⟩
    exact ⟨_, hi, hbefore, u, rfl, hfault⟩

end Factors

/-! ## All routes -/

end Graph

end SqpInequality

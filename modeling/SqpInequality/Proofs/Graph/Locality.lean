import SqpInequality.Proofs.Constraint.Keys
import SqpInequality.Proofs.Graph.Linearize
import SqpInequality.Proofs.Point.Operation

/-!
# Proofs/Graph/Locality — a constraint looks at its own variables only

Of a point, a constraint of the library looks up its own variables (`Constraint.answers_congr`), and
of a step, a linear model looks up the keys of its blocks (`LinearModel.error_congr`).  So what a
graph of such constraints answers is the same after any run of operations that spares its variables
(`Graph.answers_local`).
-/

namespace SqpInequality

variable {α : Type}

/-! ## Points -/

namespace Point

/-- **Points agree on some variables**: each of them has the same vector in both, or none. -/
def AgreeOn (ks : List Key) (p q : Point α) : Prop := ∀ k ∈ ks, p.get? k = q.get? k

variable {p q : Point α}

theorem value_congr {k : Key} (h : p.get? k = q.get? k) : p.value k = q.value k := by
  rw [value, value, h]

theorem gather_congr {ks : List Key} (h : AgreeOn ks p q) : p.gather ks = q.gather ks :=
  mapM_congr fun k hk => value_congr (h k hk)

theorem agreeOn_run [Scalar α] {ks : List Key} {os : List (Operation α)}
    (h : ∀ o ∈ os, ∀ k ∈ ks, o.Spares k) (p : Point α) : AgreeOn ks (p.run os) p :=
  fun k hk => get?_run_of_spares (fun o ho => h o ho k hk) p

end Point

/-! ## Constraints -/

section Constraints

variable {p q : Point α}

theorem Bound.component_congr {b : Bound α} (h : Point.AgreeOn [b.key] p q) :
    b.component p = b.component q := by
  rw [component, component, Point.value_congr (h b.key List.mem_cons_self)]

variable [Scalar α]

theorem Affine.excess_congr {a : Affine α} (h : Point.AgreeOn a.keys p q) :
    a.excess p = a.excess q := by
  rw [excess, excess, Point.gather_congr h]

theorem MaxDistance.difference_congr {c : MaxDistance α} (h : Point.AgreeOn c.keys p q) :
    c.difference p = c.difference q := by
  have hfirst := h c.first List.mem_cons_self
  have hsecond := h c.second (List.mem_cons_of_mem _ List.mem_cons_self)
  rw [difference, difference, Point.value_congr hfirst, Point.value_congr hsecond]

/-- **A constraint of the library looks at its own variables only.** -/
theorem Constraint.answers_congr {c : Constraint α} (hkind : c.isBuiltIn = true)
    (h : Point.AgreeOn c.keys p q) :
    c.residual p = c.residual q ∧ c.linearize p = c.linearize q := by
  cases c with
  | bound b =>
    simp only [residual, linearize, Bound.residual, Bound.linearize, Bound.component_congr h,
      and_self]
  | affine a =>
    simp only [residual, linearize, Affine.residual, Affine.linearize, Affine.excess_congr h,
      and_self]
  | distance d =>
    simp only [residual, linearize, MaxDistance.residual, MaxDistance.linearize,
      MaxDistance.difference_congr h, and_self]
  | numerical n =>
    have hgather : p.gather n.keys = q.gather n.keys := Point.gather_congr h
    simp only [residual, linearize, Numerical.residual, Numerical.linearize, hgather, and_self]
  | custom _ => contradiction

end Constraints

/-! ## Linear models -/

/-- **Steps agree on some keys**: each of them has the same vector in both, or none. -/
def VectorMap.AgreeOn (ks : List Key) (d₁ d₂ : VectorMap α) : Prop :=
  ∀ k ∈ ks, d₁.get? k = d₂.get? k

/-- The keys of all rows. -/
def LinearSystem.keys (s : LinearSystem α) : List Key := s.rows.flatMap LinearRow.keys

section Linear

variable [Scalar α] {d₁ d₂ : VectorMap α}

/-- **A linear model looks at the keys of its blocks only.** -/
theorem LinearModel.error_congr {m : LinearModel α} (h : d₁.AgreeOn m.keys d₂) :
    m.error d₁ = m.error d₂ := by
  refine foldlM_congr (fun t ht total => ?_) _
  rw [addTerm, addTerm, h t.1 (List.mem_map_of_mem ht)]

theorem LinearRow.error_congr {r : LinearRow α} (h : d₁.AgreeOn r.keys d₂) :
    r.error d₁ = r.error d₂ := by
  rw [error, error, LinearModel.error_congr h]

theorem LinearRow.isSatisfied_congr {r : LinearRow α} (h : d₁.AgreeOn r.keys d₂) (tolerance : α) :
    r.isSatisfied d₁ tolerance = r.isSatisfied d₂ tolerance := by
  rw [isSatisfied, isSatisfied, error_congr h]

/-- **The errors of a system depend on the keys of its rows only**, and so do its verdicts. -/
theorem LinearSystem.errors_congr {s : LinearSystem α} (h : d₁.AgreeOn s.keys d₂) :
    s.errors d₁ = s.errors d₂ ∧
      ∀ tolerance, s.verdicts d₁ tolerance = s.verdicts d₂ tolerance := by
  have hrow : ∀ r ∈ s.rows, d₁.AgreeOn r.keys d₂ :=
    fun r hr k hk => h k (List.mem_flatMap.mpr ⟨r, hr, hk⟩)
  exact ⟨mapM_congr fun r hr => LinearRow.error_congr (hrow r hr),
    fun tolerance => mapM_congr fun r hr => LinearRow.isSatisfied_congr (hrow r hr) tolerance⟩

end Linear

/-! ## Graphs -/

namespace Graph

/-- The variables of all constraints. -/
def keys (g : Graph α) : List Key := g.constraints.flatMap Constraint.keys

variable [Scalar α]

section Services

variable {p q : Point α}

/-- Constraints that answer alike at two points are linearized alike. -/
theorem linearRows_congr : ∀ {cs : List (Constraint α)}
    (_ : ∀ c ∈ cs, c.linearize p = c.linearize q), linearRows p cs = linearRows q cs
  | [], _ => rfl
  | c :: cs, h => by
    obtain ⟨hc, hcs⟩ := List.forall_mem_cons.mp h
    have hask : Run.askModel c p = Run.askModel c q := by
      rw [Run.askModel, Run.askModel, hc]
    simp only [linearRows, hask, linearRows_congr hcs]

/-- Constraints that answer alike at two points are checked alike. -/
theorem reportFrom_point_congr {duals : VectorMap α} {tolerance : α} :
    ∀ {cs : List (Constraint α)} (_ : ∀ c ∈ cs, c.residual p = c.residual q) (r : Kkt.Report α),
      reportFrom p duals tolerance r cs = reportFrom q duals tolerance r cs
  | [], _, _ => rfl
  | c :: cs, h, r => by
    obtain ⟨hc, hcs⟩ := List.forall_mem_cons.mp h
    have hask : Run.askScalar c p = Run.askScalar c q := by
      rw [Run.askScalar, Run.askScalar, Run.askResidual, Run.askResidual, hc]
    simp only [reportFrom, hask, reportFrom_point_congr hcs]

/-- **The services on a graph of the library's constraints look at its variables only.** -/
theorem services_congr {g : Graph α} (hkind : ∀ c ∈ g.constraints, c.isBuiltIn = true)
    (h : Point.AgreeOn g.keys p q) :
    g.linearize p = g.linearize q ∧
      ∀ duals tolerance, g.report p duals tolerance = g.report q duals tolerance := by
  have hanswers : ∀ c ∈ g.constraints,
      c.residual p = c.residual q ∧ c.linearize p = c.linearize q :=
    fun c hc => Constraint.answers_congr (hkind c hc)
      fun k hk => h k (List.mem_flatMap.mpr ⟨c, hc, hk⟩)
  constructor
  · rw [linearize, linearize, linearRows_congr fun c hc => (hanswers c hc).2]
  · intro duals tolerance
    rw [report, report, reportFrom_point_congr fun c hc => (hanswers c hc).1]

end Services

/-- The rows of a graph of the library's constraints are over its variables. -/
theorem mem_keys_of_linearize {g : Graph α} (hkind : ∀ c ∈ g.constraints, c.isBuiltIn = true)
    {p : Point α} {s : LinearSystem α} (hs : (g.linearize p).outcome = .ok s) {k : Key}
    (hk : k ∈ s.keys) : k ∈ g.keys := by
  obtain ⟨r, hr, hkr⟩ := List.mem_flatMap.mp hk
  obtain ⟨c, hc, hmodel, -⟩ := exists_mem_of_forall₂ (outcome_linearize_eq_ok_iff.mp hs) hr
  have hkeys : r.keys = c.keys := Constraint.keys_of_linearize (hkind c hc) hmodel
  exact List.mem_flatMap.mpr ⟨c, hc, hkeys ▸ hkr⟩

/-- **Answers depend on the keys that are declared, and on nothing else.**  A constraint of the
library has the same residual and the same model at points that agree on its variables, and its
model is over these variables in their order.  A linear model, a row and a system have the same
errors and verdicts along steps that agree on their keys.  So no run of operations that spares the
variables of a graph changes what its services do and find, or the errors of its rows. -/
theorem answers_local :
    (∀ c : Constraint α, c.isBuiltIn = true →
      (∀ p q, Point.AgreeOn c.keys p q →
        c.residual p = c.residual q ∧ c.linearize p = c.linearize q) ∧
      ∀ p m, c.linearize p = .ok m → m.keys = c.keys) ∧
    (∀ (m : LinearModel α) d₁ d₂, VectorMap.AgreeOn m.keys d₁ d₂ → m.error d₁ = m.error d₂) ∧
    (∀ (r : LinearRow α) d₁ d₂, VectorMap.AgreeOn r.keys d₁ d₂ →
      r.error d₁ = r.error d₂ ∧
      ∀ tolerance, r.isSatisfied d₁ tolerance = r.isSatisfied d₂ tolerance) ∧
    (∀ (s : LinearSystem α) d₁ d₂, VectorMap.AgreeOn s.keys d₁ d₂ →
      s.errors d₁ = s.errors d₂ ∧
      ∀ tolerance, s.verdicts d₁ tolerance = s.verdicts d₂ tolerance) ∧
    ∀ g : Graph α, (∀ c ∈ g.constraints, c.isBuiltIn = true) →
      ∀ p os, (∀ o ∈ os, ∀ k ∈ g.keys, Point.Operation.Spares o k) →
        g.linearize (p.run os) = g.linearize p ∧
        (∀ duals tolerance, g.report (p.run os) duals tolerance = g.report p duals tolerance) ∧
        ∀ s, (g.linearize p).outcome = .ok s → ∀ d₁ d₂, VectorMap.AgreeOn g.keys d₁ d₂ →
          s.errors d₁ = s.errors d₂ := by
  refine ⟨fun c hkind => ⟨fun p q => Constraint.answers_congr hkind,
    fun p m => Constraint.keys_of_linearize hkind⟩, fun m d₁ d₂ => LinearModel.error_congr,
    fun r d₁ d₂ h => ⟨LinearRow.error_congr h, LinearRow.isSatisfied_congr h⟩,
    fun s d₁ d₂ => LinearSystem.errors_congr, fun g hkind p os hspares => ?_⟩
  obtain ⟨hlinearize, hreport⟩ := services_congr hkind (Point.agreeOn_run hspares p)
  refine ⟨hlinearize, hreport, fun s hs d₁ d₂ h => ?_⟩
  exact (LinearSystem.errors_congr fun k hk => h k (mem_keys_of_linearize hkind hs hk)).1

/-- Operations on a variable that no constraint of `Constraint.oneOfEachKind` is about; the last one
is refused. -/
def elsewhere : List (Point.Operation Float) :=
  [.insert 9 [1, 2], .update 9 [3, 4], .retract (.ofList [(9, [0.5, 0.5])]), .update 9 [5]]

theorem answers_local_elsewhere :
    Graph.linearize ⟨Constraint.oneOfEachKind⟩ (Constraint.oneOfEachKindPoint.run elsewhere)
      = Graph.linearize ⟨Constraint.oneOfEachKind⟩ Constraint.oneOfEachKindPoint ∧
    Graph.report ⟨Constraint.oneOfEachKind⟩ (Constraint.oneOfEachKindPoint.run elsewhere) .empty 0.5
      = Graph.report ⟨Constraint.oneOfEachKind⟩ Constraint.oneOfEachKindPoint .empty 0.5 ∧
    ∃ s,
      (Graph.linearize ⟨Constraint.oneOfEachKind⟩ Constraint.oneOfEachKindPoint).outcome = .ok s ∧
      s.errors (.ofList [(0, [1, 2]), (1, [3]), (2, [4, 5])])
        = s.errors (.ofList [(0, [1, 2]), (1, [3]), (2, [4, 5]), (9, [6])]) := by
  obtain ⟨-, -, -, -, hgraph⟩ := answers_local (α := Float)
  have hkeys : Graph.keys ⟨Constraint.oneOfEachKind⟩ = [0, 0, 0, 1, 0, 2, 1, 2] := rfl
  have hother : ∀ k ∈ Graph.keys ⟨Constraint.oneOfEachKind⟩, k ≠ 9 := by
    rw [hkeys]
    simp
  have hspares : ∀ o ∈ elsewhere, ∀ k ∈ Graph.keys ⟨Constraint.oneOfEachKind⟩, o.Spares k := by
    rw [← List.forall_iff_forall_mem]
    refine ⟨fun k hk => ⟨if_neg (hother k hk), rfl⟩, fun k hk => ⟨if_neg (hother k hk), rfl⟩,
      fun k hk => ⟨rfl, ?_⟩, fun k hk => ⟨if_neg (hother k hk), rfl⟩⟩
    exact KeyMap.lookup_cons_ne (hother k hk) _ []
  obtain ⟨hlinearize, hreport, herrors⟩ := hgraph ⟨Constraint.oneOfEachKind⟩
    Constraint.isBuiltIn_of_oneOfEachKind Constraint.oneOfEachKindPoint elsewhere hspares
  refine ⟨hlinearize, hreport _ _, _, rfl, herrors _ rfl _ _ ?_⟩
  rw [hkeys, VectorMap.AgreeOn, ← List.forall_iff_forall_mem]
  exact ⟨rfl, rfl, rfl, rfl, rfl, rfl, rfl, rfl⟩

end Graph

end SqpInequality

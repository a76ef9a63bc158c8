import SqpInequality.Proofs.Constraint.BuiltIn
import SqpInequality.Proofs.Graph.Linearize
import SqpInequality.Proofs.Linear.Assembly

/-!
# Proofs/Graph/Export — the rows of a graph can be stacked wherever they are asked for

    constraints ──linearize at p──▸ rows whose blocks are as wide as the variables of p
                                                   │ dimensions stay along a run of operations
    matrix ◂──stack over the columns of q──        ▾
                                    a point q that p leads to

Rows of the library's constraints fit the columns of the point that they are taken at
(`Graph.fits_of_linearize`), and so they fit those of any later one.
-/

namespace SqpInequality

/-! ## The rows of a graph -/

namespace Graph

section Export

variable {α : Type} [Scalar α]

/-- **The rows of a graph of the library's constraints fit the point that they are taken at.** -/
theorem fits_of_linearize {g : Graph α} {p : Point α} {s : LinearSystem α}
    (hkind : ∀ c ∈ g.constraints, c.isBuiltIn = true) (hlinear : (g.linearize p).outcome = .ok s) :
    ∀ r ∈ s.rows, r.model.Fits p := by
  intro r hr
  obtain ⟨c, hc, hlinearizes, -⟩ :=
    exists_mem_of_forall₂ (outcome_linearize_eq_ok_iff.mp hlinear) hr
  have hmatched := Constraint.matched_of_isBuiltIn (hkind c hc) p
  rw [hlinearizes] at hmatched
  exact hmatched.fits

/-- Rows that fit a point fit the columns of any point that it leads to. -/
theorem fits_ofPoint_of_steps {p q : Point α} {s : LinearSystem α}
    (hfits : ∀ r ∈ s.rows, r.model.Fits p) (hq : Relation.ReflTransGen Point.Step p q) :
    s.Fits (.ofPoint q) := by
  intro r hr t ht
  rw [ColumnLayout.dimension?_ofPoint]
  exact Point.dimension?_of_steps hq (hfits r hr t ht)

/-- **The rows of a graph of the library's constraints are stacked over the columns of the point,
and of any point that it leads to, if the size of the matrix is accepted.**  A refusal is never one
of a missing variable or of a dimension, since each block is as wide as its variable and no
operation changes that. -/
theorem stackWith_ofPoint_of_linearize {ε : Type} [ToString ε] {accepts : Nat → Nat → Prop}
    {assemble : Nat → Nat → List (Triplet α) → Except ε (SparseMatrix α)}
    (hassemble : SparseMatrix.RefusesBySize accepts assemble)
    {g : Graph α} {p : Point α} {s : LinearSystem α}
    (hkind : ∀ c ∈ g.constraints, c.isBuiltIn = true)
    (hlinear : (g.linearize p).outcome = .ok s) :
    (∀ r ∈ s.rows, ∀ t ∈ r.model.terms, ∃ x, p.get? t.1 = some x ∧ t.2.columnCount = x.length) ∧
    ∀ q, Relation.ReflTransGen Point.Step p q →
      (∀ fault, s.stackWith assemble (.ofPoint q) = .error fault →
        fault.kind ≠ .missingVariable ∧ fault.kind ≠ .dimensionMismatch) ∧
      (accepts s.size (ColumnLayout.ofPoint q).total →
        ∃ m, s.stackWith assemble (.ofPoint q) = .ok ⟨m, s.rhs⟩) := by
  have hfits := fits_of_linearize hkind hlinear
  refine ⟨fun r hr t ht => ?_, fun q hq => ?_⟩
  · obtain ⟨x, hx, hlength⟩ := Point.dimension?_eq_some_iff.mp (hfits r hr t ht)
    exact ⟨x, hx, hlength.symm⟩
  · have hlayout := fits_ofPoint_of_steps hfits hq
    refine ⟨fun fault h => ?_, fun haccepts => ?_⟩
    · obtain ⟨e, -, rfl⟩ := (LinearSystem.stackWith_of_fits_eq_error_iff hlayout).mp h
      exact ⟨nofun, nofun⟩
    · obtain ⟨m, hm⟩ := hassemble haccepts fun t ht =>
        LinearSystem.tripletsOver_in_range hlayout ht
      exact ⟨m, LinearSystem.stackWith_of_fits_of_ok hlayout hm⟩

end Export

/-- The rows of one constraint of each kind are stacked after a variable has been added, another one
replaced and a third one moved. -/
theorem stackWith_of_oneOfEachKind :
    ∃ s q₁ q₂ q₃, (Graph.linearize ⟨Constraint.oneOfEachKind⟩
        Constraint.oneOfEachKindPoint).outcome = .ok s ∧
      Constraint.oneOfEachKindPoint.insert 7 [4, 4] = .ok q₁ ∧ q₁.update 1 [6] = .ok q₂ ∧
      q₂.retract (.ofList [(0, [1, 1])]) = .ok q₃ ∧
      ∃ m, s.stackWith SparseMatrix.ofTriplets (.ofPoint q₃) = .ok ⟨m, s.rhs⟩ := by
  obtain ⟨s, q₁, q₂, q₃, hs, hinsert, hupdate, hretract, hsize⟩ : ∃ s q₁ q₂ q₃,
      (Graph.linearize ⟨Constraint.oneOfEachKind⟩ Constraint.oneOfEachKindPoint).outcome = .ok s ∧
      Constraint.oneOfEachKindPoint.insert 7 [4, 4] = .ok q₁ ∧ q₁.update 1 [6] = .ok q₂ ∧
      q₂.retract (.ofList [(0, [1, 1])]) = .ok q₃ ∧
      SparseMatrix.refusal? (ColumnLayout.ofPoint q₃).total = none :=
    ⟨_, _, _, _, rfl, rfl, rfl, rfl, rfl⟩
  have hsteps : Relation.ReflTransGen Point.Step Constraint.oneOfEachKindPoint q₃ :=
    ((Relation.ReflTransGen.single (.insert hinsert)).tail (.update hupdate)).tail
      (.retract hretract)
  obtain ⟨-, hpoints⟩ := stackWith_ofPoint_of_linearize SparseMatrix.refusesBySize_ofTriplets
    Constraint.isBuiltIn_of_oneOfEachKind hs
  exact ⟨s, q₁, q₂, q₃, hs, hinsert, hupdate, hretract, (hpoints q₃ hsteps).2 hsize⟩

end Graph

end SqpInequality

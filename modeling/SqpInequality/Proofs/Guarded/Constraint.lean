import SqpInequality.Proofs.Guarded.Differences
import SqpInequality.Proofs.Guarded.Stacked

/-!
# Proofs/Guarded/Constraint — constraints and points, guarded

Each kind of constraint compares the sizes that it meets at a point before it goes by them: a bound
its index, an affine inequality the lengths of its coefficients, a distance the two points.  With
the models and systems that are made of the answers, no evaluation of the library is ever stopped by
a guard (`Guarded.never_stopped`).
-/

namespace SqpInequality

open Guarded

/-! ## Points -/

namespace Point

variable {α : Type} [Scalar α]

/-- Adds a vector to a variable. -/
def guardedShift (p : Point α) (entry : Key × Vec α) : Guarded α (Point α) :=
  match p.get? entry.1 with
  | none => check (.error (.stepUnassigned entry.1))
  | some x =>
    if x.length = entry.2.length then do
      let sum ← aligned Vec.add x entry.2
      pure ⟨p.values.insert entry.1 sum⟩
    else check (.error (.stepDimension entry.1 x.length entry.2.length))

/-- Moves along a step. -/
def guardedRetract (p : Point α) (step : VectorMap α) : Guarded α (Point α) :=
  step.entries.foldlM guardedShift p

theorem guardedShift_eq (p : Point α) (entry : Key × Vec α) :
    p.guardedShift entry = check (p.shift entry.1 entry.2) := by
  rw [guardedShift, shift]
  cases p.get? entry.1 with
  | none => rfl
  | some x =>
    by_cases hx : x.length = entry.2.length
    · simp only [if_pos hx, aligned_of_length _ hx, ok_bind, pure_eq_ok, check_ok]
    · simp only [if_neg hx]

theorem foldlM_guardedShift : ∀ (entries : List (Key × Vec α)) (p : Point α),
    entries.foldlM guardedShift p = check (p.shiftAll entries)
  | [], _ => rfl
  | entry :: rest, p => by
    rw [List.foldlM_cons, guardedShift_eq, shiftAll, check_bind]
    exact congrArg _ (funext (foldlM_guardedShift rest))

theorem guardedRetract_eq (p : Point α) (step : VectorMap α) :
    p.guardedRetract step = check (p.retract step) := foldlM_guardedShift step.entries p

end Point

/-! ## Bounds -/

namespace Bound

variable {α : Type}

/-- The component's value, and the dimension of its variable. -/
def guardedComponent (b : Bound α) (p : Point α) : Guarded α (α × Nat) := do
  let v ← check (p.value b.key)
  if v.length ≤ b.index then check (.error (.boundComponent b.index b.key v.length))
  else do
    let x ← read v b.index
    pure (x, v.length)

theorem guardedComponent_eq (b : Bound α) (p : Point α) :
    b.guardedComponent p = check (b.component p) := by
  rw [guardedComponent, component, check_bind]
  refine congrArg _ (funext fun v => ?_)
  by_cases hlength : v.length ≤ b.index
  · rw [if_pos hlength, List.getElem?_eq_none hlength]
  · have hx : v[b.index]? = some v[b.index] := List.getElem?_eq_getElem (Nat.lt_of_not_le hlength)
    rw [if_neg hlength, read_of_get? hx, hx]
    rfl

variable [Scalar α]

/-- The row of zeros with one entry written to it. -/
def guardedUnitRow (dimension index : Nat) (s : α) : Guarded α (Block α) :=
  assignEntry (Block.zero 1 dimension) 0 index s

/-- The residual at a point. -/
def guardedResidual (b : Bound α) (p : Point α) : Guarded α (Vec α) := do
  let c ← b.guardedComponent p
  pure [b.side.excess b.limit c.1]

/-- The first-order model at a point. -/
def guardedLinearize (b : Bound α) (p : Point α) : Guarded α (LinearModel α) := do
  let c ← b.guardedComponent p
  let row ← guardedUnitRow c.2 b.index b.side.slope
  check (LinearModel.new [(b.key, row)] [b.side.slack b.limit c.1])

theorem guardedUnitRow_eq {dimension index : Nat} (h : index < dimension) (s : α) :
    guardedUnitRow dimension index s = .ok (Block.ofRow (Vec.unit dimension index s)) := by
  rw [guardedUnitRow, Block.zero_one, assignEntry_ofRow (by rwa [Vec.length_zero]), Vec.unit]

theorem guardedResidual_eq (b : Bound α) (p : Point α) :
    b.guardedResidual p = check (b.residual p) :=
  bind_pure_of_eq_check (b.guardedComponent_eq p) fun c => [b.side.excess b.limit c.1]

theorem guardedLinearize_eq (b : Bound α) (p : Point α) :
    b.guardedLinearize p = check (b.linearize p) := by
  rw [guardedLinearize, guardedComponent_eq, linearize, check_bind]
  cases hc : b.component p with
  | error fault => rfl
  | ok c =>
    obtain ⟨x, n⟩ := c
    obtain ⟨v, -, hx, rfl⟩ := component_eq_ok_iff.mp hc
    have hindex : b.index < v.length := (List.getElem?_eq_some_iff.mp hx).1
    simp only [check_ok, ok_bind, guardedUnitRow_eq hindex]

end Bound

/-! ## Affine inequalities -/

namespace Affine

variable {α : Type} [Scalar α]

/-- Adds one term's product with its variable. -/
def guardedAddTerm (total : α) (term : (Key × Vec α) × Vec α) : Guarded α α :=
  if term.1.2.length = term.2.length then do
    let share ← aligned Vec.dot term.1.2 term.2
    pure (total + share)
  else check (.error (.coefficientLength term.1.1 term.1.2.length term.2.length))

/-- The weighted sum less the offset. -/
def guardedExcess (a : Affine α) (p : Point α) : Guarded α α := do
  let xs ← check (p.gather a.keys)
  (a.terms.zip xs).foldlM guardedAddTerm (-a.offset)

/-- The residual at a point. -/
def guardedResidual (a : Affine α) (p : Point α) : Guarded α (Vec α) := do
  let e ← a.guardedExcess p
  pure [e]

/-- A coefficient vector as a row. -/
def guardedTerm (t : Key × Vec α) : Guarded α (Key × Block α) := do
  let row ← rowBlock t.2.length t.2
  pure (t.1, row)

/-- The first-order model at a point. -/
def guardedLinearize (a : Affine α) (p : Point α) : Guarded α (LinearModel α) := do
  let e ← a.guardedExcess p
  let terms ← a.terms.mapM guardedTerm
  check (LinearModel.new terms [-e])

theorem guardedAddTerm_eq (total : α) (term : (Key × Vec α) × Vec α) :
    guardedAddTerm total term = check (addTerm total term) := by
  rw [guardedAddTerm, addTerm]
  by_cases h : term.1.2.length = term.2.length
  · rw [if_pos h, if_pos h, aligned_of_length _ h]
    rfl
  · rw [if_neg h, if_neg h]

theorem guardedExcess_eq (a : Affine α) (p : Point α) :
    a.guardedExcess p = check (a.excess p) := by
  rw [guardedExcess, excess, check_bind]
  refine congrArg _ (funext fun xs => ?_)
  exact foldlM_check (P := fun _ => True) (fun t _ total _ => guardedAddTerm_eq total t)
    (fun _ _ _ _ _ _ => trivial) trivial

theorem guardedResidual_eq (a : Affine α) (p : Point α) :
    a.guardedResidual p = check (a.residual p) :=
  bind_pure_of_eq_check (a.guardedExcess_eq p) fun e => [e]

theorem guardedLinearize_eq (a : Affine α) (p : Point α) :
    a.guardedLinearize p = check (a.linearize p) := by
  have hterms : a.terms.mapM guardedTerm
      = (.ok (a.terms.map fun t => (t.1, Block.ofRow t.2)) : Guarded α _) := by
    refine (mapM_congr fun t _ => ?_).trans List.mapM_pure
    rw [guardedTerm, rowBlock_length, ok_bind]
  rw [guardedLinearize, guardedExcess_eq, linearize, check_bind, hterms]
  rfl

end Affine

/-! ## Distances -/

namespace MaxDistance

variable {α : Type} [Scalar α]

/-- The vector from the second point to the first. -/
def guardedDifference (c : MaxDistance α) (p : Point α) : Guarded α (Vec α) := do
  let points ← check (p.gather c.keys)
  let x ← read points 0
  let y ← read points 1
  if x.length = y.length then aligned Vec.sub x y
  else check (.error (.pointDimensions c.first x.length c.second y.length))

/-- The residual at a point. -/
def guardedResidual (c : MaxDistance α) (p : Point α) : Guarded α (Vec α) := do
  let d ← c.guardedDifference p
  pure [Vec.norm d - c.limit]

/-- The first-order model at a point. -/
def guardedLinearize (c : MaxDistance α) (p : Point α) : Guarded α (LinearModel α) := do
  let d ← c.guardedDifference p
  let row ← rowBlock (direction d).length (direction d)
  check (LinearModel.new [(c.first, row), (c.second, Block.ofRow (Vec.neg (direction d)))]
    [c.limit - Vec.norm d])

theorem guardedDifference_eq (c : MaxDistance α) (p : Point α) :
    c.guardedDifference p = check (c.difference p) := by
  rw [guardedDifference, difference, Point.gather, keys, List.mapM_cons, List.mapM_cons,
    List.mapM_nil]
  cases p.value c.first with
  | error fault => rfl
  | ok x =>
    cases p.value c.second with
    | error fault => rfl
    | ok y =>
      change (if x.length = y.length then aligned Vec.sub x y else _)
        = check (if x.length = y.length then _ else _)
      by_cases h : x.length = y.length
      · rw [if_pos h, if_pos h, aligned_of_length _ h]
        rfl
      · rw [if_neg h, if_neg h]

theorem guardedResidual_eq (c : MaxDistance α) (p : Point α) :
    c.guardedResidual p = check (c.residual p) :=
  bind_pure_of_eq_check (c.guardedDifference_eq p) fun d => [Vec.norm d - c.limit]

theorem guardedLinearize_eq (c : MaxDistance α) (p : Point α) :
    c.guardedLinearize p = check (c.linearize p) := by
  simp only [guardedLinearize, rowBlock_length, ok_bind]
  rw [guardedDifference_eq, linearize, check_bind]

end MaxDistance

/-! ## All kinds -/

namespace Constraint

variable {α : Type} [Scalar α]

/-- The residual at a point. -/
def guardedResidual (c : Constraint α) (p : Point α) : Guarded α (Vec α) :=
  match c with
  | bound c => c.guardedResidual p
  | affine c => c.guardedResidual p
  | distance c => c.guardedResidual p
  | numerical c => c.guardedResidual p
  | custom c => plain (c.residual p)

/-- The first-order model at a point. -/
def guardedLinearize (c : Constraint α) (p : Point α) : Guarded α (LinearModel α) :=
  match c with
  | bound c => c.guardedLinearize p
  | affine c => c.guardedLinearize p
  | distance c => c.guardedLinearize p
  | numerical c => c.guardedLinearize p
  | custom c => plain (c.linearize p)

/-- The scalar residual at a point: the first entry of a residual that has one. -/
def guardedScalarError (c : Constraint α) (p : Point α) : Guarded α α := do
  let e ← c.guardedResidual p
  if e.length ≠ 1 then check (.error (.residualNotScalar c.dualKey e.length))
  else read e 0

theorem guardedResidual_eq (c : Constraint α) (p : Point α) :
    c.guardedResidual p = plain (c.residual p) := by
  cases c with
  | bound b => exact b.guardedResidual_eq p
  | affine a => exact a.guardedResidual_eq p
  | distance d => exact d.guardedResidual_eq p
  | numerical n => exact n.guardedResidual_eq p
  | custom _ => rfl

theorem guardedLinearize_eq (c : Constraint α) (p : Point α) :
    c.guardedLinearize p = plain (c.linearize p) := by
  cases c with
  | bound b => exact b.guardedLinearize_eq p
  | affine a => exact a.guardedLinearize_eq p
  | distance d => exact d.guardedLinearize_eq p
  | numerical n => exact n.guardedLinearize_eq p
  | custom _ => rfl

theorem guardedScalarError_eq (c : Constraint α) (p : Point α) :
    c.guardedScalarError p = plain (c.scalarError p) := by
  rw [guardedScalarError, guardedResidual_eq, scalarError]
  cases c.residual p with
  | error failure => rfl
  | ok e =>
    -- no entry, one, or more
    rcases e with - | ⟨a, - | ⟨b, rest⟩⟩
    all_goals rfl

end Constraint

/-! ## All evaluations -/

namespace Guarded

/-- **No guard ever stops an evaluation of the library**, whatever its input, as long as column
numbers fit 64 bits: each gives the value or the refusal that it gives without guards, and a user's
constraint its own failure. -/
theorem never_stopped {α ε : Type} [Scalar α] [ToString ε] {layout : ColumnLayout}
    (hlayout : layout.total < UInt64.size)
    (assemble : Nat → Nat → List (Triplet α) → Except ε (SparseMatrix α))
    (terms : List (Key × Block α)) (rhs : Vec α) (m : LinearModel α) (r : LinearRow α)
    (s : LinearSystem α) (k : Key) (step : VectorMap α) (tolerance : α) (keys : List Key)
    (function : List (Vec α) → α) (c : Constraint α) (p : Point α) :
    (terms.foldlM (LinearModel.store rhs.length) ([], [])
        = (LinearModel.new terms rhs).map (fun m => (m.keys, m.blocks)) ∧
      m.guardedBlock k = .ok (m.block? k) ∧
      m.guardedError step = check (m.error step)) ∧
    (r.guardedRhs = .ok r.rhs ∧
      r.guardedError step = check (r.error step) ∧
      r.guardedIsSatisfied step tolerance = check (r.isSatisfied step tolerance)) ∧
    (s.guardedErrors step = check (s.errors step) ∧
      s.guardedStackWith assemble layout = check (s.stackWith assemble layout)) ∧
    (Numerical.guardedAdmit keys = check ((Numerical.new keys k function).map fun _ => ()) ∧
      c.guardedResidual p = plain (c.residual p) ∧
      c.guardedLinearize p = plain (c.linearize p) ∧
      c.guardedScalarError p = plain (c.scalarError p)) ∧
    p.guardedRetract step = check (p.retract step) :=
  ⟨⟨LinearModel.foldlM_store terms rhs, m.guardedBlock_eq k, m.guardedError_eq step⟩,
    ⟨r.guardedRhs_eq, r.guardedError_eq step, r.guardedIsSatisfied_eq step tolerance⟩,
    ⟨s.guardedErrors_eq step, s.guardedStackWith_eq assemble hlayout⟩,
    ⟨Numerical.guardedAdmit_eq keys k function, c.guardedResidual_eq p, c.guardedLinearize_eq p,
      c.guardedScalarError_eq p⟩,
    p.guardedRetract_eq step⟩

/-- A model without rows, of a variable with two components and one with none. -/
def withoutRows : LinearModel Float :=
  ⟨[(0, ⟨2, [], by decide⟩), (7, ⟨0, [], by decide⟩)], [], by decide, by decide⟩

/-- An inequality that mentions nothing but a variable without components. -/
def withoutColumns : LinearRow Float := ⟨⟨[(7, .ofRow [])], [2], by decide, by decide⟩, 100, rfl⟩

/-- A layout of a variable with two components and one with none. -/
def emptySlot : ColumnLayout := ⟨[(0, 2), (7, 0)], by decide⟩

/-- A bound on a component that its variable does not have at `Constraint.oneOfEachKindPoint`. -/
def beyondDimension : Constraint Float := .bound (.upper 0 2 1 100)

theorem never_stopped_at_the_edges :
    emptySlot.total < UInt64.size ∧
    LinearSystem.guardedStackWith SparseMatrix.ofTriplets ⟨[withoutColumns]⟩ emptySlot
      = .ok ⟨⟨1, 2, []⟩, [2]⟩ ∧
    withoutRows.guardedError (.ofList [(0, [1, 2]), (7, [])]) = .ok [] ∧
    withoutColumns.guardedRhs = .ok 2 ∧
    beyondDimension.guardedLinearize Constraint.oneOfEachKindPoint
      = .error (.failed (.refused (.boundComponent 2 0 2))) := by
  have hlayout : emptySlot.total < UInt64.size := by decide
  obtain ⟨⟨-, -, hmodel⟩, ⟨hrhs, -⟩, ⟨-, hstack⟩, ⟨-, -, hlinearize, -⟩, -⟩ :=
    never_stopped hlayout SparseMatrix.ofTriplets [] [] withoutRows withoutColumns
      ⟨[withoutColumns]⟩ 0 (.ofList [(0, [1, 2]), (7, [])]) 0 [] (fun _ => 0) beyondDimension
      Constraint.oneOfEachKindPoint
  have hmatrix : (SparseMatrix.ofTriplets 1 2 [] : Except _ (SparseMatrix Float))
      = .ok ⟨1, 2, []⟩ := by
    simp only [SparseMatrix.ofTriplets, List.mergeSort_nil]
    rfl
  have hsystem : LinearSystem.stackWith SparseMatrix.ofTriplets ⟨[withoutColumns]⟩ emptySlot
      = ((SparseMatrix.ofTriplets 1 2 []).mapError fun e => .matrixRefused (toString e)).map
        fun matrix => ⟨matrix, [2]⟩ := rfl
  rw [hsystem, hmatrix] at hstack
  exact ⟨hlayout, hstack, hmodel, hrhs, hlinearize⟩

end Guarded

end SqpInequality

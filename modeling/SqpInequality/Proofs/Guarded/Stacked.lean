import SqpInequality.Proofs.Guarded.Linear

/-!
# Proofs/Guarded/Stacked — the export of a system, guarded

The triplets of a system are collected in one list, entry by entry.  The columns of a term are read
as far as the layout reserves them, which is how far they go, and their numbers stay below the total
of the layout: where this fits 64 bits, so do they.
-/

namespace SqpInequality

open Guarded

/-! ## Collecting -/

/-- A loop that puts what it finds behind what was found before. -/
theorem Guarded.foldlM_collect {α β γ : Type} {f : β → Except (Fault α) (List γ)}
    {step : List γ → β → Guarded α (List γ)} : ∀ {xs : List β}
    (_ : ∀ x ∈ xs, ∀ found, step found x = check ((f x).map (found ++ ·))) (found : List γ),
    xs.foldlM step found = check ((xs.mapM f).map fun lists => found ++ lists.flatten)
  | [], _, found => by
    rw [List.foldlM_nil, List.mapM_nil]
    exact congrArg _ (List.append_nil found).symm
  | x :: xs, h, found => by
    obtain ⟨hx, hxs⟩ := List.forall_mem_cons.mp h
    rw [List.foldlM_cons, List.mapM_cons, hx found]
    cases f x with
    | error fault => rfl
    | ok list =>
      refine (foldlM_collect hxs (found ++ list)).trans ?_
      cases xs.mapM f with
      | error fault => rfl
      | ok lists => exact congrArg Except.ok (List.append_assoc found list _)

namespace LinearSystem

variable {α : Type}

/-! ## The right-hand sides -/

/-- The right-hand side of the inequality at an index. -/
def guardedRhsAt (s : LinearSystem α) (i : Nat) : Guarded α α := do
  let r ← read s.rows i
  r.guardedRhs

theorem mapM_guardedRhsAt (s : LinearSystem α) :
    (List.range s.size).mapM s.guardedRhsAt = .ok s.rhs := by
  have hread : ∀ e ∈ s.rows.zipIdx, s.guardedRhsAt e.2 = pure e.1.rhs := fun e he => by
    rw [guardedRhsAt, read_of_get? (List.mk_mem_zipIdx_iff_getElem?.mp he), ok_bind,
      LinearRow.guardedRhs_eq, pure_eq_ok]
  rw [size, List.range_eq_range', ← List.zipIdx_map_snd 0 s.rows, List.mapM_map]
  refine (mapM_congr hread).trans ?_
  rw [mapM_zipIdx fun r : LinearRow α => pure r.rhs, List.mapM_pure, pure_eq_ok, rhs]

variable [Scalar α]

/-! ## The triplets of one term -/

/-- Reads one entry of a block's first row, and collects it unless it is zero. -/
def guardedAddEntry (row offset : Nat) (b : Block α) (found : List (Triplet α)) (j : Nat) :
    Guarded α (List (Triplet α)) := do
  let value ← entry b 0 j
  if value == 0 then pure found
  else do
    let column ← addIndex offset j
    pure (found ++ [⟨row, column, value⟩])

theorem foldlM_guardedAddEntry {row offset : Nat} {b : Block α} {cs : Vec α}
    (hrow : b.rows = [cs]) (hfit : offset + cs.length < UInt64.size) :
    ∀ {j n : Nat} (_ : j + n = cs.length) (found : List (Triplet α)),
      (List.range' j n).foldlM (guardedAddEntry row offset b) found
        = .ok (found ++ coefficientTriplets row (offset + j) (cs.drop j))
  | j, 0, hj, found => by
    rw [List.drop_of_length_le (by omega)]
    exact congrArg Except.ok (List.append_nil found).symm
  | j, n + 1, hj, found => by
    have hlt : j < cs.length := by omega
    have hentry : entry b 0 j = .ok cs[j] :=
      component_of_get? (by rw [hrow, List.getElem?_cons_zero]) (List.getElem?_eq_getElem hlt)
    have hrest : j + 1 + n = cs.length := by omega
    rw [List.range'_succ, List.foldlM_cons, guardedAddEntry, hentry, ok_bind,
      List.drop_eq_getElem_cons hlt, coefficientTriplets_cons, ← List.append_assoc, Nat.add_assoc]
    split
    · rw [pure_eq_ok, ok_bind, List.append_nil]
      exact foldlM_guardedAddEntry hrow hfit hrest found
    · rw [addIndex_of_lt (by omega), ok_bind, pure_eq_ok, ok_bind]
      exact foldlM_guardedAddEntry hrow hfit hrest _

/-- Collects the triplets of one term of an inequality. -/
def guardedAddTerm (layout : ColumnLayout) (row : Nat) (dualKey : Key)
    (found : List (Triplet α)) (term : Key × Block α) : Guarded α (List (Triplet α)) :=
  match layout.column? term.1 with
  | none => check (.error (.notLaidOut dualKey term.1))
  | some (offset, dimension) =>
    if term.2.columnCount = dimension then
      (List.range dimension).foldlM (guardedAddEntry row offset term.2) found
    else check (.error (.reservedColumns dualKey term.2.columnCount term.1 dimension))

theorem guardedAddTerm_eq {layout : ColumnLayout} (hfit : layout.total < UInt64.size) (row : Nat)
    (dualKey : Key) (found : List (Triplet α)) {term : Key × Block α}
    (hsingle : term.2.rowCount = 1) :
    guardedAddTerm layout row dualKey found term
      = check ((termTriplets layout row dualKey term).map (found ++ ·)) := by
  rw [guardedAddTerm, termTriplets]
  cases hcolumn : layout.column? term.1 with
  | none => rfl
  | some slot =>
    obtain ⟨offset, dimension⟩ := slot
    by_cases hd : term.2.columnCount = dimension
    · have hlength : term.2.row.length = dimension := (Block.length_row hsingle).trans hd
      have hend := ColumnLayout.column?_bounds hcolumn
      have hcolumns : offset + term.2.row.length < UInt64.size := by omega
      have hdimension : 0 + dimension = term.2.row.length := by omega
      simp only [if_pos hd]
      rw [List.range_eq_range', foldlM_guardedAddEntry (Block.rows_eq hsingle) hcolumns hdimension]
      rfl
    · simp only [if_neg hd]
      rfl

/-! ## The triplets of all inequalities -/

/-- Collects the triplets of one inequality, term by term. -/
def guardedAddRow (layout : ColumnLayout) (found : List (Triplet α)) (row : LinearRow α × Nat) :
    Guarded α (List (Triplet α)) :=
  row.1.model.stored.foldlM (guardedAddTerm layout row.2 row.1.dualKey) found

/-- Collects the triplets of all inequalities, row by row. -/
def guardedTriplets (s : LinearSystem α) (layout : ColumnLayout) :
    Guarded α (List (Triplet α)) :=
  s.rows.zipIdx.foldlM (guardedAddRow layout) []

theorem guardedAddRow_eq {layout : ColumnLayout} (hfit : layout.total < UInt64.size)
    (found : List (Triplet α)) (row : LinearRow α × Nat) :
    guardedAddRow layout found row
      = check ((rowTriplets layout row.1 row.2).map (found ++ ·)) := by
  have hterm : ∀ t ∈ row.1.model.terms, ∀ found, guardedAddTerm layout row.2 row.1.dualKey found t
      = check ((termTriplets layout row.2 row.1.dualKey t).map (found ++ ·)) :=
    fun t ht found => guardedAddTerm_eq hfit row.2 row.1.dualKey found (row.1.rowCount_eq_one ht)
  rw [guardedAddRow, LinearModel.stored_eq, foldlM_collect hterm, rowTriplets]
  cases row.1.model.terms.mapM (termTriplets layout row.2 row.1.dualKey) <;> rfl

theorem guardedTriplets_eq (s : LinearSystem α) {layout : ColumnLayout}
    (hfit : layout.total < UInt64.size) : s.guardedTriplets layout = check (s.triplets layout) :=
  foldlM_collect (fun row _ found => guardedAddRow_eq hfit found row) []

/-! ## The stacked system -/

/-- All inequalities over the columns of a layout, in a matrix that is assembled in the given
way. -/
def guardedStackWith {ε : Type} [ToString ε]
    (assemble : Nat → Nat → List (Triplet α) → Except ε (SparseMatrix α))
    (s : LinearSystem α) (layout : ColumnLayout) : Guarded α (StackedSystem α) := do
  let triplets ← s.guardedTriplets layout
  let matrix ← check ((assemble s.size layout.total triplets).mapError fun e =>
    .matrixRefused (toString e))
  let rhs ← (List.range s.size).mapM s.guardedRhsAt
  pure ⟨matrix, rhs⟩

theorem guardedStackWith_eq {ε : Type} [ToString ε]
    (assemble : Nat → Nat → List (Triplet α) → Except ε (SparseMatrix α))
    (s : LinearSystem α) {layout : ColumnLayout} (hfit : layout.total < UInt64.size) :
    s.guardedStackWith assemble layout = check (s.stackWith assemble layout) := by
  simp only [guardedStackWith, guardedTriplets_eq s hfit, mapM_guardedRhsAt, ok_bind]
  rw [stackWith, check_bind]
  refine congrArg _ (funext fun triplets => ?_)
  exact bind_pure_of_eq_check rfl fun matrix => StackedSystem.mk matrix s.rhs

end LinearSystem

end SqpInequality

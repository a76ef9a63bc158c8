import SqpInequality.Proofs.Guarded
import SqpInequality.Proofs.Linear.Triplets

/-!
# Proofs/Guarded/Linear — linear models and systems, guarded

A model is stored as two lists, and its blocks are as high as its right-hand side: so the index of a
key is one of a block, and the share of every term has the length of the sum that it is added to.
A row has one entry in its right-hand side, and in its error.  A system reads the blocks of its rows
up to the number of columns that a layout reserves, once this is the number that they have.
-/

namespace SqpInequality

open Guarded

/-! ## Models -/

namespace LinearModel

variable {α : Type}

/-- Checks a term, and puts its key and its block behind those that are stored. -/
def store (rows : Nat) (stored : List Key × List (Block α)) (term : Key × Block α) :
    Except (Fault α) (List Key × List (Block α)) :=
  if term.2.rowCount ≠ rows then .error (.blockRows term.1 term.2.rowCount rows)
  else if term.1 ∈ stored.1 then .error (.blockRepeated term.1)
  else .ok (stored.1 ++ [term.1], stored.2 ++ [term.2])

theorem foldlM_store_of_firstDefect? {rows : Nat} : ∀ {terms : List (Key × Block α)}
    {seen keys : List Key} (blocks : List (Block α)), (∀ k, k ∈ seen ↔ k ∈ keys) →
      terms.foldlM (store rows) (keys, blocks)
        = match firstDefect? rows seen terms with
          | some defect => .error defect
          | none => .ok (keys ++ terms.map Prod.fst, blocks ++ terms.map Prod.snd)
  | [], _, _, _, _ => by
    simp only [List.foldlM_nil, firstDefect?, List.map_nil, List.append_nil]
    rfl
  | (k, b) :: rest, seen, keys, blocks, hseen => by
    rw [List.foldlM_cons, store, firstDefect?]
    by_cases hrows : b.rowCount ≠ rows
    · rw [if_pos hrows, if_pos hrows]
      rfl
    · rw [if_neg hrows, if_neg hrows]
      by_cases hk : k ∈ seen
      · rw [if_pos hk, if_pos ((hseen k).mp hk)]
        rfl
      · have hnext := mem_cons_iff_mem_concat hseen k
        rw [if_neg hk, if_neg (mt (hseen k).mpr hk)]
        refine (foldlM_store_of_firstDefect? (blocks ++ [b]) hnext).trans ?_
        simp only [List.map_cons, List.append_assoc, List.singleton_append]

/-- **Keys and blocks are stored in step**, one of each for each term. -/
theorem foldlM_store (terms : List (Key × Block α)) (rhs : Vec α) :
    terms.foldlM (store rhs.length) ([], []) = (new terms rhs).map fun m => (m.keys, m.blocks) := by
  refine (foldlM_store_of_firstDefect? [] fun _ => Iff.rfl).trans (Eq.symm ?_)
  rw [new]
  split
  · rename_i defect hdefect
    rw [hdefect]
    rfl
  · rename_i hnone
    conv_rhs => rw [hnone]
    rfl

/-- The block of a key: the key's index among the keys is the block's among the blocks. -/
def guardedBlock (m : LinearModel α) (k : Key) : Guarded α (Option (Block α)) :=
  match m.keys.idxOf? k with
  | none => pure none
  | some i => do
    let b ← read m.blocks i
    pure (some b)

theorem guardedBlock_eq (m : LinearModel α) (k : Key) :
    m.guardedBlock k = .ok (m.block? k) := by
  rw [guardedBlock]
  cases hi : m.keys.idxOf? k with
  | none =>
    have hnot : m.block? k = none := by
      by_contra hsome
      obtain ⟨b, hb⟩ := Option.ne_none_iff_exists'.mp hsome
      exact List.idxOf?_eq_none_iff.mp hi (List.mem_map_of_mem (block?_eq_some_iff.mp hb))
    rw [hnot]
    rfl
  | some i =>
    obtain ⟨hlt, hk, -⟩ := List.idxOf?_eq_some_iff.mp hi
    have hlt : i < m.terms.length := (List.length_map Prod.fst) ▸ hlt
    have hk : m.terms[i].1 = k := (List.getElem_map Prod.fst).symm.trans hk
    have hblock : m.blocks[i]? = some m.terms[i].2 := by
      rw [blocks, List.getElem?_map, List.getElem?_eq_getElem hlt]
      rfl
    have hfound : m.block? k = some m.terms[i].2 :=
      block?_eq_some_iff.mpr (hk ▸ List.getElem_mem hlt)
    simp only [read_of_get? hblock, ok_bind, pure_eq_ok, hfound]

/-- The keys with their blocks, as they are stored. -/
def stored (m : LinearModel α) : List (Key × Block α) := m.keys.zip m.blocks

theorem stored_eq (m : LinearModel α) : m.stored = m.terms := (List.zip_of_prod rfl rfl).symm

variable [Scalar α]

/-- Adds one term's share along a step. -/
def guardedAddTerm (step : VectorMap α) (total : Vec α) (term : Key × Block α) :
    Guarded α (Vec α) :=
  match step.get? term.1 with
  | none => check (.error (.stepMissing term.1))
  | some v =>
    if v.length = term.2.columnCount then do
      let share ← product term.2 v
      aligned Vec.add total share
    else check (.error (.blockColumns term.1 term.2.columnCount v.length))

/-- The modelled residual along a step. -/
def guardedError (m : LinearModel α) (step : VectorMap α) : Guarded α (Vec α) :=
  m.stored.foldlM (guardedAddTerm step) (Vec.neg m.rhs)

theorem guardedAddTerm_eq (step : VectorMap α) {total : Vec α} {term : Key × Block α}
    (h : total.length = term.2.rowCount) :
    guardedAddTerm step total term = check (addTerm step total term) := by
  rw [guardedAddTerm, addTerm]
  cases step.get? term.1 with
  | none => rfl
  | some v =>
    by_cases hv : v.length = term.2.columnCount
    · have hshare : total.length = (term.2.apply v).length := h.trans (Block.length_apply _ _).symm
      simp only [if_pos hv, product_of_length hv.symm, ok_bind, aligned_of_length _ hshare,
        check_ok]
    · simp only [if_neg hv]

/-- Adding a share keeps the length, since blocks are as high as the right-hand side. -/
theorem length_kept (m : LinearModel α) (step : VectorMap α) : ∀ t ∈ m.terms,
    ∀ total next : Vec α, total.length = m.rhs.length → addTerm step total t = .ok next →
      next.length = m.rhs.length := by
  intro t ht total next htotal h
  rw [addTerm] at h
  split at h
  · contradiction
  · split at h
    · obtain rfl := Except.ok.inj h
      rw [Vec.length_add, Block.length_apply, m.matched t ht, htotal, Nat.min_self]
    · contradiction

theorem guardedError_eq (m : LinearModel α) (step : VectorMap α) :
    m.guardedError step = check (m.error step) := by
  rw [guardedError, stored_eq, error]
  exact foldlM_check (fun t ht total h => guardedAddTerm_eq step (h.trans (m.matched t ht).symm))
    (m.length_kept step) (Vec.length_neg _)

/-- The error of a model has as many entries as the model has rows. -/
theorem length_of_error {m : LinearModel α} {step : VectorMap α} {e : Vec α}
    (h : m.error step = .ok e) : e.length = m.rowCount :=
  foldlM_keeps (m.length_kept step) (Vec.length_neg _) h

end LinearModel

/-! ## Rows -/

namespace LinearRow

variable {α : Type}

/-- The scalar right-hand side: the first entry of the model's. -/
def guardedRhs (r : LinearRow α) : Guarded α α := read r.model.rhs 0

theorem guardedRhs_eq (r : LinearRow α) : r.guardedRhs = .ok r.rhs :=
  read_of_get? (by rw [rhs_eq, List.getElem?_cons_zero])

variable [Scalar α]

/-- The left side less the right side along a step: the first entry of the model's error. -/
def guardedError (r : LinearRow α) (step : VectorMap α) : Guarded α α := do
  let e ← r.model.guardedError step
  read e 0

/-- Whether the inequality holds along a step, up to a tolerance. -/
def guardedIsSatisfied (r : LinearRow α) (step : VectorMap α) (tolerance : α) :
    Guarded α Bool := do
  let e ← r.guardedError step
  pure (decide (e ≤ tolerance))

theorem guardedError_eq (r : LinearRow α) (step : VectorMap α) :
    r.guardedError step = check (r.error step) := by
  rw [guardedError, LinearModel.guardedError_eq, error]
  cases h : r.model.error step with
  | error fault => rfl
  | ok e =>
    obtain ⟨a, rfl⟩ := List.length_eq_one_iff.mp ((LinearModel.length_of_error h).trans r.single)
    rfl

theorem guardedIsSatisfied_eq (r : LinearRow α) (step : VectorMap α) (tolerance : α) :
    r.guardedIsSatisfied step tolerance = check (r.isSatisfied step tolerance) :=
  bind_pure_of_eq_check (r.guardedError_eq step) fun e => decide (e ≤ tolerance)

end LinearRow

/-! ## Systems -/

namespace LinearSystem

variable {α : Type} [Scalar α]

/-- Puts the error of a row at the row's index. -/
def guardedAddError (step : VectorMap α) (errors : Vec α) (row : LinearRow α × Nat) :
    Guarded α (Vec α) := do
  let e ← row.1.guardedError step
  write errors row.2 e

/-- The error of each inequality along a step. -/
def guardedErrors (s : LinearSystem α) (step : VectorMap α) : Guarded α (Vec α) :=
  s.rows.zipIdx.foldlM (guardedAddError step) (Vec.zero s.size)

theorem guardedErrors_eq (s : LinearSystem α) (step : VectorMap α) :
    s.guardedErrors step = check (s.errors step) := by
  have hstep : ∀ row ∈ s.rows.zipIdx, ∀ errors : Vec α, row.2 < errors.length →
      guardedAddError step errors row
        = row.1.guardedError step >>= fun e => .ok (errors.set row.2 e) :=
    fun row _ errors hlt => congrArg _ (funext fun e => write_of_lt hlt e)
  have hvalues : s.rows.mapM (fun r => r.guardedError step) = check (s.errors step) :=
    mapM_check fun r _ => r.guardedError_eq step
  refine (foldlM_fill id 0 hstep).trans ?_
  rw [mapM_zipIdx fun r : LinearRow α => r.guardedError step, hvalues]
  exact bind_pure _

end LinearSystem

end SqpInequality

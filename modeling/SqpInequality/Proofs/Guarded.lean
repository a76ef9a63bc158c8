import SqpInequality.Constraint.Differences
import SqpInequality.Linear.Block
import SqpInequality.Proofs.Outcome

/-!
# Proofs/Guarded — evaluations that take nothing for granted

An evaluator reads and writes at indices, and adds and multiplies vectors, without asking again
whether the index is in range and the sizes agree: an earlier check or the data says so.  A guarded
evaluation asks each time, and stops where the answer is no.  A plain evaluation stops for its own
failures only (`Guarded.eq_failed_of_plain`); so a guarded one that equals it passes all its guards.
-/

namespace SqpInequality

/-- Why a guarded evaluation ends without a value. -/
inductive Stop (α : Type) where
  /-- The evaluation fails, guarded or not. -/
  | failed (failure : Failure α)
  /-- An index is not below the size of what is accessed. -/
  | outOfRange (index size : Nat)
  /-- Two sizes differ that have to agree. -/
  | unequal (left right : Nat)
  /-- A number does not fit 64 bits. -/
  | tooLarge (number : Nat)

/-- An evaluation that asks before each access and each operation on shapes. -/
abbrev Guarded (α β : Type) := Except (Stop α) β

namespace Guarded

variable {α β γ : Type}

/-! ## Evaluations that no guard stops -/

/-- A plain evaluation, as a guarded one that meets no guard. -/
def plain (x : Except (Failure α) β) : Guarded α β := x.mapError .failed

/-- A plain evaluation that may be refused, as a guarded one that meets no guard. -/
def check (x : Except (Fault α) β) : Guarded α β := plain (x.mapError .refused)

/-- **A plain evaluation is stopped by its own failure only.** -/
theorem eq_failed_of_plain {x : Except (Failure α) β} {stop : Stop α}
    (h : plain x = .error stop) : ∃ failure, x = .error failure ∧ stop = .failed failure := by
  cases x with
  | ok b => contradiction
  | error failure => exact ⟨failure, rfl, (Except.error.inj h).symm⟩

@[simp] theorem ok_bind (b : β) (f : β → Guarded α γ) : (.ok b >>= f : Guarded α γ) = f b := rfl

@[simp] theorem pure_eq_ok (b : β) : (pure b : Guarded α β) = .ok b := rfl

@[simp] theorem check_ok (b : β) : check (.ok b : Except (Fault α) β) = .ok b := rfl

theorem check_bind (x : Except (Fault α) β) (f : β → Except (Fault α) γ) :
    check (x.bind f) = check x >>= fun b => check (f b) := by
  cases x <;> rfl

/-- A value read off a guarded evaluation that equals a plain one. -/
theorem bind_pure_of_eq_check {x : Guarded α β} {y : Except (Fault α) β} (h : x = check y)
    (f : β → γ) : (x >>= fun b => pure (f b)) = check (y.map f) := by
  subst h
  cases y <;> rfl

/-! ## Loops -/

/-- Guarded steps that equal plain ones do so from the first to the last. -/
theorem mapM_check {f : β → Except (Fault α) γ} {g : β → Guarded α γ} : ∀ {xs : List β}
    (_ : ∀ x ∈ xs, g x = check (f x)), xs.mapM g = check (xs.mapM f)
  | [], _ => rfl
  | x :: xs, h => by
    obtain ⟨hx, hxs⟩ := List.forall_mem_cons.mp h
    rw [List.mapM_cons, List.mapM_cons, hx, mapM_check hxs]
    cases f x with
    | error fault => rfl
    | ok y => cases xs.mapM f <;> rfl

/-- Steps that leave the index aside are steps over the members. -/
theorem mapM_zipIdx (f : β → Guarded α γ) (xs : List β) (n : Nat) :
    (xs.zipIdx n).mapM (fun e => f e.1) = xs.mapM f := by
  conv_rhs => rw [← List.zipIdx_map_fst n xs, List.mapM_map]
  rfl

/-- A key that is put before those that were seen is put behind those that are stored. -/
theorem mem_cons_iff_mem_concat {seen stored : List Key} (h : ∀ j, j ∈ seen ↔ j ∈ stored)
    (k j : Key) : j ∈ k :: seen ↔ j ∈ stored ++ [k] := by
  rw [List.mem_cons, List.mem_append, List.mem_singleton, h j, or_comm]

/-- Guarded steps may rely on what the steps before them preserve. -/
theorem foldlM_check {P : γ → Prop} {f : γ → β → Except (Fault α) γ} {g : γ → β → Guarded α γ} :
    ∀ {xs : List β} (_ : ∀ x ∈ xs, ∀ total, P total → g total x = check (f total x))
      (_ : ∀ x ∈ xs, ∀ total next, P total → f total x = .ok next → P next) {total : γ},
      P total → xs.foldlM g total = check (xs.foldlM f total)
  | [], _, _, _, _ => rfl
  | x :: xs, hstep, hkeep, total, htotal => by
    obtain ⟨hx, hxs⟩ := List.forall_mem_cons.mp hstep
    obtain ⟨hkx, hkxs⟩ := List.forall_mem_cons.mp hkeep
    rw [List.foldlM_cons, List.foldlM_cons, hx total htotal]
    cases hf : f total x with
    | error fault => rfl
    | ok next => exact foldlM_check hxs hkxs (hkx total next htotal hf)

/-! ## Guards -/

/-- Stops unless a condition holds. -/
def demand (c : Prop) [Decidable c] (stop : Stop α) : Guarded α Unit :=
  if c then .ok () else .error stop

/-- The entry at an index. -/
def read (xs : List β) (i : Nat) : Guarded α β :=
  match xs[i]? with
  | some x => .ok x
  | none => .error (.outOfRange i xs.length)

/-- A list with the entry at an index replaced. -/
def write (xs : List β) (i : Nat) (x : β) : Guarded α (List β) := do
  demand (i < xs.length) (.outOfRange i xs.length)
  pure (xs.set i x)

/-- The first so many entries of a list. -/
def slice (xs : List β) (n : Nat) : Guarded α (List β) := do
  demand (n ≤ xs.length) (.outOfRange n xs.length)
  pure (xs.take n)

/-- An operation on two vectors of one length. -/
def aligned (op : Vec α → Vec α → β) (v w : Vec α) : Guarded α β := do
  demand (v.length = w.length) (.unequal v.length w.length)
  pure (op v w)

/-- The product of a block and a vector. -/
def product [Scalar α] (b : Block α) (v : Vec α) : Guarded α (Vec α) := do
  demand (b.columnCount = v.length) (.unequal b.columnCount v.length)
  pure (b.apply v)

/-- The block of one row, which has to have so many entries. -/
def rowBlock (columns : Nat) (row : Vec α) : Guarded α (Block α) := do
  demand (row.length = columns) (.unequal row.length columns)
  pure (Block.ofRow row)

/-- The sum of two indices. -/
def addIndex (m n : Nat) : Guarded α Nat := do
  demand (m + n < UInt64.size) (.tooLarge (m + n))
  pure (m + n)

theorem demand_bind {c : Prop} [Decidable c] (h : c) (stop : Stop α) (f : Unit → Guarded α β) :
    demand c stop >>= f = f () := by
  rw [demand, if_pos h, ok_bind]

theorem read_of_get? {xs : List β} {i : Nat} {x : β} (h : xs[i]? = some x) :
    (read xs i : Guarded α β) = .ok x := by
  rw [read, h]

theorem write_of_lt {xs : List β} {i : Nat} (h : i < xs.length) (x : β) :
    (write xs i x : Guarded α (List β)) = .ok (xs.set i x) := demand_bind h _ _

theorem slice_of_le {xs : List β} {n : Nat} (h : n ≤ xs.length) :
    (slice xs n : Guarded α (List β)) = .ok (xs.take n) := demand_bind h _ _

theorem aligned_of_length (op : Vec α → Vec α → β) {v w : Vec α} (h : v.length = w.length) :
    aligned op v w = .ok (op v w) := demand_bind h _ _

theorem product_of_length [Scalar α] {b : Block α} {v : Vec α} (h : b.columnCount = v.length) :
    product b v = .ok (b.apply v) := demand_bind h _ _

theorem rowBlock_length (row : Vec α) : rowBlock row.length row = .ok (Block.ofRow row) :=
  demand_bind rfl _ _

theorem addIndex_of_lt {m n : Nat} (h : m + n < UInt64.size) :
    (addIndex m n : Guarded α Nat) = .ok (m + n) := demand_bind h _ _

/-! ## Entries of lists of vectors and of blocks -/

/-- Component `i` of vector `j`. -/
def component (x : List (Vec α)) (j i : Nat) : Guarded α α := do
  let v ← read x j
  read v i

/-- Replaces component `i` of vector `j`. -/
def assign (x : List (Vec α)) (j i : Nat) (t : α) : Guarded α (List (Vec α)) := do
  let v ← read x j
  let v ← write v i t
  write x j v

theorem component_of_get? {x : List (Vec α)} {j i : Nat} {v : Vec α} {t : α}
    (hv : x[j]? = some v) (ht : v[i]? = some t) : component x j i = .ok t := by
  rw [component, read_of_get? hv, ok_bind, read_of_get? ht]

theorem assign_of_get? {x : List (Vec α)} {j i : Nat} {v : Vec α} (hv : x[j]? = some v)
    (hi : i < v.length) (t : α) : assign x j i t = .ok (Differences.replace x j i t) := by
  obtain ⟨hj, rfl⟩ := List.getElem?_eq_some_iff.mp hv
  rw [assign, read_of_get? hv, ok_bind, write_of_lt hi, ok_bind, write_of_lt hj,
    Differences.replace, List.modify_eq_set_get _ hj, List.get_eq_getElem]

end Guarded

namespace Block

variable {α : Type}

/-- The block of zeros. -/
def zero [Scalar α] (rows columns : Nat) : Block α where
  columnCount := columns
  rows := List.replicate rows (Vec.zero columns)
  uniform := fun _ hr => List.eq_of_mem_replicate hr ▸ Vec.length_zero columns

/-- The block with the entry at a row and a column replaced. -/
def put (b : Block α) (i j : Nat) (t : α) : Block α where
  columnCount := b.columnCount
  rows := Differences.replace b.rows i j t
  uniform := by
    rw [Differences.replace, List.forall_mem_iff_getElem]
    intro n hn
    rw [List.length_modify] at hn
    have hrow := b.uniform _ (List.getElem_mem hn)
    rw [List.getElem_modify]
    split
    · rwa [List.length_set]
    · exact hrow

theorem zero_one [Scalar α] (n : Nat) : (zero 1 n : Block α) = ofRow (Vec.zero n) := by
  simp only [zero, ofRow, List.replicate_one, Vec.length_zero]

theorem put_ofRow (row : Vec α) (j : Nat) (t : α) :
    (ofRow row).put 0 j t = ofRow (row.set j t) := by
  simp only [put, ofRow, Differences.replace, List.modify_zero_cons, List.length_set]

end Block

namespace Guarded

variable {α β γ : Type}

/-- The entry of a block at a row and a column. -/
def entry (b : Block α) (i j : Nat) : Guarded α α := component b.rows i j

/-- Replaces the entry of a block at a row and a column. -/
def assignEntry (b : Block α) (i j : Nat) (t : α) : Guarded α (Block α) := do
  demand (i < b.rowCount) (.outOfRange i b.rowCount)
  demand (j < b.columnCount) (.outOfRange j b.columnCount)
  pure (b.put i j t)

theorem assignEntry_ofRow {row : Vec α} {j : Nat} (h : j < row.length) (t : α) :
    assignEntry (Block.ofRow row) 0 j t = .ok (Block.ofRow (row.set j t)) := by
  have hrow : 0 < (Block.ofRow row).rowCount := Nat.one_pos
  have hcolumn : j < (Block.ofRow row).columnCount := h
  rw [assignEntry, demand_bind hrow, demand_bind hcolumn, pure_eq_ok, Block.put_ofRow]

/-- A loop that writes one entry for each member of a list, behind the entries that are done. -/
theorem foldlM_fill_behind {σ : Type} (place : List γ → σ) {step : σ → β × Nat → Guarded α σ}
    {f : β × Nat → Guarded α γ} (z : γ) : ∀ {xs : List β} (done : List γ)
    (_ : ∀ e ∈ xs.zipIdx done.length, ∀ v : List γ, e.2 < v.length →
      step (place v) e = f e >>= fun y => .ok (place (v.set e.2 y))),
    (xs.zipIdx done.length).foldlM step (place (done ++ List.replicate xs.length z))
      = (xs.zipIdx done.length).mapM f >>= fun ys => .ok (place (done ++ ys))
  | [], done, _ => by
    simp only [List.zipIdx_nil, List.foldlM_nil, List.mapM_nil, List.length_nil,
      List.replicate_zero, pure_eq_ok, ok_bind]
  | x :: xs, done, h => by
    rw [List.zipIdx_cons] at h ⊢
    obtain ⟨hx, hxs⟩ := List.forall_mem_cons.mp h
    have hlt : done.length < (done ++ List.replicate (xs.length + 1) z).length := by
      rw [List.length_append, List.length_replicate]
      omega
    rw [List.foldlM_cons, List.mapM_cons, List.length_cons, hx _ hlt, bind_assoc, bind_assoc]
    refine congrArg _ (funext fun y => ?_)
    have hset : (done ++ List.replicate (xs.length + 1) z).set done.length y
        = (done ++ [y]) ++ List.replicate xs.length z := by
      rw [List.set_append_right _ _ (Nat.le_refl _), Nat.sub_self, List.replicate_succ,
        List.set_cons_zero, List.append_assoc, List.singleton_append]
    have hlength : done.length + 1 = (done ++ [y]).length := by
      rw [List.length_append, List.length_singleton]
    rw [hlength] at hxs
    rw [ok_bind, hset, bind_assoc, hlength, foldlM_fill_behind place z _ hxs]
    simp only [pure_eq_ok, ok_bind, List.append_assoc, List.singleton_append]

/-- **A loop that writes one entry for each member of a list**, at the member's index, leaves none
of the values that it starts from. -/
theorem foldlM_fill {σ : Type} (place : List γ → σ) {step : σ → β × Nat → Guarded α σ}
    {f : β × Nat → Guarded α γ} (z : γ) {xs : List β}
    (h : ∀ e ∈ xs.zipIdx, ∀ v : List γ, e.2 < v.length →
      step (place v) e = f e >>= fun y => .ok (place (v.set e.2 y))) :
    xs.zipIdx.foldlM step (place (List.replicate xs.length z))
      = xs.zipIdx.mapM f >>= fun ys => .ok (place ys) :=
  foldlM_fill_behind place z [] h

end Guarded

end SqpInequality

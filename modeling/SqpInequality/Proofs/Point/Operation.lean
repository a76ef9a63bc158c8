import SqpInequality.Proofs.Point.Dimension

/-!
# Proofs/Point/Operation — runs of operations on a point

A run carries out one operation after the other, in place; one that is refused leaves the point as
it was (`Point.after_of_error`).  An accepted operation writes or shifts the variables that it names
and spares the others (`Point.get?_of_apply`), so what a run makes of a variable is known from the
operations that it accepts (`Point.get?_run`).
-/

namespace SqpInequality

variable {α : Type}

namespace Point

/-- An operation on a point. -/
inductive Operation (α : Type) where
  /-- Assign a new variable. -/
  | insert (k : Key) (v : Vec α)
  /-- Replace the vector of a variable. -/
  | update (k : Key) (v : Vec α)
  /-- Move along a step. -/
  | retract (step : VectorMap α)

/-! ## What an operation does to a variable -/

namespace Operation

/-- The vector that an operation writes under a key. -/
def written? (k : Key) : Operation α → Option (Vec α)
  | insert j v => if k = j then some v else none
  | update j v => if k = j then some v else none
  | retract _ => none

/-- The vector that an operation adds to the one under a key. -/
def shift? (k : Key) : Operation α → Option (Vec α)
  | retract step => step.get? k
  | _ => none

/-- **An operation spares a variable** if it neither writes it nor shifts it. -/
def Spares (o : Operation α) (k : Key) : Prop := o.written? k = none ∧ o.shift? k = none

variable [Scalar α]

/-- What is under a key after an operation that is accepted. -/
def effect (k : Key) (x : Option (Vec α)) (o : Operation α) : Option (Vec α) :=
  (o.written? k).or (x.map fun v => (o.shift? k).elim v (Vec.add v))

variable {o : Operation α} {k : Key}

theorem effect_of_written {w : Vec α} (h : o.written? k = some w) (x : Option (Vec α)) :
    effect k x o = some w := by
  rw [effect, h, Option.some_or]

theorem effect_of_shift {s : Vec α} (hw : o.written? k = none) (hs : o.shift? k = some s)
    (x : Option (Vec α)) : effect k x o = x.map fun v => Vec.add v s := by
  rw [effect, hw, hs, Option.none_or]
  rfl

theorem effect_of_spares (h : o.Spares k) (x : Option (Vec α)) : effect k x o = x := by
  rw [effect, h.1, h.2, Option.none_or]
  exact Option.map_id_apply

end Operation

/-! ## Refusals -/

theorem insert_eq_error_iff {p : Point α} {k : Key} {v : Vec α} {fault : Fault α} :
    p.insert k v = .error fault ↔ p.contains k = true ∧ fault = .alreadyAssigned k := by
  rw [insert]
  split
  · rename_i h
    rw [Except.error.injEq]
    exact ⟨fun heq => ⟨h, heq.symm⟩, fun heq => heq.2.symm⟩
  · rename_i h
    refine iff_of_false (fun heq => ?_) fun heq => h heq.1
    contradiction

theorem insert_eq_ok {p q : Point α} {k : Key} {v : Vec α} (h : p.insert k v = .ok q) :
    q = ⟨p.values.insert k v⟩ := by
  rw [insert] at h
  split at h
  · contradiction
  · exact (Except.ok.inj h).symm

/-- A vector is refused where it goes with no other vector, and where it goes with one of another
length. -/
theorem sized_eq_error_iff {n : Nat} {missing fault : Fault α} (x : Option (Vec α))
    (next : Vec α → Point α) (mismatch : Nat → Fault α) :
    (match x with
      | none => Except.error missing
      | some v =>
        if v.length = n then .ok (next v) else .error (mismatch v.length)) = .error fault ↔
      x.map List.length = none ∧ fault = missing ∨
      ∃ d, x.map List.length = some d ∧ d ≠ n ∧ fault = mismatch d := by
  cases x with
  | none =>
    simp only [Except.error.injEq, Option.map_none, true_and, reduceCtorEq, false_and,
      exists_false, or_false]
    exact eq_comm
  | some v =>
    simp only [Option.map_some, reduceCtorEq, false_and, false_or, Option.some.injEq,
      exists_eq_left']
    split
    · rename_i hlength
      refine iff_of_false (fun h => ?_) fun h => h.1 hlength
      contradiction
    · rename_i hlength
      rw [Except.error.injEq]
      exact ⟨fun heq => ⟨hlength, heq.symm⟩, fun heq => heq.2.symm⟩

theorem update_eq_error_iff {p : Point α} {k : Key} {v : Vec α} {fault : Fault α} :
    p.update k v = .error fault ↔
      p.dimension? k = none ∧ fault = .updateUnassigned k ∨
      ∃ d, p.dimension? k = some d ∧ d ≠ v.length ∧ fault = .updateDimension k d v.length := by
  rw [update]
  exact sized_eq_error_iff _ (fun _ => ⟨p.values.insert k v⟩) fun d => .updateDimension k d v.length

theorem shift_eq_error_iff [Scalar α] {p : Point α} {k : Key} {s : Vec α} {fault : Fault α} :
    p.shift k s = .error fault ↔
      p.dimension? k = none ∧ fault = .stepUnassigned k ∨
      ∃ d, p.dimension? k = some d ∧ d ≠ s.length ∧ fault = .stepDimension k d s.length := by
  rw [shift]
  exact sized_eq_error_iff _ (fun x => ⟨p.values.insert k (Vec.add x s)⟩)
    fun d => .stepDimension k d s.length

theorem update_eq_ok {p q : Point α} {k : Key} {v : Vec α} (h : p.update k v = .ok q) :
    q = ⟨p.values.insert k v⟩ := by
  rw [update] at h
  split at h
  · contradiction
  · split at h
    · exact (Except.ok.inj h).symm
    · contradiction

/-! ## One operation -/

variable [Scalar α]

/-- The point after an operation, or why the operation is refused. -/
def apply (p : Point α) : Operation α → Except (Fault α) (Point α)
  | .insert k v => p.insert k v
  | .update k v => p.update k v
  | .retract step => p.retract step

/-- An operation as it is carried out in place. -/
def Operation.inPlace : Operation α → InPlace α (Point α) Unit
  | insert k v => insertInPlace k v
  | update k v => updateInPlace k v
  | retract step => retractInPlace step

theorem Operation.does_inPlace (o : Operation α) : o.inPlace.Does fun p => p.apply o := by
  cases o with
  | insert k v => exact does_insertInPlace k v
  | update k v => exact does_updateInPlace k v
  | retract step => exact does_retractInPlace step

/-- The point that an operation leaves, refused or not. -/
def after (p : Point α) (o : Operation α) : Point α := (o.inPlace.on p).2

theorem after_of_ok {p q : Point α} {o : Operation α} (h : p.apply o = .ok q) : p.after o = q := by
  rw [after, o.does_inPlace.on_of_ok h]

/-- **An operation that is refused leaves the point as it was.** -/
theorem after_of_error {p : Point α} {o : Operation α} {fault : Fault α}
    (h : p.apply o = .error fault) : p.after o = p := by
  rw [after, o.does_inPlace.on_of_error h]

theorem step_of_apply {p q : Point α} : ∀ {o : Operation α}, p.apply o = .ok q → Step p q
  | .insert _ _, h => .insert h
  | .update _ _, h => .update h
  | .retract _, h => .retract h

/-- What a write leaves under the keys. -/
theorem get?_of_writes {o : Operation α} {j : Key} {v : Vec α}
    (hw : ∀ k, o.written? k = if k = j then some v else none) (hs : ∀ k, o.shift? k = none)
    (p : Point α) (k : Key) :
    (⟨p.values.insert j v⟩ : Point α).get? k = o.effect k (p.get? k) := by
  rw [get?_mk_insert]
  split
  · rename_i hk
    rw [Operation.effect_of_written ((hw k).trans (if_pos hk))]
  · rename_i hk
    rw [Operation.effect_of_spares ⟨(hw k).trans (if_neg hk), hs k⟩]

/-- **An accepted operation writes and shifts what it names**, and spares the rest. -/
theorem get?_of_apply {p q : Point α} {o : Operation α} (h : p.apply o = .ok q) (k : Key) :
    q.get? k = o.effect k (p.get? k) := by
  cases o with
  | insert j v =>
    obtain rfl := insert_eq_ok h
    exact get?_of_writes (fun _ => rfl) (fun _ => rfl) p k
  | update j v =>
    obtain rfl := update_eq_ok h
    exact get?_of_writes (fun _ => rfl) (fun _ => rfl) p k
  | retract step =>
    obtain ⟨hkept, hshifted⟩ := moves_of_retract h
    have hwritten : (Operation.retract step).written? k = none := rfl
    cases hs : (Operation.retract step).shift? k with
    | none => rw [hkept k hs, Operation.effect_of_spares ⟨hwritten, hs⟩]
    | some s =>
      obtain ⟨x, hx, -, hq⟩ := hshifted k s hs
      rw [hq, hx, Operation.effect_of_shift hwritten hs, Option.map_some]

/-- What an accepted operation writes or adds is as long as the variable is from then on. -/
theorem dimension?_of_apply {p q : Point α} {o : Operation α} (h : p.apply o = .ok q) {k : Key}
    {u : Vec α} (hu : o.written? k = some u ∨ o.shift? k = some u) :
    q.dimension? k = some u.length := by
  rcases hu with hwritten | hshift
  · rw [dimension?, get?_of_apply h, Operation.effect_of_written hwritten, Option.map_some]
  · cases o with
    | insert j v => contradiction
    | update j v => contradiction
    | retract step =>
      obtain ⟨x, -, hlength, hq⟩ := (moves_of_retract h).shifted k u hshift
      rw [dimension?, hq, Option.map_some, Vec.length_add, hlength, Nat.min_self]

/-! ## Any number of operations -/

/-- The point after a run of operations. -/
def run (p : Point α) (os : List (Operation α)) : Point α := os.foldl after p

/-- The operations of a run that are accepted. -/
def accepted (p : Point α) : List (Operation α) → List (Operation α)
  | [] => []
  | o :: os =>
    match p.apply o with
    | .ok q => o :: q.accepted os
    | .error _ => p.accepted os

/-- The point that operations lead to from the one without variables. -/
def ofOperations (os : List (Operation α)) : Point α := empty.run os

theorem run_append (p : Point α) (os later : List (Operation α)) :
    p.run (os ++ later) = (p.run os).run later := List.foldl_append ..

/-- **What a run makes of a variable is what its accepted operations make of it**, in order. -/
theorem get?_run (k : Key) : ∀ (os : List (Operation α)) (p : Point α),
    (p.run os).get? k = (p.accepted os).foldl (Operation.effect k) (p.get? k)
  | [], _ => rfl
  | o :: os, p => by
    rw [run, List.foldl_cons, ← run, get?_run k os, accepted]
    cases h : p.apply o with
    | ok q => rw [after_of_ok h, List.foldl_cons, get?_of_apply h]
    | error fault => rw [after_of_error h]

/-- **A run that spares a variable leaves it as it is.** -/
theorem get?_run_of_spares {k : Key} : ∀ {os : List (Operation α)} (_ : ∀ o ∈ os, o.Spares k)
    (p : Point α), (p.run os).get? k = p.get? k
  | [], _, _ => rfl
  | o :: os, h, p => by
    obtain ⟨ho, hos⟩ := List.forall_mem_cons.mp h
    rw [run, List.foldl_cons, ← run, get?_run_of_spares hos]
    cases happly : p.apply o with
    | ok q => rw [after_of_ok happly, get?_of_apply happly, Operation.effect_of_spares ho]
    | error fault => rw [after_of_error happly]

/-- **A run changes the dimension of no variable.** -/
theorem dimension?_run {k : Key} {d : Nat} : ∀ (os : List (Operation α)) {p : Point α}
    (_ : p.dimension? k = some d), (p.run os).dimension? k = some d
  | [], _, h => h
  | o :: os, p, h => by
    rw [run, List.foldl_cons, ← run]
    refine dimension?_run os ?_
    cases happly : p.apply o with
    | ok q =>
      rw [after_of_ok happly]
      exact dimension?_of_step (step_of_apply happly) h
    | error fault =>
      rw [after_of_error happly]
      exact h

/-- **What a run accepts for a variable has the dimension that the variable ends up with.** -/
theorem dimension?_run_of_accepted {k : Key} {u : Vec α} {o : Operation α}
    (hu : o.written? k = some u ∨ o.shift? k = some u) : ∀ (os : List (Operation α)) {p : Point α}
    (_ : o ∈ p.accepted os), (p.run os).dimension? k = some u.length
  | [], p, h => absurd h List.not_mem_nil
  | l :: os, p, h => by
    rw [accepted] at h
    rw [run, List.foldl_cons, ← run]
    cases happly : p.apply l with
    | ok q =>
      rw [happly, List.mem_cons] at h
      rw [after_of_ok happly]
      rcases h with rfl | hlater
      · exact dimension?_run os (dimension?_of_apply happly hu)
      · exact dimension?_run_of_accepted hu os hlater
    | error fault =>
      rw [happly] at h
      rw [after_of_error happly]
      exact dimension?_run_of_accepted hu os h

end Point

end SqpInequality

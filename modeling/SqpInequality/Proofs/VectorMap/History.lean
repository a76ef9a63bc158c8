import SqpInequality.Proofs.VectorMap.Writes

/-!
# Proofs/VectorMap/History — a vector map holds what was put last and not removed since

Of the writes that are accepted, a key is decided by the last one that does not spare it:

    … put v under k … put w under k · (writes that spare k)       get? k = some w
    … put v under k …   remove k    · (writes that spare k)       get? k = none

What one write makes of a key is `VectorMap.get?_of_apply`, and `VectorMap.get?_ofWrites` is what
any number of them do.  Collecting a list is a run of assignments
(`VectorMap.ofList_eq_foldl_assign`), so of its entries the last one for a key counts as well.
-/

namespace SqpInequality

/-! ## The last member that matters -/

section Last

variable {β : Type} {P Q : β → Prop}

/-- **A list has a member of one kind with only members of another kind behind it.** -/
def EndsWith (P Q : β → Prop) (xs : List β) : Prop :=
  ∃ earlier x later, xs = earlier ++ x :: later ∧ P x ∧ ∀ y ∈ later, Q y

theorem not_endsWith_nil : ¬ EndsWith P Q [] := by
  rintro ⟨earlier, x, later, h, -⟩
  simp at h

theorem endsWith_cons_iff {x : β} {xs : List β} :
    EndsWith P Q (x :: xs) ↔ P x ∧ (∀ y ∈ xs, Q y) ∨ EndsWith P Q xs := by
  constructor
  · rintro ⟨earlier, y, later, h, hy, hlater⟩
    cases earlier with
    | nil =>
      obtain ⟨rfl, rfl⟩ := List.cons.inj h
      exact Or.inl ⟨hy, hlater⟩
    | cons z earlier =>
      obtain ⟨rfl, rfl⟩ := List.cons.inj h
      exact Or.inr ⟨earlier, y, later, rfl, hy, hlater⟩
  · rintro (⟨hx, hxs⟩ | ⟨earlier, y, later, rfl, hy, hlater⟩)
    · exact ⟨[], x, xs, rfl, hx, hxs⟩
    · exact ⟨x :: earlier, y, later, rfl, hy, hlater⟩

/-- What holds if a member brings it about, or keeps it from before, holds at the end of a list if
some member brings it about and those behind it keep it, or if all keep it from before. -/
theorem endsWith_or_cons_iff {R : Prop} {x : β} {xs : List β} :
    (EndsWith P Q xs ∨ (∀ y ∈ xs, Q y) ∧ (P x ∨ Q x ∧ R)) ↔
      EndsWith P Q (x :: xs) ∨ (∀ y ∈ x :: xs, Q y) ∧ R := by
  rw [endsWith_cons_iff, List.forall_mem_cons]
  constructor
  · rintro (h | ⟨hxs, hx | ⟨hx, hR⟩⟩)
    · exact Or.inl (Or.inr h)
    · exact Or.inl (Or.inl ⟨hx, hxs⟩)
    · exact Or.inr ⟨⟨hx, hxs⟩, hR⟩
  · rintro ((⟨hx, hxs⟩ | h) | ⟨⟨hx, hxs⟩, hR⟩)
    · exact Or.inr ⟨hxs, Or.inl hx⟩
    · exact Or.inl h
    · exact Or.inr ⟨hxs, Or.inr ⟨hx, hR⟩⟩

end Last

/-! ## Collected entries -/

namespace KeyMap

variable {β : Type}

/-- What is under a key after a value was put under one. -/
theorem get?_insert_eq_some_iff {m : KeyMap β} {j k : Key} {u v : β} :
    (m.insert j u).get? k = some v ↔ (j, u) = (k, v) ∨ j ≠ k ∧ m.get? k = some v := by
  rw [get?_insert]
  by_cases hk : k = j
  · simp [hk]
  · simp [hk, Ne.symm hk]

theorem get?_foldl_insert {k : Key} {v : β} : ∀ (es : List (Key × β)) (m : KeyMap β),
    (es.foldl (fun m e => m.insert e.1 e.2) m).get? k = some v ↔
      EndsWith (· = (k, v)) (·.1 ≠ k) es ∨ (∀ e ∈ es, e.1 ≠ k) ∧ m.get? k = some v
  | [], _ => by simp [not_endsWith_nil]
  | e :: es, m => by
    rw [List.foldl_cons, get?_foldl_insert es, get?_insert_eq_some_iff, endsWith_or_cons_iff]

/-- **Of the entries of a list the last one for a key counts.** -/
theorem get?_ofList {es : List (Key × β)} {k : Key} {v : β} :
    (ofList es).get? k = some v ↔ EndsWith (· = (k, v)) (·.1 ≠ k) es := by
  rw [ofList, get?_foldl_insert]
  simp

end KeyMap

namespace VectorMap

variable {α : Type}

theorem foldl_assign : ∀ (entries : List (Key × Vec α)) (m : KeyMap (Vec α)),
    entries.foldl (fun d e => d.assign e.1 e.2) (⟨m⟩ : VectorMap α)
      = ⟨entries.foldl (fun m e => m.insert e.1 e.2) m⟩
  | [], _ => rfl
  | _ :: entries, _ => foldl_assign entries _

/-- **Collecting a list is assigning its entries in order.** -/
theorem ofList_eq_foldl_assign (entries : List (Key × Vec α)) :
    ofList entries = entries.foldl (fun d e => d.assign e.1 e.2) empty :=
  (foldl_assign entries KeyMap.empty).symm

/-! ## One write -/

namespace Write

/-- **A write puts a vector under a key.**  Of the entries of a list the last one for the key
counts. -/
def Puts (k : Key) (v : Vec α) : Write α → Prop
  | insert j w | assign j w => (j, w) = (k, v)
  | remove _ => False
  | collect entries => EndsWith (· = (k, v)) (·.1 ≠ k) entries

/-- **A write spares a key** if it is about another one.  A list starts over and spares none. -/
def Spares (k : Key) : Write α → Prop
  | insert j _ | assign j _ | remove j => j ≠ k
  | collect _ => False

end Write

/-- The map after a write, or why the write is refused. -/
def apply (d : VectorMap α) : Write α → Except (Fault α) (VectorMap α)
  | .insert k v => d.insert k v
  | .assign k v => .ok (d.assign k v)
  | .remove k => .ok (d.remove k).2
  | .collect entries => .ok (ofList entries)

variable {d next : VectorMap α} {w : Write α} {k : Key} {v : Vec α} {fault : Fault α}

theorem Write.does_inPlace (w : Write α) : w.inPlace.Does fun d => d.apply w := by
  cases w with
  | insert k v => exact does_insertInPlace k v
  | assign k v => exact fun _ => rfl
  | remove k => exact fun _ => rfl
  | collect entries => exact fun _ => rfl

theorem written_of_ok (h : d.apply w = .ok next) : d.written w = next := by
  rw [written, w.does_inPlace.on_of_ok h]

/-- **A write that is refused leaves the map as it was.** -/
theorem written_of_error (h : d.apply w = .error fault) : d.written w = d := by
  rw [written, w.does_inPlace.on_of_error h]

theorem insert_eq_error_iff :
    d.insert k v = .error fault ↔ d.contains k = true ∧ fault = .vectorAlreadyPresent k := by
  rw [insert]
  split
  · rename_i h
    simp [h, eq_comm]
  · rename_i h
    simp [h]

theorem insert_eq_ok (h : d.insert k v = .ok next) : next = d.assign k v := by
  rw [insert] at h
  split at h
  · contradiction
  · exact (Except.ok.inj h).symm

theorem get?_remove (d : VectorMap α) (k j : Key) :
    (d.remove k).2.get? j = if j = k then none else d.get? j := KeyMap.get?_erase _ _ _

/-- **A write that is accepted puts a vector under a key, or spares the key, or clears it.** -/
theorem get?_of_apply (h : d.apply w = .ok next) :
    next.get? k = some v ↔ w.Puts k v ∨ w.Spares k ∧ d.get? k = some v := by
  cases w with
  | insert j u =>
    obtain rfl := insert_eq_ok h
    exact KeyMap.get?_insert_eq_some_iff
  | assign j u =>
    obtain rfl := Except.ok.inj h
    exact KeyMap.get?_insert_eq_some_iff
  | remove j =>
    obtain rfl := Except.ok.inj h
    rw [get?_remove, Write.Puts, Write.Spares]
    by_cases hk : k = j
    · simp [hk]
    · simp [hk, Ne.symm hk]
  | collect entries =>
    obtain rfl := Except.ok.inj h
    rw [Write.Puts, Write.Spares, false_and, or_false]
    exact KeyMap.get?_ofList

/-! ## Any number of writes -/

/-- The writes of a run that are accepted. -/
def accepted (d : VectorMap α) : List (Write α) → List (Write α)
  | [] => []
  | w :: ws =>
    match d.apply w with
    | .ok next => w :: next.accepted ws
    | .error _ => d.accepted ws

/-- **What is under a key after a run** was put there by an accepted write with only writes that
spare the key behind it, or was there before and all accepted writes spare it. -/
theorem get?_foldl_written : ∀ (ws : List (Write α)) (d : VectorMap α),
    (ws.foldl written d).get? k = some v ↔
      EndsWith (Write.Puts k v) (Write.Spares k) (d.accepted ws) ∨
        (∀ w ∈ d.accepted ws, w.Spares k) ∧ d.get? k = some v
  | [], d => by simp [accepted, not_endsWith_nil]
  | w :: ws, d => by
    rw [List.foldl_cons, get?_foldl_written ws, accepted]
    cases h : d.apply w with
    | ok next => rw [written_of_ok h, get?_of_apply h, endsWith_or_cons_iff]
    | error fault => rw [written_of_error h]

/-- **A map holds what was put last and not removed since.** -/
theorem get?_ofWrites (ws : List (Write α)) (k : Key) (v : Vec α) :
    (ofWrites ws).get? k = some v ↔
      EndsWith (Write.Puts k v) (Write.Spares k) (accepted empty ws) := by
  have hempty : (empty : VectorMap α).get? k = none := KeyMap.get?_empty k
  rw [ofWrites, get?_foldl_written, hempty]
  simp

theorem ofWrites_concat (ws : List (Write α)) (w : Write α) :
    ofWrites (ws ++ [w]) = (ofWrites ws).written w := List.foldl_append ..

/-! ## What can be asked of a map -/

theorem contains_eq_true_iff : d.contains k = true ↔ ∃ v, d.get? k = some v :=
  Option.isSome_iff_exists

/-- **A status carries the vector that is under the key.** -/
theorem status_eq_active_iff : d.status k = .active v ↔ d.get? k = some v := by
  rw [status]
  split
  · rename_i h
    simp [h]
  · rename_i h
    simp [h]

/-- The keys that have a vector, each of them once. -/
theorem mem_keys_vectors : k ∈ d.vectors.keys ↔ ∃ v, d.get? k = some v := by
  rw [← Option.ne_none_iff_exists', get?, KeyMap.get?, Ne, KeyMap.lookup_eq_none_iff,
    Decidable.not_not]
  rfl

/-- Of two collected entries the later counts, the insertion is refused, and what was removed can be
put back. -/
example :
    (ofWrites [.collect [(1, [1]), (2, [2]), (1, [3])], .insert 2 [7], .remove 1,
      .insert 1 [(4 : Nat)]]).entries = [(1, [4]), (2, [2])] := by
  decide

end VectorMap

end SqpInequality

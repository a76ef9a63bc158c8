import SqpInequality.Proofs.Linear.Tiling
import SqpInequality.Proofs.Point.Operation

/-!
# Proofs/Point/History — a point remembers the last writes and the steps behind them

Of the operations that were accepted, a variable remembers the last write and the steps behind it
(`Point.get?_ofOperations`), in the order of the operations:

    … write … write w … step s … (other variables) … step t        gives        w + s + t

With the dimensions, which no operation changes, this is all that a run leaves behind
(`Point.remembers_history`).
-/

namespace SqpInequality

/-- A list with a member that has a property has a last one. -/
theorem exists_last {β : Type} {P : β → Prop} : ∀ {xs : List β}, (∃ x ∈ xs, P x) →
    ∃ earlier x later, xs = earlier ++ x :: later ∧ P x ∧ ∀ y ∈ later, ¬ P y
  | x :: xs, h => by
    by_cases hlater : ∃ y ∈ xs, P y
    · obtain ⟨earlier, y, later, rfl, hy, hrest⟩ := exists_last hlater
      exact ⟨x :: earlier, y, later, rfl, hy, hrest⟩
    · obtain ⟨y, hy, hP⟩ := h
      rcases List.mem_cons.mp hy with rfl | hy
      · exact ⟨[], y, xs, rfl, hP, fun z hz hPz => hlater ⟨z, hz, hPz⟩⟩
      · exact absurd ⟨y, hy, hP⟩ hlater

variable {α : Type} [Scalar α]

/-! ## Sums of vectors, component by component -/

namespace Vec

variable {w : Vec α} {ss : List (Vec α)}

theorem length_foldl_add : ∀ {ss : List (Vec α)} {w : Vec α} (_ : ∀ s ∈ ss, s.length = w.length),
    (ss.foldl add w).length = w.length
  | [], _, _ => rfl
  | s :: ss, w, h => by
    obtain ⟨hs, hss⟩ := List.forall_mem_cons.mp h
    have hlength : (add w s).length = w.length := by rw [length_add, hs, Nat.min_self]
    rw [List.foldl_cons, length_foldl_add (hlength.symm ▸ hss), hlength]

theorem getElem?_foldl_add_of_forall₂ {i : Nat} {bs : List α}
    (h : List.Forall₂ (fun (s : Vec α) b => s[i]? = some b) ss bs) :
    ∀ {w : Vec α} {a : α}, w[i]? = some a →
      (ss.foldl add w)[i]? = some (bs.foldl (· + ·) a) := by
  induction h with
  | nil => exact id
  | cons hb _ ih => exact fun ha => ih (getElem?_add ha hb)

omit [Scalar α] in
/-- Vectors that are long enough have a component at an index. -/
theorem exists_components {i n : Nat} (hi : i < n) : ∀ {ss : List (Vec α)}
    (_ : ∀ s ∈ ss, s.length = n), ∃ bs, List.Forall₂ (fun (s : Vec α) b => s[i]? = some b) ss bs
  | [], _ => ⟨[], .nil⟩
  | s :: ss, h => by
    obtain ⟨hs, hss⟩ := List.forall_mem_cons.mp h
    obtain ⟨bs, hbs⟩ := exists_components hi hss
    exact ⟨s[i] :: bs, .cons (List.getElem?_eq_getElem _) hbs⟩

/-- **Vectors of one length are added component by component.** -/
theorem eq_foldl_add_iff {v : Vec α} (h : ∀ s ∈ ss, s.length = w.length) :
    v = ss.foldl add w ↔ v.length = w.length ∧ ∀ (i : Nat) (a : α), w[i]? = some a →
      ∃ bs, List.Forall₂ (fun s b => s[i]? = some b) ss bs ∧
        v[i]? = some (bs.foldl (· + ·) a) := by
  constructor
  · rintro rfl
    refine ⟨length_foldl_add h, fun i a ha => ?_⟩
    obtain ⟨bs, hbs⟩ := exists_components (List.getElem?_eq_some_iff.mp ha).1 h
    exact ⟨bs, hbs, getElem?_foldl_add_of_forall₂ hbs ha⟩
  · rintro ⟨hlength, hcomponent⟩
    refine List.ext_getElem? fun i => ?_
    by_cases hi : i < w.length
    · have ha : w[i]? = some w[i] := List.getElem?_eq_getElem hi
      obtain ⟨bs, hbs, hv⟩ := hcomponent i w[i] ha
      rw [hv, getElem?_foldl_add_of_forall₂ hbs ha]
    · have hend := Nat.not_lt.mp hi
      rw [List.getElem?_eq_none (hlength ▸ hend),
        List.getElem?_eq_none (length_foldl_add h ▸ hend)]

end Vec

namespace Point

/-! ## The last write and the steps behind it -/

/-- **A log recalls a vector of a variable**: the last write of the variable left a vector of this
length, and each component is the one of that write with the ones of the later steps added, in
order. -/
def Recalls (log : List (Operation α)) (k : Key) (v : Vec α) : Prop :=
  ∃ earlier o later w, log = earlier ++ o :: later ∧ o.written? k = some w ∧
    (∀ l ∈ later, l.written? k = none) ∧ v.length = w.length ∧
    ∀ (i : Nat) (a : α), w[i]? = some a →
      ∃ bs, List.Forall₂ (fun s b => s[i]? = some b) (later.filterMap (Operation.shift? k)) bs ∧
        v[i]? = some (bs.foldl (· + ·) a)

variable {k : Key}

/-- Where nothing is written, steps are added. -/
theorem foldl_effect_of_not_written : ∀ {log : List (Operation α)}
    (_ : ∀ o ∈ log, o.written? k = none) (x : Option (Vec α)),
    log.foldl (Operation.effect k) x
      = x.map fun w => (log.filterMap (Operation.shift? k)).foldl Vec.add w
  | [], _, _ => Option.map_id_apply.symm
  | o :: log, h, x => by
    obtain ⟨ho, hlog⟩ := List.forall_mem_cons.mp h
    rw [List.foldl_cons, foldl_effect_of_not_written hlog]
    cases hs : o.shift? k with
    | none => rw [Operation.effect_of_spares ⟨ho, hs⟩, List.filterMap_cons_none hs]
    | some s =>
      rw [Operation.effect_of_shift ho hs, Option.map_map, List.filterMap_cons_some hs]
      rfl

/-- A write hides what was there before. -/
theorem foldl_effect_of_last_write {earlier later : List (Operation α)} {o : Operation α}
    {w : Vec α} (ho : o.written? k = some w) (hlater : ∀ l ∈ later, l.written? k = none)
    (x : Option (Vec α)) :
    (earlier ++ o :: later).foldl (Operation.effect k) x
      = some ((later.filterMap (Operation.shift? k)).foldl Vec.add w) := by
  rw [List.foldl_append, List.foldl_cons, Operation.effect_of_written ho,
    foldl_effect_of_not_written hlater, Option.map_some]

theorem foldl_effect_eq_some_iff {log : List (Operation α)} {v : Vec α} :
    log.foldl (Operation.effect k) none = some v ↔
      ∃ earlier o later w, log = earlier ++ o :: later ∧ o.written? k = some w ∧
        (∀ l ∈ later, l.written? k = none) ∧
        v = (later.filterMap (Operation.shift? k)).foldl Vec.add w := by
  constructor
  · intro h
    by_cases hwrite : ∃ o ∈ log, o.written? k ≠ none
    · obtain ⟨earlier, o, later, rfl, ho, hlater⟩ := exists_last hwrite
      obtain ⟨w, hw⟩ := Option.ne_none_iff_exists'.mp ho
      have hnone : ∀ l ∈ later, l.written? k = none := fun l hl => not_not.mp (hlater l hl)
      rw [foldl_effect_of_last_write hw hnone] at h
      exact ⟨earlier, o, later, w, rfl, hw, hnone, (Option.some.inj h).symm⟩
    · have hnone : ∀ o ∈ log, o.written? k = none :=
        fun o ho => not_not.mp fun hne => hwrite ⟨o, ho, hne⟩
      rw [foldl_effect_of_not_written hnone] at h
      contradiction
  · rintro ⟨earlier, o, later, w, rfl, ho, hlater, rfl⟩
    exact foldl_effect_of_last_write ho hlater none

/-- In a log of accepted operations the later steps are as long as the write before them. -/
theorem length_of_accepted_write {os earlier later : List (Operation α)} {p : Point α}
    {o : Operation α} {w : Vec α} (hlog : p.accepted os = earlier ++ o :: later)
    (ho : o.written? k = some w) :
    ∀ s ∈ later.filterMap (Operation.shift? k), s.length = w.length := by
  intro s hs
  obtain ⟨l, hl, hshift⟩ := List.mem_filterMap.mp hs
  have hwrite : o ∈ p.accepted os := hlog ▸ List.mem_append_right _ List.mem_cons_self
  have hstep : l ∈ p.accepted os :=
    hlog ▸ List.mem_append_right _ (List.mem_cons_of_mem _ hl)
  have hw := dimension?_run_of_accepted (Or.inl ho) os hwrite
  have hs := dimension?_run_of_accepted (Or.inr hshift) os hstep
  exact Option.some.inj (hs.symm.trans hw)

/-- **A variable has the vector that the accepted operations recall.** -/
theorem get?_ofOperations (os : List (Operation α)) (k : Key) (v : Vec α) :
    (ofOperations os).get? k = some v ↔ Recalls (accepted empty os) k v := by
  have hstart : (empty : Point α).get? k = none := rfl
  rw [ofOperations, get?_run, hstart, foldl_effect_eq_some_iff]
  refine exists_congr fun earlier => exists_congr fun o => exists_congr fun later =>
    exists_congr fun w => and_congr_right fun hlog => and_congr_right fun ho =>
    and_congr_right fun _ => ?_
  exact Vec.eq_foldl_add_iff (length_of_accepted_write hlog ho)

/-! ## The variables that are assigned -/

omit [Scalar α] in
theorem mem_keys_iff (p : Point α) (k : Key) : k ∈ p.keys ↔ p.contains k = true := by
  rw [← ColumnLayout.keys_ofPoint]
  exact ColumnLayout.mem_keys_ofPoint

omit [Scalar α] in
theorem contains_iff_dimension? (p : Point α) (k : Key) :
    p.contains k = true ↔ p.dimension? k ≠ none := by
  rw [dimension?, Ne, Option.map_eq_none_iff]
  exact Option.isSome_iff_ne_none

theorem ofOperations_concat (os : List (Operation α)) (o : Operation α) :
    ofOperations (os ++ [o]) = (ofOperations os).after o := run_append empty os [o]

/-! ## What a run leaves behind -/

omit [Scalar α] in
/-- **An insertion is refused exactly where the variable is assigned**, as a duplicate. -/
theorem insert_refused_iff (p : Point α) (k : Key) (v : Vec α) :
    ((∃ fault, p.insert k v = .error fault) ↔ p.contains k = true) ∧
      ∀ fault, p.insert k v = .error fault → fault.kind = .duplicateKey := by
  simp only [insert_eq_error_iff]
  refine ⟨⟨fun ⟨_, h, _⟩ => h, fun h => ⟨_, h, rfl⟩⟩, ?_⟩
  rintro _ ⟨-, rfl⟩
  rfl

omit [Scalar α] in
/-- **An update is refused exactly where the variable is unassigned or of another dimension.** -/
theorem update_refused_iff (p : Point α) (k : Key) (v : Vec α) :
    ((∃ fault, p.update k v = .error fault ∧ fault.kind = .missingVariable) ↔
        p.contains k = false) ∧
      ((∃ fault, p.update k v = .error fault ∧ fault.kind = .dimensionMismatch) ↔
        ∃ d, p.dimension? k = some d ∧ d ≠ v.length) ∧
      ∀ fault, p.update k v = .error fault →
        fault.kind = .missingVariable ∨ fault.kind = .dimensionMismatch := by
  have hcontains : p.contains k = false ↔ p.dimension? k = none := by
    rw [← Bool.not_eq_true, contains_iff_dimension?, not_not]
  simp only [update_eq_error_iff, hcontains]
  refine ⟨⟨?_, fun h => ⟨_, Or.inl ⟨h, rfl⟩, rfl⟩⟩, ⟨?_, ?_⟩, ?_⟩
  · rintro ⟨_, ⟨h, rfl⟩ | ⟨d, -, -, rfl⟩, hkind⟩
    · exact h
    · contradiction
  · rintro ⟨_, ⟨-, rfl⟩ | ⟨d, hd, hne, rfl⟩, hkind⟩
    · contradiction
    · exact ⟨d, hd, hne⟩
  · rintro ⟨d, hd, hne⟩
    exact ⟨_, Or.inr ⟨d, hd, hne, rfl⟩, rfl⟩
  · rintro _ (⟨-, rfl⟩ | ⟨d, -, -, rfl⟩)
    · exact Or.inl rfl
    · exact Or.inr rfl

/-- **A point remembers its variables, their dimensions, their last writes and the steps behind
them.**  A variable that is assigned stays so, with its dimension, in every later point.  Its vector
is what the last accepted write left there, with the accepted steps behind it added component by
component and in order.  An operation that is refused has changed nothing: an insertion is refused
where the variable is assigned, an update where it is not or has another dimension.  The keys are
the assigned variables in strictly ascending order. -/
theorem remembers_history (os : List (Operation α)) :
    (∀ later k d, (ofOperations os).dimension? k = some d →
      (ofOperations (os ++ later)).dimension? k = some d) ∧
    (∀ k v, (ofOperations os).get? k = some v ↔ Recalls (accepted empty os) k v) ∧
    (∀ o, (∀ q, (ofOperations os).apply o = .ok q →
        o.inPlace.on (ofOperations os) = (.ok (), q) ∧ ofOperations (os ++ [o]) = q) ∧
      ∀ fault, (ofOperations os).apply o = .error fault →
        o.inPlace.on (ofOperations os) = (.error fault, ofOperations os) ∧
        ofOperations (os ++ [o]) = ofOperations os) ∧
    (∀ k v, (((∃ fault, (ofOperations os).insert k v = .error fault) ↔
          (ofOperations os).contains k = true) ∧
        ∀ fault, (ofOperations os).insert k v = .error fault → fault.kind = .duplicateKey) ∧
      ((∃ fault, (ofOperations os).update k v = .error fault ∧ fault.kind = .missingVariable) ↔
        (ofOperations os).contains k = false) ∧
      ((∃ fault, (ofOperations os).update k v = .error fault ∧ fault.kind = .dimensionMismatch) ↔
        ∃ d, (ofOperations os).dimension? k = some d ∧ d ≠ v.length) ∧
      ∀ fault, (ofOperations os).update k v = .error fault →
        fault.kind = .missingVariable ∨ fault.kind = .dimensionMismatch) ∧
    (ofOperations os).keys.Pairwise (· < ·) ∧
    (∀ k, k ∈ (ofOperations os).keys ↔ (ofOperations os).contains k = true) ∧
    (ofOperations os).size = (ofOperations os).keys.length := by
  refine ⟨fun later k d h => ?_, get?_ofOperations os,
    fun o => ⟨fun q h => ⟨o.does_inPlace.on_of_ok h, ?_⟩,
      fun fault h => ⟨o.does_inPlace.on_of_error h, ?_⟩⟩,
    fun k v => ⟨insert_refused_iff _ k v, update_refused_iff _ k v⟩,
    ColumnLayout.pairwise_keys _, mem_keys_iff _, (List.length_map _).symm⟩
  · rw [ofOperations, run_append]
    exact dimension?_run later h
  · rw [ofOperations_concat, after_of_ok h]
  · rw [ofOperations_concat, after_of_error h]

/-- A run of which some operations are refused: the third, the fifth and the last. -/
def mixedRun : List (Operation Float) :=
  [ .insert 0 [1, 2], .update 0 [3, 4], .insert 0 [9, 9], .retract (.ofList [(0, [5, 6])]),
    .update 0 [7], .insert 1 [8], .retract (.ofList [(0, [0.5, 0.25]), (1, [1])]),
    .retract (.ofList [(0, [1, 1]), (2, [1])]) ]

theorem remembers_mixedRun :
    (ofOperations mixedRun).get? 0 = some [8.5, 10.25] ∧
    (ofOperations (mixedRun ++ [Operation.update 0 [1]])).dimension? 0 = some 2 ∧
    (updateInPlace 0 [1]).on (ofOperations mixedRun)
      = (.error (.updateDimension 0 2 1), ofOperations mixedRun) := by
  obtain ⟨hstays, hget, hoperation, -⟩ := remembers_history mixedRun
  refine ⟨(hget 0 _).mpr ?_, hstays _ 0 2 rfl, ?_⟩
  · refine ⟨[.insert 0 [1, 2]], .update 0 [3, 4], [.retract (.ofList [(0, [5, 6])]), .insert 1 [8],
      .retract (.ofList [(0, [0.5, 0.25]), (1, [1])])], [3, 4], rfl, rfl, by decide, by decide, ?_⟩
    rintro (- | - | i) a ha
    · obtain rfl := Option.some.inj ha
      exact ⟨[5, 0.5], .cons rfl (.cons rfl .nil), by decide +kernel⟩
    · obtain rfl := Option.some.inj ha
      exact ⟨[6, 0.25], .cons rfl (.cons rfl .nil), by decide +kernel⟩
    · contradiction
  · exact ((hoperation (.update 0 [1])).2 (.updateDimension 0 2 1) rfl).1

end Point

end SqpInequality

import SqpInequality.Linear.Table
import SqpInequality.Proofs.Linear.Tiling

/-!
# Proofs/Linear/Table — the three fields of a table agree

A table keeps the keys, the columns of each key and their number apart, and nothing in its type ties
them together.  What does is the order of writing: a push looks its key up before it writes.

    layout   slots ──────────── push ──────────▸ slots
               │ Represents                        │ Represents
    table    keys, columns, total ── push ──▸ keys, columns, total

So a run of pushes leaves a table that represents a layout (`ColumnTable.represents_ofPushes`), and
whose keys tile its columns (`ColumnTable.ofPushes_tiled`).  The table of a point is written without
a look-up; it is what pushes would have written (`ColumnTable.run_appendAll_of_pushAll`), since no
key of a point comes twice.
-/

namespace SqpInequality

namespace ColumnTable

/-! ## One write -/

/-- A write in its three fields. -/
theorem run_append (t : ColumnTable) (k : Key) (d : Nat) : (append k d).run t
    = ((), ⟨t.keys ++ [k], t.columns.insert k (t.total, d), t.total + d⟩) := rfl

/-- **A push is refused where the columns of its key are found, and has written nothing then.** -/
theorem on_push {α : Type} (t : ColumnTable) (k : Key) (d : Nat) :
    (push k d : InPlace α ColumnTable Unit).on t
      = if t.columns.contains k then (.error (.alreadyLaidOut k), t)
        else (.ok (), ((append k d).run t).2) := by
  simp only [push, InPlace.on_bind, InPlace.on_get]
  split
  · rfl
  · rfl

/-! ## Tables and layouts -/

/-- **A table represents a layout**: each of its fields says of the columns what the layout does. -/
structure Represents (t : ColumnTable) (l : ColumnLayout) : Prop where
  /-- The keys are those of the layout, in its order. -/
  keys_eq : t.keys = l.keys
  /-- The columns of each key are those that the layout has for it, and no other key has any. -/
  column?_eq : t.column? = l.column?
  /-- There are as many columns as the layout has. -/
  total_eq : t.total = l.total

variable {t : ColumnTable} {l : ColumnLayout}

theorem represents_empty : empty.Represents .empty := ⟨rfl, rfl, rfl⟩

/-- **What represents a layout is tiled as the layout is.** -/
theorem Represents.tile (h : t.Represents l) : Places.Tile t.column? t.keys t.total := by
  rw [h.keys_eq, h.column?_eq, h.total_eq]
  exact l.tile

/-- A table that represents a layout finds the columns of the keys that it lists. -/
theorem Represents.contains_iff (h : t.Represents l) (k : Key) :
    t.columns.contains k = true ↔ k ∈ t.keys := by
  change (t.column? k).isSome = true ↔ k ∈ t.keys
  exact h.tile.listed k

/-- Writing a new key is listing it. -/
theorem Represents.append (h : t.Represents l) {s : Key × Nat} (hs : s.1 ∉ t.keys) :
    ((append s.1 s.2).run t).2.Represents (l.pushed s) := by
  rw [h.keys_eq] at hs
  refine ⟨?_, funext fun k => ?_, ?_⟩
  · rw [ColumnLayout.keys_pushed, if_neg hs, run_append, h.keys_eq]
  · rw [ColumnLayout.column?_pushed hs, ← h.total_eq, ← h.column?_eq]
    exact KeyMap.get?_insert t.columns s.1 (t.total, s.2) k
  · rw [ColumnLayout.total_pushed hs, run_append, h.total_eq]

/-- **A push on a table is the push on the layout that it represents.** -/
theorem Represents.on_push {α : Type} (h : t.Represents l) (s : Key × Nat) :
    (push s.1 s.2 : InPlace α ColumnTable Unit).on t
      = if s.1 ∈ t.keys then (.error (.alreadyLaidOut s.1), t)
        else (.ok (), ((ColumnTable.append s.1 s.2).run t).2) := by
  simp only [ColumnTable.on_push, h.contains_iff]

/-! ## Any number of pushes -/

/-- The table that a push leaves, refused or not. -/
def pushed (t : ColumnTable) (s : Key × Nat) : ColumnTable :=
  ((push s.1 s.2 : InPlace Unit ColumnTable Unit).on t).2

/-- The table that pushes lead to from the one without columns. -/
def ofPushes (pushes : List (Key × Nat)) : ColumnTable := pushes.foldl pushed empty

theorem ofPushes_append (pushes later : List (Key × Nat)) :
    ofPushes (pushes ++ later) = later.foldl pushed (ofPushes pushes) := List.foldl_append ..

theorem ofPushes_concat (pushes : List (Key × Nat)) (s : Key × Nat) :
    ofPushes (pushes ++ [s]) = (ofPushes pushes).pushed s := List.foldl_concat ..

theorem Represents.pushed (h : t.Represents l) (s : Key × Nat) :
    (t.pushed s).Represents (l.pushed s) := by
  rw [ColumnTable.pushed, h.on_push]
  by_cases hs : s.1 ∈ t.keys
  · rw [if_pos hs, ColumnLayout.pushed_of_mem (h.keys_eq ▸ hs)]
    exact h
  · rw [if_neg hs]
    exact h.append hs

/-- **A run of pushes leaves a table that represents the layout of these pushes.** -/
theorem represents_ofPushes (pushes : List (Key × Nat)) :
    (ofPushes pushes).Represents (.ofPushes pushes) := by
  induction pushes using List.reverseRecOn with
  | nil => exact represents_empty
  | append_singleton pushes s ih =>
    rw [ofPushes_concat, ColumnLayout.ofPushes, ColumnLayout.pushAll_concat]
    exact ih.pushed s

/-- No push takes a column away. -/
theorem total_le_total_pushed (t : ColumnTable) (s : Key × Nat) : t.total ≤ (t.pushed s).total := by
  rw [pushed, on_push]
  split
  · exact Nat.le_refl _
  · exact Nat.le_add_right _ _

theorem total_le_total_foldl_pushed : ∀ (later : List (Key × Nat)) (t : ColumnTable),
    t.total ≤ (later.foldl pushed t).total
  | [], t => Nat.le_refl t.total
  | s :: later, t =>
    Nat.le_trans (total_le_total_pushed t s) (total_le_total_foldl_pushed later (t.pushed s))

/-! ## Pushes up to the first refusal, and writes without a look-up -/

/-- Lists some keys one after the other; the first that is listed already is refused. -/
def pushAll {α : Type} (ss : List (Key × Nat)) : InPlace α ColumnTable Unit :=
  ss.forM fun s => push s.1 s.2

/-- Writes some keys one after the other. -/
def appendAll (ss : List (Key × Nat)) : StateM ColumnTable Unit := ss.forM fun s => append s.1 s.2

theorem on_pushAll_cons {α : Type} (s : Key × Nat) (ss : List (Key × Nat)) (t : ColumnTable) :
    (pushAll (s :: ss) : InPlace α ColumnTable Unit).on t
      = if t.columns.contains s.1 then (.error (.alreadyLaidOut s.1), t)
        else (pushAll ss).on ((append s.1 s.2).run t).2 := by
  rw [pushAll, List.forM_eq_forM, List.forM_cons, InPlace.on_bind, on_push]
  by_cases hs : t.columns.contains s.1 = true
  · rw [if_pos hs, if_pos hs]
  · rw [if_neg hs, if_neg hs]
    rfl

/-- **Where no push is refused, the look-ups have no part in what is written.** -/
theorem run_appendAll_of_pushAll {α : Type} : ∀ {ss : List (Key × Nat)} {t u : ColumnTable},
    (pushAll ss : InPlace α ColumnTable Unit).on t = (.ok (), u) →
      (appendAll ss).run t = ((), u)
  | [], t, u, h => by
    obtain rfl : t = u := congrArg Prod.snd h
    rfl
  | s :: ss, t, u, h => by
    rw [on_pushAll_cons] at h
    split at h
    · cases congrArg Prod.fst h
    · have hrest : (appendAll ss).run ((append s.1 s.2).run t).2 = ((), u) :=
        run_appendAll_of_pushAll h
      exact hrest

/-- **Pushes that a layout accepts are accepted by a table that represents it**, and lead to one
that represents what they make of the layout. -/
theorem Represents.on_pushAll {α : Type} : ∀ {ss : List (Key × Nat)} {t : ColumnTable}
    {l m : ColumnLayout}, t.Represents l →
    ss.foldlM (fun l s => l.push s.1 s.2) l = (.ok m : Except (Fault α) ColumnLayout) →
      ∃ u, (pushAll ss : InPlace α ColumnTable Unit).on t = (.ok (), u) ∧ u.Represents m
  | [], t, l, m, ht, h => by
    obtain rfl : l = m := Except.ok.inj h
    exact ⟨t, rfl, ht⟩
  | s :: ss, t, l, m, ht, h => by
    rw [List.foldlM_cons, ColumnLayout.push_eq] at h
    by_cases hs : s.1 ∈ t.keys
    · rw [if_pos (ht.keys_eq ▸ hs)] at h
      contradiction
    · rw [if_neg (ht.keys_eq ▸ hs)] at h
      rw [on_pushAll_cons, if_neg (mt (ht.contains_iff s.1).mp hs)]
      exact (ht.append hs).on_pushAll h

/-! ## The table of a point -/

variable {α : Type}

/-- Under the keys of its entries a point has just these. -/
theorem forM_appendVariable {p : Point α} : ∀ {es : List (Key × Vec α)}
    (_ : ∀ e ∈ es, p.get? e.1 = some e.2),
    (es.map Prod.fst).forM (appendVariable p) = appendAll (es.map fun e => (e.1, e.2.length))
  | [], _ => rfl
  | e :: es, h => by
    obtain ⟨he, hes⟩ := List.forall_mem_cons.mp h
    have hrest := forM_appendVariable hes
    simp only [appendAll, List.forM_eq_forM] at hrest ⊢
    rw [List.map_cons, List.map_cons, List.forM_cons, List.forM_cons, hrest, appendVariable, he]

/-- **The table of a point is what the pushes of its variables write**, none of which is refused. -/
theorem on_pushAll_ofPoint (p : Point α) :
    (pushAll (ColumnLayout.ofPoint p).slots : InPlace α ColumnTable Unit).on empty
        = (.ok (), ofPoint p) ∧
      (ofPoint p).Represents (.ofPoint p) := by
  obtain ⟨u, hu, hrepresents⟩ :=
    represents_empty.on_pushAll (ColumnLayout.foldlM_push_ofPoint p)
  have hfound : ∀ e ∈ p.entries, p.get? e.1 = some e.2 := fun e he =>
    (KeyMap.lookup_eq_some_iff_mem p.values.nodup_keys).mpr he
  -- The loop looks nothing up, and the pushes find none of their keys: both write the same.
  have hwritten : ofPoint p = u := by
    have hloop : p.keys.forM (appendVariable p) = appendAll (ColumnLayout.ofPoint p).slots :=
      forM_appendVariable hfound
    rw [ofPoint, hloop]
    exact congrArg Prod.snd (run_appendAll_of_pushAll hu)
  rw [hwritten]
  exact ⟨hu, hrepresents⟩

/-! ## Every run of pushes -/

/-- **Whatever is pushed, the keys of a table tile its columns.**  Each key is listed with the
dimension of its first push.  A push of a key that is listed is refused as a duplicate and leaves
every field as it was; any other is accepted, and its key owns the columns behind all others.  No
later push moves or resizes a key, or makes the columns fewer.  The table of a point, which is
written without a look-up, is what the pushes of its variables in ascending order write, and none of
them is refused. -/
theorem ofPushes_tiled (pushes : List (Key × Nat)) :
    Places.Tile (ofPushes pushes).column? (ofPushes pushes).keys (ofPushes pushes).total ∧
    (ofPushes pushes).Represents (.ofPushes pushes) ∧
    (ofPushes pushes).keys = (pushes.map Prod.fst).eraseDups ∧
    (∀ k, ((ofPushes pushes).column? k).map Prod.snd = pushes.lookup k) ∧
    (∀ s : Key × Nat, s.1 ∈ (ofPushes pushes).keys →
      (push s.1 s.2 : InPlace α ColumnTable Unit).on (ofPushes pushes)
        = (.error (.alreadyLaidOut s.1), ofPushes pushes) ∧
      (Fault.alreadyLaidOut s.1 : Fault α).kind = .duplicateKey ∧
      ofPushes (pushes ++ [s]) = ofPushes pushes) ∧
    (∀ s : Key × Nat, s.1 ∉ (ofPushes pushes).keys →
      (push s.1 s.2 : InPlace α ColumnTable Unit).on (ofPushes pushes)
        = (.ok (), ofPushes (pushes ++ [s])) ∧
      (ofPushes (pushes ++ [s])).keys = (ofPushes pushes).keys ++ [s.1] ∧
      (ofPushes (pushes ++ [s])).column? s.1 = some ((ofPushes pushes).total, s.2) ∧
      (ofPushes (pushes ++ [s])).total = (ofPushes pushes).total + s.2) ∧
    (∀ later, (ofPushes pushes).total ≤ (ofPushes (pushes ++ later)).total ∧
      ∀ k ∈ (ofPushes pushes).keys,
        (ofPushes (pushes ++ later)).column? k = (ofPushes pushes).column? k) ∧
    ∀ p : Point α,
      Places.Tile (ofPoint p).column? (ofPoint p).keys (ofPoint p).total ∧
      (ofPoint p).Represents (.ofPoint p) ∧
      p.keys.Pairwise (· < ·) ∧ (∀ k, k ∈ (ofPoint p).keys ↔ p.contains k = true) ∧
      ∃ ss : List (Key × Nat), ss.map Prod.fst = p.keys ∧
        (∀ s ∈ ss, p.dimension? s.1 = some s.2) ∧
        (pushAll ss : InPlace α ColumnTable Unit).on empty = (.ok (), ofPoint p) := by
  have hrun := represents_ofPushes pushes
  have hnext : ∀ s, ofPushes (pushes ++ [s]) = (ofPushes pushes).pushed s := ofPushes_concat pushes
  have hnew : ∀ s : Key × Nat, s.1 ∉ (ofPushes pushes).keys →
      ofPushes (pushes ++ [s]) = ((append s.1 s.2).run (ofPushes pushes)).2 := fun s hs => by
    rw [hnext, pushed, hrun.on_push, if_neg hs]
  refine ⟨hrun.tile, hrun, ?_, fun k => ?_, fun s hs => ⟨?_, rfl, ?_⟩,
    fun s hs => ⟨?_, ?_, ?_, ?_⟩, fun later => ⟨?_, fun k hk => ?_⟩, fun p => ?_⟩
  · rw [hrun.keys_eq, ColumnLayout.keys_ofPushes]
  · rw [hrun.column?_eq]
    exact ColumnLayout.dimension?_ofPushes pushes k
  · rw [hrun.on_push, if_pos hs]
  · rw [hnext, pushed, hrun.on_push, if_pos hs]
  · rw [hrun.on_push, if_neg hs, hnew s hs]
  · rw [hnew s hs, run_append]
  · rw [hnew s hs]
    exact (KeyMap.get?_insert _ s.1 _ s.1).trans (if_pos rfl)
  · rw [hnew s hs, run_append]
  · rw [ofPushes_append]
    exact total_le_total_foldl_pushed later (ofPushes pushes)
  · rw [(represents_ofPushes _).column?_eq, hrun.column?_eq, ColumnLayout.ofPushes,
      ColumnLayout.pushAll_append]
    exact ColumnLayout.column?_pushAll_of_mem later (hrun.keys_eq ▸ hk)
  · obtain ⟨hpushes, hrepresents⟩ := on_pushAll_ofPoint p
    refine ⟨hrepresents.tile, hrepresents, ColumnLayout.pairwise_keys p, fun k => ?_,
      (ColumnLayout.ofPoint p).slots, ColumnLayout.keys_ofPoint p, fun s hs => ?_, hpushes⟩
    · rw [hrepresents.keys_eq]
      exact ColumnLayout.mem_keys_ofPoint
    · rw [← ColumnLayout.dimension?_ofPoint]
      exact ColumnLayout.dimension?_of_mem hs

/-- Five pushes, the third of a key that has been pushed before. -/
def repeatedPush : List (Key × Nat) := [(10, 3), (4, 2), (10, 9), (7, 0), (5, 1)]

theorem tiled_of_repeatedPush :
    (ofPushes repeatedPush).column? 5 = some (5, 1) ∧
    (∃! k, Places.Owns (ofPushes repeatedPush).column? k 5) ∧
    (push 4 8 : InPlace Float ColumnTable Unit).on (ofPushes repeatedPush)
      = (.error (.alreadyLaidOut 4), ofPushes repeatedPush) ∧
    (ofPushes (repeatedPush ++ [(2, 6)])).column? 2 = some (6, 6) := by
  obtain ⟨htile, -, -, -, hrefused, haccepted, -⟩ := ofPushes_tiled (α := Float) repeatedPush
  exact ⟨htile.placed 3 5 rfl, htile.owned 5 (by decide), (hrefused (4, 8) (by decide)).1,
    (haccepted (2, 6) (by decide)).2.2.1⟩

end ColumnTable

end SqpInequality

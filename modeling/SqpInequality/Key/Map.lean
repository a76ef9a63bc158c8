import SqpInequality.Key

/-!
# Key/Map — values under keys

A finite map from keys is the list of its entries in strictly ascending key order, so each map has
one representation: by `ext_get?` maps with the same look-ups are equal.
-/

namespace SqpInequality

/-- A finite map from keys, as its entries in ascending key order. -/
structure KeyMap (β : Type) where
  /-- The keys with their values. -/
  entries : List (Key × β)
  /-- Keys ascend strictly, so none occurs twice. -/
  ascending : entries.Pairwise fun a b => a.1 < b.1

namespace KeyMap

variable {β : Type}

/-! ## Entries in ascending order -/

/-- Puts a value under a key, in place of the value that was there. -/
def insertEntry (k : Key) (v : β) : List (Key × β) → List (Key × β)
  | [] => [(k, v)]
  | e :: rest =>
    if k < e.1 then (k, v) :: e :: rest
    else if k = e.1 then (k, v) :: rest
    else e :: insertEntry k v rest

theorem mem_insertEntry {k : Key} {v : β} {e : Key × β} :
    ∀ {es : List (Key × β)}, e ∈ insertEntry k v es → e = (k, v) ∨ e ∈ es
  | [], h => by simpa [insertEntry] using h
  | a :: rest, h => by
    rw [insertEntry] at h
    split at h
    · simpa using h
    · split at h
      · rcases List.mem_cons.mp h with h | h
        · exact Or.inl h
        · exact Or.inr (List.mem_cons_of_mem _ h)
      · rcases List.mem_cons.mp h with rfl | h
        · exact Or.inr List.mem_cons_self
        · exact (mem_insertEntry h).imp_right (List.mem_cons_of_mem _)

theorem pairwise_insertEntry (k : Key) (v : β) :
    ∀ {es : List (Key × β)}, es.Pairwise (fun a b => a.1 < b.1) →
      (insertEntry k v es).Pairwise fun a b => a.1 < b.1
  | [], _ => List.pairwise_singleton _ _
  | a :: rest, h => by
    obtain ⟨ha, hrest⟩ := List.pairwise_cons.mp h
    rw [insertEntry]
    split
    · rename_i hlt
      refine List.pairwise_cons.mpr ⟨fun e he => ?_, h⟩
      rcases List.mem_cons.mp he with rfl | he
      · exact hlt
      · exact UInt64.lt_trans hlt (ha e he)
    · split
      · rename_i heq
        exact List.pairwise_cons.mpr ⟨fun e he => heq ▸ ha e he, hrest⟩
      · rename_i hge hne
        refine List.pairwise_cons.mpr ⟨fun e he => ?_, pairwise_insertEntry k v hrest⟩
        rcases mem_insertEntry he with rfl | he
        · exact UInt64.lt_of_le_of_ne (UInt64.not_lt.mp hge) (Ne.symm hne)
        · exact ha e he

/-! ## Operations -/

/-- The map without entries. -/
def empty : KeyMap β := ⟨[], List.Pairwise.nil⟩

/-- The value under a key, if there is one. -/
def get? (m : KeyMap β) (k : Key) : Option β := m.entries.lookup k

/-- Whether a key has a value. -/
def contains (m : KeyMap β) (k : Key) : Bool := (m.get? k).isSome

/-- Puts a value under a key, in place of the value that was there. -/
def insert (m : KeyMap β) (k : Key) (v : β) : KeyMap β :=
  ⟨insertEntry k v m.entries, pairwise_insertEntry k v m.ascending⟩

/-- Removes a key and its value. -/
def erase (m : KeyMap β) (k : Key) : KeyMap β :=
  ⟨m.entries.filter fun e => e.1 != k, m.ascending.filter _⟩

/-- The keys that have a value, in ascending order. -/
def keys (m : KeyMap β) : List Key := m.entries.map Prod.fst

/-- How many keys have a value. -/
def size (m : KeyMap β) : Nat := m.entries.length

/-- The map of a list of entries; of two entries with one key the later counts. -/
def ofList (es : List (Key × β)) : KeyMap β := es.foldl (fun m e => m.insert e.1 e.2) empty

instance [BEq β] : BEq (KeyMap β) := ⟨fun m n => m.entries == n.entries⟩

/-! ## Look-up after each operation -/

theorem lookup_cons_self (k : Key) (v : β) (es : List (Key × β)) :
    ((k, v) :: es).lookup k = some v := List.lookup_cons_self

theorem lookup_cons_ne {k k' : Key} (h : k' ≠ k) (v : β) (es : List (Key × β)) :
    ((k, v) :: es).lookup k' = es.lookup k' := by
  rw [List.lookup_cons, beq_eq_false_iff_ne.mpr h]

theorem lookup_insertEntry (k : Key) (v : β) (k' : Key) :
    ∀ es : List (Key × β),
      (insertEntry k v es).lookup k' = if k' = k then some v else es.lookup k'
  | [] => by
    by_cases h : k' = k
    · rw [if_pos h, h, insertEntry, lookup_cons_self]
    · rw [if_neg h, insertEntry, lookup_cons_ne h]
  | (a, w) :: rest => by
    rw [insertEntry]
    split
    · by_cases h : k' = k
      · rw [if_pos h, h, lookup_cons_self]
      · rw [if_neg h, lookup_cons_ne h]
    · split
      · rename_i heq
        obtain rfl : k = a := heq
        by_cases h : k' = k
        · rw [if_pos h, h, lookup_cons_self]
        · rw [if_neg h, lookup_cons_ne h, lookup_cons_ne h]
      · rename_i hne
        by_cases ha : k' = a
        · rw [ha, lookup_cons_self, lookup_cons_self, if_neg (Ne.symm hne)]
        · rw [lookup_cons_ne ha, lookup_cons_ne ha, lookup_insertEntry k v k' rest]

@[simp] theorem get?_empty (k : Key) : (empty : KeyMap β).get? k = none := rfl

/-- A write is seen under its key and nowhere else. -/
theorem get?_insert (m : KeyMap β) (k : Key) (v : β) (k' : Key) :
    (m.insert k v).get? k' = if k' = k then some v else m.get? k' :=
  lookup_insertEntry k v k' m.entries

theorem lookup_filter_ne (k k' : Key) :
    ∀ es : List (Key × β),
      (es.filter fun e => e.1 != k).lookup k' = if k' = k then none else es.lookup k'
  | [] => by simp
  | (a, w) :: rest => by
    have ih := lookup_filter_ne k k' rest
    by_cases ha : a = k
    · rw [List.filter_cons_of_neg (by simp [ha]), ih]
      by_cases h : k' = k
      · rw [if_pos h, if_pos h]
      · rw [if_neg h, if_neg h, lookup_cons_ne (ha ▸ h)]
    · rw [List.filter_cons_of_pos (by simp [ha])]
      by_cases h : k' = a
      · rw [h, lookup_cons_self, lookup_cons_self, if_neg ha]
      · rw [lookup_cons_ne h, lookup_cons_ne h, ih]

/-- A removal is seen under its key and nowhere else. -/
theorem get?_erase (m : KeyMap β) (k k' : Key) :
    (m.erase k).get? k' = if k' = k then none else m.get? k' :=
  lookup_filter_ne k k' m.entries

/-! ## One representation for each map -/

theorem lookup_eq_none {k : Key} {es : List (Key × β)} (h : ∀ e ∈ es, k < e.1) :
    es.lookup k = none := by
  rw [List.lookup_eq_none_iff]
  intro e he
  exact bne_iff_ne.mpr (UInt64.ne_of_lt (h e he))

theorem eq_of_lookup_eq : ∀ {es fs : List (Key × β)},
    es.Pairwise (fun a b => a.1 < b.1) → fs.Pairwise (fun a b => a.1 < b.1) →
    (∀ k, es.lookup k = fs.lookup k) → es = fs
  | [], [], _, _, _ => rfl
  | [], (b, w) :: fs, _, _, h => by simpa [lookup_cons_self] using h b
  | (a, v) :: es, [], _, _, h => by simpa [lookup_cons_self] using h a
  | (a, v) :: es, (b, w) :: fs, hes, hfs, h => by
    obtain ⟨hea, hes'⟩ := List.pairwise_cons.mp hes
    obtain ⟨hfb, hfs'⟩ := List.pairwise_cons.mp hfs
    have hab : a = b := by
      rcases Std.lt_trichotomy a b with hlt | heq | hgt
      · have := h a
        rw [lookup_cons_self, lookup_cons_ne (UInt64.ne_of_lt hlt),
          lookup_eq_none fun e he => UInt64.lt_trans hlt (hfb e he)] at this
        contradiction
      · exact heq
      · have := h b
        rw [lookup_cons_self, lookup_cons_ne (UInt64.ne_of_lt hgt),
          lookup_eq_none fun e he => UInt64.lt_trans hgt (hea e he)] at this
        contradiction
    subst hab
    have hvw : v = w := by
      have := h a
      rw [lookup_cons_self, lookup_cons_self] at this
      exact Option.some.inj this
    subst hvw
    congr 1
    refine eq_of_lookup_eq hes' hfs' fun k => ?_
    by_cases hk : k = a
    · rw [hk, lookup_eq_none hea, lookup_eq_none hfb]
    · have := h k
      rwa [lookup_cons_ne hk, lookup_cons_ne hk] at this

/-- **Maps with the same look-ups are equal.** -/
theorem ext_get? {m n : KeyMap β} (h : ∀ k, m.get? k = n.get? k) : m = n := by
  obtain ⟨es, hes⟩ := m
  obtain ⟨fs, hfs⟩ := n
  obtain rfl : es = fs := eq_of_lookup_eq hes hfs h
  rfl

/-! ## Entries in any order -/

/-- No key occurs twice. -/
theorem nodup_keys (m : KeyMap β) : m.keys.Nodup :=
  List.pairwise_map.mpr (m.ascending.imp UInt64.ne_of_lt)

theorem lookup_eq_none_iff {k : Key} {es : List (Key × β)} :
    es.lookup k = none ↔ k ∉ es.map Prod.fst := by
  rw [List.lookup_eq_none_iff, List.mem_map]
  constructor
  · rintro h ⟨e, he, rfl⟩
    exact bne_iff_ne.mp (h e he) rfl
  · exact fun h e he => bne_iff_ne.mpr fun heq => h ⟨e, he, heq.symm⟩

/-- Where no key occurs twice, an entry is found under its key. -/
theorem lookup_eq_some_iff_mem {k : Key} {v : β} : ∀ {es : List (Key × β)},
    (es.map Prod.fst).Nodup → (es.lookup k = some v ↔ (k, v) ∈ es)
  | [], _ => iff_of_false nofun List.not_mem_nil
  | (a, w) :: rest, h => by
    obtain ⟨ha, hrest⟩ := List.nodup_cons.mp h
    rw [List.mem_cons, Prod.mk.injEq]
    by_cases hk : k = a
    · subst hk
      rw [lookup_cons_self, Option.some.injEq]
      refine ⟨fun heq => Or.inl ⟨rfl, heq.symm⟩, ?_⟩
      rintro (⟨-, heq⟩ | hmem)
      · exact heq.symm
      · exact absurd (List.mem_map_of_mem hmem) ha
    · rw [lookup_cons_ne hk, lookup_eq_some_iff_mem hrest]
      exact ⟨Or.inr, fun hmem => hmem.resolve_left fun heq => hk heq.1⟩

/-- **Where no key occurs twice, look-ups do not depend on the order of the entries.** -/
theorem lookup_eq_of_perm {es fs : List (Key × β)} (h : es.Perm fs)
    (hfs : (fs.map Prod.fst).Nodup) (k : Key) : es.lookup k = fs.lookup k := by
  have hes : (es.map Prod.fst).Nodup := (h.map Prod.fst).nodup_iff.mpr hfs
  refine Option.ext fun v => ?_
  rw [lookup_eq_some_iff_mem hes, lookup_eq_some_iff_mem hfs, h.mem_iff]

end KeyMap

end SqpInequality

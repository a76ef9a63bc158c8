import Mathlib
import SqpInequality.Proofs.Point.Dimension

/-!
# Proofs/Linear/Tiling — every column belongs to one key

A layout is built by pushes, and a push of a key that is listed already is refused:

    pushes    (k₀, d₀)   (k₁, d₁)   (k₀, e)   (k₂, d₂)
    columns   | k₀ : d₀ columns | k₁ : d₁ columns | k₂ : d₂ columns |

Whatever has been pushed, the keys tile the columns (`ColumnLayout.tile`): those of a key follow
those of the keys before it, and together they are all columns.  A run of pushes lists each key
once, with the dimension that it was pushed with first (`ColumnLayout.keys_ofPushes`,
`ColumnLayout.dimension?_ofPushes`).  The layout of a point is such a run without a refusal
(`ColumnLayout.foldlM_push_ofPoint`).
-/

namespace SqpInequality

/-! ## What it is to tile columns -/

/-- The first column of each key and the number of its columns, for the keys that have a place. -/
abbrev Places : Type := Key → Option (Nat × Nat)

namespace Places

/-- How many columns a key owns, none if it has no place. -/
def width (places : Places) (k : Key) : Nat := ((places k).map Prod.snd).getD 0

/-- **A column belongs to a key**: it is one of the key's columns. -/
def Owns (places : Places) (k : Key) (n : Nat) : Prop :=
  ∃ o d, places k = some (o, d) ∧ o ≤ n ∧ n < o + d

/-- **Keys tile columns**: each key is listed once, and owns columns right behind those of the keys
before it, and no column is without a key or has two. -/
structure Tile (places : Places) (keys : List Key) (total : Nat) : Prop where
  /-- No key is listed twice. -/
  nodup : keys.Nodup
  /-- The keys that are listed are those that have a place. -/
  listed : ∀ k, (places k).isSome ↔ k ∈ keys
  /-- The columns of a key follow those of the keys before it. -/
  placed : ∀ j k, keys[j]? = some k →
    places k = some (((keys.take j).map places.width).sum, places.width k)
  /-- There are as many columns as the keys own together. -/
  total_eq : total = (keys.map places.width).sum
  /-- Columns of different keys are apart. -/
  apart : ∀ j k o d a e, j ≠ k → places j = some (o, d) → places k = some (a, e) →
    o + d ≤ a ∨ a + e ≤ o
  /-- Every column belongs to one key. -/
  owned : ∀ n, n < total → ∃! k, places.Owns k n
  /-- What belongs to a key is a column. -/
  inside : ∀ k n, places.Owns k n → n < total

end Places

namespace ColumnLayout

/-! ## The columns of one layout -/

theorem columns_eq_sum (slots : List (Key × Nat)) : columns slots = (slots.map Prod.snd).sum := by
  rw [columns, List.sum, List.foldr_map]

/-- Without repetitions, the slot at a position starts behind the slots before it. -/
theorem locate?_of_getElem? : ∀ {slots : List (Key × Nat)} {start j : Nat} {k : Key} {d : Nat},
    (slots.map Prod.fst).Nodup → slots[j]? = some (k, d) →
      locate? k start slots = some (start + columns (slots.take j), d)
  | (i, e) :: rest, start, 0, k, d, _, hj => by
    obtain ⟨rfl, rfl⟩ := Prod.mk.inj (Option.some.inj hj)
    exact locate?_cons_self i start e rest
  | (i, e) :: rest, start, j + 1, k, d, hdistinct, hj => by
    obtain ⟨hi, hrest⟩ := List.nodup_cons.mp hdistinct
    rw [List.getElem?_cons_succ] at hj
    have hk : k ∈ rest.map Prod.fst := List.mem_map_of_mem (List.mem_of_getElem? hj)
    have hik : i ≠ k := fun h => hi (h ▸ hk)
    rw [locate?_cons_ne hik, locate?_of_getElem? hrest hj, List.take_succ_cons, columns_cons,
      Nat.add_assoc]

theorem column?_of_getElem?_slots {l : ColumnLayout} {j : Nat} {k : Key} {d : Nat}
    (h : l.slots[j]? = some (k, d)) : l.column? k = some (columns (l.slots.take j), d) := by
  rw [column?, locate?_of_getElem? l.distinct h, Nat.zero_add]

theorem dimension?_of_mem {l : ColumnLayout} {s : Key × Nat} (h : s ∈ l.slots) :
    l.dimension? s.1 = some s.2 := by
  obtain ⟨j, hj⟩ := List.getElem?_of_mem h
  exact dimension?_eq_some_iff.mpr ⟨_, column?_of_getElem?_slots hj⟩

theorem width_of_mem {l : ColumnLayout} {s : Key × Nat} (h : s ∈ l.slots) :
    Places.width l.column? s.1 = s.2 := by
  change (l.dimension? s.1).getD 0 = s.2
  rw [dimension?_of_mem h, Option.getD_some]

/-- The widths of the keys are what is listed with them. -/
theorem map_width_keys (l : ColumnLayout) :
    l.keys.map (Places.width l.column?) = l.slots.map Prod.snd := by
  rw [keys, List.map_map]
  exact List.map_congr_left fun s hs => width_of_mem hs

/-- The columns in front of a position are those of the keys before it. -/
theorem columns_take_slots (l : ColumnLayout) (j : Nat) :
    columns (l.slots.take j) = ((l.keys.take j).map (Places.width l.column?)).sum := by
  rw [columns_eq_sum, List.map_take, ← map_width_keys, ← List.map_take]

theorem total_eq_sum (l : ColumnLayout) :
    l.total = (l.keys.map (Places.width l.column?)).sum := by
  rw [map_width_keys, ← columns_eq_sum]
  rfl

theorem mem_keys_of_column? {l : ColumnLayout} {k : Key} {o d : Nat}
    (h : l.column? k = some (o, d)) : k ∈ l.keys := List.mem_map_of_mem (locate?_bounds h).1

/-- **The columns of a key follow those of the keys before it.** -/
theorem column?_of_getElem?_keys {l : ColumnLayout} {j : Nat} {k : Key}
    (h : l.keys[j]? = some k) :
    l.column? k = some (((l.keys.take j).map (Places.width l.column?)).sum,
      Places.width l.column? k) := by
  rw [keys, List.getElem?_map] at h
  obtain ⟨⟨_, d⟩, hj, rfl⟩ := Option.map_eq_some_iff.mp h
  rw [column?_of_getElem?_slots hj, columns_take_slots, width_of_mem (List.mem_of_getElem? hj)]

/-- A key has columns, perhaps none of them, exactly if it is listed. -/
theorem isSome_column?_iff {l : ColumnLayout} {k : Key} : (l.column? k).isSome ↔ k ∈ l.keys := by
  rw [Option.isSome_iff_exists]
  constructor
  · rintro ⟨⟨o, d⟩, h⟩
    exact mem_keys_of_column? h
  · intro h
    obtain ⟨j, hj⟩ := List.getElem?_of_mem h
    exact ⟨_, column?_of_getElem?_keys hj⟩

/-- Between the start and the end of the slots each column belongs to one of them. -/
theorem exists_locate?_of_lt : ∀ {slots : List (Key × Nat)} {start n : Nat},
    (slots.map Prod.fst).Nodup → start ≤ n → n < start + columns slots →
      ∃ k o d, locate? k start slots = some (o, d) ∧ o ≤ n ∧ n < o + d
  | [], start, n, _, hstart, hend => absurd hend (Nat.not_lt.mpr hstart)
  | (i, e) :: rest, start, n, hdistinct, hstart, hend => by
    obtain ⟨hi, hrest⟩ := List.nodup_cons.mp hdistinct
    by_cases hn : n < start + e
    · exact ⟨i, start, e, locate?_cons_self i start e rest, hstart, hn⟩
    · have hstart' : start + e ≤ n := Nat.not_lt.mp hn
      have hend' : n < start + e + columns rest := by
        rw [columns_cons] at hend
        omega
      obtain ⟨k, o, d, hk, ho, hd⟩ := exists_locate?_of_lt hrest hstart' hend'
      have hmem : k ∈ rest.map Prod.fst := List.mem_map_of_mem (locate?_bounds hk).1
      have hik : i ≠ k := fun h => hi (h ▸ hmem)
      exact ⟨k, o, d, (locate?_cons_ne hik start e rest).trans hk, ho, hd⟩

/-- **Columns of different keys are apart.** -/
theorem disjoint_of_ne {l : ColumnLayout} {j k : Key} {o d a e : Nat} (hjk : j ≠ k)
    (hj : l.column? j = some (o, d)) (hk : l.column? k = some (a, e)) : o + d ≤ a ∨ a + e ≤ o :=
  locate?_disjoint hjk hj hk

/-- **Every column belongs to exactly one key.** -/
theorem existsUnique_owns {l : ColumnLayout} {n : Nat} (h : n < l.total) :
    ∃! k, Places.Owns l.column? k n := by
  have hend : n < 0 + columns l.slots := (Nat.zero_add _).symm ▸ h
  obtain ⟨k, o, d, hk, ho, hd⟩ := exists_locate?_of_lt l.distinct (Nat.zero_le n) hend
  refine ⟨k, ⟨o, d, hk, ho, hd⟩, ?_⟩
  rintro j ⟨a, e, hj, ha, he⟩
  by_contra hjk
  have hdisjoint := disjoint_of_ne hjk hj hk
  omega

theorem lt_total_of_owns {l : ColumnLayout} {k : Key} {n : Nat}
    (h : Places.Owns l.column? k n) : n < l.total := by
  obtain ⟨o, d, hk, -, hd⟩ := h
  exact Nat.lt_of_lt_of_le hd (column?_bounds hk)

/-- **The keys of every layout tile its columns.** -/
theorem tile (l : ColumnLayout) : Places.Tile l.column? l.keys l.total where
  nodup := l.distinct
  listed _ := isSome_column?_iff
  placed _ _ := column?_of_getElem?_keys
  total_eq := l.total_eq_sum
  apart _ _ _ _ _ _ := disjoint_of_ne
  owned _ := existsUnique_owns
  inside _ _ := lt_total_of_owns

/-! ## One push -/

/-- The layout that lists a key as well, behind all others unless it is listed already. -/
def pushed (l : ColumnLayout) (s : Key × Nat) : ColumnLayout :=
  if h : s.1 ∈ l.slots.map Prod.fst then l
  else ⟨l.slots ++ [s], nodup_push s.2 l.distinct h⟩

theorem pushed_of_mem {l : ColumnLayout} {s : Key × Nat} (h : s.1 ∈ l.keys) :
    l.pushed s = l := dif_pos h

theorem pushed_of_not_mem {l : ColumnLayout} {s : Key × Nat} (h : s.1 ∉ l.keys) :
    l.pushed s = ⟨l.slots ++ [s], nodup_push s.2 l.distinct h⟩ := dif_neg h

theorem slots_pushed {l : ColumnLayout} {s : Key × Nat} (h : s.1 ∉ l.keys) :
    (l.pushed s).slots = l.slots ++ [s] := by
  rw [pushed_of_not_mem h]

/-- A push is refused exactly if its key is listed already. -/
theorem push_eq {α : Type} (l : ColumnLayout) (s : Key × Nat) :
    (l.push s.1 s.2 : Except (Fault α) ColumnLayout)
      = if s.1 ∈ l.keys then .error (.alreadyLaidOut s.1) else .ok (l.pushed s) := by
  by_cases h : s.1 ∈ l.keys
  · rw [if_pos h]
    exact dif_pos h
  · rw [if_neg h, pushed_of_not_mem h]
    exact dif_neg h

theorem keys_pushed (l : ColumnLayout) (s : Key × Nat) :
    (l.pushed s).keys = if s.1 ∈ l.keys then l.keys else l.keys ++ [s.1] := by
  by_cases h : s.1 ∈ l.keys
  · rw [if_pos h, pushed_of_mem h]
  · rw [if_neg h, keys, slots_pushed h, List.map_append]
    rfl

theorem locate?_append (k : Key) (s : Key × Nat) : ∀ (slots : List (Key × Nat)) (start : Nat),
    locate? k start (slots ++ [s])
      = (locate? k start slots).or (locate? k (start + columns slots) [s])
  | [], _ => rfl
  | (i, e) :: rest, start => by
    rw [List.cons_append]
    by_cases hik : i = k
    · subst hik
      rw [locate?_cons_self, locate?_cons_self]
      rfl
    · rw [locate?_cons_ne hik, locate?_cons_ne hik, locate?_append k s rest, columns_cons,
        Nat.add_assoc]

theorem column?_eq_none {l : ColumnLayout} {k : Key} (h : k ∉ l.keys) : l.column? k = none := by
  rwa [← Option.not_isSome_iff_eq_none, isSome_column?_iff]

/-- **A push moves no key that is listed, and a new key owns the columns behind all others.** -/
theorem column?_pushed {l : ColumnLayout} {s : Key × Nat} (h : s.1 ∉ l.keys) (k : Key) :
    (l.pushed s).column? k = if k = s.1 then some (l.total, s.2) else l.column? k := by
  have happend : (l.pushed s).column? k = (l.column? k).or (locate? k l.total [s]) := by
    rw [column?, slots_pushed h, locate?_append, Nat.zero_add]
    rfl
  rw [happend]
  by_cases hk : k = s.1
  · subst hk
    rw [if_pos rfl, column?_eq_none h, Option.none_or]
    exact locate?_cons_self _ _ _ _
  · have hnone : locate? k l.total [s] = none := locate?_cons_ne (Ne.symm hk) _ _ _
    rw [if_neg hk, hnone, Option.or_none]

theorem column?_pushed_of_mem {l : ColumnLayout} {k : Key} (h : k ∈ l.keys) (s : Key × Nat) :
    (l.pushed s).column? k = l.column? k := by
  by_cases hs : s.1 ∈ l.keys
  · rw [pushed_of_mem hs]
  · rw [column?_pushed hs, if_neg]
    rintro rfl
    exact hs h

/-- A push gives a dimension to its key if the key has none. -/
theorem dimension?_pushed (l : ColumnLayout) (s : Key × Nat) (k : Key) :
    (l.pushed s).dimension? k = (l.dimension? k).or ([s].lookup k) := by
  by_cases hs : s.1 ∈ l.keys
  · rw [pushed_of_mem hs]
    by_cases hk : k = s.1
    · obtain ⟨c, hc⟩ := Option.isSome_iff_exists.mp (isSome_column?_iff.mpr (hk ▸ hs))
      rw [dimension?, hc]
      rfl
    · rw [KeyMap.lookup_cons_ne hk, List.lookup_nil, Option.or_none]
  · rw [dimension?, column?_pushed hs]
    by_cases hk : k = s.1
    · subst hk
      rw [if_pos rfl, dimension?, column?_eq_none hs, KeyMap.lookup_cons_self]
      rfl
    · rw [if_neg hk, KeyMap.lookup_cons_ne hk, List.lookup_nil, Option.or_none]
      rfl

theorem total_pushed {l : ColumnLayout} {s : Key × Nat} (h : s.1 ∉ l.keys) :
    (l.pushed s).total = l.total + s.2 := by
  change columns (l.pushed s).slots = columns l.slots + s.2
  rw [slots_pushed h, columns_eq_sum, columns_eq_sum, List.map_append, List.sum_append]
  rfl

/-! ## Any number of pushes -/

/-- The layout after some pushes, of which some may be refused. -/
def pushAll (l : ColumnLayout) (pushes : List (Key × Nat)) : ColumnLayout := pushes.foldl pushed l

/-- The layout that pushes lead to from the one without columns. -/
def ofPushes (pushes : List (Key × Nat)) : ColumnLayout := empty.pushAll pushes

theorem pushAll_concat (l : ColumnLayout) (pushes : List (Key × Nat)) (s : Key × Nat) :
    l.pushAll (pushes ++ [s]) = (l.pushAll pushes).pushed s := List.foldl_concat ..

/-- **No run of pushes moves or resizes a key that is listed.** -/
theorem column?_pushAll_of_mem : ∀ (pushes : List (Key × Nat)) {l : ColumnLayout} {k : Key},
    k ∈ l.keys → (l.pushAll pushes).column? k = l.column? k
  | [], _, _, _ => rfl
  | s :: rest, l, k, h => by
    have hkept := column?_pushed_of_mem h s
    have hmem : k ∈ (l.pushed s).keys := by
      rw [← isSome_column?_iff, hkept]
      exact isSome_column?_iff.mpr h
    rw [← hkept]
    exact column?_pushAll_of_mem rest hmem

theorem eraseDups_concat (ks : List Key) (k : Key) :
    (ks ++ [k]).eraseDups = if k ∈ ks then ks.eraseDups else ks.eraseDups ++ [k] := by
  rw [List.eraseDups_append]
  by_cases h : k ∈ ks
  · rw [if_pos h, List.removeAll, List.filter_cons_of_neg (by simp [h]), List.filter_nil,
      List.eraseDups_nil, List.append_nil]
  · rw [if_neg h, List.removeAll, List.filter_cons_of_pos (by simp [h]), List.filter_nil]
    rfl

/-- **A run of pushes lists the keys in the order of their first pushes.** -/
theorem keys_ofPushes (pushes : List (Key × Nat)) :
    (ofPushes pushes).keys = (pushes.map Prod.fst).eraseDups := by
  induction pushes using List.reverseRecOn with
  | nil => rfl
  | append_singleton pushes s ih =>
    rw [ofPushes, pushAll_concat, ← ofPushes, keys_pushed, List.map_append, List.map_singleton,
      eraseDups_concat]
    simp only [ih, List.mem_eraseDups]

/-- **A run of pushes gives to each key the dimension of its first push.** -/
theorem dimension?_ofPushes (pushes : List (Key × Nat)) (k : Key) :
    (ofPushes pushes).dimension? k = pushes.lookup k := by
  induction pushes using List.reverseRecOn with
  | nil => rfl
  | append_singleton pushes s ih =>
    rw [ofPushes, pushAll_concat, ← ofPushes, dimension?_pushed, ih, List.lookup_append]

theorem pushAll_append (l : ColumnLayout) (pushes later : List (Key × Nat)) :
    l.pushAll (pushes ++ later) = (l.pushAll pushes).pushAll later := List.foldl_append ..

/-! ## The layout of a point -/

variable {α : Type}

/-- Pushes of different new keys are all accepted. -/
theorem foldlM_push_of_nodup : ∀ {ss : List (Key × Nat)} {l : ColumnLayout}
    (h : ((l.slots ++ ss).map Prod.fst).Nodup),
    ss.foldlM (fun l s => l.push s.1 s.2) l
      = (.ok ⟨l.slots ++ ss, h⟩ : Except (Fault α) ColumnLayout)
  | [], l, h => by
    simp only [List.append_nil]
    rfl
  | s :: rest, l, h => by
    have hnew : s.1 ∉ l.keys := by
      rw [List.map_append, List.nodup_append] at h
      exact fun hs => h.2.2 s.1 hs s.1 List.mem_cons_self rfl
    have hshift : l.slots ++ s :: rest = l.slots ++ [s] ++ rest := List.append_cons ..
    rw [List.foldlM_cons, push_eq, if_neg hnew, pushed_of_not_mem hnew]
    simp only [hshift]
    exact foldlM_push_of_nodup (hshift ▸ h)

/-- **The layout of a point is a run of pushes, all of which are accepted.** -/
theorem foldlM_push_ofPoint (p : Point α) :
    (ofPoint p).slots.foldlM (fun l s => l.push s.1 s.2) empty
      = (.ok (ofPoint p) : Except (Fault α) ColumnLayout) := by
  have hdistinct : ((empty.slots ++ (ofPoint p).slots).map Prod.fst).Nodup := (ofPoint p).distinct
  exact foldlM_push_of_nodup hdistinct

theorem keys_ofPoint (p : Point α) : (ofPoint p).keys = p.keys := List.map_map ..

theorem mem_keys_ofPoint {p : Point α} {k : Key} : k ∈ (ofPoint p).keys ↔ p.contains k = true := by
  rw [← isSome_column?_iff, ← Option.isSome_map (f := Prod.snd)]
  change ((ofPoint p).dimension? k).isSome = true ↔ (p.get? k).isSome = true
  rw [dimension?_ofPoint, Point.dimension?, Option.isSome_map]

theorem pairwise_keys (p : Point α) : p.keys.Pairwise (· < ·) :=
  List.pairwise_map.mpr p.values.ascending

end ColumnLayout

end SqpInequality

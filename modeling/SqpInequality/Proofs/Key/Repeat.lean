import Mathlib.Data.List.Nodup
import SqpInequality.Key.Repeat

/-!
# Proofs/Key/Repeat — the first key to repeat

A key repeats at a position if it stands there and at an earlier position.  A scan from the front
stops at the least position where a key does:

    k₀ … kᵢ … kⱼ₋₁       kⱼ = kᵢ      …
    └─ all distinct ─┘   the first key to repeat, whatever comes behind it

So `firstRepeat?` finds a key exactly if two positions hold the same one, and then the key at the
least position that equals an earlier one (`firstRepeat?_eq_some_iff`).
-/

namespace SqpInequality

namespace Key

/-- **A key repeats at a position**: it stands there, and at an earlier position. -/
def RepeatsAt (ks : List Key) (j : Nat) (k : Key) : Prop :=
  ks[j]? = some k ∧ ∃ i < j, ks[i]? = some k

/-- **The first key to repeat**: the one at the least position where a key does. -/
def FirstToRepeat (ks : List Key) (k : Key) : Prop :=
  ∃ j, RepeatsAt ks j k ∧ ∀ i < j, ∀ k', ¬ RepeatsAt ks i k'

/-! ## Positions and prefixes -/

theorem mem_take_iff {ks : List Key} {j : Nat} {k : Key} :
    k ∈ ks.take j ↔ ∃ i < j, ks[i]? = some k := by
  simp only [List.mem_iff_getElem?, List.getElem?_take, Option.ite_none_right_eq_some]

theorem repeatsAt_iff_mem_take {ks : List Key} {j : Nat} {k : Key} :
    RepeatsAt ks j k ↔ ks[j]? = some k ∧ k ∈ ks.take j := by
  rw [RepeatsAt, mem_take_iff]

/-- A key repeats within a prefix where it repeats in the list. -/
theorem repeatsAt_take_iff {ks : List Key} {n j : Nat} {k : Key} :
    RepeatsAt (ks.take n) j k ↔ j < n ∧ RepeatsAt ks j k := by
  simp only [RepeatsAt, List.getElem?_take, Option.ite_none_right_eq_some]
  constructor
  · rintro ⟨⟨hj, hk⟩, i, hi, -, hki⟩
    exact ⟨hj, hk, i, hi, hki⟩
  · rintro ⟨hj, hk, i, hi, hki⟩
    exact ⟨⟨hj, hk⟩, i, hi, Nat.lt_trans hi hj, hki⟩

/-- **The keys of a list are distinct exactly if none repeats.** -/
theorem nodup_iff_not_repeatsAt {ks : List Key} :
    ks.Nodup ↔ ¬ ∃ j k, RepeatsAt ks j k := by
  rw [List.nodup_iff_getElem?_ne_getElem?]
  constructor
  · rintro h ⟨j, k, hj, i, hi, hki⟩
    exact h i j hi (List.getElem?_eq_some_iff.mp hj).1 (hki.trans hj.symm)
  · intro h i j hi hj heq
    have hk : ks[j]? = some ks[j] := List.getElem?_eq_getElem hj
    exact h ⟨j, ks[j], hk, i, hi, heq.trans hk⟩

/-- The first key to repeat stands behind distinct keys and is one of them. -/
theorem firstToRepeat_iff {ks : List Key} {k : Key} :
    FirstToRepeat ks k ↔ ∃ j : Nat, ks[j]? = some k ∧ (ks.take j).Nodup ∧ k ∈ ks.take j := by
  refine exists_congr fun j => ?_
  have hbefore : (∀ i < j, ∀ k', ¬ RepeatsAt ks i k') ↔ (ks.take j).Nodup := by
    simp only [nodup_iff_not_repeatsAt, repeatsAt_take_iff, not_exists, not_and]
    exact ⟨fun h i k' hi => h i hi k', fun h i hi k' => h i k' hi⟩
  rw [hbefore, repeatsAt_iff_mem_take, and_assoc, and_comm (a := k ∈ _)]

/-! ## The scan -/

/-- A scan finds no key exactly if the keys are distinct, from one another and from those seen. -/
theorem firstRepeat?_eq_none_iff {seen ks : List Key} :
    firstRepeat? seen ks = none ↔ ks.Nodup ∧ ∀ k ∈ ks, k ∉ seen :=
  ⟨nodup_of_firstRepeat?_eq_none, fun h => firstRepeat?_eq_none h.1 h.2⟩

/-- **A scan finds the key at which it stops**: it found none before, and this one was seen. -/
theorem firstRepeat?_eq_some_iff_take {k : Key} : ∀ {seen ks : List Key},
    firstRepeat? seen ks = some k ↔ ∃ j : Nat, ks[j]? = some k ∧
      firstRepeat? seen (ks.take j) = none ∧ (k ∈ seen ∨ k ∈ ks.take j)
  | _, [] => by
    refine ⟨fun h => (nomatch h), ?_⟩
    rintro ⟨j, hj, -⟩
    exact (nomatch hj)
  | seen, x :: rest => by
    rw [firstRepeat?]
    by_cases hx : x ∈ seen
    · rw [if_pos hx]
      constructor
      · intro h
        obtain rfl := Option.some.inj h
        exact ⟨0, rfl, rfl, Or.inl hx⟩
      · rintro ⟨j, hj, hbefore, -⟩
        cases j with
        | zero => exact hj
        | succ j =>
          -- the scan would have stopped at the first key
          rw [List.take_succ_cons, firstRepeat?, if_pos hx] at hbefore
          contradiction
    · rw [if_neg hx, firstRepeat?_eq_some_iff_take]
      constructor
      · rintro ⟨j, hj, hbefore, hseen⟩
        refine ⟨j + 1, hj, ?_, ?_⟩
        · rw [List.take_succ_cons, firstRepeat?, if_neg hx, hbefore]
        · rw [List.take_succ_cons, List.mem_cons, or_left_comm]
          rwa [List.mem_cons, or_assoc] at hseen
      · rintro ⟨j, hj, hbefore, hseen⟩
        cases j with
        | zero =>
          obtain rfl := Option.some.inj hj
          exact absurd (hseen.resolve_right List.not_mem_nil) hx
        | succ j =>
          rw [List.take_succ_cons, firstRepeat?, if_neg hx] at hbefore
          rw [List.take_succ_cons, List.mem_cons, or_left_comm] at hseen
          refine ⟨j, hj, hbefore, ?_⟩
          rwa [List.mem_cons, or_assoc]

/-- **A scan finds the first key to repeat.** -/
theorem firstRepeat?_eq_some_iff {ks : List Key} {k : Key} :
    firstRepeat? [] ks = some k ↔ FirstToRepeat ks k := by
  rw [firstRepeat?_eq_some_iff_take, firstToRepeat_iff]
  simp only [firstRepeat?_eq_none_iff, List.not_mem_nil, not_false_eq_true, implies_true, and_true,
    false_or]

/-- Where a key repeats, one is the first to. -/
theorem exists_firstToRepeat_iff {ks : List Key} :
    (∃ k, FirstToRepeat ks k) ↔ ∃ j k, RepeatsAt ks j k := by
  constructor
  · rintro ⟨k, j, hj, -⟩
    exact ⟨j, k, hj⟩
  · intro h
    have hsome : firstRepeat? [] ks ≠ none := fun hnone =>
      nodup_iff_not_repeatsAt.mp (firstRepeat?_eq_none_iff.mp hnone).1 h
    obtain ⟨k, hk⟩ := Option.ne_none_iff_exists'.mp hsome
    exact ⟨k, firstRepeat?_eq_some_iff.mp hk⟩

/-! ## Refusing a key that repeats -/

section Scan

variable {ε : Type} {ks : List Key} {repeated : Key → ε} {empty : ε}

/-- All keys, unless one repeats: then the first to do so is refused. -/
def scan (repeated : Key → ε) (ks : List Key) : Except ε (List Key) :=
  match firstRepeat? [] ks with
  | some k => .error (repeated k)
  | none => .ok ks

/-- The scan of a list that may not be empty. -/
def scanNonempty (empty : ε) (repeated : Key → ε) (ks : List Key) : Except ε (List Key) :=
  if ks = [] then .error empty else scan repeated ks

theorem scan_eq_error_iff {e : ε} :
    scan repeated ks = .error e ↔ ∃ k, FirstToRepeat ks k ∧ e = repeated k := by
  simp only [← firstRepeat?_eq_some_iff, scan]
  cases firstRepeat? [] ks with
  | none => simp
  | some k => simp [eq_comm]

theorem scan_eq_ok_iff {kept : List Key} :
    scan repeated ks = .ok kept ↔ ks.Nodup ∧ kept = ks := by
  have hnone : firstRepeat? [] ks = none ↔ ks.Nodup := by
    simp [firstRepeat?_eq_none_iff]
  rw [← hnone, scan]
  cases firstRepeat? [] ks with
  | none => simp [eq_comm]
  | some k => simp

theorem scanNonempty_eq_ok_iff {kept : List Key} :
    scanNonempty empty repeated ks = .ok kept ↔ ks ≠ [] ∧ ks.Nodup ∧ kept = ks := by
  rw [scanNonempty]
  by_cases h : ks = []
  · simp [h]
  · rw [if_neg h, scan_eq_ok_iff, and_iff_right h]

/-- **What is made where a scan finds no key is made of what the scan keeps.** -/
theorem map_match_eq_map_scan {γ δ : Type} {make : firstRepeat? [] ks = none → γ} {f : γ → δ}
    {g : List Key → δ} (hmake : ∀ h, f (make h) = g ks) :
    (match h : firstRepeat? [] ks with
      | some k => (.error (repeated k) : Except ε γ)
      | none => .ok (make h)).map f = (scan repeated ks).map g := by
  rw [scan]
  split
  · rename_i k hk
    rw [hk]
    rfl
  · rename_i hnone
    conv_rhs => rw [hnone]
    exact congrArg _ (hmake hnone)

end Scan

end Key

end SqpInequality

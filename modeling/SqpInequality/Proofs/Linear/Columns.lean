import SqpInequality.Linear.Layout

/-!
# Proofs/Linear/Columns — no two variables share a column

A layout places its variables one behind the other:

    | k₀ : d₀ columns | k₁ : d₁ columns | … | kₙ : dₙ columns |
    0                 d₀                d₀ + d₁               total

So the columns of a variable end at the total (`column?_bounds`), and a column determines its
variable and the component in it (`eq_of_column_eq`).
-/

namespace SqpInequality

namespace ColumnLayout

/-- How many columns some slots own. -/
def columns (slots : List (Key × Nat)) : Nat := slots.foldr (fun s columns => s.2 + columns) 0

theorem columns_cons (s : Key × Nat) (slots : List (Key × Nat)) :
    columns (s :: slots) = s.2 + columns slots := rfl

/-! ## One look-up -/

theorem locate?_cons_self (k : Key) (start d : Nat) (rest : List (Key × Nat)) :
    locate? k start ((k, d) :: rest) = some (start, d) := if_pos rfl

theorem locate?_cons_ne {j k : Key} (h : j ≠ k) (start d : Nat) (rest : List (Key × Nat)) :
    locate? k start ((j, d) :: rest) = locate? k (start + d) rest := if_neg h

/-- A key that is found owns columns between the start and the end of the slots. -/
theorem locate?_bounds {k : Key} : ∀ {slots : List (Key × Nat)} {start o d : Nat},
    locate? k start slots = some (o, d) →
      (k, d) ∈ slots ∧ start ≤ o ∧ o + d ≤ start + columns slots
  | (j, e) :: rest, start, o, d, h => by
    by_cases hjk : j = k
    · subst hjk
      rw [locate?_cons_self] at h
      cases h
      refine ⟨List.mem_cons_self, Nat.le_refl _, ?_⟩
      rw [columns_cons]
      omega
    · rw [locate?_cons_ne hjk] at h
      obtain ⟨hmem, hstart, hend⟩ := locate?_bounds h
      refine ⟨List.mem_cons_of_mem _ hmem, by omega, ?_⟩
      rw [columns_cons]
      omega

/-! ## Two look-ups -/

/-- Of two keys that are found, one owns columns before those of the other. -/
theorem locate?_disjoint {j k : Key} (hjk : j ≠ k) : ∀ {slots : List (Key × Nat)}
    {start o d a e : Nat}, locate? j start slots = some (o, d) →
      locate? k start slots = some (a, e) → o + d ≤ a ∨ a + e ≤ o
  | (i, n) :: rest, start, o, d, a, e, hj, hk => by
    by_cases hij : i = j
    · subst hij
      rw [locate?_cons_self] at hj
      rw [locate?_cons_ne hjk] at hk
      cases hj
      exact Or.inl (locate?_bounds hk).2.1
    · rw [locate?_cons_ne hij] at hj
      by_cases hik : i = k
      · subst hik
        rw [locate?_cons_self] at hk
        cases hk
        exact Or.inr (locate?_bounds hj).2.1
      · rw [locate?_cons_ne hik] at hk
        exact locate?_disjoint hjk hj hk

/-- How many columns a key owns, if it is listed. -/
def dimension? (l : ColumnLayout) (k : Key) : Option Nat := (l.column? k).map Prod.snd

theorem dimension?_eq_some_iff {l : ColumnLayout} {k : Key} {d : Nat} :
    l.dimension? k = some d ↔ ∃ o, l.column? k = some (o, d) := by
  rw [dimension?, Option.map_eq_some_iff]
  constructor
  · rintro ⟨⟨o, d⟩, h, rfl⟩
    exact ⟨o, h⟩
  · rintro ⟨o, h⟩
    exact ⟨(o, d), h, rfl⟩

/-- **The columns of a variable are columns of the layout.** -/
theorem column?_bounds {l : ColumnLayout} {k : Key} {o d : Nat} (h : l.column? k = some (o, d)) :
    o + d ≤ l.total := by
  have hend := (locate?_bounds h).2.2
  rwa [Nat.zero_add] at hend

/-- **A column belongs to one component of one variable.** -/
theorem eq_of_column_eq {l : ColumnLayout} {j k : Key} {o d a e c b : Nat}
    (hj : l.column? j = some (o, d)) (hk : l.column? k = some (a, e)) (hc : c < d) (hb : b < e)
    (h : o + c = a + b) : j = k ∧ c = b := by
  by_cases hjk : j = k
  · subst hjk
    rw [hj] at hk
    cases hk
    exact ⟨rfl, by omega⟩
  · have hdisjoint := locate?_disjoint hjk hj hk
    exact absurd h (by omega)

end ColumnLayout

end SqpInequality

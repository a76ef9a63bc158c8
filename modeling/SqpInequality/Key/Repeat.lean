import SqpInequality.Key

/-!
# Key/Repeat — the first key that occurs a second time
-/

namespace SqpInequality

namespace Key

/-- The first key of a list that equals an earlier one, or one of those already seen. -/
def firstRepeat? (seen : List Key) : List Key → Option Key
  | [] => none
  | k :: rest => if k ∈ seen then some k else firstRepeat? (k :: seen) rest

theorem nodup_of_firstRepeat?_eq_none :
    ∀ {seen ks : List Key}, firstRepeat? seen ks = none → ks.Nodup ∧ ∀ k ∈ ks, k ∉ seen
  | _, [], _ => by simp
  | seen, k :: rest, h => by
    rw [firstRepeat?] at h
    split at h
    · contradiction
    · rename_i hseen
      obtain ⟨h1, h2⟩ := nodup_of_firstRepeat?_eq_none h
      refine ⟨List.nodup_cons.mpr ⟨fun hk => h2 k hk List.mem_cons_self, h1⟩, fun j hj => ?_⟩
      rcases List.mem_cons.mp hj with rfl | hj
      · exact hseen
      · exact fun hs => h2 j hj (List.mem_cons_of_mem _ hs)

theorem firstRepeat?_eq_none : ∀ {seen ks : List Key}, ks.Nodup → (∀ k ∈ ks, k ∉ seen) →
    firstRepeat? seen ks = none
  | _, [], _, _ => rfl
  | seen, k :: rest, hdistinct, hseen => by
    obtain ⟨hk, hrest⟩ := List.nodup_cons.mp hdistinct
    rw [firstRepeat?, if_neg (hseen k List.mem_cons_self)]
    refine firstRepeat?_eq_none hrest fun j hj hmem => ?_
    rcases List.mem_cons.mp hmem with rfl | hmem
    · exact hk hj
    · exact hseen j (List.mem_cons_of_mem _ hj) hmem

end Key

end SqpInequality

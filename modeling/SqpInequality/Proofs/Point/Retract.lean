import SqpInequality.Point
import SqpInequality.Proofs.Outcome

/-!
# Proofs/Point/Retract — what a step does to a point

A step that is accepted shifts the variables that it names, each by its own vector, and keeps the
others (`Point.moves_of_retract`).
-/

namespace SqpInequality

variable {α : Type}

namespace Point

theorem get?_mk_insert (p : Point α) (k : Key) (v : Vec α) (j : Key) :
    (⟨p.values.insert k v⟩ : Point α).get? j = if j = k then some v else p.get? j :=
  KeyMap.get?_insert p.values k v j

theorem value_eq {p : Point α} {k : Key} {v : Vec α} (h : p.get? k = some v) :
    p.value k = .ok v := by
  rw [value, h]

theorem get?_of_value {p : Point α} {k : Key} {v : Vec α} (h : p.value k = .ok v) :
    p.get? k = some v := by
  rw [value] at h
  split at h
  · rename_i w hw
    obtain rfl := Except.ok.inj h
    exact hw
  · contradiction

variable [Scalar α]

/-- **One point is another one moved**: variables under a key of the step are shifted by its vector,
the others are kept. -/
structure Moves (p : Point α) (step : List (Key × Vec α)) (next : Point α) : Prop where
  /-- A variable that the step does not name is kept. -/
  kept : ∀ k, step.lookup k = none → next.get? k = p.get? k
  /-- A variable that the step names has as many components as the vector that it is shifted by. -/
  shifted : ∀ k s, step.lookup k = some s →
    ∃ x, p.get? k = some x ∧ x.length = s.length ∧ next.get? k = some (Vec.add x s)

theorem moves_of_shift {p q : Point α} {k : Key} {s : Vec α} (h : p.shift k s = .ok q) :
    p.Moves [(k, s)] q := by
  rw [shift] at h
  split at h
  · contradiction
  · rename_i x hx
    split at h
    · rename_i hlength
      obtain rfl := Except.ok.inj h
      refine ⟨fun j hj => ?_, fun j t hj => ?_⟩
      · rw [get?_mk_insert, if_neg]
        rintro rfl
        rw [KeyMap.lookup_cons_self] at hj
        contradiction
      · by_cases hjk : j = k
        · subst hjk
          rw [KeyMap.lookup_cons_self] at hj
          obtain rfl := Option.some.inj hj
          exact ⟨x, hx, hlength, by rw [get?_mk_insert, if_pos rfl]⟩
        · rw [KeyMap.lookup_cons_ne hjk] at hj
          contradiction
    · contradiction

/-- A shift and then a move of other variables are one move. -/
theorem Moves.cons {k : Key} {s : Vec α} {rest : List (Key × Vec α)} {p m q : Point α}
    (hfirst : p.Moves [(k, s)] m) (hthen : m.Moves rest q) (hnone : rest.lookup k = none) :
    p.Moves ((k, s) :: rest) q := by
  refine ⟨fun j hj => ?_, fun j t hj => ?_⟩
  · by_cases hjk : j = k
    · rw [hjk, KeyMap.lookup_cons_self] at hj
      contradiction
    · rw [KeyMap.lookup_cons_ne hjk] at hj
      rw [hthen.kept j hj]
      exact hfirst.kept j (KeyMap.lookup_cons_ne hjk s [])
  · by_cases hjk : j = k
    · subst hjk
      rw [KeyMap.lookup_cons_self] at hj
      obtain rfl := Option.some.inj hj
      rw [hthen.kept j hnone]
      exact hfirst.shifted j s (KeyMap.lookup_cons_self j s [])
    · rw [KeyMap.lookup_cons_ne hjk] at hj
      obtain ⟨x, hx, hlength, hq⟩ := hthen.shifted j t hj
      rw [hfirst.kept j (KeyMap.lookup_cons_ne hjk s [])] at hx
      exact ⟨x, hx, hlength, hq⟩

/-- **Shifts of different variables move a point together.** -/
theorem moves_of_shiftAll : ∀ {step : List (Key × Vec α)} {p q : Point α},
    (step.map Prod.fst).Nodup → p.shiftAll step = .ok q → p.Moves step q
  | [], p, q, _, h => by
    obtain rfl : p = q := Except.ok.inj h
    exact ⟨fun _ _ => rfl, fun _ _ hs => (nomatch hs)⟩
  | (k, s) :: rest, p, q, hstep, h => by
    obtain ⟨hk, hrest⟩ := List.nodup_cons.mp hstep
    obtain ⟨m, hshift, hlater⟩ := bind_eq_ok_iff.mp h
    exact (moves_of_shift hshift).cons (moves_of_shiftAll hrest hlater)
      (KeyMap.lookup_eq_none_iff.mpr hk)

/-- **A step that is accepted shifts the variables that it names and keeps the others.** -/
theorem moves_of_retract {p next : Point α} {step : VectorMap α}
    (h : p.retract step = .ok next) : p.Moves step.entries next :=
  moves_of_shiftAll step.vectors.nodup_keys h

end Point

end SqpInequality

import Mathlib.Logic.Relation
import SqpInequality.Proofs.Linear.Columns
import SqpInequality.Proofs.Point.Retract

/-!
# Proofs/Point/Dimension — the dimension of a variable never changes

A point is changed by `insert`, `update` and `retract` alone.  Each of them, when it succeeds, keeps
every assigned variable and its dimension (`dimension?_of_step`), and so does a run of them
(`dimension?_of_steps`).  The layout of a point reserves just these dimensions
(`ColumnLayout.dimension?_ofPoint`).
-/

namespace SqpInequality

variable {α : Type}

namespace Point

/-- How many components a variable has, if it is assigned. -/
def dimension? (p : Point α) (k : Key) : Option Nat := (p.get? k).map List.length

theorem dimension?_eq_some_iff {p : Point α} {k : Key} {d : Nat} :
    p.dimension? k = some d ↔ ∃ v, p.get? k = some v ∧ v.length = d := Option.map_eq_some_iff

theorem dimension?_of_value {p : Point α} {k : Key} {v : Vec α} (h : p.value k = .ok v) :
    p.dimension? k = some v.length := dimension?_eq_some_iff.mpr ⟨v, get?_of_value h, rfl⟩

/-! ## One operation -/

/-- A write keeps all dimensions if the vector is as long as the one that was there. -/
theorem dimension?_mk_insert {p : Point α} {j k : Key} {v : Vec α} {d : Nat}
    (hlength : ∀ w, p.get? k = some w → w.length = v.length) (h : p.dimension? j = some d) :
    (⟨p.values.insert k v⟩ : Point α).dimension? j = some d := by
  rw [dimension?, get?_mk_insert]
  by_cases hjk : j = k
  · obtain ⟨w, hw, hd⟩ := dimension?_eq_some_iff.mp h
    rw [if_pos hjk, Option.map_some, ← hd, hlength w (hjk ▸ hw)]
  · rw [if_neg hjk]
    exact h

variable [Scalar α]

/-- **A move changes no dimension**, and assigns and unassigns no variable. -/
theorem Moves.dimension?_eq {step : List (Key × Vec α)} {p q : Point α} (h : p.Moves step q)
    (k : Key) : q.dimension? k = p.dimension? k := by
  rw [dimension?, dimension?]
  cases hs : step.lookup k with
  | none => rw [h.kept k hs]
  | some s =>
    obtain ⟨x, hx, hlength, hq⟩ := h.shifted k s hs
    rw [hq, hx, Option.map_some, Option.map_some, Vec.length_add, ← hlength, Nat.min_self]

/-- Shifts by vectors of the variables' own dimensions succeed one after the other, since none of
them changes a dimension. -/
theorem exists_shiftAll : ∀ {step : List (Key × Vec α)} {p : Point α},
    (∀ e ∈ step, p.dimension? e.1 = some e.2.length) → ∃ q, p.shiftAll step = .ok q
  | [], p, _ => ⟨p, rfl⟩
  | (k, s) :: rest, p, h => by
    obtain ⟨hk, hrest⟩ := List.forall_mem_cons.mp h
    obtain ⟨x, hx, hlength⟩ := dimension?_eq_some_iff.mp hk
    have hshift : p.shift k s = .ok ⟨p.values.insert k (Vec.add x s)⟩ := by
      rw [shift, hx]
      exact if_pos hlength
    have hkeep : ∀ w, p.get? k = some w → w.length = (Vec.add x s).length := by
      intro w hw
      obtain rfl := Option.some.inj (hw.symm.trans hx)
      rw [Vec.length_add, hlength, Nat.min_self]
    obtain ⟨q, hq⟩ := exists_shiftAll fun e he => dimension?_mk_insert hkeep (hrest e he)
    exact ⟨q, bind_eq_ok_iff.mpr ⟨_, hshift, hq⟩⟩

/-- **A point can take a step that has its dimensions.** -/
theorem exists_retract {p : Point α} {step : VectorMap α}
    (h : ∀ e ∈ step.entries, p.dimension? e.1 = some e.2.length) :
    ∃ next, p.retract step = .ok next := exists_shiftAll h

/-- **An operation on a point that succeeds.** -/
inductive Step : Point α → Point α → Prop where
  /-- A new variable is assigned. -/
  | insert {p q : Point α} {k : Key} {v : Vec α} (h : p.insert k v = .ok q) : Step p q
  /-- The vector of a variable is replaced. -/
  | update {p q : Point α} {k : Key} {v : Vec α} (h : p.update k v = .ok q) : Step p q
  /-- The point is moved along a step. -/
  | retract {p q : Point α} {step : VectorMap α} (h : p.retract step = .ok q) : Step p q

/-- **An operation that succeeds changes the dimension of no variable.** -/
theorem dimension?_of_step {p q : Point α} (hstep : Step p q) {k : Key} {d : Nat}
    (h : p.dimension? k = some d) : q.dimension? k = some d := by
  cases hstep with
  | insert hinsert =>
    rw [insert] at hinsert
    split at hinsert
    · contradiction
    · rename_i hnew
      obtain rfl := Except.ok.inj hinsert
      refine dimension?_mk_insert (fun w hw => absurd ?_ hnew) h
      exact Option.isSome_iff_exists.mpr ⟨w, hw⟩
  | update hupdate =>
    rw [update] at hupdate
    split at hupdate
    · contradiction
    · rename_i old hold
      split at hupdate
      · rename_i hlength
        obtain rfl := Except.ok.inj hupdate
        refine dimension?_mk_insert (fun w hw => ?_) h
        rwa [Option.some.inj (hw.symm.trans hold)]
      · contradiction
  | retract hretract => rwa [(moves_of_retract hretract).dimension?_eq]

/-! ## Any number of operations -/

/-- **No run of successful operations changes the dimension of a variable.** -/
theorem dimension?_of_steps {p q : Point α} (hsteps : Relation.ReflTransGen Step p q) {k : Key}
    {d : Nat} (h : p.dimension? k = some d) : q.dimension? k = some d := by
  induction hsteps with
  | refl => exact h
  | tail _ hstep ih => exact dimension?_of_step hstep ih

end Point

/-! ## The columns of a point -/

namespace ColumnLayout

theorem locate?_map_length (k : Key) : ∀ (es : List (Key × Vec α)) (start : Nat),
    (locate? k start (es.map fun e => (e.1, e.2.length))).map Prod.snd
      = (es.lookup k).map List.length
  | [], _ => rfl
  | (j, v) :: rest, start => by
    rw [List.map_cons]
    by_cases hjk : j = k
    · subst hjk
      rw [locate?_cons_self, KeyMap.lookup_cons_self]
      rfl
    · rw [locate?_cons_ne hjk, KeyMap.lookup_cons_ne (Ne.symm hjk)]
      exact locate?_map_length k rest _

/-- **The layout of a point has as many columns for a variable as the variable has components.** -/
theorem dimension?_ofPoint (p : Point α) (k : Key) : (ofPoint p).dimension? k = p.dimension? k :=
  locate?_map_length k p.entries 0

end ColumnLayout

end SqpInequality

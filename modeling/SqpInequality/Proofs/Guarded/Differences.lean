import SqpInequality.Proofs.Constraint.BuiltIn
import SqpInequality.Proofs.Constraint.Probes
import SqpInequality.Proofs.Guarded

/-!
# Proofs/Guarded/Differences — difference quotients taken in place, guarded

The vectors are changed in place, one component at a time: forward, back, and to the value that was
read before.  A pass over a component thus leaves the vectors as they were, with the lengths that
the next pass goes by, and the quotients are those of the vectors themselves.
-/

namespace SqpInequality

open Guarded

namespace Differences

variable {α : Type}

/-! ## The slopes of one vector -/

variable [Scalar α]

/-- Takes one difference quotient in place, and writes it to the row that is built. -/
def guardedSlope (f : List (Vec α) → α) (h : α) (j : Nat) (state : List (Vec α) × Block α)
    (i : Nat) : Guarded α (List (Vec α) × Block α) := do
  let original ← component state.1 j i
  let forward ← assign state.1 j i (original + h)
  let backward ← assign forward j i (original - h)
  let restored ← assign backward j i original
  let row ← assignEntry state.2 0 i ((f forward - f backward) / ((1 + 1) * h))
  pure (restored, row)

/-- **A pass over a component leaves the vectors as they were.** -/
theorem guardedSlope_eq (f : List (Vec α) → α) (h : α) {x : List (Vec α)} {row v : Vec α}
    {j i : Nat} {t : α} (hv : x[j]? = some v) (ht : v[i]? = some t) (hrow : i < row.length) :
    guardedSlope f h j (x, Block.ofRow row) i
      = .ok (x, Block.ofRow (row.set i
          ((f (replace x j i (t + h)) - f (replace x j i (t - h))) / ((1 + 1) * h)))) := by
  have hi : i < v.length := (List.getElem?_eq_some_iff.mp ht).1
  have hset : ∀ s : α, i < (v.set i s).length := fun s => (List.length_set).symm ▸ hi
  simp only [guardedSlope, component_of_get? hv ht, ok_bind, assign_of_get? hv hi,
    assign_of_get? (get?_replace hv i _) (hset _), replace_replace, replace_of_get? hv ht,
    assignEntry_ofRow hrow, pure_eq_ok]

/-- Goes over the components of one vector, and puts its row behind those of the vectors before. -/
def guardedRow (f : List (Vec α) → α) (h : α)
    (state : List (Vec α) × List (Key × Block α)) (key : Key × Nat) :
    Guarded α (List (Vec α) × List (Key × Block α)) := do
  let v ← read state.1 key.2
  let done ← (List.range v.length).foldlM (guardedSlope f h key.2)
    (state.1, Block.zero 1 v.length)
  pure (done.1, state.2 ++ [(key.1, done.2)])

theorem foldlM_guardedSlope (f : List (Vec α) → α) (h : α) {x : List (Vec α)} {v : Vec α}
    {j : Nat} (hv : x[j]? = some v) :
    (List.range v.length).foldlM (guardedSlope f h j) (x, Block.zero 1 v.length)
      = .ok (x, Block.ofRow (slopesAlong f h x (v, j))) := by
  have hpass : ∀ e ∈ v.zipIdx, ∀ row : Vec α, e.2 < row.length →
      guardedSlope f h j (x, Block.ofRow row) e.2
        = (pure ((f (replace x j e.2 (e.1 + h)) - f (replace x j e.2 (e.1 - h)))
            / ((1 + 1) * h)) : Guarded α α) >>= fun y => .ok (x, Block.ofRow (row.set e.2 y)) :=
    fun e he row hrow => guardedSlope_eq f h hv (List.mk_mem_zipIdx_iff_getElem?.mp he) hrow
  rw [List.range_eq_range', ← List.zipIdx_map_snd 0 v, List.foldlM_map, Block.zero_one]
  refine (foldlM_fill (fun row => (x, Block.ofRow row)) 0 hpass).trans ?_
  rw [List.mapM_pure]
  rfl

theorem foldlM_guardedRow (f : List (Vec α) → α) (h : α) {x : List (Vec α)} :
    ∀ {ks : List Key} {j : Nat} (_ : j + ks.length = x.length) (terms : List (Key × Block α)),
      (ks.zipIdx j).foldlM (guardedRow f h) (x, terms)
        = .ok (x, terms ++ ks.zip (((x.drop j).zipIdx j).map fun w =>
            Block.ofRow (slopesAlong f h x w)))
  | [], j, hj, terms => by
    rw [List.zip_nil_left, List.append_nil]
    rfl
  | k :: ks, j, hj, terms => by
    rw [List.length_cons] at hj
    have hlt : j < x.length := by omega
    have hv : x[j]? = some x[j] := List.getElem?_eq_getElem hlt
    have hrest : j + 1 + ks.length = x.length := by omega
    rw [List.zipIdx_cons, List.foldlM_cons, guardedRow, read_of_get? hv, ok_bind,
      foldlM_guardedSlope f h hv, ok_bind, pure_eq_ok, ok_bind, foldlM_guardedRow f h hrest,
      List.drop_eq_getElem_cons hlt, List.zipIdx_cons, List.map_cons, List.zip_cons_cons,
      List.append_assoc, List.singleton_append]

end Differences

/-! ## Constraints given by functions -/

namespace Numerical

variable {α : Type}

/-- Compares a key with those before it. -/
def guardedCompare (keys : List Key) (_ : Unit) (key : Key × Nat) : Guarded α Unit := do
  let before ← slice keys key.2
  if key.1 ∈ before then check (.error (.numericalRepeated key.1)) else pure ()

/-- The checks that the keys have to pass: there is one, and each is compared with those before. -/
def guardedAdmit (keys : List Key) : Guarded α Unit :=
  if keys = [] then check (.error .numericalEmpty)
  else keys.zipIdx.foldlM (guardedCompare keys) ()

theorem foldlM_guardedCompare {keys : List Key} : ∀ {rest before seen : List Key},
    before ++ rest = keys → (∀ k, k ∈ seen ↔ k ∈ before) →
      ((rest.zipIdx before.length).foldlM (guardedCompare keys) () : Guarded α Unit)
        = match Key.firstRepeat? seen rest with
          | some k => check (.error (.numericalRepeated k))
          | none => .ok ()
  | [], _, _, _, _ => rfl
  | k :: rest, before, seen, hkeys, hseen => by
    have hslice : (slice keys before.length : Guarded α (List Key)) = .ok before := by
      rw [← hkeys, slice_of_le (by rw [List.length_append]; omega), List.take_left]
    rw [List.zipIdx_cons, List.foldlM_cons, guardedCompare, hslice, ok_bind, Key.firstRepeat?]
    by_cases hk : k ∈ seen
    · rw [if_pos hk, if_pos ((hseen k).mp hk)]
      rfl
    · have hnext := mem_cons_iff_mem_concat hseen k
      have hlength : before.length + 1 = (before ++ [k]).length := by
        rw [List.length_append, List.length_singleton]
      rw [if_neg hk, if_neg (mt (hseen k).mpr hk), pure_eq_ok, ok_bind, hlength]
      exact foldlM_guardedCompare (by rw [List.append_assoc, List.singleton_append, hkeys]) hnext

/-- The residual at a point. -/
def guardedResidual (c : Numerical α) (p : Point α) : Guarded α (Vec α) := do
  let x ← check (p.gather c.keys)
  pure [c.function x]

theorem guardedResidual_eq (c : Numerical α) (p : Point α) :
    c.guardedResidual p = check (c.residual p) :=
  bind_pure_of_eq_check rfl fun x => [c.function x]

variable [Scalar α]

theorem guardedAdmit_eq (keys : List Key) (dualKey : Key) (function : List (Vec α) → α) :
    guardedAdmit keys = check ((new keys dualKey function).map fun _ => ()) := by
  rw [guardedAdmit, new]
  by_cases hempty : keys = []
  · rw [if_pos hempty, dif_pos hempty]
    rfl
  · rw [if_neg hempty, dif_neg hempty]
    refine (foldlM_guardedCompare (List.nil_append keys) fun _ => Iff.rfl).trans (Eq.symm ?_)
    split
    · rename_i k hk
      rw [hk]
      rfl
    · rename_i hnone
      conv_rhs => rw [hnone]
      rfl

/-- The first-order model at a point. -/
def guardedLinearize (c : Numerical α) (p : Point α) : Guarded α (LinearModel α) := do
  let x ← check (p.gather c.keys)
  let done ← c.keys.zipIdx.foldlM (Differences.guardedRow c.function c.step) (x, [])
  check (LinearModel.new done.2 [-c.function x])

theorem guardedLinearize_eq (c : Numerical α) (p : Point α) :
    c.guardedLinearize p = check (c.linearize p) := by
  rw [guardedLinearize, linearize, check_bind]
  cases hx : p.gather c.keys with
  | error fault => rfl
  | ok x =>
    have hlength : 0 + c.keys.length = x.length := by
      rw [Nat.zero_add]
      exact (mapM_eq_ok_iff.mp hx).length_eq
    simp only [check_ok, ok_bind]
    rw [Differences.foldlM_guardedRow _ _ hlength, ok_bind, Differences.run_firstOrder]
    simp only [List.drop_zero, List.nil_append, List.map_map]
    rfl

end Numerical

end SqpInequality

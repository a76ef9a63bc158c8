import Mathlib
import SqpInequality.Constraint.Differences

/-!
# Proofs/Constraint/Probes — the calls that slopes are taken from

A function whose slopes are taken is called at the vectors as they are, and then twice for each
component, a step forward and a step back.  These are its `probes`; it is called there in order, and
nowhere else, whatever a call does besides giving an answer (`Differences.firstOrder_eq`).  Value
and slopes are read off the answers, each slope off those to its own two calls
(`Differences.getElem?_readOff`).
-/

namespace SqpInequality

/-! ## Lists and loops -/

section Lists

variable {β γ : Type}

/-- A member of one of the lists stands behind all members of the lists before. -/
theorem getElem?_flatMap_of_getElem? {f : β → List γ} {i : Nat} {b : β} :
    ∀ {xs : List β} {j : Nat}, xs[j]? = some b → i < (f b).length →
      (xs.flatMap f)[((xs.take j).map fun y => (f y).length).sum + i]? = (f b)[i]?
  | x :: xs, 0, h, hi => by
    obtain rfl := Option.some.inj h
    rw [List.flatMap_cons, List.take_zero, List.map_nil, List.sum_nil, Nat.zero_add]
    exact List.getElem?_append_left hi
  | x :: xs, j + 1, h, hi => by
    rw [List.flatMap_cons, List.take_succ_cons, List.map_cons, List.sum_cons, Nat.add_assoc,
      List.getElem?_append_right (Nat.le_add_right _ _), Nat.add_sub_cancel_left]
    exact getElem?_flatMap_of_getElem? (List.getElem?_cons_succ.symm.trans h) hi

theorem getElem?_splitLengths : ∀ {sizes : List Nat} {xs : List β} {j n : Nat},
    sizes[j]? = some n →
      (sizes.splitLengths xs)[j]? = some ((xs.drop (sizes.take j).sum).take n)
  | size :: sizes, xs, 0, n, h => by
    obtain rfl := Option.some.inj h
    rw [List.splitLengths_cons]
    rfl
  | size :: sizes, xs, j + 1, n, h => by
    rw [List.splitLengths_cons, List.getElem?_cons_succ,
      getElem?_splitLengths (List.getElem?_cons_succ.symm.trans h), List.drop_drop,
      List.take_succ_cons, List.sum_cons]

theorem getElem?_zipIdx_of_getElem? {xs : List β} {j : Nat} {b : β} (h : xs[j]? = some b) :
    xs.zipIdx[j]? = some (b, j) := by
  rw [List.getElem?_zipIdx, h, Nat.zero_add]
  rfl

/-- What is done with the results of a loop is done with as many as there are passes. -/
theorem mapM_bind_congr {δ : Type} {m : Type → Type} [Monad m] [LawfulMonad m] {f : β → m γ} :
    ∀ {xs : List β} {g g' : List γ → m δ}, (∀ ys, ys.length = xs.length → g ys = g' ys) →
      xs.mapM f >>= g = xs.mapM f >>= g'
  | [], g, g', h => by
    rw [List.mapM_nil, pure_bind, pure_bind]
    exact h [] rfl
  | x :: xs, g, g', h => by
    have hlater : ∀ y, (xs.mapM f >>= fun ys => g (y :: ys))
        = xs.mapM f >>= fun ys => g' (y :: ys) := fun y =>
      mapM_bind_congr fun ys hys => h (y :: ys) (congrArg Nat.succ hys)
    simp only [List.mapM_cons, bind_assoc, pure_bind, hlater]

end Lists

namespace Differences

variable {α : Type}

/-! ## Replacing a component -/

theorem get?_replace {x : List (Vec α)} {j : Nat} {v : Vec α} (hv : x[j]? = some v) (i : Nat)
    (t : α) : (replace x j i t)[j]? = some (v.set i t) := by
  rw [replace, List.getElem?_modify, hv]
  exact congrArg some (if_pos rfl)

theorem replace_replace (x : List (Vec α)) (j i : Nat) (s t : α) :
    replace (replace x j i s) j i t = replace x j i t := by
  rw [replace, replace, List.modify_modify_eq, replace]
  exact congrArg _ (funext fun w => List.set_set s)

theorem replace_of_get? {x : List (Vec α)} {j i : Nat} {v : Vec α} {t : α}
    (hv : x[j]? = some v) (ht : v[i]? = some t) : replace x j i t = x := by
  obtain ⟨hj, rfl⟩ := List.getElem?_eq_some_iff.mp hv
  obtain ⟨hi, rfl⟩ := List.getElem?_eq_some_iff.mp ht
  rw [replace, List.modify_eq_set_get _ hj, List.get_eq_getElem, List.set_getElem_self,
    List.set_getElem_self]

/-- A replaced component leaves the lengths of the vectors as they are. -/
theorem map_length_replace (x : List (Vec α)) (j i : Nat) (s : α) :
    (replace x j i s).map List.length = x.map List.length := by
  refine List.ext_getElem? fun k => ?_
  rw [replace, List.getElem?_map, List.getElem?_map, List.getElem?_modify]
  by_cases hk : j = k
  · simp [hk, Function.comp_def]
  · simp [hk]

/-! ## Places -/

/-- **The place of a component**: how many come before it, vector by vector. -/
def place (x : List (Vec α)) (j i : Nat) : Nat := ((x.take j).map List.length).sum + i

theorem place_length_le {x : List (Vec α)} {v : Vec α} {j : Nat} (hv : x[j]? = some v) :
    place x j v.length ≤ (x.map List.length).sum := by
  obtain ⟨hj, rfl⟩ := List.getElem?_eq_some_iff.mp hv
  rw [← List.sum_take_add_sum_drop (x.map List.length) j, ← List.map_take, ← List.map_drop,
    List.drop_eq_getElem_cons hj, List.map_cons, List.sum_cons, place]
  omega

theorem place_lt {x : List (Vec α)} {v : Vec α} {j i : Nat} (hv : x[j]? = some v)
    (hi : i < v.length) : place x j i < (x.map List.length).sum :=
  Nat.lt_of_lt_of_le (Nat.add_lt_add_left hi _) (place_length_le hv)

/-! ## The slopes of one vector -/

variable [Scalar α]

/-- The slopes along the components of one vector. -/
def slopesAlong (f : List (Vec α) → α) (h : α) (x : List (Vec α)) (w : Vec α × Nat) : Vec α :=
  w.1.zipIdx.map fun t =>
    (f (replace x w.2 t.2 (t.1 + h)) - f (replace x w.2 t.2 (t.1 - h))) / ((1 + 1) * h)

theorem length_slopesAlong (f : List (Vec α) → α) (h : α) (x : List (Vec α)) (w : Vec α × Nat) :
    (slopesAlong f h x w).length = w.1.length := by
  rw [slopesAlong, List.length_map, List.length_zipIdx]

theorem getElem?_slopesAlong (f : List (Vec α) → α) (h : α) (x : List (Vec α)) {v : Vec α}
    (j : Nat) {i : Nat} {t : α} (ht : v[i]? = some t) :
    (slopesAlong f h x (v, j))[i]?
      = some ((f (replace x j i (t + h)) - f (replace x j i (t - h))) / ((1 + 1) * h)) := by
  rw [slopesAlong, List.getElem?_map, getElem?_zipIdx_of_getElem? ht, Option.map_some]

/-! ## The calls -/

/-- The calls for a component: a step forward, and a step back. -/
def probe (h : α) (x : List (Vec α)) (j : Nat) (t : α × Nat) : List (List (Vec α)) :=
  [replace x j t.2 (t.1 + h), replace x j t.2 (t.1 - h)]

/-- The calls for the components of one vector. -/
def probesAlong (h : α) (x : List (Vec α)) (w : Vec α × Nat) : List (List (Vec α)) :=
  w.1.zipIdx.flatMap (probe h x w.2)

/-- **The calls of a function whose slopes are taken**, in order. -/
def probes (h : α) (x : List (Vec α)) : List (List (Vec α)) :=
  x :: x.zipIdx.flatMap (probesAlong h x)

theorem sum_length_probe (h : α) (x : List (Vec α)) (j : Nat) (ts : List (α × Nat)) :
    (ts.map fun t => (probe h x j t).length).sum = 2 * ts.length := by
  have hpair : (fun t => (probe h x j t).length) = fun _ => 2 := rfl
  rw [hpair, List.map_const', List.sum_replicate, smul_eq_mul, Nat.mul_comm]

theorem length_probesAlong (h : α) (x : List (Vec α)) (w : Vec α × Nat) :
    (probesAlong h x w).length = 2 * w.1.length := by
  rw [probesAlong, List.length_flatMap, sum_length_probe, List.length_zipIdx]

theorem sum_length_probesAlong (h : α) (x : List (Vec α)) (ws : List (Vec α × Nat)) :
    (ws.map fun w => (probesAlong h x w).length).sum
      = 2 * ((ws.map Prod.fst).map List.length).sum := by
  simp only [length_probesAlong, List.sum_map_mul_left, List.map_map]
  rfl

/-- **There are two calls for each component**, and one before them. -/
theorem length_probes (h : α) (x : List (Vec α)) :
    (probes h x).length = 1 + 2 * (x.map List.length).sum := by
  rw [probes, List.length_cons, List.length_flatMap, sum_length_probesAlong, List.zipIdx_map_fst,
    Nat.add_comm]

theorem getElem?_probesAlong (h : α) (x : List (Vec α)) {v : Vec α} {j i b : Nat} {t : α}
    (ht : v[i]? = some t) (hb : b < 2) :
    (probesAlong h x (v, j))[2 * i + b]? = (probe h x j (t, i))[b]? := by
  obtain ⟨hi, -⟩ := List.getElem?_eq_some_iff.mp ht
  have hbefore : ((v.zipIdx.take i).map fun t => (probe h x j t).length).sum = 2 * i := by
    rw [sum_length_probe, List.length_take, List.length_zipIdx, Nat.min_eq_left hi.le]
  rw [← hbefore]
  exact getElem?_flatMap_of_getElem? (getElem?_zipIdx_of_getElem? ht) hb

/-- **The calls for a component are found at its place.** -/
theorem getElem?_probes (h : α) {x : List (Vec α)} {v : Vec α} {j i b : Nat} {t : α}
    (hv : x[j]? = some v) (ht : v[i]? = some t) (hb : b < 2) :
    (probes h x)[1 + 2 * place x j i + b]? = (probe h x j (t, i))[b]? := by
  obtain ⟨hi, -⟩ := List.getElem?_eq_some_iff.mp ht
  have hwithin : 2 * i + b < (probesAlong h x (v, j)).length := by
    rw [length_probesAlong]
    change 2 * i + b < 2 * v.length
    omega
  have hindex : 1 + 2 * place x j i + b
      = ((x.zipIdx.take j).map fun w => (probesAlong h x w).length).sum + (2 * i + b) + 1 := by
    rw [sum_length_probesAlong, List.map_take, List.zipIdx_map_fst, place]
    ring
  rw [hindex, probes, List.getElem?_cons_succ,
    getElem?_flatMap_of_getElem? (getElem?_zipIdx_of_getElem? hv) hwithin,
    getElem?_probesAlong h x ht hb]

/-! ### One component at a time -/

/-- **Calls that change one component at a time**: the vectors as they are, and then for each
component in its turn a step forward and a step back, with all others as they are. -/
structure OneAtATime (h : α) (x : List (Vec α)) (calls : List (List (Vec α))) : Prop where
  /-- There is a call at the vectors themselves, and two for each component. -/
  length_eq : calls.length = 1 + 2 * (x.map List.length).sum
  /-- The first call is at the vectors themselves. -/
  first : calls[0]? = some x
  /-- The first of a component's two calls is a step forward. -/
  forward : ∀ {j i : Nat} {v : Vec α} {t : α}, x[j]? = some v → v[i]? = some t →
    calls[1 + 2 * place x j i]? = some (replace x j i (t + h))
  /-- The second is a step back from where the component was. -/
  backward : ∀ {j i : Nat} {v : Vec α} {t : α}, x[j]? = some v → v[i]? = some t →
    calls[2 + 2 * place x j i]? = some (replace x j i (t - h))

theorem oneAtATime_probes (h : α) (x : List (Vec α)) :
    OneAtATime h x (probes h x) where
  length_eq := length_probes h x
  first := rfl
  forward hv ht := getElem?_probes h hv ht Nat.two_pos
  backward hv ht := by
    rw [Nat.add_right_comm 1 1]
    exact getElem?_probes h hv ht Nat.one_lt_two

/-! ## What is read off the answers -/

/-- The quotients of answers that come in pairs. -/
def quotients (h : α) : List α → Vec α
  | forward :: backward :: rest => (forward - backward) / ((1 + 1) * h) :: quotients h rest
  | _ => []

/-- **Value and slopes as they are read off the answers** to the calls. -/
def readOff (h : α) (x : List (Vec α)) (answers : List α) : α × List (Vec α) :=
  (answers.headD 0, (x.map List.length).splitLengths (quotients h answers.tail))

theorem length_quotients (h : α) : ∀ answers : List α,
    (quotients h answers).length = answers.length / 2
  | [] => by simp [quotients]
  | [_] => by simp [quotients]
  | _ :: _ :: rest => by
    rw [quotients, List.length_cons, length_quotients h rest, List.length_cons, List.length_cons]
    omega

theorem quotients_append (h : α) : ∀ {n : Nat} {xs : List α} (ys : List α), xs.length = 2 * n →
    quotients h (xs ++ ys) = quotients h xs ++ quotients h ys
  | 0, [], ys, _ => by simp [quotients]
  | n + 1, forward :: backward :: xs, ys, hxs => by
    have hrest : xs.length = 2 * n := by
      rw [List.length_cons, List.length_cons] at hxs
      omega
    rw [List.cons_append, List.cons_append, quotients, quotients, quotients_append h ys hrest,
      List.cons_append]

/-- The answers for a vector come before those for the vectors behind it. -/
theorem splitLengths_quotients_append (h : α) {n : Nat} {xs : List α} (hxs : xs.length = 2 * n)
    (sizes : List Nat) (ys : List α) :
    (n :: sizes).splitLengths (quotients h (xs ++ ys))
      = quotients h xs :: sizes.splitLengths (quotients h ys) := by
  have hwidth : (quotients h xs).length = n := by
    rw [length_quotients, hxs]
    omega
  rw [quotients_append h ys hxs, List.splitLengths_cons, ← hwidth, List.take_left, List.drop_left]

theorem getElem?_quotients (h : α) {forward backward : α} : ∀ {answers : List α} {n : Nat},
    answers[2 * n]? = some forward → answers[2 * n + 1]? = some backward →
      (quotients h answers)[n]? = some ((forward - backward) / ((1 + 1) * h))
  | _ :: _ :: rest, 0, hf, hb => by
    obtain rfl := Option.some.inj hf
    obtain rfl := Option.some.inj hb
    rw [quotients]
    rfl
  | _ :: _ :: rest, n + 1, hf, hb => by
    have hrest : rest[2 * n]? = some forward := hf
    rw [quotients]
    exact getElem?_quotients h hrest hb

/-- **The slopes along a vector are read off the answers to its own calls**, one for each
component. -/
theorem getElem?_readOff (h : α) {x : List (Vec α)} {v : Vec α} {j : Nat} {answers : List α}
    (hv : x[j]? = some v) (hlength : answers.length = (probes h x).length) :
    ∃ row, (readOff h x answers).2[j]? = some row ∧ row.length = v.length ∧
      ∀ i, i < v.length → ∃ forward backward, answers[1 + 2 * place x j i]? = some forward ∧
        answers[2 + 2 * place x j i]? = some backward ∧
        row[i]? = some ((forward - backward) / ((1 + 1) * h)) := by
  rw [length_probes] at hlength
  have hsize : (x.map List.length)[j]? = some v.length := by
    rw [List.getElem?_map, hv]
    rfl
  refine ⟨_, getElem?_splitLengths hsize, ?_, fun i hi => ?_⟩
  · have hplace := place_length_le hv
    rw [place, List.map_take] at hplace
    rw [List.length_take, List.length_drop, length_quotients, List.length_tail, hlength]
    omega
  · have hplace := place_lt hv hi
    have hforward : 1 + 2 * place x j i < answers.length := by omega
    have hbackward : 2 + 2 * place x j i < answers.length := by omega
    refine ⟨_, _, List.getElem?_eq_getElem hforward, List.getElem?_eq_getElem hbackward, ?_⟩
    rw [List.getElem?_take_of_lt hi, List.getElem?_drop, ← List.map_take]
    refine getElem?_quotients h (n := place x j i) ?_ ?_
    · rw [List.getElem?_tail, Nat.add_comm]
      exact List.getElem?_eq_getElem hforward
    · rw [List.getElem?_tail, Nat.add_assoc, Nat.add_comm]
      exact List.getElem?_eq_getElem hbackward

/-! ## The calls are made in order -/

section Monadic

variable {m : Type → Type} [Monad m] [LawfulMonad m]

theorem mapM_slope (f : List (Vec α) → m α) (h : α) (x : List (Vec α)) (j : Nat) :
    ∀ ts : List (α × Nat), (ts.mapM fun t => slope f h x j t.2 t.1)
      = quotients h <$> (ts.flatMap (probe h x j)).mapM f
  | [] => by
    simp [quotients]
  | t :: ts => by
    rw [List.mapM_cons, mapM_slope f h x j ts, List.flatMap_cons]
    simp only [probe, List.cons_append, List.nil_append, List.mapM_cons, slope, bind_assoc,
      pure_bind, map_bind, map_pure, quotients, bind_map_left]

theorem mapM_slopes (f : List (Vec α) → m α) (h : α) (x : List (Vec α)) :
    ∀ ws : List (Vec α × Nat),
      (ws.mapM fun w => w.1.zipIdx.mapM fun t => slope f h x w.2 t.2 t.1)
        = (fun answers => ((ws.map Prod.fst).map List.length).splitLengths (quotients h answers))
          <$> (ws.flatMap (probesAlong h x)).mapM f
  | [] => by
    rw [List.mapM_nil, List.flatMap_nil, List.mapM_nil, map_pure]
    rfl
  | w :: ws => by
    rw [List.mapM_cons, mapM_slopes f h x ws, mapM_slope, List.flatMap_cons, List.mapM_append]
    simp only [bind_map_left, map_bind, map_pure, List.map_cons]
    refine mapM_bind_congr fun answers hanswers => ?_
    -- The answers for `w` are as many as its calls, which tells them apart from those behind.
    have hlength := hanswers.trans (length_probesAlong h x w)
    simp only [splitLengths_quotients_append h hlength]

/-- **The function is called at the probes in order**, and nowhere else; the rest is read off the
answers. -/
theorem firstOrder_eq (f : List (Vec α) → m α) (h : α) (x : List (Vec α)) :
    firstOrder f h x = readOff h x <$> (probes h x).mapM f := by
  rw [firstOrder, slopes, mapM_slopes, List.zipIdx_map_fst, probes]
  simp only [List.mapM_cons, bind_map_left, map_bind, map_pure]
  rfl

end Monadic

end Differences

end SqpInequality

import Mathlib.Data.List.Forall2
import SqpInequality.Graph.Run

/-!
# Proofs/Outcome — values and failures of sequences

A sequence of steps succeeds exactly when every step does (`mapM_eq_ok_iff`) and otherwise fails as
the first step that fails (`mapM_eq_error_iff`), also where a step goes on from the one before it
(`foldlM_eq_ok_iff_of`, `foldlM_eq_error_iff`).  The outcome of a run is the outcome of its parts in
order (`Run.outcome_bind`): what a run announces on the way has no part in it.
-/

namespace SqpInequality

/-! ## Lists side by side -/

section SideBySide

variable {β γ δ : Type}

/-- What the members of two lists have in common can be listed. -/
theorem exists_forall₂_of_forall₂_exists {P : β → δ → Prop} {Q : γ → δ → Prop} {xs : List β}
    {ys : List γ} (h : List.Forall₂ (fun x y => ∃ z, P x z ∧ Q y z) xs ys) :
    ∃ zs, List.Forall₂ P xs zs ∧ List.Forall₂ Q ys zs := by
  induction h with
  | nil => exact ⟨[], .nil, .nil⟩
  | cons hz _ ih =>
    obtain ⟨z, hx, hy⟩ := hz
    obtain ⟨zs, hxs, hys⟩ := ih
    exact ⟨z :: zs, .cons hx hxs, .cons hy hys⟩

/-- Each member of the second list has a partner in the first. -/
theorem exists_mem_of_forall₂ {R : β → γ → Prop} {xs : List β} {ys : List γ}
    (h : List.Forall₂ R xs ys) {y : γ} (hy : y ∈ ys) : ∃ x ∈ xs, R x y := by
  induction h with
  | nil => exact (nomatch hy)
  | cons hxy _ ih =>
    rcases List.mem_cons.mp hy with rfl | hlater
    · exact ⟨_, List.mem_cons_self, hxy⟩
    · obtain ⟨x, hx, hrel⟩ := ih hlater
      exact ⟨x, List.mem_cons_of_mem _ hx, hrel⟩

/-- If members agree one by one, then the lists agree on whether all of them do. -/
theorem forall_mem_congr_of_forall₂ {A : β → Prop} {B : γ → Prop} {xs : List β} {ys : List γ}
    (h : List.Forall₂ (fun x y => A x ↔ B y) xs ys) : (∀ x ∈ xs, A x) ↔ ∀ y ∈ ys, B y := by
  induction h with
  | nil => exact ⟨fun _ _ hy => (nomatch hy), fun _ _ hx => (nomatch hx)⟩
  | cons hxy _ ih => rw [List.forall_mem_cons, List.forall_mem_cons, hxy, ih]

end SideBySide

/-! ## One step after the other -/

section Sequence

variable {ε β γ : Type}

theorem bind_eq_ok_iff {x : Except ε β} {f : β → Except ε γ} {c : γ} :
    x.bind f = .ok c ↔ ∃ b, x = .ok b ∧ f b = .ok c := by
  cases x with
  | error e => exact ⟨fun h => (nomatch h), fun ⟨_, h, _⟩ => (nomatch h)⟩
  | ok b =>
    refine ⟨fun h => ⟨b, rfl, h⟩, ?_⟩
    rintro ⟨_, h, hf⟩
    cases h
    exact hf

theorem map_eq_ok_iff {x : Except ε β} {f : β → γ} {c : γ} :
    x.map f = .ok c ↔ ∃ b, x = .ok b ∧ f b = c := by
  cases x with
  | error e => exact ⟨fun h => (nomatch h), fun ⟨_, h, _⟩ => (nomatch h)⟩
  | ok b =>
    refine ⟨fun h => ⟨b, rfl, Except.ok.inj h⟩, ?_⟩
    rintro ⟨_, h, rfl⟩
    cases h
    rfl

theorem bind_eq_error_iff {x : Except ε β} {f : β → Except ε γ} {e : ε} :
    x.bind f = .error e ↔ x = .error e ∨ ∃ b, x = .ok b ∧ f b = .error e := by
  cases x with
  | error e' =>
    refine ⟨fun h => Or.inl (congrArg _ (Except.error.inj h)), ?_⟩
    rintro (h | ⟨_, h, -⟩)
    · exact congrArg _ (Except.error.inj h)
    · contradiction
  | ok b =>
    refine ⟨fun h => Or.inr ⟨b, rfl, h⟩, ?_⟩
    rintro (h | ⟨_, h, hf⟩)
    · contradiction
    · cases h
      exact hf

theorem map_eq_error_iff {x : Except ε β} {f : β → γ} {e : ε} :
    x.map f = .error e ↔ x = .error e := by
  cases x with
  | error e' => simp only [Except.map, Except.error.injEq]
  | ok b => simp only [Except.map, reduceCtorEq]

theorem mapError_eq_ok_iff {ε' : Type} {x : Except ε β} {f : ε → ε'} {b : β} :
    x.mapError f = .ok b ↔ x = .ok b := by
  cases x with
  | error e => exact ⟨fun h => (nomatch h), fun h => (nomatch h)⟩
  | ok b' => exact ⟨fun h => congrArg _ (Except.ok.inj h), fun h => congrArg _ (Except.ok.inj h)⟩

theorem mapError_eq_error_iff {ε' : Type} {x : Except ε β} {f : ε → ε'} {e : ε'} :
    x.mapError f = .error e ↔ ∃ d, x = .error d ∧ e = f d := by
  cases x with
  | error d => simp only [Except.mapError, Except.error.injEq, exists_eq_left', eq_comm]
  | ok b => simp only [Except.mapError, reduceCtorEq, false_and, exists_false]

/-! ## Steps over a list -/

/-- **A list of steps succeeds exactly when each of its steps does**, with the values in order. -/
theorem mapM_eq_ok_iff {f : β → Except ε γ} : ∀ {xs : List β} {ys : List γ},
    xs.mapM f = .ok ys ↔ List.Forall₂ (fun x y => f x = .ok y) xs ys
  | [], ys => by
    rw [List.mapM_nil, List.forall₂_nil_left_iff]
    exact ⟨fun h => (Except.ok.inj h).symm, fun h => h ▸ rfl⟩
  | x :: xs, ys => by
    rw [List.mapM_cons, List.forall₂_cons_left_iff]
    constructor
    · intro h
      obtain ⟨y, hx, hrest⟩ := bind_eq_ok_iff.mp h
      obtain ⟨zs, hxs, hys⟩ := bind_eq_ok_iff.mp hrest
      exact ⟨y, zs, hx, mapM_eq_ok_iff.mp hxs, (Except.ok.inj hys).symm⟩
    · rintro ⟨y, zs, hx, hxs, rfl⟩
      rw [hx, mapM_eq_ok_iff.mpr hxs]
      rfl

/-- If a step succeeds under a condition, and with a value that is known, so does a list of
steps. -/
theorem mapM_eq_ok_iff_of {f : β → Except ε γ} {P : β → Prop} {g : β → γ}
    (h : ∀ x y, f x = .ok y ↔ P x ∧ y = g x) {xs : List β} {ys : List γ} :
    xs.mapM f = .ok ys ↔ (∀ x ∈ xs, P x) ∧ ys = xs.map g := by
  have hvalues : List.Forall₂ (fun x y => y = g x) xs ys ↔ ys = xs.map g := by
    rw [← List.forall₂_eq_eq_eq, List.forall₂_map_right_iff]
    exact ⟨List.Forall₂.flip, List.Forall₂.flip⟩
  simp only [mapM_eq_ok_iff, h]
  rw [List.forall₂_and_left, hvalues]

/-- **A list of steps fails as the first of its steps that fails.** -/
theorem mapM_eq_error_iff {f : β → Except ε γ} {e : ε} : ∀ {xs : List β},
    xs.mapM f = .error e ↔ ∃ (k : Nat) (x : β), xs[k]? = some x ∧ f x = .error e ∧
      ∀ (j : Nat) y, j < k → xs[j]? = some y → ∃ z, f y = .ok z
  | [] => by
    refine ⟨fun h => (nomatch h), ?_⟩
    rintro ⟨k, x, hx, -⟩
    exact (nomatch hx)
  | x :: xs => by
    rw [List.mapM_cons]
    refine bind_eq_error_iff.trans ⟨?_, ?_⟩
    · rintro (hx | ⟨y, hx, hrest⟩)
      · exact ⟨0, x, rfl, hx, fun j _ hj => absurd hj (Nat.not_lt_zero j)⟩
      · rcases bind_eq_error_iff.mp hrest with hxs | ⟨ys, -, hpure⟩
        · obtain ⟨k, w, hw, hfail, hbefore⟩ := mapM_eq_error_iff.mp hxs
          refine ⟨k + 1, w, hw, hfail, fun j v hj hv => ?_⟩
          cases j with
          | zero => exact ⟨y, (Option.some.inj hv) ▸ hx⟩
          | succ j => exact hbefore j v (Nat.lt_of_succ_lt_succ hj) hv
        · contradiction
    · rintro ⟨k, w, hw, hfail, hbefore⟩
      cases k with
      | zero =>
        obtain rfl := Option.some.inj hw
        exact Or.inl hfail
      | succ k =>
        obtain ⟨y, hy⟩ := hbefore 0 x (Nat.succ_pos k) rfl
        have hxs : xs.mapM f = .error e := mapM_eq_error_iff.mpr
          ⟨k, w, hw, hfail, fun j v hj hv => hbefore (j + 1) v (Nat.succ_lt_succ hj) hv⟩
        exact Or.inr ⟨y, hy, bind_eq_error_iff.mpr (Or.inl hxs)⟩

/-- What holds of the members in front of a position. -/
theorem forall_mem_take_iff {P : β → Prop} {xs : List β} {k : Nat} :
    (∀ x ∈ xs.take k, P x) ↔ ∀ (j : Nat) x, j < k → xs[j]? = some x → P x := by
  constructor
  · intro h j x hj hx
    refine h x (List.mem_iff_getElem?.mpr ⟨j, ?_⟩)
    rw [List.getElem?_take_of_lt hj, hx]
  · intro h x hx
    obtain ⟨j, hj⟩ := List.mem_iff_getElem?.mp hx
    rw [List.getElem?_take, Option.ite_none_right_eq_some] at hj
    exact h j x hj.1 hj.2

/-- If it depends on the member alone whether a step fails, and with what, then a list of steps
fails with what the first member that is refused is refused with. -/
theorem mapM_eq_error_iff_of {f : β → Except ε γ} {P : β → Prop} {E : β → ε → Prop}
    (hok : ∀ x, (∃ y, f x = .ok y) ↔ P x) (herror : ∀ x e, f x = .error e ↔ E x e) {xs : List β}
    {e : ε} : xs.mapM f = .error e ↔
      ∃ (k : Nat) (x : β), xs[k]? = some x ∧ (∀ y ∈ xs.take k, P y) ∧ E x e := by
  simp only [mapM_eq_error_iff, hok, herror, forall_mem_take_iff]
  exact exists_congr fun k => exists_congr fun x => and_congr_right fun _ => and_comm

/-- A list of steps succeeds if each of its steps does. -/
theorem exists_mapM_iff {f : β → Except ε γ} {xs : List β} :
    (∃ ys, xs.mapM f = .ok ys) ↔ ∀ x ∈ xs, ∃ y, f x = .ok y := by
  constructor
  · rintro ⟨ys, hys⟩ x hx
    obtain ⟨y, -, hy⟩ := exists_mem_of_forall₂ (mapM_eq_ok_iff.mp hys).flip hx
    exact ⟨y, hy⟩
  · intro h
    cases hxs : xs.mapM f with
    | ok ys => exact ⟨ys, rfl⟩
    | error e =>
      obtain ⟨k, x, hx, hfail, -⟩ := mapM_eq_error_iff.mp hxs
      obtain ⟨y, hy⟩ := h x (List.mem_of_getElem? hx)
      rw [hfail] at hy
      contradiction

/-- Steps that agree on the members of a list agree on the list. -/
theorem mapM_congr {f g : β → Except ε γ} : ∀ {xs : List β} (_ : ∀ x ∈ xs, f x = g x),
    xs.mapM f = xs.mapM g
  | [], _ => rfl
  | x :: xs, h => by
    obtain ⟨hx, hxs⟩ := List.forall_mem_cons.mp h
    rw [List.mapM_cons, List.mapM_cons, hx, mapM_congr hxs]

/-! ## Folds -/

/-- **A fold fails as the first of its steps that fails**, from the total that the steps before it
lead to. -/
theorem foldlM_eq_error_iff {f : γ → β → Except ε γ} {e : ε} : ∀ {xs : List β} {total : γ},
    xs.foldlM f total = .error e ↔ ∃ (k : Nat) (x : β) (reached : γ), xs[k]? = some x ∧
      (xs.take k).foldlM f total = .ok reached ∧ f reached x = .error e
  | [], total => by
    refine ⟨fun h => (nomatch h), ?_⟩
    rintro ⟨k, x, reached, hx, -⟩
    exact (nomatch hx)
  | x :: xs, total => by
    rw [List.foldlM_cons]
    refine bind_eq_error_iff.trans ⟨?_, ?_⟩
    · rintro (hx | ⟨next, hx, hrest⟩)
      · exact ⟨0, x, total, rfl, rfl, hx⟩
      · obtain ⟨k, w, reached, hw, hbefore, hfail⟩ := foldlM_eq_error_iff.mp hrest
        refine ⟨k + 1, w, reached, hw, ?_, hfail⟩
        rw [List.take_succ_cons, List.foldlM_cons, hx]
        exact hbefore
    · rintro ⟨k, w, reached, hw, hbefore, hfail⟩
      cases k with
      | zero =>
        obtain rfl := Option.some.inj hw
        obtain rfl : total = reached := Except.ok.inj hbefore
        exact Or.inl hfail
      | succ k =>
        rw [List.take_succ_cons, List.foldlM_cons] at hbefore
        obtain ⟨next, hx, hlater⟩ := bind_eq_ok_iff.mp hbefore
        exact Or.inr ⟨next, hx, foldlM_eq_error_iff.mpr ⟨k, w, reached, hw, hlater, hfail⟩⟩

/-- If it depends on the member alone whether a step succeeds, then a fold succeeds exactly when
each of its steps does, with the fold of their values. -/
theorem foldlM_eq_ok_iff_of {f : γ → β → Except ε γ} {P : β → Prop} {g : γ → β → γ}
    (hok : ∀ total x next, f total x = .ok next ↔ P x ∧ next = g total x) :
    ∀ {xs : List β} {total last : γ},
      xs.foldlM f total = .ok last ↔ (∀ x ∈ xs, P x) ∧ last = xs.foldl g total
  | [], total, last => by
    refine ⟨fun h => ⟨fun _ hx => (nomatch hx), (Except.ok.inj h).symm⟩, fun h => ?_⟩
    rw [h.2]
    rfl
  | x :: xs, total, last => by
    rw [List.foldlM_cons, List.forall_mem_cons, List.foldl_cons, and_assoc,
      ← foldlM_eq_ok_iff_of hok]
    refine bind_eq_ok_iff.trans ⟨?_, fun ⟨hx, hrest⟩ => ⟨_, (hok _ _ _).mpr ⟨hx, rfl⟩, hrest⟩⟩
    rintro ⟨next, hnext, hrest⟩
    obtain ⟨hx, rfl⟩ := (hok _ _ _).mp hnext
    exact ⟨hx, hrest⟩

/-- If it depends on the member alone whether a step fails, and with what, then a fold fails with
what the first member that is refused is refused with. -/
theorem foldlM_eq_error_iff_of {f : γ → β → Except ε γ} {P : β → Prop} {g : γ → β → γ}
    {E : β → ε → Prop} (hok : ∀ total x next, f total x = .ok next ↔ P x ∧ next = g total x)
    (herror : ∀ total x e, f total x = .error e ↔ E x e) {xs : List β} {total : γ} {e : ε} :
    xs.foldlM f total = .error e ↔
      ∃ (k : Nat) (x : β), xs[k]? = some x ∧ (∀ y ∈ xs.take k, P y) ∧ E x e := by
  simp only [foldlM_eq_error_iff, foldlM_eq_ok_iff_of hok, herror]
  refine exists_congr fun k => exists_congr fun x => ⟨?_, ?_⟩
  · rintro ⟨reached, hx, ⟨hbefore, -⟩, hfail⟩
    exact ⟨hx, hbefore, hfail⟩
  · rintro ⟨hx, hbefore, hfail⟩
    exact ⟨_, hx, ⟨hbefore, rfl⟩, hfail⟩

/-- Folds whose steps agree on the members of a list agree. -/
theorem foldlM_congr {f g : γ → β → Except ε γ} : ∀ {xs : List β}
    (_ : ∀ x ∈ xs, ∀ total, f total x = g total x) (total : γ),
    xs.foldlM f total = xs.foldlM g total
  | [], _, _ => rfl
  | x :: xs, h, total => by
    obtain ⟨hx, hxs⟩ := List.forall_mem_cons.mp h
    rw [List.foldlM_cons, List.foldlM_cons, hx]
    exact congrArg _ (funext (foldlM_congr hxs))

/-- **What every step keeps holds of the last total**, if it holds of the first. -/
theorem foldlM_keeps {P : γ → Prop} {f : γ → β → Except ε γ} : ∀ {xs : List β}
    (_ : ∀ x ∈ xs, ∀ total next, P total → f total x = .ok next → P next) {total last : γ},
    P total → xs.foldlM f total = .ok last → P last
  | [], _, _, _, htotal, h => Except.ok.inj h ▸ htotal
  | x :: xs, hkeep, total, _, htotal, h => by
    obtain ⟨hx, hxs⟩ := List.forall_mem_cons.mp hkeep
    rw [List.foldlM_cons] at h
    obtain ⟨next, hnext, hlast⟩ := bind_eq_ok_iff.mp h
    exact foldlM_keeps hxs (hx total next htotal hnext) hlast

/-! ## What a sequence fails with -/

/-- What a computation fails with, if it does, has a property. -/
def FailsOnly (P : ε → Prop) (x : Except ε β) : Prop := ∀ e, x = .error e → P e

variable {P : ε → Prop}

theorem FailsOnly.bind {x : Except ε β} {f : β → Except ε γ} (hx : FailsOnly P x)
    (hf : ∀ b, FailsOnly P (f b)) : FailsOnly P (x.bind f) := by
  intro e h
  rcases bind_eq_error_iff.mp h with h | ⟨b, -, h⟩
  · exact hx e h
  · exact hf b e h

theorem FailsOnly.mapM {f : β → Except ε γ} (hf : ∀ x, FailsOnly P (f x)) (xs : List β) :
    FailsOnly P (xs.mapM f) := by
  intro e h
  obtain ⟨-, x, -, hx, -⟩ := mapM_eq_error_iff.mp h
  exact hf x e hx

theorem FailsOnly.foldlM {f : γ → β → Except ε γ} (hf : ∀ total x, FailsOnly P (f total x)) :
    ∀ (xs : List β) (total : γ), FailsOnly P (xs.foldlM f total)
  | [], _ => fun _ h => (nomatch h)
  | x :: xs, total => by
    rw [List.foldlM_cons]
    exact (hf total x).bind fun next => FailsOnly.foldlM hf xs next

end Sequence

/-! ## The first member without a property -/

/-- A list whose members do not all have a property has a first member without it. -/
theorem exists_first_not {β : Type} {P : β → Prop} : ∀ {xs : List β}, (¬ ∀ x ∈ xs, P x) →
    ∃ (k : Nat) (x : β), xs[k]? = some x ∧ (∀ (j : Nat) y, j < k → xs[j]? = some y → P y) ∧ ¬ P x
  | [], h => absurd (fun _ hx => (nomatch hx)) h
  | x :: xs, h => by
    by_cases hx : P x
    · have hxs : ¬ ∀ y ∈ xs, P y := fun hall => h (List.forall_mem_cons.mpr ⟨hx, hall⟩)
      obtain ⟨k, w, hw, hbefore, hfail⟩ := exists_first_not hxs
      refine ⟨k + 1, w, hw, fun j y hj hy => ?_, hfail⟩
      cases j with
      | zero => exact (Option.some.inj hy) ▸ hx
      | succ j => exact hbefore j y (Nat.lt_of_succ_lt_succ hj) hy
    · exact ⟨0, x, rfl, fun j _ hj => absurd hj (Nat.not_lt_zero j), hx⟩

/-! ## Runs -/

namespace Run

variable {α β γ : Type}

/-- **The outcome of a run is the outcome of its parts in order.** -/
theorem outcome_bind (r : Run α β) (f : β → Run α γ) :
    (r >>= f).outcome = r.outcome.bind fun b => (f b).outcome := by
  cases h : r.outcome with
  | ok b => rw [bind_ok h]; rfl
  | error e => rw [bind_error h]; rfl

@[simp] theorem outcome_check (x : Except (Fault α) β) :
    (check x).outcome = x.mapError .refused := rfl

end Run

end SqpInequality

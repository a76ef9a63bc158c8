import SqpInequality.Proofs.Point.History

/-!
# Proofs/Point/Visiting — a step moves a point the same way in every order

The entries of a step may be visited in any order, and a step may be taken in two parts:

    retract (d₁ ∪ d₂)   =   shifts of d₁, then of d₂   =   shifts of d₂, then of d₁

Where no key occurs twice, shifts succeed exactly if they are a move (`Point.shiftAll_eq_ok_iff`),
and what a move does is known from the look-ups in its entries alone.  Where they fail, an entry is
refused that the point they started from refuses as well (`Point.exists_refused_of_shiftAll`).
-/

namespace SqpInequality

variable {α : Type}

/-! ## Steps in two parts -/

/-- **A step is split into two**: each entry of it is in one of them, and no key is in both. -/
structure VectorMap.SplitsInto (step d e : VectorMap α) : Prop where
  /-- No key is in both parts. -/
  apart : ∀ k, d.get? k = none ∨ e.get? k = none
  /-- The parts have the entries of the step. -/
  together : ∀ k, step.get? k = (d.get? k).or (e.get? k)

namespace VectorMap.SplitsInto

variable {step d e : VectorMap α} {ds es : List (Key × Vec α)}

theorem symm (h : step.SplitsInto d e) : step.SplitsInto e d where
  apart k := (h.apart k).symm
  together k := by
    rw [h.together]
    rcases h.apart k with hd | he
    · rw [hd, Option.none_or, Option.or_none]
    · rw [he, Option.none_or, Option.or_none]

theorem nodup (h : step.SplitsInto d e) (hds : ds.Perm d.entries) (hes : es.Perm e.entries) :
    ((ds ++ es).map Prod.fst).Nodup := by
  have hdkeys := hds.map Prod.fst
  have hekeys := hes.map Prod.fst
  rw [List.map_append, List.nodup_append]
  refine ⟨hdkeys.nodup_iff.mpr d.vectors.nodup_keys, hekeys.nodup_iff.mpr e.vectors.nodup_keys, ?_⟩
  rintro k hd _ he rfl
  rcases h.apart k with hnone | hnone
  · exact KeyMap.lookup_eq_none_iff.mp hnone (hdkeys.mem_iff.mp hd)
  · exact KeyMap.lookup_eq_none_iff.mp hnone (hekeys.mem_iff.mp he)

theorem lookup (h : step.SplitsInto d e) (hds : ds.Perm d.entries) (hes : es.Perm e.entries)
    (k : Key) : (ds ++ es).lookup k = step.get? k := by
  rw [h.together, List.lookup_append, KeyMap.lookup_eq_of_perm hds d.vectors.nodup_keys,
    KeyMap.lookup_eq_of_perm hes e.vectors.nodup_keys]
  rfl

end VectorMap.SplitsInto

namespace Point

variable [Scalar α] {p q : Point α} {es fs : List (Key × Vec α)}

/-! ## Moves -/

theorem Moves.congr (h : ∀ k, es.lookup k = fs.lookup k) (hmoves : p.Moves es q) :
    p.Moves fs q where
  kept k hk := hmoves.kept k ((h k).trans hk)
  shifted k s hs := hmoves.shifted k s ((h k).trans hs)

/-- **A move leads to one point only.** -/
theorem Moves.unique {r : Point α} (hq : p.Moves es q) (hr : p.Moves es r) : q = r := by
  have hget : ∀ k, q.get? k = r.get? k := by
    intro k
    cases hs : es.lookup k with
    | none => rw [hq.kept k hs, hr.kept k hs]
    | some s =>
      obtain ⟨x, hx, -, hqk⟩ := hq.shifted k s hs
      obtain ⟨y, hy, -, hrk⟩ := hr.shifted k s hs
      rw [hqk, hrk, Option.some.inj (hx.symm.trans hy)]
  obtain ⟨qs⟩ := q
  obtain ⟨rs⟩ := r
  exact congrArg Point.mk (KeyMap.ext_get? hget)

/-- **A move keeps the keys.** -/
theorem Moves.keys_eq (h : p.Moves es q) : q.keys = p.keys := by
  refine (ColumnLayout.pairwise_keys q).eq_of_mem_iff (ColumnLayout.pairwise_keys p) fun k => ?_
  rw [mem_keys_iff, mem_keys_iff, contains_iff_dimension?, contains_iff_dimension?,
    h.dimension?_eq]

/-! ## Shifts one after the other -/

/-- **Shifts of different variables succeed exactly if they are a move.** -/
theorem shiftAll_eq_ok_iff (hnodup : (es.map Prod.fst).Nodup) :
    p.shiftAll es = .ok q ↔ p.Moves es q := by
  refine ⟨moves_of_shiftAll hnodup, fun h => ?_⟩
  have hfits : ∀ e ∈ es, p.dimension? e.1 = some e.2.length := by
    intro e he
    obtain ⟨x, hx, hlength, -⟩ := h.shifted e.1 e.2 ((KeyMap.lookup_eq_some_iff_mem hnodup).mpr he)
    exact dimension?_eq_some_iff.mpr ⟨x, hx, hlength⟩
  obtain ⟨r, hr⟩ := exists_shiftAll hfits
  rw [hr, h.unique (moves_of_shiftAll hnodup hr)]

/-- **Shifts of different variables succeed exactly if each fits its variable.** -/
theorem exists_shiftAll_iff (hnodup : (es.map Prod.fst).Nodup) :
    (∃ q, p.shiftAll es = .ok q) ↔
      ∀ k s, es.lookup k = some s → p.dimension? k = some s.length := by
  constructor
  · rintro ⟨q, hq⟩ k s hs
    obtain ⟨x, hx, hlength, -⟩ := (moves_of_shiftAll hnodup hq).shifted k s hs
    exact dimension?_eq_some_iff.mpr ⟨x, hx, hlength⟩
  · exact fun h => exists_shiftAll fun e he =>
      h e.1 e.2 ((KeyMap.lookup_eq_some_iff_mem hnodup).mpr he)

/-- **Shifts with the look-ups of a step do what the step does.** -/
theorem shiftAll_eq_ok_iff_retract {step : VectorMap α} (hnodup : (es.map Prod.fst).Nodup)
    (hlookup : ∀ k, es.lookup k = step.get? k) :
    p.shiftAll es = .ok q ↔ p.retract step = .ok q := by
  have hstep : (step.entries.map Prod.fst).Nodup := step.vectors.nodup_keys
  rw [retract, shiftAll_eq_ok_iff hnodup, shiftAll_eq_ok_iff hstep]
  exact ⟨Moves.congr hlookup, Moves.congr fun k => (hlookup k).symm⟩

/-- **Shifts fail as one of them fails at the start**: those before it change no dimension. -/
theorem exists_refused_of_shiftAll : ∀ {es : List (Key × Vec α)} {p : Point α} {fault : Fault α},
    p.shiftAll es = .error fault → ∃ e ∈ es, p.shift e.1 e.2 = .error fault
  | [], _, _, h => nomatch h
  | e :: rest, p, fault, h => by
    rcases bind_eq_error_iff.mp h with hfirst | ⟨m, hshift, hlater⟩
    · exact ⟨e, List.mem_cons_self, hfirst⟩
    · obtain ⟨f, hf, hrefused⟩ := exists_refused_of_shiftAll hlater
      refine ⟨f, List.mem_cons_of_mem _ hf, ?_⟩
      -- a shift is refused for its dimensions alone, and `m` has those of `p`
      rw [shift_eq_error_iff] at hrefused ⊢
      rwa [(moves_of_shift hshift).dimension?_eq] at hrefused

theorem shiftAll_append (fs : List (Key × Vec α)) : ∀ (es : List (Key × Vec α)) (p : Point α),
    p.shiftAll (es ++ fs) = (p.shiftAll es).bind fun q => q.shiftAll fs
  | [], _ => rfl
  | e :: rest, p => by
    rw [List.cons_append, shiftAll, shiftAll]
    cases p.shift e.1 e.2 with
    | error fault => rfl
    | ok m => exact shiftAll_append fs rest m

/-! ## Visiting the entries of a step -/

/-- What a step does to a point that accepts it. -/
theorem entries_of_retract {step : VectorMap α} (h : p.retract step = .ok q) :
    q.keys = p.keys ∧ (∀ k, q.dimension? k = p.dimension? k) ∧
    (∀ k, step.get? k = none → q.get? k = p.get? k) ∧
    ∀ k s, step.get? k = some s → ∃ x y, p.get? k = some x ∧ q.get? k = some y ∧
      x.length = s.length ∧ y.length = s.length ∧
      ∀ (i : Nat) (a b : α), x[i]? = some a → s[i]? = some b → y[i]? = some (a + b) := by
  have hmoves := moves_of_retract h
  refine ⟨hmoves.keys_eq, hmoves.dimension?_eq, hmoves.kept, fun k s hs => ?_⟩
  obtain ⟨x, hx, hlength, hq⟩ := hmoves.shifted k s hs
  refine ⟨x, Vec.add x s, hx, hq, hlength, ?_, fun i a b => Vec.getElem?_add⟩
  rw [Vec.length_add, hlength, Nat.min_self]

/-- What a visit of the entries of a step says of the step, in whatever order it is made. -/
theorem visit_in_order {step : VectorMap α} (h : es.Perm step.entries) :
    ((∃ q, p.shiftAll es = .ok q) ↔
      ∀ k s, step.get? k = some s → p.dimension? k = some s.length) ∧
    (∀ q, p.shiftAll es = .ok q ↔ p.retract step = .ok q) ∧
    ∀ fault, p.shiftAll es = .error fault → ∃ k s, step.get? k = some s ∧
      (p.dimension? k = none ∧ fault = .stepUnassigned k ∧ fault.kind = .missingVariable ∨
        ∃ d, p.dimension? k = some d ∧ d ≠ s.length ∧ fault = .stepDimension k d s.length ∧
          fault.kind = .dimensionMismatch) := by
  have hstep : (step.entries.map Prod.fst).Nodup := step.vectors.nodup_keys
  have hnodup : (es.map Prod.fst).Nodup := (h.map Prod.fst).nodup_iff.mpr hstep
  have hlookup : ∀ k, es.lookup k = step.get? k := KeyMap.lookup_eq_of_perm h hstep
  refine ⟨?_, fun q => shiftAll_eq_ok_iff_retract hnodup hlookup, fun fault hfault => ?_⟩
  · simp only [exists_shiftAll_iff hnodup, hlookup]
  · obtain ⟨⟨k, s⟩, hmem, hrefused⟩ := exists_refused_of_shiftAll hfault
    refine ⟨k, s, (KeyMap.lookup_eq_some_iff_mem hstep).mpr (h.mem_iff.mp hmem), ?_⟩
    rcases shift_eq_error_iff.mp hrefused with ⟨hnone, rfl⟩ | ⟨d, hd, hne, rfl⟩
    · exact Or.inl ⟨hnone, rfl, rfl⟩
    · exact Or.inr ⟨d, hd, hne, rfl, rfl⟩

/-- One part of a step and then the other lead where the step leads. -/
theorem shiftAll_parts_eq_ok_iff {step d e : VectorMap α} {ds : List (Key × Vec α)}
    (h : step.SplitsInto d e) (hds : ds.Perm d.entries) (hes : es.Perm e.entries) :
    ((p.shiftAll ds).bind fun m => m.shiftAll es) = .ok q ↔ p.retract step = .ok q := by
  rw [← shiftAll_append]
  exact shiftAll_eq_ok_iff_retract (h.nodup hds hes) (h.lookup hds hes)

/-- **A step moves a point variable by variable, in every order and in parts.**  In whatever order
its entries are visited, the step succeeds exactly if each variable that it names is assigned with a
vector of the length of its own, and leads to the same point; if it fails, then because of a key of
the step that is unassigned or of another dimension.  The point that it leads to has the same
variables with the same dimensions: those of the step are shifted component by component, the others
are kept.  A step that is split into two leads to the same point, or to none, whichever part is
taken first and in whatever order the entries of the parts are visited. -/
theorem retract_in_every_order (p : Point α) (step : VectorMap α) :
    (∀ es, es.Perm step.entries →
      ((∃ q, p.shiftAll es = .ok q) ↔
        ∀ k s, step.get? k = some s → p.dimension? k = some s.length) ∧
      (∀ q, p.shiftAll es = .ok q ↔ p.retract step = .ok q) ∧
      ∀ fault, p.shiftAll es = .error fault → ∃ k s, step.get? k = some s ∧
        (p.dimension? k = none ∧ fault = .stepUnassigned k ∧ fault.kind = .missingVariable ∨
          ∃ d, p.dimension? k = some d ∧ d ≠ s.length ∧ fault = .stepDimension k d s.length ∧
            fault.kind = .dimensionMismatch)) ∧
    (∀ q, p.retract step = .ok q →
      q.keys = p.keys ∧ (∀ k, q.dimension? k = p.dimension? k) ∧
      (∀ k, step.get? k = none → q.get? k = p.get? k) ∧
      ∀ k s, step.get? k = some s → ∃ x y, p.get? k = some x ∧ q.get? k = some y ∧
        x.length = s.length ∧ y.length = s.length ∧
        ∀ (i : Nat) (a b : α), x[i]? = some a → s[i]? = some b → y[i]? = some (a + b)) ∧
    ∀ d e, step.SplitsInto d e → ∀ ds es, ds.Perm d.entries → es.Perm e.entries → ∀ q,
      (((p.shiftAll ds).bind fun m => m.shiftAll es) = .ok q ↔ p.retract step = .ok q) ∧
      (((p.shiftAll es).bind fun m => m.shiftAll ds) = .ok q ↔ p.retract step = .ok q) :=
  ⟨fun _ => visit_in_order, fun _ => entries_of_retract, fun _ _ hsplit _ _ hds hes _ =>
    ⟨shiftAll_parts_eq_ok_iff hsplit hds hes, shiftAll_parts_eq_ok_iff hsplit.symm hes hds⟩⟩

/-- A point with two variables. -/
def twoVariables : Point Float := ⟨.ofList [(0, [1, 2]), (1, [3])]⟩

/-- Both variables are shifted, in descending order and in two parts.  A step that fits neither of
its variables fails because of the one that is visited first. -/
theorem retract_in_descending_order :
    (∃ q y, twoVariables.shiftAll [(1, [0.25]), (0, [0.5, 4])] = .ok q ∧
      ((twoVariables.shiftAll [(1, [0.25])]).bind fun m => m.shiftAll [(0, [0.5, 4])]) = .ok q ∧
      twoVariables.retract (.ofList [(0, [0.5, 4]), (1, [0.25])]) = .ok q ∧ q.keys = [0, 1] ∧
      q.get? 0 = some y ∧ y[1]? = some (2 + 4)) ∧
    ∃ s, twoVariables.shiftAll [(2, [1]), (1, [0, 0])] = .error (.stepUnassigned 2) ∧
      (VectorMap.ofList [(1, [(0 : Float), 0]), (2, [1])]).get? 2 = some s ∧
      twoVariables.dimension? 2 = none := by
  constructor
  · obtain ⟨hvisit, hentries, hparts⟩ :=
      retract_in_every_order twoVariables (.ofList [(0, [0.5, 4]), (1, [0.25])])
    have hsplit : (VectorMap.ofList [(0, [(0.5 : Float), 4]), (1, [0.25])]).SplitsInto
        (.ofList [(0, [0.5, 4])]) (.ofList [(1, [0.25])]) := by
      refine ⟨fun k => ?_, fun k => ?_⟩
      · by_cases hk : k = 0
        · subst hk
          exact Or.inr rfl
        · exact Or.inl (KeyMap.lookup_cons_ne hk ..)
      · change ([((0 : Key), [(0.5 : Float), 4])] ++ [(1, [0.25])]).lookup k = _
        exact List.lookup_append
    obtain ⟨q, hq⟩ : ∃ q, twoVariables.shiftAll [(1, [0.25]), (0, [0.5, 4])] = .ok q := ⟨_, rfl⟩
    have hretract := ((hvisit _ (List.Perm.swap ..)).2.1 q).mp hq
    obtain ⟨hkeys, -, -, hshifted⟩ := hentries q hretract
    obtain ⟨x, y, hx, hy, -, -, hadd⟩ := hshifted 0 [0.5, 4] rfl
    refine ⟨q, y, hq, ?_, hretract, hkeys, hy, hadd 1 2 4 ?_ rfl⟩
    · exact (hparts _ _ hsplit _ _ (List.Perm.refl _) (List.Perm.refl _) q).2.mpr hretract
    · rw [← Option.some.inj hx]
      rfl
  · obtain ⟨hvisit, -, -⟩ :=
      retract_in_every_order twoVariables (.ofList [(1, [0, 0]), (2, [1])])
    obtain ⟨-, -, hrefused⟩ := hvisit [(2, [1]), (1, [0, 0])] (List.Perm.swap ..)
    obtain ⟨k, s, hs, ⟨hnone, hfault, -⟩ | ⟨d, -, -, hfault, -⟩⟩ := hrefused (.stepUnassigned 2) rfl
    · obtain rfl := Fault.stepUnassigned.inj hfault
      exact ⟨s, rfl, hs, hnone⟩
    · contradiction

end Point

end SqpInequality

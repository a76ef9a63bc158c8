import SqpInequality.Fault.Message
import SqpInequality.Proofs.Constraint.BuiltIn

/-!
# Proofs/Constraint/Refusal — variables are looked up before dimensions are compared

A constraint of the library takes the vectors of all of its variables, in the order of its keys, and
only then looks at how long they are:

    look up k₀ · look up k₁ · … · look up kₙ    then    compare dimensions
    the first that is missing is refused                the first that is wrong is refused

So a missing variable is refused even behind one of a wrong dimension, and a wrong dimension only
where no variable is missing (`Constraint.residual_eq_error_iff`).  Which dimensions are wrong is a
matter of the kind (`Constraint.Misfit`); a function takes its variables as they are.
-/

namespace SqpInequality

variable {α : Type}

/-! ## Variables that are missing -/

namespace Point

/-- **The first of some variables that a point does not assign.** -/
def FirstMissing (p : Point α) (ks : List Key) (k : Key) : Prop :=
  ∃ i : Nat, ks[i]? = some k ∧ p.contains k = false ∧ ∀ j ∈ ks.take i, p.contains j = true

variable {p : Point α} {k : Key} {ks : List Key} {fault : Fault α}

theorem dimension?_of_contains (h : p.contains k = true) :
    p.dimension? k = some (p.vector k).length := by
  obtain ⟨v, hv⟩ := Option.isSome_iff_exists.mp h
  exact dimension?_eq_some_iff.mpr ⟨v, hv, by rw [vector_eq hv]⟩

theorem exists_value_iff : (∃ v, p.value k = .ok v) ↔ p.contains k = true := by
  refine ⟨?_, fun h => ?_⟩
  · rintro ⟨v, hv⟩
    exact Option.isSome_of_eq_some (get?_of_value hv)
  · obtain ⟨v, hv⟩ := Option.isSome_iff_exists.mp h
    exact ⟨v, value_eq hv⟩

theorem value_eq_error_iff :
    p.value k = .error fault ↔ p.contains k = false ∧ fault = .notInPoint k := by
  change _ ↔ (p.get? k).isSome = false ∧ _
  rw [value]
  split
  · rename_i v hv
    simp [hv]
  · rename_i hv
    simp [hv, eq_comm]

/-- **Variables are looked up in order, and the first that is missing is refused.** -/
theorem gather_eq_error_iff :
    p.gather ks = .error fault ↔ ∃ k, p.FirstMissing ks k ∧ fault = .notInPoint k := by
  have herror : ∀ (k : Key) (fault : Fault α),
      p.value k = .error fault ↔ p.contains k = false ∧ fault = .notInPoint k :=
    fun _ _ => value_eq_error_iff
  rw [gather, mapM_eq_error_iff_of (fun _ => exists_value_iff) herror, exists_comm]
  constructor
  · rintro ⟨k, i, hk, hbefore, hmissing, rfl⟩
    exact ⟨k, ⟨i, hk, hmissing, hbefore⟩, rfl⟩
  · rintro ⟨k, ⟨i, hk, hmissing, hbefore⟩, rfl⟩
    exact ⟨k, i, hk, hbefore, hmissing, rfl⟩

theorem exists_firstMissing (h : ∃ k ∈ ks, p.contains k = false) : ∃ k, p.FirstMissing ks k := by
  have hnot : ¬ ∀ k ∈ ks, p.contains k = true := by
    intro hall
    obtain ⟨k, hk, hmissing⟩ := h
    rw [hall k hk] at hmissing
    contradiction
  obtain ⟨i, k, hk, hbefore, hmissing⟩ := exists_first_not hnot
  exact ⟨k, i, hk, Bool.not_eq_true _ ▸ hmissing, forall_mem_take_iff.mpr hbefore⟩

theorem FirstMissing.not_all (h : p.FirstMissing ks k) : ¬ ∀ k ∈ ks, p.contains k = true := by
  intro hall
  obtain ⟨i, hk, hmissing, -⟩ := h
  rw [hall k (List.mem_of_getElem? hk)] at hmissing
  contradiction

theorem not_firstMissing_nil : ¬ p.FirstMissing [] k := by
  rintro ⟨i, hk, -⟩
  exact nomatch hk

theorem firstMissing_cons_iff {m : Key} : p.FirstMissing (k :: ks) m ↔
    p.contains k = false ∧ m = k ∨ p.contains k = true ∧ p.FirstMissing ks m := by
  constructor
  · rintro ⟨i, hm, hmissing, hbefore⟩
    cases i with
    | zero =>
      obtain rfl := Option.some.inj hm
      exact Or.inl ⟨hmissing, rfl⟩
    | succ i =>
      rw [List.take_succ_cons, List.forall_mem_cons] at hbefore
      exact Or.inr ⟨hbefore.1, i, hm, hmissing, hbefore.2⟩
  · rintro (⟨hmissing, rfl⟩ | ⟨hk, i, hm, hmissing, hbefore⟩)
    · exact ⟨0, rfl, hmissing, nofun⟩
    · refine ⟨i + 1, hm, hmissing, ?_⟩
      rw [List.take_succ_cons, List.forall_mem_cons]
      exact ⟨hk, hbefore⟩

/-- **A fault comes up while some variables are looked up, or behind that**: one of them is missing,
the first, or none is and what is behind brings it up. -/
def Refuses (p : Point α) (ks : List Key) (behind : Prop) (fault : Fault α) : Prop :=
  (∃ k, p.FirstMissing ks k ∧ fault = .notInPoint k) ∨ (∀ k ∈ ks, p.contains k = true) ∧ behind

variable {behind : Prop}

theorem refuses_nil_iff : p.Refuses [] behind fault ↔ behind := by
  refine ⟨?_, fun h => Or.inr ⟨nofun, h⟩⟩
  rintro (⟨k, hk, -⟩ | ⟨-, h⟩)
  · exact absurd hk not_firstMissing_nil
  · exact h

theorem refuses_cons_iff : p.Refuses (k :: ks) behind fault ↔
    p.contains k = false ∧ fault = .notInPoint k ∨
      p.contains k = true ∧ p.Refuses ks behind fault := by
  simp only [Refuses, firstMissing_cons_iff, List.forall_mem_cons]
  constructor
  · rintro (⟨m, ⟨hmissing, rfl⟩ | ⟨hk, hm⟩, hfault⟩ | ⟨⟨hk, hks⟩, h⟩)
    · exact Or.inl ⟨hmissing, hfault⟩
    · exact Or.inr ⟨hk, Or.inl ⟨m, hm, hfault⟩⟩
    · exact Or.inr ⟨hk, Or.inr ⟨hks, h⟩⟩
  · rintro (⟨hmissing, hfault⟩ | ⟨hk, ⟨m, hm, hfault⟩ | ⟨hks, h⟩⟩)
    · exact Or.inl ⟨k, Or.inl ⟨hmissing, rfl⟩, hfault⟩
    · exact Or.inl ⟨m, Or.inr ⟨hk, hm⟩, hfault⟩
    · exact Or.inr ⟨⟨hk, hks⟩, h⟩

variable {β : Type} {f : Vec α → Except (Fault α) β}

/-- **One variable is looked up in front of what comes behind it.** -/
theorem bind_value_eq_error_iff
    (h : ∀ v, p.get? k = some v → (f v = .error fault ↔ p.Refuses ks behind fault)) :
    (p.value k).bind f = .error fault ↔ p.Refuses (k :: ks) behind fault := by
  rw [bind_eq_error_iff, value_eq_error_iff, refuses_cons_iff, ← exists_value_iff]
  refine or_congr_right ⟨?_, ?_⟩
  · rintro ⟨v, hv, hf⟩
    exact ⟨⟨v, hv⟩, (h v (get?_of_value hv)).mp hf⟩
  · rintro ⟨⟨v, hv⟩, hf⟩
    exact ⟨v, hv, (h v (get?_of_value hv)).mpr hf⟩

/-- **All variables are looked up in front of what is done with their vectors.** -/
theorem bind_gather_eq_error_iff {g : List (Vec α) → Except (Fault α) β}
    (h : (∀ k ∈ ks, p.contains k = true) → (g (ks.map p.vector) = .error fault ↔ behind)) :
    (p.gather ks).bind g = .error fault ↔ p.Refuses ks behind fault := by
  rw [bind_eq_error_iff, gather_eq_error_iff]
  refine or_congr_right ⟨?_, ?_⟩
  · rintro ⟨xs, hxs, hg⟩
    obtain ⟨hassigned, rfl⟩ := gather_eq_ok_iff.mp hxs
    exact ⟨hassigned, (h hassigned).mp hg⟩
  · rintro ⟨hassigned, hbehind⟩
    exact ⟨_, gather_eq_ok_iff.mpr ⟨hassigned, rfl⟩, (h hassigned).mpr hbehind⟩

end Point

/-! ## Dimensions that are wrong -/

namespace Constraint

/-- **A constraint of the library misfits the dimensions of its variables**, and this is what it is
refused for.  No dimension is wrong for a function. -/
inductive Misfit (p : Point α) : Constraint α → Fault α → Prop where
  /-- A bound is on a component that its variable does not have. -/
  | component {b : Bound α} {d : Nat} (hd : p.dimension? b.key = some d) (h : d ≤ b.index) :
      Misfit p (.bound b) (.boundComponent b.index b.key d)
  /-- A coefficient vector, the first of them, has another length than its variable. -/
  | coefficients {a : Affine α} {i : Nat} {t : Key × Vec α} {d : Nat}
      (ht : a.terms[i]? = some t)
      (hbefore : ∀ u ∈ a.terms.take i, p.dimension? u.1 = some u.2.length)
      (hd : p.dimension? t.1 = some d) (h : t.2.length ≠ d) :
      Misfit p (.affine a) (.coefficientLength t.1 t.2.length d)
  /-- The two points of a distance differ in dimension. -/
  | points {c : MaxDistance α} {d e : Nat} (hd : p.dimension? c.first = some d)
      (he : p.dimension? c.second = some e) (h : d ≠ e) :
      Misfit p (.distance c) (.pointDimensions c.first d c.second e)

/-- **Some dimension is wrong for a constraint of the library.** -/
def Misshapen (p : Point α) : Constraint α → Prop
  | .bound b => ∃ d, p.dimension? b.key = some d ∧ d ≤ b.index
  | .affine a => ∃ t ∈ a.terms, ∃ d, p.dimension? t.1 = some d ∧ t.2.length ≠ d
  | .distance c => ∃ d e, p.dimension? c.first = some d ∧ p.dimension? c.second = some e ∧ d ≠ e
  | .numerical _ | .custom _ => False

variable {c : Constraint α} {p : Point α} {fault : Fault α}

theorem Misfit.kind_eq (h : c.Misfit p fault) : fault.kind = .dimensionMismatch := by
  cases h <;> rfl

/-- **A wrong dimension is refused, the first of several.** -/
theorem exists_misfit_iff (hassigned : ∀ k ∈ c.keys, p.contains k = true) :
    (∃ fault, c.Misfit p fault) ↔ c.Misshapen p := by
  constructor
  · rintro ⟨-, ⟨hd, h⟩ | ⟨ht, -, hd, h⟩ | ⟨hd, he, h⟩⟩
    · exact ⟨_, hd, h⟩
    · exact ⟨_, List.mem_of_getElem? ht, _, hd, h⟩
    · exact ⟨_, _, hd, he, h⟩
  · intro h
    cases c with
    | bound b =>
      obtain ⟨d, hd, h⟩ := h
      exact ⟨_, .component hd h⟩
    | affine a =>
      obtain ⟨u, hu, d, hd, h⟩ := h
      have hnot : ¬ ∀ t ∈ a.terms, p.dimension? t.1 = some t.2.length := by
        intro hall
        exact h (Option.some.inj ((hall u hu).symm.trans hd))
      -- The first term of a wrong length is named, which need not be the given one.
      obtain ⟨i, t, ht, hbefore, hwrong⟩ := exists_first_not hnot
      have hkey : t.1 ∈ a.keys := List.mem_map_of_mem (List.mem_of_getElem? ht)
      have hdimension := Point.dimension?_of_contains (hassigned t.1 hkey)
      refine ⟨_, .coefficients ht (forall_mem_take_iff.mpr hbefore) hdimension ?_⟩
      intro hlength
      exact hwrong (hdimension.trans (congrArg some hlength.symm))
    | distance c =>
      obtain ⟨d, e, hd, he, h⟩ := h
      exact ⟨_, .points hd he h⟩
    | numerical _ => exact h.elim
    | custom _ => exact h.elim

end Constraint

/-! ## What a constraint is refused for -/

/-- **What a constraint of the library is refused for at a point**: a variable that is missing, the
first of them, and where none is, a wrong dimension. -/
def Constraint.RefusedFor (c : Constraint α) (p : Point α) (fault : Fault α) : Prop :=
  p.Refuses c.keys (c.Misfit p fault) fault

namespace Constraint

variable {c : Constraint α} {p : Point α}

theorem RefusedFor.kind_eq {fault : Fault α} (h : c.RefusedFor p fault) :
    fault.kind = if c.keys.all p.contains then .dimensionMismatch else .missingVariable := by
  rcases h with ⟨k, hk, rfl⟩ | ⟨hassigned, hmisfit⟩
  · rw [if_neg (mt List.all_eq_true.mp hk.not_all), Fault.kind]
  · rw [if_pos (List.all_eq_true.mpr hassigned), hmisfit.kind_eq]

theorem refusedFor_notInPoint_iff {k : Key} :
    c.RefusedFor p (.notInPoint k) ↔ p.FirstMissing c.keys k := by
  constructor
  · rintro (⟨j, hj, heq⟩ | ⟨-, hmisfit⟩)
    · obtain rfl := Fault.notInPoint.inj heq
      exact hj
    · exact nomatch hmisfit.kind_eq
  · exact fun hk => Or.inl ⟨k, hk, rfl⟩

theorem refusedFor_iff_misfit (hassigned : ∀ k ∈ c.keys, p.contains k = true) {fault : Fault α} :
    c.RefusedFor p fault ↔ c.Misfit p fault := by
  refine ⟨fun h => ?_, fun h => Or.inr ⟨hassigned, h⟩⟩
  rcases h with ⟨k, hk, -⟩ | ⟨-, hmisfit⟩
  · exact absurd hassigned hk.not_all
  · exact hmisfit

end Constraint

/-! ## One kind after the other -/

open Constraint

theorem Bound.component_eq_error_iff {b : Bound α} {p : Point α} {fault : Fault α} :
    b.component p = .error fault ↔ (Constraint.bound b).RefusedFor p fault := by
  refine Point.bind_value_eq_error_iff fun v hv => ?_
  have hdimension : p.dimension? b.key = some v.length :=
    Point.dimension?_eq_some_iff.mpr ⟨v, hv, rfl⟩
  rw [Point.refuses_nil_iff]
  constructor
  · intro h
    split at h
    · contradiction
    · rename_i hnone
      obtain rfl := Except.error.inj h
      exact .component hdimension (List.getElem?_eq_none_iff.mp hnone)
  · rintro ⟨hd, h⟩
    obtain rfl := Option.some.inj (hdimension.symm.trans hd)
    rw [List.getElem?_eq_none h]

theorem MaxDistance.difference_eq_error_iff [Scalar α] {c : MaxDistance α} {p : Point α}
    {fault : Fault α} :
    c.difference p = .error fault ↔ (Constraint.distance c).RefusedFor p fault := by
  refine Point.bind_value_eq_error_iff fun x hx => Point.bind_value_eq_error_iff fun y hy => ?_
  have hfirst : p.dimension? c.first = some x.length :=
    Point.dimension?_eq_some_iff.mpr ⟨x, hx, rfl⟩
  have hsecond : p.dimension? c.second = some y.length :=
    Point.dimension?_eq_some_iff.mpr ⟨y, hy, rfl⟩
  rw [Point.refuses_nil_iff]
  constructor
  · intro h
    split at h
    · contradiction
    · rename_i hlength
      obtain rfl := Except.error.inj h
      exact .points hfirst hsecond hlength
  · rintro (_ | _ | ⟨hd, he, h⟩)
    obtain rfl := Option.some.inj (hfirst.symm.trans hd)
    obtain rfl := Option.some.inj (hsecond.symm.trans he)
    exact if_neg h

namespace Affine

variable [Scalar α]

theorem addTerm_eq_error_iff (total : α) (t : (Key × Vec α) × Vec α) (fault : Fault α) :
    addTerm total t = .error fault ↔
      t.1.2.length ≠ t.2.length ∧ fault = .coefficientLength t.1.1 t.1.2.length t.2.length := by
  rw [addTerm]
  split
  · rename_i h
    simp [h]
  · rename_i h
    simp [h, eq_comm]

/-- With all vectors at hand, the first coefficient vector of a wrong length is refused. -/
theorem foldlM_addTerm_eq_error_iff {a : Affine α} {p : Point α} {fault : Fault α}
    (hassigned : ∀ k ∈ a.keys, p.contains k = true) (total : α) :
    (a.terms.zip (a.keys.map p.vector)).foldlM addTerm total = .error fault ↔
      (Constraint.affine a).Misfit p fault := by
  have hdimension : ∀ t ∈ a.terms, p.dimension? t.1 = some (p.vector t.1).length :=
    fun t ht => Point.dimension?_of_contains (hassigned t.1 (List.mem_map_of_mem ht))
  rw [zip_keys_map_vector, foldlM_eq_error_iff_of addTerm_eq_ok_iff addTerm_eq_error_iff]
  simp only [List.getElem?_map, Option.map_eq_some_iff, ← List.map_take, List.forall_mem_map]
  constructor
  · rintro ⟨i, _, ⟨t, ht, rfl⟩, hbefore, hlength, rfl⟩
    refine .coefficients ht (fun u hu => ?_) (hdimension t (List.mem_of_getElem? ht)) hlength
    rw [hdimension u (List.mem_of_mem_take hu), hbefore u hu]
  · intro hmisfit
    cases hmisfit with
    | coefficients ht hbefore hd h =>
      obtain rfl := Option.some.inj ((hdimension _ (List.mem_of_getElem? ht)).symm.trans hd)
      refine ⟨_, _, ⟨_, ht, rfl⟩, fun u hu => ?_, h, rfl⟩
      exact Option.some.inj ((hbefore u hu).symm.trans (hdimension u (List.mem_of_mem_take hu)))

theorem excess_eq_error_iff {a : Affine α} {p : Point α} {fault : Fault α} :
    a.excess p = .error fault ↔ (Constraint.affine a).RefusedFor p fault :=
  Point.bind_gather_eq_error_iff fun hassigned => foldlM_addTerm_eq_error_iff hassigned _

end Affine

theorem Numerical.residual_eq_error_iff [Scalar α] {c : Numerical α} {p : Point α}
    {fault : Fault α} :
    c.residual p = .error fault ↔ (Constraint.numerical c).RefusedFor p fault := by
  rw [residual, map_eq_error_iff, Point.gather_eq_error_iff]
  refine ⟨Or.inl, fun h => h.resolve_right ?_⟩
  rintro ⟨-, hmisfit⟩
  exact nomatch hmisfit

/-! ## All kinds -/

namespace Constraint

variable [Scalar α] {c : Constraint α} {p : Point α}

/-- **A constraint of the library is refused for the first variable that is missing**, and where
none is, for the first dimension that is wrong. -/
theorem residual_eq_error_iff (hkind : c.isBuiltIn = true) {failure : Failure α} :
    c.residual p = .error failure ↔ ∃ fault, c.RefusedFor p fault ∧ failure = .refused fault := by
  cases c with
  | bound b =>
    simp only [residual, mapError_eq_error_iff, Bound.residual, map_eq_error_iff,
      Bound.component_eq_error_iff]
  | affine a =>
    simp only [residual, mapError_eq_error_iff, Affine.residual, map_eq_error_iff,
      Affine.excess_eq_error_iff]
  | distance d =>
    simp only [residual, mapError_eq_error_iff, MaxDistance.residual, map_eq_error_iff,
      MaxDistance.difference_eq_error_iff]
  | numerical n =>
    simp only [residual, mapError_eq_error_iff, Numerical.residual_eq_error_iff]
  | custom _ => contradiction

/-- Where no variable is missing, a constraint of the library is refused exactly if a dimension is
wrong. -/
theorem exists_refused_iff (hkind : c.isBuiltIn = true)
    (hassigned : ∀ k ∈ c.keys, p.contains k = true) :
    (∃ failure, c.residual p = .error failure) ↔ c.Misshapen p := by
  rw [← exists_misfit_iff hassigned]
  simp only [residual_eq_error_iff hkind, refusedFor_iff_misfit hassigned]
  constructor
  · rintro ⟨-, fault, hfault, -⟩
    exact ⟨fault, hfault⟩
  · rintro ⟨fault, hfault⟩
    exact ⟨_, fault, hfault, rfl⟩

/-- **A constraint of the library looks all of its variables up before it compares a dimension.**
If a variable is missing, the residual is refused for the first that is, in the order of the keys,
and whatever dimensions the others have.  If none is, it is refused exactly if a dimension is wrong:
a bound is on a component that is not there, a coefficient vector has another length than its
variable, of which the first in the order of the terms is named, or two points differ.  Otherwise
there is a residual.  No refusal is of another kind. -/
theorem residual_looks_up_before_comparing (hkind : c.isBuiltIn = true) (p : Point α) :
    ((∃ k ∈ c.keys, p.contains k = false) →
      ∃ k, c.residual p = .error (.refused (.notInPoint k))) ∧
    (∀ k, c.residual p = .error (.refused (.notInPoint k)) ↔ p.FirstMissing c.keys k) ∧
    ((∀ k ∈ c.keys, p.contains k = true) →
      (∀ fault, c.residual p = .error (.refused fault) ↔ c.Misfit p fault) ∧
      ((∃ failure, c.residual p = .error failure) ↔ c.Misshapen p) ∧
      ((∃ v, c.residual p = .ok v) ↔ ¬ c.Misshapen p)) ∧
    (∀ failure, c.residual p = .error failure → ∃ fault, failure = .refused fault ∧
      fault.kind = if c.keys.all p.contains then .dimensionMismatch else .missingVariable) ∧
    ∀ k : Key,
      (Fault.notInPoint k).text = s!"variable {k.name} is not in the linearization point" ∧
      ∀ entries dimension, (Fault.coefficientLength k entries dimension).text
        = s!"coefficient for {k.name} has {entries} entries, variable has {dimension}" := by
  have hrefused : ∀ fault, c.residual p = .error (.refused fault) ↔ c.RefusedFor p fault := by
    intro fault
    simp [residual_eq_error_iff hkind]
  refine ⟨fun h => ?_, fun k => ?_, fun hassigned => ⟨fun fault => ?_, ?_, ?_⟩, ?_, ?_⟩
  · obtain ⟨k, hk⟩ := Point.exists_firstMissing h
    exact ⟨k, (hrefused _).mpr (refusedFor_notInPoint_iff.mpr hk)⟩
  · rw [hrefused, refusedFor_notInPoint_iff]
  · rw [hrefused, refusedFor_iff_misfit hassigned]
  · exact exists_refused_iff hkind hassigned
  · rw [← exists_refused_iff hkind hassigned]
    cases c.residual p <;> simp
  · intro failure h
    obtain ⟨fault, hfault, rfl⟩ := (residual_eq_error_iff hkind).mp h
    exact ⟨fault, rfl, hfault.kind_eq⟩
  · exact fun k => ⟨rfl, fun _ _ => rfl⟩

/-- An affine inequality in three variables, of which only the first has two components. -/
def threeTerms : Affine Float :=
  ⟨[(0, [1, 1]), (1, [2]), (2, [3])], 4, 100, by decide, by decide⟩

/-- A missing variable is refused behind one of a wrong dimension, and of two wrong dimensions the
first. -/
theorem residual_of_threeTerms :
    (Constraint.affine threeTerms).residual ⟨.ofList [(0, [1]), (2, [5, 5])]⟩
      = .error (.refused (.notInPoint 1)) ∧
    (Constraint.affine threeTerms).residual ⟨.ofList [(0, [1, 2]), (1, [1, 1]), (2, [5, 5])]⟩
      = .error (.refused (.coefficientLength 1 1 2)) ∧
    ∃ v, (Constraint.affine threeTerms).residual ⟨.ofList [(0, [1, 2]), (1, [1]), (2, [5])]⟩
      = .ok v := by
  have hdecided := residual_looks_up_before_comparing (c := .affine threeTerms) rfl
  refine ⟨?_, ?_, ?_⟩
  · exact ((hdecided _).2.1 1).mpr ⟨1, rfl, rfl, List.forall_mem_singleton.mpr rfl⟩
  · obtain ⟨hrefused, -⟩ :=
      (hdecided ⟨.ofList [(0, [1, 2]), (1, [1, 1]), (2, [5, 5])]⟩).2.2.1 (List.all_eq_true.mp rfl)
    refine (hrefused _).mpr ?_
    exact .coefficients (a := threeTerms) (i := 1) (t := (1, [2])) rfl (by decide +kernel) rfl
      (by decide)
  · obtain ⟨-, -, haccepted⟩ :=
      (hdecided ⟨.ofList [(0, [1, 2]), (1, [1]), (2, [5])]⟩).2.2.1 (List.all_eq_true.mp rfl)
    refine haccepted.mpr ?_
    have hfits : ∀ t ∈ threeTerms.terms,
        Point.dimension? (α := Float) ⟨.ofList [(0, [1, 2]), (1, [1]), (2, [5])]⟩ t.1
          = some t.2.length := by
      decide +kernel
    rintro ⟨t, ht, d, hd, hwrong⟩
    exact hwrong (Option.some.inj ((hfits t ht).symm.trans hd))

end Constraint

end SqpInequality

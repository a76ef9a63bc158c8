import SqpInequality.Proofs.Constraint.FirstOrder
import SqpInequality.Proofs.Kkt.FirstFailure
import SqpInequality.Proofs.Linear.Construction

/-!
# Proofs/Constraint/DoubleSum — affine inequalities as double sums, and bounds among them

    ∑ⱼ ∑ᵢ aⱼ[i] · xⱼ[i] - offset

The products of a vector are summed in blocks of eight, and the terms one after the other.  In exact
arithmetic neither order has a part in the value, so the terms of an affine inequality may be given
in any order, and a bound is the affine inequality of one unit vector
(`Affine.value_in_every_order`).
-/

namespace SqpInequality

variable {α : Type}

/-! ## Which terms are accepted -/

namespace Affine

theorem new_eq_ok {terms : List (Key × Vec α)} {offset : α} {dualKey : Key} {a : Affine α}
    (h : new terms offset dualKey = .ok a) :
    a.terms = terms ∧ a.offset = offset ∧ a.dualKey = dualKey := by
  rw [new] at h
  split at h
  · contradiction
  · split at h
    · contradiction
    · obtain rfl := Except.ok.inj h
      exact ⟨rfl, rfl, rfl⟩

/-- **Terms are accepted if there is one, and one for each variable.** -/
theorem exists_new_iff {terms : List (Key × Vec α)} {offset : α} {dualKey : Key} :
    (∃ a, new terms offset dualKey = .ok a) ↔ terms ≠ [] ∧ (terms.map Prod.fst).Nodup := by
  constructor
  · rintro ⟨a, ha⟩
    obtain ⟨rfl, -, -⟩ := new_eq_ok ha
    exact ⟨a.nonempty, a.distinct⟩
  · rintro ⟨hne, hdistinct⟩
    have hnone := Key.firstRepeat?_eq_none hdistinct fun _ _ => List.not_mem_nil
    rw [new, dif_neg hne]
    split
    · rename_i k hsome
      rw [hnone] at hsome
      contradiction
    · exact ⟨_, rfl⟩

/-- A term as a block of one row. -/
def row (t : Key × Vec α) : Key × Block α := (t.1, .ofRow t.2)

/-- The order of the terms has no part in which points fit. -/
theorem fits_iff_of_perm {a b : Affine α} (hterms : a.terms.Perm b.terms) (p : Point α) :
    a.Fits p ↔ b.Fits p := forall_congr' fun _ => by rw [hterms.mem_iff]

end Affine

variable [ExactScalar α]

/-! ## The value -/

namespace Affine

/-- The sum over all terms and all of their coefficients, less the offset. -/
def doubleSum (terms : List (Key × Vec α)) (offset : α) (p : Point α) : α :=
  (terms.map fun t => ∑ i ∈ Finset.range t.2.length,
    t.2.getD i 0 * (p.vector t.1).getD i 0).sum - offset

theorem excessAt_eq_doubleSum {a : Affine α} {p : Point α} (h : a.Fits p) :
    a.excessAt p = doubleSum a.terms a.offset p := by
  have hterm : ∀ t ∈ a.terms, Vec.weighted t.2 (p.vector t.1)
      = ∑ i ∈ Finset.range t.2.length, t.2.getD i 0 * (p.vector t.1).getD i 0 := by
    intro t ht
    obtain ⟨x, hx, hlength⟩ := h t ht
    rw [Point.vector_eq hx, Vec.weighted_eq_sum_range hlength, hlength]
  rw [excessAt, List.map_congr_left hterm, doubleSum]

theorem scalarError_eq_ok_iff {a : Affine α} {p : Point α} {e : α} :
    (Constraint.affine a).scalarError p = .ok e ↔ a.Fits p ∧ e = a.excessAt p := by
  rw [Constraint.scalarError_eq_ok_iff, Constraint.residual, mapError_eq_ok_iff, residual,
    map_eq_ok_iff]
  simp only [List.cons.injEq, and_true, exists_eq_right, excess_eq_ok_iff_excessAt]

/-- **An affine inequality has the double sum as its value**, at the points that fit it. -/
theorem scalarError_eq_ok_iff_doubleSum {a : Affine α} {p : Point α} {e : α} :
    (Constraint.affine a).scalarError p = .ok e ↔
      a.Fits p ∧ e = doubleSum a.terms a.offset p := by
  rw [scalarError_eq_ok_iff]
  exact and_congr_right fun hfits => by rw [excessAt_eq_doubleSum hfits]

/-- **The model has the terms as its blocks**, and the negated value as its right-hand side. -/
theorem linearize_eq_ok_iff {a : Affine α} {p : Point α} {m : LinearModel α} :
    (Constraint.affine a).linearize p = .ok m ↔
      a.Fits p ∧ m.terms = a.terms.map row ∧ m.rhs = [-a.excessAt p] := by
  rw [Constraint.linearize, mapError_eq_ok_iff, linearize, bind_eq_ok_iff]
  simp only [excess_eq_ok_iff_excessAt, LinearModel.new_eq_ok_iff]
  constructor
  · rintro ⟨_, ⟨hfits, rfl⟩, hmodel⟩
    exact ⟨hfits, hmodel⟩
  · rintro ⟨hfits, hmodel⟩
    exact ⟨_, ⟨hfits, rfl⟩, hmodel⟩

/-- An affine inequality has a model at the points that fit it. -/
theorem exists_linearize {a : Affine α} {p : Point α} (h : a.Fits p) :
    ∃ m, (Constraint.affine a).linearize p = .ok m := by
  have hkeys : ((a.terms.map row).map Prod.fst).Nodup := by
    rw [List.map_map]
    exact a.distinct
  exact ⟨⟨_, [-a.excessAt p], List.forall_mem_map.mpr fun _ _ => rfl, hkeys⟩,
    linearize_eq_ok_iff.mpr ⟨h, rfl, rfl⟩⟩

/-! ## Terms in another order -/

section Reordered

variable {a b : Affine α} (hterms : a.terms.Perm b.terms)

include hterms

theorem excessAt_eq_of_perm (hoffset : a.offset = b.offset) (p : Point α) :
    a.excessAt p = b.excessAt p := by
  rw [excessAt, (hterms.map _).sum_eq, hoffset, excessAt]

/-- Terms in another order give the same value. -/
theorem scalarError_iff_of_perm (hoffset : a.offset = b.offset) (p : Point α) (e : α) :
    (Constraint.affine a).scalarError p = .ok e ↔ (Constraint.affine b).scalarError p = .ok e := by
  rw [scalarError_eq_ok_iff, scalarError_eq_ok_iff, fits_iff_of_perm hterms,
    excessAt_eq_of_perm hterms hoffset]

/-- **Terms in another order give the same model, with its blocks in that order.** -/
theorem exists_linearize_of_perm (hoffset : a.offset = b.offset) {p : Point α}
    {m : LinearModel α} (hm : (Constraint.affine a).linearize p = .ok m) :
    ∃ n, (Constraint.affine b).linearize p = .ok n ∧ m.terms = a.terms.map row ∧
      n.terms = b.terms.map row ∧ m.terms.Perm n.terms ∧ n.rhs = m.rhs := by
  obtain ⟨hfits, hblocks, hrhs⟩ := linearize_eq_ok_iff.mp hm
  obtain ⟨n, hn⟩ := exists_linearize ((fits_iff_of_perm hterms p).mp hfits)
  obtain ⟨-, hblocks', hrhs'⟩ := linearize_eq_ok_iff.mp hn
  refine ⟨n, hn, hblocks, hblocks', ?_, ?_⟩
  · rw [hblocks, hblocks']
    exact hterms.map row
  · rw [hrhs', hrhs, excessAt_eq_of_perm hterms hoffset]

end Reordered

end Affine

/-! ## Bounds -/

/-- **Two constraints agree at a point**: they have the same value there and the same model. -/
def Constraint.AgreeAt (p : Point α) (c d : Constraint α) : Prop :=
  ∃ e m, c.scalarError p = .ok e ∧ d.scalarError p = .ok e ∧
    c.linearize p = .ok m ∧ d.linearize p = .ok m

theorem Vec.neg_unit (n i : Nat) (s : α) : neg (unit n i s) = unit n i (-s) := by
  rw [neg, unit, List.map_set, zero, List.map_replicate, neg_zero, unit, zero]

/-- The excess over a limit as a weighted value less an offset. -/
theorem Side.excess_eq (s : Side) (limit x : α) :
    s.excess limit x = s.slope * x - s.slope * limit := by
  cases s with
  | upper => rw [excess, slope, one_mul, one_mul]
  | lower => rw [excess, slope, neg_one_mul, neg_one_mul, sub_neg_eq_add, neg_add_eq_sub]

namespace Bound

theorem linearize_eq {b : Bound α} {p : Point α} {v : Vec α} {x : α}
    (hv : p.get? b.key = some v) (hx : v[b.index]? = some x) :
    b.linearize p = LinearModel.new
      [(b.key, .ofRow (Vec.unit v.length b.index b.side.slope))] [b.side.slack b.limit x] := by
  rw [linearize, component_eq_ok_iff.mpr ⟨v, hv, hx, rfl⟩]
  rfl

/-- **A bound agrees with the affine inequality of one unit vector**, that of its component. -/
theorem agreeAt_affine {b : Bound α} {a : Affine α} {p : Point α} {v : Vec α}
    (hv : p.get? b.key = some v) (hi : b.index < v.length)
    (hterms : a.terms = [(b.key, Vec.unit v.length b.index b.side.slope)])
    (hoffset : a.offset = b.side.slope * b.limit) :
    Constraint.AgreeAt p (.bound b) (.affine a) := by
  have hx : v[b.index]? = some v[b.index] := List.getElem?_eq_getElem hi
  have hfits : a.Fits p := by
    rw [Affine.Fits, hterms, List.forall_mem_singleton]
    exact ⟨v, hv, Vec.length_unit _ _ _⟩
  have hexcess : a.excessAt p = b.side.excess b.limit v[b.index] := by
    rw [Affine.excessAt, hterms, List.map_singleton, List.sum_singleton, Point.vector_eq hv,
      Vec.weighted_unit _ hx, hoffset, Side.excess_eq]
  obtain ⟨m, hm⟩ := Affine.exists_linearize hfits
  obtain ⟨-, hblocks, hrhs⟩ := Affine.linearize_eq_ok_iff.mp hm
  refine ⟨_, m, ?_, Affine.scalarError_eq_ok_iff.mpr ⟨hfits, rfl⟩, ?_, hm⟩
  · rw [Constraint.scalarError_eq_ok_iff, Constraint.residual, mapError_eq_ok_iff, hexcess]
    exact residual_eq_ok hv hx
  · rw [Constraint.linearize, mapError_eq_ok_iff, linearize_eq hv hx, LinearModel.new_eq_ok_iff,
      hblocks, hterms, hrhs, hexcess, Side.slack_eq_neg_excess]
    exact ⟨rfl, rfl⟩

/-- There is an affine inequality for each bound. -/
theorem exists_agreeAt_affine (b : Bound α) {p : Point α} {v : Vec α} {coefficients : Vec α}
    {offset : α} (hv : p.get? b.key = some v) (hi : b.index < v.length)
    (hcoefficients : coefficients = Vec.unit v.length b.index b.side.slope)
    (hoffset : offset = b.side.slope * b.limit) :
    ∃ a, Affine.new [(b.key, coefficients)] offset b.dualKey = .ok a ∧
      Constraint.AgreeAt p (.bound b) (.affine a) := by
  obtain ⟨a, ha⟩ := Affine.exists_new_iff.mpr
    ⟨List.cons_ne_nil (b.key, coefficients) [], List.nodup_singleton b.key⟩
  obtain ⟨hterms, hlimit, -⟩ := Affine.new_eq_ok ha
  exact ⟨a, ha, agreeAt_affine hv hi (hcoefficients ▸ hterms) (hlimit.trans hoffset)⟩

end Bound

namespace Affine

/-- **The value of an affine inequality is the double sum over its terms and their coefficients, in
whatever order the terms are given.**  Other orders are accepted if one is; they give the same value
at every point, and the same model but for the order of its blocks.  A bound agrees with the affine
inequality of one unit vector: an upper bound with that of the vector itself, a lower bound with
that of the negated vector and the negated limit. -/
theorem value_in_every_order :
    (∀ (terms : List (Key × Vec α)) (offset : α) (dualKey : Key) (a : Affine α),
      new terms offset dualKey = .ok a → ∀ (p : Point α) (e : α),
        (Constraint.affine a).scalarError p = .ok e ↔
          (∀ t ∈ terms, ∃ x, p.get? t.1 = some x ∧ t.2.length = x.length) ∧
          e = doubleSum terms offset p) ∧
    (∀ (terms others : List (Key × Vec α)) (offset : α) (dualKey : Key), terms.Perm others →
      ((∃ a, new terms offset dualKey = .ok a) ↔ ∃ b, new others offset dualKey = .ok b) ∧
      ∀ a b, new terms offset dualKey = .ok a → new others offset dualKey = .ok b →
        ∀ p : Point α,
          (∀ e, (Constraint.affine a).scalarError p = .ok e ↔
            (Constraint.affine b).scalarError p = .ok e) ∧
          ∀ m, (Constraint.affine a).linearize p = .ok m →
            ∃ n, (Constraint.affine b).linearize p = .ok n ∧ m.terms = terms.map row ∧
              n.terms = others.map row ∧ m.terms.Perm n.terms ∧ n.rhs = m.rhs) ∧
    ∀ (key : Key) (i : Nat) (limit : α) (dualKey : Key) (p : Point α) (v : Vec α),
      p.get? key = some v → i < v.length →
        (∃ a, new [(key, Vec.unit v.length i 1)] limit dualKey = .ok a ∧
          Constraint.AgreeAt p (.bound (.upper key i limit dualKey)) (.affine a)) ∧
        ∃ a, new [(key, Vec.neg (Vec.unit v.length i 1))] (-limit) dualKey = .ok a ∧
          Constraint.AgreeAt p (.bound (.lower key i limit dualKey)) (.affine a) := by
  refine ⟨fun terms offset dualKey a ha p e => ?_, fun terms others offset dualKey hperm => ?_,
    fun key i limit dualKey p v hv hi => ?_⟩
  · obtain ⟨rfl, rfl, -⟩ := new_eq_ok ha
    exact scalarError_eq_ok_iff_doubleSum
  · refine ⟨?_, fun a b ha hb p => ?_⟩
    · have hkeys := (hperm.map Prod.fst).nodup_iff
      rw [exists_new_iff, exists_new_iff, hkeys, ← List.length_pos_iff, ← List.length_pos_iff,
        hperm.length_eq]
    · obtain ⟨rfl, rfl, -⟩ := new_eq_ok ha
      obtain ⟨rfl, hoffset, -⟩ := new_eq_ok hb
      exact ⟨scalarError_iff_of_perm hperm hoffset.symm p,
        fun m => exists_linearize_of_perm hperm hoffset.symm⟩
  · exact ⟨(Bound.upper key i limit dualKey).exists_agreeAt_affine hv hi rfl (one_mul limit).symm,
      (Bound.lower key i limit dualKey).exists_agreeAt_affine hv hi (Vec.neg_unit _ _ _)
        (neg_one_mul limit).symm⟩

/-- Nine coefficients for one variable, two for another. -/
def nineAndTwo : List (Key × Vec ℚ) :=
  [(0, [1, 2, 3, 4, 5, 6, 7, 8, 9]), (1, [-2, 1 / 2])]

/-- A point that fits them. -/
def nineAndTwoPoint : Point ℚ := ⟨.ofList [(0, [1, 1, 1, 1, 1, 1, 1, 1, 2]), (1, [1, 4])]⟩

theorem value_of_nineAndTwo :
    ∃ a b c, new nineAndTwo 50 100 = .ok a ∧ new nineAndTwo.reverse 50 100 = .ok b ∧
      (Constraint.affine a).scalarError nineAndTwoPoint = .ok 4 ∧
      (Constraint.affine b).scalarError nineAndTwoPoint = .ok 4 ∧
      new [(0, Vec.neg (Vec.unit 9 8 1))] (-5) 101 = .ok c ∧
      Constraint.AgreeAt nineAndTwoPoint (.bound (.lower 0 8 5 101)) (.affine c) := by
  obtain ⟨hvalue, horder, hbound⟩ := value_in_every_order (α := ℚ)
  obtain ⟨a, ha⟩ : ∃ a, new nineAndTwo 50 100 = .ok a := ⟨_, rfl⟩
  obtain ⟨haccepted, hsame⟩ :=
    horder nineAndTwo nineAndTwo.reverse 50 100 (List.reverse_perm nineAndTwo).symm
  obtain ⟨b, hb⟩ := haccepted.mp ⟨a, ha⟩
  have hfour : (Constraint.affine a).scalarError nineAndTwoPoint = .ok 4 := by
    refine (hvalue _ _ _ a ha _ _).mpr ⟨?_, by decide +kernel⟩
    exact List.forall_mem_cons.mpr
      ⟨⟨_, rfl, rfl⟩, List.forall_mem_singleton.mpr ⟨_, rfl, rfl⟩⟩
  obtain ⟨-, c, hc, hagree⟩ := hbound 0 8 5 101 nineAndTwoPoint _ rfl (by decide)
  exact ⟨a, b, c, ha, hb, hfour, ((hsame a b ha hb _).1 4).mp hfour, hc, hagree⟩

end Affine

end SqpInequality

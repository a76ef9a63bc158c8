import SqpInequality.Proofs.Constraint.InPlace
import SqpInequality.Proofs.Exact

/-!
# Proofs/Constraint/Quadratic — difference quotients without an error

In exact arithmetic the quotient of a function that is quadratic along a component is its derivative
there, whatever the step (`Differences.getElem?_slopesAlong_of_quadratic`).  A weighted sum is
linear along each component.  So a function that computes one has its coefficients as slopes, and
its first-order model is that of the affine inequality itself (`Numerical.exact_on_quadratics`).
-/

namespace SqpInequality

/-! ## Sums with one entry changed -/

/-- Another component changes a product by its share. -/
theorem Vec.weighted_set {α : Type} [FieldScalar α] {a t : α} (s : α) :
    ∀ {row v : Vec α} {i : Nat}, row[i]? = some a → v[i]? = some t →
      weighted row (v.set i s) + a * t = weighted row v + a * s
  | b :: row, u :: v, 0, ha, ht => by
    obtain rfl := Option.some.inj ha
    obtain rfl := Option.some.inj ht
    rw [List.set_cons_zero, weighted_cons_cons, weighted_cons_cons]
    ring
  | b :: row, u :: v, i + 1, ha, ht => by
    have ih := weighted_set s (List.getElem?_cons_succ.symm.trans ha)
      (List.getElem?_cons_succ.symm.trans ht)
    rw [List.set_cons_succ, weighted_cons_cons, weighted_cons_cons, add_assoc, ih, add_assoc]

/-- Another entry changes a sum over pairs by its share. -/
theorem sum_map_zip_modify {α β γ : Type} [AddCommMonoid α] (g : β × γ → α) (f : γ → γ) {b : β}
    {c : γ} : ∀ {xs : List β} {ys : List γ} {j : Nat}, xs[j]? = some b → ys[j]? = some c →
      ((xs.zip (ys.modify j f)).map g).sum + g (b, c) = ((xs.zip ys).map g).sum + g (b, f c)
  | x :: xs, y :: ys, 0, hb, hc => by
    obtain rfl := Option.some.inj hb
    obtain rfl := Option.some.inj hc
    rw [List.modify_zero_cons, List.zip_cons_cons, List.zip_cons_cons, List.map_cons,
      List.map_cons, List.sum_cons, List.sum_cons]
    abel
  | x :: xs, y :: ys, j + 1, hb, hc => by
    have ih := sum_map_zip_modify g f (List.getElem?_cons_succ.symm.trans hb)
      (List.getElem?_cons_succ.symm.trans hc)
    rw [List.modify_succ_cons, List.zip_cons_cons, List.zip_cons_cons, List.map_cons,
      List.map_cons, List.sum_cons, List.sum_cons, add_assoc, ih, add_assoc]

/-! ## Functions that are quadratic along a component -/

namespace Differences

variable {α : Type} [FieldScalar α]

/-- **The central quotient of a quadratic is its derivative**, whatever the step. -/
theorem quotient_of_quadratic {h : α} (hh : h ≠ 0) (a b g t : α) :
    ((a + b * (t + h) + g * (t + h) ^ 2) - (a + b * (t - h) + g * (t - h) ^ 2)) / ((1 + 1) * h)
      = b + 2 * g * t := by
  have htwo : (1 + 1 : α) ≠ 0 := by
    rw [one_add_one_eq_two]
    exact two_ne_zero
  rw [div_eq_iff (mul_ne_zero htwo hh)]
  ring

/-- **The slope along a component is the derivative**, if the function is quadratic there. -/
theorem getElem?_slopesAlong_of_quadratic {f : List (Vec α) → α} {h : α} (hh : h ≠ 0)
    {x : List (Vec α)} {v : Vec α} {j i : Nat} {t a b g : α} (ht : v[i]? = some t)
    (hf : ∀ s, f (replace x j i s) = a + b * s + g * s ^ 2) :
    (slopesAlong f h x (v, j))[i]? = some (b + 2 * g * t) := by
  rw [getElem?_slopesAlong f h x j ht, hf, hf, quotient_of_quadratic hh]

end Differences

namespace Numerical

variable {α : Type} [Scalar α]

/-- The first-order model of a function: its value, and its slopes variable by variable. -/
theorem linearize_eq_assemble {c : Numerical α} {p : Point α} {x : List (Vec α)}
    (hx : p.gather c.keys = .ok x) : c.linearize p
      = c.assemble (c.function x, x.zipIdx.map (Differences.slopesAlong c.function c.step x)) := by
  rw [linearize, hx]
  change c.assemble (Id.run _) = _
  rw [Differences.run_firstOrder]
  rfl

/-- **Where all variables are assigned there is a first-order model**, with a row of slopes for each
variable. -/
theorem exists_linearize {c : Numerical α} {p : Point α} {x : List (Vec α)}
    (hx : p.gather c.keys = .ok x) : ∃ model, c.linearize p = .ok model ∧ model.keys = c.keys ∧
      model.blocks = (x.zipIdx.map (Differences.slopesAlong c.function c.step x)).map Block.ofRow ∧
      model.rhs = [-c.function x] := by
  have hlength : (x.zipIdx.map (Differences.slopesAlong c.function c.step x)).length
      = c.keys.length := by
    rw [List.length_map, List.length_zipIdx]
    exact (mapM_eq_ok_iff.mp hx).length_eq.symm
  have hmodel : ∃ model, c.linearize p = .ok model := by
    rw [linearize_eq_assemble hx]
    exact c.exists_assemble hlength
  obtain ⟨model, hmodel⟩ := hmodel
  exact ⟨model, hmodel, eq_of_assemble hlength (linearize_eq_assemble hx ▸ hmodel)⟩

end Numerical

/-! ## Weighted sums -/

namespace Affine

variable {α : Type}

/-- **Vectors match an affine inequality**: there is one for each term, with a component for each
coefficient. -/
def Matches (a : Affine α) (x : List (Vec α)) : Prop :=
  x.map List.length = a.terms.map fun t => t.2.length

/-- What fits at a point matches there. -/
theorem Fits.matches {a : Affine α} {p : Point α} (h : a.Fits p) :
    a.Matches (a.keys.map p.vector) := by
  rw [Matches, keys, List.map_map, List.map_map]
  refine List.map_congr_left fun t ht => ?_
  obtain ⟨v, hv, hlength⟩ := h t ht
  exact (congrArg List.length (Point.vector_eq hv)).trans hlength.symm

theorem Matches.replace {a : Affine α} {x : List (Vec α)} (h : a.Matches x) (j i : Nat) (s : α) :
    a.Matches (Differences.replace x j i s) :=
  (Differences.map_length_replace x j i s).trans h

variable [FieldScalar α]

/-- The weighted sum of vectors, one for each term, less the offset. -/
def weightedSum (a : Affine α) (x : List (Vec α)) : α :=
  ((a.terms.zip x).map fun e => Vec.weighted e.1.2 e.2).sum - a.offset

theorem excess_eq_weightedSum {a : Affine α} {p : Point α} (h : a.Fits p) :
    a.excess p = .ok (a.weightedSum (a.keys.map p.vector)) := by
  have hsum : a.terms.foldl (fun total t => total + Vec.dot t.2 (p.vector t.1)) (-a.offset)
      = a.weightedSum (a.keys.map p.vector) := by
    simp only [Vec.dot_eq_weighted]
    rw [weightedSum, zip_keys_map_vector, List.map_map, sub_eq_add_neg, add_comm,
      ← Vec.foldl_add_eq, List.foldl_map]
    rfl
  exact excess_eq_ok_iff.mpr ⟨h, hsum.symm⟩

/-- **A weighted sum is linear along each component**, with its coefficient as the slope. -/
theorem weightedSum_replace {a : Affine α} {x : List (Vec α)} {j i : Nat} {term : Key × Vec α}
    {v : Vec α} {q t : α} (hterm : a.terms[j]? = some term) (hv : x[j]? = some v)
    (hq : term.2[i]? = some q) (ht : v[i]? = some t) (s : α) :
    a.weightedSum (Differences.replace x j i s) = (a.weightedSum x - q * t) + q * s := by
  have hvectors := sum_map_zip_modify (fun e : (Key × Vec α) × Vec α => Vec.weighted e.1.2 e.2)
    (fun w => w.set i s) hterm hv
  have hcomponents := Vec.weighted_set s hq ht
  rw [weightedSum, weightedSum, Differences.replace]
  linear_combination hvectors + hcomponents

end Affine

namespace Numerical

variable {α : Type} [FieldScalar α]

/-- **A function computes an affine inequality**: it has the same variables, and at vectors that
match it is the weighted sum less the offset. -/
structure Computes (c : Numerical α) (a : Affine α) : Prop where
  /-- The variables are the same, in one order. -/
  keys_eq : c.keys = a.keys
  /-- The function is the weighted sum less the offset. -/
  function_eq : ∀ {x : List (Vec α)}, a.Matches x → c.function x = a.weightedSum x

namespace Computes

variable {c : Numerical α} {a : Affine α} {x : List (Vec α)} {p : Point α}

/-- The slopes of a weighted sum along a variable are the variable's coefficients. -/
theorem slopesAlong_eq (h : c.Computes a) (hstep : c.step ≠ 0) (hx : a.Matches x) {j : Nat}
    {term : Key × Vec α} {v : Vec α} (hterm : a.terms[j]? = some term) (hv : x[j]? = some v) :
    Differences.slopesAlong c.function c.step x (v, j) = term.2 := by
  have hlength : v.length = term.2.length := by
    have hsize := congrArg (fun sizes => sizes[j]?) hx
    simp only [List.getElem?_map, hv, hterm, Option.map_some, Option.some.injEq] at hsize
    exact hsize
  refine List.ext_getElem ((Differences.length_slopesAlong _ _ _ _).trans hlength)
    fun i hi hq => Option.some.inj ?_
  have hwithin : i < v.length := hlength ▸ hq
  have hlinear : ∀ s, c.function (Differences.replace x j i s)
      = (a.weightedSum x - term.2[i] * v[i]) + term.2[i] * s + 0 * s ^ 2 := by
    intro s
    rw [h.function_eq (hx.replace j i s), Affine.weightedSum_replace hterm hv
      (List.getElem?_eq_getElem hq) (List.getElem?_eq_getElem hwithin), zero_mul, add_zero]
  rw [← List.getElem?_eq_getElem hi, Differences.getElem?_slopesAlong_of_quadratic hstep
    (List.getElem?_eq_getElem hwithin) hlinear, mul_zero, zero_mul, add_zero]

/-- **The slopes of a weighted sum are its coefficients**, variable by variable. -/
theorem slopes_eq (h : c.Computes a) (hstep : c.step ≠ 0) (hx : a.Matches x) :
    x.zipIdx.map (Differences.slopesAlong c.function c.step x) = a.terms.map Prod.snd := by
  refine List.ext_getElem? fun j => ?_
  have hsizes : x[j]?.map List.length = a.terms[j]?.map fun t => t.2.length := by
    rw [← List.getElem?_map, hx, List.getElem?_map]
  rw [List.getElem?_map, List.getElem?_map, List.getElem?_zipIdx, Nat.zero_add]
  cases hv : x[j]? with
  | none =>
    rw [hv, Option.map_none] at hsizes
    rw [Option.map_eq_none_iff.mp hsizes.symm]
    rfl
  | some v =>
    rw [hv, Option.map_some] at hsizes
    obtain ⟨term, hterm, -⟩ := Option.map_eq_some_iff.mp hsizes.symm
    rw [hterm]
    exact congrArg some (h.slopesAlong_eq hstep hx hterm hv)

theorem gather_eq (h : c.Computes a) (hp : a.Fits p) :
    p.gather c.keys = .ok (a.keys.map p.vector) := by
  rw [h.keys_eq]
  refine Point.gather_eq_ok_iff.mpr ⟨List.forall_mem_map.mpr fun t ht => ?_, rfl⟩
  obtain ⟨v, hv, -⟩ := hp t ht
  rw [hv, Option.isSome_some]

theorem residual_eq (h : c.Computes a) (hp : a.Fits p) :
    c.residual p = .ok [a.weightedSum (a.keys.map p.vector)] := by
  rw [residual, h.gather_eq hp, ← h.function_eq hp.matches]
  rfl

/-- **The two have the same first-order model.** -/
theorem linearize_eq (h : c.Computes a) (hstep : c.step ≠ 0) (hp : a.Fits p) :
    c.linearize p = a.linearize p := by
  have hterms : c.keys.zip ((a.terms.map Prod.snd).map Block.ofRow)
      = a.terms.map fun t => (t.1, Block.ofRow t.2) := by
    rw [h.keys_eq, Affine.keys, List.map_map, List.zip_map']
    rfl
  rw [linearize_eq_assemble (h.gather_eq hp), h.slopes_eq hstep hp.matches,
    h.function_eq hp.matches, assemble, hterms, Affine.linearize, Affine.excess_eq_weightedSum hp]
  rfl

end Computes

/-! ## Without an error -/

/-- **Difference quotients of quadratics are derivatives, and those of weighted sums coefficients.**
Where a function is quadratic along a component, its coefficient in the model is the derivative
there; and a function that computes an affine inequality has the same residual and the same model as
it. -/
theorem exact_on_quadratics {c : Numerical α} (hstep : Scalar.isStep c.step = true) :
    (∀ {p : Point α}, (∀ k ∈ c.keys, p.contains k = true) →
      ∃ x model, List.Forall₂ (fun k v => p.get? k = some v) c.keys x ∧
        c.linearize p = .ok model ∧ model.keys = c.keys ∧
        ∀ {j i : Nat} {v : Vec α} {t a b g : α}, x[j]? = some v → v[i]? = some t →
          (∀ s, c.function (Differences.replace x j i s) = a + b * s + g * s ^ 2) →
            ∃ row, model.blocks[j]? = some (Block.ofRow row) ∧ row[i]? = some (b + 2 * g * t)) ∧
    ∀ {a : Affine α}, c.Computes a → ∀ {p : Point α}, a.Fits p →
      ∃ e model, c.residual p = .ok [e] ∧ a.residual p = .ok [e] ∧
        c.linearize p = .ok model ∧ a.linearize p = .ok model := by
  have hpositive : 0 < c.step := of_decide_eq_true (Bool.and_eq_true_iff.mp hstep).2
  have hnonzero : c.step ≠ 0 := FieldScalar.ne_zero_of_pos c.step hpositive
  refine ⟨fun {p} hp => ?_, fun {a} ha p hp => ?_⟩
  · obtain ⟨x, hx⟩ := Point.exists_gather hp
    obtain ⟨model, hmodel, hkeys, hblocks, -⟩ := exists_linearize hx
    have hvalues := Point.gather_eq_ok_iff_get?.mp hx
    refine ⟨x, model, hvalues, hmodel, hkeys, fun {j i v t a b g} hv ht hquadratic => ?_⟩
    refine ⟨Differences.slopesAlong c.function c.step x (v, j), ?_,
      Differences.getElem?_slopesAlong_of_quadratic hnonzero ht hquadratic⟩
    rw [hblocks, List.getElem?_map, List.getElem?_map, getElem?_zipIdx_of_getElem? hv,
      Option.map_some, Option.map_some]
  · obtain ⟨model, hmodel, -⟩ := exists_linearize (ha.gather_eq hp)
    have hresidual : a.residual p = .ok [a.weightedSum (a.keys.map p.vector)] := by
      rw [Affine.residual, Affine.excess_eq_weightedSum hp]
      rfl
    exact ⟨_, model, ha.residual_eq hp, hresidual, hmodel,
      (ha.linearize_eq hnonzero hp).symm.trans hmodel⟩

/-- The square of the distance to the origin less one. -/
def disk : Numerical ℚ where
  keys := [0]
  function x := (x.flatten.map fun t => t * t).sum - 1
  dualKey := 100
  step := 1 / 4
  nonempty := by decide
  distinct := by decide

/-- An affine inequality over a number and a vector. -/
def plane : Affine ℚ := ⟨[(0, [2]), (1, [-1, 3])], 4, 101, by decide, by decide⟩

/-- A function that computes `plane`. -/
def planeFunction : Numerical ℚ where
  keys := [0, 1]
  function
    | [[s], [t, u]] => 2 * s - t + 3 * u - 4
    | _ => 0
  dualKey := 101
  step := 1 / 2
  nonempty := by decide
  distinct := by decide

theorem computes_planeFunction : planeFunction.Computes plane := by
  refine ⟨rfl, fun {x} hx => ?_⟩
  obtain ⟨v, others, rfl, hv, hothers⟩ := List.map_eq_cons_iff.mp hx
  obtain ⟨w, rest, rfl, hw, hrest⟩ := List.map_eq_cons_iff.mp hothers
  obtain rfl := List.map_eq_nil_iff.mp hrest
  obtain ⟨s, rfl⟩ := List.length_eq_one_iff.mp hv
  obtain ⟨t, u, rfl⟩ := List.length_eq_two.mp hw
  change 2 * s - t + 3 * u - 4 = _
  simp [Affine.weightedSum, plane]
  ring

theorem exact_on_quadratics_of_disk_and_plane :
    (∃ model row, disk.linearize ⟨.ofList [(0, [1 / 2, 1])]⟩ = .ok model ∧
      model.blocks[0]? = some (Block.ofRow row) ∧ row[1]? = some 2) ∧
    ∃ e model, planeFunction.residual ⟨.ofList [(0, [5]), (1, [1, 7])]⟩ = .ok [e] ∧
      plane.residual ⟨.ofList [(0, [5]), (1, [1, 7])]⟩ = .ok [e] ∧
      planeFunction.linearize ⟨.ofList [(0, [5]), (1, [1, 7])]⟩ = .ok model ∧
      plane.linearize ⟨.ofList [(0, [5]), (1, [1, 7])]⟩ = .ok model := by
  constructor
  · have hstep : Scalar.isStep disk.step = true :=
      Scalar.isStep_iff.mpr (one_div_pos.mpr four_pos)
    have hgather : (⟨.ofList [(0, [1 / 2, 1])]⟩ : Point ℚ).gather disk.keys
        = .ok [[1 / 2, 1]] := rfl
    obtain ⟨x, model, hvalues, hmodel, -, hderivative⟩ :=
      (exact_on_quadratics hstep).1 (Point.gather_eq_ok_iff.mp hgather).1
    have hx := Point.gather_eq_ok_iff_get?.mpr hvalues
    obtain rfl := Except.ok.inj (hgather.symm.trans hx)
    have hquadratic : ∀ s, disk.function (Differences.replace [[1 / 2, 1]] 0 1 s)
        = -3 / 4 + 0 * s + 1 * s ^ 2 := by
      intro s
      change 1 / 2 * (1 / 2) + (s * s + 0) - 1 = _
      ring
    obtain ⟨row, hrow, hentry⟩ := hderivative rfl rfl hquadratic
    refine ⟨model, row, hmodel, hrow, ?_⟩
    rw [hentry]
    norm_num
  · have hstep : Scalar.isStep planeFunction.step = true :=
      Scalar.isStep_iff.mpr (one_div_pos.mpr two_pos)
    have hfits : plane.Fits ⟨.ofList [(0, [5]), (1, [1, 7])]⟩ :=
      List.forall_mem_cons.mpr ⟨⟨[5], rfl, rfl⟩,
        List.forall_mem_singleton.mpr ⟨[1, 7], rfl, rfl⟩⟩
    exact (exact_on_quadratics hstep).2 computes_planeFunction hfits

end Numerical

end SqpInequality

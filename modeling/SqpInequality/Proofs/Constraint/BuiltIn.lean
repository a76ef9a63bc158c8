import SqpInequality.Proofs.Constraint.FirstOrder
import SqpInequality.Proofs.Point.Dimension

/-!
# Proofs/Constraint/BuiltIn — residual and model of a constraint of the library belong together

Each kind of the library evaluates the point once, and reads both its residual and its model off the
result.  What can go wrong goes wrong in that evaluation, and building the model adds nothing: its
keys are distinct since the constraint's are.  So both answers fail for one reason, or the residual
is one number and the model one row with blocks as wide as the variables
(`Constraint.matched_of_isBuiltIn`).
-/

namespace SqpInequality

/-! ## Models made of rows -/

namespace LinearModel

variable {α : Type}

/-- Terms of the right height for distinct keys have no defect. -/
theorem firstDefect?_eq_none {rows : Nat} : ∀ {terms : List (Key × Block α)} {seen : List Key},
    (∀ t ∈ terms, t.2.rowCount = rows) → (terms.map Prod.fst).Nodup →
      (∀ k ∈ terms.map Prod.fst, k ∉ seen) → firstDefect? rows seen terms = none
  | [], _, _, _, _ => rfl
  | (k, b) :: rest, seen, hrows, hdistinct, hseen => by
    obtain ⟨hb, hrest⟩ := List.forall_mem_cons.mp hrows
    obtain ⟨hk, hlater⟩ := List.nodup_cons.mp hdistinct
    obtain ⟨hnew, hothers⟩ := List.forall_mem_cons.mp hseen
    have hunseen : ∀ j ∈ rest.map Prod.fst, j ∉ k :: seen := by
      intro j hj hmem
      rcases List.mem_cons.mp hmem with rfl | hmem
      · exact hk hj
      · exact hothers j hj hmem
    rw [firstDefect?, if_neg (not_not.mpr hb), if_neg hnew]
    exact firstDefect?_eq_none hrest hlater hunseen

/-- **Terms of the right height for distinct keys make a model.** -/
theorem exists_new {terms : List (Key × Block α)} {rhs : Vec α}
    (hrows : ∀ t ∈ terms, t.2.rowCount = rhs.length) (hdistinct : (terms.map Prod.fst).Nodup) :
    ∃ m, new terms rhs = .ok m := by
  have hnone : firstDefect? rhs.length [] terms = none :=
    firstDefect?_eq_none hrows hdistinct fun _ _ => List.not_mem_nil
  rw [new]
  split
  · rename_i hdefect
    rw [hnone] at hdefect
    contradiction
  · exact ⟨_, rfl⟩

/-- **A model fits a point**: each block has a column for each component of its variable. -/
def Fits (m : LinearModel α) (p : Point α) : Prop :=
  ∀ t ∈ m.terms, p.dimension? t.1 = some t.2.columnCount

end LinearModel

/-! ## Two answers that belong together -/

/-- **A refusal is about the point**: a variable is missing there, or has another dimension. -/
def Fault.AboutPoint {α : Type} (fault : Fault α) : Prop :=
  fault.kind = .missingVariable ∨ fault.kind = .dimensionMismatch

theorem Fault.AboutPoint.kind_ne {α : Type} {fault : Fault α} (h : fault.AboutPoint) :
    fault.kind ≠ .typeMismatch := by
  intro hkind
  rcases h with h | h <;> exact nomatch hkind.symm.trans h

namespace Constraint

variable {α : Type}

/-- **A residual and a model at a point belong together**: both are refused for one reason, or the
residual is one number and the model one row that fits the point. -/
inductive Matched (p : Point α) :
    Except (Failure α) (Vec α) → Except (Failure α) (LinearModel α) → Prop where
  /-- Both are refused. -/
  | refused {fault : Fault α} (about : fault.AboutPoint) :
      Matched p (.error (.refused fault)) (.error (.refused fault))
  /-- Both are there. -/
  | row {e : α} {m : LinearModel α} (single : m.rowCount = 1) (fits : m.Fits p) :
      Matched p (.ok [e]) (.ok m)

namespace Matched

variable {p : Point α} {x : Except (Failure α) (Vec α)} {y : Except (Failure α) (LinearModel α)}

theorem error_iff (h : Matched p x y) {failure : Failure α} :
    x = .error failure ↔ y = .error failure := by
  cases h with
  | refused _ => simp only [Except.error.injEq]
  | row _ _ => simp only [reduceCtorEq]

theorem ok_iff (h : Matched p x y) : (∃ v, x = .ok v) ↔ ∃ m, y = .ok m := by
  cases h with
  | refused _ => simp only [reduceCtorEq, exists_false]
  | row _ _ => exact iff_of_true ⟨_, rfl⟩ ⟨_, rfl⟩

theorem length_eq_one {v : Vec α} (h : Matched p (.ok v) y) : v.length = 1 := by
  cases h with
  | row _ _ => rfl

theorem rowCount_eq_one {m : LinearModel α} (h : Matched p x (.ok m)) : m.rowCount = 1 := by
  cases h with
  | row single _ => exact single

theorem fits {m : LinearModel α} (h : Matched p x (.ok m)) : m.Fits p := by
  cases h with
  | row _ fits => exact fits

theorem aboutPoint {failure : Failure α} (h : Matched p (.error failure) y) :
    ∃ fault, failure = .refused fault ∧ fault.AboutPoint := by
  cases h with
  | refused about => exact ⟨_, rfl, about⟩

/-- **Answers that are read off one evaluation belong together**, if it fails only on account of the
point and the rows of the model are for distinct variables and as long as those. -/
theorem of_evaluation {β : Type} {evaluation : Except (Fault α) β} (value : β → α)
    (rows : β → List (Key × Vec α)) {rhs : β → α}
    (hfail : FailsOnly Fault.AboutPoint evaluation)
    (hrows : ∀ b, evaluation = .ok b → ((rows b).map Prod.fst).Nodup ∧
      ∀ t ∈ rows b, p.dimension? t.1 = some t.2.length) :
    Matched p ((evaluation.map fun b => [value b]).mapError .refused)
      ((evaluation.bind fun b => LinearModel.new ((rows b).map fun t => (t.1, Block.ofRow t.2))
        [rhs b]).mapError .refused) := by
  cases evaluation with
  | error fault => exact .refused (hfail fault rfl)
  | ok b =>
    obtain ⟨hdistinct, hlength⟩ := hrows b rfl
    have hkeys : (((rows b).map fun t => (t.1, Block.ofRow t.2)).map Prod.fst).Nodup := by
      rwa [List.map_map]
    have hnew : ∃ m, LinearModel.new ((rows b).map fun t => (t.1, Block.ofRow t.2)) [rhs b]
        = .ok m := LinearModel.exists_new (List.forall_mem_map.mpr fun _ _ => rfl) hkeys
    obtain ⟨m, hm⟩ := hnew
    obtain ⟨hterms, hrhs⟩ := LinearModel.new_eq_ok hm
    change Matched p (.ok [value b]) ((LinearModel.new _ _).mapError .refused)
    rw [hm]
    refine .row (by rw [LinearModel.rowCount, hrhs, List.length_singleton]) ?_
    rw [LinearModel.Fits, hterms, List.forall_mem_map]
    exact hlength

end Matched

end Constraint

/-! ## Look-ups -/

namespace Point

variable {α : Type}

theorem failsOnly_value (p : Point α) (k : Key) : FailsOnly Fault.AboutPoint (p.value k) := by
  intro fault h
  rw [value] at h
  split at h
  · contradiction
  · obtain rfl := Except.error.inj h
    exact Or.inl rfl

theorem failsOnly_gather (p : Point α) (ks : List Key) :
    FailsOnly Fault.AboutPoint (p.gather ks) := FailsOnly.mapM p.failsOnly_value ks

end Point

/-! ## Bounds -/

namespace Bound

variable {α : Type}

theorem failsOnly_component (b : Bound α) (p : Point α) :
    FailsOnly Fault.AboutPoint (b.component p) := by
  refine (p.failsOnly_value b.key).bind fun v fault h => ?_
  split at h
  · contradiction
  · obtain rfl := Except.error.inj h
    exact Or.inr rfl

/-- The row of a bound is a unit row of the variable's dimension. -/
theorem matched [Scalar α] (b : Bound α) (p : Point α) :
    Constraint.Matched p ((b.residual p).mapError .refused)
      ((b.linearize p).mapError .refused) := by
  refine .of_evaluation (fun c => b.side.excess b.limit c.1)
    (fun c => [(b.key, Vec.unit c.2 b.index b.side.slope)])
    (b.failsOnly_component p) fun c hc => ?_
  obtain ⟨v, hv, -, hlength⟩ := component_eq_ok_iff.mp hc
  refine ⟨List.nodup_singleton _, List.forall_mem_singleton.mpr ?_⟩
  rw [Vec.length_unit]
  exact Point.dimension?_eq_some_iff.mpr ⟨v, hv, hlength⟩

end Bound

/-! ## Affine inequalities -/

namespace Affine

variable {α : Type} [Scalar α]

theorem failsOnly_excess (a : Affine α) (p : Point α) :
    FailsOnly Fault.AboutPoint (a.excess p) := by
  refine (p.failsOnly_gather a.keys).bind fun xs => FailsOnly.foldlM (fun total t fault h => ?_) _ _
  rw [addTerm] at h
  split at h
  · contradiction
  · obtain rfl := Except.error.inj h
    exact Or.inr rfl

/-- The rows of an affine inequality are its coefficient vectors, whose lengths have been
compared. -/
theorem matched (a : Affine α) (p : Point α) :
    Constraint.Matched p ((a.residual p).mapError .refused)
      ((a.linearize p).mapError .refused) := by
  refine .of_evaluation (fun e => e) (fun _ => a.terms) (a.failsOnly_excess p)
    fun e he => ⟨a.distinct, fun t ht => ?_⟩
  obtain ⟨x, hx, hlength⟩ := (excess_eq_ok_iff.mp he).1 t ht
  exact Point.dimension?_eq_some_iff.mpr ⟨x, hx, hlength.symm⟩

end Affine

/-! ## Distances -/

namespace MaxDistance

variable {α : Type} [Scalar α]

theorem failsOnly_difference (c : MaxDistance α) (p : Point α) :
    FailsOnly Fault.AboutPoint (c.difference p) := by
  refine (p.failsOnly_value c.first).bind fun x => (p.failsOnly_value c.second).bind fun y => ?_
  intro fault h
  split at h
  · contradiction
  · obtain rfl := Except.error.inj h
    exact Or.inr rfl

/-- A difference is as long as both points. -/
theorem dimension?_of_difference {c : MaxDistance α} {p : Point α} {d : Vec α}
    (h : c.difference p = .ok d) :
    p.dimension? c.first = some d.length ∧ p.dimension? c.second = some d.length := by
  obtain ⟨x, hx, hrest⟩ := bind_eq_ok_iff.mp h
  obtain ⟨y, hy, hsub⟩ := bind_eq_ok_iff.mp hrest
  split at hsub
  · rename_i hlength
    obtain rfl := Except.ok.inj hsub
    rw [Vec.length_sub, ← hlength, Nat.min_self]
    exact ⟨Point.dimension?_of_value hx, hlength ▸ Point.dimension?_of_value hy⟩
  · contradiction

theorem length_direction (d : Vec α) : (direction d).length = d.length := by
  rw [direction]
  split
  · exact Vec.length_divide _ _
  · exact Vec.length_zero _

/-- The rows of a distance are the direction and its opposite, as long as the difference. -/
theorem matched (c : MaxDistance α) (p : Point α) :
    Constraint.Matched p ((c.residual p).mapError .refused)
      ((c.linearize p).mapError .refused) := by
  refine .of_evaluation (fun d => Vec.norm d - c.limit)
    (fun d => [(c.first, direction d), (c.second, Vec.neg (direction d))])
    (c.failsOnly_difference p) fun d hd => ⟨?_, ?_⟩
  · exact List.nodup_cons.mpr
      ⟨fun hmem => c.distinct (List.mem_singleton.mp hmem), List.nodup_singleton _⟩
  · obtain ⟨hfirst, hsecond⟩ := dimension?_of_difference hd
    refine List.forall_mem_cons.mpr ⟨?_, List.forall_mem_singleton.mpr ?_⟩
    · rw [length_direction]
      exact hfirst
    · rw [Vec.length_neg, length_direction]
      exact hsecond

end MaxDistance

/-! ## Functions -/

/-- The value and the slopes of a function around a point, when nothing but them is asked for. -/
theorem Differences.run_firstOrder {α : Type} [Scalar α] (f : List (Vec α) → α) (h : α)
    (x : List (Vec α)) :
    Id.run (firstOrder (fun x => pure (f x)) h x)
      = (f x, x.zipIdx.map fun w => w.1.zipIdx.map fun t =>
          (f (replace x w.2 t.2 (t.1 + h)) - f (replace x w.2 t.2 (t.1 - h))) / ((1 + 1) * h)) := by
  simp only [firstOrder, slopes, slope, pure_bind, List.mapM_pure, Id.run_pure]

namespace Numerical

variable {α : Type} [Scalar α]

/-- The slopes around a point have the dimensions of the variables. -/
theorem forall₂_slopes {c : Numerical α} {p : Point α} {x : List (Vec α)}
    (h : p.gather c.keys = .ok x) :
    List.Forall₂ (fun k slopes => p.dimension? k = some slopes.length) c.keys
      (Id.run (Differences.firstOrder (fun x => pure (c.function x)) c.step x)).2 := by
  have hvalues := mapM_eq_ok_iff.mp h
  rw [← List.zipIdx_map_fst 0 x, List.forall₂_map_right_iff] at hvalues
  rw [Differences.run_firstOrder, List.forall₂_map_right_iff]
  refine hvalues.imp fun k w hw => ?_
  rw [List.length_map, List.length_zipIdx]
  exact Point.dimension?_of_value hw

/-- The rows of a numerical inequality are its slopes, one row for each variable. -/
theorem matched (c : Numerical α) (p : Point α) :
    Constraint.Matched p ((c.residual p).mapError .refused)
      ((c.linearize p).mapError .refused) := by
  have hrows : ∀ slopes : List (Vec α), c.keys.zip (slopes.map Block.ofRow)
      = (c.keys.zip slopes).map fun t => (t.1, Block.ofRow t.2) := fun _ => List.zip_map_right
  simp only [linearize, hrows]
  refine .of_evaluation c.function (fun x => c.keys.zip
      (Id.run (Differences.firstOrder (fun x => pure (c.function x)) c.step x)).2)
    (p.failsOnly_gather c.keys) fun x hx => ?_
  obtain ⟨hlength, hslopes⟩ := List.forall₂_iff_zip.mp (forall₂_slopes hx)
  refine ⟨?_, fun t ht => hslopes ht⟩
  rw [List.map_fst_zip hlength.le]
  exact c.distinct

end Numerical

/-! ## All kinds -/

namespace Constraint

/-- **The residual and the model of a constraint of the library belong together.** -/
theorem matched_of_isBuiltIn {α : Type} [Scalar α] {c : Constraint α} (h : c.isBuiltIn = true)
    (p : Point α) : Matched p (c.residual p) (c.linearize p) := by
  cases c with
  | bound b => exact b.matched p
  | affine a => exact a.matched p
  | distance d => exact d.matched p
  | numerical n => exact n.matched p
  | custom _ => contradiction

/-- One constraint of each kind of the library. -/
def oneOfEachKind : List (Constraint Float) :=
  [ .bound (.upper 0 0 1 100), .bound (.lower 0 1 0 101),
    .affine ⟨[(0, [1, 1]), (1, [2])], 4, 102, by decide, by decide⟩,
    .distance ⟨0, 2, 5, 103, by decide⟩,
    .numerical ⟨[1, 2], fun x => x.flatten.foldl (· + ·) (-9), 104, 1e-6, by decide, by decide⟩ ]

/-- A point that assigns the variables of `oneOfEachKind`, in other dimensions. -/
def oneOfEachKindPoint : Point Float := ⟨.ofList [(0, [0.5, 0.25]), (1, [1]), (2, [3, 2])]⟩

theorem isBuiltIn_of_oneOfEachKind : ∀ c ∈ oneOfEachKind, c.isBuiltIn = true := by
  rw [← List.forall_iff_forall_mem]
  exact ⟨rfl, rfl, rfl, rfl, rfl⟩

end Constraint

end SqpInequality

import SqpInequality.Proofs.Constraint.BuiltIn
import SqpInequality.Proofs.Constraint.Affine
import SqpInequality.Proofs.Constraint.Probes

/-!
# Proofs/Constraint/InPlace — slopes taken over one buffer

A constraint given by a function alone is linearized over one buffer that holds the vectors of its
variables: a component is stepped forward in it, then back, and is put back to the value that was
read before the next one is touched.  A pass over a component thus leaves the buffer as it was
(`Differences.run_slopeInPlace`), and so does the whole loop (`Numerical.run_sweep`).  So the
function sees one component changed at a time, and every slope is that of the point itself
(`Numerical.linearized_in_order`).
-/

namespace SqpInequality

/-- **Passes that leave a buffer as it was leave it so from the first to the last.** -/
theorem run_mapM_of_leaves {m : Type → Type} [Monad m] [LawfulMonad m] {σ β γ : Type} {s : σ}
    {f : β → StateT σ m γ} {g : β → m γ} : ∀ {xs : List β},
    (∀ x ∈ xs, (f x).run s = (fun y => (y, s)) <$> g x) →
      (xs.mapM f).run s = (fun ys => (ys, s)) <$> xs.mapM g
  | [], _ => by
    rw [List.mapM_nil, List.mapM_nil, map_pure]
    exact StateT.run_pure [] s
  | x :: xs, h => by
    obtain ⟨hx, hxs⟩ := List.forall_mem_cons.mp h
    simp only [List.mapM_cons, StateT.run_bind, StateT.run_pure, hx, run_mapM_of_leaves hxs,
      map_bind, bind_map_left, map_pure]

namespace Differences

variable {α : Type} {m : Type → Type} [Monad m]

/-! ## One component, one vector -/

/-- Calls a function at the vectors in the buffer. -/
def call (f : List (Vec α) → m α) : StateT (List (Vec α)) m α := do
  let x ← get
  f x

theorem run_call [LawfulMonad m] (f : List (Vec α) → m α) (x : List (Vec α)) :
    (call f).run x = (fun y => (y, x)) <$> f x := by
  simp only [call, StateT.run_bind, StateT.run_get, pure_bind, StateT.run_monadLift,
    monadLift_self, map_eq_pure_bind]

/-- Writes component `i` of vector `j` in the buffer. -/
def put (j i : Nat) (t : α) : StateT (List (Vec α)) m Unit := modify fun x => replace x j i t

variable [Scalar α]

/-- Takes one slope in the buffer: a step forward, a step back, and back to the value that was read
before. -/
def slopeInPlace (f : List (Vec α) → m α) (h : α) (j i : Nat) : StateT (List (Vec α)) m α := do
  let original := ((← get).getD j []).getD i 0
  put j i (original + h)
  let forward ← call f
  put j i (original - h)
  let backward ← call f
  put j i original
  pure ((forward - backward) / ((1 + 1) * h))

/-- Takes the slopes along one vector in the buffer. -/
def rowInPlace (f : List (Vec α) → m α) (h : α) (j : Nat) : StateT (List (Vec α)) m (Vec α) := do
  let v := (← get).getD j []
  (List.range v.length).mapM (slopeInPlace f h j)

variable [LawfulMonad m]

/-- **A pass over a component leaves the buffer as it was.** -/
theorem run_slopeInPlace (f : List (Vec α) → m α) (h : α) {x : List (Vec α)} {v : Vec α}
    {j i : Nat} {t : α} (hv : x[j]? = some v) (ht : v[i]? = some t) :
    (slopeInPlace f h j i).run x = (fun y => (y, x)) <$> slope f h x j i t := by
  have hread : (x.getD j []).getD i 0 = t := by
    simp only [List.getD_eq_getElem?_getD, hv, Option.getD_some, ht]
  simp only [slopeInPlace, slope, put, StateT.run_bind, StateT.run_get, StateT.run_modify,
    StateT.run_pure, run_call, hread, replace_replace, replace_of_get? hv ht, pure_bind,
    bind_map_left, map_bind, map_pure]

/-- The length that a pass over a vector goes by is still that of the vector. -/
theorem run_rowInPlace (f : List (Vec α) → m α) (h : α) {x : List (Vec α)} {v : Vec α} {j : Nat}
    (hv : x[j]? = some v) :
    (rowInPlace f h j).run x
      = (fun row => (row, x)) <$> v.zipIdx.mapM fun t => slope f h x j t.2 t.1 := by
  have hread : x.getD j [] = v := by
    rw [List.getD_eq_getElem?_getD, hv, Option.getD_some]
  have hpass : ∀ t ∈ v.zipIdx, (slopeInPlace f h j t.2).run x
      = (fun y => (y, x)) <$> slope f h x j t.2 t.1 :=
    fun t ht => run_slopeInPlace f h hv (List.mk_mem_zipIdx_iff_getElem?.mp ht)
  rw [rowInPlace, StateT.run_bind, StateT.run_get, pure_bind]
  simp only [hread]
  rw [List.range_eq_range', ← List.zipIdx_map_snd 0 v, List.mapM_map]
  exact run_mapM_of_leaves hpass

end Differences

namespace Numerical

variable {α : Type} [Scalar α]

/-! ## The model that value and slopes make -/

/-- The model with the given value and slopes. -/
def assemble (c : Numerical α) (order : α × List (Vec α)) : Except (Fault α) (LinearModel α) :=
  LinearModel.new (c.keys.zip (order.2.map Block.ofRow)) [-order.1]

theorem exists_assemble (c : Numerical α) {order : α × List (Vec α)}
    (h : order.2.length = c.keys.length) : ∃ model, c.assemble order = .ok model := by
  refine LinearModel.exists_new (fun t ht => ?_) ?_
  · obtain ⟨row, -, hrow⟩ := List.mem_map.mp (List.of_mem_zip ht).2
    rw [← hrow, Block.rowCount_ofRow, List.length_singleton]
  · rw [List.map_fst_zip (by rw [List.length_map, h])]
    exact c.distinct

theorem eq_of_assemble {c : Numerical α} {order : α × List (Vec α)} {model : LinearModel α}
    (h : order.2.length = c.keys.length) (hmodel : c.assemble order = .ok model) :
    model.keys = c.keys ∧ model.blocks = order.2.map Block.ofRow ∧ model.rhs = [-order.1] := by
  obtain ⟨hterms, hrhs⟩ := LinearModel.new_eq_ok hmodel
  refine ⟨?_, ?_, hrhs⟩
  · rw [LinearModel.keys, hterms, List.map_fst_zip (by rw [List.length_map, h])]
  · rw [LinearModel.blocks, hterms, List.map_snd_zip (by rw [List.length_map, h])]

/-! ## Functions that are called in a monad -/

section Monadic

variable {m : Type → Type} [Monad m]

/-- The first-order model at a point, for a function that is called in a monad. -/
def linearizeCalling (c : Numerical α) (f : List (Vec α) → m α) (p : Point α) :
    m (Except (Fault α) (LinearModel α)) :=
  match p.gather c.keys with
  | .error fault => pure (.error fault)
  | .ok x => do
    let order ← Differences.firstOrder f c.step x
    pure (c.assemble order)

/-- Takes the slopes along one variable in the buffer, and makes them its block. -/
def termInPlace (f : List (Vec α) → m α) (h : α) (k : Key × Nat) :
    StateT (List (Vec α)) m (Key × Block α) := do
  let row ← Differences.rowInPlace f h k.2
  pure (k.1, Block.ofRow row)

/-- Calls the function at the buffer, and then goes over the variables. -/
def sweep (c : Numerical α) (f : List (Vec α) → m α) :
    StateT (List (Vec α)) m (α × List (Key × Block α)) := do
  let value ← Differences.call f
  let terms ← c.keys.zipIdx.mapM (termInPlace f c.step)
  pure (value, terms)

/-- The first-order model at a point that is taken over one buffer, and what the buffer holds in the
end. -/
def linearizeInPlace (c : Numerical α) (f : List (Vec α) → m α) (p : Point α) :
    m (Except (Fault α) (LinearModel α × List (Vec α))) :=
  match p.gather c.keys with
  | .error fault => pure (.error fault)
  | .ok x => do
    let done ← (c.sweep f).run x
    pure ((LinearModel.new done.1.2 [-done.1.1]).map fun model => (model, done.2))

/-- A constraint's own function is one that is called without effect. -/
theorem linearize_eq_run (c : Numerical α) (p : Point α) :
    c.linearize p = Id.run (c.linearizeCalling (fun x => pure (c.function x)) p) := by
  rw [linearize, linearizeCalling]
  cases p.gather c.keys with
  | error fault => rfl
  | ok x => rfl

variable [LawfulMonad m]

theorem run_mapM_termInPlace (f : List (Vec α) → m α) (h : α) {x : List (Vec α)} :
    ∀ {ks : List Key} {j : Nat}, j + ks.length = x.length →
      ((ks.zipIdx j).mapM (termInPlace f h)).run x
        = (fun rows => (ks.zip (rows.map Block.ofRow), x)) <$> ((x.drop j).zipIdx j).mapM fun w =>
            w.1.zipIdx.mapM fun t => Differences.slope f h x w.2 t.2 t.1
  | [], j, hj => by
    rw [List.length_nil, Nat.add_zero] at hj
    rw [hj, List.drop_length, List.zipIdx_nil, List.zipIdx_nil, List.mapM_nil, List.mapM_nil,
      map_pure]
    exact StateT.run_pure [] x
  | k :: ks, j, hj => by
    rw [List.length_cons] at hj
    have hlt : j < x.length := by omega
    have hrest : j + 1 + ks.length = x.length := by omega
    rw [List.drop_eq_getElem_cons hlt, List.zipIdx_cons, List.zipIdx_cons]
    simp only [List.mapM_cons, termInPlace, StateT.run_bind, StateT.run_pure, bind_assoc, pure_bind,
      Differences.run_rowInPlace f h (List.getElem?_eq_getElem hlt), bind_map_left,
      run_mapM_termInPlace f h hrest, map_bind, map_pure, List.map_cons, List.zip_cons_cons]

/-- **The loop over all variables leaves the buffer as it was**, and its value and slopes are those
of what the buffer holds. -/
theorem run_sweep (c : Numerical α) (f : List (Vec α) → m α) {x : List (Vec α)}
    (hx : x.length = c.keys.length) :
    (c.sweep f).run x
      = (fun order => ((order.1, c.keys.zip (order.2.map Block.ofRow)), x))
        <$> Differences.firstOrder f c.step x := by
  have hbehind : 0 + c.keys.length = x.length := by rw [Nat.zero_add, hx]
  have hterms := run_mapM_termInPlace f c.step hbehind
  simp only [sweep, StateT.run_bind, StateT.run_pure, Differences.run_call, hterms,
    Differences.firstOrder, Differences.slopes, bind_map_left, map_bind, map_pure, List.drop_zero]

theorem linearizeCalling_eq {c : Numerical α} {p : Point α} {x : List (Vec α)}
    (hx : p.gather c.keys = .ok x) (f : List (Vec α) → m α) :
    c.linearizeCalling f p = (fun answers => c.assemble (Differences.readOff c.step x answers))
      <$> (Differences.probes c.step x).mapM f := by
  simp only [linearizeCalling, hx, Differences.firstOrder_eq, bind_map_left]
  exact (map_eq_pure_bind _ _).symm

/-- **Over one buffer the same model is made, by the same calls.** -/
theorem linearizeInPlace_eq {c : Numerical α} {p : Point α} {x : List (Vec α)}
    (hx : p.gather c.keys = .ok x) (f : List (Vec α) → m α) :
    c.linearizeInPlace f p = (fun answer => answer.map fun model => (model, x))
      <$> c.linearizeCalling f p := by
  have hlength : x.length = c.keys.length := (mapM_eq_ok_iff.mp hx).length_eq.symm
  simp only [linearizeInPlace, linearizeCalling, hx, run_sweep c f hlength, bind_map_left,
    map_bind, map_pure, assemble]

end Monadic

/-! ## Call by call -/

/-- **A model is read off answers**: the right-hand side off the first one, and each coefficient off
the two to its component's calls. -/
structure ReadsOff (c : Numerical α) (x : List (Vec α)) (answers : List α)
    (model : LinearModel α) : Prop where
  /-- The variables are those of the constraint. -/
  keys_eq : model.keys = c.keys
  /-- The right-hand side is the first answer, negated. -/
  rhs_eq : ∃ value, answers[0]? = some value ∧ model.rhs = [-value]
  /-- The block of a variable is the row of the quotients for its components. -/
  block_eq : ∀ {j : Nat} {v : Vec α}, x[j]? = some v → ∃ row,
    model.blocks[j]? = some (Block.ofRow row) ∧ row.length = v.length ∧
      ∀ i, i < v.length → ∃ forward backward,
        answers[1 + 2 * Differences.place x j i]? = some forward ∧
        answers[2 + 2 * Differences.place x j i]? = some backward ∧
        row[i]? = some ((forward - backward) / ((1 + 1) * c.step))

/-- **A function is linearized call by call**: where it is called, and what becomes of the
answers. -/
structure LinearizedInOrder (c : Numerical α) (p : Point α) (x : List (Vec α))
    (calls : List (List (Vec α))) (model : List α → LinearModel α) : Prop where
  /-- The vectors are those of the constraint's variables, in key order. -/
  values : List.Forall₂ (fun k v => p.get? k = some v) c.keys x
  /-- The calls change one component at a time. -/
  oneAtATime : Differences.OneAtATime c.step x calls
  /-- The model is read off the answers. -/
  readsOff : ∀ {answers : List α}, answers.length = calls.length →
    c.ReadsOff x answers (model answers)
  /-- Any function is called at these vectors, in this order, and nowhere else. -/
  calling : ∀ {m : Type → Type} [Monad m] [LawfulMonad m] (f : List (Vec α) → m α),
    c.linearizeCalling f p = (fun answers => .ok (model answers)) <$> calls.mapM f
  /-- So it is over one buffer, which holds the same vectors in the end. -/
  inPlace : ∀ {m : Type → Type} [Monad m] [LawfulMonad m] (f : List (Vec α) → m α),
    c.linearizeInPlace f p = (fun answers => .ok (model answers, x)) <$> calls.mapM f
  /-- The constraint's own function is called so. -/
  own : c.linearize p = Id.run (c.linearizeCalling (fun x => pure (c.function x)) p)
  /-- The model is made of its own answers. -/
  linearize : c.linearize p = .ok (model (calls.map c.function))

theorem length_readOff {c : Numerical α} {x : List (Vec α)} (hx : x.length = c.keys.length)
    (answers : List α) : (Differences.readOff c.step x answers).2.length = c.keys.length := by
  rw [Differences.readOff, List.length_splitLengths, List.length_map, hx]

theorem readsOff_of_assemble {c : Numerical α} {x : List (Vec α)} {answers : List α}
    {model : LinearModel α} (hx : x.length = c.keys.length)
    (hanswers : answers.length = (Differences.probes c.step x).length)
    (hmodel : c.assemble (Differences.readOff c.step x answers) = .ok model) :
    c.ReadsOff x answers model := by
  obtain ⟨hkeys, hblocks, hrhs⟩ := eq_of_assemble (length_readOff hx answers) hmodel
  refine ⟨hkeys, ?_, fun {j v} hv => ?_⟩
  · cases answers with
    | nil => contradiction
    | cons value rest => exact ⟨value, rfl, hrhs⟩
  · obtain ⟨row, hrow, hlength, hentries⟩ := Differences.getElem?_readOff c.step hv hanswers
    refine ⟨row, ?_, hlength, hentries⟩
    rw [hblocks, List.getElem?_map, hrow]
    rfl

/-- **A function is linearized call by call**, at every point that assigns its variables: first at
the point, and then for each component at a step forward and a step back from it. -/
theorem linearized_in_order {c : Numerical α} {p : Point α}
    (h : ∀ k ∈ c.keys, p.contains k = true) :
    ∃ x model, c.LinearizedInOrder p x (Differences.probes c.step x) model := by
  obtain ⟨x, hx⟩ := Point.exists_gather h
  have hvalues := Point.gather_eq_ok_iff_get?.mp hx
  have hlength : x.length = c.keys.length := hvalues.length_eq.symm
  have hassemble : ∀ answers, ∃ model,
      c.assemble (Differences.readOff c.step x answers) = .ok model :=
    fun answers => c.exists_assemble (length_readOff hlength answers)
  choose model hmodel using hassemble
  have hcalling : ∀ {m : Type → Type} [Monad m] [LawfulMonad m] (f : List (Vec α) → m α),
      c.linearizeCalling f p
        = (fun answers => .ok (model answers)) <$> (Differences.probes c.step x).mapM f := by
    intro m _ _ f
    simp only [linearizeCalling_eq hx, hmodel]
  refine ⟨x, model, ?_⟩
  constructor
  case values => exact hvalues
  case oneAtATime => exact Differences.oneAtATime_probes c.step x
  case readsOff => exact fun hanswers => readsOff_of_assemble hlength hanswers (hmodel _)
  case calling => exact hcalling
  case inPlace =>
    intro m _ _ f
    rw [linearizeInPlace_eq hx, hcalling, Functor.map_map]
    rfl
  case own => exact c.linearize_eq_run p
  case linearize =>
    rw [linearize_eq_run, hcalling, List.mapM_pure]
    rfl

/-- The product of two numbers less two, with a variable of no components between them. -/
def product : Numerical Float where
  keys := [0, 7, 1]
  function x := x.flatten.foldl (· * ·) 1 - 2
  dualKey := 100
  step := 1e-6
  nonempty := by decide
  distinct := by decide

/-- A point that assigns the variables of `product`. -/
def productPoint : Point Float := ⟨.ofList [(0, [3]), (1, [0.5]), (7, [])]⟩

theorem linearized_in_order_of_product :
    (∀ k ∈ product.keys, productPoint.contains k = true) ∧
      ∃ model, product.LinearizedInOrder productPoint [[3], [], [0.5]]
        [ [[3], [], [0.5]],
          [[3 + 1e-6], [], [0.5]], [[3 - 1e-6], [], [0.5]],
          [[3], [], [0.5 + 1e-6]], [[3], [], [0.5 - 1e-6]] ] model := by
  have hgather : productPoint.gather product.keys = .ok [[3], [], [0.5]] := rfl
  have hassigned := (Point.gather_eq_ok_iff.mp hgather).1
  obtain ⟨x, model, horder⟩ := linearized_in_order hassigned
  have hx := Point.gather_eq_ok_iff_get?.mpr horder.values
  obtain rfl := Except.ok.inj (hgather.symm.trans hx)
  exact ⟨hassigned, model, horder⟩

end Numerical

end SqpInequality

import SqpInequality.Fault.Message
import SqpInequality.Proofs.Constraint.Keys
import SqpInequality.Proofs.Guarded.Differences
import SqpInequality.Proofs.Guarded.Linear
import SqpInequality.Proofs.Key.Repeat

/-!
# Proofs/Constraint/Repeat — three constructors refuse a key that repeats, and the same one

An affine inequality keeps its keys one behind the other, and looks for each among those that are
kept; so does a linear model, which counts the rows of a block before.  A constraint given by a
function has all keys at once, and looks for each in the slice in front of it:

    affine, model    k₀ … kⱼ₋₁ kept so far        ∌ kⱼ
    function         k₀ … kⱼ₋₁ of k₀ … kⱼ … kₙ    ∌ kⱼ

All three come to the scan of the keys (`Affine.map_keys_new`, `Numerical.map_keys_new`,
`LinearModel.map_keys_new`): they refuse the first key to repeat, or keep the keys as they are.  So
what either kind of constraint accepts, the model that it is linearized to accepts as well
(`Constraint.repeats_refused_alike`).
-/

namespace SqpInequality

variable {α : Type}

/-! ## What is asked of a constructor -/

/-- **An empty list of keys is invalid input**, and no other list is. -/
def RefusesEmpty {γ : Type} (ks : List Key) (made : Except (Fault α) γ) : Prop :=
  (∃ fault, made = .error fault ∧ fault.kind = .invalidInput) ↔ ks = []

/-- **A key that repeats is refused**, and nothing else is: what is made of a list of keys without
one has these keys. -/
structure RefusesRepeats {γ : Type} (ks : List Key) (repeated : Key → Fault α)
    (keys : γ → List Key) (made : Except (Fault α) γ) : Prop where
  /-- The keys are refused as duplicates exactly if two positions hold the same one. -/
  duplicate_iff : (∃ fault, made = .error fault ∧ fault.kind = .duplicateKey) ↔
    ∃ j k, Key.RepeatsAt ks j k
  /-- The key that is named is the one at the least position that equals an earlier one. -/
  names_iff : ∀ k, made = .error (repeated k) ↔ Key.FirstToRepeat ks k
  /-- There is no other reason to refuse keys. -/
  only : ∀ fault, made = .error fault → ∃ k, fault = repeated k
  /-- Keys without a duplicate are accepted, and kept as they are. -/
  keeps : (¬ ∃ j k, Key.RepeatsAt ks j k) → ∃ x, made = .ok x ∧ keys x = ks

section Scanned

variable {γ : Type} {ks : List Key} {empty : Fault α} {repeated : Key → Fault α}
  {keys : γ → List Key} {made : Except (Fault α) γ}

/-- **A constructor that comes to a scan of the keys refuses those that repeat.** -/
theorem RefusesRepeats.of_scan (hinjective : Function.Injective repeated)
    (hkind : ∀ k, (repeated k).kind = .duplicateKey)
    (hscan : made.map keys = Key.scan repeated ks) : RefusesRepeats ks repeated keys made := by
  have herror (fault : Fault α) :
      made = .error fault ↔ ∃ k, Key.FirstToRepeat ks k ∧ fault = repeated k := by
    rw [← Key.scan_eq_error_iff, ← hscan, map_eq_error_iff]
  constructor
  case duplicate_iff =>
    rw [← Key.exists_firstToRepeat_iff]
    constructor
    · rintro ⟨fault, hfault, -⟩
      obtain ⟨k, hk, -⟩ := (herror fault).mp hfault
      exact ⟨k, hk⟩
    · rintro ⟨k, hk⟩
      exact ⟨repeated k, (herror _).mpr ⟨k, hk, rfl⟩, hkind k⟩
  case names_iff =>
    intro k
    rw [herror]
    refine ⟨?_, fun hk => ⟨k, hk, rfl⟩⟩
    rintro ⟨j, hj, heq⟩
    rwa [hinjective heq]
  case only =>
    intro fault h
    obtain ⟨k, -, hk⟩ := (herror fault).mp h
    exact ⟨k, hk⟩
  case keeps =>
    intro h
    have hkept : Key.scan repeated ks = .ok ks :=
      Key.scan_eq_ok_iff.mpr ⟨Key.nodup_iff_not_repeatsAt.mpr h, rfl⟩
    exact map_eq_ok_iff.mp (hscan.trans hkept)

/-- A constructor that comes to a scan of keys of which there has to be one refuses an empty
list. -/
theorem RefusesEmpty.of_scan (hempty : empty.kind = .invalidInput)
    (hkind : ∀ k, (repeated k).kind = .duplicateKey)
    (hscan : made.map keys = Key.scanNonempty empty repeated ks) : RefusesEmpty ks made := by
  rw [Key.scanNonempty] at hscan
  constructor
  · rintro ⟨fault, hfault, hinvalid⟩
    by_contra hne
    rw [if_neg hne, hfault] at hscan
    obtain ⟨k, -, rfl⟩ := Key.scan_eq_error_iff.mp hscan.symm
    rw [hkind k] at hinvalid
    contradiction
  · intro h
    rw [if_pos h, map_eq_error_iff] at hscan
    exact ⟨empty, hscan, hempty⟩

/-- What is made after such a scan has the keys that were scanned, each once. -/
theorem keys_eq_of_scan (hscan : made.map keys = Key.scanNonempty empty repeated ks) {x : γ}
    (h : made = .ok x) : keys x = ks ∧ ks.Nodup := by
  rw [h] at hscan
  obtain ⟨-, hdistinct, hkeys⟩ := Key.scanNonempty_eq_ok_iff.mp hscan.symm
  exact ⟨hkeys, hdistinct⟩

end Scanned

/-! ## Affine inequalities -/

namespace Affine

/-- The coefficient vectors, in term order. -/
def coefficients (a : Affine α) : List (Vec α) := a.terms.map Prod.snd

/-- Puts a key and its coefficients behind those that are kept, unless the key is among them. -/
def keep (kept : List Key × List (Vec α)) (t : Key × Vec α) :
    Except (Fault α) (List Key × List (Vec α)) :=
  if t.1 ∈ kept.1 then .error (.affineRepeated t.1)
  else .ok (kept.1 ++ [t.1], kept.2 ++ [t.2])

/-- The keys and the coefficients of some terms, at least one, kept one after the other. -/
def collect (terms : List (Key × Vec α)) : Except (Fault α) (List Key × List (Vec α)) :=
  if terms = [] then .error .affineEmpty else terms.foldlM keep ([], [])

theorem foldlM_keep_of_firstRepeat? : ∀ {terms : List (Key × Vec α)} {seen keys : List Key}
    (vectors : List (Vec α)), (∀ k, k ∈ seen ↔ k ∈ keys) →
      terms.foldlM keep (keys, vectors)
        = match Key.firstRepeat? seen (terms.map Prod.fst) with
          | some k => .error (.affineRepeated k)
          | none => .ok (keys ++ terms.map Prod.fst, vectors ++ terms.map Prod.snd)
  | [], _, _, _, _ => by
    simp only [List.foldlM_nil, List.map_nil, Key.firstRepeat?, List.append_nil]
    rfl
  | (k, v) :: rest, seen, keys, vectors, hseen => by
    rw [List.foldlM_cons, keep, List.map_cons, Key.firstRepeat?]
    by_cases hk : k ∈ seen
    · rw [if_pos hk, if_pos ((hseen k).mp hk)]
      rfl
    · have hnext := Guarded.mem_cons_iff_mem_concat hseen k
      rw [if_neg hk, if_neg (mt (hseen k).mpr hk)]
      refine (foldlM_keep_of_firstRepeat? (vectors ++ [v]) hnext).trans ?_
      simp only [List.map_cons, List.append_assoc, List.singleton_append]

/-- Keys and coefficients are kept in step, as far as the scan of the keys goes. -/
theorem foldlM_keep (terms : List (Key × Vec α)) :
    terms.foldlM keep ([], [])
      = (Key.scan .affineRepeated (terms.map Prod.fst)).map fun ks => (ks, terms.map Prod.snd) := by
  refine (foldlM_keep_of_firstRepeat? [] fun _ => Iff.rfl).trans ?_
  rw [Key.scan]
  cases Key.firstRepeat? [] (terms.map Prod.fst) <;> rfl

/-- **What is collected from some terms is what the inequality of the terms has.** -/
theorem collect_eq (terms : List (Key × Vec α)) (offset : α) (dualKey : Key) :
    collect terms = (new terms offset dualKey).map fun a => (a.keys, a.coefficients) := by
  rw [collect, new]
  by_cases hempty : terms = []
  · rw [if_pos hempty, dif_pos hempty]
    rfl
  · rw [if_neg hempty, dif_neg hempty, foldlM_keep]
    refine (Key.map_match_eq_map_scan ?_).symm
    exact fun _ => rfl

theorem map_keys_new (terms : List (Key × Vec α)) (offset : α) (dualKey : Key) :
    (new terms offset dualKey).map keys
      = Key.scanNonempty .affineEmpty .affineRepeated (terms.map Prod.fst) := by
  simp only [Key.scanNonempty, List.map_eq_nil_iff, new]
  by_cases hempty : terms = []
  · rw [if_pos hempty, dif_pos hempty]
    rfl
  · rw [if_neg hempty, dif_neg hempty]
    refine (Key.map_match_eq_map_scan ?_).trans (congrFun Except.map_id _)
    exact fun _ => rfl

end Affine

/-! ## Constraints given by functions -/

namespace Numerical

variable [Scalar α]

theorem map_keys_new (ks : List Key) (dualKey : Key) (function : List (Vec α) → α) :
    (new ks dualKey function).map keys
      = Key.scanNonempty .numericalEmpty .numericalRepeated ks := by
  rw [Key.scanNonempty, new]
  by_cases hempty : ks = []
  · rw [if_pos hempty, dif_pos hempty]
    rfl
  · rw [if_neg hempty, dif_neg hempty]
    refine (Key.map_match_eq_map_scan ?_).trans (congrFun Except.map_id _)
    exact fun _ => rfl

/-- Another step is for the same variables. -/
theorem keys_of_withStep {c d : Numerical α} {step : α} (h : c.withStep step = .ok d) :
    d.keys = c.keys := by
  rw [withStep] at h
  split at h
  · obtain rfl := Except.ok.inj h
    rfl
  · contradiction

end Numerical

/-! ## Models -/

namespace LinearModel

/-- Terms of the right height have no defect but a key that repeats. -/
theorem firstDefect?_eq_firstRepeat? {rows : Nat} : ∀ {terms : List (Key × Block α)}
    (seen : List Key), (∀ t ∈ terms, t.2.rowCount = rows) →
      firstDefect? rows seen terms
        = (Key.firstRepeat? seen (terms.map Prod.fst)).map .blockRepeated
  | [], _, _ => rfl
  | (k, b) :: rest, seen, hrows => by
    obtain ⟨hb, hrest⟩ := List.forall_mem_cons.mp hrows
    rw [firstDefect?, if_neg (not_not.mpr hb), List.map_cons, Key.firstRepeat?]
    by_cases hk : k ∈ seen
    · rw [if_pos hk, if_pos hk]
      rfl
    · rw [if_neg hk, if_neg hk]
      exact firstDefect?_eq_firstRepeat? (k :: seen) hrest

theorem map_keys_new {terms : List (Key × Block α)} {rhs : Vec α}
    (hrows : ∀ t ∈ terms, t.2.rowCount = rhs.length) :
    (new terms rhs).map keys = Key.scan .blockRepeated (terms.map Prod.fst) := by
  have hdefect := firstDefect?_eq_firstRepeat? [] hrows
  rw [new, Key.scan]
  split
  · rename_i defect h
    obtain ⟨k, hk, rfl⟩ := Option.map_eq_some_iff.mp (hdefect.symm.trans h)
    rw [hk]
    rfl
  · rename_i h
    rw [Option.map_eq_none_iff.mp (hdefect.symm.trans h)]
    rfl

end LinearModel

/-! ## Constraints and their models -/

namespace Constraint

variable [Scalar α]

/-- **A constraint is made for some keys**, by a constructor that takes a list of them; its
difference step may have been set since. -/
inductive MadeFor (ks : List Key) : Constraint α → Prop where
  /-- An affine inequality, of terms for these keys. -/
  | affine {terms : List (Key × Vec α)} {offset : α} {dualKey : Key} {a : Affine α}
      (hkeys : terms.map Prod.fst = ks) (h : Affine.new terms offset dualKey = .ok a) :
      MadeFor ks (.affine a)
  /-- A function of the variables of these keys. -/
  | numerical {dualKey : Key} {function : List (Vec α) → α} {c : Numerical α}
      (h : Numerical.new ks dualKey function = .ok c) : MadeFor ks (.numerical c)
  /-- A function with another step. -/
  | withStep {c d : Numerical α} {step : α} (hmade : MadeFor ks (.numerical c))
      (h : c.withStep step = .ok d) : MadeFor ks (.numerical d)

/-- **A constraint is linearized over some keys**: its model is over them, and is refused only for
what the residual is refused for, which is never a key that repeats. -/
structure LinearizesOver (ks : List Key) (c : Constraint α) (p : Point α) : Prop where
  /-- The model is there exactly if the residual is, and both fail alike. -/
  error_iff : ∀ failure, c.linearize p = .error failure ↔ c.residual p = .error failure
  /-- No key is refused as a duplicate. -/
  not_duplicate : ∀ fault, c.linearize p = .error (.refused fault) → fault.kind ≠ .duplicateKey
  /-- The model has the keys in their order. -/
  keys_eq : ∀ m, c.linearize p = .ok m → m.keys = ks

theorem linearizesOver_keys {c : Constraint α} (hkind : c.isBuiltIn = true) (p : Point α) :
    LinearizesOver c.keys c p := by
  have hmatched := matched_of_isBuiltIn hkind p
  refine ⟨fun failure => hmatched.error_iff.symm, fun fault h hduplicate => ?_,
    fun m => keys_of_linearize hkind⟩
  have hresidual := hmatched.error_iff.mpr h
  rw [hresidual] at hmatched
  obtain ⟨fault', heq, habout⟩ := hmatched.aboutPoint
  obtain rfl := Failure.refused.inj heq
  rcases habout with hmissing | hdimension
  · rw [hmissing] at hduplicate
    contradiction
  · rw [hdimension] at hduplicate
    contradiction

namespace MadeFor

variable {ks : List Key} {c : Constraint α}

theorem isBuiltIn (h : c.MadeFor ks) : c.isBuiltIn = true := by
  cases h <;> rfl

/-- **What is made for some keys has these keys, each once.** -/
theorem keys_eq (h : c.MadeFor ks) : c.keys = ks ∧ ks.Nodup := by
  induction h with
  | affine hkeys h =>
    obtain ⟨hkept, hdistinct⟩ := keys_eq_of_scan (Affine.map_keys_new _ _ _) h
    exact ⟨hkept.trans hkeys, hkeys ▸ hdistinct⟩
  | numerical h => exact keys_eq_of_scan (Numerical.map_keys_new _ _ _) h
  | withStep _ h ih => exact ⟨(Numerical.keys_of_withStep h).trans ih.1, ih.2⟩

theorem linearizesOver (h : c.MadeFor ks) (p : Point α) : LinearizesOver ks c p :=
  h.keys_eq.1 ▸ linearizesOver_keys h.isBuiltIn p

end MadeFor

/-- **A key that repeats is refused alike by an affine inequality, by a constraint given by a
function and by a model.**  The first two refuse an empty list as invalid input, and no other list.
All three refuse a list as a duplicate exactly if two positions hold the same key, and name the key
at the least position that equals an earlier one; they keep any other list as it is.  Keys kept one
behind the other and keys looked for in the slice in front of them come to the same.  So the keys of
a constraint that was made are accepted for a model, and when it is linearized as well. -/
theorem repeats_refused_alike {ks : List Key} {terms : List (Key × Vec α)}
    {blocks : List (Key × Block α)} {rhs : Vec α} (hterms : terms.map Prod.fst = ks)
    (hblocks : blocks.map Prod.fst = ks) (hrows : ∀ t ∈ blocks, t.2.rowCount = rhs.length)
    (offset : α) (dualKey : Key) (function : List (Vec α) → α) :
    RefusesEmpty ks (Affine.new terms offset dualKey) ∧
    RefusesEmpty ks (Numerical.new ks dualKey function) ∧
    (ks ≠ [] →
      RefusesRepeats ks .affineRepeated Affine.keys (Affine.new terms offset dualKey) ∧
      RefusesRepeats ks .numericalRepeated Numerical.keys (Numerical.new ks dualKey function)) ∧
    RefusesRepeats ks .blockRepeated LinearModel.keys (LinearModel.new blocks rhs) ∧
    Affine.collect terms
      = (Affine.new terms offset dualKey).map (fun a => (a.keys, a.coefficients)) ∧
    Numerical.guardedAdmit ks
      = Guarded.check ((Numerical.new ks dualKey function).map fun _ => ()) ∧
    blocks.foldlM (LinearModel.store rhs.length) ([], [])
      = (LinearModel.new blocks rhs).map (fun m => (m.keys, m.blocks)) ∧
    (∀ c : Constraint α, c.MadeFor ks →
      c.keys = ks ∧ (∃ m, LinearModel.new blocks rhs = .ok m ∧ m.keys = ks) ∧
      ∀ p, LinearizesOver ks c p) ∧
    ∀ k : Key,
      (Fault.affineRepeated k).text = s!"affine inequality has two terms for {k.name}" ∧
      (Fault.numericalRepeated k).text = s!"numerical inequality lists {k.name} twice" ∧
      (Fault.blockRepeated k).text = s!"Jacobian factor already has a block for {k.name}" := by
  have haffine := Affine.map_keys_new terms offset dualKey
  rw [hterms] at haffine
  have hnumerical := Numerical.map_keys_new ks dualKey function
  have hmodel := LinearModel.map_keys_new hrows
  rw [hblocks] at hmodel
  have hblocksRefused : RefusesRepeats ks .blockRepeated LinearModel.keys
      (LinearModel.new blocks rhs) :=
    .of_scan (fun _ _ => Fault.blockRepeated.inj) (fun _ => rfl) hmodel
  refine ⟨.of_scan rfl (fun _ => rfl) haffine, .of_scan rfl (fun _ => rfl) hnumerical,
    fun hne => ⟨?_, ?_⟩, hblocksRefused, Affine.collect_eq terms offset dualKey,
    Numerical.guardedAdmit_eq ks dualKey function, LinearModel.foldlM_store blocks rhs,
    fun c hc => ⟨hc.keys_eq.1, ?_, hc.linearizesOver⟩, fun k => ⟨rfl, rfl, rfl⟩⟩
  · rw [Key.scanNonempty, if_neg hne] at haffine
    exact .of_scan (fun _ _ => Fault.affineRepeated.inj) (fun _ => rfl) haffine
  · rw [Key.scanNonempty, if_neg hne] at hnumerical
    exact .of_scan (fun _ _ => Fault.numericalRepeated.inj) (fun _ => rfl) hnumerical
  · exact hblocksRefused.keeps (Key.nodup_iff_not_repeatsAt.mp hc.keys_eq.2)

/-- Five terms in which both variables repeat, the second one first. -/
def overlapping : List (Key × Vec Float) := [(1, [1]), (2, [1, 2]), (2, []), (1, [4]), (2, [3])]

/-- Blocks of two rows for the variables of `overlapping`. -/
def overlappingBlocks : List (Key × Block Float) :=
  [1, 2, 2, 1, 2].map fun k => (k, ⟨2, [[1, 0], [0, 3]], by decide⟩)

/-- Of two keys that repeat, the one is named that repeats first, though the other comes before. -/
theorem repeats_of_overlapping :
    Affine.new overlapping 4 100 = .error (.affineRepeated 2) ∧
    Numerical.new [1, 2, 2, 1, 2] 100 (fun x => x.length.toFloat) = .error (.numericalRepeated 2) ∧
    LinearModel.new overlappingBlocks [5, 6] = .error (.blockRepeated 2) ∧
    ∃ a, Affine.new [(2, [1, 2]), (1, [3])] (4 : Float) 100 = .ok a ∧ a.keys = [2, 1] ∧
      ∀ p, LinearizesOver [2, 1] (.affine a) p := by
  have hfirst : Key.FirstToRepeat [1, 2, 2, 1, 2] 2 :=
    Key.firstToRepeat_iff.mpr ⟨2, rfl, by decide, by decide⟩
  have hterms : overlapping.map Prod.fst = [1, 2, 2, 1, 2] := rfl
  have hblocks : overlappingBlocks.map Prod.fst = [1, 2, 2, 1, 2] := rfl
  have hrows : ∀ t ∈ overlappingBlocks, t.2.rowCount = [(5 : Float), 6].length := by decide
  obtain ⟨-, -, hmade, hmodel, -⟩ :=
    repeats_refused_alike hterms hblocks hrows 4 100 fun x => x.length.toFloat
  obtain ⟨haffine, hnumerical⟩ := hmade (by decide)
  refine ⟨(haffine.names_iff 2).mpr hfirst, (hnumerical.names_iff 2).mpr hfirst,
    (hmodel.names_iff 2).mpr hfirst, ?_⟩
  -- the same two variables, each once
  have hdistinct : ¬ ∃ j k, Key.RepeatsAt [2, 1] j k :=
    Key.nodup_iff_not_repeatsAt.mp (by decide)
  have hterms' : ([(2, [1, 2]), (1, [3])] : List (Key × Vec Float)).map Prod.fst = [2, 1] := rfl
  have hblocks' : ((overlappingBlocks.drop 2).take 2).map Prod.fst = [2, 1] := rfl
  have hrows' : ∀ t ∈ (overlappingBlocks.drop 2).take 2, t.2.rowCount = [(5 : Float), 6].length :=
    fun t ht => hrows t (List.mem_of_mem_drop (List.mem_of_mem_take ht))
  obtain ⟨-, -, hmade', -, -, -, -, hover, -⟩ :=
    repeats_refused_alike hterms' hblocks' hrows' 4 100 fun x => x.length.toFloat
  obtain ⟨a, ha, hkeys⟩ := (hmade' (by decide)).1.keeps hdistinct
  exact ⟨a, ha, hkeys, (hover _ (.affine hterms' ha)).2.2⟩

end Constraint

end SqpInequality

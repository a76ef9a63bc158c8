import SqpInequality.Proofs.Constraint.BuiltIn
import SqpInequality.Proofs.Guarded.Linear

/-!
# Proofs/Linear/Construction — the first defective term decides why a model is refused

Terms are stored one behind the other, and each is checked against the keys that are stored already:

    (k₀, B₀) … (kᵢ₋₁, Bᵢ₋₁)      (kᵢ, Bᵢ)      …
    └─ sound, hence stored ─┘    rows of Bᵢ counted, then kᵢ looked for among k₀ … kᵢ₋₁

So a list of terms makes a model exactly if it is sound, and otherwise is refused for its first term
that has a defect (`LinearModel.new_decided_by_first_defect`).
-/

namespace SqpInequality

namespace LinearModel

variable {α : Type}

/-- **Terms are sound** over a right-hand side of so many rows: every block has as many rows, and no
key has two blocks. -/
structure Sound (rows : Nat) (terms : List (Key × Block α)) : Prop where
  /-- Every block has the right number of rows. -/
  matched : ∀ t ∈ terms, t.2.rowCount = rows
  /-- No key has two blocks. -/
  distinct : (terms.map Prod.fst).Nodup

/-- **A term has a defect** behind terms for some keys, and this is what it is refused for.  A wrong
number of rows comes before a key that repeats. -/
inductive Defect (rows : Nat) (earlier : List Key) (t : Key × Block α) : Fault α → Prop where
  /-- The block has another number of rows than the right-hand side. -/
  | rows (h : t.2.rowCount ≠ rows) : Defect rows earlier t (.blockRows t.1 t.2.rowCount rows)
  /-- The block has the right number of rows, but its key has a block already. -/
  | repeated (h : t.2.rowCount = rows) (hkey : t.1 ∈ earlier) :
      Defect rows earlier t (.blockRepeated t.1)

theorem Defect.kind_eq {rows : Nat} {earlier : List Key} {t : Key × Block α} {fault : Fault α}
    (h : Defect rows earlier t fault) :
    fault.kind = if t.2.rowCount = rows then .duplicateKey else .dimensionMismatch := by
  cases h with
  | rows h => rw [if_neg h, Fault.kind]
  | repeated h _ => rw [if_pos h, Fault.kind]

theorem store_eq_error_iff {rows : Nat} {stored : List Key × List (Block α)} {t : Key × Block α}
    {fault : Fault α} : store rows stored t = .error fault ↔ Defect rows stored.1 t fault := by
  rw [store]
  constructor
  · intro h
    split at h
    · rename_i hrows
      obtain rfl := Except.error.inj h
      exact .rows hrows
    · rename_i hrows
      split at h
      · rename_i hkey
        obtain rfl := Except.error.inj h
        exact .repeated (not_not.mp hrows) hkey
      · contradiction
  · rintro (h | ⟨h, hkey⟩)
    · exact if_pos h
    · rw [if_neg (not_not.mpr h), if_pos hkey]

/-! ## All terms -/

/-- **Terms make a model exactly if they are sound.** -/
theorem exists_new_iff {terms : List (Key × Block α)} {rhs : Vec α} :
    (∃ m, new terms rhs = .ok m) ↔ Sound rhs.length terms := by
  refine ⟨fun ⟨m, hm⟩ => ?_, fun h => exists_new h.matched h.distinct⟩
  obtain ⟨rfl, rfl⟩ := new_eq_ok hm
  exact ⟨m.matched, m.distinct⟩

/-- A model is its terms and its right-hand side. -/
theorem eq_of_terms_of_rhs : ∀ {m n : LinearModel α}, m.terms = n.terms → m.rhs = n.rhs → m = n
  | ⟨_, _, _, _⟩, ⟨_, _, _, _⟩, rfl, rfl => rfl

/-- What is made of terms and a right-hand side is the one model that has them. -/
theorem new_eq_ok_iff {terms : List (Key × Block α)} {rhs : Vec α} {m : LinearModel α} :
    new terms rhs = .ok m ↔ m.terms = terms ∧ m.rhs = rhs := by
  refine ⟨new_eq_ok, ?_⟩
  rintro ⟨rfl, rfl⟩
  obtain ⟨n, hn⟩ := exists_new m.matched m.distinct
  obtain ⟨hterms, hrhs⟩ := new_eq_ok hn
  rw [hn, eq_of_terms_of_rhs hterms hrhs]

/-- **Terms are refused for the first of them that has a defect.** -/
theorem new_eq_error_iff {terms : List (Key × Block α)} {rhs : Vec α} {fault : Fault α} :
    new terms rhs = .error fault ↔ ∃ k t, terms[k]? = some t ∧ Sound rhs.length (terms.take k) ∧
      Defect rhs.length ((terms.take k).map Prod.fst) t fault := by
  have hstored : new terms rhs = .error fault ↔
      terms.foldlM (store rhs.length) ([], []) = .error fault := by
    rw [foldlM_store, map_eq_error_iff]
  -- what is stored before a term is a model of the terms in front of it
  rw [hstored, foldlM_eq_error_iff]
  simp only [foldlM_store, map_eq_ok_iff, store_eq_error_iff]
  refine exists_congr fun k => exists_congr fun t => ⟨?_, ?_⟩
  · rintro ⟨stored, ht, ⟨m, hm, rfl⟩, hdefect⟩
    have hkeys : m.keys = (terms.take k).map Prod.fst := by rw [keys, (new_eq_ok hm).1]
    exact ⟨ht, exists_new_iff.mp ⟨m, hm⟩, hkeys ▸ hdefect⟩
  · rintro ⟨ht, hsound, hdefect⟩
    obtain ⟨m, hm⟩ := exists_new_iff.mpr hsound
    have hkeys : m.keys = (terms.take k).map Prod.fst := by rw [keys, (new_eq_ok hm).1]
    exact ⟨_, ht, ⟨m, hm, rfl⟩, hkeys ▸ hdefect⟩

theorem block?_eq_none {m : LinearModel α} {k : Key} (h : k ∉ m.keys) : m.block? k = none :=
  KeyMap.lookup_eq_none_iff.mpr h

/-- **Terms make a model, or the first of them that has a defect decides why they do not.**  They do
exactly if they are sound.  A block of the wrong height is a mismatch of dimensions, even if its key
repeats as well; otherwise a key that repeats is a duplicate.  A model that is made has the keys and
the blocks of the terms in their order, and under each key the block that was given with it. -/
theorem new_decided_by_first_defect (terms : List (Key × Block α)) (rhs : Vec α) :
    ((∃ m, new terms rhs = .ok m) ↔ Sound rhs.length terms) ∧
    (∀ fault, new terms rhs = .error fault ↔
      ∃ k t, terms[k]? = some t ∧ Sound rhs.length (terms.take k) ∧
        Defect rhs.length ((terms.take k).map Prod.fst) t fault ∧
        fault.kind = if t.2.rowCount = rhs.length then .duplicateKey else .dimensionMismatch) ∧
    ∀ m, new terms rhs = .ok m →
      m.keys = terms.map Prod.fst ∧ m.blocks = terms.map Prod.snd ∧ m.stored = terms ∧
      m.rhs = rhs ∧ m.rowCount = rhs.length ∧
      (∀ k b, m.block? k = some b ↔ (k, b) ∈ terms) ∧
      ∀ k, k ∉ terms.map Prod.fst → m.block? k = none := by
  refine ⟨exists_new_iff, fun fault => ?_, fun m hm => ?_⟩
  · rw [new_eq_error_iff]
    refine exists_congr fun k => exists_congr fun t => and_congr_right fun _ =>
      and_congr_right fun _ => ?_
    exact ⟨fun h => ⟨h, h.kind_eq⟩, fun h => h.1⟩
  · obtain ⟨rfl, rfl⟩ := new_eq_ok hm
    exact ⟨rfl, rfl, m.stored_eq, rfl, rfl, fun k b => block?_eq_some_iff, fun k => block?_eq_none⟩

/-- Four terms over a right-hand side of one row.  The second has two rows and repeats the first
key, the fourth repeats the third. -/
def crowded : List (Key × Block Float) :=
  [(7, .ofRow [1]), (7, ⟨1, [[1], [2]], by decide⟩), (8, .ofRow [2, 0]), (8, .ofRow [3])]

theorem new_of_crowded :
    new crowded [5] = .error (.blockRows 7 2 1) ∧
    new (crowded.eraseIdx 1) [5] = .error (.blockRepeated 8) ∧
    ∃ m, new [(8, .ofRow [2, 0]), (7, .ofRow [1])] [(5 : Float)] = .ok m ∧
      m.block? 7 = some (.ofRow [1]) ∧ m.block? 9 = none := by
  refine ⟨?_, ?_, ?_⟩
  · refine ((new_decided_by_first_defect crowded [5]).2.1 _).mpr
      ⟨1, _, rfl, ?_, .rows (by decide), rfl⟩
    exact ⟨by decide, by decide⟩
  · refine ((new_decided_by_first_defect (crowded.eraseIdx 1) [5]).2.1 _).mpr
      ⟨2, _, rfl, ?_, .repeated rfl (by decide), rfl⟩
    exact ⟨by decide, by decide⟩
  · obtain ⟨haccepted, -, hmodel⟩ :=
      new_decided_by_first_defect [(8, .ofRow [2, 0]), (7, .ofRow [1])] [(5 : Float)]
    obtain ⟨m, hm⟩ := haccepted.mpr ⟨by decide, by decide⟩
    obtain ⟨-, -, -, -, -, hblock, hnone⟩ := hmodel m hm
    exact ⟨m, hm, (hblock 7 _).mpr (.tail _ (.head _)), hnone 9 (by decide)⟩

end LinearModel

end SqpInequality

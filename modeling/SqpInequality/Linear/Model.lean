import SqpInequality.Linear.Block
import SqpInequality.VectorMap

/-!
# Linear/Model — the first-order model of a factor

Around a point, a factor with residual `c` is modelled by one block for each of its variables and a
right-hand side: along a step `d`, `c` is about `∑ blockⱼ * dⱼ - rhs`.  A model that `new` accepts
has blocks as high as the right-hand side and one block for each key.
-/

namespace SqpInequality

/-- A first-order model: a block for each key, and a right-hand side. -/
structure LinearModel (α : Type) where
  /-- The keys with their blocks, in the order of construction. -/
  terms : List (Key × Block α)
  /-- The right-hand side. -/
  rhs : Vec α
  /-- Every block has as many rows as the right-hand side. -/
  matched : ∀ t ∈ terms, t.2.rowCount = rhs.length
  /-- No key has two blocks. -/
  distinct : (terms.map Prod.fst).Nodup

namespace LinearModel

variable {α : Type}

/-- Models are compared term by term, and by their right-hand sides. -/
instance [BEq α] : BEq (LinearModel α) := ⟨fun a b => a.terms == b.terms && a.rhs == b.rhs⟩

/-- The first term that has the wrong number of rows, or else a key that was seen before. -/
def firstDefect? (rows : Nat) (seen : List Key) : List (Key × Block α) → Option (Fault α)
  | [] => none
  | (k, b) :: rest =>
    if b.rowCount ≠ rows then some (.blockRows k b.rowCount rows)
    else if k ∈ seen then some (.blockRepeated k)
    else firstDefect? rows (k :: seen) rest

theorem sound_of_firstDefect?_eq_none {rows : Nat} :
    ∀ {seen : List Key} {terms : List (Key × Block α)}, firstDefect? rows seen terms = none →
      (∀ t ∈ terms, t.2.rowCount = rows) ∧ (terms.map Prod.fst).Nodup ∧
        ∀ k ∈ terms.map Prod.fst, k ∉ seen
  | _, [], _ => by simp
  | seen, (k, b) :: rest, h => by
    rw [firstDefect?] at h
    split at h
    · contradiction
    · rename_i hrows
      split at h
      · contradiction
      · rename_i hseen
        obtain ⟨h1, h2, h3⟩ := sound_of_firstDefect?_eq_none h
        refine ⟨fun t ht => ?_, ?_, fun j hj => ?_⟩
        · rcases List.mem_cons.mp ht with rfl | ht
          · exact Decidable.not_not.mp hrows
          · exact h1 t ht
        · exact List.nodup_cons.mpr ⟨fun hk => h3 k hk List.mem_cons_self, h2⟩
        · rcases List.mem_cons.mp hj with rfl | hj
          · exact hseen
          · exact fun hs => h3 j hj (List.mem_cons_of_mem _ hs)

/-- The model of the given terms.  Terms are checked in order, and in each the number of rows before
the key. -/
def new (terms : List (Key × Block α)) (rhs : Vec α) : Except (Fault α) (LinearModel α) :=
  match h : firstDefect? rhs.length [] terms with
  | some defect => .error defect
  | none =>
    have sound := sound_of_firstDefect?_eq_none h
    .ok ⟨terms, rhs, sound.1, sound.2.1⟩

/-- The keys, in the order of construction. -/
def keys (m : LinearModel α) : List Key := m.terms.map Prod.fst

/-- The blocks, in the order of construction. -/
def blocks (m : LinearModel α) : List (Block α) := m.terms.map Prod.snd

/-- How many rows the model has. -/
def rowCount (m : LinearModel α) : Nat := m.rhs.length

/-- The block of a key, if the model has one. -/
def block? (m : LinearModel α) (k : Key) : Option (Block α) := m.terms.lookup k

/-! ## Evaluation along a step -/

variable [Scalar α]

/-- Adds one term's share along a step. -/
def addTerm (step : VectorMap α) (total : Vec α) (term : Key × Block α) :
    Except (Fault α) (Vec α) :=
  match step.get? term.1 with
  | none => .error (.stepMissing term.1)
  | some v =>
    if v.length = term.2.columnCount then .ok (Vec.add total (term.2.apply v))
    else .error (.blockColumns term.1 term.2.columnCount v.length)

/-- The modelled residual along a step: the sum of the terms less the right-hand side. -/
def error (m : LinearModel α) (step : VectorMap α) : Except (Fault α) (Vec α) :=
  m.terms.foldlM (addTerm step) (Vec.neg m.rhs)

end LinearModel

end SqpInequality

import SqpInequality.Key.Repeat
import SqpInequality.Linear.Model
import SqpInequality.Point

/-!
# Constraint/Affine — a weighted sum of several variables below an offset

The constraint is `∑ aⱼ · xⱼ - offset ≤ 0`; its first-order model is exact.
-/

namespace SqpInequality

/-- An affine inequality over distinct variables, at least one. -/
structure Affine (α : Type) where
  /-- The variables with their coefficient vectors. -/
  terms : List (Key × Vec α)
  /-- What the sum may not exceed. -/
  offset : α
  /-- The key of the multiplier. -/
  dualKey : Key
  /-- There is a term. -/
  nonempty : terms ≠ []
  /-- No variable has two terms. -/
  distinct : (terms.map Prod.fst).Nodup

namespace Affine

variable {α : Type}

/-- Affine inequalities are compared term by term, by offset and by dual key. -/
instance [BEq α] : BEq (Affine α) :=
  ⟨fun a b => a.terms == b.terms && a.offset == b.offset && a.dualKey == b.dualKey⟩

/-- The inequality of the given terms: at least one, and one for each variable. -/
def new (terms : List (Key × Vec α)) (offset : α) (dualKey : Key) :
    Except (Fault α) (Affine α) :=
  if hne : terms = [] then .error .affineEmpty
  else
    match h : Key.firstRepeat? [] (terms.map Prod.fst) with
    | some k => .error (.affineRepeated k)
    | none => .ok ⟨terms, offset, dualKey, hne, (Key.nodup_of_firstRepeat?_eq_none h).1⟩

/-- The variables, in term order. -/
def keys (a : Affine α) : List Key := a.terms.map Prod.fst

variable [Scalar α]

/-- Adds one term's product with its variable. -/
def addTerm (total : α) (term : (Key × Vec α) × Vec α) : Except (Fault α) α :=
  if term.1.2.length = term.2.length then .ok (total + Vec.dot term.1.2 term.2)
  else .error (.coefficientLength term.1.1 term.1.2.length term.2.length)

/-- The weighted sum less the offset.  All variables are looked up before any length is compared. -/
def excess (a : Affine α) (p : Point α) : Except (Fault α) α :=
  (p.gather a.keys).bind fun xs => (a.terms.zip xs).foldlM addTerm (-a.offset)

/-- The residual at a point. -/
def residual (a : Affine α) (p : Point α) : Except (Fault α) (Vec α) :=
  (a.excess p).map fun e => [e]

/-- The first-order model at a point: the coefficient vectors as rows. -/
def linearize (a : Affine α) (p : Point α) : Except (Fault α) (LinearModel α) :=
  (a.excess p).bind fun e =>
    LinearModel.new (a.terms.map fun t => (t.1, Block.ofRow t.2)) [-e]

end Affine

end SqpInequality

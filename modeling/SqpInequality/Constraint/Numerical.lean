import SqpInequality.Constraint.Differences
import SqpInequality.Key.Repeat
import SqpInequality.Linear.Model
import SqpInequality.Point

/-!
# Constraint/Numerical — a constraint given by a function alone

The function takes the vectors of the constraint's variables, in key order.  Its first-order model
takes slopes from central differences.
-/

namespace SqpInequality

/-- A function of distinct variables, at least one, that may not be positive. -/
structure Numerical (α : Type) where
  /-- The variables. -/
  keys : List Key
  /-- The function of their vectors. -/
  function : List (Vec α) → α
  /-- The key of the multiplier. -/
  dualKey : Key
  /-- The step of the difference quotients. -/
  step : α
  /-- There is a variable. -/
  nonempty : keys ≠ []
  /-- No variable is listed twice. -/
  distinct : keys.Nodup

namespace Numerical

variable {α : Type} [Scalar α]

/-- The step that difference quotients are taken with unless another one is asked for. -/
def defaultStep : α := 1e-6

/-- The constraint of a function of the given variables: at least one, and each once. -/
def new (keys : List Key) (dualKey : Key) (function : List (Vec α) → α) :
    Except (Fault α) (Numerical α) :=
  if hne : keys = [] then .error .numericalEmpty
  else
    match h : Key.firstRepeat? [] keys with
    | some k => .error (.numericalRepeated k)
    | none =>
      .ok ⟨keys, function, dualKey, defaultStep, hne, (Key.nodup_of_firstRepeat?_eq_none h).1⟩

/-- The same constraint with another step, which has to be positive and finite. -/
def withStep (c : Numerical α) (step : α) : Except (Fault α) (Numerical α) :=
  if Scalar.isStep step then .ok { c with step := step } else .error (.stepNotPositive step)

/-- The residual at a point. -/
def residual (c : Numerical α) (p : Point α) : Except (Fault α) (Vec α) :=
  (p.gather c.keys).map fun x => [c.function x]

/-- The first-order model at a point. -/
def linearize (c : Numerical α) (p : Point α) : Except (Fault α) (LinearModel α) :=
  (p.gather c.keys).bind fun x =>
    let order := Id.run (Differences.firstOrder (fun x => pure (c.function x)) c.step x)
    LinearModel.new (c.keys.zip (order.2.map Block.ofRow)) [-order.1]

end Numerical

end SqpInequality

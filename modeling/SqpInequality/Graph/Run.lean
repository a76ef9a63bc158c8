import SqpInequality.Constraint
import SqpInequality.Graph.Event

/-!
# Graph/Run — evaluations that keep a record of what they do

A run gives a value or a failure, and with it the record of the constraints it asked and the events
it announced, in order.  A failure ends the record: nothing that would have come later is in it.
-/

namespace SqpInequality

/-- One entry of a record. -/
inductive Action (α : Type) where
  /-- A constraint was asked for its residual. -/
  | askResidual (c : Constraint α)
  /-- A constraint was asked for its first-order model. -/
  | askModel (c : Constraint α)
  /-- An event was announced. -/
  | announce (e : Event α)

/-- A value or a failure, and the record of what led to it. -/
structure Run (α β : Type) where
  /-- What was done, in order. -/
  record : List (Action α)
  /-- What came out of it. -/
  outcome : Except (Failure α) β

namespace Run

variable {α β γ : Type}

/-- Goes on with a value; a failure ends the run. -/
def bind (r : Run α β) (f : β → Run α γ) : Run α γ :=
  match r.outcome with
  | .ok b =>
    let rest := f b
    ⟨r.record ++ rest.record, rest.outcome⟩
  | .error e => ⟨r.record, .error e⟩

instance : Monad (Run α) where
  pure b := ⟨[], .ok b⟩
  bind := bind

/-- A value or a failure, with nothing done. -/
def ofExcept (x : Except (Failure α) β) : Run α β := ⟨[], x⟩

/-- Ends the run if a check refuses. -/
def check (x : Except (Fault α) β) : Run α β := ofExcept (x.mapError .refused)

/-- Announces an event. -/
def announce (e : Event α) : Run α Unit := ⟨[.announce e], .ok ()⟩

/-- Asks a constraint for its residual. -/
def askResidual [Scalar α] (c : Constraint α) (p : Point α) : Run α (Vec α) :=
  ⟨[.askResidual c], c.residual p⟩

/-- Asks a constraint for its first-order model. -/
def askModel [Scalar α] (c : Constraint α) (p : Point α) : Run α (LinearModel α) :=
  ⟨[.askModel c], c.linearize p⟩

/-- Asks a constraint for its residual, which has to be a scalar. -/
def askScalar [Scalar α] (c : Constraint α) (p : Point α) : Run α α :=
  (askResidual c p).bind fun v => ofExcept (Constraint.scalarOf c.dualKey v)

/-- The events of a run, in order. -/
def events (r : Run α β) : List (Event α) :=
  r.record.filterMap fun
    | .announce e => some e
    | _ => none

/-! ## The record and the outcome of a sequence -/

@[simp] theorem record_pure (b : β) : (pure b : Run α β).record = [] := rfl

@[simp] theorem outcome_pure (b : β) : (pure b : Run α β).outcome = .ok b := rfl

theorem outcome_askScalar [Scalar α] (c : Constraint α) (p : Point α) :
    (askScalar c p).outcome = c.scalarError p := by
  rw [askScalar, bind, askResidual, Constraint.scalarError]
  cases c.residual p <;> rfl

theorem record_askScalar [Scalar α] (c : Constraint α) (p : Point α) :
    (askScalar c p).record = [.askResidual c] := by
  rw [askScalar, bind, askResidual]
  cases c.residual p <;> rfl

theorem bind_ok {r : Run α β} {b : β} (h : r.outcome = .ok b) (f : β → Run α γ) :
    r >>= f = ⟨r.record ++ (f b).record, (f b).outcome⟩ := by
  change bind r f = _
  rw [bind, h]

theorem bind_error {r : Run α β} {e : Failure α} (h : r.outcome = .error e)
    (f : β → Run α γ) : r >>= f = ⟨r.record, .error e⟩ := by
  change bind r f = _
  rw [bind, h]

end Run

end SqpInequality

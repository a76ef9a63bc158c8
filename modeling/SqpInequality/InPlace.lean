import SqpInequality.Fault

/-!
# InPlace — operations that change a state where it stands

An operation in place gives a result or is refused, and leaves a state behind in either case.  A
refusal takes nothing back: what was written before it stays written.  That a refused operation
changes nothing is therefore a matter of what it does first, and `InPlace.Does` says it.
-/

namespace SqpInequality

/-- An operation on a state that stays where it is. -/
abbrev InPlace (α σ β : Type) : Type := ExceptT (Fault α) (StateM σ) β

namespace InPlace

variable {α σ β γ : Type}

/-- What an operation gives, or why it is refused, and the state that it leaves. -/
def on (x : InPlace α σ β) (s : σ) : Except (Fault α) β × σ := x.run.run s

/-- **An operation does what a function says**: it leaves the value of the function.  Where the
function refuses, the operation is refused for the same cause and leaves the state as it was. -/
def Does (x : InPlace α σ Unit) (f : σ → Except (Fault α) σ) : Prop :=
  ∀ s, x.on s = match f s with
    | .ok next => (.ok (), next)
    | .error fault => (.error fault, s)

/-! ## What the single instructions do -/

@[simp] theorem on_pure (b : β) (s : σ) : (pure b : InPlace α σ β).on s = (.ok b, s) := rfl

@[simp] theorem on_get (s : σ) : (get : InPlace α σ σ).on s = (.ok s, s) := rfl

@[simp] theorem on_set (t s : σ) : (set t : InPlace α σ PUnit).on s = (.ok ⟨⟩, t) := rfl

@[simp] theorem on_modify (f : σ → σ) (s : σ) :
    (modify f : InPlace α σ PUnit).on s = (.ok ⟨⟩, f s) := rfl

@[simp] theorem on_throw (fault : Fault α) (s : σ) :
    (throw fault : InPlace α σ β).on s = (.error fault, s) := rfl

theorem on_bind (x : InPlace α σ β) (f : β → InPlace α σ γ) (s : σ) :
    (x >>= f : InPlace α σ γ).on s = match x.on s with
      | (.ok b, next) => (f b).on next
      | (.error fault, next) => (.error fault, next) := by
  change (x.run >>= ExceptT.bindCont f).run s = _
  rw [StateT.run_bind, on]
  rcases x.run.run s with ⟨_ | _, _⟩
  · rfl
  · rfl

/-! ## Operations that do what a function says -/

variable {x : InPlace α σ Unit} {f : σ → Except (Fault α) σ} {s next : σ} {fault : Fault α}

theorem Does.on_of_ok (hx : x.Does f) (h : f s = .ok next) : x.on s = (.ok (), next) := by
  rw [hx s, h]

/-- **What is refused changes nothing.** -/
theorem Does.on_of_error (hx : x.Does f) (h : f s = .error fault) :
    x.on s = (.error fault, s) := by
  rw [hx s, h]

/-- **What looks first and writes then** does nothing where it is refused. -/
theorem does_unless (found : σ → Bool) (fault : Fault α) (write : σ → σ) :
    (do
      if found (← get) then throw fault
      modify write : InPlace α σ Unit).Does
      fun s => if found s then .error fault else .ok (write s) := by
  intro s
  simp only [on_bind, on_get]
  split
  · rfl
  · rfl

end InPlace

end SqpInequality

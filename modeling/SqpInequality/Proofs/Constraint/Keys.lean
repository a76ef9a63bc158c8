import SqpInequality.Proofs.Constraint.BuiltIn

/-!
# Proofs/Constraint/Keys — a constraint of the library is modelled over its own variables

The model of a constraint of the library has one block for each of the constraint's keys, in their
order (`Constraint.keys_of_linearize`).
-/

namespace SqpInequality

variable {α : Type} [Scalar α]

theorem Bound.keys_of_linearize {b : Bound α} {p : Point α} {m : LinearModel α}
    (h : b.linearize p = .ok m) : m.keys = [b.key] := by
  obtain ⟨c, -, hnew⟩ := bind_eq_ok_iff.mp h
  rw [LinearModel.keys, (LinearModel.new_eq_ok hnew).1]
  rfl

theorem Affine.keys_of_linearize {a : Affine α} {p : Point α} {m : LinearModel α}
    (h : a.linearize p = .ok m) : m.keys = a.keys := by
  obtain ⟨e, -, hnew⟩ := bind_eq_ok_iff.mp h
  rw [LinearModel.keys, (LinearModel.new_eq_ok hnew).1, List.map_map]
  rfl

theorem MaxDistance.keys_of_linearize {c : MaxDistance α} {p : Point α} {m : LinearModel α}
    (h : c.linearize p = .ok m) : m.keys = c.keys := by
  obtain ⟨d, -, hnew⟩ := bind_eq_ok_iff.mp h
  rw [LinearModel.keys, (LinearModel.new_eq_ok hnew).1]
  rfl

/-- A function has slopes for each of its variables. -/
theorem Numerical.keys_of_linearize {c : Numerical α} {p : Point α} {m : LinearModel α}
    (h : c.linearize p = .ok m) : m.keys = c.keys := by
  obtain ⟨x, hx, hnew⟩ := bind_eq_ok_iff.mp h
  have hlength := (forall₂_slopes hx).length_eq
  rw [LinearModel.keys, (LinearModel.new_eq_ok hnew).1, List.map_fst_zip]
  rw [List.length_map]
  exact hlength.le

namespace Constraint

/-- **The model of a constraint of the library is over the constraint's keys**, in their order. -/
theorem keys_of_linearize {c : Constraint α} (hkind : c.isBuiltIn = true) {p : Point α}
    {m : LinearModel α} (h : c.linearize p = .ok m) : m.keys = c.keys := by
  cases c with
  | bound b => exact b.keys_of_linearize (mapError_eq_ok_iff.mp h)
  | affine a => exact a.keys_of_linearize (mapError_eq_ok_iff.mp h)
  | distance d => exact d.keys_of_linearize (mapError_eq_ok_iff.mp h)
  | numerical n => exact n.keys_of_linearize (mapError_eq_ok_iff.mp h)
  | custom _ => contradiction

end Constraint

end SqpInequality

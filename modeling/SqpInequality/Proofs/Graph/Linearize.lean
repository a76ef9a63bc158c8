import SqpInequality.Graph
import SqpInequality.Proofs.Graph.Visit
import SqpInequality.Proofs.Linear.Evaluation

/-!
# Proofs/Graph/Linearize — one row for each constraint

A graph is linearized exactly when each of its constraints has a model of a single row
(`Graph.outcome_linearize_eq_ok_iff`); the rows are those models, in the order of the constraints.
-/

namespace SqpInequality

variable {α : Type}

/-- A row is read from the model of its constraint. -/
theorem LinearRow.ofModel_model (r : LinearRow α) : ofModel r.model r.dualKey = .ok r :=
  dif_pos r.single

variable [Scalar α]

/-- **A row is the linearization of a constraint at a point**: it holds the constraint's model and
its dual key. -/
def Constraint.LinearizesTo (p : Point α) (c : Constraint α) (r : LinearRow α) : Prop :=
  c.linearize p = .ok r.model ∧ r.dualKey = c.dualKey

/-- The row of a constraint at a point, or why it has none. -/
def Constraint.row (p : Point α) (c : Constraint α) : Except (Failure α) (LinearRow α) :=
  (c.linearize p).bind fun m => (LinearRow.ofModel m c.dualKey).mapError .refused

theorem Constraint.row_eq_ok_iff {p : Point α} {c : Constraint α} {r : LinearRow α} :
    c.row p = .ok r ↔ c.LinearizesTo p r := by
  rw [row, bind_eq_ok_iff, LinearizesTo]
  constructor
  · rintro ⟨m, hm, hr⟩
    obtain ⟨rfl, hkey⟩ := LinearRow.model_eq_of_ofModel (mapError_eq_ok_iff.mp hr)
    exact ⟨hm, hkey⟩
  · rintro ⟨hm, hkey⟩
    exact ⟨r.model, hm, mapError_eq_ok_iff.mpr (hkey ▸ r.ofModel_model)⟩

namespace Graph

/-- One constraint of a linearization: it is asked and announced, and then its row is taken. -/
theorem linearRows_cons (p : Point α) (c : Constraint α) (rest : List (Constraint α)) :
    linearRows p (c :: rest) =
      match c.row p with
      | .ok r =>
        ⟨Run.entry .askModel (Constraint.modelEvent? p) c ++ (linearRows p rest).record,
          (linearRows p rest).outcome.map (r :: ·)⟩
      | .error failure =>
        ⟨Run.entry .askModel (Constraint.modelEvent? p) c, .error failure⟩ := by
  rw [linearRows, Run.entry, Constraint.modelEvent?, Constraint.row]
  cases hm : c.linearize p with
  | error failure => exact Run.bind_error hm _
  | ok m =>
    rw [Run.bind_ok hm]
    change _ = match (LinearRow.ofModel m c.dualKey).mapError Failure.refused with
      | .ok r => _
      | .error failure => _
    rw [Run.bind_ok rfl]
    cases hr : (LinearRow.ofModel m c.dualKey).mapError Failure.refused with
    | error failure =>
      rw [Run.bind_error hr]
      rfl
    | ok r =>
      rw [Run.bind_ok hr]
      cases hrest : (linearRows p rest).outcome with
      | error failure =>
        rw [Run.bind_error hrest]
        rfl
      | ok rows =>
        rw [Run.bind_ok hrest, Run.record_pure, List.append_nil]
        rfl

/-- **The rows of some constraints are taken one after the other.** -/
theorem outcome_linearRows_eq_mapM (p : Point α) : ∀ cs : List (Constraint α),
    (linearRows p cs).outcome = cs.mapM (Constraint.row p)
  | [] => rfl
  | c :: rest => by
    rw [linearRows_cons, List.mapM_cons, ← outcome_linearRows_eq_mapM p rest]
    cases c.row p with
    | error failure => rfl
    | ok r => cases (linearRows p rest).outcome <;> rfl

theorem outcome_linearize (g : Graph α) (p : Point α) :
    (g.linearize p).outcome = (g.constraints.mapM (Constraint.row p)).map LinearSystem.mk := by
  rw [← outcome_linearRows_eq_mapM, linearize, Run.outcome_bind]
  cases (linearRows p g.constraints).outcome <;> rfl

/-- **A graph is linearized exactly when each of its constraints has a model of a single row.** -/
theorem outcome_linearize_eq_ok_iff {g : Graph α} {p : Point α} {s : LinearSystem α} :
    (g.linearize p).outcome = .ok s ↔
      List.Forall₂ (Constraint.LinearizesTo p) g.constraints s.rows := by
  simp only [outcome_linearize, map_eq_ok_iff, mapM_eq_ok_iff, Constraint.row_eq_ok_iff]
  refine ⟨?_, fun h => ⟨s.rows, h, rfl⟩⟩
  rintro ⟨rows, h, rfl⟩
  exact h

end Graph

end SqpInequality

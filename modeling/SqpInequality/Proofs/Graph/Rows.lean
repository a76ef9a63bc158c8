import SqpInequality.Proofs.Graph.Linearize

/-!
# Proofs/Graph/Rows — every constraint becomes a row, or none does

Whether a constraint has a row at a point is a fact about that constraint alone
(`Constraint.HasRow`).  A graph whose constraints all have one is linearized row by row; otherwise
the first constraint without a row decides what the linearization fails with
(`Graph.outcome_linearize_eq_error_iff`).
-/

namespace SqpInequality

/-! ## One row -/

namespace Constraint

variable {α : Type} [Scalar α]

/-- **A constraint has a row at a point**: its model there is a single row. -/
def HasRow (p : Point α) (c : Constraint α) : Prop := ∃ m, c.linearize p = .ok m ∧ m.rowCount = 1

theorem hasRow_iff {p : Point α} {c : Constraint α} : c.HasRow p ↔ ∃ r, c.row p = .ok r := by
  simp only [row_eq_ok_iff, LinearizesTo]
  constructor
  · rintro ⟨m, hm, hsingle⟩
    exact ⟨⟨m, c.dualKey, hsingle⟩, hm, rfl⟩
  · rintro ⟨r, hm, -⟩
    exact ⟨r.model, hm, r.single⟩

theorem row_eq_error {p : Point α} {c : Constraint α} {failure : Failure α}
    (h : c.linearize p = .error failure) : c.row p = .error failure := by
  rw [row, h]
  rfl

theorem row_eq_notSingleRow {p : Point α} {c : Constraint α} {m : LinearModel α}
    (h : c.linearize p = .ok m) (hm : m.rowCount ≠ 1) :
    c.row p = .error (.refused (.notSingleRow c.dualKey m.rowCount)) := by
  rw [row, h]
  change (LinearRow.ofModel m c.dualKey).mapError Failure.refused = _
  rw [LinearRow.ofModel, dif_neg hm]
  rfl

end Constraint

/-! ## All rows -/

namespace Graph

section Rows

variable {α : Type} [Scalar α]

/-- **A linearization fails as the first constraint that has no row.** -/
theorem outcome_linearize_eq_error_iff {g : Graph α} {p : Point α} {failure : Failure α} :
    (g.linearize p).outcome = .error failure ↔ ∃ k c, g.get? k = some c ∧
      c.row p = .error failure ∧ ∀ j d, j < k → g.get? j = some d → d.HasRow p := by
  rw [outcome_linearize, map_eq_error_iff, mapM_eq_error_iff]
  simp only [get?, Constraint.hasRow_iff]

/-- A graph whose constraints all have a row is linearized. -/
theorem exists_outcome_linearize {g : Graph α} {p : Point α}
    (h : ∀ c ∈ g.constraints, c.HasRow p) : ∃ s, (g.linearize p).outcome = .ok s := by
  obtain ⟨rows, hrows⟩ := exists_mapM_iff.mpr fun c hc => Constraint.hasRow_iff.mp (h c hc)
  exact ⟨⟨rows⟩, by rw [outcome_linearize, hrows]; rfl⟩

/-- The rows carry the dual keys of the constraints, in order and as often. -/
theorem dualKeys_of_linearize {g : Graph α} {p : Point α} {s : LinearSystem α}
    (h : (g.linearize p).outcome = .ok s) : s.dualKeys = g.constraints.map Constraint.dualKey := by
  rw [LinearSystem.dualKeys, ← List.forall₂_eq_eq_eq, List.forall₂_map_left_iff,
    List.forall₂_map_right_iff]
  exact List.Forall₂.flip ((outcome_linearize_eq_ok_iff.mp h).imp fun _ _ hrow => hrow.2)

/-- **Each constraint becomes one row, in order and with its own dual key, or the first one that
has no row ends the linearization**: with its own failure, or as a type mismatch if its model is
not a single row. -/
theorem linearize_row_by_row (g : Graph α) (p : Point α) :
    ((∀ c ∈ g.constraints, c.HasRow p) →
      ∃ s, (g.linearize p).outcome = .ok s ∧ s.size = g.size ∧
        (∀ i c, g.get? i = some c →
          ∃ r, s.get? i = some r ∧ c.linearize p = .ok r.model ∧ r.dualKey = c.dualKey) ∧
        s.dualKeys = g.constraints.map Constraint.dualKey) ∧
    ((¬ ∀ c ∈ g.constraints, c.HasRow p) →
      ∃ k c, g.get? k = some c ∧ (∀ j d, j < k → g.get? j = some d → d.HasRow p) ∧
        (∀ failure, c.linearize p = .error failure →
          (g.linearize p).outcome = .error failure) ∧
        ∀ m, c.linearize p = .ok m → m.rowCount ≠ 1 ∧
          ∃ fault, (g.linearize p).outcome = .error (.refused fault) ∧
            fault = .notSingleRow c.dualKey m.rowCount ∧ fault.kind = .typeMismatch) := by
  refine ⟨fun hall => ?_, fun hnot => ?_⟩
  · obtain ⟨s, hs⟩ := exists_outcome_linearize hall
    have hrows := outcome_linearize_eq_ok_iff.mp hs
    refine ⟨s, hs, hrows.length_eq.symm, fun i c hc => ?_, dualKeys_of_linearize hs⟩
    obtain ⟨hi, rfl⟩ := List.getElem?_eq_some_iff.mp hc
    have hi' : i < s.rows.length := hrows.length_eq ▸ hi
    exact ⟨s.rows[i], List.getElem?_eq_getElem hi', hrows.get hi hi'⟩
  · obtain ⟨k, c, hk, hbefore, hc⟩ := exists_first_not hnot
    refine ⟨k, c, hk, hbefore, fun failure hfail => ?_, fun m hm => ?_⟩
    · exact outcome_linearize_eq_error_iff.mpr
        ⟨k, c, hk, Constraint.row_eq_error hfail, hbefore⟩
    · have hsingle : m.rowCount ≠ 1 := fun h => hc ⟨m, hm, h⟩
      exact ⟨hsingle, _, outcome_linearize_eq_error_iff.mpr
        ⟨k, c, hk, Constraint.row_eq_notSingleRow hm hsingle, hbefore⟩, rfl, rfl⟩

end Rows

/-- A user's constraint whose model is the given right-hand side over no variable. -/
def constantRows (dualKey : Key) (rhs : Vec Float) : Constraint Float :=
  .custom ⟨[], 1, dualKey, fun _ => .ok [0], fun _ => .ok ⟨[], rhs, nofun, List.nodup_nil⟩⟩

/-- Three constraints with a row each, the first and the last under one dual key. -/
def sharedKey : Graph Float where
  constraints := [.bound (.upper 0 0 1 100), constantRows 101 [2], .bound (.lower 0 0 0 100)]

/-- The second constraint has two rows, and the third has none. -/
def twoRowsSecond : Graph Float where
  constraints := [.bound (.upper 0 0 1 100), constantRows 101 [2, 3], constantRows 102 []]

theorem linearize_of_sharedKey_and_twoRowsSecond :
    (∃ s, (sharedKey.linearize ⟨.ofList [(0, [0.5])]⟩).outcome = .ok s ∧ s.size = 3 ∧
      s.dualKeys = [100, 101, 100]) ∧
    (twoRowsSecond.linearize ⟨.ofList [(0, [0.5])]⟩).outcome
      = .error (.refused (.notSingleRow 101 2)) := by
  constructor
  · have hall : ∀ c ∈ sharedKey.constraints, c.HasRow ⟨.ofList [(0, [0.5])]⟩ := by
      rw [← List.forall_iff_forall_mem]
      exact ⟨⟨_, rfl, rfl⟩, ⟨_, rfl, rfl⟩, ⟨_, rfl, rfl⟩⟩
    obtain ⟨s, hs, hsize, -, hkeys⟩ :=
      (linearize_row_by_row sharedKey ⟨.ofList [(0, [0.5])]⟩).1 hall
    exact ⟨s, hs, hsize, hkeys⟩
  · have hsecond : ¬ (constantRows 101 [2, 3]).HasRow ⟨.ofList [(0, [0.5])]⟩ := by
      rintro ⟨m, hm, hsingle⟩
      obtain rfl := Except.ok.inj hm
      contradiction
    obtain ⟨k, c, hk, hbefore, -, hmodel⟩ :=
      (linearize_row_by_row twoRowsSecond ⟨.ofList [(0, [0.5])]⟩).2
        fun hall => hsecond (hall _ (.tail _ (.head _)))
    match k with
    | 0 =>
      obtain rfl := Option.some.inj hk
      exact absurd rfl (hmodel _ rfl).1
    | 1 =>
      obtain rfl := Option.some.inj hk
      obtain ⟨-, fault, hfault, rfl, -⟩ := hmodel _ rfl
      exact hfault
    | k + 2 => exact absurd (hbefore 1 _ (by omega) rfl) hsecond

end Graph

end SqpInequality

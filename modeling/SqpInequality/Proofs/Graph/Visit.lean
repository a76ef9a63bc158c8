import Mathlib.Data.List.Basic
import SqpInequality.Graph.Run

/-!
# Proofs/Graph/Visit — runs that visit constraints one after the other

A service asks constraints in order, announces each answer, and stops at the first constraint that
does not let it go on (`visited`).  If it comes to a value it sums up:

    ask c₀ · detail of c₀ · ask c₁ · detail of c₁ · … · ask cₖ · detail of cₖ · summary

From a record of this form both what was asked for and what was announced can be read off
(`Run.Visits.of_record`).
-/

namespace SqpInequality

/-! ## As far as a service goes -/

section Visited

variable {β : Type} {P : β → Prop}

/-- **The members of a list up to the first without a property**, that one included. -/
def visited (P : β → Prop) [DecidablePred P] (xs : List β) : List β :=
  xs.take (xs.findIdx (fun x => !decide (P x)) + 1)

variable [DecidablePred P]

theorem visited_cons_of {x : β} (h : P x) (xs : List β) :
    visited P (x :: xs) = x :: visited P xs := by
  rw [visited, List.findIdx_cons, decide_eq_true h, Bool.not_true, cond_false, List.take_succ_cons,
    visited]

theorem visited_cons_of_not {x : β} (h : ¬ P x) (xs : List β) : visited P (x :: xs) = [x] := by
  rw [visited, List.findIdx_cons, decide_eq_false h, Bool.not_false, cond_true,
    List.take_succ_cons, List.take_zero]

/-- What is visited is an initial part of the list. -/
theorem isPrefix_visited (xs : List β) : visited P xs <+: xs := List.take_prefix _ _

/-- Where no member stops the visit, all are visited. -/
theorem visited_of_all : ∀ {xs : List β} (_ : ∀ x ∈ xs, P x), visited P xs = xs
  | [], _ => rfl
  | x :: xs, h => by
    obtain ⟨hx, hxs⟩ := List.forall_mem_cons.mp h
    rw [visited_cons_of hx, visited_of_all hxs]

/-- All members that are visited have the property, the last one perhaps apart. -/
theorem of_lt_length_visited {xs : List β} {j : Nat} {x : β}
    (hj : j + 1 < (visited P xs).length) (hx : xs[j]? = some x) : P x := by
  obtain ⟨hlt, rfl⟩ := List.getElem?_eq_some_iff.mp hx
  rw [visited, List.length_take] at hj
  have hbefore : j < xs.findIdx fun x => !decide (P x) := by omega
  have hholds := List.not_of_lt_findIdx hbefore
  rwa [Bool.not_eq_false', decide_eq_true_eq] at hholds

end Visited

variable {α : Type}

/-! ## What is announced of one constraint -/

namespace Constraint

variable [Scalar α] {p : Point α} {c : Constraint α} {e : Event α}

/-- What is announced of the scalar residual of a constraint, if there is one. -/
def residualEvent? (p : Point α) (c : Constraint α) : Option (Event α) :=
  match c.scalarError p with
  | .ok e => some (.evaluated c.dualKey e)
  | .error _ => none

/-- What is announced of the first-order model of a constraint, if there is one. -/
def modelEvent? (p : Point α) (c : Constraint α) : Option (Event α) :=
  match c.linearize p with
  | .ok m => some (.linearized c.dualKey m.rhs.head?)
  | .error _ => none

theorem isSummary_of_residualEvent? (h : c.residualEvent? p = some e) : e.isSummary = false := by
  rw [residualEvent?] at h
  split at h
  · obtain rfl := Option.some.inj h
    rfl
  · contradiction

theorem isSummary_of_modelEvent? (h : c.modelEvent? p = some e) : e.isSummary = false := by
  rw [modelEvent?] at h
  split at h
  · obtain rfl := Option.some.inj h
    rfl
  · contradiction

end Constraint

/-! ## What a run is made of -/

/-- Whether an entry of a record asks a constraint for something. -/
def Action.isRequest : Action α → Bool
  | .askResidual _ | .askModel _ => true
  | .announce _ => false

/-- The event that an entry of a record announces, if it does. -/
def Action.event? : Action α → Option (Event α)
  | .announce e => some e
  | _ => none

theorem Action.event?_of_isRequest {a : Action α} (h : a.isRequest = true) : a.event? = none := by
  cases a with
  | askResidual _ => rfl
  | askModel _ => rfl
  | announce _ => contradiction

namespace Run

variable {β : Type}

/-- What a run asked constraints for, in order. -/
def requests (r : Run α β) : List (Action α) := r.record.filter Action.isRequest

theorem events_eq (r : Run α β) : r.events = r.record.filterMap Action.event? := rfl

/-- The event that a run ends with, if it comes to a value. -/
def closing? (summary : β → Event α) (r : Run α β) : Option (Event α) :=
  match r.outcome with
  | .ok b => some (summary b)
  | .error _ => none

/-- The part of a record that is about one constraint: it is asked, and what it answers is
announced. -/
def entry (ask : Constraint α → Action α) (detail? : Constraint α → Option (Event α))
    (c : Constraint α) : List (Action α) :=
  ask c :: ((detail? c).map .announce).toList

variable {ask : Constraint α → Action α} {detail? : Constraint α → Option (Event α)}
  {summary : β → Event α} {cs : List (Constraint α)} {r : Run α β}

theorem filter_isRequest_announce (e? : Option (Event α)) :
    (e?.map Action.announce).toList.filter Action.isRequest = [] := by
  cases e? <;> rfl

theorem filterMap_event?_announce (e? : Option (Event α)) :
    (e?.map Action.announce).toList.filterMap Action.event? = e?.toList := by
  cases e? <;> rfl

theorem filter_isRequest_entry (hask : ∀ c, (ask c).isRequest = true) (c : Constraint α) :
    (entry ask detail? c).filter Action.isRequest = [ask c] := by
  rw [entry, List.filter_cons_of_pos (hask c), filter_isRequest_announce]

theorem filterMap_event?_entry (hask : ∀ c, (ask c).isRequest = true) (c : Constraint α) :
    (entry ask detail? c).filterMap Action.event? = (detail? c).toList := by
  rw [entry, List.filterMap_cons_none (Action.event?_of_isRequest (hask c)),
    filterMap_event?_announce]

/-- **A run visits constraints in order**: it asks each of them once and announces what it answers,
and sums up at the end if it comes to a value. -/
structure Visits (ask : Constraint α → Action α) (detail? : Constraint α → Option (Event α))
    (summary : β → Event α) (cs : List (Constraint α)) (r : Run α β) : Prop where
  /-- The record is about one constraint after the other. -/
  record_eq : r.record
    = cs.flatMap (entry ask detail?) ++ ((r.closing? summary).map .announce).toList
  /-- Each constraint is asked once, and nothing else is asked for. -/
  requests_eq : r.requests = cs.map ask
  /-- Answers are announced in order, and the value behind them. -/
  events_eq : r.events = cs.filterMap detail? ++ (r.closing? summary).toList
  /-- An answer is announced as a detail. -/
  detail : ∀ c ∈ cs, ∀ e, detail? c = some e → e.isSummary = false
  /-- A value is announced as a summary. -/
  summary : ∀ b, r.outcome = .ok b → (summary b).isSummary = true

/-- **A run visits constraints in order if its record says so.** -/
theorem Visits.of_record (hask : ∀ c, (ask c).isRequest = true)
    (h : r.record = cs.flatMap (entry ask detail?) ++ ((r.closing? summary).map .announce).toList)
    (hdetail : ∀ c ∈ cs, ∀ e, detail? c = some e → e.isSummary = false)
    (hsummary : ∀ b, r.outcome = .ok b → (summary b).isSummary = true) :
    r.Visits ask detail? summary cs where
  record_eq := h
  requests_eq := by
    rw [requests, h, List.filter_append, filter_isRequest_announce, List.append_nil,
      List.filter_flatMap, List.map_eq_flatMap]
    simp only [filter_isRequest_entry hask]
  events_eq := by
    rw [r.events_eq, h, List.filterMap_append, filterMap_event?_announce, List.filterMap_flatMap,
      List.filterMap_eq_flatMap_toList]
    simp only [filterMap_event?_entry hask]
  detail := hdetail
  summary := hsummary

end Run

end SqpInequality

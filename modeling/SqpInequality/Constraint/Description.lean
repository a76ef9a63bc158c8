import SqpInequality.Constraint
import SqpInequality.Decimal.Text
import SqpInequality.Key.Name

/-!
# Constraint/Description — constraints in words

A description names the kind of a constraint and its parameters.  Keys are numbers in it, except in
that of a numerical constraint, which names them.
-/

namespace SqpInequality

namespace Constraint

/-- A kind and its parameters, each with its name. -/
def describe (kind : String) (parameters : List (String × String)) : String :=
  kind ++ " \x7b " ++ ", ".intercalate (parameters.map fun p => p.1 ++ ": " ++ p.2) ++ " \x7d"

/-- A list in brackets. -/
def bracketed (items : List String) : String := "[" ++ ", ".intercalate items ++ "]"

/-- A key's name between quotes. -/
def quotedName (k : Key) : String := "\"" ++ k.name ++ "\""

/-- The description of a constraint, for the kinds that have one. -/
def description? : Constraint Float → Option String
  | bound c =>
    let (kind, limit) :=
      match c.side with
      | .upper => ("UpperBoundConstraint", "upper")
      | .lower => ("LowerBoundConstraint", "lower")
    some <| describe kind
      [ ("keys", bracketed [toString c.key]),
        ("index", toString c.index),
        (limit, Decimal.literal c.limit),
        ("dual_key", toString c.dualKey) ]
  | distance c =>
    some <| describe "MaxDistanceConstraint"
      [ ("keys", bracketed (c.keys.map toString)),
        ("max_distance", Decimal.literal c.limit),
        ("dual_key", toString c.dualKey) ]
  | numerical c =>
    some <| describe "NumericalInequality"
      [ ("keys", bracketed (c.keys.map quotedName)),
        ("dual_key", quotedName c.dualKey),
        ("step", Decimal.literal c.step) ]
  | affine _ | custom _ => none

end Constraint

end SqpInequality

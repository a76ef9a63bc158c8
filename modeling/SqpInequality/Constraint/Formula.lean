import SqpInequality.Vec

/-!
# Constraint/Formula — functions of vectors, written down

A formula is an expression over the components of a list of vectors.  What it asks for and does not
find, a vector or a component, is no number.
-/

namespace SqpInequality

/-- An expression over the components of a list of vectors. -/
inductive Formula where
  /-- A number. -/
  | number (value : Float)
  /-- A component of a vector. -/
  | component (vector index : Nat)
  /-- The sum of a vector's components, from left to right. -/
  | total (vector : Nat)
  /-- The sum of the squares of a vector's components, from left to right. -/
  | squares (vector : Nat)
  /-- The number of a vector's components. -/
  | dimension (vector : Nat)
  /-- The negation. -/
  | negate (a : Formula)
  /-- The absolute value. -/
  | magnitude (a : Formula)
  /-- The square root. -/
  | root (a : Formula)
  /-- The sum of two values. -/
  | sum (a b : Formula)
  /-- The difference of two values. -/
  | difference (a b : Formula)
  /-- The product of two values. -/
  | product (a b : Formula)
  /-- The quotient of two values. -/
  | quotient (a b : Formula)
  /-- One value if `a < b`, and another one otherwise. -/
  | ifLess (a b less notLess : Formula)

namespace Formula

/-- The value that stands for no number. -/
def missing : Float := 0.0 / 0.0

/-- The value of a formula at a list of vectors. -/
def eval (x : List (Vec Float)) : Formula → Float
  | number value => value
  | component j i => (x[j]?.bind fun v => v[i]?).getD missing
  | total j => x[j]?.elim missing fun v => v.foldl (· + ·) 0.0
  | squares j => x[j]?.elim missing fun v => v.foldl (fun s t => s + t * t) 0.0
  | dimension j => x[j]?.elim missing fun v => Float.ofNat v.length
  | negate a => -(a.eval x)
  | magnitude a => (a.eval x).abs
  | root a => (a.eval x).sqrt
  | sum a b => a.eval x + b.eval x
  | difference a b => a.eval x - b.eval x
  | product a b => a.eval x * b.eval x
  | quotient a b => a.eval x / b.eval x
  | ifLess a b c d => if a.eval x < b.eval x then c.eval x else d.eval x

end Formula

end SqpInequality

import SqpInequality.Scalar

/-!
# Vec — vectors, and the order in which their sums are taken

Rounded addition is not associative, so the two kinds of product fix their order: `dot` runs eight
sums side by side, `weighted` runs one sum from left to right.  In exact arithmetic both are the sum
of the products.
-/

namespace SqpInequality

/-- A vector, as the list of its components. -/
abbrev Vec (α : Type) := List α

namespace Vec

variable {α : Type} [Scalar α]

/-- The vector of `n` zeros. -/
def zero (n : Nat) : Vec α := List.replicate n 0

/-- The vector of `n` components that is `s` at `i` and zero elsewhere. -/
def unit (n i : Nat) (s : α) : Vec α := (zero n).set i s

/-- The sum, component by component. -/
def add (v w : Vec α) : Vec α := List.zipWith (· + ·) v w

/-- The difference, component by component. -/
def sub (v w : Vec α) : Vec α := List.zipWith (· - ·) v w

/-- The negation of each component, which turns a zero into a negative zero. -/
def neg (v : Vec α) : Vec α := v.map (- ·)

/-- Each component divided by `d`. -/
def divide (v : Vec α) (d : α) : Vec α := v.map (· / d)

/-! ## Eight sums side by side -/

/-- Adds full blocks of eight terms to the eight running sums; gives back the sums and the terms
that fill no block. -/
def addBlocks (sums : List α) : List α → List α × List α
  | a :: b :: c :: d :: e :: f :: g :: h :: rest =>
    addBlocks (List.zipWith (· + ·) sums [a, b, c, d, e, f, g, h]) rest
  | rest => (sums, rest)

/-- Sums terms in blocks of eight: each running sum of the first half is joined with its partner in
the second half, and the terms that fill no block come last. -/
def blockedSum (terms : List α) : α :=
  let (sums, rest) := addBlocks (List.replicate 8 0) terms
  rest.foldl (· + ·) ((List.zipWith (· + ·) (sums.take 4) (sums.drop 4)).foldl (· + ·) 0)

/-- The inner product. -/
def dot (v w : Vec α) : α := blockedSum (List.zipWith (· * ·) v w)

/-- The length of a vector, as the root of its product with itself. -/
def norm (v : Vec α) : α := Scalar.sqrt (dot v v)

/-! ## One sum from left to right -/

/-- Sums terms from the first one on; each new term is the left operand. -/
def chainedSum : List α → α
  | [] => 0
  | t :: ts => ts.foldl (fun total u => u + total) t

/-- The sum of the components weighted by a row of coefficients. -/
def weighted (row v : Vec α) : α := chainedSum (List.zipWith (· * ·) row v)

/-! ## Lengths -/

@[simp] theorem length_zero (n : Nat) : (zero n : Vec α).length = n := List.length_replicate

@[simp] theorem length_unit (n i : Nat) (s : α) : (unit n i s).length = n := by
  rw [unit, List.length_set, length_zero]

@[simp] theorem length_add (v w : Vec α) : (add v w).length = min v.length w.length :=
  List.length_zipWith

@[simp] theorem length_sub (v w : Vec α) : (sub v w).length = min v.length w.length :=
  List.length_zipWith

@[simp] theorem length_neg (v : Vec α) : (neg v).length = v.length := List.length_map _

@[simp] theorem length_divide (v : Vec α) (d : α) : (divide v d).length = v.length :=
  List.length_map _

/-! ## Components -/

theorem getElem?_add {v w : Vec α} {i : Nat} {a b : α} (hv : v[i]? = some a) (hw : w[i]? = some b) :
    (add v w)[i]? = some (a + b) := by
  rw [add, List.getElem?_zipWith, hv, hw]

end Vec

end SqpInequality

/-!
# Key — identifiers of primal and dual variables
-/

namespace SqpInequality

/-- The identifier of a primal or dual variable: a word of 64 bits. -/
abbrev Key := UInt64

end SqpInequality

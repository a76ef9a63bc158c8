import SqpInequality.Key.Symbol

/-!
# Key/Name — the text of a key, and the reader of such texts

A key whose top byte is an ASCII letter is written as a symbol, any other as a decimal number.  The
reader tells the two apart by the first character.
-/

namespace SqpInequality

/-- Reads a number from its decimal digits; any other character refuses the text. -/
def readDecimal? (digits : List Char) : Option Nat :=
  if !digits.isEmpty && digits.all Char.isDigit then some (Nat.ofDigitChars 10 digits 0) else none

/-- Reads a decimal number that fits 64 bits. -/
def readWord? (digits : List Char) : Option UInt64 :=
  (readDecimal? digits).bind fun n =>
    if n < UInt64.size then some (UInt64.ofNat n) else none

namespace Key

/-- The text of a key in messages: a symbol's name, or the number itself. -/
def name (k : Key) : String :=
  let s := Symbol.ofKey k
  if s.letter.isAlpha then s.name else toString k.toNat

/-- The key that a text names: a letter and an index, or a decimal number. -/
def read? (text : String) : Option Key :=
  match text.toList with
  | [] => none
  | c :: rest =>
    if c.isAlpha then
      (readWord? rest).bind fun index => (Symbol.tryNew c index).toOption.map Symbol.key
    else readWord? (c :: rest)

end Key

theorem readDecimal?_toDigits (n : Nat) : readDecimal? (Nat.toDigits 10 n) = some n := by
  have hd : (Nat.toDigits 10 n).all Char.isDigit = true := by
    rw [List.all_eq_true]
    exact fun c hc => Nat.isDigit_of_mem_toDigits (by decide) (by decide) hc
  have hne : (Nat.toDigits 10 n).isEmpty = false := by
    cases h : Nat.toDigits 10 n with
    | nil => exact absurd h (Nat.toDigits_ne_nil)
    | cons _ _ => rfl
  simp [readDecimal?, hd, hne, Nat.ofDigitChars_ten_toDigits]

end SqpInequality

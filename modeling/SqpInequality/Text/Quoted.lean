import SqpInequality.Text.Shown

/-!
# Text/Quoted — a character between quotes
-/

namespace SqpInequality

namespace Text

/-- The lower-case hexadecimal digits of a code point. -/
def hexDigits (n : Nat) : String := String.ofList (Nat.toDigits 16 n)

/-- A character inside quotes: by name, by code point where it is not shown, or as itself. -/
def escaped (c : Char) : String :=
  if c = '\x00' then "\\0"
  else if c = '\t' then "\\t"
  else if c = '\r' then "\\r"
  else if c = '\n' then "\\n"
  else if c = '\x27' || c = '\\' then "\\" ++ String.singleton c
  else if isShown c then String.singleton c
  else "\\u\x7b" ++ hexDigits c.toNat ++ "\x7d"

/-- A character between single quotes. -/
def quoted (c : Char) : String := "'" ++ escaped c ++ "'"

end Text

end SqpInequality

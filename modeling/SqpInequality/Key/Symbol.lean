import SqpInequality.Key

/-!
# Key/Symbol — variable names packed into keys

A symbol is a character byte and an index of 56 bits, held in one key as its top byte and the rest.
`ofKey_key` and `key_ofKey` say that nothing is lost either way.
-/

namespace SqpInequality

/-- How many indices of 56 bits one character has. -/
abbrev Symbol.indexBound : Nat := 0x100000000000000

/-- A variable name: a character byte and an index. -/
structure Symbol where
  /-- The top byte of the key. -/
  byte : UInt8
  /-- The rest of the key. -/
  index : Fin Symbol.indexBound
deriving DecidableEq, Repr

/-- Why a character and an index do not name a variable. -/
inductive NameFault where
  /-- The character is outside ASCII. -/
  | notAscii (c : Char)
  /-- The index needs more than 56 bits. -/
  | indexTooLarge (index : UInt64)
deriving DecidableEq, Repr

namespace Symbol

/-- The index of a symbol as a word. -/
def word (s : Symbol) : UInt64 := UInt64.ofNat s.index

/-- The 56 low bits of a word, which hold the index. -/
def indexMask : UInt64 := ((1 : UInt64) <<< 56) - 1

/-- What is under the mask is an index. -/
theorem toNat_and_indexMask (k : Key) : (k &&& indexMask).toNat = k.toNat % indexBound := by
  have hmask : indexMask.toNat = 2 ^ 56 - 1 := by decide
  rw [UInt64.toNat_and, hmask]
  exact Nat.and_two_pow_sub_one_eq_mod k.toNat 56

/-- The key that packs a symbol: its byte is shifted above the bits of its index. -/
def key (s : Symbol) : Key := (s.byte.toUInt64 <<< 56) ||| s.word

/-- The symbol packed into a key. -/
def ofKey (k : Key) : Symbol where
  byte := (k >>> 56).toUInt8
  index := ⟨(k &&& indexMask).toNat, toNat_and_indexMask k ▸ Nat.mod_lt _ (by decide)⟩

/-- The character of a symbol: the code point that its byte counts. -/
def letter (s : Symbol) : Char := Char.ofNat s.byte.toNat

/-- The written name: the character, then the index in decimal. -/
def name (s : Symbol) : String := String.singleton s.letter ++ toString s.index.val

/-- Symbols are ordered by character byte, then by index. -/
def compare (s t : Symbol) : Ordering :=
  (Ord.compare s.byte.toNat t.byte.toNat).then (Ord.compare s.index.val t.index.val)

/-- Names a symbol, refusing a character outside ASCII first and an oversized index second. -/
def tryNew (c : Char) (index : UInt64) : Except NameFault Symbol :=
  if c.toNat < 128 then
    if h : index.toNat < indexBound then
      .ok ⟨UInt8.ofNat c.toNat, index.toNat, h⟩
    else .error (.indexTooLarge index)
  else .error (.notAscii c)

theorem toNat_word (s : Symbol) : s.word.toNat = s.index := by
  have hindex := s.index.isLt
  rw [word, UInt64.toNat_ofNat', Nat.mod_eq_of_lt]
  exact Nat.lt_trans hindex (by decide)

/-- **A key is its byte times 2 ^ 56 and its index added**, for the shifted byte and the index share
no bit. -/
theorem toNat_key (s : Symbol) : s.key.toNat = s.byte.toNat * indexBound + s.index := by
  have hbyte := s.byte.toNat_lt
  have hindex : s.index.val < 2 ^ 56 := s.index.isLt
  have hshift : (s.byte.toUInt64 <<< 56).toNat = s.byte.toNat <<< 56 := by
    have hfits : s.byte.toNat <<< 56 < 2 ^ 64 := by
      rw [Nat.shiftLeft_eq]
      omega
    rw [UInt64.toNat_shiftLeft, UInt8.toNat_toUInt64]
    exact Nat.mod_eq_of_lt hfits
  rw [key, UInt64.toNat_or, toNat_word, hshift, ← Nat.shiftLeft_add_eq_or_of_lt hindex,
    Nat.shiftLeft_eq]

theorem toNat_byte_ofKey (k : Key) : (ofKey k).byte.toNat = k.toNat / indexBound := by
  have hk := k.toNat_lt
  have hshift : (k >>> 56).toNat = k.toNat / indexBound := by
    rw [UInt64.toNat_shiftRight, Nat.shiftRight_eq_div_pow]
    rfl
  rw [ofKey, UInt64.toNat_toUInt8, hshift, Nat.mod_eq_of_lt]
  exact Nat.div_lt_of_lt_mul hk

theorem index_ofKey (k : Key) : (ofKey k).index.val = k.toNat % indexBound :=
  toNat_and_indexMask k

/-- **A symbol is read back from its key.** -/
theorem ofKey_key (s : Symbol) : ofKey s.key = s := by
  have hindex := s.index.isLt
  have hkey := toNat_key s
  have hbyte := toNat_byte_ofKey s.key
  have hrest := index_ofKey s.key
  simp only [indexBound] at hindex hkey hbyte hrest
  have hbytes : (ofKey s.key).byte = s.byte := UInt8.toNat_inj.mp (by omega)
  have hindices : (ofKey s.key).index = s.index := Fin.ext (by omega)
  exact congr (congrArg mk hbytes) hindices

/-- **A key is rebuilt from its symbol.** -/
theorem key_ofKey (k : Key) : (ofKey k).key = k := by
  rw [← UInt64.toNat_inj, toNat_key, toNat_byte_ofKey, index_ofKey]
  exact Nat.div_add_mod' k.toNat indexBound

end Symbol

end SqpInequality

import SqpInequality.Key.Name
import SqpInequality.Proofs.Key.Symbol

/-!
# Proofs/Key/Name — no two keys have one name

A name is a letter and an index, or a number, and its first character tells which:

    top byte is a letter       x42            read as the letter and the index behind it
    top byte is anything else  1234567        read as a number

The reader that takes it for granted that a letter and an index fit a key is never let down by the
name of a key, and gives back the key (`Key.readNamed_name`).
-/

namespace SqpInequality

/-! ## Letters and digits -/

theorem isAlpha_iff {c : Char} :
    c.isAlpha = true ↔ 65 ≤ c.toNat ∧ c.toNat ≤ 90 ∨ 97 ≤ c.toNat ∧ c.toNat ≤ 122 := by
  change (decide (c.val ≥ 'A'.val ∧ c.val ≤ 'Z'.val) ||
    (decide (c.val ≥ 'a'.val) && decide (c.val ≤ 'z'.val))) = true ↔ _
  rw [Bool.or_eq_true, Bool.and_eq_true, decide_eq_true_eq, decide_eq_true_eq, decide_eq_true_eq]
  exact Iff.rfl

theorem isDigit_iff {c : Char} : c.isDigit = true ↔ 48 ≤ c.toNat ∧ c.toNat ≤ 57 := by
  change (decide (c.val ≥ '0'.val) && decide (c.val ≤ '9'.val)) = true ↔ _
  rw [Bool.and_eq_true, decide_eq_true_eq, decide_eq_true_eq]
  exact Iff.rfl

theorem isAlpha_of_isDigit {c : Char} (h : c.isDigit = true) : c.isAlpha = false := by
  rw [← Bool.not_eq_true, isAlpha_iff]
  rw [isDigit_iff] at h
  omega

theorem toList_toString (n : Nat) : (toString n).toList = Nat.toDigits 10 n := by
  rw [Nat.toString_eq_repr, Nat.toList_repr]

/-- The digits of a number begin with a digit, and so with no letter. -/
theorem exists_toDigits_eq_cons (n : Nat) :
    ∃ c rest, Nat.toDigits 10 n = c :: rest ∧ c.isAlpha = false := by
  cases h : Nat.toDigits 10 n with
  | nil => exact absurd h Nat.toDigits_ne_nil
  | cons c rest =>
    have hc : c ∈ Nat.toDigits 10 n := h ▸ List.mem_cons_self
    exact ⟨c, rest, rfl, isAlpha_of_isDigit (Nat.isDigit_of_mem_toDigits (by decide) (by decide) hc)⟩

theorem readWord?_toDigits {n : Nat} (h : n < UInt64.size) :
    readWord? (Nat.toDigits 10 n) = some (UInt64.ofNat n) := by
  rw [readWord?, readDecimal?_toDigits, Option.bind_some, if_pos h]

namespace Symbol

/-- **A symbol that begins with a letter is named anew from its own parts.** -/
theorem new_letter_word {s : Symbol} (h : s.letter.isAlpha = true) :
    new s.letter s.word = .ok s := by
  have hascii : s.letter.toNat < 128 := by
    rw [isAlpha_iff] at h
    omega
  exact new_eq_ok_iff.mpr (tryNew_eq_ok_iff.mpr ⟨hascii, rfl, (toNat_word s).symm⟩)

theorem toList_name (s : Symbol) : s.name.toList = s.letter :: Nat.toDigits 10 s.index := by
  rw [name, String.toList_append, String.toList_singleton, toList_toString, List.singleton_append]

/-- **No symbol that begins with a letter has the text of a number.** -/
theorem name_ne_toString {s : Symbol} (hs : s.letter.isAlpha = true) (n : Nat) :
    s.name ≠ toString n := by
  intro heq
  obtain ⟨c, rest, hdigits, hc⟩ := exists_toDigits_eq_cons n
  have hlist := congrArg String.toList heq
  rw [toList_name, toList_toString, hdigits, List.cons.injEq] at hlist
  rw [← hlist.1, hs] at hc
  contradiction

end Symbol

namespace Key

/-! ## The reader -/

/-- The key that a text names, where the fitness of a letter and an index is taken for granted: an
unfit name abandons the run. -/
def readNamed (text : String) : Except (Failure Float) (Option Key) :=
  match text.toList with
  | [] => .ok none
  | c :: rest =>
    if c.isAlpha then
      match readWord? rest with
      | none => .ok none
      | some index => (Symbol.new c index).map fun s => some s.key
    else .ok (readWord? (c :: rest))

theorem readNamed_of_isAlpha {text : String} {c : Char} {rest : List Char} {index : UInt64}
    (htext : text.toList = c :: rest) (hc : c.isAlpha = true) (hindex : readWord? rest = some index) :
    readNamed text = (Symbol.new c index).map fun s => some s.key := by
  simp only [readNamed, htext, if_pos hc, hindex]

theorem readNamed_of_not_isAlpha {text : String} {c : Char} {rest : List Char}
    (htext : text.toList = c :: rest) (hc : c.isAlpha = false) :
    readNamed text = .ok (readWord? (c :: rest)) := by
  simp only [readNamed, htext, hc, Bool.false_eq_true, if_false]

/-- A text that is read with fitness taken for granted is read the same with fitness checked. -/
theorem read?_of_readNamed {text : String} {o : Option Key} (h : readNamed text = .ok o) :
    read? text = o := by
  simp only [readNamed] at h
  simp only [read?]
  cases htext : text.toList with
  | nil =>
    rw [htext] at h
    exact Except.ok.inj h
  | cons c rest =>
    simp only [htext] at h
    split at h
    · rename_i hc
      simp only [if_pos hc]
      split at h
      · rename_i hindex
        rw [hindex]
        exact Except.ok.inj h
      · rename_i index hindex
        obtain ⟨s, hs, rfl⟩ := map_eq_ok_iff.mp h
        rw [hindex, Option.bind_some, Symbol.new_eq_ok_iff.mp hs]
        rfl
    · rename_i hc
      simp only [if_neg hc]
      exact Except.ok.inj h

/-! ## The two forms of a name -/

theorem name_of_isAlpha {k : Key} (h : (Symbol.ofKey k).letter.isAlpha = true) :
    k.name = (Symbol.ofKey k).name := if_pos h

theorem name_of_not_isAlpha {k : Key} (h : (Symbol.ofKey k).letter.isAlpha = false) :
    k.name = toString k.toNat := by
  rw [name, h]
  rfl

/-- **A key with an ASCII letter on top is written as that letter and the rest of the key**, any other
key as a number. -/
theorem name_eq (k : Key) :
    k.name =
      if (Char.ofNat (k.toNat / 2 ^ 56)).isAlpha then
        String.singleton (Char.ofNat (k.toNat / 2 ^ 56)) ++ toString (k.toNat % 2 ^ 56)
      else toString k.toNat := by
  have hletter : (Symbol.ofKey k).letter = Char.ofNat (k.toNat / 2 ^ 56) :=
    congrArg Char.ofNat (Symbol.toNat_byte_ofKey k)
  rw [name, Symbol.name, hletter, Symbol.index_ofKey]
  rfl

/-- **The name of a key is read back**, and its letter and index, if it has them, fit a key. -/
theorem readNamed_name (k : Key) : readNamed k.name = .ok (some k) := by
  cases h : (Symbol.ofKey k).letter.isAlpha with
  | true =>
    have hword : readWord? (Nat.toDigits 10 (Symbol.ofKey k).index) = some (Symbol.ofKey k).word :=
      readWord?_toDigits (Nat.lt_trans (Symbol.ofKey k).index.isLt (by decide))
    rw [name_of_isAlpha h, readNamed_of_isAlpha (Symbol.toList_name _) h hword,
      Symbol.new_letter_word h, ← congrArg some (Symbol.key_ofKey k)]
    rfl
  | false =>
    obtain ⟨c, rest, hdigits, hc⟩ := exists_toDigits_eq_cons k.toNat
    have htext : (toString k.toNat).toList = c :: rest := (toList_toString _).trans hdigits
    rw [name_of_not_isAlpha h, readNamed_of_not_isAlpha htext hc, ← hdigits,
      readWord?_toDigits k.toNat_lt, UInt64.ofNat_toNat]

theorem name_injective : Function.Injective name := by
  intro j k h
  have hread : readNamed j.name = readNamed k.name := congrArg readNamed h
  rw [readNamed_name, readNamed_name] at hread
  exact Option.some.inj (Except.ok.inj hread)

/-- **A name stands for one key**: no two keys have one name, and the reader gives the key back.
A key with a letter on top is written as that letter and an index.  These fit a key, so a reader that
takes this for granted never abandons the run.  Any other key is written as a number, and the name
of a symbol that begins with a letter is never that of a number. -/
theorem name_stands_for_one_key :
    Function.Injective name ∧
    (∀ k : Key, readNamed k.name = .ok (some k) ∧ read? k.name = some k) ∧
    (∀ k : Key, k.name =
      if (Char.ofNat (k.toNat / 2 ^ 56)).isAlpha then
        String.singleton (Char.ofNat (k.toNat / 2 ^ 56)) ++ toString (k.toNat % 2 ^ 56)
      else toString k.toNat) ∧
    ∀ (s : Symbol) (k : Key), s.letter.isAlpha = true → s.name ≠ toString k.toNat :=
  ⟨name_injective, fun k => ⟨readNamed_name k, read?_of_readNamed (readNamed_name k)⟩, name_eq,
    fun _ k hs => Symbol.name_ne_toString hs k.toNat⟩

/-- The symbol `x42` has no number's name and is read back.  A key with a digit on top is not written
as a symbol, which would be `12`, and so is not taken for the key 12. -/
theorem name_stands_for_x42 :
    Symbol.name ⟨0x78, 42⟩ ≠ toString (42 : Key).toNat ∧
    readNamed (name (Symbol.key ⟨0x78, 42⟩)) = .ok (some 0x780000000000002A) ∧
    name 0x3100000000000002 ≠ name 12 := by
  obtain ⟨hinjective, hread, -, happart⟩ := name_stands_for_one_key
  exact ⟨happart ⟨0x78, 42⟩ 42 rfl, (hread (Symbol.key ⟨0x78, 42⟩)).1,
    hinjective.ne (by decide)⟩

end Key

end SqpInequality

import Mathlib.Algebra.Ring.Nat
import SqpInequality.Fault.Message
import SqpInequality.Proofs.Outcome

/-!
# Proofs/Key/Symbol — names are packed into keys one to one and in order

    | character: 8 bits | index: 56 bits |

Each key is the packing of one symbol (`Symbol.key_ofKey`), and symbols compare as their keys do
(`Symbol.compare_ofKey`).  A name is accepted exactly if it fits (`Symbol.tryNew_eq_ok_iff`), so the
accepted names are those of the keys with an ASCII character on top (`Symbol.tryNew_ofKey_iff`).
-/

namespace SqpInequality

namespace Symbol

/-! ## The two parts of a symbol -/

/-- Every byte counts a character. -/
theorem toNat_letter (s : Symbol) : s.letter.toNat = s.byte.toNat := by
  have hbyte := s.byte.toNat_lt
  have hvalid : s.byte.toNat.isValidChar := Or.inl (by omega)
  rw [letter, Char.ofNat, dif_pos hvalid]
  rfl

theorem letter_eq_iff {s : Symbol} {c : Char} : s.letter = c ↔ s.byte.toNat = c.toNat := by
  rw [← toNat_letter, Char.toNat_inj]

/-! ## Names that fit -/

/-- **A name is accepted exactly if it fits**, as the symbol with its character and its index. -/
theorem tryNew_eq_ok_iff {c : Char} {i : UInt64} {s : Symbol} :
    tryNew c i = .ok s ↔ c.toNat < 128 ∧ s.letter = c ∧ s.index.val = i.toNat := by
  rw [letter_eq_iff, tryNew]
  split
  · rename_i hc
    have hbyte : (UInt8.ofNat c.toNat).toNat = c.toNat := by
      rw [UInt8.toNat_ofNat', Nat.mod_eq_of_lt]
      omega
    split
    · rename_i hi
      obtain ⟨b, j⟩ := s
      rw [Except.ok.injEq, mk.injEq, ← UInt8.toNat_inj, Fin.ext_iff, hbyte]
      exact ⟨fun ⟨hb, hj⟩ => ⟨hc, hb.symm, hj.symm⟩, fun ⟨_, hb, hj⟩ => ⟨hb.symm, hj.symm⟩⟩
    · rename_i hi
      refine iff_of_false nofun fun ⟨_, _, hj⟩ => hi ?_
      rw [← hj]
      exact s.index.isLt
  · rename_i hc
    exact iff_of_false nofun fun ⟨h, _⟩ => hc h

theorem exists_tryNew_iff {c : Char} {i : UInt64} :
    (∃ s, tryNew c i = .ok s) ↔ c.toNat < 128 ∧ i.toNat < 2 ^ 56 := by
  rw [tryNew]
  split
  · rename_i hc
    split
    · rename_i hi
      exact iff_of_true ⟨_, rfl⟩ ⟨hc, hi⟩
    · rename_i hi
      exact iff_of_false nofun fun h => hi h.2
  · rename_i hc
    exact iff_of_false nofun fun h => hc h.1

/-- **The symbol of a key is an accepted name exactly if its character is ASCII.** -/
theorem tryNew_ofKey_iff (k : Key) :
    tryNew (ofKey k).letter (ofKey k).word = .ok (ofKey k) ↔ k.toNat / 2 ^ 56 < 128 := by
  rw [tryNew_eq_ok_iff, toNat_letter, toNat_byte_ofKey, toNat_word]
  exact ⟨fun h => h.1, fun h => ⟨h, rfl, rfl⟩⟩

/-! ## The order of symbols -/

theorem div_lt_or_mod_lt {n a b : Nat} (h : a < b) :
    a / n < b / n ∨ a / n = b / n ∧ a % n < b % n := by
  have ha := Nat.div_add_mod a n
  have hb := Nat.div_add_mod b n
  rcases Nat.lt_or_eq_of_le (Nat.div_le_div_right (Nat.le_of_lt h)) with hlt | heq
  · exact Or.inl hlt
  · rw [heq] at ha
    exact Or.inr ⟨heq, by omega⟩

/-- Numbers compare as their quotients do, and where these are equal as their remainders do. -/
theorem compare_div_then_mod (n a b : Nat) :
    (Ord.compare (a / n) (b / n)).then (Ord.compare (a % n) (b % n)) = Ord.compare a b := by
  rcases Nat.lt_trichotomy a b with hlt | rfl | hgt
  · rw [Nat.compare_eq_lt.mpr hlt, Ordering.then_eq_lt, Nat.compare_eq_lt, Nat.compare_eq_eq,
      Nat.compare_eq_lt]
    exact div_lt_or_mod_lt hlt
  · rw [Nat.compare_eq_eq.mpr rfl, Nat.compare_eq_eq.mpr rfl, Nat.compare_eq_eq.mpr rfl]
    rfl
  · rw [Nat.compare_eq_gt.mpr hgt, Ordering.then_eq_gt, Nat.compare_eq_gt, Nat.compare_eq_eq,
      Nat.compare_eq_gt]
    exact (div_lt_or_mod_lt hgt).imp_right fun ⟨h, hmod⟩ => ⟨h.symm, hmod⟩

/-- **Symbols compare as the numbers that their keys are.** -/
theorem compare_ofKey (a b : Key) : compare (ofKey a) (ofKey b) = Ord.compare a.toNat b.toNat := by
  rw [compare, toNat_byte_ofKey, toNat_byte_ofKey, index_ofKey, index_ofKey, compare_div_then_mod]

/-! ## Packing -/

/-- A name that is taken for granted is the one that is accepted. -/
theorem new_eq_ok_iff {c : Char} {i : UInt64} {s : Symbol} :
    new c i = .ok s ↔ tryNew c i = .ok s := mapError_eq_ok_iff

/-- **A name that does not fit is refused as invalid input**, and taking it for granted abandons the
run with the message of that refusal. -/
theorem refused_of_not_fits {c : Char} {i : UInt64} (h : ¬ (c.toNat < 128 ∧ i.toNat < 2 ^ 56)) :
    ∃ cause, tryNew c i = .error cause ∧
      (Fault.unfitName cause : Fault Float).kind = .invalidInput ∧
      new c i = .error (.aborted (Fault.unfitName cause).message) := by
  rw [← exists_tryNew_iff] at h
  rw [new]
  cases hname : tryNew c i with
  | ok s => exact absurd ⟨s, hname⟩ h
  | error cause => exact ⟨cause, rfl, rfl, rfl⟩

/-- Accepted names with one key are equal. -/
theorem name_eq_of_key_eq {c d : Char} {i j : UInt64} {s t : Symbol} (hs : tryNew c i = .ok s)
    (ht : tryNew d j = .ok t) (h : s.key = t.key) : c = d ∧ i = j := by
  have hst : s = t := by rw [← ofKey_key s, h, ofKey_key]
  obtain ⟨-, rfl, hi⟩ := tryNew_eq_ok_iff.mp hs
  obtain ⟨-, rfl, hj⟩ := tryNew_eq_ok_iff.mp ht
  refine ⟨by rw [hst], ?_⟩
  rw [← UInt64.toNat_inj, ← hi, ← hj, hst]

/-- **Names are packed into keys one to one and in order.**  A key is rebuilt from its symbol.  A
name is accepted exactly if its character is ASCII and its index has 56 bits, and is then read back
from its key; any other name is refused as invalid input, and abandons the run of who takes it for
granted.  So no two accepted names share a key.  Symbols compare as their keys do, and the symbol of
a key is an accepted name exactly if its character is ASCII. -/
theorem packed_one_to_one_in_order :
    (∀ k : Key, (ofKey k).key = k) ∧
    (∀ (c : Char) (i : UInt64),
      ((∃ s, tryNew c i = .ok s) ↔ c.toNat < 128 ∧ i.toNat < 2 ^ 56) ∧
      (∀ s, tryNew c i = .ok s →
        ofKey s.key = s ∧ s.letter = c ∧ s.word = i ∧ new c i = .ok s) ∧
      (¬ (c.toNat < 128 ∧ i.toNat < 2 ^ 56) →
        ∃ cause, tryNew c i = .error cause ∧
          (Fault.unfitName cause : Fault Float).kind = .invalidInput ∧
          new c i = .error (.aborted (Fault.unfitName cause).message))) ∧
    (∀ (c d : Char) (i j : UInt64) (s t : Symbol), tryNew c i = .ok s → tryNew d j = .ok t →
      s.key = t.key → c = d ∧ i = j) ∧
    (∀ a b : Key, compare (ofKey a) (ofKey b) = Ord.compare a.toNat b.toNat) ∧
    ∀ k : Key,
      (k.toNat / 2 ^ 56 < 128 → tryNew (ofKey k).letter (ofKey k).word = .ok (ofKey k)) ∧
      (128 ≤ k.toNat / 2 ^ 56 →
        ∃ cause, tryNew (ofKey k).letter (ofKey k).word = .error cause) := by
  refine ⟨key_ofKey, fun c i => ⟨exists_tryNew_iff, fun s hs => ?_, refused_of_not_fits⟩,
    fun c d i j s t hs ht => name_eq_of_key_eq hs ht, compare_ofKey,
    fun k => ⟨(tryNew_ofKey_iff k).mpr, fun hk => ?_⟩⟩
  · obtain ⟨-, hletter, hindex⟩ := tryNew_eq_ok_iff.mp hs
    refine ⟨ofKey_key s, hletter, ?_, new_eq_ok_iff.mpr hs⟩
    rw [← UInt64.toNat_inj, toNat_word, hindex]
  · have hletter : ¬ (ofKey k).letter.toNat < 128 := by
      rw [toNat_letter, toNat_byte_ofKey]
      exact Nat.not_lt.mpr hk
    obtain ⟨cause, hcause, -⟩ := refused_of_not_fits fun h => hletter h.1
    exact ⟨cause, hcause⟩

/-- The largest index fits, the next one does not, and neither does the character above ASCII; keys
on both sides of an ASCII top byte are in order. -/
theorem packed_at_the_limits :
    (∃ s, tryNew 'x' 0xFFFFFFFFFFFFFF = .ok s ∧ ofKey s.key = s ∧ s.word = 0xFFFFFFFFFFFFFF) ∧
    (∃ cause, tryNew 'x' 0x100000000000000 = .error cause) ∧
    (∃ cause, tryNew '\u0080' 0 = .error cause) ∧
    compare (ofKey 0x7FFFFFFFFFFFFFFF) (ofKey 0x8000000000000000) = .lt ∧
    tryNew (ofKey 0x7FFFFFFFFFFFFFFF).letter (ofKey 0x7FFFFFFFFFFFFFFF).word
      = .ok (ofKey 0x7FFFFFFFFFFFFFFF) ∧
    ∃ cause, tryNew (ofKey 0x8000000000000000).letter (ofKey 0x8000000000000000).word
      = .error cause := by
  obtain ⟨-, hname, -, horder, hkey⟩ := packed_one_to_one_in_order
  refine ⟨?_, ?_, ?_, ?_, ?_, ?_⟩
  · obtain ⟨s, hs⟩ := (hname 'x' 0xFFFFFFFFFFFFFF).1.mpr (by decide)
    obtain ⟨hread, -, hword, -⟩ := (hname _ _).2.1 s hs
    exact ⟨s, hs, hread, hword⟩
  · obtain ⟨cause, hcause, -⟩ := (hname 'x' 0x100000000000000).2.2 (by decide)
    exact ⟨cause, hcause⟩
  · obtain ⟨cause, hcause, -⟩ := (hname '\u0080' 0).2.2 (by decide)
    exact ⟨cause, hcause⟩
  · exact horder _ _
  · exact (hkey _).1 (by decide)
  · exact (hkey _).2 (by decide)

end Symbol

end SqpInequality

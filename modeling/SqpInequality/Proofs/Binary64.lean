import Mathlib
import SqpInequality.Scalar

/-!
# Proofs/Binary64 — double precision at zero

Two facts about doubles, read off the bits that they are made of: a limit is refused exactly if it
is no number, infinite or negative (`isLimit_eq_false_iff`), and adding to zero gives back what is
added unless that is itself a zero (`zero_add_float`).
-/

open Float.Model Float.Model.UnpackedFloat

namespace SqpInequality

/-! ## Comparison with zero -/

theorem float_lt_iff (x y : Float) : x < y ↔ x.toModel.unpack.lt y.toModel.unpack = true := by
  change decide (x.toModel.unpack.lt y.toModel.unpack = true) = true ↔ _
  rw [decide_eq_true_eq]

theorem float_le_iff (x y : Float) : x ≤ y ↔ x.toModel.unpack.le y.toModel.unpack = true := by
  change decide (x.toModel.unpack.le y.toModel.unpack = true) = true ↔ _
  rw [decide_eq_true_eq]

/-- **A limit is refused exactly if it is no number, infinite or negative.** -/
theorem isLimit_eq_false_iff (x : Float) :
    Scalar.isLimit x = false ↔ x.isNaN = true ∨ x.isInf = true ∨ x < 0 := by
  have hle : decide (0 ≤ x) = UnpackedFloat.le (.zero .positive) x.toModel.unpack := by
    rw [Bool.eq_iff_iff, decide_eq_true_eq]
    exact float_le_iff 0 x
  have hlt : x < 0 ↔ x.toModel.unpack.lt (.zero .positive) = true := float_lt_iff x 0
  rw [hlt]
  change (x.toModel.unpack.isFinite && decide (0 ≤ x)) = false ↔
    x.toModel.unpack.isNaN = true ∨ x.toModel.unpack.isInf = true ∨ _
  rw [hle]
  cases x.toModel.unpack with
  | notANumber => decide
  | infinity s => cases s <;> decide
  | zero s => cases s <;> decide
  | finite s m e hm =>
    cases s <;> simp [UnpackedFloat.isFinite, UnpackedFloat.le, UnpackedFloat.lt,
      UnpackedFloat.isNaN, UnpackedFloat.isInf, UnpackedFloat.compare, Ordering.isLE]

theorem isLimit_eq_true_iff (x : Float) :
    Scalar.isLimit x = true ↔ ¬ (x.isNaN = true ∨ x.isInf = true ∨ x < 0) := by
  rw [← isLimit_eq_false_iff, Bool.not_eq_false]

/-! ## Addition to zero

A sum is computed on sign, mantissa and exponent and then packed into bits.  Packing undoes taking
apart because each double has one bit pattern, the one for no number included. -/

theorem pack_unpack_model (m : Float.Model) : Float.Model.pack m.unpack = m := by
  obtain ⟨bits, hvalid⟩ := m
  have h := pack_unpack_of_valid hvalid
  simp only [Float.Model.pack, Float.Model.unpack, h, UInt64.ofBitVec_toBitVec]

/-- **Adding to zero gives back what is added**, unless that is a zero, which loses its sign. -/
theorem zero_add_float (x : Float) (hx : (x == 0) = false) : 0 + x = x := by
  have hadd : UnpackedFloat.add Format.binary64 (.zero .positive) x.toModel.unpack
      = x.toModel.unpack := by
    cases hu : x.toModel.unpack with
    | zero s =>
      have hzero : (x == 0) = true := by
        change (x.toModel.unpack.compare (.zero .positive) == some .eq) = true
        rw [hu]
        rfl
      rw [hzero] at hx
      contradiction
    | notANumber => rfl
    | infinity s => rfl
    | finite s m e hm => rfl
  change Float.ofModel (Float.Model.pack
    (UnpackedFloat.add Format.binary64 (.zero .positive) x.toModel.unpack)) = x
  rw [hadd, pack_unpack_model]

end SqpInequality

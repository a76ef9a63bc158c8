import SqpInequality.Proofs.Binary64.Rank

/-!
# Proofs/Binary64/Sign — negation mirrors the row of doubles

    | sign: 1 bit | exponent: 11 bits | fraction: 52 bits |

Negation changes the sign bit and nothing else (`unpack_neg`), so it reverses the order of the
numbers (`float_lt_neg_comm`).  A number is at the distance `|x|` from zero on one of its two sides
(`abs_eq_or_eq_neg`): if it is not above a limit but further from zero, then it is below the negated
limit (`float_lt_neg_of_lt_abs`).
-/

open Float.Model Float.Model.UnpackedFloat

namespace SqpInequality

/-! ## The sign bit -/

/-- A double with the given sign in place of its own. -/
def withSign (s : Sign) : UnpackedFloat → UnpackedFloat
  | .notANumber => .notANumber
  | .infinity _ => .infinity s
  | .zero _ => .zero s
  | .finite _ m e hm => .finite s m e hm

/-- Bits with another sign bit are those of the double with another sign. -/
theorem unpack_packComponents (s : Sign) (b : BitVec Format.binary64.numBits) :
    UnpackedFloat.unpack Format.binary64
        (packComponents Format.binary64 s (unpackExponent b) (unpackMantissa b))
      = withSign s (UnpackedFloat.unpack Format.binary64 b) := by
  rw [UnpackedFloat.unpack, UnpackedFloat.unpack]
  simp only [unpackSign_packComponents, unpackExponent_packComponents,
    unpackMantissa_packComponents, Sign.ofBitVec_toBitVec]
  split
  · split <;> rfl
  · split
    · split <;> rfl
    · rfl

/-- The sign has no part in exponent and fraction. -/
theorem pack_withSign (s : Sign) {u : UnpackedFloat} (h : u.isNaN = false) :
    UnpackedFloat.pack Format.binary64 (withSign s u)
      = packComponents Format.binary64 s (unpackExponent (UnpackedFloat.pack Format.binary64 u))
          (unpackMantissa (UnpackedFloat.pack Format.binary64 u)) := by
  cases u with
  | notANumber => contradiction
  | infinity t =>
    simp only [withSign, UnpackedFloat.pack, packedInfinity, unpackExponent_packComponents,
      unpackMantissa_packComponents]
  | zero t =>
    simp only [withSign, UnpackedFloat.pack, packedZero, unpackExponent_packComponents,
      unpackMantissa_packComponents]
  | finite t m e hm =>
    simp only [withSign, UnpackedFloat.pack]
    split
    · simp only [packedInfinity, unpackExponent_packComponents, unpackMantissa_packComponents]
    · split <;> simp only [unpackExponent_packComponents, unpackMantissa_packComponents]

/-- **A double is read back from its bits with another sign.** -/
theorem unpack_pack_withSign (s : Sign) (m : Float.Model) :
    (Float.Model.pack (withSign s m.unpack)).unpack = withSign s m.unpack := by
  cases hnan : m.unpack.isNaN with
  | true =>
    rw [isNaN_iff.mp hnan]
    exact unpack_packedNaN
  | false =>
    have hbits : UnpackedFloat.pack Format.binary64 m.unpack = m.toBits.toBitVec :=
      pack_unpack_of_valid m.valid
    have hpack := pack_withSign s hnan
    rw [hbits] at hpack
    change UnpackedFloat.unpack Format.binary64
      (UnpackedFloat.pack Format.binary64 (withSign s m.unpack)) = _
    rw [hpack, unpack_packComponents]
    rfl

theorem exists_neg_eq_withSign (u : UnpackedFloat) : ∃ s, u.neg = withSign s u := by
  cases u with
  | notANumber => exact ⟨.positive, rfl⟩
  | infinity s => exact ⟨-s, rfl⟩
  | zero s => exact ⟨-s, rfl⟩
  | finite s m e hm => exact ⟨-s, rfl⟩

theorem unpack_neg (x : Float) : (-x).toModel.unpack = x.toModel.unpack.neg := by
  obtain ⟨s, hs⟩ := exists_neg_eq_withSign x.toModel.unpack
  change (Float.Model.pack x.toModel.unpack.neg).unpack = _
  rw [hs, unpack_pack_withSign]

/-! ## The mirrored row -/

theorem isNaN_neg (x : Float) : (-x).isNaN = x.isNaN := by
  change (-x).toModel.unpack.isNaN = x.toModel.unpack.isNaN
  rw [unpack_neg]
  cases x.toModel.unpack <;> rfl

/-- A negated double is at the mirrored place. -/
theorem exists_rank_neg (u : UnpackedFloat) :
    ∃ a b c, rank u = toLex (a, toLex (b, c)) ∧ rank u.neg = toLex (-a, toLex (-b, -c)) := by
  rcases u with (_ | _) | _ | (_ | _) | ⟨_ | _, m, e, hm⟩
  · exact ⟨-2, 0, 0, rfl, rfl⟩
  · exact ⟨2, 0, 0, rfl, rfl⟩
  · exact ⟨0, 0, 0, rfl, rfl⟩
  · exact ⟨0, 0, 0, rfl, rfl⟩
  · exact ⟨0, 0, 0, rfl, rfl⟩
  · refine ⟨-1, -e, -m, rfl, ?_⟩
    rw [neg_neg, neg_neg, neg_neg]
    rfl
  · exact ⟨1, e, m, rfl, rfl⟩

/-- **Negation carries a comparison to the other side**, and turns it around. -/
theorem float_lt_neg_comm {x y : Float} : x < -y ↔ y < -x := by
  obtain ⟨a, b, c, hx, hx'⟩ := exists_rank_neg x.toModel.unpack
  obtain ⟨a', b', c', hy, hy'⟩ := exists_rank_neg y.toModel.unpack
  rw [float_lt_iff_rank, float_lt_iff_rank, isNaN_neg, isNaN_neg, unpack_neg, unpack_neg, hx, hx',
    hy, hy', rank_lt_iff, rank_lt_iff]
  constructor <;>
    · rintro ⟨hnan, hnan', hlt⟩
      exact ⟨hnan', hnan, by omega⟩

/-! ## The distance from zero -/

theorem abs_eq_or_eq_neg (x : Float) : x.abs = x ∨ x.abs = -x := by
  have hunpacked : x.toModel.unpack.abs = x.toModel.unpack ∨
      x.toModel.unpack.abs = x.toModel.unpack.neg := by
    rcases x.toModel.unpack with (_ | _) | _ | (_ | _) | ⟨_ | _, m, e, hm⟩
    · exact Or.inr rfl
    · exact Or.inl rfl
    · exact Or.inl rfl
    · exact Or.inr rfl
    · exact Or.inl rfl
    · exact Or.inr rfl
    · exact Or.inl rfl
  have habs : x.abs = Float.ofModel (Float.Model.pack x.toModel.unpack.abs) := rfl
  rcases hunpacked with h | h
  · rw [habs, h, pack_unpack_model]
    exact Or.inl rfl
  · rw [habs, h]
    exact Or.inr rfl

/-- **A double that is not above a limit, and yet further from zero, is below the negated limit.** -/
theorem float_lt_neg_of_lt_abs {limit x : Float} (hle : ¬ limit < x) (habs : limit < x.abs) :
    x < -limit := by
  rcases abs_eq_or_eq_neg x with h | h
  · rw [h] at habs
    contradiction
  · rw [h] at habs
    exact float_lt_neg_comm.mp habs

/-- What is below the negation of something that is not negative is negative. -/
theorem float_lt_zero_of_lt_neg {limit x : Float} (hlimit : ¬ limit < 0) (h : x < -limit) :
    x < 0 := by
  have hzero : (0 : Float).isNaN = false := rfl
  refine (float_lt_or_lt hzero h).resolve_right fun hpos => hlimit ?_
  -- A negative zero is at the same place as zero.
  have hneg : limit < -0 := float_lt_neg_comm.mp hpos
  rw [float_lt_iff_rank] at hneg ⊢
  exact hneg

end SqpInequality

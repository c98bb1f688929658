import TypedExpr.Proofs.Collections.Elements
/-!
# Doubles as elements, by their bits

A double is a pattern of 64 bits, and many patterns are no number. A set that keeps patterns has to
bring these to one, and both zeros. The keys of doubles come to the same as such patterns.

* `Double.keyBits`: the pattern for all that are one element.
* `Double.key?_ofBits`: it is the pattern of the key.
* `Double.keyBits_eq_iff`: **which patterns are one element.**
-/

namespace TypedExpr.Double

open Float.Model (Format)
open Float.Model.UnpackedFloat (isNaNBits)

/-- A pattern without its sign, as a number. Zeros come to nothing, and what is no number to more
than infinities do. -/
def unsigned (b : UInt64) : Nat := b.toNat % 2 ^ 63

/-- The pattern that stands for all that are one element of a set. -/
def keyBits (b : UInt64) : UInt64 :=
  if unsigned b = 0 then 0
  else if 0x7ff0000000000000 < unsigned b then 0x7ff8000000000000
  else b

variable {b c : UInt64}

theorem isNaNBits_iff :
    @isNaNBits Format.binary64 b.toBitVec = true ↔ 0x7ff0000000000000 < unsigned b := by
  have hb := b.toNat_lt
  unfold isNaNBits unsigned
  rw [decide_eq_true_iff, Float.Model.UnpackedFloat.unpackExponent_def,
    Float.Model.UnpackedFloat.unpackMantissa_def, ne_eq, ← BitVec.toNat_inj, ← BitVec.toNat_inj,
    BitVec.extractLsb'_toNat, BitVec.extractLsb'_toNat, Nat.shiftRight_eq_div_pow,
    Nat.shiftRight_zero]
  show b.toNat / 4503599627370496 % 2048 = 2047 ∧ ¬b.toNat % 4503599627370496 = 0 ↔ _
  omega

/-- There is one double that is no number, whatever pattern it is made from. -/
theorem toBits_ofBits (b : UInt64) : (Float.ofBits b).toBits =
    if 0x7ff0000000000000 < unsigned b then 0x7ff8000000000000 else b := by
  rw [← UInt64.toBitVec_inj]
  refine (@Float.Model.UnpackedFloat.pack_unpack Format.binary64 b.toBitVec (by decide)).trans ?_
  simp only [isNaNBits_iff]
  split <;> rfl

theorem toBits_ofBits_of_le (h : unsigned b ≤ 0x7ff0000000000000) :
    (Float.ofBits b).toBits = b := by
  rw [toBits_ofBits, if_neg (Nat.not_lt.mpr h)]

theorem ofBits_eq_nan_iff : Float.ofBits b = nan ↔ 0x7ff0000000000000 < unsigned b := by
  have hnan : nan.toBits = 0x7ff8000000000000 := by decide
  rw [← Float.toBits_inj, toBits_ofBits, hnan]
  refine ⟨fun h => ?_, fun h => if_pos h⟩
  by_contra hb
  rw [if_neg hb] at h
  exact hb (h ▸ by decide)

theorem isNaN_ofBits : (Float.ofBits b).isNaN ↔ 0x7ff0000000000000 < unsigned b := by
  rw [Float.isNaN_eq_decide_eq_nan, decide_eq_true_iff]
  exact ofBits_eq_nan_iff

theorem unsigned_eq_zero_iff : unsigned b = 0 ↔ b = 0 ∨ b = 0x8000000000000000 := by
  have hb := b.toNat_lt
  have hminus : (0x8000000000000000 : UInt64).toNat = 2 ^ 63 := by decide
  rw [← UInt64.toNat_inj, ← UInt64.toNat_inj, UInt64.toNat_zero, hminus, unsigned]
  omega

theorem ofBits_beq_zero : (Float.ofBits b == 0) = true ↔ unsigned b = 0 := by
  have hzero : (0 : Float) = Float.ofBits 0 := by decide
  have hneg : (-0 : Float) = Float.ofBits 0x8000000000000000 := by decide
  have hnumber : (0 : Float) ≠ Float.nan := by decide
  have hsigns : (0 : Float) ≠ -0 := by decide
  rw [Float.beq_iff_ne_nan_and_eq, unsigned_eq_zero_iff]
  constructor
  · rintro ⟨hb, -, h⟩
    have hle := Nat.not_lt.mp (mt ofBits_eq_nan_iff.mpr hb)
    have hbits := toBits_ofBits_of_le hle
    rcases h with h | ⟨-, h⟩ | ⟨h, -⟩
    · left
      rw [← hbits, h]
      decide
    · exact absurd h hsigns
    · right
      rw [← hbits, h]
      decide
  · rintro (rfl | rfl)
    · rw [← hzero]
      exact ⟨hnumber, hnumber, .inl rfl⟩
    · rw [← hneg]
      exact ⟨by decide, hnumber, .inr (.inr ⟨rfl, rfl⟩)⟩

/-! ### Keys -/

/-- The pattern of a key is that of a double. -/
theorem toBits_ofBits_keyBits (b : UInt64) : (Float.ofBits (keyBits b)).toBits = keyBits b := by
  unfold keyBits
  split
  · decide
  · split
    · decide
    · rename_i h
      exact toBits_ofBits_of_le (Nat.not_lt.mp h)

/-- The pattern for a double is that of its key. -/
theorem key?_ofBits (b : UInt64) :
    (Value.double (.ofBits b)).key? = some (.double (.ofBits (keyBits b))) := by
  unfold Value.key? keyBits
  dsimp only
  by_cases hzero : unsigned b = 0
  · rw [if_pos (ofBits_beq_zero.mpr hzero), if_pos hzero]
    rfl
  · rw [if_neg (mt ofBits_beq_zero.mp hzero), if_neg hzero]
    by_cases hnan : 0x7ff0000000000000 < unsigned b
    · rw [if_pos (isNaN_ofBits.mpr hnan), if_pos hnan]
      rfl
    · rw [if_neg (mt isNaN_ofBits.mp hnan), if_neg hnan]

/-- **Patterns are one element** if their doubles are equal, as zeros of either sign are, or if both
are no number, whatever else is in their bits. -/
theorem keyBits_eq_iff : keyBits b = keyBits c ↔
    Float.ofBits b == Float.ofBits c ∨ (Float.ofBits b).isNaN ∧ (Float.ofBits c).isNaN := by
  rw [← Value.key?_double, key?_ofBits, key?_ofBits, Option.some.injEq, ElementKey.double.injEq,
    ← Float.toBits_inj, toBits_ofBits_keyBits, toBits_ofBits_keyBits]

end TypedExpr.Double

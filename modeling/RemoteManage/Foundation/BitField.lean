import Mathlib.Algebra.Order.Ring.Nat

/-!
# Fields of a register

A field is a range of bits of a word. A value is put into it by shifting and masking, so that what
does not fit is cut off, and read from it by masking and shifting back. Fields that do not overlap
do not see each other.
-/

namespace RemoteManage.Foundation

variable {w : ℕ}

/-- The mask of the bits from `low` to `high`. -/
def genmask (w high low : ℕ) : BitVec w :=
  (BitVec.allOnes w <<< low) &&& (BitVec.allOnes w >>> (w - 1 - high))

/-- A word with a value in a field and zeros elsewhere. -/
def fieldPrep (high low : ℕ) (value : BitVec w) : BitVec w := (value <<< low) &&& genmask w high low

/-- The value in a field of a word. -/
def fieldGet (high low : ℕ) (word : BitVec w) : BitVec w := (word &&& genmask w high low) >>> low

/-- The bits of a mask. -/
theorem getLsbD_genmask (high low i : ℕ) :
    (genmask w high low).getLsbD i = decide (low ≤ i ∧ i ≤ high ∧ i < w) := by
  simp only [genmask, BitVec.getLsbD_and, BitVec.getLsbD_shiftLeft, BitVec.getLsbD_ushiftRight,
    BitVec.getLsbD_allOnes]
  grind

/-- The bits of a field. -/
theorem getLsbD_fieldGet (high low : ℕ) (word : BitVec w) (i : ℕ) :
    (fieldGet high low word).getLsbD i = (word.getLsbD (low + i) && decide (low + i ≤ high)) := by
  simp only [fieldGet, BitVec.getLsbD_ushiftRight, BitVec.getLsbD_and, getLsbD_genmask]
  by_cases h : low + i < w
  · simp [h]
  · simp [BitVec.getLsbD_of_ge word (low + i) (by omega)]

/-- The bits of a word with one field. -/
theorem getLsbD_fieldPrep (high low : ℕ) (value : BitVec w) (i : ℕ) :
    (fieldPrep high low value).getLsbD i =
      (decide (low ≤ i ∧ i ≤ high ∧ i < w) && value.getLsbD (i - low)) := by
  simp only [fieldPrep, BitVec.getLsbD_and, BitVec.getLsbD_shiftLeft, getLsbD_genmask]
  grind

/-- A field of a union is the union of the fields. -/
theorem fieldGet_or (high low : ℕ) (left right : BitVec w) :
    fieldGet high low (left ||| right) = fieldGet high low left ||| fieldGet high low right := by
  refine BitVec.eq_of_getLsbD_eq fun i _ => ?_
  simp only [getLsbD_fieldGet, BitVec.getLsbD_or, Bool.and_or_distrib_right]

/-- A field does not see a value in a field above or below. -/
theorem fieldGet_fieldPrep_of_disjoint {high low high' low' : ℕ} (h : high < low' ∨ high' < low)
    (value : BitVec w) : fieldGet high low (fieldPrep high' low' value) = 0#w := by
  refine BitVec.eq_of_getLsbD_eq fun i _ => ?_
  simp only [getLsbD_fieldGet, getLsbD_fieldPrep]
  grind

/-- A field gives back as many bits of a value as it has. -/
theorem fieldGet_fieldPrep_self {high low : ℕ} (hhigh : high < w) (value : BitVec w) :
    fieldGet high low (fieldPrep high low value) = (value.setWidth (high + 1 - low)).setWidth w := by
  refine BitVec.eq_of_getLsbD_eq fun i _ => ?_
  simp only [getLsbD_fieldGet, getLsbD_fieldPrep, BitVec.getLsbD_setWidth]
  grind

/-- A field gives back a value modulo its size. -/
theorem toNat_fieldGet_fieldPrep {high low : ℕ} (hhigh : high < w) (value : BitVec w) :
    (fieldGet high low (fieldPrep high low value)).toNat = value.toNat % 2 ^ (high + 1 - low) := by
  rw [fieldGet_fieldPrep_self hhigh, BitVec.toNat_setWidth, BitVec.toNat_setWidth]
  have hsize : 2 ^ (high + 1 - low) ≤ 2 ^ w := Nat.pow_le_pow_right (by decide) (by omega)
  exact Nat.mod_eq_of_lt ((Nat.mod_lt _ (Nat.two_pow_pos _)).trans_le hsize)

end RemoteManage.Foundation

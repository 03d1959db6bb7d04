import Mathlib.Order.MinMax
import Mathlib.Tactic.Ring

/-!
# Integers in single precision

The conversions between 32-bit integers and the words of IEEE 754 single-precision numbers, as
C performs them: to the nearest number, ties to the even significand, in one direction, and
by cutting off the fraction in the other. Integers up to `2 ^ 24` in absolute value are numbers
of the format and come back unchanged.
-/

namespace RemoteManage.Foundation

/-- The number nearest to a natural number, without its sign bit. A significand that is rounded up to
`2 ^ 24` carries into the exponent. -/
def magnitudeBits (m : ℕ) : ℕ :=
  if m = 0 then 0
  else if m.log2 ≤ 23 then (m.log2 + 126) * 2 ^ 23 + m * 2 ^ (23 - m.log2)
  else
    let unit := 2 ^ (m.log2 - 23)
    let rounded :=
      if unit < 2 * (m % unit) ∨ (unit = 2 * (m % unit) ∧ m / unit % 2 = 1) then m / unit + 1 else m / unit
    (m.log2 + 126) * 2 ^ 23 + rounded

/-- The natural number to which a number without its sign bit is cut off. Infinities give a number that
no integer type holds, and what is not a number gives zero. -/
def magnitudeTrunc (bits : ℕ) : ℕ :=
  let exponent := bits / 2 ^ 23
  let significand := 2 ^ 23 + bits % 2 ^ 23
  if exponent < 127 then 0
  else if exponent = 255 ∧ significand ≠ 2 ^ 23 then 0
  else if exponent ≤ 150 then significand / 2 ^ (150 - exponent)
  else significand * 2 ^ (exponent - 150)

/-- The word of the number that an integer is converted to. -/
def floatOfInt (n : Int32) : UInt32 :=
  UInt32.ofNat ((if n.toInt < 0 then 2 ^ 31 else 0) + magnitudeBits n.toInt.natAbs)

/-- The integer that a number is converted to; one that does not fit is replaced by the nearest that
does. -/
def intOfFloat (word : UInt32) : Int32 :=
  let magnitude : ℤ := magnitudeTrunc (word.toNat % 2 ^ 31)
  Int32.ofInt (max (-2 ^ 31) (min (2 ^ 31 - 1) (if word.toNat < 2 ^ 31 then magnitude else -magnitude)))

/-- A word with this exponent and fraction is cut off to its significand, scaled. -/
theorem magnitudeTrunc_mul_add (exponent significand : ℕ) (hlow : 2 ^ 23 ≤ significand)
    (hhigh : significand < 2 ^ 24) (hmin : 127 ≤ exponent + 1) (hmax : exponent + 1 ≤ 150) :
    magnitudeTrunc (exponent * 2 ^ 23 + significand) = significand / 2 ^ (150 - (exponent + 1)) := by
  have hdiv : (exponent * 2 ^ 23 + significand) / 2 ^ 23 = exponent + 1 := by omega
  have hmod : 2 ^ 23 + (exponent * 2 ^ 23 + significand) % 2 ^ 23 = significand := by omega
  unfold magnitudeTrunc
  dsimp only
  rw [hdiv, hmod, if_neg (by omega), if_neg (by omega), if_pos hmax]

/-- The exponent of a number below `2 ^ 24`. -/
theorem log2_le_of_lt {m : ℕ} (hzero : m ≠ 0) (h : m < 2 ^ 24) : m.log2 ≤ 23 :=
  Nat.le_of_lt_succ ((Nat.log2_lt hzero).mpr h)

/-- The significand of a number that needs no rounding has its leading bit at 23. -/
theorem significand_bounds {m : ℕ} (hzero : m ≠ 0) (hlog : m.log2 ≤ 23) :
    2 ^ 23 ≤ m * 2 ^ (23 - m.log2) ∧ m * 2 ^ (23 - m.log2) < 2 ^ 24 := by
  have hsplit : 2 ^ m.log2 * 2 ^ (23 - m.log2) = 2 ^ 23 := by rw [← pow_add, Nat.add_sub_cancel' hlog]
  constructor
  · calc 2 ^ 23 = 2 ^ m.log2 * 2 ^ (23 - m.log2) := hsplit.symm
      _ ≤ m * 2 ^ (23 - m.log2) := Nat.mul_le_mul_right _ (Nat.log2_self_le hzero)
  · calc m * 2 ^ (23 - m.log2) < 2 ^ (m.log2 + 1) * 2 ^ (23 - m.log2) :=
          Nat.mul_lt_mul_of_pos_right Nat.lt_log2_self (Nat.two_pow_pos _)
      _ = 2 * (2 ^ m.log2 * 2 ^ (23 - m.log2)) := by ring
      _ = 2 ^ 24 := by rw [hsplit]; rfl

/-- A natural number up to `2 ^ 24` is one of the bounds or needs no rounding. -/
theorem magnitude_cases {m : ℕ} (h : m ≤ 2 ^ 24) : m = 0 ∨ m = 2 ^ 24 ∨ m ≠ 0 ∧ m.log2 ≤ 23 := by
  by_cases hzero : m = 0
  · exact .inl hzero
  by_cases hlast : m = 2 ^ 24
  · exact .inr (.inl hlast)
  · exact .inr (.inr ⟨hzero, log2_le_of_lt hzero (Nat.lt_of_le_of_ne h hlast)⟩)

/-- A natural number up to `2 ^ 24` is exact. -/
theorem magnitudeTrunc_magnitudeBits {m : ℕ} (h : m ≤ 2 ^ 24) : magnitudeTrunc (magnitudeBits m) = m := by
  obtain rfl | rfl | ⟨hzero, hlog⟩ := magnitude_cases h
  · decide
  · decide +kernel
  · obtain ⟨hlow, hhigh⟩ := significand_bounds hzero hlog
    rw [magnitudeBits, if_neg hzero, if_pos hlog,
      magnitudeTrunc_mul_add _ _ hlow hhigh (by omega) (by omega),
      show 150 - (m.log2 + 126 + 1) = 23 - m.log2 by omega]
    exact Nat.mul_div_cancel m (Nat.two_pow_pos _)

/-- Without its sign a number that is exact fits in 31 bits. -/
theorem magnitudeBits_lt {m : ℕ} (h : m ≤ 2 ^ 24) : magnitudeBits m < 2 ^ 31 := by
  obtain rfl | rfl | ⟨hzero, hlog⟩ := magnitude_cases h
  · decide
  · decide +kernel
  · obtain ⟨-, hhigh⟩ := significand_bounds hzero hlog
    rw [magnitudeBits, if_neg hzero, if_pos hlog]
    omega

/-- Integers up to `2 ^ 24` in absolute value come back from single precision. -/
theorem intOfFloat_floatOfInt {n : Int32} (h : n.toInt.natAbs ≤ 2 ^ 24) : intOfFloat (floatOfInt n) = n := by
  have hlt := magnitudeBits_lt h
  have htrunc := magnitudeTrunc_magnitudeBits h
  have hword : (floatOfInt n).toNat = (if n.toInt < 0 then 2 ^ 31 else 0) + magnitudeBits n.toInt.natAbs := by
    rw [floatOfInt, UInt32.toNat_ofNat']
    apply Nat.mod_eq_of_lt
    split <;> omega
  have hmagnitude : (floatOfInt n).toNat % 2 ^ 31 = magnitudeBits n.toInt.natAbs := by
    rw [hword]
    split <;> omega
  have hvalue : (if (floatOfInt n).toNat < 2 ^ 31 then (n.toInt.natAbs : ℤ) else -(n.toInt.natAbs : ℤ)) =
      n.toInt := by
    rw [hword]
    by_cases hneg : n.toInt < 0
    · rw [if_pos hneg, if_neg (by omega)]
      omega
    · rw [if_neg hneg, if_pos (by omega)]
      omega
  rw [intOfFloat, hmagnitude, htrunc, hvalue, min_eq_right (by omega), max_eq_right (by omega),
    Int32.ofInt_toInt]

end RemoteManage.Foundation

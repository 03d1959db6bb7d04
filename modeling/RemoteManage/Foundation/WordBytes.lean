import Mathlib.Data.List.GetD
import Mathlib.Data.Nat.Bitwise

/-!
# Sixteen-bit words as two bytes

The high byte first, as the programs split a word with `x >> 8` and `x & 0xff` and join
it with `(hi << 8) | lo`. Both directions are stated over the natural numbers once, so
that later arguments about lengths are linear arithmetic.
-/

namespace RemoteManage.Foundation

/-- The byte `x >> 8`. -/
def highByte (x : UInt16) : UInt8 := (x >>> 8).toUInt8

/-- The byte `x & 0xff`. -/
def lowByte (x : UInt16) : UInt8 := (x &&& 0xff).toUInt8

/-- The word `(hi << 8) | lo`. -/
def joinBytes (hi lo : UInt8) : UInt16 := (hi.toUInt16 <<< 8) ||| lo.toUInt16

/-- The high byte is the quotient by 256. -/
theorem highByte_toNat (x : UInt16) : (highByte x).toNat = x.toNat / 256 := by
  have hx := x.toNat_lt
  have hshift : x.toNat >>> 8 = x.toNat / 256 := Nat.shiftRight_eq_div_pow _ _
  simp only [highByte, UInt16.toNat_toUInt8, UInt16.toNat_shiftRight]
  change x.toNat >>> 8 % 2 ^ 8 = _
  rw [hshift]
  omega

/-- The low byte is the remainder by 256. -/
theorem lowByte_toNat (x : UInt16) : (lowByte x).toNat = x.toNat % 256 := by
  simp only [lowByte, UInt16.toNat_toUInt8, UInt16.toNat_and]
  change (x.toNat &&& 2 ^ 8 - 1) % 2 ^ 8 = _
  rw [Nat.and_two_pow_sub_one_eq_mod, Nat.mod_mod]

/-- A joined word in positional notation. -/
theorem joinBytes_toNat (hi lo : UInt8) : (joinBytes hi lo).toNat = 256 * hi.toNat + lo.toNat := by
  have hhi := hi.toNat_lt
  have hlo := lo.toNat_lt
  simp only [joinBytes, UInt16.toNat_or, UInt16.toNat_shiftLeft, UInt8.toNat_toUInt16]
  change (hi.toNat <<< 8 % 2 ^ 16) ||| lo.toNat = _
  have hshift : hi.toNat <<< 8 = 2 ^ 8 * hi.toNat := by rw [Nat.shiftLeft_eq, Nat.mul_comm]
  rw [hshift, Nat.mod_eq_of_lt (by omega), ← Nat.two_pow_add_eq_or_of_lt hlo]

/-- Splitting a word and joining its bytes gives the word back. -/
@[simp] theorem joinBytes_highByte_lowByte (x : UInt16) : joinBytes (highByte x) (lowByte x) = x := by
  apply UInt16.toNat_inj.mp
  rw [joinBytes_toNat, highByte_toNat, lowByte_toNat]
  omega

/-- The high byte of a joined word. -/
@[simp] theorem highByte_joinBytes (hi lo : UInt8) : highByte (joinBytes hi lo) = hi := by
  apply UInt8.toNat_inj.mp
  have hlo := lo.toNat_lt
  rw [highByte_toNat, joinBytes_toNat]
  omega

/-- The low byte of a joined word. -/
@[simp] theorem lowByte_joinBytes (hi lo : UInt8) : lowByte (joinBytes hi lo) = lo := by
  apply UInt8.toNat_inj.mp
  have hlo := lo.toNat_lt
  rw [lowByte_toNat, joinBytes_toNat]
  omega

/-- Words are equal when their bytes are. -/
theorem eq_of_bytes {x y : UInt16} (hhigh : highByte x = highByte y) (hlow : lowByte x = lowByte y) :
    x = y := by
  rw [← joinBytes_highByte_lowByte x, ← joinBytes_highByte_lowByte y, hhigh, hlow]

/-- The high byte of an exclusive or. -/
theorem highByte_xor (x y : UInt16) : highByte (x ^^^ y) = highByte x ^^^ highByte y := by
  rw [highByte, UInt16.shiftRight_xor, UInt16.toUInt8_xor]
  rfl

/-- The low byte is what remains of a word in eight bits. -/
theorem lowByte_eq_toUInt8 (x : UInt16) : lowByte x = x.toUInt8 := by
  apply UInt8.toNat_inj.mp
  rw [lowByte_toNat, UInt16.toNat_toUInt8]

/-- The low byte of an exclusive or. -/
theorem lowByte_xor (x y : UInt16) : lowByte (x ^^^ y) = lowByte x ^^^ lowByte y := by
  simp only [lowByte_eq_toUInt8, UInt16.toUInt8_xor]

/-- The exclusive or of words, byte by byte. -/
theorem joinBytes_xor (a b c d : UInt8) :
    joinBytes a b ^^^ joinBytes c d = joinBytes (a ^^^ c) (b ^^^ d) := by
  apply eq_of_bytes
  · rw [highByte_xor, highByte_joinBytes, highByte_joinBytes, highByte_joinBytes]
  · rw [lowByte_xor, lowByte_joinBytes, lowByte_joinBytes, lowByte_joinBytes]

/-- The high byte of a disjunction. -/
theorem highByte_or (x y : UInt16) : highByte (x ||| y) = highByte x ||| highByte y := by
  rw [highByte, UInt16.shiftRight_or, UInt16.toUInt8_or]
  rfl

/-- The low byte of a disjunction. -/
theorem lowByte_or (x y : UInt16) : lowByte (x ||| y) = lowByte x ||| lowByte y := by
  simp only [lowByte_eq_toUInt8, UInt16.toUInt8_or]

/-- The disjunction of words, byte by byte. -/
theorem joinBytes_or (a b c d : UInt8) :
    joinBytes a b ||| joinBytes c d = joinBytes (a ||| c) (b ||| d) := by
  apply eq_of_bytes
  · rw [highByte_or, highByte_joinBytes, highByte_joinBytes, highByte_joinBytes]
  · rw [lowByte_or, lowByte_joinBytes, lowByte_joinBytes, lowByte_joinBytes]

/-- Shifting a word by a byte leaves its low byte above. -/
theorem joinBytes_shiftLeft (a b : UInt8) : joinBytes a b <<< 8 = joinBytes b 0 := by
  apply UInt16.toNat_inj.mp
  have hb := b.toNat_lt
  rw [UInt16.toNat_shiftLeft, joinBytes_toNat, joinBytes_toNat]
  change (256 * a.toNat + b.toNat) <<< 8 % 2 ^ 16 = 256 * b.toNat + 0
  rw [Nat.shiftLeft_eq]
  omega

/-- A byte as a word. -/
theorem toUInt16_eq_joinBytes (x : UInt8) : x.toUInt16 = joinBytes 0 x := by
  apply UInt16.toNat_inj.mp
  rw [joinBytes_toNat, UInt8.toNat_toUInt16]
  exact (Nat.zero_add _).symm

/-- A word shifted by a byte is its high byte. -/
theorem shiftRight_eq_joinBytes (x : UInt16) : x >>> 8 = joinBytes 0 (highByte x) := by
  apply UInt16.toNat_inj.mp
  rw [joinBytes_toNat, highByte_toNat, UInt16.toNat_shiftRight]
  change x.toNat >>> 8 = 256 * 0 + _
  rw [Nat.shiftRight_eq_div_pow]
  omega

/-- The word in the two bytes behind a list. -/
theorem joinBytes_getD_append (l : List UInt8) (hi lo : UInt8) :
    joinBytes ((l ++ [hi, lo]).getD l.length 0) ((l ++ [hi, lo]).getD (l.length + 1) 0) =
      joinBytes hi lo := by
  have hhigh : (l ++ [hi, lo]).getD l.length 0 = hi := by
    rw [List.getD_append_right _ _ _ _ (le_refl _), Nat.sub_self]
    rfl
  have hlow : (l ++ [hi, lo]).getD (l.length + 1) 0 = lo := by
    rw [List.getD_append_right _ _ _ _ (by omega), Nat.add_sub_cancel_left]
    rfl
  rw [hhigh, hlow]

/-- The four bytes of a word as they lie in memory, the least significant one first. -/
def wordBytes (word : UInt32) : List UInt8 :=
  [.ofNat word.toNat, .ofNat (word.toNat / 2 ^ 8), .ofNat (word.toNat / 2 ^ 16), .ofNat (word.toNat / 2 ^ 24)]

/-- The word in four bytes of memory. -/
def wordOfBytes (bytes : List UInt8) : UInt32 :=
  .ofNat ((bytes.getD 0 0).toNat + 2 ^ 8 * (bytes.getD 1 0).toNat + 2 ^ 16 * (bytes.getD 2 0).toNat +
    2 ^ 24 * (bytes.getD 3 0).toNat)

/-- A word is read back from the memory it has been copied to. -/
@[simp] theorem wordOfBytes_wordBytes (word : UInt32) : wordOfBytes (wordBytes word) = word := by
  have hword := word.toNat_lt
  apply UInt32.toNat_inj.mp
  simp only [wordOfBytes, wordBytes, List.getD_cons_zero, List.getD_cons_succ, UInt32.toNat_ofNat',
    UInt8.toNat_ofNat']
  omega

/-- Of words that lie in memory one after the other each is found at four times its index. -/
theorem take_drop_flatMap_wordBytes (words : List UInt32) (tail : List UInt8) {k : ℕ}
    (hk : k < words.length) :
    ((words.flatMap wordBytes ++ tail).drop (4 * k)).take 4 = wordBytes (words.getD k 0) := by
  induction words generalizing k with
  | nil => contradiction
  | cons word words ih =>
    cases k with
    | zero => rfl
    | succ k =>
      rw [Nat.mul_succ, Nat.add_comm, ← List.drop_drop]
      exact ih (Nat.lt_of_succ_lt_succ hk)

end RemoteManage.Foundation

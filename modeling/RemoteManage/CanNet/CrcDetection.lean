import RemoteManage.CanNet.CrcAgreement
import RemoteManage.Foundation.CrcErrors

/-!
# What the checksum of the protocols detects

The polynomial `0xA001` lets no odd number of errors, no two errors within 32767 bits and no burst of sixteen
bits pass. A message whose checksum stands behind it, the low byte first, leaves an empty register.
-/

namespace RemoteManage.CanNet

open RemoteManage.Foundation

/-- The bits of a message, in the order in which the register takes them. -/
def lineBits (message : List UInt8) : List Bool := (message.map UInt8.toBitVec).flatMap byteBits

/-- The sum of two messages of one length. -/
def xorBytes (message error : List UInt8) : List UInt8 := List.zipWith (· ^^^ ·) message error

/-- Eight bits for each byte. -/
theorem lineBits_length (message : List UInt8) : (lineBits message).length = 8 * message.length := by
  induction message with
  | nil => rfl
  | cons data rest ih =>
    have hcons : lineBits (data :: rest) = byteBits data.toBitVec ++ lineBits rest := rfl
    rw [hcons, List.length_append, ih, byteBits, List.length_map, List.length_range, List.length_cons]
    omega

/-- The bits of two messages behind each other. -/
theorem lineBits_append (first second : List UInt8) :
    lineBits (first ++ second) = lineBits first ++ lineBits second := by
  rw [lineBits, List.map_append, List.flatMap_append]
  rfl

/-- The bits of a sum are the sums of the bits. -/
theorem lineBits_xorBytes {message error : List UInt8} (h : message.length = error.length) :
    lineBits (xorBytes message error) = List.zipWith xor (lineBits message) (lineBits error) := by
  induction message generalizing error with
  | nil =>
    obtain rfl := List.length_eq_zero_iff.mp h.symm
    rfl
  | cons data rest ih =>
    cases error with
    | nil => contradiction
    | cons flip error =>
      have hbyte : byteBits (data ^^^ flip).toBitVec =
          List.zipWith xor (byteBits data.toBitVec) (byteBits flip.toBitVec) := by
        rw [byteBits, byteBits, byteBits, List.zipWith_map, List.zipWith_self]
        exact List.map_congr_left fun _ _ => BitVec.getLsbD_xor
      change byteBits (data ^^^ flip).toBitVec ++ lineBits (xorBytes rest error) =
        List.zipWith xor (byteBits data.toBitVec ++ lineBits rest) (byteBits flip.toBitVec ++ lineBits error)
      rw [List.zipWith_append (by simp [byteBits]), hbyte, ih (Nat.succ.inj h)]

/-- The checksum is the register after the bits. -/
theorem crc16Serial_eq_foldl (crc : UInt16) (message : List UInt8) :
    (crc16Serial crc message).toBitVec = (lineBits message).foldl (feedBit crc16Poly) crc.toBitVec := rfl

/-- The two bytes of a word, the low one first, are the bits of the word. -/
theorem lineBits_word (word : UInt16) :
    lineBits [lowByte word, highByte word] = (List.range 16).map word.toBitVec.getLsbD := by
  have hlow (i : ℕ) (hi : i < 8) : (lowByte word).toBitVec.getLsbD i = word.toBitVec.getLsbD i := by
    change (lowByte word).toNat.testBit i = word.toNat.testBit i
    rw [lowByte_toNat, Nat.testBit_mod_two_pow word.toNat 8 i, decide_eq_true hi, Bool.true_and]
  have hhigh (i : ℕ) (hi : i < 8) :
      (highByte word).toBitVec.getLsbD i = word.toBitVec.getLsbD (8 + i) := by
    rw [highByte, UInt16.toBitVec_toUInt8, BitVec.getLsbD_setWidth, decide_eq_true hi, Bool.true_and]
    exact BitVec.getLsbD_ushiftRight _ _ _
  have hbytes : lineBits [lowByte word, highByte word] =
      byteBits (lowByte word).toBitVec ++ byteBits (highByte word).toBitVec := by
    rw [lineBits, List.map_cons, List.map_singleton, List.flatMap_cons, List.flatMap_singleton]
  have hrange : List.range 16 = List.range 8 ++ (List.range 8).map (8 + ·) := rfl
  rw [hbytes, byteBits, byteBits, hrange, List.map_append, List.map_map]
  congr 1
  · exact List.map_congr_left fun i hi => hlow i (List.mem_range.mp hi)
  · exact List.map_congr_left fun i hi => hhigh i (List.mem_range.mp hi)

/-- The number of the polynomial comes back to itself after 32767 shifts at the earliest. -/
theorem avoids_crc16Poly : avoids 0xA001 0xA001 32766 0xA001 = true := by decide +kernel

/-- The polynomial comes back to itself after 32767 shifts at the earliest. -/
theorem crc16Poly_avoids : avoids crc16Poly.toNat crc16Poly.toNat 32766 crc16Poly.toNat = true :=
  avoids_crc16Poly

/-- What the polynomial detects, in messages of less than 32767 bits. -/
theorem crc16Poly_detects : DetectsUpTo crc16Poly 32767 where
  top := by decide
  odd := by decide
  period _ hpos hk := iterate_shiftBit_ne crc16Poly crc16Poly_avoids hpos (Nat.le_of_lt_succ hk)

/-- A message with two bytes behind it leaves an empty register exactly when they are its checksum, the low
byte first. -/
theorem crc16Serial_append_word_eq_zero_iff (crc word : UInt16) (message : List UInt8) :
    crc16Serial crc (message ++ [lowByte word, highByte word]) = 0 ↔ crc16Serial crc message = word := by
  rw [← UInt16.toBitVec_inj, ← UInt16.toBitVec_inj, crc16Serial_eq_foldl, lineBits_append, List.foldl_append,
    lineBits_word]
  exact foldl_feedBit_word_eq_zero_iff crc16Poly (shiftBit_injective crc16Poly_detects.top) _ _

/-- Without errors a message is what was sent. -/
theorem xorBytes_of_zero {message error : List UInt8} (h : message.length = error.length)
    (hzero : ∀ b ∈ error, b = 0) : xorBytes message error = message := by
  induction message generalizing error with
  | nil => rfl
  | cons data rest ih =>
    cases error with
    | nil => contradiction
    | cons flip error =>
      rw [List.forall_mem_cons] at hzero
      change (data ^^^ flip) :: xorBytes rest error = _
      rw [hzero.1, UInt8.xor_zero, ih (Nat.succ.inj h) hzero.2]

/-- The checksum of a sum is that of the message and that of the error from an empty register. -/
theorem crc16Serial_xorBytes (crc : UInt16) {message error : List UInt8}
    (h : message.length = error.length) :
    crc16Serial crc (xorBytes message error) = crc16Serial crc message ^^^ crc16Serial 0 error := by
  have hbits : (lineBits message).length = (lineBits error).length := by
    rw [lineBits_length, lineBits_length, h]
  have hsum := foldl_feedBit_xor crc16Poly crc.toBitVec 0#16 hbits
  rw [BitVec.xor_zero] at hsum
  rw [← UInt16.toBitVec_inj, UInt16.toBitVec_xor, crc16Serial_eq_foldl, lineBits_xorBytes h, hsum]
  rfl

/-- An error that is detected leaves something in an empty register. -/
theorem crc16Serial_zero_ne {error : List UInt8} (hlen : 8 * error.length ≤ 32767)
    (herror : Detectable 16 (lineBits error)) : crc16Serial 0 error ≠ 0 := by
  intro hzero
  rw [← UInt16.toBitVec_inj, crc16Serial_eq_foldl] at hzero
  exact crc16Poly_detects.syndrome_ne ((lineBits_length error).trans_le hlen) herror hzero

end RemoteManage.CanNet

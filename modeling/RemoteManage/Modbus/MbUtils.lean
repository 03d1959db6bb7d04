import RemoteManage.Foundation.TracedMemory

/-!
# Bit fields of the register tables

`xMBUtilGetBits` and `xMBUtilSetBits` of the stack reach a field of up to eight bits through the two bytes
in which it may lie. They read both of them, and write both, even when the field ends in the first.
-/

namespace RemoteManage.Modbus

open RemoteManage.Foundation

/-- `BITS_UCHAR`. -/
def bitsUchar : UInt16 := 8

/-- `xMBUtilGetBits`: the bits of a field, and the memory with the accesses to it. -/
def xMBUtilGetBits (ucByteBuf : TracedMemory UInt8) (usBitOffset : UInt16) (ucNBits : UInt8) :
    UInt8 × TracedMemory UInt8 :=
  let usByteOffset := usBitOffset / bitsUchar
  let usNPreBits := usBitOffset - usByteOffset * bitsUchar
  let usMask : UInt16 := (1 <<< ucNBits.toUInt16) - 1
  let (low, ucByteBuf) := ucByteBuf.read usByteOffset.toNat
  let (high, ucByteBuf) := ucByteBuf.read (usByteOffset.toNat + 1)
  let usWordBuf := joinBytes high low
  let usWordBuf := usWordBuf >>> usNPreBits
  let usWordBuf := usWordBuf &&& usMask
  (usWordBuf.toUInt8, ucByteBuf)

/-- `xMBUtilSetBits`. -/
def xMBUtilSetBits (ucByteBuf : TracedMemory UInt8) (usBitOffset : UInt16) (ucNBits ucValue : UInt8) :
    TracedMemory UInt8 :=
  let usByteOffset := usBitOffset / bitsUchar
  let usNPreBits := usBitOffset - usByteOffset * bitsUchar
  let usValue := ucValue.toUInt16 <<< usNPreBits
  let usMask : UInt16 := ((1 <<< ucNBits.toUInt16) - 1) <<< (usBitOffset - usByteOffset * bitsUchar)
  let (low, ucByteBuf) := ucByteBuf.read usByteOffset.toNat
  let (high, ucByteBuf) := ucByteBuf.read (usByteOffset.toNat + 1)
  let usWordBuf := joinBytes high low
  let usWordBuf := (usWordBuf &&& ~~~usMask) ||| usValue
  let ucByteBuf := ucByteBuf.write usByteOffset.toNat (lowByte usWordBuf)
  ucByteBuf.write (usByteOffset.toNat + 1) (highByte usWordBuf)

/-- The two bytes through which a field at a bit offset is reached. -/
def Window (bitOffset k : ℕ) : Prop := k = bitOffset / 8 ∨ k = bitOffset / 8 + 1

/-- The byte in which a field begins. -/
theorem usByteOffset_toNat (usBitOffset : UInt16) :
    (usBitOffset / bitsUchar).toNat = usBitOffset.toNat / 8 := UInt16.toNat_div _ _

/-- The bits of that byte before the field. -/
theorem usNPreBits_toNat (usBitOffset : UInt16) :
    (usBitOffset - usBitOffset / bitsUchar * bitsUchar).toNat = usBitOffset.toNat % 8 := by
  have hlt := usBitOffset.toNat_lt
  have hmul : (usBitOffset / bitsUchar * bitsUchar).toNat = usBitOffset.toNat / 8 * 8 := by
    rw [UInt16.toNat_mul, usByteOffset_toNat]
    exact Nat.mod_eq_of_lt (by change usBitOffset.toNat / 8 * 8 < 2 ^ 16; omega)
  rw [UInt16.toNat_sub_of_le _ _ (by rw [UInt16.le_iff_toNat_le, hmul]; omega), hmul]
  omega

/-- The bits of the mask for a field. -/
theorem testBit_usMask {ucNBits : UInt8} (h : ucNBits.toNat ≤ 8) (j : ℕ) :
    ((1 <<< ucNBits.toUInt16 - 1 : UInt16)).toNat.testBit j = decide (j < ucNBits.toNat) := by
  have hmod : ucNBits.toNat % 16 = ucNBits.toNat := Nat.mod_eq_of_lt (by omega)
  have hpow : 2 ^ ucNBits.toNat ≤ 2 ^ 8 := Nat.pow_le_pow_right (by decide) h
  have hshift : ((1 <<< ucNBits.toUInt16 : UInt16)).toNat = 2 ^ ucNBits.toNat := by
    rw [UInt16.toNat_shiftLeft, UInt8.toNat_toUInt16, hmod]
    change 1 <<< ucNBits.toNat % 2 ^ 16 = _
    rw [Nat.one_shiftLeft]
    exact Nat.mod_eq_of_lt (by omega)
  have hpos : 0 < 2 ^ ucNBits.toNat := Nat.two_pow_pos _
  rw [UInt16.toNat_sub_of_le _ _ (by rw [UInt16.le_iff_toNat_le, hshift]; exact hpos), hshift]
  exact Nat.testBit_two_pow_sub_one ..

section GetBits

variable (ucByteBuf : TracedMemory UInt8) (usBitOffset : UInt16) {ucNBits : UInt8}

/-- The bits that are got are those of the memory from the offset on, as many as are asked for. -/
theorem testBit_xMBUtilGetBits (h : ucNBits.toNat ≤ 8) (j : ℕ) :
    (xMBUtilGetBits ucByteBuf usBitOffset ucNBits).1.toNat.testBit j =
      (decide (j < ucNBits.toNat) && bitAt ucByteBuf.cells (usBitOffset.toNat + j)) := by
  have hpre : usBitOffset.toNat % 8 < 16 := lt_trans (Nat.mod_lt _ (by decide)) (by decide)
  change ((wordAt ucByteBuf.cells (usBitOffset / bitsUchar).toNat >>>
    (usBitOffset - usBitOffset / bitsUchar * bitsUchar)) &&&
      (1 <<< ucNBits.toUInt16 - 1)).toUInt8.toNat.testBit j = _
  rw [← lowByte_eq_toUInt8]
  by_cases hj : j < 8
  · rw [testBit_lowByte _ hj, UInt16.toNat_and, Nat.testBit_and, testBit_usMask h,
      testBit_shiftRight_word _ _ (by rwa [usNPreBits_toNat]), usNPreBits_toNat, usByteOffset_toNat,
      testBit_wordAt _ _ (by omega), Bool.and_comm]
    congr 2
    omega
  · have hmask : ¬ j < ucNBits.toNat := by omega
    rw [testBit_byte_of_le _ (Nat.le_of_not_lt hj), decide_eq_false hmask, Bool.false_and]

@[simp] theorem xMBUtilGetBits_cells (ucNBits : UInt8) :
    (xMBUtilGetBits ucByteBuf usBitOffset ucNBits).2.cells = ucByteBuf.cells := rfl

/-- Both bytes are read. -/
theorem mem_xMBUtilGetBits_accesses (ucNBits : UInt8) (k : ℕ) :
    k ∈ (xMBUtilGetBits ucByteBuf usBitOffset ucNBits).2.accesses ↔
      Window usBitOffset.toNat k ∨ k ∈ ucByteBuf.accesses := by
  rw [Window, ← usByteOffset_toNat]
  change k ∈ ((usBitOffset / bitsUchar).toNat + 1) :: (usBitOffset / bitsUchar).toNat ::
    ucByteBuf.accesses ↔ _
  rw [List.mem_cons, List.mem_cons, or_left_comm, or_assoc]

end GetBits

section SetBits

variable (ucByteBuf : TracedMemory UInt8) (usBitOffset : UInt16) {ucNBits ucValue : UInt8}

/-- The field takes the bits of the value, and the bits around it stay. -/
theorem bitAt_xMBUtilSetBits (h : ucNBits.toNat ≤ 8) (hvalue : ucValue.toNat < 2 ^ ucNBits.toNat) (i : ℕ) :
    bitAt (xMBUtilSetBits ucByteBuf usBitOffset ucNBits ucValue).cells i =
      if usBitOffset.toNat ≤ i ∧ i < usBitOffset.toNat + ucNBits.toNat then
        ucValue.toNat.testBit (i - usBitOffset.toNat)
      else bitAt ucByteBuf.cells i := by
  have hpre : usBitOffset.toNat % 8 < 8 := Nat.mod_lt _ (by decide)
  have hpre16 : (usBitOffset - usBitOffset / bitsUchar * bitsUchar).toNat < 16 := by
    rw [usNPreBits_toNat]
    omega
  change bitAt (Function.update (Function.update ucByteBuf.cells (usBitOffset / bitsUchar).toNat _)
    ((usBitOffset / bitsUchar).toNat + 1) _) i = _
  rw [bitAt_update_word, usByteOffset_toNat]
  by_cases hword : 8 * (usBitOffset.toNat / 8) ≤ i ∧ i < 8 * (usBitOffset.toNat / 8) + 16
  · have hj : i - 8 * (usBitOffset.toNat / 8) < 16 := by omega
    have hold : 8 * (usBitOffset.toNat / 8) + (i - 8 * (usBitOffset.toNat / 8)) = i := by omega
    rw [if_pos hword, UInt16.toNat_or, Nat.testBit_or, UInt16.toNat_and, Nat.testBit_and,
      testBit_not_word _ hj, testBit_shiftLeft_word _ _ hpre16 hj, testBit_shiftLeft_word _ _ hpre16 hj,
      testBit_usMask h, usNPreBits_toNat, UInt8.toNat_toUInt16]
    change ((wordAt ucByteBuf.cells (usBitOffset.toNat / 8)).toNat.testBit _ && _ || _) = _
    rw [testBit_wordAt _ _ hj, hold]
    -- the bit is behind the bits before the field, and in the field or above it
    by_cases hfield : usBitOffset.toNat ≤ i ∧ i < usBitOffset.toNat + ucNBits.toNat
    · have hshift : i - 8 * (usBitOffset.toNat / 8) - usBitOffset.toNat % 8 = i - usBitOffset.toNat := by
        omega
      have hbelow : usBitOffset.toNat % 8 ≤ i - 8 * (usBitOffset.toNat / 8) := by omega
      have hwidth : i - usBitOffset.toNat < ucNBits.toNat := by omega
      rw [if_pos hfield, hshift, decide_eq_true hbelow, decide_eq_true hwidth]
      simp
    · rw [if_neg hfield]
      by_cases hbelow : usBitOffset.toNat % 8 ≤ i - 8 * (usBitOffset.toNat / 8)
      · have hwidth : ucNBits.toNat ≤ i - 8 * (usBitOffset.toNat / 8) - usBitOffset.toNat % 8 := by omega
        have hzero := Nat.testBit_lt_two_pow
          (lt_of_lt_of_le hvalue (Nat.pow_le_pow_right (by decide) hwidth))
        rw [hzero, decide_eq_false (Nat.not_lt_of_le hwidth)]
        simp
      · rw [decide_eq_false hbelow]
        simp
  · rw [if_neg hword, if_neg (by omega)]

/-- Both bytes are read and written. -/
theorem mem_xMBUtilSetBits_accesses (ucNBits ucValue : UInt8) (k : ℕ) :
    k ∈ (xMBUtilSetBits ucByteBuf usBitOffset ucNBits ucValue).accesses ↔
      Window usBitOffset.toNat k ∨ k ∈ ucByteBuf.accesses := by
  rw [Window, ← usByteOffset_toNat]
  change k ∈ ((usBitOffset / bitsUchar).toNat + 1) :: (usBitOffset / bitsUchar).toNat ::
    ((usBitOffset / bitsUchar).toNat + 1) :: (usBitOffset / bitsUchar).toNat :: ucByteBuf.accesses ↔ _
  simp only [List.mem_cons]
  tauto

end SetBits

end RemoteManage.Modbus

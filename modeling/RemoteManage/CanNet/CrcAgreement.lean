import RemoteManage.CanNet.CanProtocol
import RemoteManage.Foundation.ReflectedCrc
import RemoteManage.ManageTool.ProtocolCrc
import Mathlib.Data.List.GetD

/-!
# One checksum in three programs

The embedded programs and the desktop tool look the checksum up in their copies of a table, the CAN
programs shift it bit by bit. All of them compute the reflected checksum with the polynomial `0xA001`.
-/

namespace RemoteManage.CanNet

open RemoteManage.Foundation RemoteManage.ManageTool

/-- `0xA001`, which is `0x8005` reversed. -/
def crc16Poly : BitVec 16 := 0xA001

/-- The reflected checksum with the polynomial `0xA001`, from a given start value. -/
def crc16Serial (crc : UInt16) (message : List UInt8) : UInt16 :=
  ⟨reflectedCrc crc16Poly crc.toBitVec (message.map UInt8.toBitVec)⟩

/-- The table of `calculate.cpp` is that of the polynomial. -/
theorem crc16Table_eq_crcTable : Common.crc16Table.map UInt16.toBitVec = crcTable crc16Poly := by
  decide +kernel

/-- The index that `crc16_byte` forms is the byte that falls out of the register. -/
theorem crc16_index (crc : UInt16) (data : UInt8) :
    ((crc ^^^ data.toUInt16) &&& 0xff).toNat =
      ((crc.toBitVec ^^^ data.toBitVec.setWidth 16).setWidth 8).toNat := by
  rw [UInt16.toNat_and, BitVec.toNat_setWidth]
  exact Nat.and_two_pow_sub_one_eq_mod _ 8

/-- `crc16_byte` feeds a byte to the register. -/
theorem crc16Byte_toBitVec (crc : UInt16) (data : UInt8) :
    (Common.crc16Byte crc data).toBitVec =
      (byteBits data.toBitVec).foldl (feedBit crc16Poly) crc.toBitVec := by
  rw [foldl_byteBits_table crc16Poly (by decide), ← crc16Table_eq_crcTable, ← crc16_index, Common.crc16Byte,
    UInt16.toBitVec_xor]
  exact congrArg (crc.toBitVec >>> 8 ^^^ ·) (List.getD_map _ _ UInt16.toBitVec).symm

/-- `crc16` of `calculate.cpp` is the reflected checksum. -/
theorem crc16_eq_serial (crc : UInt16) (message : List UInt8) :
    Common.crc16 crc message = crc16Serial crc message :=
  UInt16.toBitVec_inj.mp
    (foldl_eq_reflectedCrc crc16Poly Common.crc16Byte UInt16.toBitVec UInt8.toBitVec crc16Byte_toBitVec crc
      message)

/-- `crc16` of the desktop tool is the reflected checksum of a message whose length has 16 bits. -/
theorem toolCrc16_eq_serial (crc : UInt16) {message : List UInt8} (h : message.length ≤ 65535) :
    ProtocolCrc.crc16 crc message (.ofNat message.length) = crc16Serial crc message := by
  have hlength : (UInt16.ofNat message.length).toNat = message.length :=
    UInt16.toNat_ofNat_of_lt' (Nat.lt_succ_of_le h)
  rw [ProtocolCrc.crc16_eq, hlength, List.take_length, crc16_eq_serial]

/-- One bit of `crc16_modbus` shifts the register. -/
theorem crc16ModbusBit_toBitVec (crc : UInt16) :
    (crc16ModbusBit crc).toBitVec = shiftBit crc16Poly crc.toBitVec := by
  have hlow : crc &&& 1 = 0 ↔ crc.toBitVec.getLsbD 0 = false := by
    rw [← UInt16.toBitVec_inj, UInt16.toBitVec_and]
    change crc.toBitVec &&& 1#16 = 0#16 ↔ _
    rw [BitVec.and_one_eq_setWidth_ofBool_getLsbD]
    cases crc.toBitVec.getLsbD 0 <;> decide
  unfold crc16ModbusBit shiftBit feedBit
  by_cases h : crc &&& 1 = 0
  · rw [if_neg (not_not.mpr h), if_pos (hlow.mp h)]
    rfl
  · rw [if_pos h, if_neg (hlow.not.mp h)]
    rfl

/-- One byte of `crc16_modbus` feeds a byte to the register. -/
theorem crc16ModbusByte_toBitVec (crc : UInt16) (data : UInt8) :
    (crc16ModbusByte crc data).toBitVec =
      (byteBits data.toBitVec).foldl (feedBit crc16Poly) crc.toBitVec := by
  rw [foldl_byteBits crc16Poly (by decide)]
  exact (Function.Semiconj.iterate_right (f := UInt16.toBitVec) crc16ModbusBit_toBitVec 8) _

/-- `crc16_modbus` is the reflected checksum from `0xffff`. -/
theorem crc16Modbus_eq_serial (message : List UInt8) : crc16Modbus message = crc16Serial 0xffff message :=
  UInt16.toBitVec_inj.mp
    (foldl_eq_reflectedCrc crc16Poly crc16ModbusByte UInt16.toBitVec UInt8.toBitVec crc16ModbusByte_toBitVec
      0xffff message)

/-- The checksum of a message in two parts is that of the second part from that of the first. -/
theorem crc16Serial_append (crc : UInt16) (first second : List UInt8) :
    crc16Serial crc (first ++ second) = crc16Serial (crc16Serial crc first) second := by
  rw [crc16Serial, List.map_append, reflectedCrc_append]
  rfl

/-- The checksums of the three programs are one function: the table-driven ones of the embedded programs
and of the desktop tool are the reflected checksum with `0xA001`, from `0xffff` so is `crc16_modbus`, and
the checksum of a message in two parts is that of the second from that of the first. -/
theorem crc16_agree (crc : UInt16) (message : List UInt8) (h : message.length ≤ 65535) :
    Common.crc16 crc message = crc16Serial crc message ∧
    ProtocolCrc.crc16 crc message (.ofNat message.length) = crc16Serial crc message ∧
    Common.crc16 0xffff message = crc16Modbus message ∧
    ProtocolCrc.crc16 0xffff message (.ofNat message.length) = crc16Modbus message ∧
    ∀ first second, message = first ++ second →
      Common.crc16 crc message = Common.crc16 (Common.crc16 crc first) second ∧
      ProtocolCrc.crc16 crc message (.ofNat message.length) =
        ProtocolCrc.crc16 (ProtocolCrc.crc16 crc first (.ofNat first.length)) second
          (.ofNat second.length) := by
  refine ⟨crc16_eq_serial crc message, toolCrc16_eq_serial crc h, ?_, ?_, ?_⟩
  · rw [crc16_eq_serial, crc16Modbus_eq_serial]
  · rw [toolCrc16_eq_serial 0xffff h, crc16Modbus_eq_serial]
  · rintro first second rfl
    rw [List.length_append] at h
    constructor
    · rw [crc16_eq_serial, crc16_eq_serial, crc16_eq_serial, crc16Serial_append]
    · have hfirst : first.length ≤ 65535 := by omega
      have hsecond : second.length ≤ 65535 := by omega
      rw [← List.length_append] at h
      rw [toolCrc16_eq_serial _ h, toolCrc16_eq_serial _ hfirst, toolCrc16_eq_serial _ hsecond,
        crc16Serial_append]

/-- The nine digits have the checksum `0x4B37`. -/
theorem crc16_agree_digits :
    ProtocolCrc.crc16 0xffff [49, 50, 51, 52, 53, 54, 55, 56, 57] 9 = 0x4b37 ∧
      ProtocolCrc.crc16 0xffff [49, 50, 51, 52, 53, 54, 55, 56, 57] 9 =
        crc16Modbus [49, 50, 51, 52, 53, 54, 55, 56, 57] :=
  ⟨by decide +kernel,
    (crc16_agree 0xffff [49, 50, 51, 52, 53, 54, 55, 56, 57] (by decide)).2.2.2.1⟩

end RemoteManage.CanNet

import RemoteManage.Modbus.MbUtils

/-!
# The register tables of the port

The four callbacks with which the stack reads and writes coils, discrete inputs, holding registers and input
registers. Each checks its range first, in `int`, so that neither a large address nor a large count
wraps around. Coils are moved bit by bit, discrete inputs up to eight at a time, and
registers as two bytes, the high one first.

A table is the memory from its first element on; what lies behind its ten elements is part of that memory.
-/

namespace RemoteManage.Modbus

open RemoteManage.Foundation

/-- `eMBErrorCode`, as far as the callbacks return it. -/
inductive ErrorCode where
  | enoerr
  | enoreg
  deriving DecidableEq, Repr

/-- `eMBRegisterMode`. -/
inductive RegisterMode where
  | read
  | write
  deriving DecidableEq, Repr

/-- `REG_COIL_START`, `REG_DISCRETE_START`, `REG_HOLDING_START` and `REG_INPUT_START`. -/
def regStart : UInt16 := 1

/-- `REG_COIL_NREGS`, `REG_DISCRETE_NREGS`, `REG_HOLDING_NREGS` and `REG_INPUT_NREGS`. -/
def regNregs : ℕ := 10

/-- `REG_COIL_END`. -/
def regCoilEnd : ℕ := regStart.toNat + regNregs * 8

/-- `REG_DISCRETE_END`. -/
def regDiscreteEnd : ℕ := regStart.toNat + regNregs * 8

/-- `REG_HOLDING_END`. -/
def regHoldingEnd : ℕ := regStart.toNat + regNregs

/-- `REG_INPUT_END`. -/
def regInputEnd : ℕ := regStart.toNat + regNregs

/-- One turn of the loops over coils: a bit is got from one place and set in another. -/
def moveBit (source : TracedMemory UInt8) (usFrom : UInt16) (target : TracedMemory UInt8) (usTo : UInt16) :
    TracedMemory UInt8 × TracedMemory UInt8 :=
  let (bit, source) := xMBUtilGetBits source usFrom 1
  (source, xMBUtilSetBits target usTo 1 bit)

/-- The first `n` turns of the loops over coils. -/
def moveBits (source : TracedMemory UInt8) (usFrom : UInt16) (target : TracedMemory UInt8) (usTo : UInt16) :
    ℕ → TracedMemory UInt8 × TracedMemory UInt8
  | 0 => (source, target)
  | i + 1 =>
    let (source, target) := moveBits source usFrom target usTo i
    moveBit source (.ofNat (usFrom.toNat + i)) target (.ofNat (usTo.toNat + i))

/-- `eMBRegCoilsCB`: the result, the table and the buffer. -/
def eMBRegCoilsCB (usRegCoilBuf pucRegBuffer : TracedMemory UInt8) (usAddress usNCoils : UInt16)
    (eMode : RegisterMode) : ErrorCode × TracedMemory UInt8 × TracedMemory UInt8 :=
  if usAddress < regStart ∨ usAddress.toNat + usNCoils.toNat > regCoilEnd then
    (.enoreg, usRegCoilBuf, pucRegBuffer)
  else
    let usAddress := usAddress - regStart
    match eMode with
    | .write =>
      let (pucRegBuffer, usRegCoilBuf) := moveBits pucRegBuffer 0 usRegCoilBuf usAddress usNCoils.toNat
      (.enoerr, usRegCoilBuf, pucRegBuffer)
    | .read =>
      let (usRegCoilBuf, pucRegBuffer) := moveBits usRegCoilBuf usAddress pucRegBuffer 0 usNCoils.toNat
      (.enoerr, usRegCoilBuf, pucRegBuffer)

/-- The loop of `eMBRegDiscreteCB` with the index at which `pucRegBuffer` stands. -/
def readDiscretes (usRegDiscreateBuf pucRegBuffer : TracedMemory UInt8) (index : ℕ) (usAddress : UInt16)
    (usNDiscrete : ℕ) : TracedMemory UInt8 × TracedMemory UInt8 :=
  if usNDiscrete > 0 then
    let (bits, usRegDiscreateBuf) :=
      xMBUtilGetBits usRegDiscreateBuf usAddress (if usNDiscrete > 8 then 8 else .ofNat usNDiscrete)
    let pucRegBuffer := pucRegBuffer.write index bits
    if usNDiscrete > 8 then
      readDiscretes usRegDiscreateBuf pucRegBuffer (index + 1) (usAddress + 8) (usNDiscrete - 8)
    else (usRegDiscreateBuf, pucRegBuffer)
  else (usRegDiscreateBuf, pucRegBuffer)
termination_by usNDiscrete
decreasing_by exact Nat.sub_lt ‹usNDiscrete > 0› (Nat.succ_pos 7)

/-- `eMBRegDiscreteCB`: the result, the table and the buffer. -/
def eMBRegDiscreteCB (usRegDiscreateBuf pucRegBuffer : TracedMemory UInt8) (usAddress usNDiscrete : UInt16) :
    ErrorCode × TracedMemory UInt8 × TracedMemory UInt8 :=
  if usAddress < regStart ∨ usAddress.toNat + usNDiscrete.toNat > regDiscreteEnd then
    (.enoreg, usRegDiscreateBuf, pucRegBuffer)
  else
    (.enoerr, readDiscretes usRegDiscreateBuf pucRegBuffer 0 (usAddress - regStart) usNDiscrete.toNat)

/-- The loops that put registers into the buffer, with the index at which `pucRegBuffer` stands. -/
def readRegisters (table : TracedMemory UInt16) (pucRegBuffer : TracedMemory UInt8) (index iRegIndex : ℕ) :
    ℕ → TracedMemory UInt16 × TracedMemory UInt8
  | 0 => (table, pucRegBuffer)
  | usNRegs + 1 =>
    let (value, table) := table.read iRegIndex
    let pucRegBuffer := pucRegBuffer.write index (highByte value)
    let (value, table) := table.read iRegIndex
    let pucRegBuffer := pucRegBuffer.write (index + 1) (lowByte value)
    readRegisters table pucRegBuffer (index + 2) (iRegIndex + 1) usNRegs

/-- The loop that takes registers from the buffer, with the index at which `pucRegBuffer` stands. -/
def writeRegisters (table : TracedMemory UInt16) (pucRegBuffer : TracedMemory UInt8) (index iRegIndex : ℕ) :
    ℕ → TracedMemory UInt16 × TracedMemory UInt8
  | 0 => (table, pucRegBuffer)
  | usNRegs + 1 =>
    let (high, pucRegBuffer) := pucRegBuffer.read index
    let table := table.write iRegIndex (high.toUInt16 <<< 8)
    let (low, pucRegBuffer) := pucRegBuffer.read (index + 1)
    let (value, table) := table.read iRegIndex
    let table := table.write iRegIndex (value ||| low.toUInt16)
    writeRegisters table pucRegBuffer (index + 2) (iRegIndex + 1) usNRegs

/-- `eMBRegHoldingCB`: the result, the table and the buffer. -/
def eMBRegHoldingCB (usRegHoldingBuf : TracedMemory UInt16) (pucRegBuffer : TracedMemory UInt8)
    (usAddress usNRegs : UInt16) (eMode : RegisterMode) :
    ErrorCode × TracedMemory UInt16 × TracedMemory UInt8 :=
  if usAddress ≥ regStart ∧ usAddress.toNat + usNRegs.toNat ≤ regHoldingEnd then
    let iRegIndex := (usAddress - regStart).toNat
    match eMode with
    | .read => (.enoerr, readRegisters usRegHoldingBuf pucRegBuffer 0 iRegIndex usNRegs.toNat)
    | .write => (.enoerr, writeRegisters usRegHoldingBuf pucRegBuffer 0 iRegIndex usNRegs.toNat)
  else (.enoreg, usRegHoldingBuf, pucRegBuffer)

/-- `eMBRegInputCB`: the result, the table and the buffer. -/
def eMBRegInputCB (usRegInputBuf : TracedMemory UInt16) (pucRegBuffer : TracedMemory UInt8)
    (usAddress usNRegs : UInt16) : ErrorCode × TracedMemory UInt16 × TracedMemory UInt8 :=
  if usAddress ≥ regStart ∧ usAddress.toNat + usNRegs.toNat ≤ regInputEnd then
    (.enoerr, readRegisters usRegInputBuf pucRegBuffer 0 (usAddress - regStart).toNat usNRegs.toNat)
  else (.enoreg, usRegInputBuf, pucRegBuffer)

/-- The four tables. -/
structure RegisterTables where
  usRegCoilBuf : TracedMemory UInt8
  usRegDiscreateBuf : TracedMemory UInt8
  usRegHoldingBuf : TracedMemory UInt16
  usRegInputBuf : TracedMemory UInt16

/-- A call of one of the callbacks, without its buffer. -/
inductive RegRequest where
  | coils (usAddress usNCoils : UInt16) (eMode : RegisterMode)
  | discrete (usAddress usNDiscrete : UInt16)
  | holding (usAddress usNRegs : UInt16) (eMode : RegisterMode)
  | input (usAddress usNRegs : UInt16)
  deriving DecidableEq, Repr

namespace RegRequest

/-- The first address. -/
def usAddress : RegRequest → UInt16
  | coils usAddress _ _ => usAddress
  | discrete usAddress _ => usAddress
  | holding usAddress _ _ => usAddress
  | input usAddress _ => usAddress

/-- How many items are asked for. -/
def count : RegRequest → UInt16
  | coils _ usNCoils _ => usNCoils
  | discrete _ usNDiscrete => usNDiscrete
  | holding _ usNRegs _ => usNRegs
  | input _ usNRegs => usNRegs

/-- The end of the table. -/
def tableEnd : RegRequest → ℕ
  | coils _ _ _ => regCoilEnd
  | discrete _ _ => regDiscreteEnd
  | holding _ _ _ => regHoldingEnd
  | input _ _ => regInputEnd

/-- The request is for items of the table; address and count are added without wrapping around. -/
def InRange (request : RegRequest) : Prop :=
  1 ≤ request.usAddress.toNat ∧ request.usAddress.toNat + request.count.toNat ≤ request.tableEnd

instance (request : RegRequest) : Decidable request.InRange := inferInstanceAs (Decidable (_ ∧ _))

/-- The index in the table of the first item asked for. -/
def first (request : RegRequest) : ℕ := request.usAddress.toNat - 1

end RegRequest

/-- A call of a callback: its result, the tables and the buffer. -/
def RegisterTables.call (t : RegisterTables) (request : RegRequest) (pucRegBuffer : TracedMemory UInt8) :
    ErrorCode × RegisterTables × TracedMemory UInt8 :=
  match request with
  | .coils usAddress usNCoils eMode =>
    let (code, table, pucRegBuffer) := eMBRegCoilsCB t.usRegCoilBuf pucRegBuffer usAddress usNCoils eMode
    (code, { t with usRegCoilBuf := table }, pucRegBuffer)
  | .discrete usAddress usNDiscrete =>
    let (code, table, pucRegBuffer) := eMBRegDiscreteCB t.usRegDiscreateBuf pucRegBuffer usAddress usNDiscrete
    (code, { t with usRegDiscreateBuf := table }, pucRegBuffer)
  | .holding usAddress usNRegs eMode =>
    let (code, table, pucRegBuffer) := eMBRegHoldingCB t.usRegHoldingBuf pucRegBuffer usAddress usNRegs eMode
    (code, { t with usRegHoldingBuf := table }, pucRegBuffer)
  | .input usAddress usNRegs =>
    let (code, table, pucRegBuffer) := eMBRegInputCB t.usRegInputBuf pucRegBuffer usAddress usNRegs
    (code, { t with usRegInputBuf := table }, pucRegBuffer)

/-- Tables with the given contents, none of which has been accessed. -/
def RegisterTables.ofCells (coils discretes : ℕ → UInt8) (holdings inputs : ℕ → UInt16) : RegisterTables :=
  ⟨.ofCells coils, .ofCells discretes, .ofCells holdings, .ofCells inputs⟩

/-- The bits of a byte got with a width of one. -/
theorem xMBUtilGetBits_one_lt (ucByteBuf : TracedMemory UInt8) (usBitOffset : UInt16) :
    (xMBUtilGetBits ucByteBuf usBitOffset 1).1.toNat < 2 ^ 1 := by
  apply Nat.lt_pow_two_of_testBit
  intro j hj
  have hwidth : ¬ j < (1 : UInt8).toNat := Nat.not_lt_of_le hj
  rw [testBit_xMBUtilGetBits _ _ (by decide), decide_eq_false hwidth, Bool.false_and]

section MoveBits

variable (source target : TracedMemory UInt8) (usFrom usTo : UInt16)

/-- Moving bits changes nothing where they come from. -/
theorem moveBits_source (n : ℕ) : (moveBits source usFrom target usTo n).1.cells = source.cells := by
  induction n with
  | zero => rfl
  | succ i ih => exact ih

/-- The bits that have been moved are found where they go to, and nothing else has changed there. -/
theorem bitAt_moveBits (n : ℕ) (hfrom : usFrom.toNat + n < 2 ^ 16) (hto : usTo.toNat + n < 2 ^ 16) (k : ℕ) :
    bitAt (moveBits source usFrom target usTo n).2.cells k =
      if usTo.toNat ≤ k ∧ k < usTo.toNat + n then bitAt source.cells (usFrom.toNat + (k - usTo.toNat))
      else bitAt target.cells k := by
  induction n with
  | zero => rw [if_neg (by omega)]; rfl
  | succ i ih =>
    have hfromNat : (UInt16.ofNat (usFrom.toNat + i)).toNat = usFrom.toNat + i :=
      Nat.mod_eq_of_lt (by omega)
    have htoNat : (UInt16.ofNat (usTo.toNat + i)).toNat = usTo.toNat + i := Nat.mod_eq_of_lt (by omega)
    change bitAt (xMBUtilSetBits _ _ 1 (xMBUtilGetBits _ _ 1).1).cells k = _
    rw [bitAt_xMBUtilSetBits _ _ (by decide) (xMBUtilGetBits_one_lt _ _), htoNat,
      testBit_xMBUtilGetBits _ _ (by decide), hfromNat, moveBits_source, ih (by omega) (by omega)]
    change (if usTo.toNat + i ≤ k ∧ k < usTo.toNat + i + 1 then _ else _) = _
    by_cases hlast : k = usTo.toNat + i
    · subst hlast
      rw [if_pos (by omega), if_pos (by omega)]
      simp
    · rw [if_neg (by omega)]
      refine if_congr ?_ rfl rfl
      omega

/-- The cells that are accessed where the bits come from. -/
theorem mem_moveBits_source_accesses (n : ℕ) (hfrom : usFrom.toNat + n < 2 ^ 16) (k : ℕ) :
    k ∈ (moveBits source usFrom target usTo n).1.accesses ↔
      (∃ i < n, Window (usFrom.toNat + i) k) ∨ k ∈ source.accesses := by
  induction n with
  | zero => simp [moveBits]
  | succ i ih =>
    have hfromNat : (UInt16.ofNat (usFrom.toNat + i)).toNat = usFrom.toNat + i :=
      Nat.mod_eq_of_lt (by omega)
    change k ∈ (xMBUtilGetBits (moveBits source usFrom target usTo i).1 _ 1).2.accesses ↔ _
    rw [mem_xMBUtilGetBits_accesses, hfromNat, ih (by omega), Nat.exists_lt_succ_right, or_assoc]
    exact or_left_comm

/-- The cells that are accessed where the bits go to. -/
theorem mem_moveBits_target_accesses (n : ℕ) (hto : usTo.toNat + n < 2 ^ 16) (k : ℕ) :
    k ∈ (moveBits source usFrom target usTo n).2.accesses ↔
      (∃ i < n, Window (usTo.toNat + i) k) ∨ k ∈ target.accesses := by
  induction n with
  | zero => simp [moveBits]
  | succ i ih =>
    have htoNat : (UInt16.ofNat (usTo.toNat + i)).toNat = usTo.toNat + i := Nat.mod_eq_of_lt (by omega)
    change k ∈ (xMBUtilSetBits (moveBits source usFrom target usTo i).2 _ 1 _).accesses ↔ _
    rw [mem_xMBUtilSetBits_accesses, htoNat, ih (by omega), Nat.exists_lt_succ_right, or_assoc]
    exact or_left_comm

end MoveBits

section ReadDiscretes

variable (usRegDiscreateBuf pucRegBuffer : TracedMemory UInt8) (index : ℕ) (usAddress : UInt16)

/-- A byte of bits that are got and put at an index. -/
theorem bitAt_update_xMBUtilGetBits {ucNBits : UInt8} (h : ucNBits.toNat ≤ 8) (k : ℕ) :
    bitAt (Function.update pucRegBuffer.cells index
        (xMBUtilGetBits usRegDiscreateBuf usAddress ucNBits).1) k =
      if 8 * index ≤ k ∧ k < 8 * index + 8 then
        decide (k - 8 * index < ucNBits.toNat) &&
          bitAt usRegDiscreateBuf.cells (usAddress.toNat + (k - 8 * index))
      else bitAt pucRegBuffer.cells k := by
  rw [bitAt_update, testBit_xMBUtilGetBits _ _ h]

/-- A turn of the loop over discrete inputs, and what is left to do. -/
theorem readDiscretes_succ {n : ℕ} (hn : 0 < n) :
    readDiscretes usRegDiscreateBuf pucRegBuffer index usAddress n =
      (let (bits, table) := xMBUtilGetBits usRegDiscreateBuf usAddress (if n > 8 then 8 else .ofNat n)
       if n > 8 then readDiscretes table (pucRegBuffer.write index bits) (index + 1) (usAddress + 8) (n - 8)
       else (table, pucRegBuffer.write index bits)) := by
  rw [readDiscretes, if_pos hn]

/-- Reading discrete inputs changes nothing in their table. -/
theorem readDiscretes_table (n : ℕ) :
    (readDiscretes usRegDiscreateBuf pucRegBuffer index usAddress n).1.cells = usRegDiscreateBuf.cells := by
  induction n using Nat.strong_induction_on generalizing usRegDiscreateBuf pucRegBuffer index usAddress with
  | _ n ih =>
    obtain rfl | hn := Nat.eq_zero_or_pos n
    · rw [readDiscretes, if_neg (lt_irrefl 0)]
    · rw [readDiscretes_succ _ _ _ _ hn]
      dsimp only
      split
      case isTrue => exact ih (n - 8) (by omega) _ _ _ _
      case isFalse => rfl

/-- The address of the next turn. -/
theorem nextAddress_toNat {n : ℕ} (h : usAddress.toNat + n < 2 ^ 16) (hn : 8 < n) :
    (usAddress + 8).toNat = usAddress.toNat + 8 := by
  rw [UInt16.toNat_add]
  change (usAddress.toNat + 8) % 2 ^ 16 = _
  exact Nat.mod_eq_of_lt (by omega)

/-- The bytes that have been put hold the bits asked for, and zeros behind the last of them. -/
theorem bitAt_readDiscretes (n : ℕ) (h : usAddress.toNat + n < 2 ^ 16) (k : ℕ) :
    bitAt (readDiscretes usRegDiscreateBuf pucRegBuffer index usAddress n).2.cells k =
      if 8 * index ≤ k ∧ k < 8 * index + 8 * ((n + 7) / 8) then
        decide (k - 8 * index < n) && bitAt usRegDiscreateBuf.cells (usAddress.toNat + (k - 8 * index))
      else bitAt pucRegBuffer.cells k := by
  induction n using Nat.strong_induction_on generalizing usRegDiscreateBuf pucRegBuffer index usAddress with
  | _ n ih =>
    obtain rfl | hn := Nat.eq_zero_or_pos n
    · rw [readDiscretes, if_neg (lt_irrefl 0), if_neg (by omega)]
    · rw [readDiscretes_succ _ _ _ _ hn]
      dsimp only
      split
      case isTrue hmore =>
        rw [ih (n - 8) (by omega) _ _ _ _ (by rw [nextAddress_toNat _ h hmore]; omega),
          nextAddress_toNat _ h hmore, TracedMemory.write_cells,
          bitAt_update_xMBUtilGetBits _ _ _ _ (by decide)]
        change (if _ then _ else if _ then decide (k - 8 * index < 8) && _ else _) = _
        -- the bit lies in this byte, in a later one, or outside
        by_cases hthis : 8 * index ≤ k ∧ k < 8 * index + 8
        · have hlow : k - 8 * index < 8 := by omega
          have hin : k - 8 * index < n := by omega
          rw [if_neg (by omega), if_pos hthis, if_pos (by omega), decide_eq_true hlow, decide_eq_true hin]
        · rw [if_neg hthis]
          by_cases hlater : 8 * (index + 1) ≤ k ∧ k < 8 * (index + 1) + 8 * ((n - 8 + 7) / 8)
          · have hshift :
                usAddress.toNat + 8 + (k - 8 * (index + 1)) = usAddress.toNat + (k - 8 * index) := by
              omega
            have hsame : k - 8 * (index + 1) < n - 8 ↔ k - 8 * index < n := by omega
            rw [if_pos hlater, if_pos (by omega), hshift, xMBUtilGetBits_cells, decide_eq_decide.mpr hsame]
          · rw [if_neg hlater, if_neg (by omega)]
      case isFalse hlast =>
        have hwidth : (UInt8.ofNat n).toNat = n := by
          rw [UInt8.toNat_ofNat']
          exact Nat.mod_eq_of_lt (by omega)
        rw [TracedMemory.write_cells, bitAt_update_xMBUtilGetBits _ _ _ _ (by omega), hwidth]
        refine if_congr ?_ rfl rfl
        omega

/-- The cells that are accessed in the table of the discrete inputs, two for each byte of the reply. -/
theorem mem_readDiscretes_accesses (n : ℕ) (h : usAddress.toNat + n < 2 ^ 16) (k : ℕ) :
    k ∈ (readDiscretes usRegDiscreateBuf pucRegBuffer index usAddress n).1.accesses ↔
      (∃ i < (n + 7) / 8, Window (usAddress.toNat + 8 * i) k) ∨ k ∈ usRegDiscreateBuf.accesses := by
  induction n using Nat.strong_induction_on generalizing usRegDiscreateBuf pucRegBuffer index usAddress with
  | _ n ih =>
    obtain rfl | hn := Nat.eq_zero_or_pos n
    · rw [readDiscretes, if_neg (lt_irrefl 0)]
      simp
    · rw [readDiscretes_succ _ _ _ _ hn]
      dsimp only
      split
      case isTrue hmore =>
        have hcount : (n + 7) / 8 = (n - 8 + 7) / 8 + 1 := by omega
        rw [ih (n - 8) (by omega) _ _ _ _ (by rw [nextAddress_toNat _ h hmore]; omega),
          nextAddress_toNat _ h hmore, mem_xMBUtilGetBits_accesses, hcount, Nat.exists_lt_succ_left,
          or_left_comm, or_assoc]
        simp only [Nat.mul_succ, Nat.add_assoc, Nat.add_comm 8, Nat.mul_zero, Nat.add_zero]
      case isFalse hlast =>
        have hcount : (n + 7) / 8 = 1 := by omega
        rw [mem_xMBUtilGetBits_accesses, hcount]
        simp

end ReadDiscretes

section Registers

variable (table : TracedMemory UInt16) (pucRegBuffer : TracedMemory UInt8) (index iRegIndex : ℕ)

/-- Byte `j` of registers that lie one after the other, the high byte of each first. -/
def registerByte (cells : ℕ → UInt16) (j : ℕ) : UInt8 :=
  if j % 2 = 0 then highByte (cells (j / 2)) else lowByte (cells (j / 2))

/-- Reading registers changes nothing in their table. -/
theorem readRegisters_table (n : ℕ) :
    (readRegisters table pucRegBuffer index iRegIndex n).1.cells = table.cells := by
  induction n generalizing table pucRegBuffer index iRegIndex with
  | zero => rfl
  | succ n ih => exact ih _ _ _ _

/-- The registers that have been read lie in the buffer one after the other, and nothing else has changed
there. -/
theorem readRegisters_cells (n k : ℕ) :
    (readRegisters table pucRegBuffer index iRegIndex n).2.cells k =
      if index ≤ k ∧ k < index + 2 * n then registerByte (fun i => table.cells (iRegIndex + i)) (k - index)
      else pucRegBuffer.cells k := by
  induction n generalizing table pucRegBuffer index iRegIndex with
  | zero => rw [if_neg (by omega)]; rfl
  | succ n ih =>
    rw [readRegisters]
    dsimp only
    rw [ih]
    simp only [TracedMemory.read_value, TracedMemory.read_cells, TracedMemory.write_cells]
    by_cases hlater : index + 2 ≤ k ∧ k < index + 2 + 2 * n
    · have hhalf : iRegIndex + 1 + (k - (index + 2)) / 2 = iRegIndex + (k - index) / 2 := by omega
      have hparity : (k - (index + 2)) % 2 = (k - index) % 2 := by omega
      rw [if_pos hlater, if_pos (by omega), registerByte, registerByte, hhalf, hparity]
    · rw [if_neg hlater]
      by_cases hlow : k = index + 1
      · subst hlow
        rw [Function.update_self, if_pos (by omega), registerByte, Nat.add_sub_cancel_left]
        rfl
      · rw [Function.update_of_ne hlow]
        by_cases hhigh : k = index
        · subst hhigh
          rw [Function.update_self, if_pos (by omega), registerByte, Nat.sub_self]
          rfl
        · rw [Function.update_of_ne hhigh, if_neg (by omega)]

/-- The registers that are read. -/
theorem mem_readRegisters_accesses (n k : ℕ) :
    k ∈ (readRegisters table pucRegBuffer index iRegIndex n).1.accesses ↔
      (iRegIndex ≤ k ∧ k < iRegIndex + n) ∨ k ∈ table.accesses := by
  induction n generalizing table pucRegBuffer index iRegIndex with
  | zero => simp [readRegisters]
  | succ n ih =>
    rw [readRegisters]
    dsimp only
    rw [ih]
    simp only [TracedMemory.read_accesses, List.mem_cons]
    grind

/-- Writing registers changes nothing in the buffer. -/
theorem writeRegisters_buffer (n : ℕ) :
    (writeRegisters table pucRegBuffer index iRegIndex n).2.cells = pucRegBuffer.cells := by
  induction n generalizing table pucRegBuffer index iRegIndex with
  | zero => rfl
  | succ n ih => exact ih _ _ _ _

/-- The registers that have been written hold the words of the buffer, and nothing else has changed in their
table. -/
theorem writeRegisters_cells (n i : ℕ) :
    (writeRegisters table pucRegBuffer index iRegIndex n).1.cells i =
      if iRegIndex ≤ i ∧ i < iRegIndex + n then
        joinBytes (pucRegBuffer.cells (index + 2 * (i - iRegIndex)))
          (pucRegBuffer.cells (index + 2 * (i - iRegIndex) + 1))
      else table.cells i := by
  induction n generalizing table pucRegBuffer index iRegIndex with
  | zero => rw [if_neg (by omega)]; rfl
  | succ n ih =>
    rw [writeRegisters]
    dsimp only
    rw [ih]
    simp only [TracedMemory.read_value, TracedMemory.read_cells, TracedMemory.write_cells,
      Function.update_self, Function.update_idem]
    by_cases hlater : iRegIndex + 1 ≤ i ∧ i < iRegIndex + 1 + n
    · have hnext : index + 2 + 2 * (i - (iRegIndex + 1)) = index + 2 * (i - iRegIndex) := by omega
      rw [if_pos hlater, if_pos (by omega), hnext]
    · rw [if_neg hlater]
      by_cases hthis : i = iRegIndex
      · subst hthis
        rw [Function.update_self, if_pos (by omega), Nat.sub_self]
        rfl
      · rw [Function.update_of_ne hthis, if_neg (by omega)]

/-- The registers that are written. -/
theorem mem_writeRegisters_accesses (n k : ℕ) :
    k ∈ (writeRegisters table pucRegBuffer index iRegIndex n).1.accesses ↔
      (iRegIndex ≤ k ∧ k < iRegIndex + n) ∨ k ∈ table.accesses := by
  induction n generalizing table pucRegBuffer index iRegIndex with
  | zero => simp [writeRegisters]
  | succ n ih =>
    rw [writeRegisters]
    dsimp only
    rw [ih]
    simp only [TracedMemory.read_accesses, TracedMemory.write_accesses, List.mem_cons]
    grind

end Registers

namespace RegisterTables

variable (t : RegisterTables) (pucRegBuffer : TracedMemory UInt8)

/-- The index of the first item asked for, as the callbacks compute it. -/
theorem sub_regStart_toNat (usAddress : UInt16) (h : 1 ≤ usAddress.toNat) :
    (usAddress - regStart).toNat = usAddress.toNat - 1 :=
  UInt16.toNat_sub_of_le _ _ (UInt16.le_iff_toNat_le.mpr h)

/-- The bits of a request in range have offsets that fit a word. -/
theorem sub_regStart_add_lt (usAddress count : UInt16)
    (h : 1 ≤ usAddress.toNat ∧ usAddress.toNat + count.toNat ≤ regCoilEnd) :
    (usAddress - regStart).toNat + count.toNat < 2 ^ 16 := by
  have hend : usAddress.toNat + count.toNat ≤ 81 := h.2
  rw [sub_regStart_toNat usAddress h.1]
  omega

/-- The check of the callbacks for bits. -/
theorem bitCheck_iff (usAddress count : UInt16) (tableEnd : ℕ) :
    (usAddress < regStart ∨ usAddress.toNat + count.toNat > tableEnd) ↔
      ¬ (1 ≤ usAddress.toNat ∧ usAddress.toNat + count.toNat ≤ tableEnd) := by
  rw [UInt16.lt_iff_toNat_lt]
  change (usAddress.toNat < 1 ∨ _) ↔ _
  omega

/-- The check of the callbacks for registers. -/
theorem registerCheck_iff (usAddress count : UInt16) (tableEnd : ℕ) :
    (usAddress ≥ regStart ∧ usAddress.toNat + count.toNat ≤ tableEnd) ↔
      (1 ≤ usAddress.toNat ∧ usAddress.toNat + count.toNat ≤ tableEnd) :=
  and_congr_left fun _ => UInt16.le_iff_toNat_le

/-- A request that is out of range is refused and touches nothing. -/
theorem call_of_not_inRange {request : RegRequest} (h : ¬ request.InRange) :
    t.call request pucRegBuffer = (.enoreg, t, pucRegBuffer) := by
  cases request with
  | coils usAddress usNCoils eMode =>
    rw [call, eMBRegCoilsCB, if_pos ((bitCheck_iff usAddress usNCoils regCoilEnd).mpr h)]
  | discrete usAddress usNDiscrete =>
    rw [call, eMBRegDiscreteCB, if_pos ((bitCheck_iff usAddress usNDiscrete regDiscreteEnd).mpr h)]
  | holding usAddress usNRegs eMode =>
    rw [call, eMBRegHoldingCB, if_neg (mt (registerCheck_iff usAddress usNRegs regHoldingEnd).mp h)]
  | input usAddress usNRegs =>
    rw [call, eMBRegInputCB, if_neg (mt (registerCheck_iff usAddress usNRegs regInputEnd).mp h)]

/-- Coils in range are written. -/
theorem call_coils_write {usAddress usNCoils : UInt16}
    (h : (RegRequest.coils usAddress usNCoils .write).InRange) :
    t.call (.coils usAddress usNCoils .write) pucRegBuffer =
      (let moved := moveBits pucRegBuffer 0 t.usRegCoilBuf (usAddress - regStart) usNCoils.toNat
       (.enoerr, { t with usRegCoilBuf := moved.2 }, moved.1)) := by
  rw [call, eMBRegCoilsCB, if_neg (mt (bitCheck_iff usAddress usNCoils regCoilEnd).mp (not_not_intro h))]

/-- Coils in range are read. -/
theorem call_coils_read {usAddress usNCoils : UInt16}
    (h : (RegRequest.coils usAddress usNCoils .read).InRange) :
    t.call (.coils usAddress usNCoils .read) pucRegBuffer =
      (let moved := moveBits t.usRegCoilBuf (usAddress - regStart) pucRegBuffer 0 usNCoils.toNat
       (.enoerr, { t with usRegCoilBuf := moved.1 }, moved.2)) := by
  rw [call, eMBRegCoilsCB, if_neg (mt (bitCheck_iff usAddress usNCoils regCoilEnd).mp (not_not_intro h))]

/-- Discrete inputs in range are read. -/
theorem call_discrete {usAddress usNDiscrete : UInt16}
    (h : (RegRequest.discrete usAddress usNDiscrete).InRange) :
    t.call (.discrete usAddress usNDiscrete) pucRegBuffer =
      (let got := readDiscretes t.usRegDiscreateBuf pucRegBuffer 0 (usAddress - regStart) usNDiscrete.toNat
       (.enoerr, { t with usRegDiscreateBuf := got.1 }, got.2)) := by
  rw [call, eMBRegDiscreteCB,
    if_neg (mt (bitCheck_iff usAddress usNDiscrete regDiscreteEnd).mp (not_not_intro h))]

/-- Holding registers in range are read. -/
theorem call_holding_read {usAddress usNRegs : UInt16}
    (h : (RegRequest.holding usAddress usNRegs .read).InRange) :
    t.call (.holding usAddress usNRegs .read) pucRegBuffer =
      (let got := readRegisters t.usRegHoldingBuf pucRegBuffer 0 (usAddress.toNat - 1) usNRegs.toNat
       (.enoerr, { t with usRegHoldingBuf := got.1 }, got.2)) := by
  rw [call, eMBRegHoldingCB, if_pos ((registerCheck_iff usAddress usNRegs regHoldingEnd).mpr h)]
  dsimp only
  rw [sub_regStart_toNat usAddress h.1]

/-- Holding registers in range are written. -/
theorem call_holding_write {usAddress usNRegs : UInt16}
    (h : (RegRequest.holding usAddress usNRegs .write).InRange) :
    t.call (.holding usAddress usNRegs .write) pucRegBuffer =
      (let put := writeRegisters t.usRegHoldingBuf pucRegBuffer 0 (usAddress.toNat - 1) usNRegs.toNat
       (.enoerr, { t with usRegHoldingBuf := put.1 }, put.2)) := by
  rw [call, eMBRegHoldingCB, if_pos ((registerCheck_iff usAddress usNRegs regHoldingEnd).mpr h)]
  dsimp only
  rw [sub_regStart_toNat usAddress h.1]

/-- Input registers in range are read. -/
theorem call_input {usAddress usNRegs : UInt16} (h : (RegRequest.input usAddress usNRegs).InRange) :
    t.call (.input usAddress usNRegs) pucRegBuffer =
      (let got := readRegisters t.usRegInputBuf pucRegBuffer 0 (usAddress.toNat - 1) usNRegs.toNat
       (.enoerr, { t with usRegInputBuf := got.1 }, got.2)) := by
  rw [call, eMBRegInputCB, if_pos ((registerCheck_iff usAddress usNRegs regInputEnd).mpr h)]
  dsimp only
  rw [sub_regStart_toNat usAddress h.1]

end RegisterTables

end RemoteManage.Modbus

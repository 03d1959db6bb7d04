import RemoteManage.Modbus.RegisterTables
import RemoteManage.Modbus.TcpPort

/-!
# The function handlers of the stack

`mbfunccoils.c`, `mbfuncdisc.c`, `mbfuncholding.c`, `mbfuncinput.c` and `mbfuncother.c`, with the branch of
`eMBPoll` that calls them. A handler gets the frame of a request from its function code on,
and the length of the PDU. It builds the reply over the request, in the same memory, and sets the length.

The frame is a traced memory, so that what a handler reads behind the request is what the memory
holds there, and how far it reaches is a statement about the record.
-/

namespace RemoteManage.Modbus

open RemoteManage.Foundation

/-- `MB_FUNC_OTHER_REP_SLAVEID_BUF`. -/
abbrev mbFuncOtherRepSlaveidBuf : ℕ := 32

/-- `ucMBSlaveID` with `usMBSlaveIDLen`, which `eMBSetSlaveID` keeps below the size of the buffer. -/
structure SlaveId where
  ucMBSlaveID : FixedBuffer UInt8 mbFuncOtherRepSlaveidBuf
  usMBSlaveIDLen : ℕ
  length_lt : usMBSlaveIDLen < mbFuncOtherRepSlaveidBuf

/-- The bytes that report the slave. -/
def SlaveId.bytes (s : SlaveId) : List UInt8 := s.ucMBSlaveID.contents s.usMBSlaveIDLen

/-- The static variables that the handlers work on. -/
structure MbRegisters where
  tables : RegisterTables
  slaveId : SlaveId

/-- The registers as the program starts, with nothing to report about the slave. -/
def MbRegisters.start : MbRegisters where
  tables := .ofCells (fun k => [0x10, 0x01, 0x01, 0x00, 0x01, 0x01, 0x00, 0x01].getD k 0)
    (fun k => [0x31, 0x15, 0x01, 0x00, 0x01, 0x01, 0x01].getD k 0)
    (fun k => [0x1000, 0x1001, 0x1002, 0x1003].getD k 0) fun k => [0x1000, 0x1001, 0x1002, 0x1003].getD k 0
  slaveId := ⟨.filled _ 0, 0, by decide⟩

/-- What a handler leaves: its result, the registers, the frame and `*usLen`. -/
structure PduOutcome where
  eStatus : MbException
  registers : MbRegisters
  pucFrame : TracedMemory UInt8
  usLen : UInt16

/-- A handler over a frame that lies in a memory. -/
abbrev PduHandler := MbRegisters → TracedMemory UInt8 → UInt16 → PduOutcome

/-- `prveMBError2Exception` on what the callbacks return. -/
def prveMBError2Exception : ErrorCode → MbException
  | .enoerr => .none
  | .enoreg => .illegalDataAddress

/-- The word that the handlers join from two bytes of the frame. -/
def readWord (m : TracedMemory UInt8) (i : ℕ) : UInt16 × TracedMemory UInt8 :=
  let (high, m) := m.read i
  let (low, m) := m.read (i + 1)
  (joinBytes high low, m)

/-- A callback on the frame from a cell on. -/
def MbRegisters.callAt (registers : MbRegisters) (request : RegRequest) (pucFrame : TracedMemory UInt8)
    (i : ℕ) : ErrorCode × MbRegisters × TracedMemory UInt8 :=
  let (eRegStatus, tables, part) := registers.tables.call request (pucFrame.cellsFrom i)
  (eRegStatus, { registers with tables }, pucFrame.replaceFrom i part)

/-- The bytes that hold so many bits, as the handlers compute them. -/
def ucNBytes (usCount : UInt16) : UInt8 :=
  if usCount &&& 0x0007 ≠ 0 then (usCount / 8 + 1).toUInt8 else (usCount / 8).toUInt8

/-- What the four functions that read have in common: how the count is got from its two bytes, when it is
valid, how many bytes the items take, and which callback reads them. -/
def readItems (ucFunctionCode : UInt8) (readCount : UInt8 → UInt8 → UInt16) (valid : UInt16 → Bool)
    (usBytes : UInt16 → UInt16) (request : UInt16 → UInt16 → RegRequest) : PduHandler :=
  fun registers pucFrame usLen =>
    if usLen = 5 then
      let (usRegAddress, pucFrame) := readWord pucFrame 1
      let usRegAddress := usRegAddress + 1
      let (high, pucFrame) := pucFrame.read 3
      let (low, pucFrame) := pucFrame.read 4
      let usCount := readCount high low
      if valid usCount then
        let pucFrame := pucFrame.write 0 ucFunctionCode
        let pucFrame := pucFrame.write 1 (usBytes usCount).toUInt8
        let (eRegStatus, registers, pucFrame) := registers.callAt (request usRegAddress usCount) pucFrame 2
        if eRegStatus ≠ .enoerr then ⟨prveMBError2Exception eRegStatus, registers, pucFrame, 2⟩
        else ⟨.none, registers, pucFrame, 2 + usBytes usCount⟩
      else ⟨.illegalDataValue, registers, pucFrame, usLen⟩
    else ⟨.illegalDataValue, registers, pucFrame, usLen⟩

/-- `eMBFuncReadCoils`. -/
def eMBFuncReadCoils : PduHandler :=
  readItems 1 joinBytes (fun usCoilCount => decide (usCoilCount ≥ 1) && decide (usCoilCount < 0x07D0))
    (fun usCoilCount => (ucNBytes usCoilCount).toUInt16)
    fun usRegAddress usCoilCount => .coils usRegAddress usCoilCount .read

/-- `eMBFuncReadDiscreteInputs`. -/
def eMBFuncReadDiscreteInputs : PduHandler :=
  readItems 2 joinBytes (fun usDiscreteCnt => decide (usDiscreteCnt ≥ 1) && decide (usDiscreteCnt < 0x07D0))
    (fun usDiscreteCnt => (ucNBytes usDiscreteCnt).toUInt16) .discrete

/-- `eMBFuncReadHoldingRegister`: the second assignment to `usRegCount` drops the high byte of the count. -/
def eMBFuncReadHoldingRegister : PduHandler :=
  readItems 3 (fun _ low => low.toUInt16)
    (fun usRegCount => decide (usRegCount ≥ 1) && decide (usRegCount ≤ 0x007D))
    (fun usRegCount => usRegCount * 2) fun usRegAddress usRegCount => .holding usRegAddress usRegCount .read

/-- `eMBFuncReadInputRegister`. -/
def eMBFuncReadInputRegister : PduHandler :=
  readItems 4 joinBytes (fun usRegCount => decide (usRegCount ≥ 1) && decide (usRegCount < 0x007D))
    (fun usRegCount => usRegCount * 2) .input

/-- `eMBFuncWriteCoil`. -/
def eMBFuncWriteCoil : PduHandler := fun registers pucFrame usLen =>
  if usLen = 5 then
    let (usRegAddress, pucFrame) := readWord pucFrame 1
    let usRegAddress := usRegAddress + 1
    let (low, pucFrame) := pucFrame.read 4
    let (high, pucFrame) := pucFrame.read 3
    if low = 0x00 ∧ (high = 0xFF ∨ high = 0x00) then
      let ucBuf := TracedMemory.ofCells fun k => if k = 0 ∧ high = 0xFF then 1 else 0
      let (eRegStatus, tables, _) := registers.tables.call (.coils usRegAddress 1 .write) ucBuf
      ⟨prveMBError2Exception eRegStatus, { registers with tables }, pucFrame, usLen⟩
    else ⟨.illegalDataValue, registers, pucFrame, usLen⟩
  else ⟨.illegalDataValue, registers, pucFrame, usLen⟩

/-- `eMBFuncWriteHoldingRegister`. -/
def eMBFuncWriteHoldingRegister : PduHandler := fun registers pucFrame usLen =>
  if usLen = 5 then
    let (usRegAddress, pucFrame) := readWord pucFrame 1
    let usRegAddress := usRegAddress + 1
    let (eRegStatus, registers, pucFrame) := registers.callAt (.holding usRegAddress 1 .write) pucFrame 3
    ⟨prveMBError2Exception eRegStatus, registers, pucFrame, usLen⟩
  else ⟨.illegalDataValue, registers, pucFrame, usLen⟩

/-- What the two functions that write several items have in common: when the count and the byte count are
valid, and which callback writes the items. Only a length from 6 on is checked, not that the values are
part of the request. -/
def writeItems (valid : UInt16 → UInt8 → Bool) (request : UInt16 → UInt16 → RegRequest) : PduHandler :=
  fun registers pucFrame usLen =>
    if usLen ≥ 6 then
      let (usRegAddress, pucFrame) := readWord pucFrame 1
      let usRegAddress := usRegAddress + 1
      let (usCount, pucFrame) := readWord pucFrame 3
      let (ucByteCount, pucFrame) := pucFrame.read 5
      if valid usCount ucByteCount then
        let (eRegStatus, registers, pucFrame) := registers.callAt (request usRegAddress usCount) pucFrame 6
        if eRegStatus ≠ .enoerr then ⟨prveMBError2Exception eRegStatus, registers, pucFrame, usLen⟩
        else ⟨.none, registers, pucFrame, 5⟩
      else ⟨.illegalDataValue, registers, pucFrame, usLen⟩
    else ⟨.illegalDataValue, registers, pucFrame, usLen⟩

/-- `eMBFuncWriteMultipleCoils`. -/
def eMBFuncWriteMultipleCoils : PduHandler :=
  writeItems
    (fun usCoilCnt ucByteCount => decide (usCoilCnt ≥ 1) && decide (usCoilCnt ≤ 0x07B0) &&
      decide (ucNBytes usCoilCnt = ucByteCount))
    fun usRegAddress usCoilCnt => .coils usRegAddress usCoilCnt .write

/-- `eMBFuncWriteMultipleHoldingRegister`. -/
def eMBFuncWriteMultipleHoldingRegister : PduHandler :=
  writeItems
    (fun usRegCount ucRegByteCount => decide (usRegCount ≥ 1) && decide (usRegCount ≤ 0x0078) &&
      decide (ucRegByteCount = (2 * usRegCount).toUInt8))
    fun usRegAddress usRegCount => .holding usRegAddress usRegCount .write

/-- `eMBFuncReadWriteMultipleHoldingRegister`: a request that is too short is answered by itself. -/
def eMBFuncReadWriteMultipleHoldingRegister : PduHandler := fun registers pucFrame usLen =>
  if usLen ≥ 10 then
    let (usRegReadAddress, pucFrame) := readWord pucFrame 1
    let usRegReadAddress := usRegReadAddress + 1
    let (usRegReadCount, pucFrame) := readWord pucFrame 3
    let (usRegWriteAddress, pucFrame) := readWord pucFrame 5
    let usRegWriteAddress := usRegWriteAddress + 1
    let (usRegWriteCount, pucFrame) := readWord pucFrame 7
    let (ucRegWriteByteCount, pucFrame) := pucFrame.read 9
    if usRegReadCount ≥ 1 ∧ usRegReadCount ≤ 0x7D ∧ usRegWriteCount ≥ 1 ∧ usRegWriteCount ≤ 0x79 ∧
        2 * usRegWriteCount.toNat = ucRegWriteByteCount.toNat then
      let (eRegStatus, registers, pucFrame) :=
        registers.callAt (.holding usRegWriteAddress usRegWriteCount .write) pucFrame 10
      if eRegStatus = .enoerr then
        let pucFrame := pucFrame.write 0 23
        let pucFrame := pucFrame.write 1 (usRegReadCount * 2).toUInt8
        let (eRegStatus, registers, pucFrame) :=
          registers.callAt (.holding usRegReadAddress usRegReadCount .read) pucFrame 2
        if eRegStatus = .enoerr then ⟨.none, registers, pucFrame, 2 + 2 * usRegReadCount⟩
        else ⟨prveMBError2Exception eRegStatus, registers, pucFrame, 2⟩
      else ⟨prveMBError2Exception eRegStatus, registers, pucFrame, usLen⟩
    else ⟨.illegalDataValue, registers, pucFrame, usLen⟩
  else ⟨.none, registers, pucFrame, usLen⟩

/-- `eMBFuncReportSlaveID`. -/
def eMBFuncReportSlaveID : PduHandler := fun registers pucFrame _ =>
  ⟨.none, registers, pucFrame.writeAll 1 registers.slaveId.bytes,
    .ofNat (1 + registers.slaveId.usMBSlaveIDLen)⟩

/-- `xFuncHandlers` as it is initialised; the entries behind these have the code 0. -/
def xFuncHandlers : List (UInt8 × PduHandler) :=
  [(17, eMBFuncReportSlaveID), (4, eMBFuncReadInputRegister), (3, eMBFuncReadHoldingRegister),
    (16, eMBFuncWriteMultipleHoldingRegister), (6, eMBFuncWriteHoldingRegister),
    (23, eMBFuncReadWriteMultipleHoldingRegister), (1, eMBFuncReadCoils), (5, eMBFuncWriteCoil),
    (15, eMBFuncWriteMultipleCoils), (2, eMBFuncReadDiscreteInputs)]

/-- The search of `eMBPoll` for the handler of a function code. -/
def findHandler {H : Type*} (ucFunctionCode : UInt8) : List (UInt8 × H) → Option H
  | [] => none
  | (code, pxHandler) :: rest =>
    if code = 0 then none
    else if code = ucFunctionCode then some pxHandler
    else findHandler ucFunctionCode rest

/-- What the search gives: the handler's outcome, or that there is none. -/
def callFound (registers : MbRegisters) (ucMBFrame : TracedMemory UInt8) (usLength : UInt16) :
    Option PduHandler → PduOutcome
  | none => ⟨.illegalFunction, registers, ucMBFrame, usLength⟩
  | some pxHandler => pxHandler registers ucMBFrame usLength

/-- The error frame that `eMBPoll` builds for an exception. -/
def PduOutcome.errorFrame (o : PduOutcome) (ucFunctionCode : UInt8) : PduOutcome :=
  if o.eStatus = .none then o
  else
    { o with
      pucFrame := (o.pucFrame.write 0 (ucFunctionCode ||| mbFuncError)).write 1 o.eStatus.code
      usLen := 2 }

/-- The branch of `eMBPoll` for `EV_EXECUTE`, up to the reply that is sent. -/
def executePdu (registers : MbRegisters) (ucMBFrame : TracedMemory UInt8) (usLength : UInt16) : PduOutcome :=
  let (ucFunctionCode, ucMBFrame) := ucMBFrame.read 0
  let o := callFound registers ucMBFrame usLength (findHandler ucFunctionCode xFuncHandlers)
  o.errorFrame ucFunctionCode

/-- The PDU of the reply. -/
def PduOutcome.reply (o : PduOutcome) : List UInt8 := (List.range o.usLen.toNat).map o.pucFrame.cells

end RemoteManage.Modbus

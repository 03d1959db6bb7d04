import RemoteManage.Foundation.FixedBuffer
import RemoteManage.Foundation.Transition
import RemoteManage.Modbus.MbCrc

/-!
# The Modbus RTU stack over the serial port

`mbrtu.c`, the poll loop of `mb.c` and the port layer in `portserial.cpp`, `portevent.cpp` and
`porttimer.cpp`, with two threads for the two directions of the tty. Each call of one of the
stack's functions is one step. A function that fails its entry assertion ends the program: the
state remembers which one, and no step follows.

The PDU that a function handler leaves in the frame buffer is part of the step that polls. What
the port layer hands to `port_tty.write` is kept together with the bytes that the stack has put
for the same reply.
-/

namespace RemoteManage.Modbus

open RemoteManage.Foundation

/-- `MB_SER_PDU_SIZE_MIN`. -/
abbrev mbSerPduSizeMin : ℕ := 4

/-- `MB_SER_PDU_SIZE_MAX`. -/
abbrev mbSerPduSizeMax : ℕ := 256

/-- `RX_BUFFER_SIZE`, which is the size of the transmit buffer as well. -/
abbrev rxBufferSize : ℕ := 1024

/-- `MB_ADDRESS_BROADCAST`. -/
def mbAddressBroadcast : UInt8 := 0

/-- `MODBUS_DEF_ADDRESS`, the address that `eMBInit` keeps in `ucMBAddress`. -/
def ucMBAddress : UInt8 := 1

/-- `eMBRcvState`. -/
inductive RcvState where
  | rxInit
  | rxIdle
  | rxRcv
  | rxError
  deriving DecidableEq, Repr

/-- `eMBSndState`. -/
inductive SndState where
  | txIdle
  | txXmit
  deriving DecidableEq, Repr

/-- `eMBEventType`. -/
inductive EventType where
  | ready
  | frameReceived
  | execute
  | frameSent
  deriving DecidableEq, Repr

/-- The functions that check an assertion. -/
inductive Assertion where
  | receive
  | receiveFSM
  | transmitFSM
  | timerT35Expired
  deriving DecidableEq, Repr

/-- Where `port_tty_tx_thread` stands: it waits for the semaphore, calls the stack, or is about to
write the bytes put for a reply. -/
inductive TxThread where
  | waiting
  | transmitting
  | writing (put : List UInt8)
  deriving DecidableEq, Repr

/-- A reply that the stack has reported as transmitted: the bytes put for it, and the bytes handed to
`port_tty.write`. -/
structure Transmission where
  put : List UInt8
  written : List UInt8
  deriving DecidableEq, Repr

/-- A PDU: a function code and at most 252 bytes of data. -/
structure Pdu where
  bytes : List UInt8
  ne_nil : bytes ≠ []
  length_le : bytes.length ≤ 253

/-- The static variables of the stack and of the port layer, with the two threads and the line. -/
structure SerialPort where
  eSndState : SndState
  eRcvState : RcvState
  ucRTUBuf : FixedBuffer UInt8 mbSerPduSizeMax
  pucSndBufferCur : ℕ
  usSndBufferCount : ℕ
  usRcvBufferPos : ℕ
  ucRcvAddress : UInt8
  queue : List EventType
  timer : Bool
  ttyRxIndex : ℕ
  ttyRxBuffer : FixedBuffer UInt8 rxBufferSize
  tty : AppendBuffer UInt8 rxBufferSize 32
  wakeups : ℕ
  /-- The bytes that have arrived and have not been read. -/
  line : List UInt8
  /-- The bytes of the last read for which `prvvUARTRxISR` has still to be called. -/
  unread : ℕ
  txThread : TxThread
  /-- The bytes put since the last call of `eMBRTUSend`. -/
  put : List UInt8
  transmissions : List Transmission
  failed : Option Assertion

namespace SerialPort

/-- `vMBPortSerialEnable`: the receiver is left as it is. -/
def vMBPortSerialEnable (s : SerialPort) (_xRxEnable xTxEnable : Bool) : SerialPort :=
  if xTxEnable then { s with tty := { s.tty with size := 0 }, wakeups := s.wakeups + 1 }
  else { s with tty := { s.tty with size := 0 } }

/-- `xMBPortSerialPutByte`. -/
def xMBPortSerialPutByte (s : SerialPort) (ucByte : UInt8) : SerialPort :=
  { s with tty := s.tty.push ucByte, put := s.put ++ [ucByte] }

/-- `xMBPortEventPost`. -/
def xMBPortEventPost (s : SerialPort) (eEvent : EventType) : SerialPort :=
  { s with queue := s.queue ++ [eEvent] }

/-- The program ends at an assertion. -/
def fail (s : SerialPort) (assertion : Assertion) : SerialPort := { s with failed := some assertion }

/-- `eMBRTUStart`. -/
def eMBRTUStart (s : SerialPort) : SerialPort :=
  { vMBPortSerialEnable { s with eRcvState := .rxInit } true false with timer := true }

/-- `xMBRTUReceiveFSM`, with `xMBPortSerialGetByte`. -/
def xMBRTUReceiveFSM (s : SerialPort) : SerialPort :=
  if s.eSndState = .txIdle then
    let ucByte := s.ttyRxBuffer.read s.ttyRxIndex
    let s := { s with ttyRxIndex := s.ttyRxIndex + 1, timer := true }
    match s.eRcvState with
    | .rxInit => s
    | .rxError => s
    | .rxIdle => { s with ucRTUBuf := s.ucRTUBuf.write 0 ucByte, usRcvBufferPos := 1, eRcvState := .rxRcv }
    | .rxRcv =>
      if s.usRcvBufferPos < mbSerPduSizeMax then
        { s with ucRTUBuf := s.ucRTUBuf.write s.usRcvBufferPos ucByte,
                 usRcvBufferPos := s.usRcvBufferPos + 1 }
      else { s with eRcvState := .rxError }
  else s.fail .receiveFSM

/-- `xMBRTUTransmitFSM`, with the answer whether the reply is complete. -/
def xMBRTUTransmitFSM (s : SerialPort) : SerialPort × Bool :=
  if s.eRcvState = .rxIdle then
    match s.eSndState with
    | .txIdle => (s.vMBPortSerialEnable true false, false)
    | .txXmit =>
      if s.usSndBufferCount ≠ 0 then
        ({ s.xMBPortSerialPutByte (s.ucRTUBuf.read s.pucSndBufferCur) with
            pucSndBufferCur := s.pucSndBufferCur + 1, usSndBufferCount := s.usSndBufferCount - 1 }, false)
      else
        ({ (s.xMBPortEventPost .frameSent).vMBPortSerialEnable true false with eSndState := .txIdle }, true)
  else (s.fail .transmitFSM, false)

/-- `xMBRTUTimerT35Expired`. -/
def xMBRTUTimerT35Expired (s : SerialPort) : SerialPort :=
  match s.eRcvState with
  | .rxInit => { s.xMBPortEventPost .ready with timer := false, eRcvState := .rxIdle }
  | .rxRcv => { s.xMBPortEventPost .frameReceived with timer := false, eRcvState := .rxIdle }
  | .rxError => { s with timer := false, eRcvState := .rxIdle }
  | .rxIdle => s.fail .timerT35Expired

/-- The length and CRC check of `eMBRTUReceive`. -/
def frameValid (s : SerialPort) : Bool :=
  mbSerPduSizeMin ≤ s.usRcvBufferPos && usMBCRC16 (s.ucRTUBuf.contents s.usRcvBufferPos) = 0

/-- `eMBRTUReceive` and the branch of `eMBPoll` for `EV_FRAME_RECEIVED`. -/
def pollFrameReceived (s : SerialPort) : SerialPort :=
  if s.usRcvBufferPos < mbSerPduSizeMax then
    if s.frameValid then
      let ucRcvAddress := s.ucRTUBuf.read 0
      let s := { s with ucRcvAddress := ucRcvAddress }
      if ucRcvAddress = ucMBAddress ∨ ucRcvAddress = mbAddressBroadcast then s.xMBPortEventPost .execute
      else s
    else s
  else s.fail .receive

/-- `eMBRTUSend` on the PDU in the frame buffer. -/
def eMBRTUSend (s : SerialPort) (ucSlaveAddress : UInt8) (usLength : ℕ) : SerialPort :=
  if s.eRcvState = .rxIdle then
    let ucRTUBuf := s.ucRTUBuf.write 0 ucSlaveAddress
    let usCRC16 := usMBCRC16 (ucRTUBuf.contents (1 + usLength))
    let ucRTUBuf := ucRTUBuf.write (1 + usLength) (lowByte usCRC16)
    let ucRTUBuf := ucRTUBuf.write (2 + usLength) (highByte usCRC16)
    vMBPortSerialEnable
      { s with ucRTUBuf := ucRTUBuf, pucSndBufferCur := 0, usSndBufferCount := 3 + usLength,
               eSndState := .txXmit, put := [] } false true
  else s

/-- The branch of `eMBPoll` for `EV_EXECUTE`, where the handler leaves a PDU in the frame buffer. -/
def pollExecute (s : SerialPort) (pdu : Pdu) : SerialPort :=
  let s := { s with ucRTUBuf := s.ucRTUBuf.writeAll 1 pdu.bytes }
  if s.ucRcvAddress ≠ mbAddressBroadcast then s.eMBRTUSend ucMBAddress pdu.bytes.length else s

/-- `eMBPoll` for an event taken from the queue. -/
def eMBPoll (s : SerialPort) (eEvent : EventType) (pdu : Pdu) : SerialPort :=
  match eEvent with
  | .ready => s
  | .frameReceived => s.pollFrameReceived
  | .execute => s.pollExecute pdu
  | .frameSent => s

/-- `port_tty.write` of the bytes put; data that has been written flushes what has not been read. -/
def ttyWrite (s : SerialPort) (put : List UInt8) : SerialPort :=
  { s with txThread := .waiting, line := if s.tty.written = [] then s.line else []
           transmissions := s.transmissions ++ [⟨put, s.tty.written⟩] }

end SerialPort

/-- What can happen: a byte arrives, the receive thread reads some bytes or hands one to the stack, the
timer expires, the stack is polled, and the transmit thread wakes up, calls the stack or writes. -/
inductive PortEvent where
  | arrive (ucByte : UInt8)
  | rxRead (size : ℕ)
  | rxCall
  | timer
  | poll (pdu : Pdu)
  | txWake
  | txCall
  | txWrite

open SerialPort in
/-- What the running program does at an event, if the event can happen. -/
def portAct (s : SerialPort) : PortEvent → Option SerialPort
  | .arrive ucByte => some { s with line := s.line ++ [ucByte] }
  | .rxRead size =>
    if s.unread = 0 ∧ 0 < size ∧ size ≤ min s.line.length rxBufferSize then
      some { s with ttyRxBuffer := s.ttyRxBuffer.writeAll 0 (s.line.take size), ttyRxIndex := 0
                    line := s.line.drop size, unread := size }
    else none
  | .rxCall => if 0 < s.unread then some { s.xMBRTUReceiveFSM with unread := s.unread - 1 } else none
  | .timer => if s.timer then some s.xMBRTUTimerT35Expired else none
  | .poll pdu =>
    match s.queue with
    | [] => none
    | eEvent :: queue => some (eMBPoll { s with queue := queue } eEvent pdu)
  | .txWake =>
    if s.txThread = .waiting ∧ 0 < s.wakeups then
      some { s with wakeups := s.wakeups - 1, txThread := .transmitting }
    else none
  | .txCall =>
    if s.txThread = .transmitting then
      let call := s.xMBRTUTransmitFSM
      some (if call.2 then { call.1 with txThread := .writing call.1.put } else call.1)
    else none
  | .txWrite =>
    match s.txThread with
    | .writing put => some (s.ttyWrite put)
    | _ => none

/-- One step: a program whose assertion has failed does nothing more. -/
def portStep (s : SerialPort) (e : PortEvent) : Option SerialPort :=
  if s.failed = none then portAct s e else none

/-- The state in which the program starts the stack; the buffers have any contents. -/
def portStart (ucRTUBuf : Vector UInt8 mbSerPduSizeMax)
    (ttyRxBuffer ttyTxBuffer : Vector UInt8 rxBufferSize) : SerialPort :=
  SerialPort.eMBRTUStart
    { eSndState := .txIdle, eRcvState := .rxInit, ucRTUBuf := ⟨ucRTUBuf, false⟩, pucSndBufferCur := 0
      usSndBufferCount := 0, usRcvBufferPos := 0, ucRcvAddress := 0, queue := [], timer := false
      ttyRxIndex := 0, ttyRxBuffer := ⟨ttyRxBuffer, false⟩, tty := ⟨⟨ttyTxBuffer, false⟩, 0⟩, wakeups := 0
      line := [], unread := 0, txThread := .waiting, put := [], transmissions := [], failed := none }

/-- An undisturbed exchange: a request arrives, is received and polled, and its reply is transmitted. -/
def exchange (request : List UInt8) (reply : Pdu) : List PortEvent :=
  [.timer] ++ request.map .arrive ++ [.rxRead request.length] ++ List.replicate request.length .rxCall ++
    [.timer, .poll reply, .poll reply, .poll reply, .txWake] ++
    List.replicate (reply.bytes.length + 4) .txCall ++ [.txWrite]

end RemoteManage.Modbus

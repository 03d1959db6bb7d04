import RemoteManage.Common.Calculate
import RemoteManage.Foundation.FixedBuffer
import RemoteManage.Foundation.Mealy
import RemoteManage.Foundation.WordBytes

/-!
# The frame protocol of `main_process`

`protocol_info` and the receive loop `tcp_rx_run`, as the code computes them. A frame is
the head `5A 5B`, a sequence number, a function byte, a length byte, the payload and a
CRC over everything between head and CRC.

`check_rx_frame` examines `rx_buffer_[5]` as soon as five bytes are stored, when that
cell still belongs to an earlier frame; the model reads the same stale cell. The time of
each byte is an input, since the head records it in `rx_timeout_`.
-/

namespace RemoteManage.MainProcess

open RemoteManage.Foundation
open RemoteManage.Common

/-- `RX_BUFFER_SIZE`. -/
abbrev rxBufferCapacity : ℕ := 1024

/-- `MAX_TX_BUFFER_LENGTH`. -/
abbrev maxTxBufferLength : ℕ := 264

/-- `PROTOCOL_FRAME_LENGHT`: head, sequence, function, length and CRC. -/
abbrev protocolFrameLength : ℕ := 8

/-- `PACKED_HEAD[0]`. -/
def packedHead0 : UInt8 := 0x5a

/-- `PACKED_HEAD[1]`. -/
def packedHead1 : UInt8 := 0x5b

/-- `FUNCTION_ACK`. -/
def functionAck : UInt8 := 0x80

/-- `DEFAULT_CRC_VALUE`. -/
def defaultCrcValue : UInt16 := 0xffff

/-- `ENUM_PROTOCOL_STATUS`. -/
inductive ProtocolStatus where
  | frameEmpty
  | frameHeadRx
  | frameDataRx
  | frameFinished
  deriving DecidableEq, Repr

/-- The fields of `protocol_info` that reception and transmission use. -/
structure ProtocolInfo where
  rxBuffer : FixedBuffer UInt8 rxBufferCapacity
  rxBufferSize : ℕ
  rxTimeout : UInt32
  rxStatus : ProtocolStatus
  sequenceNum : UInt16

namespace ProtocolInfo

/-- The object as its constructor leaves it. -/
def init : ProtocolInfo where
  rxBuffer := FixedBuffer.filled rxBufferCapacity 0
  rxBufferSize := 0
  rxTimeout := 0
  rxStatus := .frameEmpty
  sequenceNum := 0

/-- The receive buffer with its 16-bit counter. -/
def rx (s : ProtocolInfo) : AppendBuffer UInt8 rxBufferCapacity 16 := ⟨s.rxBuffer, s.rxBufferSize⟩

/-- `rx_buffer_[rx_buffer_size_++] = data`. -/
def rxPush (s : ProtocolInfo) (data : UInt8) : ProtocolInfo :=
  { s with rxBuffer := (s.rx.push data).buffer, rxBufferSize := (s.rx.push data).size }

@[simp] theorem rxPush_rx (s : ProtocolInfo) (data : UInt8) : (s.rxPush data).rx = s.rx.push data := rfl

@[simp] theorem rxPush_rxStatus (s : ProtocolInfo) (data : UInt8) :
    (s.rxPush data).rxStatus = s.rxStatus := rfl

end ProtocolInfo

/-- `calculate_crc`. -/
def calculateCrc (pdata : List UInt8) : UInt16 := crc16 defaultCrcValue pdata

/-- `check_rx_frame`: one received byte, at time `now`. -/
def checkRxFrame (now : UInt32) (data : UInt8) (s : ProtocolInfo) : ProtocolInfo :=
  match s.rxStatus with
  | .frameEmpty =>
    if data = packedHead0 then
      { s with
        rxBuffer := s.rxBuffer.write 0 data
        rxBufferSize := 1
        rxStatus := .frameHeadRx
        rxTimeout := now }
    else s
  | .frameHeadRx =>
    if data = packedHead0 then s
    else if data = packedHead1 then { s.rxPush data with rxStatus := .frameDataRx }
    else { s with rxStatus := .frameEmpty }
  | _ =>
    let s := s.rxPush data
    if 5 ≤ s.rxBufferSize then
      let len := s.rxBuffer.read 5
      if s.rxBufferSize = len.toNat + protocolFrameLength then
        let crcValue :=
          joinBytes (s.rxBuffer.read (s.rxBufferSize - 2)) (s.rxBuffer.read (s.rxBufferSize - 1))
        let crcCalc := calculateCrc (s.rxBuffer.slice 2 (s.rxBufferSize - 4))
        if crcValue = crcCalc then { s with rxStatus := .frameFinished }
        else { s with rxStatus := .frameEmpty }
      else s
    else s

/-- `clear_rx_info`. -/
def clearRxInfo (s : ProtocolInfo) : ProtocolInfo :=
  { s with rxStatus := .frameEmpty, rxBufferSize := 0 }

/-- The header writes with which both encoders begin. -/
def putHeader {n w : ℕ} (frame : AppendBuffer UInt8 n w) (sequence : UInt16) (func length : UInt8) :
    AppendBuffer UInt8 n w :=
  let frame := frame.push packedHead0
  let frame := frame.push packedHead1
  let frame := frame.push (highByte sequence)
  let frame := frame.push (lowByte sequence)
  let frame := frame.push func
  frame.push length

/-- The checksum writes with which both encoders end. -/
def putCrc {n w : ℕ} (frame : AppendBuffer UInt8 n w) (crcCheck : UInt16) : AppendBuffer UInt8 n w :=
  (frame.push (highByte crcCheck)).push (lowByte crcCheck)

/-- `send_func_data`: the local array and its counter when they are handed to `handler_`.

The array comes with whatever the stack held before. -/
def sendFuncData (buffer : FixedBuffer UInt8 64) (sequence : UInt16) (func : UInt8) :
    AppendBuffer UInt8 64 8 :=
  let frame := putHeader ⟨buffer, 0⟩ sequence func 0
  putCrc frame (calculateCrc (frame.buffer.slice 2 (frame.size - 2)))

/-- `create_output_frame`: the object with its next sequence number, and the output buffer
with the number of bytes put into it. -/
def createOutputFrame (s : ProtocolInfo) (pOutput : FixedBuffer UInt8 maxTxBufferLength)
    (pInput : List UInt8) : ProtocolInfo × AppendBuffer UInt8 maxTxBufferLength 16 :=
  let s := { s with sequenceNum := s.sequenceNum + 1 }
  let frame := (putHeader ⟨pOutput, 0⟩ s.sequenceNum 0 (UInt8.ofNat pInput.length)).pushAll pInput
  -- the length argument of `calculate_crc` is a `uint16_t`
  (s, putCrc frame (calculateCrc (frame.buffer.slice 2 ((frame.size + 2 ^ 16 - 2) % 2 ^ 16))))

/-- An array the source does not initialise; only cells written before are read from it. -/
def uninitialised (n : ℕ) : FixedBuffer UInt8 n := FixedBuffer.filled n 0

/-- `process_rx_frame`: the byte blocks handed to `handler_`, at most one.

The event number that the source reads from a longer payload is not used by it. -/
def processRxFrame (s : ProtocolInfo) : List (List UInt8) :=
  let rxFunc := s.rxBuffer.read 4
  let sequenceNum := joinBytes (s.rxBuffer.read 2) (s.rxBuffer.read 3)
  if s.rxBufferSize = protocolFrameLength then
    if rxFunc = functionAck then []
    else if rxFunc = 0 then [(sendFuncData (uninitialised 64) sequenceNum functionAck).written]
    else []
  else if rxFunc = 0 then [(sendFuncData (uninitialised 64) sequenceNum functionAck).written]
  else []

/-- A byte read from the receive FIFO, with the time of the read. -/
structure RxByte where
  now : UInt32
  data : UInt8

/-- One turn of `tcp_rx_run` as seen from outside: the object when `check_rx_frame` has
returned, and the blocks sent while the frame was processed. -/
structure RxEvent where
  checked : ProtocolInfo
  replies : List (List UInt8)

/-- The frame in the receive buffer, when `check_rx_frame` has reported it finished. -/
def RxEvent.finished (e : RxEvent) : Option (List UInt8) :=
  if e.checked.rxStatus = .frameFinished then some e.checked.rx.written else none

/-- One turn of `tcp_rx_run`. -/
def tcpRxStep (s : ProtocolInfo) (byte : RxByte) : ProtocolInfo × RxEvent :=
  let checked := checkRxFrame byte.now byte.data s
  match checked.rxStatus with
  | .frameFinished => (clearRxInfo checked, ⟨checked, processRxFrame checked⟩)
  | .frameEmpty => (clearRxInfo checked, ⟨checked, []⟩)
  | _ => (checked, ⟨checked, []⟩)

/-- `tcp_rx_run` over the bytes read so far: what happens at each of them. -/
def tcpRxRun (s : ProtocolInfo) (bytes : List RxByte) : List RxEvent :=
  Mealy.outputs tcpRxStep s bytes

/-- The object after `tcp_rx_run` has read the bytes. -/
def afterTcpRxRun (s : ProtocolInfo) (bytes : List RxByte) : ProtocolInfo :=
  Mealy.after tcpRxStep s bytes

end RemoteManage.MainProcess

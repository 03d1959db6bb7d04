import RemoteManage.Foundation.FixedBuffer
import RemoteManage.Foundation.Mealy
import RemoteManage.Foundation.WordBytes

/-!
# The CAN service

`can_protocol` and the body of the receive loop of `can_socket`, as the code computes them
where plain `char` is unsigned. A frame of the protocol is a head byte, a version, a command,
a length of two bytes, that many bytes of data and a CRC over all of it. What a complete
request is answered with is cut into CAN frames of up to eight bytes.

The condition under which `process_rx_frame` accepts a frame is written
`checksum == (high << 8) | low`; comparing binds more tightly than `|`, and the model has
it as the compiler reads it.
-/

namespace RemoteManage.CanNet

open RemoteManage.Foundation

/-- `MAX_FRAME_BUFFER`. -/
abbrev maxFrameBuffer : ℕ := 548

/-- `CAN_HEAD_SIZE`. -/
abbrev canHeadSize : ℕ := 5

/-- `CAN_MAX_DLEN`. -/
abbrev canMaxDlen : ℕ := 8

/-- `CAN_UI_HEADR`. -/
def canUiHeadr : UInt8 := 0x3c

/-- `CAN_PROTOCOL_VERSION`. -/
def canProtocolVersion : UInt8 := 1

/-- `CAN_REQUEST_SHOW_INFO`. -/
def canRequestShowInfo : UInt8 := 1

/-- `CAN_RESPONSE_SHOW_INFO`. -/
def canResponseShowInfo : UInt8 := 1

/-- The values of `rx_frame_state_`. -/
inductive CanFrameState where
  | empty
  | received
  | complete
  deriving DecidableEq, Repr

/-- One bit of `crc16_modbus`. -/
def crc16ModbusBit (crc : UInt16) : UInt16 :=
  if crc &&& 1 ≠ 0 then (crc >>> 1) ^^^ 0xa001 else crc >>> 1

/-- One byte of `crc16_modbus`. -/
def crc16ModbusByte (crc : UInt16) (data : UInt8) : UInt16 :=
  Nat.iterate crc16ModbusBit 8 (crc ^^^ data.toUInt16)

/-- `crc16_modbus`. -/
def crc16Modbus (data : List UInt8) : UInt16 := data.foldl crc16ModbusByte 0xffff

/-- The fields of `can_protocol`. -/
structure CanProtocol where
  rxFramebuffer : FixedBuffer UInt8 maxFrameBuffer
  rxFramesize : ℕ
  rxFrameState : CanFrameState

namespace CanProtocol

/-- A new object; its buffer is not initialised. -/
def init (cells : Vector UInt8 maxFrameBuffer) : CanProtocol := ⟨⟨cells, false⟩, 0, .empty⟩

/-- The receive buffer with its counter. -/
def rx (s : CanProtocol) : AppendBuffer UInt8 maxFrameBuffer 32 := ⟨s.rxFramebuffer, s.rxFramesize⟩

/-- `rx_framebuffer_[rx_framesize_++] = data`. -/
def rxPush (s : CanProtocol) (data : UInt8) : CanProtocol :=
  { s with rxFramebuffer := (s.rx.push data).buffer, rxFramesize := (s.rx.push data).size }

@[simp] theorem rxPush_rx (s : CanProtocol) (data : UInt8) : (s.rxPush data).rx = s.rx.push data := rfl

/-- `frame_size`: the length that the frame in the buffer announces. -/
def frameSize (s : CanProtocol) : ℕ :=
  (joinBytes (s.rxFramebuffer.read 3) (s.rxFramebuffer.read 4)).toNat + 7

/-- The checksum computed over the frame in the buffer. -/
def checksum (s : CanProtocol) : UInt16 := crc16Modbus (s.rxFramebuffer.slice 0 (s.frameSize - 2))

/-- `checksum == ((uint16_t)high << 8) | low`, as the compiler reads it. -/
def checksumAccepted (s : CanProtocol) : Bool :=
  s.checksum = joinBytes (s.rxFramebuffer.read (s.frameSize - 2)) 0 ||
    s.rxFramebuffer.read (s.frameSize - 1) != 0

end CanProtocol

/-- `process_rx_frame`. -/
def processRxFrame (data : UInt8) (s : CanProtocol) : CanProtocol :=
  match s.rxFrameState with
  | .empty =>
    if data = canUiHeadr then
      { rxFramebuffer := s.rxFramebuffer.write 0 data, rxFramesize := 1, rxFrameState := .received }
    else s
  | .received =>
    let s := s.rxPush data
    if canHeadSize < s.rxFramesize then
      if maxFrameBuffer < s.frameSize then { s with rxFrameState := .empty }
      else if s.frameSize ≤ s.rxFramesize then
        if s.checksumAccepted then
          { s with rxFrameState := .complete, rxFramesize := s.rxFramesize - 2 }
        else { s with rxFrameState := .empty }
      else s
    else s
  | .complete => s

/-- `clear_frame_state`. -/
def clearFrameState (s : CanProtocol) : CanProtocol := { s with rxFrameState := .empty }

/-- `clear_frame_size`. -/
def clearFrameSize (s : CanProtocol) : CanProtocol := { s with rxFramesize := 0 }

/-- `create_can_tx_buffer`: the output buffer and the number of bytes put into it. -/
def createCanTxBuffer (cmd : UInt8) (pbuffer : List UInt8) (outBuffer : FixedBuffer UInt8 maxFrameBuffer) :
    AppendBuffer UInt8 maxFrameBuffer 16 :=
  let len := UInt16.ofNat pbuffer.length
  let out : AppendBuffer UInt8 maxFrameBuffer 16 := ⟨outBuffer, 0⟩
  let out := out.push canUiHeadr
  let out := out.push canProtocolVersion
  let out := out.push cmd
  let out := out.push (highByte len)
  let out := out.push (lowByte len)
  let out := if 0 < len then out.pushAll pbuffer else out
  let crcValue := crc16Modbus (out.buffer.slice 0 out.size)
  (out.push (highByte crcValue)).push (lowByte crcValue)

/-- `protocol_process` with `can_reqeust_show_info`: the transmit buffer, and the size of the answer
or -1. -/
def protocolProcess (s : CanProtocol) (txBuffer : FixedBuffer UInt8 maxFrameBuffer) :
    FixedBuffer UInt8 maxFrameBuffer × ℤ :=
  let version := s.rxFramebuffer.read 1
  let cmd := s.rxFramebuffer.read 2
  if canProtocolVersion < version then (txBuffer, -1)
  else if cmd = canRequestShowInfo then
    let out := createCanTxBuffer canResponseShowInfo
      (s.rxFramebuffer.slice 5 (s.rxFramesize - 5)) txBuffer
    (out.buffer, out.size)
  else (txBuffer, -1)

/-- `struct can_frame`. -/
structure CanFrame where
  canId : UInt32
  canDlc : ℕ
  data : FixedBuffer UInt8 canMaxDlen

/-- The bytes that a CAN frame carries. -/
def CanFrame.payload (f : CanFrame) : List UInt8 := f.data.contents f.canDlc

/-- The frame after `length` bytes have been copied into it. -/
def CanFrame.load (f : CanFrame) (id : UInt32) (bytes : List UInt8) : CanFrame :=
  ⟨id, bytes.length, f.data.writeAll 0 bytes⟩

/-- The loop over the full CAN frames in `can_write_buffer`: `frame_` behind it and the frames
written. -/
def writeFullFrames (id : UInt32) (buffer : FixedBuffer UInt8 maxFrameBuffer) :
    ℕ → ℕ → CanFrame → CanFrame × List CanFrame
  | 0, _, frame => (frame, [])
  | nums + 1, ptr, frame =>
    let frame := frame.load id (buffer.slice ptr canMaxDlen)
    let rest := writeFullFrames id buffer nums (ptr + canMaxDlen) frame
    (rest.1, frame :: rest.2)

/-- `can_write_buffer`: `frame_` behind it and the frames written. -/
def canWriteBuffer (id : UInt32) (buffer : FixedBuffer UInt8 maxFrameBuffer) (len : ℕ) (frame : CanFrame) :
    CanFrame × List CanFrame :=
  let nums := len / canMaxDlen
  let offset := len % canMaxDlen
  let full := writeFullFrames id buffer nums 0 frame
  if 0 < offset then
    let frame := full.1.load id (buffer.slice (nums * canMaxDlen) offset)
    (frame, full.2 ++ [frame])
  else full

/-- The fields of `can_socket` that the receive loop uses. -/
structure CanSocket where
  canProtocol : CanProtocol
  frame : CanFrame
  txBuffer : FixedBuffer UInt8 maxFrameBuffer
  id : UInt32

/-- What one byte has led to: the object as `process_rx_frame` returned it, the bytes of the answer if
there is one, and the CAN frames written. -/
structure ByteEvent where
  checked : CanProtocol
  answer : List UInt8
  written : List CanFrame

/-- The body of the receive loop for one byte of a CAN frame. -/
def receiveByte (s : CanSocket) (data : UInt8) : CanSocket × ByteEvent :=
  let checked := processRxFrame data s.canProtocol
  match checked.rxFrameState with
  | .complete =>
    let canProtocol := clearFrameState checked
    let (txBuffer, size) := protocolProcess canProtocol s.txBuffer
    if 0 < size then
      let (frame, written) := canWriteBuffer s.id txBuffer size.toNat s.frame
      ({ s with canProtocol := canProtocol, frame := frame, txBuffer := txBuffer },
        ⟨checked, txBuffer.contents size.toNat, written⟩)
    else ({ s with canProtocol := canProtocol, txBuffer := txBuffer }, ⟨checked, [], []⟩)
  | .empty => ({ s with canProtocol := clearFrameSize checked }, ⟨checked, [], []⟩)
  | .received => ({ s with canProtocol := checked }, ⟨checked, [], []⟩)

/-- The receive loop over the bytes received so far: what each of them has led to. -/
def receiveBytes (s : CanSocket) (bytes : List UInt8) : List ByteEvent :=
  Mealy.outputs receiveByte s bytes

/-- The object after the bytes. -/
def afterReceiveBytes (s : CanSocket) (bytes : List UInt8) : CanSocket :=
  Mealy.after receiveByte s bytes

end RemoteManage.CanNet

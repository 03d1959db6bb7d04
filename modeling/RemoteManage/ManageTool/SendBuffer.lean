import RemoteManage.MainProcess.FrameStream
import RemoteManage.ManageTool.ProtocolInfo

/-!
# Commands of the desktop tool

`protocol_info::CreateSendBuffer` frames a command for the embedded side, and `main_process` receives what its
clients send with `tcp_rx_run`. The two were written for different protocols: the tool puts a
length of two bytes behind one head byte, where the receiver looks for the second byte of its
head. A command is understood when the receiver finishes one frame, with the command in it, and
the tool accepts the answer.
-/

namespace RemoteManage.ManageTool

open RemoteManage.Foundation RemoteManage.Common
open RemoteManage.MainProcess (Frame RxByte RxEvent tcpRxRun)

/-- `PROTOCOL_SEND_HEAD`. -/
def protocolSendHead : UInt8 := 0x5A

/-- The frame that `CreateSendBuffer` builds; `random` is the number drawn for the packet. -/
def createSendFrame (pTxBuffer : FixedBuffer UInt8 buffCacheSize) (random : UInt16) (nId : UInt8)
    (pStart : List UInt8) : AppendBuffer UInt8 buffCacheSize 16 :=
  let nSendSize := UInt16.ofNat pStart.length + 3
  let frame : AppendBuffer UInt8 buffCacheSize 16 := ⟨pTxBuffer, 0⟩
  let frame := frame.push protocolSendHead
  let frame := frame.push (highByte nSendSize)
  let frame := frame.push (lowByte nSendSize)
  let frame := frame.push nId
  let frame := frame.push (highByte random)
  let frame := frame.push (lowByte random)
  let frame := frame.pushEach pStart
  let nCrcVal := calculateCrc frame.buffer 1 (frame.size - 1)
  (frame.push (highByte nCrcVal)).push (lowByte nCrcVal)

/-- `CreateSendBuffer`: the buffer with the number of bytes returned, if there is a buffer. -/
def createSendBuffer (pTxBuffer : Option (FixedBuffer UInt8 buffCacheSize)) (random : UInt16)
    (nId : UInt8) (pStart : List UInt8) (bWriteThrough : Bool) :
    Option (AppendBuffer UInt8 buffCacheSize 16) :=
  pTxBuffer.map fun pTxBuffer =>
    if bWriteThrough = false then createSendFrame pTxBuffer random nId pStart
    else ⟨pTxBuffer.writeAll 0 pStart, pStart.length⟩

/-- The bytes behind the head that the checksum covers. -/
def sendBody (random : UInt16) (nId : UInt8) (payload : List UInt8) : List UInt8 :=
  [highByte (UInt16.ofNat payload.length + 3), lowByte (UInt16.ofNat payload.length + 3), nId,
    highByte random, lowByte random] ++ payload

/-- The frame of a command. -/
def sendFrame (random : UInt16) (nId : UInt8) (payload : List UInt8) : List UInt8 :=
  protocolSendHead :: sendBody random nId payload ++
    [highByte (crc16 0xFFFF (sendBody random nId payload)),
      lowByte (crc16 0xFFFF (sendBody random nId payload))]

/-- The body is the five header bytes and the payload. -/
theorem sendBody_length (random : UInt16) (nId : UInt8) (payload : List UInt8) :
    (sendBody random nId payload).length = payload.length + 5 := by
  simp only [sendBody, List.length_append, List.length_cons, List.length_nil]
  omega

/-- A command's frame is eight bytes longer than its payload. -/
theorem sendFrame_length (random : UInt16) (nId : UInt8) (payload : List UInt8) :
    (sendFrame random nId payload).length = payload.length + 8 := by
  simp only [sendFrame, List.length_append, List.length_cons, List.length_nil, sendBody_length]

/-- `CreateSendBuffer` puts the frame of the command into the buffer. -/
theorem createSendFrame_holds (pTxBuffer : FixedBuffer UInt8 buffCacheSize)
    (hTxBuffer : pTxBuffer.overrun = false) (random : UInt16) (nId : UInt8) (payload : List UInt8)
    (hpayload : payload.length + 8 ≤ buffCacheSize) :
    (createSendFrame pTxBuffer random nId payload).Holds (sendFrame random nId payload) := by
  have hw : buffCacheSize < 2 ^ 16 := by decide
  let nSendSize := UInt16.ofNat payload.length + 3
  let header : List UInt8 :=
    [protocolSendHead, highByte nSendSize, lowByte nSendSize, nId, highByte random, lowByte random]
  have hempty : (⟨pTxBuffer, 0⟩ : AppendBuffer UInt8 buffCacheSize 16).Holds [] :=
    AppendBuffer.holds_nil pTxBuffer hTxBuffer
  have hheader := hempty.pushEach header (by change 6 ≤ 1200; decide) hw
  rw [List.nil_append] at hheader
  have hbody := hheader.pushEach payload (by change 6 + payload.length ≤ _; omega) hw
  change AppendBuffer.Holds _ (protocolSendHead :: sendBody random nId payload) at hbody
  set frame := AppendBuffer.pushEach (AppendBuffer.pushEach ⟨pTxBuffer, 0⟩ header) payload with hframe
  have hlength : (sendBody random nId payload).length = payload.length + 5 := sendBody_length ..
  have hsize : frame.size - 1 = (sendBody random nId payload).length := by
    rw [hbody.size, List.length_cons, Nat.add_sub_cancel]
  have hcrc : calculateCrc frame.buffer 1 (frame.size - 1) = crc16 0xFFFF (sendBody random nId payload) := by
    rw [hsize, calculateCrc, if_neg (by omega), Nat.mod_eq_of_lt (by omega),
      hbody.slice (by rw [List.length_cons]; omega)]
    exact congrArg _ List.take_length
  change ((frame.push (highByte (calculateCrc frame.buffer 1 (frame.size - 1)))).push
    (lowByte (calculateCrc frame.buffer 1 (frame.size - 1)))).Holds _
  rw [hcrc]
  refine hbody.pushEach [highByte (crc16 0xFFFF (sendBody random nId payload)),
    lowByte (crc16 0xFFFF (sendBody random nId payload))] ?_ hw
  simp only [List.length_cons, List.length_nil, hlength]
  omega

/-- Behind the head of a command of at most 252 bytes stands the high byte of a short length. -/
theorem highByte_sendSize {n : ℕ} (h : n ≤ 252) : highByte (UInt16.ofNat n + 3) = 0 := by
  have hsize : (UInt16.ofNat n + 3).toNat = n + 3 := by
    rw [UInt16.toNat_add, UInt16.toNat_ofNat']
    change (n % 2 ^ 16 + 3) % 2 ^ 16 = _
    omega
  apply UInt8.toNat.inj
  rw [highByte_toNat, hsize]
  exact Nat.div_eq_of_lt (by omega)

/-- The receiver of `main_process` does not finish the whole of what does not begin with its head. -/
theorem encode_ne_sendFrame (f : Frame) {random : UInt16} {nId : UInt8} {payload : List UInt8}
    (h : payload.length ≤ 252) : f.encode ≠ sendFrame random nId payload := by
  intro heq
  have hsecond := congrArg (fun l : List UInt8 => l.getD 1 0) heq
  change MainProcess.packedHead1 = highByte (UInt16.ofNat payload.length + 3) at hsecond
  rw [highByte_sendSize h] at hsecond
  exact absurd hsecond (by decide)

/-- Nothing that carries the command is finished while its frame is received. -/
theorem not_reported_of_payload (f : Frame) (random : UInt16) (nId : UInt8) {payload : List UInt8}
    (h : payload.length ≤ 252) (hpayload : f.payload = payload) :
    some f.encode ∉ MainProcess.protocolDecoder.reports [] (sendFrame random nId payload) := by
  intro hmem
  apply encode_ne_sendFrame f h
  apply FrameDecoder.eq_of_mem_reports MainProcess.protocolDecoder_suffixing hmem
  rw [sendFrame_length, f.encode_length, hpayload]

/-- The receiver of `main_process` understands the bytes of a command: it finishes one frame, which carries
the payload, and the tool accepts what it answers. -/
structure Understood (s : MainProcess.ProtocolInfo) (bytes : List RxByte) (payload : List UInt8)
    (rxBuffer : FixedBuffer UInt8 buffCacheSize) : Prop where
  finished : ∃ f : Frame, f.payload = payload ∧
    ((tcpRxRun s bytes).map RxEvent.finished).reduceOption = [f.encode]
  accepted : ∃ device p,
    device.flatten = ((tcpRxRun s bytes).flatMap RxEvent.replies).flatten ∧
      (toolReceiver rxBuffer device).checkReceiveData false = some (.ok, p)

/-- A command of at most 252 bytes is never understood, whatever its device id and packet id are. -/
theorem createSendBuffer_not_understood (pTxBuffer rxBuffer : FixedBuffer UInt8 buffCacheSize)
    (hTxBuffer : pTxBuffer.overrun = false) (random : UInt16) (nId : UInt8) (payload : List UInt8)
    (hpayload : payload.length ≤ 252) (frame : AppendBuffer UInt8 buffCacheSize 16)
    (hframe : createSendBuffer (some pTxBuffer) random nId payload false = some frame)
    (s : MainProcess.ProtocolInfo) (hstatus : s.rxStatus = .frameEmpty)
    (hintact : s.rxBuffer.overrun = false) (bytes : List RxByte)
    (hbytes : bytes.map RxByte.data = frame.written) : ¬ Understood s bytes payload rxBuffer := by
  rintro ⟨⟨f, hf, hfinished⟩, -⟩
  obtain rfl := Option.some.inj hframe
  have hholds := createSendFrame_holds pTxBuffer hTxBuffer random nId payload
    (by change payload.length + 8 ≤ 1200; omega)
  apply not_reported_of_payload f random nId hpayload hf
  have hreports := MainProcess.tcpRxRun_finished (MainProcess.represents_nil hstatus hintact) bytes
  rw [hbytes] at hreports
  change _ = MainProcess.protocolDecoder.reports [] (createSendFrame pTxBuffer random nId payload).written
    at hreports
  rw [hholds.written_eq] at hreports
  rw [← hreports, ← List.reduceOption_mem_iff, hfinished]
  exact List.mem_singleton_self _

/-- `led_on_cmd`. -/
def ledOnCmd : List UInt8 := [0x02, 0x00, 0x00, 0x00, 0x03, 0x03, 0x00, 0x01]

/-- The frame of `led_on_cmd` for the device 1, with the packet id 0. -/
def ledOnFrame : AppendBuffer UInt8 buffCacheSize 16 :=
  createSendFrame (FixedBuffer.filled _ 0) 0 1 ledOnCmd

/-- The receiver as it starts does not understand `led_on_cmd`. -/
theorem createSendBuffer_not_understood_ledOn :
    ¬ Understood .init (ledOnFrame.written.map (RxByte.mk 0)) ledOnCmd (FixedBuffer.filled _ 0) :=
  createSendBuffer_not_understood (FixedBuffer.filled _ 0) (FixedBuffer.filled _ 0) rfl 0 1 ledOnCmd
    (by decide) ledOnFrame rfl .init rfl rfl _
    (RxByte.map_data_map_mk 0 _)

/-- Not every command is understood. -/
theorem not_forall_understood : ¬ ∀ (pTxBuffer rxBuffer : FixedBuffer UInt8 buffCacheSize)
    (random : UInt16) (nId : UInt8) (payload : List UInt8) (frame : AppendBuffer UInt8 buffCacheSize 16)
    (bytes : List RxByte), pTxBuffer.overrun = false → payload.length ≤ 252 →
      createSendBuffer (some pTxBuffer) random nId payload false = some frame →
      bytes.map RxByte.data = frame.written → Understood .init bytes payload rxBuffer := by
  intro h
  have hledOn := h (FixedBuffer.filled _ 0) (FixedBuffer.filled _ 0) 0 1 ledOnCmd ledOnFrame
    (ledOnFrame.written.map (RxByte.mk 0)) rfl (by decide) rfl (RxByte.map_data_map_mk 0 _)
  obtain ⟨f, -, hfinished⟩ := hledOn.finished
  -- the receiver finishes nothing at all here
  have hnothing : ((tcpRxRun .init (ledOnFrame.written.map (RxByte.mk 0))).map
      RxEvent.finished).reduceOption = [] := by
    decide +kernel
  rw [hnothing] at hfinished
  contradiction

end RemoteManage.ManageTool

import RemoteManage.MainProcess.FrameStream

/-!
# Sending over the tx FIFO

`tcp_thread_manage::send_msg` and `protocol_info::send_data` take a length of 16 bits, while a frame has one
byte for it and `tx_buffer` has 264 bytes. The output frame is put together and queued without a look
at the length: up to 255 bytes it is a well-formed frame, with 256 bytes it fills the buffer and is no
frame, and with more it leaves the buffer.
-/

namespace RemoteManage.MainProcess

open RemoteManage.Foundation

/-- `fifo_manage::write` on a FIFO that blocks: the bytes queued, and what it returns. -/
def fifoWrite (isOpen : Bool) (buf : List UInt8) : List UInt8 × ℤ :=
  if isOpen = true ∧ 0 < buf.length then (buf, buf.length) else ([], -1)

/-- What a call leaves: the object, the buffer of the output frame, the bytes queued and the result. -/
structure SendResult where
  info : ProtocolInfo
  txBuffer : FixedBuffer UInt8 maxTxBufferLength
  queued : List UInt8
  result : ℤ

/-- `send_data`; what `write_tx_fifo` returns is not looked at. -/
def sendData (s : ProtocolInfo) (txBuffer : FixedBuffer UInt8 maxTxBufferLength) (isOpen : Bool)
    (pInput : List UInt8) : SendResult :=
  let (s, frame) := createOutputFrame s txBuffer pInput
  if frame.size > 0 then ⟨s, frame.buffer, (fifoWrite isOpen frame.written).1, frame.size⟩
  else ⟨s, frame.buffer, [], frame.size⟩

/-- `send_msg`. -/
def sendMsg (isValid : Bool) (s : ProtocolInfo) (txBuffer : FixedBuffer UInt8 maxTxBufferLength)
    (isOpen : Bool) (buffer : List UInt8) : SendResult :=
  if isValid then sendData s txBuffer isOpen buffer else ⟨s, txBuffer, [], -1⟩

/-- The two functions that send; `send_msg` asks the server whether it has a session. -/
inductive SendFunction where
  | sendMsg (isValid : Bool)
  | sendData
  deriving DecidableEq, Repr

/-- A call with a buffer whose length is a `uint16_t`. -/
structure SendCall where
  function : SendFunction
  input : List UInt8
  length_lt : input.length < 2 ^ 16

/-- The call, on an object and a stack that holds anything. -/
def SendCall.run (c : SendCall) (s : ProtocolInfo) (stack : Vector UInt8 maxTxBufferLength)
    (isOpen : Bool) : SendResult :=
  match c.function with
  | .sendMsg isValid => MainProcess.sendMsg isValid s ⟨stack, false⟩ isOpen c.input
  | .sendData => MainProcess.sendData s ⟨stack, false⟩ isOpen c.input

/-- The queued bytes are frames, and every receiver that waits for a frame finishes these frames and
no others; their payloads are the input. -/
def DecodesTo (queued input : List UInt8) : Prop :=
  ∀ (s : ProtocolInfo) (bytes : List RxByte), s.rxStatus = .frameEmpty → s.rxBuffer.overrun = false →
    bytes.map RxByte.data = queued →
      ∃ frames : List Frame, frames ≠ [] ∧ queued = (frames.map Frame.encode).flatten ∧
        ((tcpRxRun s bytes).map RxEvent.finished).reduceOption = frames.map Frame.encode ∧
        frames.flatMap Frame.payload = input

/-- Nothing is written outside the buffer, and either nothing is queued and the call fails, or the queued
bytes decode to the input. -/
structure SendResult.Safe (r : SendResult) (input : List UInt8) : Prop where
  inside : r.txBuffer.overrun = false
  outcome : (r.queued = [] ∧ r.result ≤ 0) ∨ DecodesTo r.queued input

/-- The call finds no session, or its input fits the length byte and the FIFO is open. -/
def SendCall.Fits (c : SendCall) (isOpen : Bool) : Prop :=
  c.function = .sendMsg false ∨ (c.input.length ≤ 255 ∧ isOpen = true)

section OutputFrame

variable (s : ProtocolInfo) (pOutput : FixedBuffer UInt8 maxTxBufferLength) (pInput : List UInt8)

/-- The header of an output frame is six bytes long. -/
theorem putHeader_output_holds (hOutput : pOutput.overrun = false) (sequence : UInt16) (func length : UInt8) :
    (putHeader (⟨pOutput, 0⟩ : AppendBuffer UInt8 maxTxBufferLength 16) sequence func length).Holds
      [packedHead0, packedHead1, highByte sequence, lowByte sequence, func, length] :=
  putHeader_holds (AppendBuffer.holds_nil pOutput hOutput) sequence func length (by decide) (by decide)

/-- The size of an output frame is a `uint16_t`. -/
theorem createOutputFrame_size (hOutput : pOutput.overrun = false) :
    (createOutputFrame s pOutput pInput).2.size = (pInput.length + protocolFrameLength) % 2 ^ 16 := by
  have hheader := putHeader_output_holds pOutput hOutput (s.sequenceNum + 1) 0 (UInt8.ofNat pInput.length)
  change ((((putHeader (⟨pOutput, 0⟩ : AppendBuffer UInt8 maxTxBufferLength 16) (s.sequenceNum + 1) 0
    (UInt8.ofNat pInput.length)).size + pInput.length) % 2 ^ 16 + 1) % 2 ^ 16 + 1) % 2 ^ 16 = _
  rw [hheader.size]
  simp only [List.length_cons, List.length_nil, protocolFrameLength]
  omega

/-- An output frame is inside `tx_buffer` up to 256 bytes of input. -/
theorem createOutputFrame_overrun_iff (hOutput : pOutput.overrun = false) :
    (createOutputFrame s pOutput pInput).2.buffer.overrun = false ↔ pInput.length ≤ 256 := by
  have hheader := putHeader_output_holds pOutput hOutput (s.sequenceNum + 1) 0 (UInt8.ofNat pInput.length)
  have hsize := hheader.size
  simp only [List.length_cons, List.length_nil] at hsize
  simp only [createOutputFrame, putCrc, AppendBuffer.push, AppendBuffer.pushAll,
    FixedBuffer.overrun_write_iff, FixedBuffer.overrun_writeAll_iff, hheader.intact, hsize, true_and,
    maxTxBufferLength]
  constructor
  · rintro ⟨⟨hinput, hfirst⟩, hsecond⟩
    by_contra hlong
    have hlast := hinput (pInput.length - 1) (by omega)
    omega
  · intro hle
    refine ⟨⟨fun k hk => ?_, ?_⟩, ?_⟩ <;> omega

end OutputFrame

/-- The bytes of a frame are finished once, as that frame. -/
theorem decodesTo_encode (f : Frame) : DecodesTo f.encode f.payload := by
  intro s bytes hstatus hintact hbytes
  have hreads := protocolDecoder_reads f
  refine ⟨[f], List.cons_ne_nil _ _, (List.append_nil _).symm, ?_, List.append_nil _⟩
  rw [tcpRxRun_finished (represents_nil hstatus hintact), hbytes,
    (FrameDecoder.reports_of_reads hreads [] f.encode rfl hreads.ne_nil).1,
    FrameDecoder.reduceOption_marks]
  rfl

/-- Frames are eight bytes longer than their payloads, each. -/
theorem length_flatten_encode (frames : List Frame) :
    (frames.map Frame.encode).flatten.length =
      (frames.flatMap Frame.payload).length + protocolFrameLength * frames.length := by
  induction frames with
  | nil => rfl
  | cons f rest ih =>
    rw [List.map_cons, List.flatten_cons, List.flatMap_cons, List.length_append, List.length_append, ih,
      f.encode_length, List.length_cons, Nat.mul_succ]
    omega

/-- No frames carry 256 bytes in 264. -/
theorem not_decodesTo_of_length {queued input : List UInt8} (hinput : input.length = 256)
    (hqueued : queued.length ≤ 264) : ¬ DecodesTo queued input := by
  intro h
  obtain ⟨frames, hne, hflatten, -, hpayload⟩ :=
    h .init (queued.map (RxByte.mk 0)) rfl rfl (RxByte.map_data_map_mk 0 queued)
  have htotal := length_flatten_encode frames
  rw [← hflatten, hpayload, hinput] at htotal
  -- one frame takes the eight bytes there are besides the payload, and is too short for it
  cases frames with
  | nil => exact hne rfl
  | cons f rest =>
    rw [List.length_cons, protocolFrameLength] at htotal
    obtain rfl : rest = [] := List.length_eq_zero_iff.mp (by omega)
    have hle := f.payload_le
    rw [List.flatMap_singleton] at hpayload
    rw [hpayload] at hle
    omega

/-- Nothing queued is no frame. -/
theorem not_decodesTo_nil (input : List UInt8) : ¬ DecodesTo [] input := by
  intro h
  obtain ⟨frames, hne, hflatten, -, -⟩ := h .init [] rfl rfl rfl
  have htotal := length_flatten_encode frames
  rw [← hflatten, List.length_nil, protocolFrameLength] at htotal
  exact hne (List.length_eq_zero_iff.mp (by omega))

variable (s : ProtocolInfo) (stack : Vector UInt8 maxTxBufferLength) (isOpen : Bool)

/-- Input that fits the length byte is queued as one frame when the FIFO is open. -/
theorem sendData_safe {pInput : List UInt8} (h : pInput.length ≤ 255) :
    (sendData s ⟨stack, false⟩ true pInput).Safe pInput := by
  have hholds := createOutputFrame_holds s ⟨stack, false⟩ rfl pInput h
  have hsize := hholds.size
  rw [Frame.encode_length] at hsize
  have hpos : (createOutputFrame s ⟨stack, false⟩ pInput).2.size > 0 := by
    rw [hsize]
    exact Nat.lt_add_left _ (by decide)
  rw [sendData]
  dsimp only
  rw [if_pos hpos]
  refine ⟨hholds.intact, .inr ?_⟩
  have hqueued : 0 < (createOutputFrame s ⟨stack, false⟩ pInput).2.written.length := by
    rw [hholds.written_eq, Frame.encode_length]
    exact Nat.lt_add_left _ (by decide)
  rw [fifoWrite, if_pos ⟨rfl, hqueued⟩, hholds.written_eq]
  exact decodesTo_encode _

/-- A FIFO that is not open takes nothing. -/
theorem fifoWrite_closed (buf : List UInt8) : (fifoWrite false buf).1 = [] := rfl

/-- The FIFO takes what it is given or nothing. -/
theorem fifoWrite_length_le (buf : List UInt8) : (fifoWrite isOpen buf).1.length ≤ buf.length := by
  unfold fifoWrite
  split
  · exact Nat.le_refl _
  · exact Nat.zero_le _

/-- `send_data` keeps its promise exactly for input that fits the length byte, with the FIFO open. -/
theorem sendData_safe_iff (pInput : List UInt8) :
    (sendData s ⟨stack, false⟩ isOpen pInput).Safe pInput ↔ pInput.length ≤ 255 ∧ isOpen = true := by
  constructor
  · intro h
    have hbuffer : (createOutputFrame s ⟨stack, false⟩ pInput).2.buffer.overrun = false := by
      have hinside := h.inside
      rw [sendData] at hinside
      dsimp only at hinside
      split at hinside <;> exact hinside
    have hle := (createOutputFrame_overrun_iff s ⟨stack, false⟩ pInput rfl).mp hbuffer
    have hsize := createOutputFrame_size s ⟨stack, false⟩ pInput rfl
    rw [protocolFrameLength, Nat.mod_eq_of_lt (by omega)] at hsize
    have houtcome := h.outcome
    rw [sendData] at houtcome
    dsimp only at houtcome
    rw [if_pos (by omega)] at houtcome
    rcases houtcome with ⟨-, hfailed⟩ | hdecodes
    · dsimp only at hfailed
      omega
    cases isOpen with
    | false =>
      rw [fifoWrite_closed] at hdecodes
      exact absurd hdecodes (not_decodesTo_nil _)
    | true =>
      refine ⟨?_, rfl⟩
      by_contra hlong
      refine not_decodesTo_of_length (by omega) ?_ hdecodes
      refine (fifoWrite_length_le true _).trans ?_
      rw [AppendBuffer.written_length]
      exact Nat.min_le_right _ _
  · rintro ⟨hle, rfl⟩
    exact sendData_safe s stack hle

/-- Every call keeps its promise exactly when it finds no session, or its input fits the length byte and
the FIFO is open. -/
theorem sendCall_safe_iff (c : SendCall) : (c.run s stack isOpen).Safe c.input ↔ c.Fits isOpen := by
  obtain ⟨function, input, -⟩ := c
  cases function with
  | sendData =>
    refine (sendData_safe_iff s stack isOpen input).trans ?_
    exact (or_iff_right (fun h : SendFunction.sendData = _ => SendFunction.noConfusion h)).symm
  | sendMsg isValid =>
    cases isValid with
    | false => exact iff_of_true ⟨rfl, .inl ⟨rfl, by change (-1 : ℤ) ≤ 0; decide⟩⟩ (.inl rfl)
    | true =>
      refine (sendData_safe_iff s stack isOpen input).trans ?_
      exact (or_iff_right (fun h : SendFunction.sendMsg true = _ => by cases h)).symm

/-- A call of `send_data` with 256 zeros. -/
def sendZeros : SendCall := ⟨.sendData, List.replicate 256 0, by rw [List.length_replicate]; decide⟩

/-- 256 bytes are queued as a frame that says it has none. -/
theorem not_forall_sendCall_safe : ¬ ∀ (c : SendCall) (s : ProtocolInfo)
    (stack : Vector UInt8 maxTxBufferLength), (c.run s stack true).Safe c.input := by
  intro h
  have hfits : (List.replicate 256 (0 : UInt8)).length ≤ 255 :=
    ((sendData_safe_iff .init (.replicate _ 0) true sendZeros.input).mp
      (h sendZeros .init (.replicate _ 0))).1
  rw [List.length_replicate] at hfits
  omega

end RemoteManage.MainProcess

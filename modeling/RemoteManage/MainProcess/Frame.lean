import RemoteManage.MainProcess.Protocol

/-!
# Well-formed frames and the two encoders

`Frame` is a frame of the protocol as a value: its sequence number, its function byte and
a payload that a length byte can describe. `create_output_frame` and `send_func_data` are
written independently of each other in the source; both are shown to put the encoding of
such a frame into their buffers and to stay inside them.
-/

namespace RemoteManage.MainProcess

open RemoteManage.Foundation

/-- A frame of the protocol; its payload length fits the length byte. -/
structure Frame where
  sequence : UInt16
  func : UInt8
  payload : List UInt8
  payload_le : payload.length ≤ 255

namespace Frame

/-- The bytes the checksum is taken over. -/
def body (f : Frame) : List UInt8 :=
  [highByte f.sequence, lowByte f.sequence, f.func, UInt8.ofNat f.payload.length] ++ f.payload

/-- The bytes of the frame on the wire. -/
def encode (f : Frame) : List UInt8 :=
  [packedHead0, packedHead1] ++ f.body ++
    [highByte (calculateCrc f.body), lowByte (calculateCrc f.body)]

/-- The body is the four header bytes and the payload. -/
theorem body_length (f : Frame) : f.body.length = f.payload.length + 4 := by
  simp only [body, List.length_append, List.length_cons, List.length_nil]
  omega

/-- A frame is eight bytes longer than its payload. -/
theorem encode_length (f : Frame) : f.encode.length = f.payload.length + protocolFrameLength := by
  simp only [encode, body_length, List.length_append, List.length_cons, List.length_nil,
    protocolFrameLength]
  omega

/-- The length byte is the payload length. -/
theorem lengthByte_toNat (f : Frame) : (UInt8.ofNat f.payload.length).toNat = f.payload.length := by
  have h := f.payload_le
  rw [UInt8.toNat_ofNat']
  exact Nat.mod_eq_of_lt (by omega)

/-- The acknowledgement of a sequence number. -/
def ack (sequence : UInt16) : Frame := ⟨sequence, functionAck, [], by decide⟩

/-- A frame without payload and with any function byte. -/
def empty (sequence : UInt16) (func : UInt8) : Frame := ⟨sequence, func, [], by decide⟩

end Frame

section Encoders

variable {n w : ℕ} {frame : AppendBuffer UInt8 n w}

/-- The checksum part of a buffer that holds the head and a body is that body. -/
theorem slice_of_holds_head {body : List UInt8} {k : ℕ}
    (h : frame.Holds ([packedHead0, packedHead1] ++ body)) (hk : k = body.length) :
    frame.buffer.slice 2 k = body := by
  subst hk
  rw [h.slice (by rw [List.length_append, List.length_cons, List.length_singleton])]
  exact List.take_length

/-- The header writes put six bytes into an empty buffer. -/
theorem putHeader_holds (h : frame.Holds []) (sequence : UInt16) (func length : UInt8)
    (hroom : 6 ≤ n) (hw : n < 2 ^ w) :
    (putHeader frame sequence func length).Holds
      [packedHead0, packedHead1, highByte sequence, lowByte sequence, func, length] :=
  h.pushEach [packedHead0, packedHead1, highByte sequence, lowByte sequence, func, length] hroom hw

/-- The checksum writes put two bytes behind what is there. -/
theorem putCrc_holds {l : List UInt8} (h : frame.Holds l) (crcCheck : UInt16)
    (hroom : l.length + 2 ≤ n) (hw : n < 2 ^ w) :
    (putCrc frame crcCheck).Holds (l ++ [highByte crcCheck, lowByte crcCheck]) :=
  h.pushEach [highByte crcCheck, lowByte crcCheck] hroom hw

end Encoders

/-- `send_func_data` hands on the encoding of an empty frame with the given function byte. -/
theorem sendFuncData_holds (buffer : FixedBuffer UInt8 64) (hbuffer : buffer.overrun = false)
    (sequence : UInt16) (func : UInt8) :
    (sendFuncData buffer sequence func).Holds (Frame.empty sequence func).encode := by
  have hw : 64 < 2 ^ 8 := by decide
  have hempty : (⟨buffer, 0⟩ : AppendBuffer UInt8 64 8).Holds [] := AppendBuffer.holds_nil buffer hbuffer
  let frame : AppendBuffer UInt8 64 8 := putHeader ⟨buffer, 0⟩ sequence func 0
  have hheader : frame.Holds ([packedHead0, packedHead1] ++ (Frame.empty sequence func).body) :=
    putHeader_holds hempty sequence func 0 (by decide) hw
  have hcrc : frame.buffer.slice 2 (frame.size - 2) = (Frame.empty sequence func).body := by
    apply slice_of_holds_head hheader
    rw [hheader.size]
    rfl
  change (putCrc frame (calculateCrc (frame.buffer.slice 2 (frame.size - 2)))).Holds
    (Frame.empty sequence func).encode
  rw [hcrc]
  have hroom : ([packedHead0, packedHead1] ++ (Frame.empty sequence func).body).length + 2 ≤ 64 := by
    rw [List.length_append, Frame.body_length]
    change 2 + (0 + 4) + 2 ≤ 64
    omega
  exact putCrc_holds hheader _ hroom hw

/-- `create_output_frame` produces the encoding of a data frame with the next sequence
number, for every payload that the length byte can describe. -/
theorem createOutputFrame_holds (s : ProtocolInfo) (pOutput : FixedBuffer UInt8 maxTxBufferLength)
    (hOutput : pOutput.overrun = false) (payload : List UInt8) (hpayload : payload.length ≤ 255) :
    (createOutputFrame s pOutput payload).2.Holds
        (Frame.mk (s.sequenceNum + 1) 0 payload hpayload).encode := by
  have hw : maxTxBufferLength < 2 ^ 16 := by decide
  let f := Frame.mk (s.sequenceNum + 1) 0 payload hpayload
  have hempty : (⟨pOutput, 0⟩ : AppendBuffer UInt8 maxTxBufferLength 16).Holds [] :=
    AppendBuffer.holds_nil pOutput hOutput
  have hheader := putHeader_holds hempty f.sequence 0 (UInt8.ofNat payload.length) (by decide) hw
  have hroom : 6 + payload.length + 2 ≤ maxTxBufferLength := by
    change 6 + payload.length + 2 ≤ 264
    omega
  let frame : AppendBuffer UInt8 maxTxBufferLength 16 :=
    (putHeader ⟨pOutput, 0⟩ f.sequence 0 (UInt8.ofNat payload.length)).pushAll payload
  have hbody : frame.Holds ([packedHead0, packedHead1] ++ f.body) :=
    hheader.pushAll payload (by simpa using (by omega : 6 + payload.length ≤ maxTxBufferLength)) hw
  have hlength : ([packedHead0, packedHead1] ++ f.body).length = 6 + payload.length := by
    rw [List.length_append, f.body_length]
    change 2 + (payload.length + 4) = _
    omega
  have hcrc : frame.buffer.slice 2 ((frame.size + 2 ^ 16 - 2) % 2 ^ 16) = f.body := by
    apply slice_of_holds_head hbody
    rw [hbody.size, hlength, f.body_length]
    change _ = payload.length + 4
    omega
  change (putCrc frame (calculateCrc (frame.buffer.slice 2 ((frame.size + 2 ^ 16 - 2) % 2 ^ 16)))).Holds
    f.encode
  rw [hcrc]
  exact putCrc_holds hbody _ (by omega) hw

end RemoteManage.MainProcess

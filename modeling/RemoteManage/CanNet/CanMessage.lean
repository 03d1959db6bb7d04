import RemoteManage.CanNet.CanDecoder

/-!
# Messages of the CAN protocol

A message is the data of a request or of an answer, short enough for the frame buffers. The
encoder puts its frame into the output buffer, the decoder reads every such frame, and
`can_write_buffer` cuts the bytes of an answer into CAN frames without losing any.
-/

namespace RemoteManage.CanNet

open RemoteManage.Foundation

/-- What the checksum of a frame with the given command and data is taken over. -/
def frameBody (cmd : UInt8) (data : List UInt8) : List UInt8 :=
  [canUiHeadr, canProtocolVersion, cmd, highByte (UInt16.ofNat data.length),
    lowByte (UInt16.ofNat data.length)] ++ data

/-- The bytes of the frame with the given command and data. -/
def frameBytes (cmd : UInt8) (data : List UInt8) : List UInt8 :=
  frameBody cmd data ++
    [highByte (crc16Modbus (frameBody cmd data)), lowByte (crc16Modbus (frameBody cmd data))]

/-- The body is the five header bytes and the data. -/
theorem frameBody_length (cmd : UInt8) (data : List UInt8) :
    (frameBody cmd data).length = data.length + 5 := by
  simp only [frameBody, List.length_append, List.length_cons, List.length_nil]
  omega

/-- Data that fits a frame of the protocol. -/
structure CanMessage where
  data : List UInt8
  data_le : data.length ≤ 541

namespace CanMessage

/-- The bytes of the frame with the given command. -/
def encode (cmd : UInt8) (m : CanMessage) : List UInt8 := frameBytes cmd m.data

/-- A frame is seven bytes longer than its data. -/
theorem encode_length (cmd : UInt8) (m : CanMessage) : (m.encode cmd).length = m.data.length + 7 := by
  simp only [encode, frameBytes, List.length_append, frameBody_length, List.length_cons, List.length_nil]

/-- A frame fits the buffers. -/
theorem encode_length_le (cmd : UInt8) (m : CanMessage) : (m.encode cmd).length ≤ maxFrameBuffer := by
  have hdata := m.data_le
  rw [encode_length]
  simp only [maxFrameBuffer]
  omega

/-- The length field is the length of the data. -/
theorem lengthField_toNat (m : CanMessage) : (UInt16.ofNat m.data.length).toNat = m.data.length := by
  have hdata := m.data_le
  rw [UInt16.toNat_ofNat']
  exact Nat.mod_eq_of_lt (by omega)

/-- A frame is as long as it announces. -/
theorem frameSizeOf_encode (cmd : UInt8) (m : CanMessage) :
    frameSizeOf (m.encode cmd) = m.data.length + 7 := by
  have hfield : joinBytes (highByte (UInt16.ofNat m.data.length)) (lowByte (UInt16.ofNat m.data.length)) =
      UInt16.ofNat m.data.length := joinBytes_highByte_lowByte _
  change (joinBytes (highByte (UInt16.ofNat m.data.length))
    (lowByte (UInt16.ofNat m.data.length))).toNat + 7 = _
  rw [hfield, m.lengthField_toNat]

/-- The frame size minus the checksum is the length of the body. -/
theorem frameSizeOf_encode_sub (cmd : UInt8) (m : CanMessage) :
    frameSizeOf (m.encode cmd) - 2 = (frameBody cmd m.data).length := by
  rw [frameSizeOf_encode, frameBody_length]
  omega

/-- A frame carries the checksum of its body. -/
theorem storedChecksum_encode (cmd : UInt8) (m : CanMessage) :
    storedChecksum (m.encode cmd) = computedChecksum (m.encode cmd) := by
  have hlast : frameSizeOf (m.encode cmd) - 1 = (frameBody cmd m.data).length + 1 := by
    rw [frameSizeOf_encode, frameBody_length]
    omega
  have hbody : (m.encode cmd).take (frameBody cmd m.data).length = frameBody cmd m.data := List.take_left
  have hstored := joinBytes_getD_append (frameBody cmd m.data) (highByte (crc16Modbus (frameBody cmd m.data)))
    (lowByte (crc16Modbus (frameBody cmd m.data)))
  rw [joinBytes_highByte_lowByte] at hstored
  rw [storedChecksum, computedChecksum, hlast, frameSizeOf_encode_sub, hbody]
  exact hstored

/-- A first part of a frame that is shorter announces more than it has. -/
theorem length_lt_frameSizeOf (cmd : UInt8) (m : CanMessage) (held rest : List UInt8)
    (hm : m.encode cmd = held ++ rest) (hrest : rest ≠ []) (hlen : canHeadSize < held.length) :
    held.length < frameSizeOf held ∧ frameSizeOf held ≤ maxFrameBuffer := by
  have hsame : frameSizeOf held = frameSizeOf (m.encode cmd) := by
    rw [hm, frameSizeOf_append _ _ (Nat.le_of_lt hlen)]
  have htotal := congrArg List.length hm
  have hle := m.encode_length_le cmd
  have hpos := List.length_pos_iff.mpr hrest
  rw [List.length_append] at htotal
  rw [hsame, frameSizeOf_encode, ← m.encode_length cmd]
  omega

/-- Every frame is read byte by byte and completed by its last byte. -/
theorem reads (cmd : UInt8) (m : CanMessage) : canDecoder.Reads (m.encode cmd) where
  ne_nil := by simp [encode, frameBytes, frameBody]
  hold held x rest hm hrest := by
    cases held with
    | nil =>
      have hx : canUiHeadr = x := (List.cons.inj hm).1
      rw [canDecoder_idle, if_pos hx.symm]
      rfl
    | cons first held =>
      obtain rfl : canUiHeadr = first := (List.cons.inj hm).1
      have hsplit : m.encode cmd = (canUiHeadr :: held ++ [x]) ++ rest := by
        rw [hm, List.append_assoc, List.singleton_append]
      rw [canDecoder_receiving]
      dsimp only
      split
      · next hlen =>
        obtain ⟨hlt, hle⟩ := m.length_lt_frameSizeOf cmd _ rest hsplit hrest hlen
        rw [if_neg (Nat.not_lt.mpr hle), if_neg (Nat.not_le.mpr hlt)]
      · rfl
  complete held x hm := by
    have hlength := m.encode_length cmd
    cases held with
    | nil =>
      rw [hm] at hlength
      simp at hlength
    | cons first held =>
      obtain rfl : canUiHeadr = first := (List.cons.inj hm).1
      have hle := m.encode_length_le cmd
      have haccepted : accepted (m.encode cmd) = true :=
        (accepted_iff _).mpr (.inl (m.storedChecksum_encode cmd))
      have hsize : frameSizeOf (m.encode cmd) = (m.encode cmd).length := by
        rw [m.frameSizeOf_encode, m.encode_length]
      rw [canDecoder_receiving, ← hm]
      dsimp only
      rw [hsize, if_pos (by rw [hlength]; simp only [canHeadSize]; omega), if_neg (Nat.not_lt.mpr hle),
        if_pos (le_refl _), if_pos haccepted]

end CanMessage

/-- With or without data, behind the test for it the data stands behind what was held. -/
theorem copyData_holds {out : AppendBuffer UInt8 maxFrameBuffer 16} {l : List UInt8} (h : out.Holds l)
    (m : CanMessage) (hroom : l.length + m.data.length ≤ maxFrameBuffer) :
    (if 0 < UInt16.ofNat m.data.length then out.pushAll m.data else out).Holds (l ++ m.data) := by
  split
  · exact h.pushAll m.data hroom (by decide)
  · next hnone =>
    have hzero : (UInt16.ofNat m.data.length).toNat = 0 :=
      Nat.le_zero.mp (UInt16.le_iff_toNat_le.mp (UInt16.not_lt.mp hnone))
    rw [m.lengthField_toNat] at hzero
    rwa [List.length_eq_zero_iff.mp hzero, List.append_nil]

/-- `create_can_tx_buffer` puts the frame of a message into the output buffer. -/
theorem createCanTxBuffer_holds (cmd : UInt8) (m : CanMessage)
    (outBuffer : FixedBuffer UInt8 maxFrameBuffer) (hout : outBuffer.overrun = false) :
    (createCanTxBuffer cmd m.data outBuffer).Holds (m.encode cmd) := by
  have hw : maxFrameBuffer < 2 ^ 16 := by decide
  have hdata := m.data_le
  have hempty : (⟨outBuffer, 0⟩ : AppendBuffer UInt8 maxFrameBuffer 16).Holds [] :=
    AppendBuffer.holds_nil outBuffer hout
  let len := UInt16.ofNat m.data.length
  let header := (⟨outBuffer, 0⟩ : AppendBuffer UInt8 maxFrameBuffer 16).pushEach
    [canUiHeadr, canProtocolVersion, cmd, highByte len, lowByte len]
  have hheader : header.Holds [canUiHeadr, canProtocolVersion, cmd, highByte len, lowByte len] :=
    hempty.pushEach _ (by change 0 + 5 ≤ 548; omega) hw
  let out := if 0 < len then header.pushAll m.data else header
  have hbody : out.Holds (frameBody cmd m.data) :=
    copyData_holds hheader m (by change 5 + m.data.length ≤ 548; omega)
  have hcrc : out.buffer.slice 0 out.size = frameBody cmd m.data := by
    rw [hbody.size, hbody.slice (by omega)]
    exact List.take_length
  have hroom : (frameBody cmd m.data).length + 2 ≤ maxFrameBuffer := by
    rw [frameBody_length]
    change m.data.length + 5 + 2 ≤ 548
    omega
  change ((out.push (highByte (crc16Modbus (out.buffer.slice 0 out.size)))).push
    (lowByte (crc16Modbus (out.buffer.slice 0 out.size)))).Holds (m.encode cmd)
  rw [hcrc]
  exact hbody.pushEach [highByte _, lowByte _] hroom hw

end RemoteManage.CanNet

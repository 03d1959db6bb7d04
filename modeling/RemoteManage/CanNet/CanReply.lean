import RemoteManage.CanNet.CanMessage

/-!
# Answers and the CAN frames that carry them

`protocol_process` answers a complete frame by a frame with the same data, or not at all, and
`can_write_buffer` cuts the answer into CAN frames. Both are stated on byte sequences: the
answer is a function of the frame, and the payloads of the CAN frames are the answer.
-/

namespace RemoteManage.CanNet

open RemoteManage.Foundation

/-- The data of a frame: what stands between the header and the checksum. -/
def frameData (f : List UInt8) : List UInt8 := (f.drop 5).take (f.length - 7)

/-- The answer to a complete frame; none for a version or a command that is not supported. -/
def canReply (f : List UInt8) : List UInt8 :=
  if canProtocolVersion < f.getD 1 0 then []
  else if f.getD 2 0 = canRequestShowInfo then frameBytes canResponseShowInfo (frameData f)
  else []

/-- The data of a frame that fits the buffers fits a frame again. -/
theorem frameData_length_le {f : List UInt8} (h : f.length ≤ maxFrameBuffer) :
    (frameData f).length ≤ 541 := by
  simp only [maxFrameBuffer] at h
  simp only [frameData, List.length_take, List.length_drop]
  omega

/-- The data of the frame of a message is the message. -/
theorem frameData_encode (cmd : UInt8) (m : CanMessage) : frameData (m.encode cmd) = m.data := by
  rw [frameData, m.encode_length, Nat.add_sub_cancel]
  change (m.data ++ _).take m.data.length = m.data
  exact List.take_left

/-- A request is answered with its own data. -/
theorem canReply_request (m : CanMessage) :
    canReply (m.encode canRequestShowInfo) = m.encode canResponseShowInfo := by
  have hdata := frameData_encode canRequestShowInfo m
  unfold canReply
  rw [hdata]
  rfl

/-- The buffer holds a complete frame whose checksum is no longer counted. -/
structure HoldsFrame (s : CanProtocol) (f : List UInt8) : Prop where
  size : s.rxFramesize + 2 = f.length
  contents : s.rxFramebuffer.contents f.length = f
  seven_le : 7 ≤ f.length
  length_le : f.length ≤ maxFrameBuffer

namespace HoldsFrame

variable {s : CanProtocol} {f : List UInt8}

/-- The code reads the bytes of the frame. -/
theorem read (h : HoldsFrame s f) {i : ℕ} (hi : i < f.length) : s.rxFramebuffer.read i = f.getD i 0 :=
  s.rxFramebuffer.read_eq_of_contents h.contents hi 0

/-- What the code takes for the data is the data of the frame. -/
theorem data (h : HoldsFrame s f) : s.rxFramebuffer.slice 5 (s.rxFramesize - 5) = frameData f := by
  have hsize := h.size
  have hseven := h.seven_le
  rw [s.rxFramebuffer.slice_eq_of_contents h.contents (by omega), frameData]
  congr 1
  omega

/-- `protocol_process` puts the answer into the transmit buffer, inside its bounds. -/
theorem protocolProcess (h : HoldsFrame s f) (txBuffer : FixedBuffer UInt8 maxFrameBuffer)
    (htx : txBuffer.overrun = false) :
    (protocolProcess s txBuffer).1.overrun = false ∧
      (protocolProcess s txBuffer).2.toNat ≤ maxFrameBuffer ∧
      (protocolProcess s txBuffer).1.contents (protocolProcess s txBuffer).2.toNat = canReply f := by
  have hseven := h.seven_le
  have hversion : s.rxFramebuffer.read 1 = f.getD 1 0 := h.read (by omega)
  have hcmd : s.rxFramebuffer.read 2 = f.getD 2 0 := h.read (by omega)
  unfold CanNet.protocolProcess canReply
  dsimp only
  rw [hversion, hcmd, h.data]
  split
  · exact ⟨htx, Nat.zero_le _, rfl⟩
  · split
    · have hout := createCanTxBuffer_holds canResponseShowInfo ⟨frameData f, frameData_length_le h.length_le⟩
        txBuffer htx
      exact ⟨hout.intact, hout.size.trans_le hout.length_le, hout.written_eq⟩
    · exact ⟨htx, Nat.zero_le _, rfl⟩

end HoldsFrame

/-- The CAN frames carry the bytes, one part after the other, and only the last one is not full. -/
structure Fragments (frames : List CanFrame) (bytes : List UInt8) : Prop where
  payloads : frames.flatMap CanFrame.payload = bytes
  dlc_bounds : ∀ f ∈ frames, 1 ≤ f.canDlc ∧ f.canDlc ≤ canMaxDlen
  full : ∀ f ∈ frames.dropLast, f.canDlc = canMaxDlen

/-- A loaded frame carries the bytes it has been loaded with. -/
theorem CanFrame.load_payload (frame : CanFrame) (id : UInt32) (bytes : List UInt8)
    (h : bytes.length ≤ canMaxDlen) : (frame.load id bytes).payload = bytes :=
  frame.data.writeAll_zero_contents bytes h

section Fragmentation

variable (id : UInt32) (buffer : FixedBuffer UInt8 maxFrameBuffer)

/-- The loop over the full frames writes eight bytes of the buffer after the other. -/
theorem writeFullFrames_fragments (nums ptr : ℕ) (frame : CanFrame)
    (h : ptr + nums * canMaxDlen ≤ maxFrameBuffer) :
    (writeFullFrames id buffer nums ptr frame).2.flatMap CanFrame.payload =
        buffer.slice ptr (nums * canMaxDlen) ∧
      ∀ f ∈ (writeFullFrames id buffer nums ptr frame).2, f.canDlc = canMaxDlen := by
  induction nums generalizing ptr frame with
  | zero =>
    rw [Nat.zero_mul]
    exact ⟨rfl, fun f hf => absurd hf List.not_mem_nil⟩
  | succ nums ih =>
    simp only [Nat.add_mul, Nat.one_mul, canMaxDlen, maxFrameBuffer] at h ih
    have hlen : (buffer.slice ptr canMaxDlen).length = canMaxDlen :=
      buffer.slice_length (by simp only [canMaxDlen, maxFrameBuffer]; omega)
    obtain ⟨hrest, hfull⟩ := ih (ptr + 8) (frame.load id (buffer.slice ptr canMaxDlen)) (by omega)
    constructor
    · rw [Nat.succ_mul, Nat.add_comm (nums * canMaxDlen), buffer.slice_add, writeFullFrames,
        List.flatMap_cons, CanFrame.load_payload _ _ _ (le_of_eq hlen)]
      exact congrArg _ hrest
    · intro f hf
      rcases List.mem_cons.mp hf with rfl | hf
      · exact hlen
      · exact hfull f hf

/-- `can_write_buffer` writes frames that carry the first bytes of the buffer. -/
theorem canWriteBuffer_fragments (len : ℕ) (frame : CanFrame) (h : len ≤ maxFrameBuffer) :
    Fragments (canWriteBuffer id buffer len frame).2 (buffer.contents len) := by
  have hsplit : len / canMaxDlen * canMaxDlen + len % canMaxDlen = len := Nat.div_add_mod' _ _
  have hoffset : len % canMaxDlen < canMaxDlen := Nat.mod_lt _ (by decide)
  obtain ⟨hpayloads, hfull⟩ :=
    writeFullFrames_fragments id buffer (len / canMaxDlen) 0 frame (by omega)
  have hcontents : buffer.contents len = buffer.slice 0 (len / canMaxDlen * canMaxDlen) ++
      buffer.slice (len / canMaxDlen * canMaxDlen) (len % canMaxDlen) := by
    have hadd := buffer.slice_add 0 (len / canMaxDlen * canMaxDlen) (len % canMaxDlen)
    rwa [Nat.zero_add, hsplit] at hadd
  have hbounds (f : CanFrame) (hf : f.canDlc = canMaxDlen) : 1 ≤ f.canDlc ∧ f.canDlc ≤ canMaxDlen := by
    rw [hf]
    decide
  unfold canWriteBuffer
  dsimp only
  split
  · next hpos =>
    have hlen : (buffer.slice (len / canMaxDlen * canMaxDlen) (len % canMaxDlen)).length =
        len % canMaxDlen := buffer.slice_length (by omega)
    refine ⟨?_, ?_, ?_⟩
    · rw [List.flatMap_append, List.flatMap_singleton, hpayloads, hcontents,
        CanFrame.load_payload _ _ _ (hlen.trans_le (Nat.le_of_lt hoffset))]
    · intro f hf
      rcases List.mem_append.mp hf with hf | hf
      · exact hbounds f (hfull f hf)
      · have hdlc : f.canDlc = len % canMaxDlen := by
          rw [List.mem_singleton.mp hf]
          exact hlen
        rw [hdlc]
        exact ⟨hpos, Nat.le_of_lt hoffset⟩
    · intro f hf
      rw [List.dropLast_concat] at hf
      exact hfull f hf
  · next hnone =>
    have hzero : len % canMaxDlen = 0 := Nat.eq_zero_of_not_pos hnone
    refine ⟨?_, fun f hf => hbounds f (hfull f hf), fun f hf => hfull f (List.dropLast_subset _ hf)⟩
    rw [hpayloads, hcontents, hzero]
    exact (List.append_nil _).symm

end Fragmentation

end RemoteManage.CanNet

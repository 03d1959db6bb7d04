import RemoteManage.MainProcess.SendData

/-!
# Noise in front of a frame

The receiver hunts for the two bytes of the head, and lets the first of them repeat. Bytes in which the
head does not occur leave it waiting, with the first byte of the head or nothing, so the next frame
is finished at its last byte; and a frame given up for its checksum leaves nothing but stale bytes.
The frame has to be one: an output frame with more than 255 bytes of input is not.
-/

namespace RemoteManage.MainProcess

open RemoteManage.Foundation

/-- No occurrence of the head. -/
def HeadFree (w : List UInt8) : Prop := ¬ [packedHead0, packedHead1] <:+: w

/-- What noise leaves held: nothing or the first byte of the head. -/
def Waiting (held : List UInt8) : Prop := held = [] ∨ held = [packedHead0]

/-- A byte that does not complete the head keeps the decoder waiting. -/
theorem protocolDecoder_waiting {held : List UInt8} (h : Waiting held) {data : UInt8}
    (hfree : HeadFree (held ++ [data])) :
    (protocolDecoder held data).completed = none ∧ Waiting (protocolDecoder held data).held ∧
      (protocolDecoder held data).held <:+ held ++ [data] := by
  rcases h with rfl | rfl
  · rw [protocolDecoder_idle]
    split
    · next hdata => exact ⟨rfl, .inr (congrArg ([·]) hdata), List.suffix_refl _⟩
    · exact ⟨rfl, .inl rfl, List.nil_suffix⟩
  · rw [protocolDecoder_head]
    split
    · next hdata => exact ⟨rfl, .inr rfl, hdata ▸ List.suffix_cons _ _⟩
    · split
      · next hdata => exact absurd (hdata ▸ List.infix_refl _) hfree
      · exact ⟨rfl, .inl rfl, List.nil_suffix⟩

/-- Noise is reported as nothing and leaves the decoder waiting. -/
theorem reports_noise {held : List UInt8} (h : Waiting held) (w : List UInt8) (hfree : HeadFree (held ++ w)) :
    protocolDecoder.reports held w = List.replicate w.length none ∧
      Waiting (protocolDecoder.heldAfter held w) := by
  induction w generalizing held with
  | nil => exact ⟨rfl, h⟩
  | cons data rest ih =>
    rw [← List.singleton_append, ← List.append_assoc] at hfree
    have hfirst : HeadFree (held ++ [data]) :=
      fun hoccurs => hfree (hoccurs.trans (List.prefix_append _ _).isInfix)
    obtain ⟨hnone, hwaiting, before, hsuffix⟩ := protocolDecoder_waiting h hfirst
    have hrest : HeadFree ((protocolDecoder held data).held ++ rest) := by
      intro hoccurs
      apply hfree
      rw [← hsuffix, List.append_assoc]
      exact hoccurs.trans (List.suffix_append _ _).isInfix
    obtain ⟨hreports, hheld⟩ := ih hwaiting hrest
    refine ⟨?_, hheld⟩
    change (protocolDecoder held data).completed ::
      protocolDecoder.reports (protocolDecoder held data).held rest = _
    rw [hnone, hreports]
    rfl

/-- A waiting decoder reports a frame at its last byte. -/
theorem reports_encode_of_waiting {held : List UInt8} (h : Waiting held) (f : Frame) :
    protocolDecoder.reports held f.encode = FrameDecoder.marks f.encode f.encode := by
  have hreads := protocolDecoder_reads f
  rcases h with rfl | rfl
  · exact (FrameDecoder.reports_of_reads hreads [] f.encode rfl hreads.ne_nil).1
  · -- the first byte of the frame only repeats the byte held
    have hlen := f.encode_length
    obtain ⟨rest, hf⟩ : ∃ rest, f.encode = [packedHead0] ++ rest := ⟨_, rfl⟩
    have hrest : rest ≠ [] := by
      rintro rfl
      rw [hf] at hlen
      simp [protocolFrameLength] at hlen
    have hreports := (FrameDecoder.reports_of_reads hreads [packedHead0] rest hf hrest).1
    change protocolDecoder.reports [packedHead0] f.encode = _
    nth_rewrite 1 [hf]
    change none :: protocolDecoder.reports [packedHead0] rest = _
    rw [hreports, FrameDecoder.marks, FrameDecoder.marks, ← List.cons_append, ← List.replicate_succ]
    have hlength : rest.length - 1 + 1 = f.encode.length - 1 := by
      have hpos := List.length_pos_iff.mpr hrest
      rw [hf, List.singleton_append, List.length_cons]
      omega
    rw [hlength]

/-- Behind noise a frame is reported once, at its last byte. -/
theorem reports_noise_encode {w : List UInt8} (hfree : HeadFree w) (f : Frame) :
    protocolDecoder.reports [] (w ++ f.encode) =
      List.replicate (w.length + f.encode.length - 1) none ++ [some f.encode] := by
  obtain ⟨hnoise, hwaiting⟩ := reports_noise (.inl rfl) w hfree
  have hframe := reports_encode_of_waiting hwaiting f
  simp only [FrameDecoder.reports, FrameDecoder.heldAfter] at hnoise hframe hwaiting ⊢
  rw [Mealy.outputs_append, hnoise, hframe, FrameDecoder.marks, ← List.append_assoc, ← List.replicate_add]
  have hpos : 1 ≤ f.encode.length := by
    rw [f.encode_length]
    exact Nat.le_add_left_of_le (by decide)
  rw [Nat.add_sub_assoc hpos]

/-- What the decoder reports is the encoding of a frame. -/
theorem exists_encode_of_mem_reports {stream f : List UInt8}
    (h : some f ∈ protocolDecoder.reports [] stream) : ∃ frame : Frame, f = frame.encode := by
  obtain ⟨before, x, -, -, hinProgress, hf⟩ := FrameDecoder.exists_of_mem_reports protocolDecoder_suffixing h
  exact protocolDecoder_frame_encode hinProgress x f hf

/-- A call of one of the two encoders, on a stack that holds anything. The length of the input of
`create_output_frame` is a `uint16_t`. -/
inductive EncoderCall where
  | output (sender : ProtocolInfo) (stack : Vector UInt8 maxTxBufferLength) (input : List UInt8)
      (length_lt : input.length < 2 ^ 16)
  | func (stack : Vector UInt8 64) (sequence : UInt16) (func : UInt8)

namespace EncoderCall

/-- The bytes of the frame built. -/
def bytes : EncoderCall → List UInt8
  | output sender stack input _ => (createOutputFrame sender ⟨stack, false⟩ input).2.written
  | func stack sequence f => (sendFuncData ⟨stack, false⟩ sequence f).written

/-- Behind any noise, a receiver that waits for a frame finishes this one, at its last byte, and nothing
else. -/
def Resynchronises (c : EncoderCall) : Prop :=
  ∀ w : List UInt8, HeadFree w → ∀ s : ProtocolInfo, s.rxStatus = .frameEmpty →
    s.rxBuffer.overrun = false → ∀ stream : List RxByte, stream.map RxByte.data = w ++ c.bytes →
      (tcpRxRun s stream).map RxEvent.finished =
        List.replicate (w.length + c.bytes.length - 1) none ++ [some c.bytes]

/-- The length byte can describe the input. -/
def FitsLengthByte : EncoderCall → Prop
  | output _ _ input _ => input.length ≤ 255
  | func _ _ _ => True

/-- When the length byte can describe the input, the encoders build a frame. -/
theorem exists_bytes_eq_encode {c : EncoderCall} (h : c.FitsLengthByte) :
    ∃ f : Frame, c.bytes = f.encode := by
  cases c with
  | output sender stack input _ =>
    exact ⟨_, (createOutputFrame_holds sender ⟨stack, false⟩ rfl input h).written_eq⟩
  | func stack sequence f => exact ⟨_, (sendFuncData_holds ⟨stack, false⟩ rfl sequence f).written_eq⟩

/-- A longer input fills the buffer, or wraps the size to less than a frame. -/
theorem bytes_length_of_not_fits {c : EncoderCall} (h : ¬ c.FitsLengthByte) :
    c.bytes.length = 264 ∨ c.bytes.length < protocolFrameLength := by
  cases c with
  | output sender stack input hlt =>
    have hlong : 255 < input.length := not_le.mp h
    rw [bytes, AppendBuffer.written_length, createOutputFrame_size _ _ _ rfl]
    simp only [protocolFrameLength, maxTxBufferLength]
    omega
  | func _ _ _ => exact absurd trivial h

/-- What a receiver resynchronises on is the encoding of a frame. -/
theorem exists_encode_of_resynchronises {c : EncoderCall} (h : c.Resynchronises) :
    ∃ f : Frame, c.bytes = f.encode := by
  have hfree : HeadFree [] := fun hoccurs => List.cons_ne_nil _ _ (List.infix_nil.mp hoccurs)
  have hfinished := h [] hfree .init rfl rfl (c.bytes.map (RxByte.mk 0)) (RxByte.map_data_map_mk 0 c.bytes)
  rw [tcpRxRun_finished represents_init, RxByte.map_data_map_mk] at hfinished
  have hmem : some c.bytes ∈ protocolDecoder.reports [] c.bytes := by
    rw [hfinished]
    exact List.mem_append_right _ (List.mem_singleton_self _)
  exact exists_encode_of_mem_reports hmem

/-- The receiver resynchronises on a frame exactly when the length byte can describe its input. -/
theorem resynchronises_iff_fitsLengthByte (c : EncoderCall) : c.Resynchronises ↔ c.FitsLengthByte := by
  constructor
  · intro h
    by_contra hfits
    obtain ⟨f, hf⟩ := exists_encode_of_resynchronises h
    have hlength := f.encode_length
    have hle := f.payload_le
    rcases bytes_length_of_not_fits hfits with hbytes | hbytes <;> rw [hf, hlength] at hbytes <;>
      simp only [protocolFrameLength] at hbytes <;> omega
  · intro h w hfree s hstatus hintact stream hstream
    obtain ⟨f, hf⟩ := exists_bytes_eq_encode h
    rw [tcpRxRun_finished (represents_nil hstatus hintact), hstream, hf]
    exact reports_noise_encode hfree f

end EncoderCall

/-- Receiving a byte does not touch the sequence number of the sender. -/
theorem checkRxFrame_sequenceNum (now : UInt32) (data : UInt8) (s : ProtocolInfo) :
    (checkRxFrame now data s).sequenceNum = s.sequenceNum := by
  unfold checkRxFrame
  split
  · split <;> rfl
  · split
    · rfl
    · split <;> rfl
  · dsimp only
    split
    · split
      · split <;> rfl
      · rfl
    · rfl

/-- Receiving bytes does not touch the sequence number of the sender. -/
theorem afterTcpRxRun_sequenceNum (s : ProtocolInfo) (bytes : List RxByte) :
    (afterTcpRxRun s bytes).sequenceNum = s.sequenceNum := by
  refine Mealy.after_invariant tcpRxStep (fun t => t.sequenceNum = s.sequenceNum) ?_ s rfl bytes
  intro t byte ht
  unfold tcpRxStep
  dsimp only
  split <;> exact (checkRxFrame_sequenceNum byte.now byte.data t).trans ht

/-- The byte completes a frame, which is given up for its checksum. -/
def CrcRejected (s : ProtocolInfo) (byte : RxByte) : Prop :=
  s.rxStatus = .frameDataRx ∧ (tcpRxStep s byte).2.checked.rxStatus = .frameEmpty

/-- After a frame that is given up, the receiver is as it was when it started, except for the bytes of its
buffer and for `rx_timeout_`, which is only ever written; it finishes what it would have
finished from the start. -/
def RejectionClears : Prop :=
  ∀ (s : ProtocolInfo) (bytes : List RxByte) (byte : RxByte), s.rxStatus = .frameEmpty →
    s.rxBufferSize = 0 → s.rxBuffer.overrun = false → CrcRejected (afterTcpRxRun s bytes) byte →
      (∃ cells rxTimeout, afterTcpRxRun s (bytes ++ [byte]) =
        { s with rxBuffer := ⟨cells, false⟩, rxTimeout := rxTimeout }) ∧
      ∀ more : List RxByte,
        (tcpRxRun (afterTcpRxRun s (bytes ++ [byte])) more).map RxEvent.finished =
          (tcpRxRun s more).map RxEvent.finished

/-- A frame that is given up leaves nothing but stale bytes. -/
theorem rejectionClears : RejectionClears := by
  rintro s bytes byte hstatus hsize hintact ⟨-, hrejected⟩
  have hsequence := afterTcpRxRun_sequenceNum s (bytes ++ [byte])
  have hrep := afterTcpRxRun_represents (represents_nil hstatus hintact) (bytes ++ [byte])
  have hlast : afterTcpRxRun s (bytes ++ [byte]) =
      clearRxInfo (checkRxFrame byte.now byte.data (afterTcpRxRun s bytes)) := by
    rw [tcpRxStep_checked] at hrejected
    rw [afterTcpRxRun, Mealy.after_append]
    change (tcpRxStep (afterTcpRxRun s bytes) byte).1 = _
    unfold tcpRxStep
    dsimp only
    rw [hrejected]
  have hcleared : afterTcpRxRun s (bytes ++ [byte]) =
      { s with
        rxBuffer := ⟨(afterTcpRxRun s (bytes ++ [byte])).rxBuffer.cells, false⟩
        rxTimeout := (afterTcpRxRun s (bytes ++ [byte])).rxTimeout } := by
    rw [← hsequence, ← hrep.intact, hstatus, hsize, hlast]
    rfl
  have hidle : (afterTcpRxRun s (bytes ++ [byte])).rxStatus = .frameEmpty := by
    rw [hlast]
    rfl
  refine ⟨⟨_, _, hcleared⟩, fun more => ?_⟩
  rw [tcpRxRun_finished (represents_nil hstatus hintact),
    tcpRxRun_finished (represents_nil hidle hrep.intact)]

/-- A rejected frame leaves the receiver as it started, and the receiver resynchronises behind noise exactly
on the frames whose length byte describes their input. -/
theorem resynchronises_iff (c : EncoderCall) :
    RejectionClears ∧ (c.Resynchronises ↔ c.FitsLengthByte) :=
  ⟨rejectionClears, c.resynchronises_iff_fitsLengthByte⟩

/-- The output frame of 256 zeros. -/
def outputZeros : EncoderCall := .output .init (.replicate _ 0) sendZeros.input sendZeros.length_lt

/-- Even without noise, the output frame of 256 bytes is not finished. -/
theorem not_forall_resynchronises : ¬ (RejectionClears ∧ ∀ c : EncoderCall, c.Resynchronises) := by
  rintro ⟨-, h⟩
  have hfits : (List.replicate 256 (0 : UInt8)).length ≤ 255 :=
    outputZeros.resynchronises_iff_fitsLengthByte.mp (h outputZeros)
  rw [List.length_replicate] at hfits
  omega

end RemoteManage.MainProcess

import RemoteManage.MainProcess.ReceiverRefinement

/-!
# The receive loop on streams

What `tcp_rx_run` reports on a stream of frames, and what every report means on a stream
of arbitrary bytes. The first result is about both encoders and the receiver together,
the second about the receiver alone: its bounds, the authenticity of what it reports and
its progress.
-/

namespace RemoteManage.MainProcess

open RemoteManage.Foundation
open RemoteManage.Common

/-- Bytes that are read at one moment are those bytes. -/
theorem RxByte.map_data_map_mk (now : UInt32) (bytes : List UInt8) :
    (bytes.map (RxByte.mk now)).map RxByte.data = bytes := by
  rw [List.map_map]
  exact List.map_id bytes

/-- The reports of the receive loop are those of the decoder. -/
theorem tcpRxRun_finished {s : ProtocolInfo} {held : List UInt8} (h : Represents s held)
    (bytes : List RxByte) :
    (tcpRxRun s bytes).map RxEvent.finished = protocolDecoder.reports held (bytes.map RxByte.data) :=
  Mealy.outputs_simulation tcpRxStep protocolDecoder.step RxByte.data RxEvent.finished Represents
    (fun _ _ byte hrep => tcpRxStep_represents hrep byte) s held h bytes

/-- The object keeps representing what the decoder holds. -/
theorem afterTcpRxRun_represents {s : ProtocolInfo} {held : List UInt8} (h : Represents s held)
    (bytes : List RxByte) :
    Represents (afterTcpRxRun s bytes) (protocolDecoder.heldAfter held (bytes.map RxByte.data)) :=
  Mealy.after_simulation tcpRxStep protocolDecoder.step RxByte.data Represents
    (fun _ _ byte hrep => (tcpRxStep_represents hrep byte).1) s held h bytes

/-- A call of one of the two encoders, with all it starts from. -/
inductive OutputFrame where
  | data (sender : ProtocolInfo) (pOutput : FixedBuffer UInt8 maxTxBufferLength)
      (hOutput : pOutput.overrun = false) (payload : List UInt8) (hpayload : payload.length ≤ 255)
  | func (buffer : FixedBuffer UInt8 64) (hbuffer : buffer.overrun = false) (sequence : UInt16)
      (func : UInt8)

namespace OutputFrame

/-- The bytes the encoder produces. -/
def bytes : OutputFrame → List UInt8
  | data sender pOutput _ payload _ => (createOutputFrame sender pOutput payload).2.written
  | func buffer _ sequence f => (sendFuncData buffer sequence f).written

/-- The frame the encoder is asked for. -/
def frame : OutputFrame → Frame
  | data sender _ _ payload hpayload => ⟨sender.sequenceNum + 1, 0, payload, hpayload⟩
  | func _ _ sequence f => Frame.empty sequence f

/-- Both encoders produce the encoding of the frame they are asked for. -/
theorem bytes_eq_encode (o : OutputFrame) : o.bytes = o.frame.encode := by
  cases o with
  | data sender pOutput hOutput payload hpayload =>
    exact (createOutputFrame_holds sender pOutput hOutput payload hpayload).written_eq
  | func buffer hbuffer sequence f => exact (sendFuncData_holds buffer hbuffer sequence f).written_eq

end OutputFrame

/-- A stream of encoded frames is reported frame by frame: each is finished at its last byte with
exactly its own bytes in the receive buffer, and no other byte finishes anything, whatever the
buffer held before and whenever the bytes arrive. -/
theorem tcpRxRun_frameStream (s : ProtocolInfo) (hstatus : s.rxStatus = .frameEmpty)
    (hintact : s.rxBuffer.overrun = false) (frames : List OutputFrame) (bytes : List RxByte)
    (hbytes : bytes.map RxByte.data = (frames.map OutputFrame.bytes).flatten) :
    (tcpRxRun s bytes).map RxEvent.finished =
      frames.flatMap fun f => List.replicate (f.bytes.length - 1) none ++ [some f.frame.encode] := by
  have hreads : ∀ f ∈ frames.map OutputFrame.bytes, protocolDecoder.Reads f := by
    intro f hf
    obtain ⟨o, -, rfl⟩ := List.mem_map.mp hf
    rw [o.bytes_eq_encode]
    exact protocolDecoder_reads o.frame
  rw [tcpRxRun_finished (represents_nil hstatus hintact), hbytes,
    (FrameDecoder.reports_flatten _ hreads).1, List.flatMap_map]
  simp only [FrameDecoder.marks, OutputFrame.bytes_eq_encode]

/-- A heartbeat with sequence number 7 is reported once, at its eighth byte. -/
theorem tcpRxRun_frameStream_heartbeat :
    (tcpRxRun { ProtocolInfo.init with rxBufferSize := 9 }
        ((OutputFrame.func (uninitialised 64) rfl 7 0).bytes.map (RxByte.mk 0))).map RxEvent.finished =
      List.replicate 7 none ++ [some [0x5a, 0x5b, 0x00, 0x07, 0x00, 0x00, 0xe5, 0xb1]] := by
  have hbytes : ((OutputFrame.func (uninitialised 64) rfl 7 0).bytes.map (RxByte.mk 0)).map RxByte.data =
      ([OutputFrame.func (uninitialised 64) rfl 7 0].map OutputFrame.bytes).flatten := by
    rw [RxByte.map_data_map_mk, List.map_singleton, List.flatten_singleton]
  have h := tcpRxRun_frameStream { ProtocolInfo.init with rxBufferSize := 9 } rfl rfl
    [OutputFrame.func (uninitialised 64) rfl 7 0] _ hbytes
  exact h.trans (by decide)

/-- The event of a turn shows the object as `check_rx_frame` returned it. -/
theorem tcpRxStep_checked (s : ProtocolInfo) (byte : RxByte) :
    (tcpRxStep s byte).2.checked = checkRxFrame byte.now byte.data s := by
  unfold tcpRxStep
  dsimp only
  split <;> rfl

/-- No byte takes the counter past the largest frame or a write out of the buffer. -/
theorem checkRxFrame_bounds {s : ProtocolInfo} {held : List UInt8} (h : Represents s held)
    (hsize : s.rxBufferSize ≤ 263) (now : UInt32) (data : UInt8) :
    (checkRxFrame now data s).rxBufferSize ≤ 263 ∧
      (checkRxFrame now data s).rxBuffer.overrun = false := by
  have hfollows := checkRxFrame_follows h now data
  cases hprogress : protocolDecoder held data with
  | hold l =>
    rw [hprogress] at hfollows
    obtain ⟨hrep, hne⟩ := hfollows
    exact ⟨(hrep.holds hne).size.trans_le (Nat.le_of_lt hrep.inProgress.length_lt), hrep.intact⟩
  | reject =>
    rw [hprogress] at hfollows
    obtain ⟨-, hintact, hkept | hle⟩ := hfollows
    · exact ⟨hkept.trans_le hsize, hintact⟩
    · exact ⟨hle, hintact⟩
  | frame f =>
    rw [hprogress] at hfollows
    obtain ⟨-, -, hlen, -⟩ := protocolDecoder_frame h.inProgress data f hprogress
    have hbyte := (f.getD 5 0).toNat_lt
    have hf : (checkRxFrame now data s).rxBufferSize = f.length := hfollows.2.size
    refine ⟨?_, hfollows.2.intact⟩
    rw [hf, hlen]
    simp only [frameLength, protocolFrameLength]
    omega

/-- The constructor leaves the object idle. -/
theorem represents_init : Represents .init [] := represents_nil rfl rfl

/-- After any bytes the counter is within the largest frame. -/
theorem afterTcpRxRun_size_le (bytes : List RxByte) : (afterTcpRxRun .init bytes).rxBufferSize ≤ 263 := by
  refine (Mealy.after_invariant tcpRxStep
    (fun s => (∃ held, Represents s held) ∧ s.rxBufferSize ≤ 263) ?_ .init
    ⟨⟨[], represents_init⟩, Nat.zero_le _⟩ bytes).2
  rintro s byte ⟨⟨held, hrep⟩, hsize⟩
  refine ⟨⟨_, (tcpRxStep_represents hrep byte).1⟩, ?_⟩
  have hbound := (checkRxFrame_bounds hrep hsize byte.now byte.data).1
  unfold tcpRxStep
  dsimp only
  split
  · exact Nat.zero_le _
  · exact Nat.zero_le _
  · exact hbound

/-- The object after a first part of the bytes, and what it then holds. -/
theorem represents_take (bytes : List RxByte) (k : ℕ) :
    Represents (Mealy.after tcpRxStep .init (bytes.take k))
      (protocolDecoder.heldAfter [] ((bytes.take k).map RxByte.data)) :=
  afterTcpRxRun_represents represents_init (bytes.take k)

/-- What a finished frame in the receive buffer is, and which bytes of the stream it is. -/
theorem checkRxFrame_finished {s : ProtocolInfo} {stream : List UInt8}
    (h : Represents s (protocolDecoder.heldAfter [] stream)) (now : UInt32) (data : UInt8)
    (hfinished : (checkRxFrame now data s).rxStatus = .frameFinished) :
    ∃ f : List UInt8, (checkRxFrame now data s).rx.Holds f ∧
      (∃ rest, f = packedHead0 :: packedHead1 :: rest) ∧ f.length = frameLength f ∧
      storedCrc f = computedCrc f ∧ f <:+ stream ++ [data] := by
  have hfollows := checkRxFrame_follows h now data
  cases hprogress : protocolDecoder (protocolDecoder.heldAfter [] stream) data with
  | hold l =>
    rw [hprogress] at hfollows
    rw [hfollows.1.status] at hfinished
    rcases statusOf_ne_nil hfollows.2 with hl | hl <;> rw [hl] at hfinished <;> contradiction
  | reject =>
    rw [hprogress] at hfollows
    rw [hfollows.1] at hfinished
    contradiction
  | frame f =>
    rw [hprogress] at hfollows
    obtain ⟨-, hhead, hlen, hcrc⟩ := protocolDecoder_frame h.inProgress data f hprogress
    exact ⟨f, hfollows.2, hhead, hlen, hcrc,
      FrameDecoder.reported_suffix protocolDecoder_suffixing stream data hprogress⟩

/-- Behind the head every byte that is held makes what is held one byte longer. -/
theorem protocolDecoder_grows (held : List UInt8) (data : UInt8) (l : List UInt8)
    (h : InProgress held ∧ 2 ≤ held.length) (hl : protocolDecoder held data = .hold l) :
    (InProgress l ∧ 2 ≤ l.length) ∧ l.length = held.length + 1 := by
  obtain ⟨hheld, hlen⟩ := h
  have hnext := protocolDecoder_inProgress hheld data l hl
  have hgrow : l = held ++ [data] := by
    rcases protocolDecoder_hold hheld data l hl with hgrow | ⟨rfl, -, -⟩
    · exact hgrow
    · simp at hlen
  have hsize : l.length = held.length + 1 := by
    rw [hgrow, List.length_append, List.length_singleton]
  exact ⟨⟨hnext, by omega⟩, hsize⟩

/-- From inside a frame the receiver reports it finished or gives it up within 261 bytes. -/
theorem tcpRxRun_leaves {s : ProtocolInfo} {held : List UInt8} (h : Represents s held)
    (hheld : 2 ≤ held.length) (more : List RxByte) (hmore : 261 ≤ more.length) :
    ∃ e ∈ (tcpRxRun s more).take 261,
      e.checked.rxStatus = .frameFinished ∨ e.checked.rxStatus = .frameEmpty := by
  have hbytes : ((more.take 261).map RxByte.data).length = 261 := by
    rw [List.length_map, List.length_take, min_eq_left hmore]
  have hbound : ∀ l, InProgress l ∧ 2 ≤ l.length → l.length < 263 := fun l hl => hl.1.length_lt
  obtain ⟨before, x, rest, hsplit, -, hleaves⟩ :=
    FrameDecoder.exists_leaves protocolDecoder_grows hbound held ((more.take 261).map RxByte.data)
      ⟨h.inProgress, hheld⟩ (by omega)
  obtain ⟨first, tail, hmap, hfirst, htail⟩ := List.map_eq_append_iff.mp hsplit
  obtain ⟨byte, last, hcons, hbyte, -⟩ := List.map_eq_cons_iff.mp htail
  refine ⟨(tcpRxStep (afterTcpRxRun s first) byte).2, ?_, ?_⟩
  · rw [tcpRxRun, ← Mealy.outputs_take, Mealy.mem_outputs_iff]
    exact ⟨first, byte, last, by rw [hmap, hcons], rfl⟩
  · have hrep := afterTcpRxRun_represents h first
    rw [hfirst] at hrep
    have hfollows := checkRxFrame_follows hrep byte.now byte.data
    rw [tcpRxStep_checked]
    rw [hbyte] at hfollows ⊢
    cases hprogress : protocolDecoder (protocolDecoder.heldAfter held before) x with
    | hold l => exact absurd hprogress (hleaves l)
    | reject =>
      rw [hprogress] at hfollows
      exact .inr hfollows.1
    | frame f =>
      rw [hprogress] at hfollows
      exact .inl hfollows.1

/-- What the code can read off a receive buffer that holds a complete frame. -/
theorem read_complete {s : ProtocolInfo} {rest : List UInt8}
    (h : s.rx.Holds (packedHead0 :: packedHead1 :: rest))
    (hlen : (packedHead0 :: packedHead1 :: rest).length = frameLength (packedHead0 :: packedHead1 :: rest))
    (hcrc : storedCrc (packedHead0 :: packedHead1 :: rest) =
      computedCrc (packedHead0 :: packedHead1 :: rest)) :
    s.rxBuffer.read 0 = 0x5a ∧ s.rxBuffer.read 1 = 0x5b ∧
      s.rxBufferSize = (s.rxBuffer.read 5).toNat + 8 ∧
      joinBytes (s.rxBuffer.read (s.rxBufferSize - 2)) (s.rxBuffer.read (s.rxBufferSize - 1)) =
        crc16 0xffff (s.rxBuffer.slice 2 (s.rxBufferSize - 4)) ∧
      s.rxBuffer.slice 1 (s.rxBufferSize - 1) = packedHead1 :: rest := by
  have hsize : s.rxBufferSize = (packedHead0 :: packedHead1 :: rest).length := h.size
  have height : 8 ≤ (packedHead0 :: packedHead1 :: rest).length := by
    rw [hlen]
    exact Nat.le_add_left _ _
  obtain ⟨hstored, hcomputed⟩ := crcCheck_eq h height
  refine ⟨h.read (by omega) 0, h.read (by omega) 0, ((lengthCheck_iff h).mpr hlen).2, ?_, ?_⟩
  · exact hstored.trans (hcrc.trans hcomputed.symm)
  · have hslice : s.rxBuffer.slice 1 (s.rxBufferSize - 1) =
        (packedHead1 :: rest).take (s.rxBufferSize - 1) := h.slice (by omega)
    rw [hslice, hsize]
    exact List.take_length

/-- The status says receiving data exactly when the head and more are held. -/
theorem two_le_length_of_statusOf {held : List UInt8} (h : statusOf held = .frameDataRx) :
    2 ≤ held.length := by
  match held with
  | [] => contradiction
  | [_] => contradiction
  | _ :: _ :: rest => exact Nat.le_add_left 2 rest.length

/-- The receiver on arbitrary bytes from its initial state. (a) The counter stays within the
largest frame and no write leaves the buffer. (b) Whatever is reported finished begins with the
head, is as long as it announces, carries the checksum of its contents, and is read off the end
of the stream, head included. (c) A frame in progress is finished or given up within 261 bytes. -/
theorem tcpRxRun_sound (bytes : List RxByte) :
    (∀ e ∈ tcpRxRun .init bytes,
      e.checked.rxBufferSize ≤ 263 ∧ e.checked.rxBuffer.overrun = false) ∧
    (∀ k e, (tcpRxRun .init bytes)[k]? = some e → e.checked.rxStatus = .frameFinished →
      e.checked.rxBuffer.read 0 = 0x5a ∧ e.checked.rxBuffer.read 1 = 0x5b ∧
      e.checked.rxBufferSize = (e.checked.rxBuffer.read 5).toNat + 8 ∧
      joinBytes (e.checked.rxBuffer.read (e.checked.rxBufferSize - 2))
          (e.checked.rxBuffer.read (e.checked.rxBufferSize - 1)) =
        crc16 0xffff (e.checked.rxBuffer.slice 2 (e.checked.rxBufferSize - 4)) ∧
      ∃ earlier, (bytes.take (k + 1)).map RxByte.data =
        earlier ++ 0x5a :: e.checked.rxBuffer.slice 1 (e.checked.rxBufferSize - 1)) ∧
    ((afterTcpRxRun .init bytes).rxStatus = .frameDataRx →
      ∀ more : List RxByte, 261 ≤ more.length →
        ∃ e ∈ (tcpRxRun (afterTcpRxRun .init bytes) more).take 261,
          e.checked.rxStatus = .frameFinished ∨ e.checked.rxStatus = .frameEmpty) := by
  refine ⟨?_, ?_, ?_⟩
  · intro e he
    obtain ⟨before, byte, rest, -, rfl⟩ := (Mealy.mem_outputs_iff tcpRxStep _ _ _).mp he
    rw [tcpRxStep_checked]
    exact checkRxFrame_bounds (afterTcpRxRun_represents represents_init before)
      (afterTcpRxRun_size_le before) byte.now byte.data
  · intro k e he hfinished
    rw [tcpRxRun, Mealy.outputs_getElem?] at he
    obtain ⟨byte, hbyte, rfl⟩ := Option.map_eq_some_iff.mp he
    rw [tcpRxStep_checked] at hfinished ⊢
    obtain ⟨f, hholds, ⟨rest, rfl⟩, hlen, hcrc, hsuffix⟩ :=
      checkRxFrame_finished (represents_take bytes k) byte.now byte.data hfinished
    obtain ⟨h0, h1, hsize, hvalid, hslice⟩ := read_complete hholds hlen hcrc
    refine ⟨h0, h1, hsize, hvalid, ?_⟩
    obtain ⟨earlier, hearlier⟩ := hsuffix
    refine ⟨earlier, ?_⟩
    rw [hslice, List.take_add_one, hbyte, List.map_append]
    exact hearlier.symm
  · intro hstatus more hmore
    have hrep := afterTcpRxRun_represents represents_init bytes
    exact tcpRxRun_leaves hrep (two_le_length_of_statusOf (hrep.status ▸ hstatus)) more hmore

end RemoteManage.MainProcess

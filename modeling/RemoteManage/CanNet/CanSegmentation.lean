import RemoteManage.CanNet.CanService

/-!
# How the request stream is cut into CAN frames

`run` reads a CAN frame into `frame_` and loops over `frame_.data` up to `frame_.can_dlc`. The
answers are written through the same `frame_`, so behind an answer the loop goes on with the
length and the data of the last CAN frame written. The loop reads the bytes that have been
received, and only those, when every answered request ends where a received CAN frame ends and
the last part of its answer is no longer than this frame.
-/

namespace RemoteManage.CanNet

open RemoteManage.Foundation

/-- A CAN frame as `read` delivers it. -/
structure ReceivedFrame where
  frame : CanFrame
  dlc_le : frame.canDlc ≤ canMaxDlen

/-- The bytes that a received CAN frame carries. -/
def ReceivedFrame.payload (f : ReceivedFrame) : List UInt8 := f.frame.payload

/-- The CAN frame in which the other side sends up to eight bytes. -/
def ReceivedFrame.carrying (id : UInt32) (bytes : List UInt8) (h : bytes.length ≤ canMaxDlen) :
    ReceivedFrame :=
  ⟨⟨id, bytes.length, (FixedBuffer.filled canMaxDlen 0).writeAll 0 bytes⟩, h⟩

/-- The loop over `frame_` from index `i` on, for at most so many turns. -/
def receiveLoop : ℕ → ℕ → CanSocket → CanSocket × List ByteEvent
  | 0, _, s => (s, [])
  | turns + 1, i, s =>
    if i < s.frame.canDlc then
      let turn := receiveByte s (s.frame.data.read i)
      let rest := receiveLoop turns (i + 1) turn.1
      (rest.1, turn.2 :: rest.2)
    else (s, [])

/-- One turn of the endless loop of `run`. -/
def receiveFrame (s : CanSocket) (f : ReceivedFrame) : CanSocket × List ByteEvent :=
  receiveLoop canMaxDlen 0 { s with frame := f.frame }

/-- What `run` does with the CAN frames received so far. -/
def receiveFrames (s : CanSocket) (frames : List ReceivedFrame) : List ByteEvent :=
  (Mealy.outputs receiveFrame s frames).flatten

/-- A request that has been completed, with the bytes written to answer it. -/
def ByteEvent.served (e : ByteEvent) : Option (List UInt8 × List UInt8) :=
  e.completed.map fun f => (f, e.written.flatMap CanFrame.payload)

/-- The length of the last CAN frame that carries an answer. -/
def lastDlc (answer : List UInt8) : ℕ := (answer.length - 1) % canMaxDlen + 1

/-- Among the bytes left of a CAN frame of length `dlc`, an answered request ends with the last one, and
the last part of its answer is no longer than the frame. -/
def EndsRequests (dlc : ℕ) (held left : List UInt8) : Prop :=
  ∀ i < left.length, ∀ f ∈ (canDecoder.reports held left).getD i none, canReply f ≠ [] →
    i + 1 = left.length ∧ lastDlc (canReply f) ≤ dlc

instance (dlc : ℕ) (held left : List UInt8) : Decidable (EndsRequests dlc held left) := by
  unfold EndsRequests
  infer_instance

/-- Every answered request ends with one of the payloads, and the last part of its answer is no longer
than this payload. -/
def WellCut : List UInt8 → List (List UInt8) → Prop
  | _, [] => True
  | held, payload :: rest =>
    EndsRequests payload.length held payload ∧ WellCut (canDecoder.heldAfter held payload) rest

/-- Whether payloads are well cut can be computed. -/
def decidableWellCut : (held : List UInt8) → (payloads : List (List UInt8)) →
    Decidable (WellCut held payloads)
  | _, [] => isTrue trivial
  | held, payload :: rest =>
    @instDecidableAnd _ _ _ (decidableWellCut (canDecoder.heldAfter held payload) rest)

instance (held : List UInt8) (payloads : List (List UInt8)) : Decidable (WellCut held payloads) :=
  decidableWellCut held payloads

/-- Of the bytes left behind the first one the same is true. -/
theorem EndsRequests.tail {dlc : ℕ} {held : List UInt8} {data : UInt8} {left : List UInt8}
    (h : EndsRequests dlc held (data :: left)) : EndsRequests dlc (canDecoder held data).held left := by
  intro i hi f hf hreply
  obtain ⟨hlast, hle⟩ := h (i + 1) (Nat.succ_lt_succ hi) f hf hreply
  exact ⟨Nat.succ.inj hlast, hle⟩

/-- If the first byte ends an answered request, then it is the only one. -/
theorem EndsRequests.head {dlc : ℕ} {held : List UInt8} {data : UInt8} {left f : List UInt8}
    (h : EndsRequests dlc held (data :: left)) (hf : (canDecoder held data).completed = some f)
    (hreply : canReply f ≠ []) : left = [] ∧ lastDlc (canReply f) ≤ dlc := by
  obtain ⟨hlast, hle⟩ := h 0 (Nat.succ_pos _) f hf hreply
  exact ⟨List.eq_nil_of_length_eq_zero (Nat.succ.inj hlast).symm, hle⟩

/-- Behind the loop over the full frames `frame_` is the last frame written. -/
theorem writeFullFrames_frame (id : UInt32) (buffer : FixedBuffer UInt8 maxFrameBuffer) (nums ptr : ℕ)
    (frame : CanFrame) :
    (writeFullFrames id buffer nums ptr frame).1 =
      (writeFullFrames id buffer nums ptr frame).2.getLastD frame := by
  induction nums generalizing ptr frame with
  | zero => rfl
  | succ nums ih =>
    rw [writeFullFrames, List.getLastD_cons]
    exact ih _ _

/-- Behind `can_write_buffer` the object's `frame_` is the last frame written. -/
theorem canWriteBuffer_frame (id : UInt32) (buffer : FixedBuffer UInt8 maxFrameBuffer) (len : ℕ)
    (frame : CanFrame) :
    (canWriteBuffer id buffer len frame).1 = (canWriteBuffer id buffer len frame).2.getLastD frame := by
  unfold canWriteBuffer
  dsimp only
  split
  · rw [List.getLastD_concat]
  · exact writeFullFrames_frame id buffer _ _ _

/-- Behind a byte `frame_` is the last frame written for it, and unchanged if there is none. -/
theorem receiveByte_frame (s : CanSocket) (data : UInt8) :
    (receiveByte s data).1.frame = (receiveByte s data).2.written.getLastD s.frame := by
  unfold receiveByte
  dsimp only
  cases (processRxFrame data s.canProtocol).rxFrameState with
  | complete =>
    dsimp only
    split
    · exact canWriteBuffer_frame _ _ _ _
    · rfl
  | empty => rfl
  | received => rfl

/-- The payload of a CAN frame is as long as the frame says. -/
theorem CanFrame.payload_length {f : CanFrame} (h : f.canDlc ≤ canMaxDlen) :
    f.payload.length = f.canDlc := by
  rw [CanFrame.payload, FixedBuffer.contents_length]
  exact min_eq_left h

/-- Full frames carry eight bytes each. -/
theorem length_flatMap_payload (frames : List CanFrame) (h : ∀ f ∈ frames, f.canDlc = canMaxDlen) :
    (frames.flatMap CanFrame.payload).length = frames.length * canMaxDlen := by
  induction frames with
  | nil => rfl
  | cons f frames ih =>
    have hf := h f List.mem_cons_self
    rw [List.flatMap_cons, List.length_append, CanFrame.payload_length hf.le, hf,
      ih fun g hg => h g (List.mem_cons_of_mem f hg), List.length_cons, Nat.succ_mul, Nat.add_comm]

/-- The last frame of an answer is as long as the last part of the answer. -/
theorem Fragments.getLastD_canDlc {frames : List CanFrame} {answer : List UInt8}
    (h : Fragments frames answer) (hne : answer ≠ []) (frame : CanFrame) :
    (frames.getLastD frame).canDlc = lastDlc answer := by
  obtain ⟨rfl, hbounds, hfull⟩ := h
  obtain rfl | ⟨before, last, rfl⟩ := frames.eq_nil_or_concat'
  · contradiction
  · rw [List.dropLast_concat] at hfull
    obtain ⟨hpos, hle⟩ := hbounds last (List.mem_append_right before List.mem_cons_self)
    have hlen := length_flatMap_payload before hfull
    rw [List.getLastD_concat, lastDlc, List.flatMap_append, List.length_append, List.flatMap_singleton,
      CanFrame.payload_length hle, hlen]
    simp only [canMaxDlen] at hle ⊢
    omega

/-- No frames are written for an empty answer. -/
theorem Fragments.eq_nil {frames : List CanFrame} (h : Fragments frames []) : frames = [] := by
  cases frames with
  | nil => rfl
  | cons f frames =>
    obtain ⟨hpos, hle⟩ := h.dlc_bounds f List.mem_cons_self
    have hpayload := (List.append_eq_nil_iff.mp h.payloads).1
    rw [← CanFrame.payload_length hle, hpayload] at hpos
    contradiction

/-- A byte that leads to no answer leaves `frame_` alone. -/
theorem receiveByte_frame_of_nil {s : CanSocket} {data : UInt8} {f : Option (List UInt8)}
    (h : Shows (receiveByte s data).2 f) (hnil : f.elim [] canReply = []) :
    (receiveByte s data).1.frame = s.frame := by
  have hwritten := h.written
  rw [h.answer, hnil] at hwritten
  rw [receiveByte_frame, hwritten.eq_nil]
  rfl

/-- A byte that leads to an answer leaves the last part of it in `frame_`. -/
theorem receiveByte_canDlc_of_ne_nil {s : CanSocket} {data : UInt8} {f : Option (List UInt8)}
    (h : Shows (receiveByte s data).2 f) (hne : f.elim [] canReply ≠ []) :
    (receiveByte s data).1.frame.canDlc = lastDlc (f.elim [] canReply) := by
  have hwritten := h.written
  rw [h.answer] at hwritten
  rw [receiveByte_frame, hwritten.getLastD_canDlc hne]

/-- Behind the last byte of `frame_` the loop ends. -/
theorem receiveLoop_end (turns i : ℕ) (s : CanSocket) (h : s.frame.canDlc ≤ i) :
    receiveLoop turns i s = (s, []) := by
  cases turns with
  | zero => rfl
  | succ turns => exact if_neg (Nat.not_lt.mpr h)

/-- While the bytes left of `frame_` end every answered request among them, the loop takes these bytes. -/
theorem receiveLoop_eq {s : CanSocket} {held left : List UInt8} (h : Serves s held) (turns i : ℕ)
    (hturns : left.length ≤ turns) (hdlc : s.frame.canDlc = i + left.length)
    (hle : s.frame.canDlc ≤ canMaxDlen)
    (hleft : s.frame.data.slice i left.length = left) (hends : EndsRequests s.frame.canDlc held left) :
    receiveLoop turns i s = (afterReceiveBytes s left, receiveBytes s left) := by
  induction left generalizing s held turns i with
  | nil => exact receiveLoop_end turns i s hdlc.le
  | cons data left ih =>
    cases turns with
    | zero => contradiction
    | succ turns =>
      simp only [List.length_cons] at hturns hdlc
      have hi : i < canMaxDlen := by omega
      rw [List.length_cons, s.frame.data.slice_succ hi, List.cons.injEq] at hleft
      obtain ⟨rfl, hleft⟩ := hleft
      obtain ⟨hserves, hshows⟩ := receiveByte_serves h (s.frame.data.read i)
      have hturn : receiveLoop turns (i + 1) (receiveByte s (s.frame.data.read i)).1 =
          (afterReceiveBytes (receiveByte s (s.frame.data.read i)).1 left,
            receiveBytes (receiveByte s (s.frame.data.read i)).1 left) := by
        by_cases hreply : (canDecoder held (s.frame.data.read i)).completed.elim [] canReply = []
        · have hframe := receiveByte_frame_of_nil hshows hreply
          apply ih hserves turns (i + 1) (by omega)
          · rw [hframe]
            omega
          · rwa [hframe]
          · rwa [hframe]
          · rw [hframe]
            exact hends.tail
        · have hframe := receiveByte_canDlc_of_ne_nil hshows hreply
          cases hf : (canDecoder held (s.frame.data.read i)).completed with
          | none =>
            rw [hf] at hreply
            contradiction
          | some f =>
            rw [hf, Option.elim_some] at hreply hframe
            obtain ⟨rfl, hlast⟩ := hends.head hf hreply
            apply receiveLoop_end
            rw [hframe]
            simp only [List.length_nil] at hdlc
            omega
      rw [receiveLoop, if_pos (by omega)]
      dsimp only
      rw [hturn]
      rfl

/-- A received CAN frame that ends its answered requests is taken byte by byte. -/
theorem receiveFrame_eq {s : CanSocket} {held : List UInt8} (h : Serves s held) (f : ReceivedFrame)
    (hends : EndsRequests f.payload.length held f.payload) :
    receiveFrame s f = (afterReceiveBytes { s with frame := f.frame } f.payload,
      receiveBytes { s with frame := f.frame } f.payload) := by
  have hlen : f.payload.length = f.frame.canDlc := CanFrame.payload_length f.dlc_le
  have hserves : Serves { s with frame := f.frame } held := ⟨h.represents, h.intact⟩
  apply receiveLoop_eq hserves
  · exact hlen.trans_le f.dlc_le
  · exact hlen.symm.trans (Nat.zero_add _).symm
  · exact f.dlc_le
  · rw [hlen]
    rfl
  · rwa [← hlen]

/-- What is served shows the frame completed and its answer. -/
theorem Shows.served {e : ByteEvent} {f : Option (List UInt8)} (h : Shows e f) :
    e.served = f.map fun f => (f, canReply f) := by
  rw [ByteEvent.served, h.completed, h.written.payloads, h.answer]
  cases f <;> rfl

/-- On well-cut frames the service serves what the decoder reports on their bytes. -/
theorem receiveFrames_served {s : CanSocket} {held : List UInt8} (h : Serves s held)
    (frames : List ReceivedFrame)
    (hcut : WellCut held (frames.map ReceivedFrame.payload)) :
    (receiveFrames s frames).map ByteEvent.served =
      (canDecoder.reports held (frames.flatMap ReceivedFrame.payload)).map
        (Option.map fun f => (f, canReply f)) := by
  induction frames generalizing s held with
  | nil => rfl
  | cons f frames ih =>
    obtain ⟨hends, hcut⟩ := hcut
    have hserves : Serves { s with frame := f.frame } held := ⟨h.represents, h.intact⟩
    have hfirst : (receiveBytes { s with frame := f.frame } f.payload).map ByteEvent.served =
        (canDecoder.reports held f.payload).map (Option.map fun f => (f, canReply f)) := by
      rw [← receiveBytes_completed hserves, List.map_map]
      apply List.map_congr_left
      intro e he
      exact (receiveBytes_shows hserves _ e he).served
    have hrest := ih (afterReceiveBytes_serves hserves f.payload) hcut
    have hframes : receiveFrames s (f :: frames) = receiveBytes { s with frame := f.frame } f.payload ++
        receiveFrames (afterReceiveBytes { s with frame := f.frame } f.payload) frames := by
      rw [receiveFrames, Mealy.outputs, receiveFrame_eq h f hends]
      rfl
    rw [hframes, List.map_append, hfirst, hrest, List.flatMap_cons, FrameDecoder.reports,
      Mealy.outputs_append, List.map_append]
    rfl

/-- Two new services receive the same bytes in CAN frames. If each of the two ways to cut them ends every
answered request with a CAN frame that is no shorter than the last part of the answer, then both
services complete the same requests and write the same answers. -/
theorem receiveFrames_segmentation (rxCells txCells : Vector UInt8 maxFrameBuffer) (frame : CanFrame)
    (left right : List ReceivedFrame)
    (hbytes : left.flatMap ReceivedFrame.payload = right.flatMap ReceivedFrame.payload)
    (hleft : WellCut [] (left.map ReceivedFrame.payload))
    (hright : WellCut [] (right.map ReceivedFrame.payload)) :
    (receiveFrames (.init rxCells txCells frame) left).filterMap ByteEvent.served =
      (receiveFrames (.init rxCells txCells frame) right).filterMap ByteEvent.served := by
  have hinit := serves_init rxCells txCells frame
  have hserved (frames : List ReceivedFrame) (hcut : WellCut [] (frames.map ReceivedFrame.payload)) :
      (receiveFrames (.init rxCells txCells frame) frames).filterMap ByteEvent.served =
        ((canDecoder.reports [] (frames.flatMap ReceivedFrame.payload)).map
          (Option.map fun f => (f, canReply f))).filterMap id := by
    rw [← receiveFrames_served hinit frames hcut, List.filterMap_map]
    rfl
  rw [hserved left hleft, hserved right hright, hbytes]

/-- The one request of nine bytes, cut behind its eighth and behind its fifth byte. -/
theorem receiveFrames_segmentation_request :
    ∃ left right : List ReceivedFrame,
      left.map ReceivedFrame.payload = [[0x3c, 1, 1, 0, 2, 0x61, 0x62, 0xab], [0xd2]] ∧
      right.map ReceivedFrame.payload = [[0x3c, 1, 1, 0, 2], [0x61, 0x62, 0xab, 0xd2]] ∧
      (receiveFrames (.init (.replicate _ 0) (.replicate _ 0) ⟨0, 0, .filled _ 0⟩) left).filterMap
          ByteEvent.served =
        (receiveFrames (.init (.replicate _ 0) (.replicate _ 0) ⟨0, 0, .filled _ 0⟩) right).filterMap
          ByteEvent.served :=
  ⟨[.carrying 7 [0x3c, 1, 1, 0, 2, 0x61, 0x62, 0xab] (by decide), .carrying 7 [0xd2] (by decide)],
    [.carrying 7 [0x3c, 1, 1, 0, 2] (by decide), .carrying 7 [0x61, 0x62, 0xab, 0xd2] (by decide)],
    by decide +kernel, by decide +kernel,
    receiveFrames_segmentation _ _ _ _ _ (by decide +kernel) (by decide +kernel) (by decide +kernel)⟩

/-- Two requests of nine bytes are both served when each ends with a CAN frame of its own. In full CAN
frames the answer to the first leaves `frame_` with one byte, so the rest of the CAN frame that
held its end, with the beginning of the second request, is skipped. -/
theorem receiveFrames_segmentation_fails :
    ¬ ∀ (rxCells txCells : Vector UInt8 maxFrameBuffer) (frame : CanFrame)
        (left right : List ReceivedFrame),
      left.flatMap ReceivedFrame.payload = right.flatMap ReceivedFrame.payload →
      (receiveFrames (.init rxCells txCells frame) left).filterMap ByteEvent.served =
        (receiveFrames (.init rxCells txCells frame) right).filterMap ByteEvent.served := by
  intro h
  have hlength := congrArg List.length (h (.replicate _ 0) (.replicate _ 0) ⟨0, 0, .filled _ 0⟩
    [.carrying 7 [0x3c, 1, 1, 0, 2, 0x61, 0x62, 0xab] (by decide), .carrying 7 [0xd2] (by decide),
      .carrying 7 [0x3c, 1, 1, 0, 2, 0x61, 0x62, 0xab] (by decide), .carrying 7 [0xd2] (by decide)]
    [.carrying 7 [0x3c, 1, 1, 0, 2, 0x61, 0x62, 0xab] (by decide),
      .carrying 7 [0xd2, 0x3c, 1, 1, 0, 2, 0x61, 0x62] (by decide), .carrying 7 [0xab, 0xd2] (by decide)]
    (by decide +kernel))
  revert hlength
  decide +kernel

end RemoteManage.CanNet

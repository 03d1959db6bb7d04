import RemoteManage.CanNet.CanReply

/-!
# The receive loop of the CAN service

Byte by byte the loop completes the frames that the decoder reports and answers each of them
by `canReply`; nothing else is completed or answered. On any bytes no write leaves a buffer and
every answer is carried by well-formed CAN frames. On the frames of encoded requests these
results make an echo service.
-/

namespace RemoteManage.CanNet

open RemoteManage.Foundation

/-- A new object; its buffers are not initialised. -/
def CanSocket.init (rxCells txCells : Vector UInt8 maxFrameBuffer) (frame : CanFrame) : CanSocket :=
  ⟨CanProtocol.init rxCells, frame, ⟨txCells, false⟩, 0⟩

namespace ByteEvent

/-- The frame that the byte has completed. -/
def completed (e : ByteEvent) : Option (List UInt8) :=
  if e.checked.rxFrameState = .complete then
    some (e.checked.rxFramebuffer.contents (e.checked.rxFramesize + 2))
  else none

/-- The data of the frame that the byte has completed, as `protocol_process` takes it. -/
def data (e : ByteEvent) : Option (List UInt8) :=
  if e.checked.rxFrameState = .complete then
    some (e.checked.rxFramebuffer.slice 5 (e.checked.rxFramesize - 5))
  else none

end ByteEvent

/-- The object holds these bytes of a frame, and no write has left its transmit buffer. -/
structure Serves (s : CanSocket) (held : List UInt8) : Prop where
  represents : Represents s.canProtocol held
  intact : s.txBuffer.overrun = false

/-- What a byte shows when it completes the frame `f`, or when it completes none. -/
structure Shows (e : ByteEvent) (f : Option (List UInt8)) : Prop where
  completed : e.completed = f
  data : e.data = f.map frameData
  answer : e.answer = f.elim [] canReply
  written : Fragments e.written e.answer
  intact : e.checked.rxFramebuffer.overrun = false

/-- No CAN frames carry no bytes. -/
theorem fragments_nil : Fragments [] [] where
  payloads := rfl
  dlc_bounds _ hf := absurd hf List.not_mem_nil
  full _ hf := absurd hf List.not_mem_nil

/-- A byte that completes nothing shows nothing. -/
theorem shows_none {checked : CanProtocol} (hstate : checked.rxFrameState ≠ .complete)
    (hintact : checked.rxFramebuffer.overrun = false) : Shows ⟨checked, [], []⟩ none where
  completed := if_neg hstate
  data := if_neg hstate
  answer := rfl
  written := fragments_nil
  intact := hintact

/-- A reported frame is in the buffer, also behind `clear_frame_state`. -/
theorem holdsFrame_of_follows {held : List UInt8} (h : InProgress held) {data : UInt8} {f : List UInt8}
    (hf : canDecoder held data = .frame f) {checked : CanProtocol} (hfollows : Follows checked (.frame f)) :
    HoldsFrame (clearFrameState checked) f where
  size := hfollows.2.1
  contents := hfollows.2.2.1
  seven_le := by
    obtain ⟨-, -, hlen, -⟩ := canDecoder_frame h data f hf
    rw [hlen]
    exact Nat.le_add_left _ _
  length_le := (canDecoder_frame h data f hf).2.2.2.1

/-- A byte that completes a frame shows it with its data and its answer. -/
theorem shows_some {checked : CanProtocol} {f : List UInt8} (hstate : checked.rxFrameState = .complete)
    (hframe : HoldsFrame (clearFrameState checked) f) (hintact : checked.rxFramebuffer.overrun = false)
    {written : List CanFrame} (hwritten : Fragments written (canReply f)) :
    Shows ⟨checked, canReply f, written⟩ (some f) where
  completed := by
    have hcontents : checked.rxFramebuffer.contents (checked.rxFramesize + 2) = f :=
      (congrArg checked.rxFramebuffer.contents hframe.size).trans hframe.contents
    exact (if_pos hstate).trans (congrArg some hcontents)
  data := (if_pos hstate).trans (congrArg some hframe.data)
  answer := rfl
  written := hwritten
  intact := hintact

/-- One turn of the loop does to the bytes held what the decoder does, and shows its report. -/
theorem receiveByte_serves {s : CanSocket} {held : List UInt8} (h : Serves s held) (data : UInt8) :
    Serves (receiveByte s data).1 (canDecoder held data).held ∧
      Shows (receiveByte s data).2 (canDecoder held data).completed := by
  have hfollows := processRxFrame_follows h.represents data
  unfold receiveByte
  dsimp only
  cases hprogress : canDecoder held data with
  | hold l =>
    rw [hprogress] at hfollows
    obtain ⟨hrep, hne⟩ := hfollows
    have hstate : (processRxFrame data s.canProtocol).rxFrameState = .received := by
      rw [hrep.state]
      cases l with
      | nil => exact absurd rfl hne
      | cons first rest => rfl
    rw [hstate]
    exact ⟨⟨hrep, h.intact⟩, shows_none (by rw [hstate]; decide) hrep.intact⟩
  | reject =>
    rw [hprogress] at hfollows
    obtain ⟨hstate, hintact⟩ := hfollows
    rw [hstate]
    exact ⟨⟨represents_nil hstate hintact, h.intact⟩, shows_none (by rw [hstate]; decide) hintact⟩
  | frame f =>
    rw [hprogress] at hfollows
    have hframe := holdsFrame_of_follows h.represents.inProgress hprogress hfollows
    obtain ⟨htx, hle, hreply⟩ := hframe.protocolProcess s.txBuffer h.intact
    obtain ⟨hstate, -, -, hintact⟩ := hfollows
    have hnext : Represents (clearFrameState (processRxFrame data s.canProtocol)) [] :=
      represents_nil rfl hintact
    rw [hstate]
    dsimp only
    generalize protocolProcess (clearFrameState (processRxFrame data s.canProtocol)) s.txBuffer = out
      at htx hle hreply ⊢
    split
    · have hwritten := canWriteBuffer_fragments s.id out.1 out.2.toNat s.frame hle
      rw [hreply] at hwritten ⊢
      exact ⟨⟨hnext, htx⟩, shows_some hstate hframe hintact hwritten⟩
    · next hnone =>
      rw [Int.toNat_eq_zero.mpr (Int.not_lt.mp hnone), FixedBuffer.contents_zero] at hreply
      have hshows := shows_some hstate hframe hintact (hreply ▸ fragments_nil)
      rw [← hreply] at hshows
      exact ⟨⟨hnext, htx⟩, hshows⟩

/-- A new object holds nothing. -/
theorem serves_init (rxCells txCells : Vector UInt8 maxFrameBuffer) (frame : CanFrame) :
    Serves (.init rxCells txCells frame) [] := ⟨represents_nil rfl rfl, rfl⟩

section Run

variable {s : CanSocket} {held : List UInt8}

/-- After any bytes the object holds what the decoder holds. -/
theorem afterReceiveBytes_serves (h : Serves s held) (bytes : List UInt8) :
    Serves (afterReceiveBytes s bytes) (canDecoder.heldAfter held bytes) := by
  have hrun := Mealy.after_simulation receiveByte canDecoder.step id Serves
    (fun _ _ data hrep => (receiveByte_serves hrep data).1) s held h bytes
  rwa [List.map_id] at hrun

/-- The frames completed are those that the decoder reports. -/
theorem receiveBytes_completed (h : Serves s held) (bytes : List UInt8) :
    (receiveBytes s bytes).map ByteEvent.completed = canDecoder.reports held bytes := by
  have hrun := Mealy.outputs_simulation receiveByte canDecoder.step id ByteEvent.completed Serves
    (fun _ _ data hrep => (receiveByte_serves hrep data).imp_right Shows.completed) s held h bytes
  rwa [List.map_id] at hrun

/-- Every byte shows the frame it completes, its data and its answer. -/
theorem receiveBytes_shows (h : Serves s held) (bytes : List UInt8) (e : ByteEvent)
    (he : e ∈ receiveBytes s bytes) : Shows e e.completed := by
  obtain ⟨before, data, rest, -, rfl⟩ := (Mealy.mem_outputs_iff receiveByte _ _ _).mp he
  have hshows := (receiveByte_serves (afterReceiveBytes_serves h before) data).2
  exact hshows.completed ▸ hshows

/-- After any bytes no write has left the transmit buffer. -/
theorem afterReceiveBytes_intact (h : Serves s held) (bytes : List UInt8) :
    (afterReceiveBytes s bytes).txBuffer.overrun = false := (afterReceiveBytes_serves h bytes).intact

/-- Frames of messages are completed one by one, each at its last byte. -/
theorem receiveBytes_messages (h : Serves s []) (cmd : UInt8) (messages : List CanMessage) :
    (receiveBytes s (messages.flatMap (CanMessage.encode cmd))).map ByteEvent.completed =
      messages.flatMap fun m => List.replicate (m.data.length + 6) none ++ [some (m.encode cmd)] := by
  have hreads : ∀ f ∈ messages.map (CanMessage.encode cmd), canDecoder.Reads f := by
    intro f hf
    obtain ⟨m, -, rfl⟩ := List.mem_map.mp hf
    exact m.reads cmd
  rw [receiveBytes_completed h, List.flatMap_def, (FrameDecoder.reports_flatten _ hreads).1, List.flatMap_map]
  simp only [FrameDecoder.marks, CanMessage.encode_length, Nat.add_succ_sub_one]

/-- The data of the frames of messages is shown at the last byte of each. -/
theorem receiveBytes_data (h : Serves s []) (cmd : UInt8) (messages : List CanMessage) :
    (receiveBytes s (messages.flatMap (CanMessage.encode cmd))).map ByteEvent.data =
      messages.flatMap fun m => List.replicate (m.data.length + 6) none ++ [some m.data] := by
  have hdata : (receiveBytes s (messages.flatMap (CanMessage.encode cmd))).map ByteEvent.data =
      ((receiveBytes s (messages.flatMap (CanMessage.encode cmd))).map ByteEvent.completed).map
        (Option.map frameData) := by
    rw [List.map_map]
    apply List.map_congr_left
    intro e he
    exact (receiveBytes_shows h _ e he).data
  rw [hdata, receiveBytes_messages h, List.map_flatMap]
  congr 1
  funext m
  rw [List.map_append, List.map_replicate, List.map_singleton, Option.map_none, Option.map_some,
    frameData_encode]

/-- What shows data on the frames of requests has completed the request with this data. -/
theorem receiveBytes_request (h : Serves s []) (messages : List CanMessage) (e : ByteEvent)
    (he : e ∈ receiveBytes s (messages.flatMap (CanMessage.encode canRequestShowInfo)))
    (data : List UInt8) (hdata : e.data = some data) :
    ∃ m : CanMessage, m.data = data ∧ e.answer = m.encode canResponseShowInfo := by
  have hshows := receiveBytes_shows h _ e he
  have hmem := List.mem_map_of_mem (f := ByteEvent.completed) he
  rw [receiveBytes_messages h, List.mem_flatMap] at hmem
  obtain ⟨m, -, hm⟩ := hmem
  rcases List.mem_append.mp hm with hnone | hsome
  · rw [hshows.data, List.eq_of_mem_replicate hnone] at hdata
    contradiction
  · have hcompleted := List.mem_singleton.mp hsome
    have hanswer := hshows.answer
    have hframe := hshows.data
    rw [hcompleted] at hanswer hframe
    rw [hdata] at hframe
    refine ⟨m, ?_, hanswer.trans (canReply_request m)⟩
    exact ((Option.some.inj hframe).trans (frameData_encode _ m)).symm

end Run

/-- A request that a peer encodes in a buffer of its own. -/
structure CanRequest where
  message : CanMessage
  outBuffer : Vector UInt8 maxFrameBuffer

/-- What `create_can_tx_buffer` makes of a request. -/
def CanRequest.bytes (r : CanRequest) : List UInt8 :=
  (createCanTxBuffer canRequestShowInfo r.message.data ⟨r.outBuffer, false⟩).written

/-- The bytes of a request are the frame of its message. -/
theorem CanRequest.bytes_eq_encode (r : CanRequest) : r.bytes = r.message.encode canRequestShowInfo :=
  (createCanTxBuffer_holds canRequestShowInfo r.message ⟨r.outBuffer, false⟩ rfl).written_eq

/-- The bytes of requests are the frames of their messages. -/
theorem flatMap_bytes (requests : List CanRequest) :
    requests.flatMap CanRequest.bytes =
      (requests.map CanRequest.message).flatMap (CanMessage.encode canRequestShowInfo) := by
  rw [List.flatMap_map]
  apply List.flatMap_congr
  intro r _
  exact r.bytes_eq_encode

/-- The echo service, from a new object with any contents of its buffers. Requests are completed one
by one, each at its last byte with its own data in the receive buffer; the answer is seven bytes
longer than the data, fits the transmit buffer, and a new object reads the same data from it. On
any bytes no write leaves the buffers, and what is written carries the answers. -/
theorem receiveBytes_echo (rxCells txCells : Vector UInt8 maxFrameBuffer) (frame : CanFrame) :
    (∀ requests : List CanRequest,
      (receiveBytes (.init rxCells txCells frame) (requests.flatMap CanRequest.bytes)).map ByteEvent.data =
        requests.flatMap (fun r => List.replicate (r.message.data.length + 6) none ++ [some r.message.data]) ∧
      ∀ e ∈ receiveBytes (.init rxCells txCells frame) (requests.flatMap CanRequest.bytes),
        ∀ data, e.data = some data →
          e.answer.length = data.length + 7 ∧ e.answer.length ≤ maxFrameBuffer ∧
          ∀ peerRxCells peerTxCells peerFrame,
            (receiveBytes (.init peerRxCells peerTxCells peerFrame) e.answer).map ByteEvent.data =
              List.replicate (data.length + 6) none ++ [some data]) ∧
    ∀ bytes : List UInt8,
      (afterReceiveBytes (.init rxCells txCells frame) bytes).txBuffer.overrun = false ∧
      ∀ e ∈ receiveBytes (.init rxCells txCells frame) bytes,
        e.checked.rxFramebuffer.overrun = false ∧ Fragments e.written e.answer := by
  have hinit := serves_init rxCells txCells frame
  constructor
  · intro requests
    rw [flatMap_bytes]
    constructor
    · rw [receiveBytes_data hinit, List.flatMap_map]
    · intro e he data hdata
      obtain ⟨m, rfl, hanswer⟩ := receiveBytes_request hinit _ e he data hdata
      rw [hanswer]
      refine ⟨m.encode_length _, m.encode_length_le _, ?_⟩
      intro peerRxCells peerTxCells peerFrame
      have hpeer := receiveBytes_data (serves_init peerRxCells peerTxCells peerFrame) canResponseShowInfo [m]
      rwa [List.flatMap_singleton, List.flatMap_singleton] at hpeer
  · intro bytes
    constructor
    · exact afterReceiveBytes_intact hinit bytes
    · intro e he
      have hshows := receiveBytes_shows hinit bytes e he
      exact ⟨hshows.intact, hshows.written⟩

end RemoteManage.CanNet

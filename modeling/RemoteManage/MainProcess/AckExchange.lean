import RemoteManage.Foundation.Transition
import RemoteManage.MainProcess.FrameStream

/-!
# Two peers that acknowledge each other's frames

Two `protocol_info` objects are connected by a stream of bytes in each direction. A peer
may build a data frame with `create_output_frame` at any time, which is put on its stream
as a whole, and it may read the next byte that has reached it, in one turn of
`tcp_rx_run`; what `process_rx_frame` emits in that turn is put on its stream.

The peers carry their history: the frames built, the blocks put on the stream and the
turns of the receive loop. On each stream the blocks put on it are those the receiver has
finished followed by those still under way, and everything about acknowledgements follows
from what a single turn answers.
-/

namespace RemoteManage.MainProcess

open RemoteManage.Foundation

/-- The function byte of a frame. -/
def frameFunc (frame : List UInt8) : UInt8 := frame.getD 4 0

/-- The sequence number of a frame. -/
def frameSequence (frame : List UInt8) : UInt16 := joinBytes (frame.getD 2 0) (frame.getD 3 0)

/-- Data frames have function byte zero. -/
def isData (frame : List UInt8) : Bool := frameFunc frame = 0

/-- Acknowledgements have the function byte `FUNCTION_ACK`. -/
def isAck (frame : List UInt8) : Bool := frameFunc frame = functionAck

@[simp] theorem frameFunc_encode (f : Frame) : frameFunc f.encode = f.func := rfl

@[simp] theorem frameSequence_encode (f : Frame) : frameSequence f.encode = f.sequence :=
  joinBytes_highByte_lowByte f.sequence

/-- What is emitted for a finished frame. -/
def answer (frame : List UInt8) : List (List UInt8) :=
  if isData frame then [(Frame.ack (frameSequence frame)).encode] else []

/-- `process_rx_frame` answers the frame in the receive buffer. -/
theorem processRxFrame_holds {s : ProtocolInfo} {f : Frame} (h : s.rx.Holds f.encode) :
    processRxFrame s = answer f.encode := by
  have hlen : 8 ≤ f.encode.length := by
    rw [f.encode_length]
    exact Nat.le_add_left _ _
  have hfunc : s.rxBuffer.read 4 = frameFunc f.encode := h.read (by omega) 0
  have hhigh : s.rxBuffer.read 2 = f.encode.getD 2 0 := h.read (by omega) 0
  have hlow : s.rxBuffer.read 3 = f.encode.getD 3 0 := h.read (by omega) 0
  have hack := (sendFuncData_holds (uninitialised 64) rfl (frameSequence f.encode) functionAck).written_eq
  change _ = (Frame.ack (frameSequence f.encode)).encode at hack
  have hsequence : joinBytes (s.rxBuffer.read 2) (s.rxBuffer.read 3) = frameSequence f.encode := by
    rw [hhigh, hlow, frameSequence]
  unfold processRxFrame answer isData
  dsimp only
  rw [hfunc, hsequence, hack]
  by_cases hdata : frameFunc f.encode = 0
  · have hnack : ¬ frameFunc f.encode = functionAck := by
      rw [hdata]
      decide
    simp only [hdata, if_true, decide_true]
    split
    · rw [if_neg (by decide)]
    · rfl
  · simp only [hdata, if_false, decide_false, Bool.false_eq_true, ite_self]

/-- What a turn of the receive loop has emitted answers the frame it has finished, if any. -/
def RxEvent.Answered (turn : RxEvent) : Prop :=
  turn.replies = turn.finished.elim [] answer

/-- Every turn emits the answer to the frame it finishes, and what it finishes is well-formed. -/
theorem tcpRxStep_answered {s : ProtocolInfo} {held : List UInt8} (h : Represents s held)
    (byte : RxByte) :
    (tcpRxStep s byte).2.Answered ∧
      ∀ f, (tcpRxStep s byte).2.finished = some f → ∃ frame : Frame, f = frame.encode := by
  have hfollows := checkRxFrame_follows h byte.now byte.data
  have hfinished := (tcpRxStep_represents h byte).2
  unfold RxEvent.Answered
  unfold FrameDecoder.step at hfinished
  rw [hfinished]
  cases hprogress : protocolDecoder held byte.data with
  | hold l =>
    rw [(tcpRxStep_of_hold h hprogress).2.1]
    exact ⟨rfl, fun f hf => by contradiction⟩
  | reject =>
    rw [hprogress] at hfollows
    simp only [tcpRxStep, hfollows.1]
    exact ⟨rfl, fun f hf => by contradiction⟩
  | frame f =>
    rw [hprogress] at hfollows
    obtain ⟨frame, rfl⟩ := protocolDecoder_frame_encode h.inProgress byte.data f hprogress
    simp only [tcpRxStep, hfollows.1]
    refine ⟨processRxFrame_holds hfollows.2, ?_⟩
    intro g hg
    exact ⟨frame, (Option.some.inj hg).symm⟩

/-- The two peers. -/
inductive Side where
  | near
  | far
  deriving DecidableEq, Repr

/-- The peer at the other end. -/
def Side.other : Side → Side
  | near => far
  | far => near

/-- A peer: its object, the bytes under way to it, and what it has done so far. -/
structure Peer where
  protocol : ProtocolInfo
  inbound : List UInt8
  sent : List (List UInt8)
  emitted : List (List UInt8)
  turns : List RxEvent

namespace Peer

/-- A peer that has done nothing yet. -/
def fresh (protocol : ProtocolInfo) : Peer := ⟨protocol, [], [], [], []⟩

/-- The frames that the receive loop has finished. -/
def finished (p : Peer) : List (List UInt8) := p.turns.filterMap RxEvent.finished

/-- The blocks that `process_rx_frame` has emitted. -/
def acks (p : Peer) : List (List UInt8) := p.turns.flatMap RxEvent.replies

/-- The peer puts the frame that `create_output_frame` makes of a payload on its stream. -/
def send (p : Peer) (payload : List UInt8) : Peer × List (List UInt8) :=
  let out := createOutputFrame p.protocol (uninitialised maxTxBufferLength) payload
  ({ p with
      protocol := out.1
      sent := p.sent ++ [out.2.written]
      emitted := p.emitted ++ [out.2.written] }, [out.2.written])

/-- The peer takes a turn of its receive loop, with `rest` still under way to it. -/
def receive (p : Peer) (byte : RxByte) (rest : List UInt8) : Peer × List (List UInt8) :=
  let turn := tcpRxStep p.protocol byte
  ({ p with
      protocol := turn.1
      inbound := rest
      emitted := p.emitted ++ turn.2.replies
      turns := p.turns ++ [turn.2] }, turn.2.replies)

/-- More blocks are under way to the peer. -/
def deliver (p : Peer) (blocks : List (List UInt8)) : Peer :=
  { p with inbound := p.inbound ++ blocks.flatten }

end Peer

/-- Which peer does something, and what. -/
inductive ExchangeEvent where
  | send (side : Side) (payload : {payload : List UInt8 // payload.length ≤ 255})
  | receive (side : Side) (now : UInt32)

/-- The peers after one of them has moved and put blocks on its stream. -/
def exchange (peers : Side → Peer) (side : Side) (moved : Peer × List (List UInt8)) : Side → Peer :=
  fun x => if x = side then moved.1 else (peers x).deliver moved.2

/-- One event of the exchange; a byte can be read only when one is under way. -/
def exchangeStep (peers : Side → Peer) : ExchangeEvent → Option (Side → Peer)
  | .send side payload => some (exchange peers side ((peers side).send payload))
  | .receive side now =>
    match (peers side).inbound with
    | [] => none
    | data :: rest => some (exchange peers side ((peers side).receive ⟨now, data⟩ rest))

/-- What is emitted for a frame is acknowledgements. -/
theorem exists_ack_of_mem_answer {frame block : List UInt8} (h : block ∈ answer frame) :
    ∃ sequence, block = (Frame.ack sequence).encode := by
  unfold answer at h
  split at h
  · exact ⟨frameSequence frame, List.mem_singleton.mp h⟩
  · exact absurd h List.not_mem_nil

/-- What a turn emits is acknowledgements. -/
theorem RxEvent.Answered.exists_ack {turn : RxEvent} (h : turn.Answered) {block : List UInt8}
    (hblock : block ∈ turn.replies) : ∃ sequence, block = (Frame.ack sequence).encode := by
  rw [h] at hblock
  cases hfinished : turn.finished with
  | none =>
    rw [hfinished] at hblock
    exact absurd hblock List.not_mem_nil
  | some frame =>
    rw [hfinished] at hblock
    exact exists_ack_of_mem_answer hblock

/-- The answers to frames are the acknowledgements of the data frames among them, in order. -/
theorem flatMap_answer (frames : List (List UInt8)) :
    frames.flatMap answer =
      (frames.filter isData).map fun f => (Frame.ack (frameSequence f)).encode := by
  induction frames with
  | nil => rfl
  | cons f frames ih =>
    rw [List.flatMap_cons, ih, answer]
    by_cases hdata : isData f
    · rw [if_pos hdata, List.filter_cons_of_pos hdata, List.map_cons, List.singleton_append]
    · rw [if_neg hdata, List.filter_cons_of_neg hdata, List.nil_append]

/-- What turns have emitted is the answers to the frames they have finished. -/
theorem flatMap_replies (turns : List RxEvent) (h : ∀ turn ∈ turns, turn.Answered) :
    turns.flatMap RxEvent.replies = (turns.filterMap RxEvent.finished).flatMap answer := by
  induction turns with
  | nil => rfl
  | cons turn turns ih =>
    have hturn : turn.replies = turn.finished.elim [] answer := h turn List.mem_cons_self
    have hrest := ih fun t ht => h t (List.mem_cons_of_mem turn ht)
    rw [List.flatMap_cons, hrest, hturn]
    cases hfinished : turn.finished with
    | none => rw [List.filterMap_cons_none hfinished, Option.elim_none, List.nil_append]
    | some f => rw [List.filterMap_cons_some hfinished, Option.elim_some, List.flatMap_cons]

/-- What a peer has put on its stream is the data frames it has built and the acknowledgements
its turns have emitted. -/
structure Peer.Consistent (p : Peer) : Prop where
  answered : ∀ turn ∈ p.turns, turn.Answered
  wellFormed : ∀ block ∈ p.emitted, ∃ f : Frame, block = f.encode
  data : p.emitted.filter isData = p.sent
  acks : p.emitted.filter isAck = p.acks
  total : p.emitted.length = p.sent.length + p.acks.length

/-- The blocks one peer has put on its stream are those the other has finished, followed by those
whose bytes are held or under way. -/
def Linked (sender receiver : Peer) : Prop :=
  ∃ held pending, Represents receiver.protocol held ∧
    protocolDecoder.Carries held receiver.inbound pending ∧
    sender.emitted = receiver.finished ++ pending

/-- The frame that a peer builds is a data frame with the next sequence number. -/
theorem Peer.send_written (p : Peer) (payload : List UInt8) (h : payload.length ≤ 255) :
    (createOutputFrame p.protocol (uninitialised maxTxBufferLength) payload).2.written =
      (Frame.mk (p.protocol.sequenceNum + 1) 0 payload h).encode :=
  (createOutputFrame_holds p.protocol (uninitialised maxTxBufferLength) rfl payload h).written_eq

/-- Building a frame keeps the history consistent. -/
theorem Peer.Consistent.send {p : Peer} (h : p.Consistent) (payload : List UInt8)
    (hpayload : payload.length ≤ 255) : (p.send payload).1.Consistent := by
  let f := Frame.mk (p.protocol.sequenceNum + 1) 0 payload hpayload
  have hwritten : (createOutputFrame p.protocol (uninitialised maxTxBufferLength) payload).2.written =
      f.encode := p.send_written payload hpayload
  have hdata : isData f.encode = true := by
    unfold isData
    rw [frameFunc_encode]
    rfl
  have hack : isAck f.encode = false := by
    unfold isAck
    rw [frameFunc_encode]
    rfl
  unfold Peer.send
  dsimp only
  rw [hwritten]
  refine ⟨h.answered, ?_, ?_, ?_, ?_⟩
  · intro block hblock
    rcases List.mem_append.mp hblock with hblock | hblock
    · exact h.wellFormed block hblock
    · exact ⟨f, List.mem_singleton.mp hblock⟩
  · change (p.emitted ++ [f.encode]).filter isData = p.sent ++ [f.encode]
    rw [List.filter_append, h.data, List.filter_cons_of_pos hdata, List.filter_nil]
  · change (p.emitted ++ [f.encode]).filter isAck = p.acks
    rw [List.filter_append, h.acks, List.filter_cons_of_neg (by rw [hack]; decide), List.filter_nil,
      List.append_nil]
  · change (p.emitted ++ [f.encode]).length = (p.sent ++ [f.encode]).length + p.acks.length
    rw [List.length_append, List.length_append, h.total]
    omega

/-- A turn of the receive loop keeps the history consistent. -/
theorem Peer.Consistent.receive {p : Peer} (h : p.Consistent) {held : List UInt8}
    (hrep : Represents p.protocol held) (byte : RxByte) (rest : List UInt8) :
    (p.receive byte rest).1.Consistent := by
  have hturn := (tcpRxStep_answered hrep byte).1
  let turn := (tcpRxStep p.protocol byte).2
  have hacks : (p.receive byte rest).1.acks = p.acks ++ turn.replies := by
    change (p.turns ++ [turn]).flatMap RxEvent.replies = _
    rw [List.flatMap_append, List.flatMap_singleton]
    rfl
  have hdata : turn.replies.filter isData = [] := by
    rw [List.filter_eq_nil_iff]
    intro block hblock
    obtain ⟨sequence, rfl⟩ := hturn.exists_ack hblock
    unfold isData
    rw [frameFunc_encode]
    change ¬ decide (functionAck = 0) = true
    decide
  have hack : turn.replies.filter isAck = turn.replies := by
    rw [List.filter_eq_self]
    intro block hblock
    obtain ⟨sequence, rfl⟩ := hturn.exists_ack hblock
    unfold isAck
    rw [frameFunc_encode]
    exact decide_eq_true rfl
  refine ⟨?_, ?_, ?_, ?_, ?_⟩
  · intro t ht
    rcases List.mem_append.mp ht with ht | ht
    · exact h.answered t ht
    · exact List.mem_singleton.mp ht ▸ hturn
  · intro block hblock
    rcases List.mem_append.mp hblock with hblock | hblock
    · exact h.wellFormed block hblock
    · obtain ⟨sequence, hsequence⟩ := hturn.exists_ack hblock
      exact ⟨Frame.ack sequence, hsequence⟩
  · change (p.emitted ++ turn.replies).filter isData = p.sent
    rw [List.filter_append, h.data, hdata, List.append_nil]
  · rw [hacks]
    change (p.emitted ++ turn.replies).filter isAck = _
    rw [List.filter_append, h.acks, hack]
  · rw [hacks]
    change (p.emitted ++ turn.replies).length = p.sent.length + _
    rw [List.length_append, List.length_append, h.total]
    omega

/-- Blocks put on the stream are under way behind those before them. -/
theorem Linked.deliver {sender receiver moved : Peer} (h : Linked sender receiver)
    {blocks : List (List UInt8)} (hemitted : moved.emitted = sender.emitted ++ blocks)
    (hblocks : ∀ block ∈ blocks, ∃ f : Frame, block = f.encode) :
    Linked moved (receiver.deliver blocks) := by
  obtain ⟨held, pending, hrep, hcarries, hsplit⟩ := h
  have hreads : ∀ block ∈ blocks, protocolDecoder.Reads block := by
    intro block hblock
    obtain ⟨f, rfl⟩ := hblocks block hblock
    exact protocolDecoder_reads f
  refine ⟨held, pending ++ blocks, hrep, hcarries.appendAll blocks hreads, ?_⟩
  rw [hemitted, hsplit, List.append_assoc]
  rfl

/-- A turn of the receive loop either holds the byte or finishes the first block under way. -/
theorem Linked.receive {sender receiver : Peer} (h : Linked sender receiver) {data : UInt8}
    {rest : List UInt8} (hinbound : receiver.inbound = data :: rest) (now : UInt32) :
    Linked sender (receiver.receive ⟨now, data⟩ rest).1 := by
  obtain ⟨held, pending, hrep, hcarries, hsplit⟩ := h
  let turn := (tcpRxStep receiver.protocol ⟨now, data⟩).2
  obtain ⟨hafter, hfinished⟩ := tcpRxStep_represents hrep ⟨now, data⟩
  have hturns : (receiver.receive ⟨now, data⟩ rest).1.finished =
      receiver.finished ++ turn.finished.toList := by
    change (receiver.turns ++ [turn]).filterMap RxEvent.finished = _
    rw [List.filterMap_append]
    cases hturn : turn.finished with
    | none => rw [List.filterMap_cons_none hturn]; rfl
    | some f => rw [List.filterMap_cons_some hturn]; rfl
  rw [hinbound] at hcarries
  unfold FrameDecoder.step at hafter hfinished
  rcases hcarries.step with ⟨hhold, hnext⟩ | ⟨f, others, rfl, hframe, hnext⟩
  · rw [hhold] at hafter hfinished
    refine ⟨held ++ [data], pending, hafter, hnext, ?_⟩
    rw [hturns, hfinished, hsplit]
    simp only [Progress.completed, Option.toList_none, List.append_nil]
  · rw [hframe] at hafter hfinished
    refine ⟨[], others, hafter, hnext, ?_⟩
    rw [hturns, hfinished, hsplit]
    simp only [Progress.completed, Option.toList_some, List.append_assoc, List.singleton_append]

/-- What holds of the two peers whatever has happened. -/
def ExchangeInvariant (peers : Side → Peer) : Prop :=
  ∀ side, (peers side).Consistent ∧ Linked (peers side) (peers side.other)

/-- A side is the acting one or the one at the other end. -/
theorem Side.eq_or_eq_other (x side : Side) : x = side ∨ x = side.other := by
  cases x <;> cases side <;> simp [Side.other]

@[simp] theorem Side.other_other (side : Side) : side.other.other = side := by
  cases side <;> rfl

theorem Side.other_ne (side : Side) : side.other ≠ side := by
  cases side <;> simp [Side.other]

/-- A move of one peer keeps the invariant when it keeps the peer's history and what is linked to
it, and what it puts on the stream is well-formed frames. -/
theorem exchange_invariant {peers : Side → Peer} (h : ExchangeInvariant peers) (side : Side)
    {moved : Peer × List (List UInt8)} (hconsistent : moved.1.Consistent)
    (hlinked : Linked (peers side.other) moved.1)
    (hemitted : moved.1.emitted = (peers side).emitted ++ moved.2) :
    ExchangeInvariant (exchange peers side moved) := by
  have hme : exchange peers side moved side = moved.1 := if_pos rfl
  have hother : exchange peers side moved side.other = (peers side.other).deliver moved.2 :=
    if_neg side.other_ne
  intro x
  rcases x.eq_or_eq_other side with rfl | rfl
  · rw [hme, hother]
    refine ⟨hconsistent, (h x).2.deliver hemitted ?_⟩
    intro block hblock
    apply hconsistent.wellFormed
    rw [hemitted]
    exact List.mem_append_right _ hblock
  · rw [Side.other_other, hme, hother]
    obtain ⟨hanswered, hwellFormed, hdata, hacks, htotal⟩ := (h side.other).1
    exact ⟨⟨hanswered, hwellFormed, hdata, hacks, htotal⟩, hlinked⟩

/-- Every event of the exchange keeps the invariant. -/
theorem exchangeStep_invariant {peers next : Side → Peer} {e : ExchangeEvent}
    (h : ExchangeInvariant peers) (hstep : exchangeStep peers e = some next) :
    ExchangeInvariant next := by
  cases e with
  | send side payload =>
    obtain rfl := Option.some.inj hstep
    have hback := (h side.other).2
    rw [Side.other_other] at hback
    obtain ⟨held, pending, ⟨hprogress, hstatus, hintact, hholds⟩, hcarries, hsplit⟩ := hback
    refine exchange_invariant h side ((h side).1.send payload.1 payload.2) ?_ rfl
    exact ⟨held, pending, ⟨hprogress, hstatus, hintact, hholds⟩, hcarries, hsplit⟩
  | receive side now =>
    unfold exchangeStep at hstep
    dsimp only at hstep
    split at hstep
    · contradiction
    · next data rest hinbound =>
      obtain rfl := Option.some.inj hstep
      have hback := (h side.other).2
      rw [Side.other_other] at hback
      obtain ⟨held, pending, hrep, -, -⟩ := hback
      have hlinked := (h side.other).2
      rw [Side.other_other] at hlinked
      exact exchange_invariant h side ((h side).1.receive hrep ⟨now, data⟩ rest)
        (hlinked.receive hinbound now) rfl

/-- Two idle peers between which nothing has happened. -/
theorem exchangeInvariant_fresh (start : Side → ProtocolInfo)
    (hstart : ∀ side, (start side).rxStatus = .frameEmpty ∧ (start side).rxBuffer.overrun = false) :
    ExchangeInvariant fun side => Peer.fresh (start side) := by
  intro side
  obtain ⟨hstatus, hintact⟩ := hstart side.other
  refine ⟨⟨?_, ?_, rfl, rfl, rfl⟩, [], [], represents_nil hstatus hintact, .nil _, rfl⟩
  · intro turn hturn
    exact absurd hturn List.not_mem_nil
  · intro block hblock
    exact absurd hblock List.not_mem_nil

/-- What the acknowledgement protocol is for, told of one peer and the peer at the other end. -/
structure AckDiscipline (me other : Peer) : Prop where
  /-- A finished data frame, empty or not, is answered by exactly one acknowledgement of it. -/
  data_answered : ∀ turn ∈ me.turns, ∀ f, turn.finished = some f → frameFunc f = 0 →
    ∃ ack, turn.replies = [ack] ∧ ack.length = 8 ∧ frameFunc ack = 0x80 ∧
      frameSequence ack = frameSequence f
  /-- Any other finished frame is not answered. -/
  ack_silent : ∀ turn ∈ me.turns, ∀ f, turn.finished = some f → frameFunc f ≠ 0 → turn.replies = []
  /-- A byte that finishes no frame is not answered. -/
  byte_silent : ∀ turn ∈ me.turns, turn.finished = none → turn.replies = []
  /-- There are as many acknowledgements emitted as data frames finished. -/
  acks_length : me.acks.length = (me.finished.filter isData).length
  /-- The other peer finishes what this one has put on its stream, in order. -/
  finished_prefix : other.finished <+: me.emitted
  /-- Once nothing is under way to it, it has finished all of it. -/
  finished_all : other.inbound = [] → other.finished = me.emitted
  /-- What it takes for acknowledgements is the acknowledgements emitted, in order. -/
  acks_decoded : other.finished.filter isAck <+: me.acks
  /-- They carry its own sequence numbers in the order in which it has sent them. -/
  acks_sequence : me.acks.map frameSequence <+: other.sent.map frameSequence
  /-- Nothing is put on the stream except data frames built and acknowledgements emitted. -/
  traffic : me.emitted.length = me.sent.length + me.acks.length

/-- The invariant gives the discipline for each of the two peers. -/
theorem ackDiscipline_of_invariant {peers : Side → Peer} (h : ExchangeInvariant peers) (side : Side) :
    AckDiscipline (peers side) (peers side.other) := by
  obtain ⟨hme, held, pending, hrep, hcarries, hsplit⟩ := h side
  obtain ⟨-, pendingBack, hback⟩ : ∃ held pending, (peers side.other).emitted =
      (peers side).finished ++ pending := by
    obtain ⟨held, pending, -, -, hsplit⟩ := (h side.other).2
    rw [Side.other_other] at hsplit
    exact ⟨held, pending, hsplit⟩
  have hacks : (peers side).acks =
      ((peers side).finished.filter isData).map fun f => (Frame.ack (frameSequence f)).encode := by
    rw [Peer.acks, flatMap_replies _ hme.answered, flatMap_answer]
    rfl
  have hprefix : (peers side.other).finished <+: (peers side).emitted := ⟨pending, hsplit.symm⟩
  refine ⟨?_, ?_, ?_, ?_, hprefix, ?_, ?_, ?_, hme.total⟩
  · intro turn hturn f hfinished hdata
    have hreplies := hme.answered turn hturn
    have hdata' : isData f := decide_eq_true hdata
    rw [RxEvent.Answered, hfinished, Option.elim_some, answer, if_pos hdata'] at hreplies
    exact ⟨_, hreplies, (Frame.ack (frameSequence f)).encode_length, frameFunc_encode _,
      frameSequence_encode _⟩
  · intro turn hturn f hfinished hdata
    have hreplies := hme.answered turn hturn
    have hdata' : ¬ isData f = true := fun hf => hdata (of_decide_eq_true hf)
    rwa [RxEvent.Answered, hfinished, Option.elim_some, answer, if_neg hdata'] at hreplies
  · intro turn hturn hfinished
    have hreplies := hme.answered turn hturn
    rwa [RxEvent.Answered, hfinished, Option.elim_none] at hreplies
  · rw [hacks, List.length_map]
  · intro hinbound
    rw [hinbound] at hcarries
    rw [hsplit, hcarries.pending_eq_nil, List.append_nil]
  · rw [← hme.acks]
    exact hprefix.filter isAck
  · have hsent : (peers side).finished.filter isData <+: (peers side.other).sent := by
      rw [← (h side.other).1.data, hback]
      exact (List.prefix_append _ _).filter isData
    rw [hacks, List.map_map]
    have hmap : (frameSequence ∘ fun f => (Frame.ack (frameSequence f)).encode) = frameSequence := by
      funext f
      exact frameSequence_encode (Frame.ack (frameSequence f))
    rw [hmap]
    exact hsent.map frameSequence

/-- A peer that only reads takes in all that is under way to it, and the other puts nothing more
on its stream meanwhile. -/
theorem exchange_drain (peers : Side → Peer) (side : Side) (now : UInt32) (n : ℕ)
    (hn : (peers side).inbound.length = n) :
    ∃ later, Transition.run exchangeStep peers (List.replicate n (.receive side now)) = some later ∧
      (later side).inbound = [] ∧ (later side.other).emitted = (peers side.other).emitted := by
  induction n generalizing peers with
  | zero => exact ⟨peers, rfl, List.length_eq_zero_iff.mp hn, rfl⟩
  | succ n ih =>
    obtain ⟨data, rest, hinbound⟩ := List.exists_cons_of_length_eq_add_one hn
    let next := exchange peers side ((peers side).receive ⟨now, data⟩ rest)
    have hstep : exchangeStep peers (.receive side now) = some next := by
      unfold exchangeStep
      dsimp only
      rw [hinbound]
    have hme : next side = ((peers side).receive ⟨now, data⟩ rest).1 := if_pos rfl
    have hother : next side.other =
        (peers side.other).deliver ((peers side).receive ⟨now, data⟩ rest).2 := if_neg side.other_ne
    have hrest : (next side).inbound.length = n := by
      rw [hme]
      rw [hinbound, List.length_cons] at hn
      exact Nat.succ.inj hn
    obtain ⟨later, hrun, hempty, hemitted⟩ := ih next hrest
    rw [hother] at hemitted
    refine ⟨later, ?_, hempty, hemitted⟩
    rw [List.replicate_succ, Transition.run, hstep]
    exact hrun

/-- Two peers exchange frames in any order and number, from any sequence numbers. Every data frame
a peer finishes is answered by exactly one acknowledgement with its sequence number, nothing else
is answered, and the other peer decodes these acknowledgements as such, in the order in which it
has sent the frames. Whatever is under way to it, it finishes by reading on. -/
theorem exchange_ackDiscipline (start : Side → ProtocolInfo)
    (hstart : ∀ side, (start side).rxStatus = .frameEmpty ∧ (start side).rxBuffer.overrun = false)
    (events : List ExchangeEvent) (peers : Side → Peer)
    (hrun : Transition.run exchangeStep (fun side => Peer.fresh (start side)) events = some peers)
    (side : Side) :
    AckDiscipline (peers side) (peers side.other) ∧
      ∀ now, ∃ n later,
        Transition.run exchangeStep peers (List.replicate n (.receive side.other now)) = some later ∧
          (later side.other).finished = (peers side).emitted := by
  have hinvariant : ExchangeInvariant peers :=
    Transition.run_invariant ExchangeInvariant (fun _ _ _ h hstep => exchangeStep_invariant h hstep)
      hrun (exchangeInvariant_fresh start hstart)
  refine ⟨ackDiscipline_of_invariant hinvariant side, ?_⟩
  intro now
  obtain ⟨later, hlater, hempty, hemitted⟩ := exchange_drain peers side.other now _ rfl
  have hreached : ExchangeInvariant later :=
    Transition.run_invariant ExchangeInvariant (fun _ _ _ h hstep => exchangeStep_invariant h hstep)
      hlater hinvariant
  have hall := (ackDiscipline_of_invariant hreached side).finished_all hempty
  rw [Side.other_other] at hemitted
  exact ⟨_, later, hlater, hall.trans hemitted⟩

/-- A heartbeat from one peer makes the other acknowledge sequence number 1. -/
theorem exchange_ackDiscipline_heartbeat :
    ∃ peers, Transition.run exchangeStep (fun _ => Peer.fresh .init)
        (.send .near ⟨[], by decide⟩ :: List.replicate 8 (.receive .far 0)) = some peers ∧
      (peers .far).acks.map frameSequence = [1] ∧ AckDiscipline (peers .far) (peers .near) := by
  have hacks : (Transition.run exchangeStep (fun _ => Peer.fresh .init)
      (.send .near ⟨[], by decide⟩ :: List.replicate 8 (.receive .far 0))).map
        (fun peers => (peers .far).acks.map frameSequence) = some [1] := by decide
  obtain ⟨peers, hrun, hsequence⟩ := Option.map_eq_some_iff.mp hacks
  exact ⟨peers, hrun, hsequence,
    (exchange_ackDiscipline (fun _ => .init) (fun _ => ⟨rfl, rfl⟩) _ peers hrun .far).1⟩

end RemoteManage.MainProcess

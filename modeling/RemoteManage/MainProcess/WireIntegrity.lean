import RemoteManage.Foundation.DeferredWrite
import RemoteManage.Foundation.Transition
import RemoteManage.MainProcess.Frame

/-!
# What the server puts on the socket

Two threads hand byte blocks to `asio_server::do_write`. The receive thread does so in
`send_func_data`, whose frame is a local array: once it has returned, the next call and
everything else the thread does may store into that part of its stack. The transmit thread
reads the transmit FIFO into one buffer again and again. `async_write` keeps the address
it was given and sends the bytes found there later, in pieces, and writes under way are
not ordered among themselves.

The wire carries the blocks as they were submitted as long as no buffer is stored into
while bytes of it are still to be sent, and one write is sent at a time (`run_wire`). The
code does nothing to keep to that, and `run_wire_overwritten` is a run in which it does not.
-/

namespace RemoteManage.MainProcess

open RemoteManage.Foundation

/-- `TX_BUFFER_SIZE`. -/
abbrev txBufferSize : ℕ := 1024

/-- The memory that writes refer to. -/
inductive Source where
  | rxStack
  | txBuffer
  deriving DecidableEq, Repr

/-- The stack of the receive thread where `send_func_data` has its array, and the buffer of
`tcp_tx_run`. -/
structure Buffers where
  rxStack : FixedBuffer UInt8 64
  txBuffer : FixedBuffer UInt8 txBufferSize

/-- The bytes in memory. -/
def Buffers.view (m : Buffers) : Source → List UInt8
  | .rxStack => m.rxStack.cells.toList
  | .txBuffer => m.txBuffer.cells.toList

/-- The two threads and the writes they have submitted to one session. `txSize` is what the
transmit thread has read from the FIFO and not yet handed on. -/
structure TcpWriter where
  writes : DeferredWrite.State Buffers Source UInt8
  txSize : ℕ

/-- A step of one of the threads. -/
inductive WireEvent where
  /-- The receive thread answers a frame: `send_func_data(sequence, FUNCTION_ACK)`. -/
  | reply (sequence : UInt16)
  /-- The receive thread stores into the part of its stack where the array has been. -/
  | stackStore (i : ℕ) (x : UInt8)
  /-- The transmit thread reads from the FIFO into its buffer. -/
  | readTxFifo (bytes : List UInt8)
  /-- The transmit thread hands on what it has read. -/
  | doWrite
  /-- The `io_context` thread sends a piece of a write under way. -/
  | send (op : DeferredWrite.Op Source UInt8) (n : ℕ)

namespace TcpWriter

/-- No write has been submitted yet. -/
def init (m : Buffers) : TcpWriter := ⟨⟨m, 0, [], []⟩, 0⟩

/-- The memory while a new content of the receive thread's stack is in place. -/
def storeStack (s : TcpWriter) (rxStack : FixedBuffer UInt8 64) :
    DeferredWrite.State Buffers Source UInt8 :=
  DeferredWrite.store s.writes { s.writes.memory with rxStack := rxStack }

/-- One step. -/
def step (s : TcpWriter) : WireEvent → Option TcpWriter
  | .reply sequence =>
    let frame := sendFuncData s.writes.memory.rxStack sequence functionAck
    some { s with
      writes := DeferredWrite.submit Buffers.view (s.storeStack frame.buffer) .rxStack frame.size }
  | .stackStore i x =>
    if i < 64 then some { s with writes := s.storeStack (s.writes.memory.rxStack.write i x) } else none
  | .readTxFifo bytes =>
    if s.txSize = 0 ∧ bytes.length ≤ txBufferSize then
      some {
        writes := DeferredWrite.store s.writes
          { s.writes.memory with txBuffer := s.writes.memory.txBuffer.writeAll 0 bytes }
        txSize := bytes.length }
    else none
  | .doWrite =>
    if 0 < s.txSize then
      some { writes := DeferredWrite.submit Buffers.view s.writes .txBuffer s.txSize, txSize := 0 }
    else none
  | .send op n => (DeferredWrite.send Buffers.view s.writes op n).map fun writes => { s with writes }

/-- The step leaves alone what the writes under way are still to send, and it sends nothing of a
write while another one is partly sent. -/
def Undisturbed (s : TcpWriter) : WireEvent → Prop
  | .reply sequence =>
    ∀ op ∈ s.writes.outstanding,
      DeferredWrite.unsent Buffers.view
          (s.storeStack (sendFuncData s.writes.memory.rxStack sequence functionAck).buffer).memory op =
        DeferredWrite.unsent Buffers.view s.writes.memory op
  | .stackStore i x =>
    ∀ op ∈ s.writes.outstanding,
      DeferredWrite.unsent Buffers.view (s.storeStack (s.writes.memory.rxStack.write i x)).memory op =
        DeferredWrite.unsent Buffers.view s.writes.memory op
  | .readTxFifo bytes =>
    ∀ op ∈ s.writes.outstanding,
      DeferredWrite.unsent Buffers.view
          { s.writes.memory with txBuffer := s.writes.memory.txBuffer.writeAll 0 bytes } op =
        DeferredWrite.unsent Buffers.view s.writes.memory op
  | .doWrite => True
  | .send op _ => ∀ other ∈ s.writes.outstanding.erase op, other.sent = 0

/-- What the threads rely on, and an orderly wire. -/
structure Sound (s : TcpWriter) : Prop where
  intact : s.writes.memory.rxStack.overrun = false
  txSize_le : s.txSize ≤ txBufferSize
  orderly : DeferredWrite.Orderly Buffers.view s.writes

/-- A step that disturbs no write under way keeps the wire orderly. -/
theorem step_sound {s s' : TcpWriter} {e : WireEvent} (h : Sound s) (hundisturbed : Undisturbed s e)
    (hstep : step s e = some s') : Sound s' := by
  obtain ⟨hintact, htx, horderly⟩ := h
  cases e with
  | reply sequence =>
    obtain rfl := Option.some.inj hstep
    have hframe := sendFuncData_holds s.writes.memory.rxStack hintact sequence functionAck
    have hsize : (sendFuncData s.writes.memory.rxStack sequence functionAck).size = 8 :=
      hframe.size.trans (Frame.empty sequence functionAck).encode_length
    have hstored := horderly.store _ hundisturbed
    refine ⟨hframe.intact, htx, ?_⟩
    apply hstored.submit
    · rw [hsize]
      exact Nat.succ_pos 7
    · rw [hsize]
      change 8 ≤ (Vector.toList _).length
      rw [Vector.length_toList]
      decide
  | stackStore i x =>
    obtain ⟨hi, rfl⟩ := Transition.enabled_of_ite hstep
    exact ⟨(FixedBuffer.write_overrun _ x hi).trans hintact, htx, horderly.store _ hundisturbed⟩
  | readTxFifo bytes =>
    obtain ⟨⟨-, hlen⟩, rfl⟩ := Transition.enabled_of_ite hstep
    exact ⟨hintact, hlen, horderly.store _ hundisturbed⟩
  | doWrite =>
    obtain ⟨hpos, rfl⟩ := Transition.enabled_of_ite hstep
    refine ⟨hintact, Nat.zero_le _, horderly.submit .txBuffer hpos ?_⟩
    change s.txSize ≤ (Vector.toList _).length
    rw [Vector.length_toList]
    exact htx
  | send op n =>
    obtain ⟨writes, hsend, rfl⟩ := Option.map_eq_some_iff.mp hstep
    refine ⟨?_, htx, horderly.send hundisturbed hsend⟩
    change writes.memory.rxStack.overrun = false
    rw [DeferredWrite.send_memory hsend]
    exact hintact

/-- As long as no step disturbs the writes under way, the socket carries the submitted blocks, each
once, in one piece and with the bytes it had at submission. -/
theorem run_wire (m : Buffers) (hm : m.rxStack.overrun = false) (events : List WireEvent)
    (t : TcpWriter) (hrun : Transition.run step (init m) events = some t)
    (hundisturbed : Transition.Along step Undisturbed (init m) events) :
    DeferredWrite.Concatenated t.writes := by
  have hinit : Sound (init m) := ⟨hm, Nat.zero_le _, DeferredWrite.orderly_initial m⟩
  have hsound : Sound t :=
    Transition.run_invariant_along Undisturbed Sound (fun _ _ _ h hcond hstep => step_sound h hcond hstep)
      hrun hundisturbed hinit
  exact hsound.orderly.concatenated

/-- The buffers are used only while no write is under way, and a write goes on alone. -/
def InTurn (s : TcpWriter) : WireEvent → Prop
  | .doWrite => True
  | .send op _ => s.writes.outstanding.erase op = 0
  | _ => s.writes.outstanding = 0

instance (s : TcpWriter) : (e : WireEvent) → Decidable (InTurn s e)
  | .reply _ => inferInstanceAs (Decidable (s.writes.outstanding = 0))
  | .stackStore _ _ => inferInstanceAs (Decidable (s.writes.outstanding = 0))
  | .readTxFifo _ => inferInstanceAs (Decidable (s.writes.outstanding = 0))
  | .doWrite => inferInstanceAs (Decidable True)
  | .send op _ => inferInstanceAs (Decidable (s.writes.outstanding.erase op = 0))

/-- A step in its turn disturbs nothing. -/
theorem InTurn.undisturbed {s : TcpWriter} {e : WireEvent} (h : InTurn s e) : Undisturbed s e := by
  cases e with
  | doWrite => trivial
  | send op n =>
    intro other hother
    rw [show s.writes.outstanding.erase op = 0 from h] at hother
    exact absurd hother (Multiset.notMem_zero other)
  | _ =>
    intro op hop
    rw [show s.writes.outstanding = 0 from h] at hop
    exact absurd hop (Multiset.notMem_zero op)

/-- The write that `send_func_data` submits for a sequence number. -/
def ackWrite (sequence : UInt16) : DeferredWrite.Op Source UInt8 :=
  ⟨.rxStack, 8, 0, (Frame.ack sequence).encode⟩

/-- Two heartbeats are answered, and the first answer is sent before the second is built. -/
theorem run_wire_inTurn :
    ∃ t, Transition.run step (init ⟨FixedBuffer.filled 64 0, FixedBuffer.filled txBufferSize 0⟩)
        [.reply 1, .send (ackWrite 1) 8, .reply 2, .send (ackWrite 2) 8] = some t ∧
      DeferredWrite.Concatenated t.writes := by
  let m : Buffers := ⟨FixedBuffer.filled 64 0, FixedBuffer.filled txBufferSize 0⟩
  let events : List WireEvent := [.reply 1, .send (ackWrite 1) 8, .reply 2, .send (ackWrite 2) 8]
  have hsome : (Transition.run step (init m) events).isSome = true := by decide +kernel
  have hinTurn : Transition.Along step InTurn (init m) events := by decide +kernel
  obtain ⟨t, hrun⟩ := Option.isSome_iff_exists.mp hsome
  exact ⟨t, hrun, run_wire m rfl events t hrun (hinTurn.mono fun _ _ h => h.undisturbed)⟩

/-- Two heartbeats are answered before the socket is written: the second answer is built where the
first one is still to be read, so it goes out twice and the first one never. -/
theorem run_wire_overwritten :
    ¬ ∀ (m : Buffers), m.rxStack.overrun = false → ∀ (events : List WireEvent) (t : TcpWriter),
      Transition.run step (init m) events = some t → DeferredWrite.Concatenated t.writes := by
  intro h
  let m : Buffers := ⟨FixedBuffer.filled 64 0, FixedBuffer.filled txBufferSize 0⟩
  have hrun : (Transition.run step (init m)
      [.reply 1, .reply 2, .send (ackWrite 1) 8, .send (ackWrite 2) 8]).map
        (fun t => (t.writes.outstanding, t.writes.wire, t.writes.submitted)) =
      some (0, (Frame.ack 2).encode ++ (Frame.ack 2).encode,
        [(Frame.ack 1).encode, (Frame.ack 2).encode]) := by decide +kernel
  obtain ⟨t, ht, hstate⟩ := Option.map_eq_some_iff.mp hrun
  obtain ⟨houtstanding, hrest⟩ := Prod.mk.inj hstate
  obtain ⟨hwire, hsubmitted⟩ := Prod.mk.inj hrest
  obtain ⟨order, horder, -, hall⟩ := h m rfl _ t ht
  have hbytes := horder.flatten
  rw [← hall houtstanding, hwire, hsubmitted] at hbytes
  exact absurd hbytes (by decide)

end TcpWriter

end RemoteManage.MainProcess

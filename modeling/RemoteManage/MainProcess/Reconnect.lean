import RemoteManage.Common.SingleSession
import RemoteManage.MainProcess.FrameStream

/-!
# The decoder across connections

The server of `main_process` with everything it receives on its way to the decoder. The
handler given to `asio_server` writes what a session reads to the receive FIFO, and
`tcp_rx_run` takes it out byte by byte. Connections come and go in the server, the
decoder lives in `protocol_info` and is the same for all of them: it records when a frame
begins in `rx_timeout_`, but nothing ever compares that time with the present one.

A frame that begins a new connection is therefore received like the first frame of all
unless an earlier connection has left the decoder inside a frame, and it never is when one
has (`tcpRxRun_frame_iff`).
-/

namespace RemoteManage.MainProcess

open RemoteManage.Foundation
open RemoteManage.Common

/-- From inside a frame the decoder never holds as many bytes as it has been fed. -/
theorem heldAfter_length_ne {held : List UInt8} (hheld : InProgress held) (hlen : 2 ≤ held.length)
    (stream : List UInt8) : (protocolDecoder.heldAfter held stream).length ≠ stream.length := by
  let inv (history l : List UInt8) : Prop :=
    InProgress l ∧ l.length ≠ history.length ∧ (history = [] → 2 ≤ l.length)
  have hstep (history l : List UInt8) (x : UInt8) (h : inv history l) :
      inv (history ++ [x]) (protocolDecoder.step l x).1 := by
    obtain ⟨hl, hne, hstart⟩ := h
    refine ⟨protocolDecoder_step_inProgress hl x, ?_, fun h => absurd h (by simp)⟩
    rw [List.length_append, List.length_singleton]
    unfold FrameDecoder.step
    cases hprogress : protocolDecoder l x with
    | hold next =>
      change next.length ≠ history.length + 1
      rcases protocolDecoder_hold hl x next hprogress with rfl | ⟨hhead, -, rfl⟩
      · rw [List.length_append, List.length_singleton]
        omega
      · -- a repeated first head byte is not held again
        intro heq
        rw [hhead, List.length_singleton] at heq hstart
        have hempty : history = [] := List.length_eq_zero_iff.mp (by omega)
        exact absurd (hstart hempty) (by omega)
    | reject => exact Nat.ne_of_lt (Nat.succ_pos _)
    | frame f => exact Nat.ne_of_lt (Nat.succ_pos _)
  have hstart : inv [] held := ⟨hheld, by rw [List.length_nil]; omega, fun _ => hlen⟩
  exact (Mealy.after_history protocolDecoder.step inv hstep held [] hstart stream).2.1

/-- A frame that finds the decoder inside an earlier one is not reported by its last byte. -/
theorem reports_encode_ne {held : List UInt8} (hheld : InProgress held) (hlen : 2 ≤ held.length)
    (f : Frame) : protocolDecoder.reports held f.encode ≠ FrameDecoder.marks f.encode f.encode := by
  intro hreports
  obtain hnil | ⟨first, last, hsplit⟩ := List.eq_nil_or_concat' f.encode
  · exact absurd hnil (protocolDecoder_reads f).ne_nil
  · have hlast : (protocolDecoder.step (protocolDecoder.heldAfter held first) last).2 = some f.encode := by
      rw [FrameDecoder.reports, FrameDecoder.marks, hsplit, Mealy.outputs_append] at hreports
      obtain ⟨-, htail⟩ := List.append_inj' hreports rfl
      rw [hsplit]
      exact (List.cons.inj htail).1
    have hnext : InProgress (protocolDecoder.heldAfter held first) :=
      Mealy.after_invariant protocolDecoder.step InProgress
        (fun _ x hl => protocolDecoder_step_inProgress hl x) held hheld first
    unfold FrameDecoder.step at hlast
    cases hprogress : protocolDecoder (protocolDecoder.heldAfter held first) last with
    | hold next => rw [hprogress] at hlast; contradiction
    | reject => rw [hprogress] at hlast; contradiction
    | frame g =>
      rw [hprogress] at hlast
      obtain rfl : g = f.encode := Option.some.inj hlast
      have hg := (protocolDecoder_frame hnext last _ hprogress).1
      rw [hsplit] at hg
      have hsame := (List.append_inj' hg rfl).1
      exact heldAfter_length_ne hheld hlen first (by rw [← hsame])

/-- Behind nothing or a first head byte a frame is reported by its last byte alone. -/
theorem reports_encode_eq {held : List UInt8} (hheld : InProgress held) (hlen : held.length < 2)
    (f : Frame) : protocolDecoder.reports held f.encode = FrameDecoder.marks f.encode f.encode := by
  have hreads := FrameDecoder.reports_of_reads (protocolDecoder_reads f) [] f.encode rfl
    (protocolDecoder_reads f).ne_nil
  cases hheld with
  | idle => exact hreads.1
  | head => exact hreads.1
  | data rest _ =>
    rw [List.length_cons, List.length_cons] at hlen
    omega

/-- The bytes of a frame, received at any times, are reported by the last of them alone and as
they are, exactly when the object is not inside an earlier frame. -/
theorem tcpRxRun_frame_iff {s : ProtocolInfo} {held : List UInt8} (h : Represents s held) (f : Frame)
    (bytes : List RxByte) (hbytes : bytes.map RxByte.data = f.encode) :
    (tcpRxRun s bytes).map RxEvent.finished =
        List.replicate (f.encode.length - 1) none ++ [some f.encode] ↔
      s.rxStatus ≠ .frameDataRx := by
  rw [tcpRxRun_finished h, hbytes, h.status]
  constructor
  · intro hreports hstatus
    exact reports_encode_ne h.inProgress (two_le_length_of_statusOf hstatus) f hreports
  · intro hstatus
    apply reports_encode_eq h.inProgress
    match held with
    | [] => exact Nat.zero_lt_two
    | [_] => exact Nat.one_lt_two
    | _ :: _ :: _ => exact absurd rfl hstatus

/-- A part of a stream all of which has been taken is the same part of what has been taken. -/
theorem take_drop_of_append {α : Type*} {taken rest before part after : List α}
    (h : taken ++ rest = before ++ (part ++ after))
    (hlen : before.length + part.length ≤ taken.length) :
    (taken.drop before.length).take part.length = part := by
  have hfirst : taken.take (before.length + part.length) = before ++ part := by
    have htake := congrArg (List.take (before ++ part).length) h
    rwa [← List.append_assoc, List.take_left, List.length_append,
      List.take_append_of_le_length hlen] at htake
  rw [List.take_drop, hfirst, List.drop_left]

/-- The turns for a part of the bytes are those of the receive loop from the object that the bytes
before them leave. -/
theorem tcpRxRun_part (s : ProtocolInfo) (bytes : List RxByte) (n k : ℕ) :
    ((tcpRxRun s bytes).drop n).take k =
      tcpRxRun (afterTcpRxRun s (bytes.take n)) ((bytes.drop n).take k) := by
  rw [tcpRxRun, Mealy.outputs_drop, ← Mealy.outputs_take]
  rfl

/-- The server, whose handler writes the receive FIFO, and the receive thread with its object; the
bytes it has taken from the FIFO and its turns are recorded. -/
structure TcpService (σ : Type*) where
  server : AsioServer σ (List UInt8)
  protocol : ProtocolInfo
  taken : List RxByte
  turns : List RxEvent

/-- An event of the `io_context` thread or a turn of the receive thread. -/
inductive TcpEvent (σ : Type*) where
  | io (e : AsioEvent σ)
  | rxTurn (now : UInt32)

/-- `write_rx_fifo`. -/
def writeRxFifo (fifo ptr : List UInt8) : List UInt8 := fifo ++ ptr

namespace TcpService

variable {σ : Type*} [LinearOrder σ]

/-- The service before the first connection. -/
def init : TcpService σ := ⟨AsioServer.init [], .init, [], []⟩

/-- One event. What `process_rx_frame` emits is handed to the server. -/
def step (s : TcpService σ) : TcpEvent σ → Option (TcpService σ)
  | .io e => (AsioServer.step writeRxFifo s.server e).map fun server => { s with server }
  | .rxTurn now =>
    match s.server.host with
    | [] => none
    | data :: rest =>
      let byte := RxByte.mk now data
      let turn := tcpRxStep s.protocol byte
      some {
        server := turn.2.replies.foldl (fun server _ => server.doWrite) { s.server with host := rest }
        protocol := turn.1
        taken := s.taken ++ [byte]
        turns := s.turns ++ [turn.2] }

end TcpService

/-- The bytes that an event reads from a connection. -/
def TcpEvent.bytesRead {σ : Type*} : TcpEvent σ → List UInt8
  | .io (.readDone _ bytes) => bytes
  | _ => []

/-- The bytes that an event reads from the connection of a session. -/
def TcpEvent.bytesFrom {σ : Type*} [DecidableEq σ] (p : σ) : TcpEvent σ → List UInt8
  | .io (.readDone q bytes) => if q = p then bytes else []
  | _ => []

namespace TcpService

variable {σ : Type*} [LinearOrder σ]

/-- Emitting blocks leaves the receive FIFO alone. -/
theorem foldl_doWrite_host (blocks : List (List UInt8)) (server : AsioServer σ (List UInt8)) :
    (blocks.foldl (fun server _ => server.doWrite) server).host = server.host := by
  induction blocks generalizing server with
  | nil => rfl
  | cons block blocks ih => exact (ih _).trans server.doWrite_host

/-- Emitting blocks does not bring the thread of the server to its end. -/
theorem foldl_doWrite_ended (blocks : List (List UInt8)) (server : AsioServer σ (List UInt8)) :
    (blocks.foldl (fun server _ => server.doWrite) server).ended = server.ended := by
  induction blocks generalizing server with
  | nil => rfl
  | cons block blocks ih => exact (ih _).trans server.doWrite_ended

/-- An event of the server puts the bytes it reads behind those in the receive FIFO, or
they are lost and the thread has come to its end. -/
theorem server_host {server next : AsioServer σ (List UInt8)} {e : AsioEvent σ}
    (h : AsioServer.step writeRxFifo server e = some next) :
    ∃ lost, next.host ++ lost = server.host ++ (TcpEvent.io e).bytesRead ∧
      (lost ≠ [] → next.ended = true) := by
  have hhost := AsioServer.step_host h
  cases e with
  | readDone p bytes =>
    by_cases hroom : bytes.length < maxLength
    · refine ⟨[], ?_, fun hne => absurd rfl hne⟩
      rw [hhost, List.append_nil]
      exact if_pos hroom
    · refine ⟨bytes, congrArg (· ++ bytes) (hhost.trans (if_neg hroom)), fun _ => ?_⟩
      obtain ⟨-, rfl⟩ := Transition.enabled_of_ite h
      rw [AsioServer.readDone, if_neg hroom]
  | _ => exact ⟨[], congrArg (· ++ []) hhost, fun hne => absurd rfl hne⟩

/-- The turns are those of the receive loop on the bytes taken, and these followed by what is in
the receive FIFO are the bytes read from the connections, up to a last read that has ended the server. -/
structure Tracks (events : List (TcpEvent σ)) (s : TcpService σ) : Prop where
  turns : s.turns = tcpRxRun .init s.taken
  protocol : s.protocol = afterTcpRxRun .init s.taken
  bytes : ∃ lost, s.taken.map RxByte.data ++ s.server.host ++ lost = events.flatMap TcpEvent.bytesRead ∧
    (lost ≠ [] → s.server.ended = true)

/-- Every event keeps this. -/
theorem step_tracks {history : List (TcpEvent σ)} {s next : TcpService σ} {e : TcpEvent σ}
    (h : Tracks history s) (hstep : step s e = some next) : Tracks (history ++ [e]) next := by
  have hhistory : (history ++ [e]).flatMap TcpEvent.bytesRead =
      history.flatMap TcpEvent.bytesRead ++ e.bytesRead := by
    rw [List.flatMap_append, List.flatMap_singleton]
  obtain ⟨lost, hbytes, hlost⟩ := h.bytes
  cases e with
  | io e =>
    obtain ⟨server, hserver, rfl⟩ := Option.map_eq_some_iff.mp hstep
    refine ⟨h.turns, h.protocol, ?_⟩
    cases hended : s.server.ended with
    | false =>
      have hnone : lost = [] := by
        by_contra hne
        exact absurd (hended.symm.trans (hlost hne)) (by decide)
      obtain ⟨lost', hhost, hlost'⟩ := server_host hserver
      refine ⟨lost', ?_, hlost'⟩
      rw [hhistory, ← hbytes, hnone, List.append_nil, List.append_assoc, List.append_assoc, hhost]
    | true =>
      obtain rfl := AsioServer.eq_doWrite_of_ended hended hserver
      obtain rfl := Option.some.inj hserver
      refine ⟨lost, ?_, fun _ => (AsioServer.doWrite_ended _).trans hended⟩
      rw [hhistory, ← hbytes, AsioServer.doWrite_host]
      exact (List.append_nil _).symm
  | rxTurn now =>
    unfold step at hstep
    dsimp only at hstep
    split at hstep
    · contradiction
    · next data rest hhost =>
      obtain rfl := Option.some.inj hstep
      refine ⟨?_, ?_, ?_⟩
      · change s.turns ++ _ = tcpRxRun .init (s.taken ++ [⟨now, data⟩])
        rw [tcpRxRun, Mealy.outputs_append, h.turns, h.protocol]
        rfl
      · change _ = afterTcpRxRun .init (s.taken ++ [⟨now, data⟩])
        rw [afterTcpRxRun, Mealy.after_append, h.protocol]
        rfl
      · refine ⟨lost, ?_, fun hne => (foldl_doWrite_ended _ _).trans (hlost hne)⟩
        rw [hhistory, ← hbytes, hhost, foldl_doWrite_host]
        simp [TcpEvent.bytesRead]

/-- After any events the receive thread has kept to the connections. -/
theorem run_tracks {events : List (TcpEvent σ)} {s : TcpService σ}
    (hrun : Transition.run step init events = some s) : Tracks events s := by
  have hinit : Tracks [] (init : TcpService σ) := ⟨rfl, rfl, [], rfl, fun hne => absurd rfl hne⟩
  exact Transition.run_history Tracks (fun _ _ _ _ h hstep => step_tracks h hstep) hrun hinit

/-- A frame that begins what is read from a new connection is reported by its last byte alone and as
it is, exactly when the bytes of the earlier connections have not left the receiver inside a frame.
Whatever happens before, connections may come and go, operations fail, late reads of the earlier
connections be completed, and the receive thread lag behind. -/
theorem run_newConnection_iff (earlier between reading : List (TcpEvent σ)) (p : σ)
    (t : TcpService σ)
    (hrun : Transition.run step init (earlier ++ .io (.accepted p) :: (between ++ reading)) = some t)
    (hbetween : between.flatMap (TcpEvent.bytesFrom p) = [])
    (honly : ∀ e ∈ reading, e.bytesRead = e.bytesFrom p)
    (f : Frame) (more : List UInt8)
    (hframe : (between ++ reading).flatMap (TcpEvent.bytesFrom p) = f.encode ++ more)
    (n : ℕ) (hn : n = ((earlier ++ between).flatMap TcpEvent.bytesRead).length)
    (hreached : n + f.encode.length ≤ t.turns.length) :
    ((t.turns.drop n).take f.encode.length).map RxEvent.finished =
        List.replicate (f.encode.length - 1) none ++ [some f.encode] ↔
      (afterTcpRxRun .init (t.taken.take n)).rxStatus ≠ .frameDataRx := by
  have htracks := run_tracks hrun
  have hreading : reading.flatMap TcpEvent.bytesRead = f.encode ++ more := by
    rw [← hframe, List.flatMap_append, hbetween, List.nil_append]
    exact List.flatMap_congr honly
  obtain ⟨lost, hread, -⟩ := htracks.bytes
  have hbytes : t.taken.map RxByte.data ++ (t.server.host ++ lost) =
      (earlier ++ between).flatMap TcpEvent.bytesRead ++ (f.encode ++ more) := by
    rw [← List.append_assoc, hread, ← hreading]
    simp only [List.flatMap_append, List.flatMap_cons, TcpEvent.bytesRead, List.nil_append,
      List.append_assoc]
  have hlength : n + f.encode.length ≤ (t.taken.map RxByte.data).length := by
    rwa [htracks.turns, tcpRxRun, Mealy.outputs_length, ← List.length_map (f := RxByte.data)] at hreached
  have hpart : ((t.taken.drop n).take f.encode.length).map RxByte.data = f.encode := by
    rw [hn] at hlength ⊢
    rw [List.map_take, List.map_drop]
    exact take_drop_of_append hbytes hlength
  rw [htracks.turns, tcpRxRun_part]
  exact tcpRxRun_frame_iff (afterTcpRxRun_represents represents_init (t.taken.take n)) f _ hpart

/-- A connection that ends in the middle of a frame. -/
def cutOff : List (TcpEvent ℕ) :=
  [.io (.accepted 1), .io (.readDone 1 [0x5a, 0x5b, 0x00]), .rxTurn 0, .rxTurn 0, .rxTurn 0,
    .io (.readFailed 1)]

/-- A connection that ends behind a first head byte. -/
def cutHead : List (TcpEvent ℕ) :=
  [.io (.accepted 1), .io (.readDone 1 [0x5a]), .rxTurn 0, .io (.readFailed 1)]

/-- A heartbeat with sequence number 7 is read, and the receive thread takes it in. -/
def heartbeat : List (TcpEvent ℕ) :=
  .io (.readDone 2 (Frame.empty 7 0).encode) :: List.replicate 8 (.rxTurn 5000)

/-- What a new connection begins with is reported behind a first head byte of an earlier one. -/
theorem run_newConnection_iff_cutHead :
    ∃ t, Transition.run step init (cutHead ++ .io (.accepted 2) :: ([] ++ heartbeat)) = some t ∧
      ((t.turns.drop 1).take 8).map RxEvent.finished =
        List.replicate 7 none ++ [some (Frame.empty 7 0).encode] := by
  have hrun : (Transition.run step init (cutHead ++ .io (.accepted 2) :: ([] ++ heartbeat))).map
      (fun t => (t.turns.length, (afterTcpRxRun .init (t.taken.take 1)).rxStatus)) =
        some (9, .frameHeadRx) := by decide +kernel
  obtain ⟨t, ht, hstate⟩ := Option.map_eq_some_iff.mp hrun
  obtain ⟨hlength, hstatus⟩ := Prod.mk.inj hstate
  have hreached : 1 + (Frame.empty 7 0).encode.length ≤ t.turns.length := by
    rw [hlength]
    decide
  refine ⟨t, ht, (run_newConnection_iff cutHead [] heartbeat 2 t ht rfl ?_ (Frame.empty 7 0) [] ?_ 1
    (by decide) hreached).mpr ?_⟩
  · decide
  · decide
  · rw [hstatus]
    decide

/-- A heartbeat on a new connection is lost when the earlier connection has ended in the middle of
a frame: its first bytes are taken for the rest of that frame. -/
theorem run_newConnection_lost :
    ¬ ∀ (earlier between reading : List (TcpEvent ℕ)) (p : ℕ) (t : TcpService ℕ),
      Transition.run step init (earlier ++ .io (.accepted p) :: (between ++ reading)) = some t →
      between.flatMap (TcpEvent.bytesFrom p) = [] →
      (∀ e ∈ reading, e.bytesRead = e.bytesFrom p) →
      ∀ (f : Frame) (more : List UInt8),
        (between ++ reading).flatMap (TcpEvent.bytesFrom p) = f.encode ++ more →
        ∀ n, n = ((earlier ++ between).flatMap TcpEvent.bytesRead).length →
          n + f.encode.length ≤ t.turns.length →
          ((t.turns.drop n).take f.encode.length).map RxEvent.finished =
            List.replicate (f.encode.length - 1) none ++ [some f.encode] := by
  intro h
  have hrun : (Transition.run step init (cutOff ++ .io (.accepted 2) :: ([] ++ heartbeat))).map
      (fun t => (t.turns.length, ((t.turns.drop 3).take 8).map RxEvent.finished)) =
        some (11, List.replicate 8 none) := by decide +kernel
  obtain ⟨t, ht, hturns⟩ := Option.map_eq_some_iff.mp hrun
  obtain ⟨hlength, hreports⟩ := Prod.mk.inj hturns
  have hreached : 3 + (Frame.empty 7 0).encode.length ≤ t.turns.length := by
    rw [hlength]
    decide
  have hframe := h cutOff [] heartbeat 2 t ht rfl (by decide) (Frame.empty 7 0) [] (by decide) 3
    (by decide) hreached
  have hnone : List.replicate 8 none =
      List.replicate ((Frame.empty 7 0).encode.length - 1) none ++ [some (Frame.empty 7 0).encode] :=
    hreports.symm.trans hframe
  exact absurd hnone (by decide)

end TcpService

end RemoteManage.MainProcess

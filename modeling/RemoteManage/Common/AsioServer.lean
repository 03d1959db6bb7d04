import Mathlib.Data.Finset.Max
import Mathlib.Data.Multiset.AddSub
import RemoteManage.Foundation.FixedBuffer
import RemoteManage.Foundation.Transition

/-!
# The TCP server

`asio_server` with its `session_group` and its sessions, driven by the completions that
its single `io_context` thread delivers. A session is known by the address of its object;
the addresses are of an arbitrary ordered type, since `set_` is ordered by them. What
`handler_` acts on is a parameter, too.

Of the asynchronous operations only what the library promises is modelled. An operation
completes once, with or without an error, and at any time: an operation on a session that
has been closed meanwhile is still completed. Its completion handler keeps the session
object alive, so that no new session can be placed at that address before.

A read of `MAX_LENGTH` bytes puts its zero behind the end of `data_`, where the reference to the
group lies. The call of the handler goes through that reference and is not survived: nothing is
handed on, and no completion is delivered any more.
-/

namespace RemoteManage.Common

open RemoteManage.Foundation

/-- `MAX_LENGTH`. -/
abbrev maxLength : ℕ := 1024

/-- The server with the operations it has under way. -/
structure AsioServer (σ H : Type*) where
  /-- `set_`, the sessions in the group. -/
  set : Finset σ
  /-- What `handler_` acts on. -/
  host : H
  /-- The `data_` of each session. -/
  data : σ → FixedBuffer UInt8 maxLength
  /-- The sessions with a read operation under way. -/
  reading : Finset σ
  /-- The sessions of the write operations under way. -/
  writing : Multiset σ
  /-- The sessions whose socket has been closed. -/
  closed : Finset σ
  /-- `acceptor_.is_open()`. -/
  acceptorOpen : Bool
  /-- An accept operation is under way. -/
  accepting : Bool
  /-- The `io_context` thread has come to its end. -/
  ended : Bool

/-- A completion that the `io_context` thread delivers, or a write that another thread asks for. -/
inductive AsioEvent (σ : Type*) where
  | accepted (p : σ)
  | acceptFailed
  | readDone (p : σ) (bytes : List UInt8)
  | readFailed (p : σ)
  | written (p : σ)
  | writeFailed (p : σ)
  | doWrite

namespace AsioServer

variable {σ H : Type*} [LinearOrder σ]

/-- The server after `init`. -/
def init (host : H) : AsioServer σ H where
  set := ∅
  host := host
  data := fun _ => FixedBuffer.filled maxLength 0
  reading := ∅
  writing := 0
  closed := ∅
  acceptorOpen := true
  accepting := true
  ended := false

/-- `session_group::join`. -/
def join (s : AsioServer σ H) (p : σ) : AsioServer σ H := { s with set := insert p s.set }

/-- `session_group::leave`. -/
def leave (s : AsioServer σ H) (p : σ) : AsioServer σ H := { s with set := s.set.erase p }

/-- `session_group::get_session`: the first session of the set. -/
def getSession (s : AsioServer σ H) : Option σ :=
  if h : s.set.Nonempty then some (s.set.min' h) else none

/-- `session_group::is_valid`. -/
def isValid (s : AsioServer σ H) : Bool := s.set.card ≠ 0

/-- `session::do_read` starts a read operation. -/
def doRead (s : AsioServer σ H) (p : σ) : AsioServer σ H := { s with reading := insert p s.reading }

/-- `session_group::do_write`: a write operation is started on the first session. -/
def doWrite (s : AsioServer σ H) : AsioServer σ H :=
  match s.getSession with
  | some p => { s with writing := p ::ₘ s.writing }
  | none => s

/-- `session::do_close`. -/
def doClose (s : AsioServer σ H) (p : σ) : AsioServer σ H := { s with closed := insert p s.closed }

/-- `std::make_shared<session>`: the object is placed at `p` with an open socket. -/
def makeSession (s : AsioServer σ H) (p : σ) : AsioServer σ H :=
  { s with
    data := fun q => if q = p then FixedBuffer.filled maxLength 0 else s.data q
    closed := s.closed.erase p }

/-- `session::start`. -/
def start (s : AsioServer σ H) (p : σ) : AsioServer σ H := (s.join p).doRead p

/-- The first session is in the set. -/
theorem getSession_mem {s : AsioServer σ H} {p : σ} (h : s.getSession = some p) : p ∈ s.set := by
  unfold getSession at h
  split at h
  · next hne => exact Option.some.inj h ▸ s.set.min'_mem hne
  · contradiction

/-- There is a first session unless the set is empty. -/
theorem getSession_eq_none_iff {s : AsioServer σ H} : s.getSession = none ↔ s.set = ∅ := by
  unfold getSession
  split
  · next hne => exact ⟨fun h => by contradiction, fun h => absurd h hne.ne_empty⟩
  · next hempty => exact ⟨fun _ => Finset.not_nonempty_iff_eq_empty.mp hempty, fun _ => rfl⟩

/-- Closing the first session and making it leave makes the set smaller. -/
theorem leave_card_lt {s : AsioServer σ H} {p : σ} (h : s.getSession = some p) :
    ((s.doClose p).leave p).set.card < s.set.card :=
  Finset.card_erase_lt_of_mem (getSession_mem h)

/-- `close_all_session`. -/
def closeAllSession (s : AsioServer σ H) : AsioServer σ H :=
  match _h : s.getSession with
  | none => s
  | some p => closeAllSession ((s.doClose p).leave p)
termination_by s.set.card
decreasing_by exact leave_card_lt _h

/-- The completion handler of `do_accept`; without an error there is a new session at `p`. -/
def acceptDone (s : AsioServer σ H) (p : Option σ) : AsioServer σ H :=
  if s.acceptorOpen then
    match p with
    | some p => (s.closeAllSession.makeSession p).start p
    | none => s
  else { s with accepting := false }

/-- The `data_` of a session into which bytes have been read, with the zero behind them. -/
def readInto (data : FixedBuffer UInt8 maxLength) (bytes : List UInt8) : FixedBuffer UInt8 maxLength :=
  (data.writeAll 0 bytes).write bytes.length 0

/-- The completion handler of `do_read` without an error: the bytes are handed on and the next read operation
is started, unless the zero behind the bytes has fallen on the reference to the group. -/
def readDone (handler : H → List UInt8 → H) (s : AsioServer σ H) (p : σ) (bytes : List UInt8) :
    AsioServer σ H :=
  let data := readInto (s.data p) bytes
  let s := { s with
    data := fun q => if q = p then data else s.data q
    reading := s.reading.erase p }
  if bytes.length < maxLength then
    { s with host := handler s.host (data.contents bytes.length) }.doRead p
  else { s with ended := true }

/-- The completion handler of `do_read` with an error. -/
def readFailed (s : AsioServer σ H) (p : σ) : AsioServer σ H :=
  { s with reading := s.reading.erase p }.leave p

/-- The completion handler of `do_write` without an error. -/
def written (s : AsioServer σ H) (p : σ) : AsioServer σ H := { s with writing := s.writing.erase p }

/-- The completion handler of `do_write` with an error. -/
def writeFailed (s : AsioServer σ H) (p : σ) : AsioServer σ H :=
  { s with writing := s.writing.erase p }.leave p

/-- One event. Completions are delivered while the thread runs. An operation can complete while it is
under way, a read operation without an error with at least one and at most `MAX_LENGTH` bytes, and a
new session is placed where no operation refers to an older one. -/
def step (handler : H → List UInt8 → H) (s : AsioServer σ H) : AsioEvent σ → Option (AsioServer σ H)
  | .accepted p =>
    if s.ended = false ∧ s.accepting ∧ p ∉ s.reading ∧ p ∉ s.writing then some (s.acceptDone (some p))
    else none
  | .acceptFailed => if s.ended = false ∧ s.accepting then some (s.acceptDone none) else none
  | .readDone p bytes =>
    if s.ended = false ∧ p ∈ s.reading ∧ bytes ≠ [] ∧ bytes.length ≤ maxLength then
      some (s.readDone handler p bytes)
    else none
  | .readFailed p => if s.ended = false ∧ p ∈ s.reading then some (s.readFailed p) else none
  | .written p => if s.ended = false ∧ p ∈ s.writing then some (s.written p) else none
  | .writeFailed p => if s.ended = false ∧ p ∈ s.writing then some (s.writeFailed p) else none
  | .doWrite => some s.doWrite

end AsioServer

end RemoteManage.Common

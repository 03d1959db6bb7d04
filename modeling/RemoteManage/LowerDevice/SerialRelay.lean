import RemoteManage.Common.SystemConfig
import RemoteManage.Foundation.Transition

/-!
# The relay from the network to the serial line

`serial_manage` opens the tty of the configuration and passes on what `asio_client` receives: a read of the
socket that returns full buffers only, a FIFO, and a write to the tty with a flush behind it. The
system calls on the tty are a parameter. The server, the two threads and the line take turns in any order.

`tty_control::init` opens its own empty path instead of the one it is given, `init` never creates the FIFO,
and less than a full buffer is dropped when the connection ends.
-/

namespace RemoteManage.LowerDevice

open RemoteManage.Foundation RemoteManage.Common

/-- `CLIENT_RX_MAX_BUFFER_SIZE`. -/
abbrev clientRxMaxBufferSize : ℕ := 1024

/-- `SERIAL_RX_MAX_BUFFER_SIZE`. -/
abbrev serialRxMaxBufferSize : ℕ := 1024

/-- The character sizes of `CSIZE`. -/
inductive CharSize where
  | cs5
  | cs7
  | cs8
  deriving DecidableEq, Repr

/-- The flags of `termios` that `set_opt` sets, with both speeds. -/
structure Termios where
  clocal : Bool
  cread : Bool
  csize : CharSize
  parenb : Bool
  parodd : Bool
  inpck : Bool
  istrip : Bool
  cstopb : Bool
  ispeed : ℕ
  ospeed : ℕ
  vtime : ℕ
  vmin : ℕ
  deriving DecidableEq, Repr

namespace Termios

/-- `newtio` after it has been cleared and its first flags are set. -/
def cleared : Termios :=
  { clocal := true, cread := true, csize := .cs5, parenb := false, parodd := false, inpck := false
    istrip := false, cstopb := false, ispeed := 0, ospeed := 0, vtime := 0, vmin := 0 }

/-- The data bits. -/
def setDataBits (t : Termios) (dataBits : Int32) : Termios :=
  if dataBits = 7 then { t with csize := .cs7 }
  else if dataBits = 8 then { t with csize := .cs8 }
  else t

/-- The parity, from the first character. -/
def setParity (t : Termios) (parity : UInt8) : Termios :=
  if parity = 0x4f ∨ parity = 0x6f then
    { t with parenb := true, parodd := true, inpck := true, istrip := true }
  else if parity = 0x45 ∨ parity = 0x65 then
    { t with parenb := true, parodd := false, inpck := true, istrip := true }
  else if parity = 0x4e ∨ parity = 0x6e then { t with parenb := false }
  else t

/-- The speed for a baud rate. -/
def speed (baud : Int32) : ℕ :=
  if baud = 2400 then 2400
  else if baud = 4800 then 4800
  else if baud = 9600 then 9600
  else if baud = 115200 then 115200
  else if baud = 460800 then 460800
  else if baud = 921600 then 921600
  else 9600

/-- The stop bits. -/
def setStopBits (t : Termios) (stopBits : Int32) : Termios :=
  if stopBits = 1 then { t with cstopb := false }
  else if stopBits = 2 then { t with cstopb := true }
  else t

/-- The attributes that `set_opt` puts together. -/
def ofConfig (c : SerialSysConfig) : Termios :=
  let t := (cleared.setDataBits c.dataBits).setParity (c.parity.headD 0)
  let t := { t with ispeed := speed c.baud, ospeed := speed c.baud }
  t.setStopBits c.stopBits

end Termios

/-- The system calls on a tty: the file descriptor that `open` returns, if it does, and whether the
attributes can be read and set. -/
structure Posix where
  openTty : List UInt8 → Option ℕ
  tcgetattr : ℕ → Bool
  tcsetattr : ℕ → Termios → Bool

/-- `tty_control`: its path and its file descriptor, if that is not negative. -/
structure TtyControl where
  path : List UInt8
  fd : Option ℕ
  deriving DecidableEq, Repr

/-- The constructor of `tty_control`. -/
def TtyControl.new : TtyControl := ⟨[], none⟩

/-- `tty_control::init`: what is opened is the member `path_`. -/
def TtyControl.init (os : Posix) (tty : TtyControl) (_path : List UInt8) : TtyControl × Bool :=
  let fd := os.openTty tty.path
  ({ tty with fd := fd }, fd.isSome)

/-- `set_opt`. -/
def TtyControl.setOpt (os : Posix) (tty : TtyControl) (c : SerialSysConfig) : Bool :=
  match tty.fd with
  | none => false
  | some fd => os.tcgetattr fd && os.tcsetattr fd (Termios.ofConfig c)

/-- `fifo_manage`: it is open once `create` has been called. -/
structure FifoManage where
  isOpen : Bool
  deriving DecidableEq, Repr

/-- `serial_manage`: the tty, and `serial_tx_fifo_` unless it is null. -/
structure SerialManage where
  tty : TtyControl
  serialTxFifo : Option FifoManage
  deriving DecidableEq, Repr

/-- `serial_manage::init`, which makes the FIFO object and does not create the FIFO. -/
def SerialManage.init (os : Posix) (c : SerialSysConfig) : SerialManage × Bool :=
  let (tty, opened) := TtyControl.new.init os c.dev
  if opened = false then (⟨tty, none⟩, false)
  else if tty.setOpt os c = false then (⟨tty, none⟩, false)
  else (⟨tty, some ⟨false⟩⟩, true)

/-- The relay on one connection: what the server has sent, what of it has not been read yet, what is in
the FIFO, what is written to the tty and not transmitted, and what has been transmitted. -/
structure Relay where
  serial : SerialManage
  isClientLink : Bool
  closed : Bool
  crashed : Bool
  sent : List UInt8
  socket : List UInt8
  fifo : List UInt8
  written : List UInt8
  flushing : Bool
  line : List UInt8

/-- What can happen: the server sends or closes; the client reads a full buffer or finds the connection
ended; the other thread passes on what it reads, and flushes; the line transmits. -/
inductive RelayEvent where
  | send (segment : List UInt8)
  | close
  | clientRead
  | clientThrow
  | uartWrite (size : ℕ)
  | uartFlush
  | transmit
  deriving DecidableEq, Repr

namespace Relay

/-- A connection has just been made. -/
def start (serial : SerialManage) : Relay :=
  ⟨serial, true, false, false, [], [], [], [], false, []⟩

/-- `serial_manage::send_msg`. -/
def sendMsg (s : Relay) (buffer : List UInt8) : Relay :=
  match s.serial.serialTxFifo with
  | none => { s with crashed := true }
  | some fifo => if fifo.isOpen then { s with fifo := s.fifo ++ buffer } else s

/-- One step of the relay. -/
def step (s : Relay) : RelayEvent → Option Relay
  | .send segment =>
    if s.closed = false then some { s with sent := s.sent ++ segment, socket := s.socket ++ segment }
    else none
  | .close => if s.closed = false then some { s with closed := true } else none
  | .clientRead =>
    if s.crashed = false ∧ s.isClientLink = true ∧ clientRxMaxBufferSize ≤ s.socket.length then
      some ({ s with socket := s.socket.drop clientRxMaxBufferSize }.sendMsg
        (s.socket.take clientRxMaxBufferSize))
    else none
  | .clientThrow =>
    -- what has been read of the last buffer is gone with the exception
    if s.crashed = false ∧ s.isClientLink = true ∧ s.closed = true ∧
        s.socket.length < clientRxMaxBufferSize then
      some { s with isClientLink := false, socket := [] }
    else none
  | .uartWrite size =>
    if s.crashed = false ∧ s.flushing = false ∧ 0 < size ∧ size ≤ serialRxMaxBufferSize ∧
        size ≤ s.fifo.length then
      match s.serial.tty.fd with
      | none => some { s with fifo := s.fifo.drop size }
      | some _ =>
        some { s with fifo := s.fifo.drop size, written := s.written ++ s.fifo.take size, flushing := true }
    else none
  | .uartFlush =>
    if s.crashed = false ∧ s.flushing = true then some { s with written := [], flushing := false } else none
  | .transmit =>
    match s.written with
    | [] => none
    | byte :: rest => some { s with written := rest, line := s.line ++ [byte] }

/-- Only the server can still do something. -/
def Quiescent (s : Relay) : Prop :=
  s.step .clientRead = none ∧ s.step .clientThrow = none ∧ (∀ size, s.step (.uartWrite size) = none) ∧
    s.step .uartFlush = none ∧ s.step .transmit = none

/-- In every run the line transmits what the server has sent, in order, and all of it once the server has
closed and nothing more can happen. -/
def Lossless (start : Relay) : Prop :=
  ∀ events s, Transition.run step start events = some s →
    s.line <+: s.sent ∧ (s.closed = true → s.Quiescent → s.line = s.sent)

end Relay

/-- The serial device of the configuration can be opened and configured. -/
def Usable (os : Posix) (c : SerialSysConfig) : Prop :=
  ∃ fd, os.openTty c.dev = some fd ∧ os.tcgetattr fd = true ∧ os.tcsetattr fd (Termios.ofConfig c) = true

/-- `init` opens the device of the configuration and returns true, and the relay is lossless from then
on. -/
structure Relays (os : Posix) (c : SerialSysConfig) : Prop where
  succeeds : (SerialManage.init os c).2 = true
  opens : (SerialManage.init os c).1.tty.fd = os.openTty c.dev
  lossless : Relay.Lossless (.start (SerialManage.init os c).1)

namespace Relay

/-- As long as less than a full buffer has been sent, nothing has come further than the socket. -/
def Held (s : Relay) : Prop :=
  s.sent.length < clientRxMaxBufferSize →
    s.socket.length ≤ s.sent.length ∧ s.fifo = [] ∧ s.written = [] ∧ s.line = []

/-- Sending a message does not touch what the server has sent. -/
theorem sendMsg_sent (s : Relay) (buffer : List UInt8) : (s.sendMsg buffer).sent = s.sent := by
  unfold sendMsg
  split
  · rfl
  · split <;> rfl

/-- No step takes less than a full buffer further than the socket. -/
theorem step_held {s s' : Relay} {e : RelayEvent} (h : s.Held) (hstep : s.step e = some s') : s'.Held := by
  intro hshort
  cases e with
  | send segment =>
    obtain ⟨-, rfl⟩ := Transition.enabled_of_ite hstep
    rw [List.length_append] at hshort
    obtain ⟨hle, hfifo, hwritten, hline⟩ := h (by omega)
    refine ⟨?_, hfifo, hwritten, hline⟩
    rw [List.length_append, List.length_append]
    exact Nat.add_le_add_right hle _
  | close =>
    obtain ⟨-, rfl⟩ := Transition.enabled_of_ite hstep
    exact h hshort
  | clientRead =>
    obtain ⟨⟨-, -, hfull⟩, rfl⟩ := Transition.enabled_of_ite hstep
    rw [sendMsg_sent] at hshort
    have hle := (h hshort).1
    exact absurd (hfull.trans hle) (Nat.not_le.mpr hshort)
  | clientThrow =>
    obtain ⟨-, rfl⟩ := Transition.enabled_of_ite hstep
    obtain ⟨-, hfifo, hwritten, hline⟩ := h hshort
    exact ⟨Nat.zero_le _, hfifo, hwritten, hline⟩
  | uartWrite size =>
    -- nothing is in the FIFO, so the thread has nothing to read
    obtain ⟨⟨-, -, hpos, -, hle⟩, hnext⟩ := Option.ite_none_right_eq_some.mp hstep
    have hsent : s'.sent = s.sent := by
      cases hfd : s.serial.tty.fd <;> rw [hfd] at hnext <;> exact (Option.some.inj hnext) ▸ rfl
    rw [hsent] at hshort
    rw [(h hshort).2.1] at hle
    exact absurd hle (Nat.not_le.mpr hpos)
  | uartFlush =>
    obtain ⟨-, rfl⟩ := Transition.enabled_of_ite hstep
    obtain ⟨hle, hfifo, -, hline⟩ := h hshort
    exact ⟨hle, hfifo, rfl, hline⟩
  | transmit =>
    rw [step] at hstep
    split at hstep
    · contradiction
    · next byte rest hwritten =>
      obtain rfl := Option.some.inj hstep
      have hnone := (h hshort).2.2.1
      rw [hwritten] at hnone
      contradiction

/-- Of a message shorter than the buffer of the client nothing is ever transmitted, in whatever segments it
is sent and whatever becomes of the FIFO and the tty. -/
theorem run_line_eq_nil {serial : SerialManage} {events : List RelayEvent} {s : Relay}
    (hrun : Transition.run step (start serial) events = some s)
    (hshort : s.sent.length < clientRxMaxBufferSize) : s.line = [] := by
  have hheld := Transition.run_invariant Held (fun _ _ _ h hstep => step_held h hstep) hrun
    (fun _ => ⟨Nat.le_refl _, rfl, rfl, rfl⟩)
  exact (hheld hshort).2.2.2

/-- The relay loses a message of one byte. -/
theorem start_not_lossless (serial : SerialManage) : ¬ Lossless (start serial) := by
  intro h
  let ended : Relay := { start serial with isClientLink := false, closed := true, sent := [0] }
  have hrun : Transition.run step (start serial) [.send [0], .close, .clientThrow] = some ended := rfl
  have hquiescent : ended.Quiescent := by
    refine ⟨rfl, rfl, fun size => if_neg ?_, rfl, rfl⟩
    rintro ⟨-, -, hpos, -, hle⟩
    exact absurd hle (Nat.not_le.mpr hpos)
  have hline := (h _ _ hrun).2 rfl hquiescent
  have hnone : ended.line = [] := run_line_eq_nil hrun (by change 1 < 1024; decide)
  rw [hnone] at hline
  contradiction

end Relay

/-- An empty path cannot be opened, so `init` fails for every configuration; and the relay would not be
lossless whatever `init` left. -/
theorem serialManage_not_relays (os : Posix) (hempty : os.openTty [] = none) (c : SerialSysConfig) :
    ¬ Relays os c ∧ ∀ serial : SerialManage, ¬ Relay.Lossless (.start serial) := by
  refine ⟨?_, Relay.start_not_lossless⟩
  rintro ⟨hsucceeds, -, -⟩
  have hfails : (SerialManage.init os c).2 = false := by
    simp only [SerialManage.init, TtyControl.init, TtyControl.new, hempty, Option.isSome_none, if_true]
  rw [hfails] at hsucceeds
  contradiction

/-- A system in which every path but the empty one can be opened. -/
def anyTty : Posix := ⟨fun path => if path = [] then none else some 3, fun _ => true, fun _ _ => true⟩

/-- The relay with the defaults of the configuration. -/
theorem serialManage_not_relays_default :
    ¬ Relays anyTty defaultSerial ∧ ∀ serial : SerialManage, ¬ Relay.Lossless (.start serial) :=
  serialManage_not_relays anyTty rfl defaultSerial

/-- The serial device of the defaults can be used, and is not opened. -/
theorem not_forall_relays :
    ¬ ∀ (os : Posix) (c : SerialSysConfig), os.openTty [] = none → Usable os c → Relays os c := by
  intro h
  have hrelays := h anyTty defaultSerial rfl ⟨3, by decide, rfl, rfl⟩
  have hfails : (SerialManage.init anyTty defaultSerial).2 = false := by decide
  have hsucceeds := hrelays.succeeds
  rw [hfails] at hsucceeds
  contradiction

end RemoteManage.LowerDevice

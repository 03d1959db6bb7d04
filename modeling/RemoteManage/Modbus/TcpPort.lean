import RemoteManage.Modbus.SerialPort

/-!
# Modbus TCP over one shared buffer

`porttcp.cpp` and `mbtcp.c` with the poll loop of `mb.c` and the event queue of `portevent.cpp`. The
receive callback copies a request into `rx_tcp_buffer` and posts `EV_FRAME_RECEIVED`; the stack
takes the request in one poll, executes it in a later one, and builds the reply in the same buffer.

The function handlers are a parameter, with the registers they work on. A handler gets the whole
buffer, so that what it reads behind the request is what the buffer holds there. The session stays
open, and a reply counts as sent when it is submitted to it.
-/

namespace RemoteManage.Modbus

open RemoteManage.Foundation

/-- `MB_TCP_PID`. -/
abbrev mbTcpPid : ℕ := 2

/-- `MB_TCP_LEN`. -/
abbrev mbTcpLen : ℕ := 4

/-- `MB_TCP_FUNC`. -/
abbrev mbTcpFunc : ℕ := 7

/-- The size of `rx_tcp_buffer`. -/
abbrev rxTcpBufferSize : ℕ := 1024

/-- `MB_TCP_PSEUDO_ADDRESS`, which `eMBTCPInit` keeps in `ucMBAddress`. -/
def mbTcpPseudoAddress : UInt8 := 255

/-- `MB_FUNC_ERROR`. -/
def mbFuncError : UInt8 := 128

/-- `eMBException`. -/
inductive MbException where
  | none
  | illegalFunction
  | illegalDataAddress
  | illegalDataValue
  | slaveDeviceFailure
  | acknowledge
  | slaveBusy
  | memoryParityError
  | gatewayPathFailed
  | gatewayTgtFailed
  deriving DecidableEq, Repr

/-- The number of an exception in the reply. -/
def MbException.code : MbException → UInt8
  | none => 0x00
  | illegalFunction => 0x01
  | illegalDataAddress => 0x02
  | illegalDataValue => 0x03
  | slaveDeviceFailure => 0x04
  | acknowledge => 0x05
  | slaveBusy => 0x06
  | memoryParityError => 0x08
  | gatewayPathFailed => 0x0A
  | gatewayTgtFailed => 0x0B

/-- What a function handler leaves: its result, the registers, the buffer with the PDU of the reply, and
the length of that PDU. -/
structure Outcome (σ : Type*) where
  eException : MbException
  registers : σ
  rxTcpBuffer : FixedBuffer UInt8 rxTcpBufferSize
  usLength : UInt16

/-- `pxMBFunctionHandler`. -/
abbrev MbFunctionHandler (σ : Type*) :=
  σ → FixedBuffer UInt8 rxTcpBufferSize → UInt16 → Outcome σ

variable {σ : Type*}

/-- The search of `xFuncHandlers` for a function code. -/
def callHandler (ucFunctionCode : UInt8) (registers : σ) (rxTcpBuffer : FixedBuffer UInt8 rxTcpBufferSize)
    (usLength : UInt16) : List (UInt8 × MbFunctionHandler σ) → Outcome σ
  | [] => ⟨.illegalFunction, registers, rxTcpBuffer, usLength⟩
  | (code, pxHandler) :: rest =>
    -- a code of 0 marks the end of the registered handlers
    if code = 0 then ⟨.illegalFunction, registers, rxTcpBuffer, usLength⟩
    else if code = ucFunctionCode then pxHandler registers rxTcpBuffer usLength
    else callHandler ucFunctionCode registers rxTcpBuffer usLength rest

/-- The error frame that `eMBPoll` builds for an exception. -/
def Outcome.errorFrame (o : Outcome σ) (ucFunctionCode : UInt8) : Outcome σ :=
  if o.eException = .none then o
  else
    { o with
      rxTcpBuffer := (o.rxTcpBuffer.write mbTcpFunc (ucFunctionCode ||| mbFuncError)).write (mbTcpFunc + 1)
        o.eException.code
      usLength := 2 }

/-- `eMBTCPSend`: the length of the MBAP header counts the PDU and the unit identifier. -/
def eMBTCPSend (o : Outcome σ) : Outcome σ × List UInt8 :=
  let usTCPLength := o.usLength + mbTcpFunc.toUInt16
  let sent :=
    (o.rxTcpBuffer.write mbTcpLen ((o.usLength.toNat + 1) / 2 ^ 8).toUInt8).write (mbTcpLen + 1)
      (o.usLength.toNat + 1).toUInt8
  ({ o with rxTcpBuffer := sent }, sent.contents usTCPLength.toNat)

/-- A request that the stack has executed: the registers and the buffer at that moment, and the length
of the PDU. -/
structure Execution (σ : Type*) where
  registers : σ
  rxTcpBuffer : FixedBuffer UInt8 rxTcpBufferSize
  usLength : UInt16

namespace Execution

/-- The bytes the request was executed on. -/
def request (e : Execution σ) : List UInt8 := e.rxTcpBuffer.contents (e.usLength.toNat + mbTcpFunc)

/-- What the handler of the request, and the error frame, leave. -/
def outcome (xFuncHandlers : List (UInt8 × MbFunctionHandler σ)) (e : Execution σ) : Outcome σ :=
  let ucFunctionCode := e.rxTcpBuffer.read mbTcpFunc
  (callHandler ucFunctionCode e.registers e.rxTcpBuffer e.usLength xFuncHandlers).errorFrame ucFunctionCode

/-- The reply computed from the request. -/
def reply (xFuncHandlers : List (UInt8 × MbFunctionHandler σ)) (e : Execution σ) : List UInt8 :=
  (eMBTCPSend (e.outcome xFuncHandlers)).2

end Execution

/-- A complete Modbus request: an MBAP header with the protocol identifier 0, and a PDU. -/
structure TcpRequest where
  bytes : List UInt8
  length_gt : mbTcpFunc < bytes.length
  length_le : bytes.length ≤ rxTcpBufferSize
  pid : bytes.getD mbTcpPid 0 = 0 ∧ bytes.getD (mbTcpPid + 1) 0 = 0

/-- The static variables of the port layer and of the poll loop, with the requests received, those
executed and the replies sent. -/
structure TcpPort (σ : Type*) where
  rxTcpBuffer : FixedBuffer UInt8 rxTcpBufferSize
  rxTcpSize : ℕ
  queue : List EventType
  ucRcvAddress : UInt8
  usLength : UInt16
  registers : σ
  requests : List TcpRequest
  executions : List (Execution σ)
  sent : List (List UInt8)

/-- What can happen to the port: a request arrives, or the stack polls. -/
inductive TcpEvent where
  | receive (request : TcpRequest)
  | poll

namespace TcpPort

/-- The port before the first request. -/
def start (cells : Vector UInt8 rxTcpBufferSize) (registers : σ) : TcpPort σ :=
  ⟨⟨cells, false⟩, 0, [], mbAddressBroadcast, 0, registers, [], [], []⟩

/-- The callback that `mb_tcp_server_task` gives to the server. -/
def receive (s : TcpPort σ) (request : TcpRequest) : TcpPort σ :=
  { s with
    rxTcpBuffer := s.rxTcpBuffer.writeAll 0 request.bytes
    rxTcpSize := request.bytes.length
    queue := s.queue ++ [.frameReceived]
    requests := s.requests ++ [request] }

/-- `EV_FRAME_RECEIVED`: `eMBTCPReceive`, and `EV_EXECUTE` for a frame that is for us. -/
def frameReceived (s : TcpPort σ) : TcpPort σ :=
  let usPID := (s.rxTcpBuffer.read mbTcpPid).toUInt16 <<< 8 ||| (s.rxTcpBuffer.read (mbTcpPid + 1)).toUInt16
  if usPID = 0 then
    let s := { s with
      ucRcvAddress := mbTcpPseudoAddress
      usLength := s.rxTcpSize.toUInt16 - mbTcpFunc.toUInt16 }
    if s.ucRcvAddress = mbTcpPseudoAddress ∨ s.ucRcvAddress = mbAddressBroadcast then
      { s with queue := s.queue ++ [.execute] }
    else s
  else s

/-- `EV_EXECUTE`. -/
def execute (xFuncHandlers : List (UInt8 × MbFunctionHandler σ)) (s : TcpPort σ) : TcpPort σ :=
  let e : Execution σ := ⟨s.registers, s.rxTcpBuffer, s.usLength⟩
  if s.ucRcvAddress ≠ mbAddressBroadcast then
    let (o, reply) := eMBTCPSend (e.outcome xFuncHandlers)
    { s with
      rxTcpBuffer := o.rxTcpBuffer
      usLength := o.usLength
      registers := o.registers
      executions := s.executions ++ [e]
      sent := s.sent ++ [reply] }
  else
    let o := callHandler (s.rxTcpBuffer.read mbTcpFunc) s.registers s.rxTcpBuffer s.usLength xFuncHandlers
    { s with
      rxTcpBuffer := o.rxTcpBuffer
      usLength := o.usLength
      registers := o.registers
      executions := s.executions ++ [e] }

/-- `eMBPoll`, which waits for an event. -/
def poll (xFuncHandlers : List (UInt8 × MbFunctionHandler σ)) (s : TcpPort σ) : Option (TcpPort σ) :=
  match s.queue with
  | [] => none
  | .ready :: rest => some { s with queue := rest }
  | .frameReceived :: rest => some { s with queue := rest }.frameReceived
  | .execute :: rest => some (execute xFuncHandlers { s with queue := rest })
  | .frameSent :: rest => some { s with queue := rest }

/-- One step of the port. -/
def step (xFuncHandlers : List (UInt8 × MbFunctionHandler σ)) (s : TcpPort σ) :
    TcpEvent → Option (TcpPort σ)
  | .receive request => some (s.receive request)
  | .poll => s.poll xFuncHandlers

variable {xFuncHandlers : List (UInt8 × MbFunctionHandler σ)}

/-- Every request is executed once, in order, on its own bytes and length, and answered with the reply
computed from it: what has been executed is the beginning of what has been received, and polling alone
executes the rest. -/
structure Serves (xFuncHandlers : List (UInt8 × MbFunctionHandler σ)) (s : TcpPort σ) : Prop where
  own : s.executions.map Execution.request <+: s.requests.map TcpRequest.bytes
  answered : s.sent = s.executions.map (Execution.reply xFuncHandlers)
  finishes : ∃ (polls : ℕ) (t : TcpPort σ),
    Transition.run (step xFuncHandlers) s (List.replicate polls .poll) = some t ∧
      t.requests = s.requests ∧ t.executions.map Execution.request = s.requests.map TcpRequest.bytes ∧
      t.sent = t.executions.map (Execution.reply xFuncHandlers)

/-- No request arrives while the stack has still something to do for an earlier one. -/
def Unhurried (s : TcpPort σ) : TcpEvent → Prop
  | .receive _ => s.queue = []
  | .poll => True

instance (s : TcpPort σ) : ∀ e, Decidable (Unhurried s e)
  | .receive _ => inferInstanceAs (Decidable (s.queue = []))
  | .poll => inferInstanceAs (Decidable True)

/-- The buffer holds the request, and the size is its length. -/
structure Holds (s : TcpPort σ) (r : TcpRequest) : Prop where
  contents : s.rxTcpBuffer.contents r.bytes.length = r.bytes
  size : s.rxTcpSize = r.bytes.length

/-- The stack has taken the request that the buffer holds. -/
structure Taken (s : TcpPort σ) (r : TcpRequest) : Prop extends s.Holds r where
  length : s.usLength.toNat + mbTcpFunc = r.bytes.length
  address : s.ucRcvAddress = mbTcpPseudoAddress

/-- How far the stack is with the last request, when all the earlier ones are executed. -/
inductive Progress (s : TcpPort σ) : Prop where
  | idle (hqueue : s.queue = [])
      (hdone : s.executions.map Execution.request = s.requests.map TcpRequest.bytes)
  | received (r : TcpRequest) (hqueue : s.queue = [.frameReceived]) (hheld : s.Holds r)
      (hdone : s.executions.map Execution.request ++ [r.bytes] = s.requests.map TcpRequest.bytes)
  | taken (r : TcpRequest) (hqueue : s.queue = [.execute]) (htaken : s.Taken r)
      (hdone : s.executions.map Execution.request ++ [r.bytes] = s.requests.map TcpRequest.bytes)

/-- All the earlier requests are executed, and every request executed is answered. -/
structure Steady (xFuncHandlers : List (UInt8 × MbFunctionHandler σ)) (s : TcpPort σ) : Prop where
  progress : s.Progress
  answered : s.sent = s.executions.map (Execution.reply xFuncHandlers)

/-- A request copied into the buffer is held there. -/
theorem receive_holds (s : TcpPort σ) (r : TcpRequest) : (s.receive r).Holds r :=
  ⟨s.rxTcpBuffer.writeAll_zero_contents r.bytes r.length_le, rfl⟩

/-- The length of the PDU, from the length of the request. -/
theorem usLength_toNat (r : TcpRequest) :
    (r.bytes.length.toUInt16 - mbTcpFunc.toUInt16).toNat + mbTcpFunc = r.bytes.length := by
  have hgt := r.length_gt
  have hle := r.length_le
  have hsize : r.bytes.length.toUInt16.toNat = r.bytes.length := by
    rw [Nat.toUInt16_eq, UInt16.toNat_ofNat']
    exact Nat.mod_eq_of_lt (hle.trans_lt (by decide))
  have hfunc : mbTcpFunc.toUInt16.toNat = mbTcpFunc := rfl
  rw [UInt16.toNat_sub_of_le _ _ (by rw [UInt16.le_iff_toNat_le]; omega)]
  omega

/-- A request that is held is a frame for us. -/
theorem frameReceived_of_holds {s : TcpPort σ} {r : TcpRequest} (h : s.Holds r) :
    s.frameReceived =
      { s with
        ucRcvAddress := mbTcpPseudoAddress
        usLength := r.bytes.length.toUInt16 - mbTcpFunc.toUInt16
        queue := s.queue ++ [.execute] } := by
  have hlow : mbTcpPid + 1 < r.bytes.length := lt_trans (by decide) r.length_gt
  have hhigh : s.rxTcpBuffer.read mbTcpPid = 0 :=
    (s.rxTcpBuffer.read_eq_of_contents h.contents (Nat.lt_of_succ_lt hlow) 0).trans r.pid.1
  have hlow : s.rxTcpBuffer.read (mbTcpPid + 1) = 0 :=
    (s.rxTcpBuffer.read_eq_of_contents h.contents hlow 0).trans r.pid.2
  rw [frameReceived, hhigh, hlow, h.size]
  rfl

/-- The poll that takes the request which the buffer holds. -/
theorem poll_frameReceived (xFuncHandlers : List (UInt8 × MbFunctionHandler σ)) {s : TcpPort σ}
    {r : TcpRequest} {rest : List EventType} (h : s.Holds r) (hqueue : s.queue = .frameReceived :: rest) :
    ∃ t, s.poll xFuncHandlers = some t ∧ t.Taken r ∧ t.queue = rest ++ [.execute] ∧
      t.requests = s.requests ∧ t.executions = s.executions ∧ t.sent = s.sent := by
  refine ⟨{ s with queue := rest }.frameReceived, ?_, ?_⟩
  · rw [poll, hqueue]
  · rw [frameReceived_of_holds (s := { s with queue := rest }) (r := r) ⟨h.contents, h.size⟩]
    exact ⟨⟨⟨h.contents, h.size⟩, usLength_toNat r, rfl⟩, rfl, rfl, rfl, rfl⟩

/-- The poll that executes a request, on its own bytes, and answers it. -/
theorem poll_execute (xFuncHandlers : List (UInt8 × MbFunctionHandler σ)) {s : TcpPort σ}
    {r : TcpRequest} {rest : List EventType} (h : s.Taken r) (hqueue : s.queue = .execute :: rest) :
    ∃ t e, s.poll xFuncHandlers = some t ∧ t.queue = rest ∧ t.requests = s.requests ∧
      t.executions = s.executions ++ [e] ∧ e.request = r.bytes ∧
      t.sent = s.sent ++ [e.reply xFuncHandlers] := by
  have hreply : s.ucRcvAddress ≠ mbAddressBroadcast := by
    rw [h.address]
    decide
  have hown : Execution.request ⟨s.registers, s.rxTcpBuffer, s.usLength⟩ = r.bytes := by
    rw [Execution.request, h.length]
    exact h.contents
  refine ⟨{ s with queue := rest }.execute xFuncHandlers, ⟨s.registers, s.rxTcpBuffer, s.usLength⟩, ?_, ?_⟩
  · rw [poll, hqueue]
  · rw [execute, if_pos hreply]
    exact ⟨rfl, rfl, rfl, hown, rfl⟩

/-- A request that arrives when the stack has nothing to do leaves it to be taken. -/
theorem receive_steady {s : TcpPort σ} (h : s.Steady xFuncHandlers) (hidle : s.queue = [])
    (r : TcpRequest) : (s.receive r).Steady xFuncHandlers := by
  refine ⟨?_, h.answered⟩
  cases h.progress with
  | idle _ hdone =>
    refine .received r ?_ (s.receive_holds r) ?_
    · rw [receive, hidle]
      rfl
    · rw [receive, List.map_append, ← hdone]
      rfl
  | received r' hqueue =>
    rw [hidle] at hqueue
    contradiction
  | taken r' hqueue =>
    rw [hidle] at hqueue
    contradiction

/-- A poll that waits for nothing takes the stack one event further. -/
theorem poll_steady {s : TcpPort σ} (h : s.Steady xFuncHandlers) (hbusy : s.queue ≠ []) :
    ∃ t, s.poll xFuncHandlers = some t ∧ t.Steady xFuncHandlers ∧ t.requests = s.requests ∧
      (t.queue = [] ∨ s.queue = [.frameReceived] ∧ t.queue = [.execute]) := by
  cases h.progress with
  | idle hqueue _ => exact absurd hqueue hbusy
  | received r hqueue hheld hdone =>
    obtain ⟨t, hpoll, htaken, hexecute, hrequests, hexecutions, hsent⟩ :=
      poll_frameReceived xFuncHandlers hheld hqueue
    refine ⟨t, hpoll, ⟨.taken r hexecute htaken ?_, ?_⟩, hrequests, .inr ⟨hqueue, hexecute⟩⟩
    · rw [hexecutions, hrequests]
      exact hdone
    · rw [hsent, hexecutions]
      exact h.answered
  | taken r hqueue htaken hdone =>
    obtain ⟨t, e, hpoll, hempty, hrequests, hexecutions, hown, hsent⟩ :=
      poll_execute xFuncHandlers htaken hqueue
    refine ⟨t, hpoll, ⟨.idle hempty ?_, ?_⟩, hrequests, .inl hempty⟩
    · rw [hexecutions, hrequests, List.map_append, List.map_singleton, hown]
      exact hdone
    · rw [hsent, hexecutions, List.map_append, List.map_singleton]
      exact congrArg (· ++ _) h.answered

/-- Every unhurried step leaves the earlier requests executed. -/
theorem step_steady {s s' : TcpPort σ} {e : TcpEvent} (h : s.Steady xFuncHandlers)
    (hcond : s.Unhurried e) (hstep : s.step xFuncHandlers e = some s') : s'.Steady xFuncHandlers := by
  cases e with
  | receive r => exact Option.some.inj hstep ▸ receive_steady h hcond r
  | poll =>
    have hbusy : s.queue ≠ [] := by
      intro hidle
      rw [step, poll, hidle] at hstep
      contradiction
    obtain ⟨t, hpoll, hsteady, -⟩ := poll_steady h hbusy
    obtain rfl : s' = t := Option.some.inj (hstep.symm.trans hpoll)
    exact hsteady

/-- When the stack has nothing left to do, every request is executed. -/
theorem Steady.done {s : TcpPort σ} (h : s.Steady xFuncHandlers) (hidle : s.queue = []) :
    s.executions.map Execution.request = s.requests.map TcpRequest.bytes := by
  cases h.progress with
  | idle _ hdone => exact hdone
  | received r hqueue =>
    rw [hidle] at hqueue
    contradiction
  | taken r hqueue =>
    rw [hidle] at hqueue
    contradiction

/-- Two polls are enough for what has arrived. -/
theorem Steady.polls {s : TcpPort σ} (h : s.Steady xFuncHandlers) :
    ∃ (polls : ℕ) (t : TcpPort σ),
      Transition.run (step xFuncHandlers) s (List.replicate polls .poll) = some t ∧
        t.requests = s.requests ∧ t.queue = [] ∧ t.Steady xFuncHandlers := by
  by_cases hidle : s.queue = []
  · exact ⟨0, s, rfl, rfl, hidle, h⟩
  obtain ⟨t, hfirst, ht, hkept, hempty | ⟨-, hexecute⟩⟩ := poll_steady h hidle
  · exact ⟨1, t, Transition.run_singleton hfirst, hkept, hempty, ht⟩
  obtain ⟨u, hsecond, hu, hrequests, hempty | ⟨hreceived, -⟩⟩ := poll_steady ht (by simp [hexecute])
  · refine ⟨2, u, ?_, hrequests.trans hkept, hempty, hu⟩
    exact Transition.run_cons_eq_some.mpr ⟨t, hfirst, Transition.run_singleton hsecond⟩
  · rw [hexecute] at hreceived
    contradiction

/-- A port that has executed all the earlier requests serves every request. -/
theorem Steady.serves {s : TcpPort σ} (h : s.Steady xFuncHandlers) : s.Serves xFuncHandlers := by
  refine ⟨?_, h.answered, ?_⟩
  · cases h.progress with
    | idle _ hdone => exact hdone ▸ List.prefix_rfl
    | received r _ _ hdone => exact hdone ▸ List.prefix_append _ _
    | taken r _ _ hdone => exact hdone ▸ List.prefix_append _ _
  · obtain ⟨polls, t, hrun, hrequests, hqueue, ht⟩ := h.polls
    exact ⟨polls, t, hrun, hrequests, hrequests ▸ ht.done hqueue, ht.answered⟩

/-- The port starts without a request. -/
theorem start_steady (cells : Vector UInt8 rxTcpBufferSize) (registers : σ) :
    (start cells registers).Steady xFuncHandlers :=
  ⟨.idle rfl rfl, rfl⟩

/-- Along every run in which a request arrives only when the earlier ones are executed, each request is
executed once on its own bytes and answered, whatever the function handlers do. -/
theorem run_serves (xFuncHandlers : List (UInt8 × MbFunctionHandler σ))
    (cells : Vector UInt8 rxTcpBufferSize) (registers : σ) (events : List TcpEvent) (s : TcpPort σ)
    (hrun : Transition.run (step xFuncHandlers) (start cells registers) events = some s)
    (hcond : Transition.Along (step xFuncHandlers) Unhurried (start cells registers) events) :
    s.Serves xFuncHandlers := by
  have hsteady := Transition.run_invariant_along Unhurried (Steady xFuncHandlers)
    (fun _ _ _ h hcond hstep => step_steady h hcond hstep) hrun hcond (start_steady cells registers)
  exact hsteady.serves

/-- A request to read the first holding register. -/
def readFirst : TcpRequest :=
  ⟨[0x00, 0x01, 0x00, 0x00, 0x00, 0x06, 0x01, 0x03, 0x00, 0x00, 0x00, 0x01], by decide, by decide, by decide⟩

/-- The same request for the second register, with the next transaction identifier. -/
def readSecond : TcpRequest :=
  ⟨[0x00, 0x02, 0x00, 0x00, 0x00, 0x06, 0x01, 0x03, 0x00, 0x01, 0x00, 0x01], by decide, by decide, by decide⟩

/-- A handler of function code 3 that answers with one register, which holds the address read. -/
def readEcho : MbFunctionHandler Unit := fun registers rxTcpBuffer _ =>
  ⟨.none, registers,
    rxTcpBuffer.writeAll (mbTcpFunc + 1) [0x02, rxTcpBuffer.read 8, rxTcpBuffer.read 9], 4⟩

/-- The second request arrives after the first has been executed. -/
theorem run_serves_inTurn :
    ∃ s, Transition.run (step [(0x03, readEcho)]) (start (.replicate _ 0) ())
        [.receive readFirst, .poll, .poll, .receive readSecond, .poll] = some s ∧
      s.Serves [(0x03, readEcho)] := by
  have hsome : (Transition.run (step [(0x03, readEcho)]) (start (.replicate _ 0) ())
      [.receive readFirst, .poll, .poll, .receive readSecond, .poll]).isSome = true := by
    decide +kernel
  obtain ⟨s, hs⟩ := Option.isSome_iff_exists.mp hsome
  exact ⟨s, hs, run_serves _ _ _ _ s hs (by decide +kernel)⟩

/-- Of two requests that arrive one right behind the other, the first execution uses the bytes of the
second, whatever the function handlers do. -/
theorem run_pipelined (xFuncHandlers : List (UInt8 × MbFunctionHandler σ))
    (cells : Vector UInt8 rxTcpBufferSize) (registers : σ) (first second : TcpRequest) :
    ∃ s, Transition.run (step xFuncHandlers) (start cells registers)
        [.receive first, .receive second, .poll, .poll, .poll] = some s ∧
      s.executions.map Execution.request = [second.bytes] ∧ s.requests = [first, second] := by
  have hheld := ((start cells registers).receive first).receive_holds second
  obtain ⟨t, hfirst, htaken, hqueue, hrequests, hexecutions, -⟩ :=
    poll_frameReceived xFuncHandlers hheld rfl
  obtain ⟨u, hsecond, hagain, hqueue', hrequests', hexecutions', -⟩ :=
    poll_frameReceived xFuncHandlers htaken.toHolds hqueue
  obtain ⟨s, e, hthird, -, hrequests'', hexecutions'', hown, -⟩ :=
    poll_execute xFuncHandlers hagain hqueue'
  refine ⟨s, ?_, ?_, hrequests''.trans (hrequests'.trans hrequests)⟩
  · have hreceived : Transition.run (step xFuncHandlers) (start cells registers)
        [.receive first, .receive second] = some (((start cells registers).receive first).receive second) :=
      rfl
    refine Transition.run_append_eq_some hreceived (Transition.run_cons_eq_some.mpr ⟨t, hfirst, ?_⟩)
    exact Transition.run_cons_eq_some.mpr ⟨u, hsecond, Transition.run_singleton hthird⟩
  · rw [hexecutions'', hexecutions', hexecutions, List.map_append, List.map_singleton, hown]
    rfl

/-- The two requests to read registers, one right behind the other. -/
theorem not_forall_run_serves :
    ¬ ∀ (xFuncHandlers : List (UInt8 × MbFunctionHandler Unit)) (cells : Vector UInt8 rxTcpBufferSize)
        (events : List TcpEvent) (s : TcpPort Unit),
        Transition.run (step xFuncHandlers) (start cells ()) events = some s → s.Serves xFuncHandlers := by
  intro h
  obtain ⟨s, hrun, hexecuted, hrequests⟩ :=
    run_pipelined [(0x03, readEcho)] (.replicate _ 0) () readFirst readSecond
  have hown := (h _ _ _ s hrun).own
  rw [hexecuted, hrequests] at hown
  revert hown
  decide

end TcpPort

end RemoteManage.Modbus

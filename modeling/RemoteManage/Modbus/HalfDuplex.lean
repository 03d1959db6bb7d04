import RemoteManage.Modbus.SerialPort

/-!
# The entry assertions of the stack

`xMBRTUReceiveFSM` asserts that no reply is being transmitted, `xMBRTUTransmitFSM` that no frame
is being received. The stack relies on `vMBPortSerialEnable` to disable the receiver while it
transmits; the port layer ignores `xRxEnable`. The assertions hold along every run in which the
line itself is half-duplex: no byte arrives during a reply, and a reply is started only when
no other is being transmitted and no byte is left for the receive thread.
-/

namespace RemoteManage.Modbus

open RemoteManage.Foundation SerialPort

/-- The next poll makes `eMBRTUSend` start a reply. -/
def SerialPort.StartsReply (s : SerialPort) : Prop :=
  s.queue.head? = some .execute ∧ s.ucRcvAddress ≠ mbAddressBroadcast ∧ s.eRcvState = .rxIdle

instance (s : SerialPort) : Decidable s.StartsReply := by
  unfold SerialPort.StartsReply
  infer_instance

/-- No byte arrives during a reply, and a reply is started only when no other is being transmitted and
every byte that has arrived has been handed to the stack. -/
def HalfDuplex (s : SerialPort) : PortEvent → Prop
  | .arrive _ => s.eSndState = .txIdle
  | .poll _ => s.StartsReply → s.eSndState = .txIdle ∧ s.line = [] ∧ s.unread = 0
  | _ => True

instance (s : SerialPort) (e : PortEvent) : Decidable (HalfDuplex s e) := by
  unfold HalfDuplex
  cases e <;> infer_instance

/-- No call of the two state machines has failed its entry assertion. -/
def SerialPort.EntriesHold (s : SerialPort) : Prop :=
  s.failed ≠ some .receiveFSM ∧ s.failed ≠ some .transmitFSM

/-- The wake-ups of the transmit thread that have not ended with a complete reply. -/
def SerialPort.calls (s : SerialPort) : ℕ := s.wakeups + if s.txThread = .transmitting then 1 else 0

/-- During a reply nothing is received and the transmit thread has one wake-up to serve it; otherwise the
thread does not call the stack. -/
structure Separated (s : SerialPort) : Prop where
  quiet : s.eSndState = .txXmit → s.eRcvState = .rxIdle ∧ s.line = [] ∧ s.unread = 0
  calls : s.calls = if s.eSndState = .txXmit then 1 else 0
  entries : s.EntriesHold

/-- A program that runs has met all its assertions. -/
theorem entriesHold_of_none {s : SerialPort} (h : s.failed = none) : s.EntriesHold := by
  rw [EntriesHold, h]
  decide

/-- The other assertions are not those of the two state machines. -/
theorem fail_entriesHold (s : SerialPort) {assertion : Assertion} (hreceive : assertion ≠ .receiveFSM)
    (htransmit : assertion ≠ .transmitFSM) : (s.fail assertion).EntriesHold :=
  ⟨fun h => hreceive (Option.some.inj h), fun h => htransmit (Option.some.inj h)⟩

/-- The receive thread calls the stack only when no reply is being transmitted. -/
theorem Separated.receive {s : SerialPort} (h : Separated s) (hunread : 0 < s.unread) :
    s.eSndState = .txIdle := by
  cases hsnd : s.eSndState with
  | txIdle => rfl
  | txXmit =>
    obtain ⟨-, -, hnone⟩ := h.quiet hsnd
    omega

/-- The transmit thread calls the stack only during a reply. -/
theorem Separated.transmit {s : SerialPort} (h : Separated s) (htx : s.txThread = .transmitting) :
    s.eSndState = .txXmit := by
  have hcalls := h.calls
  cases hsnd : s.eSndState with
  | txXmit => rfl
  | txIdle =>
    rw [hsnd, SerialPort.calls, if_pos htx] at hcalls
    contradiction

/-- Without a reply nothing has to be quiet. -/
theorem separated_of_idle {s : SerialPort} (hsnd : s.eSndState = .txIdle) (hcalls : s.calls = 0)
    (hentries : s.EntriesHold) : Separated s := by
  have hnot : ¬ s.eSndState = .txXmit := by
    rw [hsnd]
    exact SndState.noConfusion
  constructor
  · intro hxmit
    exact absurd hxmit hnot
  · rw [hcalls, if_neg hnot]
  · exact hentries

/-- Without a reply the transmit thread has no call to make. -/
theorem Separated.calls_of_idle {s : SerialPort} (h : Separated s) (hsnd : s.eSndState = .txIdle) :
    s.calls = 0 := by
  rw [h.calls, hsnd]
  rfl

/-- Without a reply `xMBRTUReceiveFSM` meets its assertion and leaves the transmit side alone. -/
theorem xMBRTUReceiveFSM_of_idle {s : SerialPort} (hsnd : s.eSndState = .txIdle) :
    s.xMBRTUReceiveFSM.eSndState = .txIdle ∧ s.xMBRTUReceiveFSM.calls = s.calls ∧
      s.xMBRTUReceiveFSM.failed = s.failed := by
  rw [xMBRTUReceiveFSM, if_pos hsnd]
  dsimp only
  split
  · exact ⟨hsnd, rfl, rfl⟩
  · exact ⟨hsnd, rfl, rfl⟩
  · exact ⟨hsnd, rfl, rfl⟩
  · split <;> exact ⟨hsnd, rfl, rfl⟩

/-- The timer leaves both sides separated. -/
theorem xMBRTUTimerT35Expired_separated {s : SerialPort} (h : Separated s) :
    Separated s.xMBRTUTimerT35Expired := by
  have hquiet (hxmit : s.eSndState = .txXmit) := (h.quiet hxmit).2
  unfold xMBRTUTimerT35Expired
  split
  · exact ⟨fun hxmit => ⟨rfl, hquiet hxmit⟩, h.calls, h.entries⟩
  · exact ⟨fun hxmit => ⟨rfl, hquiet hxmit⟩, h.calls, h.entries⟩
  · exact ⟨fun hxmit => ⟨rfl, hquiet hxmit⟩, h.calls, h.entries⟩
  · exact ⟨h.quiet, h.calls, fail_entriesHold s (by decide) (by decide)⟩

/-- A received frame leaves both sides separated. -/
theorem pollFrameReceived_separated {s : SerialPort} (h : Separated s) : Separated s.pollFrameReceived := by
  unfold pollFrameReceived
  dsimp only
  split
  · split
    · split
      · exact ⟨h.quiet, h.calls, h.entries⟩
      · exact ⟨h.quiet, h.calls, h.entries⟩
    · exact h
  · exact ⟨h.quiet, h.calls, fail_entriesHold s (by decide) (by decide)⟩

/-- A poll that starts a reply only under the condition leaves both sides separated. -/
theorem pollExecute_separated {s : SerialPort} (h : Separated s) (pdu : Pdu)
    (hcond : s.ucRcvAddress ≠ mbAddressBroadcast → s.eRcvState = .rxIdle →
      s.eSndState = .txIdle ∧ s.line = [] ∧ s.unread = 0) : Separated (s.pollExecute pdu) := by
  unfold pollExecute
  dsimp only
  split
  · next haddress =>
    unfold eMBRTUSend
    dsimp only
    split
    · next hidle =>
      obtain ⟨hsnd, hline, hunread⟩ := hcond haddress hidle
      have hcalls := h.calls_of_idle hsnd
      constructor
      · intro _
        exact ⟨hidle, hline, hunread⟩
      · change s.wakeups + 1 + _ = 1
        rw [Nat.add_right_comm]
        exact congrArg (· + 1) hcalls
      · exact h.entries
    · exact ⟨h.quiet, h.calls, h.entries⟩
  · exact ⟨h.quiet, h.calls, h.entries⟩

/-- A poll under the condition leaves both sides separated. -/
theorem poll_separated {s s' : SerialPort} {pdu : Pdu} (h : Separated s) (hcond : HalfDuplex s (.poll pdu))
    (hact : portAct s (.poll pdu) = some s') : Separated s' := by
  unfold portAct at hact
  cases hqueue : s.queue with
  | nil =>
    rw [hqueue] at hact
    contradiction
  | cons eEvent queue =>
    rw [hqueue] at hact
    obtain rfl := Option.some.inj hact
    have htaken : Separated { s with queue := queue } := ⟨h.quiet, h.calls, h.entries⟩
    cases eEvent with
    | ready => exact htaken
    | frameReceived => exact pollFrameReceived_separated htaken
    | execute =>
      apply pollExecute_separated htaken
      intro haddress hidle
      exact hcond ⟨congrArg List.head? hqueue, haddress, hidle⟩
    | frameSent => exact htaken

/-- During a reply `xMBRTUTransmitFSM` meets its assertion; with the last byte the transmit thread stops
calling. -/
theorem txCall_separated {s s' : SerialPort} (h : Separated s) (hact : portAct s .txCall = some s') :
    Separated s' := by
  obtain ⟨htx, rfl⟩ := Transition.enabled_of_ite hact
  have hsnd := h.transmit htx
  obtain ⟨hidle, hquiet⟩ := h.quiet hsnd
  have hcalls := h.calls
  rw [xMBRTUTransmitFSM, if_pos hidle, hsnd]
  dsimp only
  split
  · exact ⟨fun _ => ⟨hidle, hquiet⟩, hcalls, h.entries⟩
  · apply separated_of_idle rfl
    · rw [SerialPort.calls, hsnd, if_pos htx] at hcalls
      exact Nat.succ.inj hcalls
    · exact h.entries

/-- Writing what the tty holds leaves both sides separated. -/
theorem txWrite_separated {s s' : SerialPort} (h : Separated s) (hact : portAct s .txWrite = some s') :
    Separated s' := by
  unfold portAct at hact
  cases htx : s.txThread with
  | waiting =>
    rw [htx] at hact
    contradiction
  | transmitting =>
    rw [htx] at hact
    contradiction
  | writing put =>
    rw [htx] at hact
    obtain rfl := Option.some.inj hact
    have hcalls := h.calls
    rw [SerialPort.calls, htx] at hcalls
    refine ⟨?_, hcalls, h.entries⟩
    intro hxmit
    obtain ⟨hidle, hline, hunread⟩ := h.quiet hxmit
    exact ⟨hidle, (congrArg (ite _ · []) hline).trans (ite_self []), hunread⟩

/-- Every step under the condition leaves both sides separated. -/
theorem portStep_separated {s s' : SerialPort} {e : PortEvent} (h : Separated s) (hcond : HalfDuplex s e)
    (hstep : portStep s e = some s') : Separated s' := by
  obtain ⟨hnone, hact⟩ := Option.ite_none_right_eq_some.mp hstep
  cases e with
  | arrive ucByte =>
    have hsnd : s.eSndState = .txIdle := hcond
    exact Option.some.inj hact ▸ separated_of_idle hsnd (h.calls_of_idle hsnd) h.entries
  | rxRead size =>
    obtain ⟨⟨-, hpos, hle⟩, rfl⟩ := Transition.enabled_of_ite hact
    refine ⟨?_, h.calls, h.entries⟩
    intro hxmit
    obtain ⟨-, hline, -⟩ := h.quiet hxmit
    rw [hline] at hle
    exact absurd hpos (Nat.not_lt.mpr (hle.trans (Nat.min_le_left 0 _)))
  | rxCall =>
    obtain ⟨hunread, rfl⟩ := Transition.enabled_of_ite hact
    obtain ⟨hsnd, hcalls, hfailed⟩ := xMBRTUReceiveFSM_of_idle (h.receive hunread)
    apply separated_of_idle
    · exact hsnd
    · exact hcalls.trans (h.calls_of_idle (h.receive hunread))
    · exact entriesHold_of_none (hfailed.trans hnone)
  | timer =>
    obtain ⟨-, rfl⟩ := Transition.enabled_of_ite hact
    exact xMBRTUTimerT35Expired_separated h
  | poll pdu => exact poll_separated h hcond hact
  | txWake =>
    obtain ⟨⟨htx, hwakeups⟩, rfl⟩ := Transition.enabled_of_ite hact
    refine ⟨h.quiet, ?_, h.entries⟩
    rw [← h.calls, SerialPort.calls, SerialPort.calls, htx]
    exact Nat.sub_add_cancel hwakeups
  | txCall => exact txCall_separated h hact
  | txWrite => exact txWrite_separated h hact

/-- The stack starts without a reply. -/
theorem portStart_separated (ucRTUBuf : Vector UInt8 mbSerPduSizeMax)
    (ttyRxBuffer ttyTxBuffer : Vector UInt8 rxBufferSize) :
    Separated (portStart ucRTUBuf ttyRxBuffer ttyTxBuffer) :=
  separated_of_idle rfl rfl (entriesHold_of_none rfl)

/-- Along every run in which the line is half-duplex both state machines are only called in the state that
they assert, whatever bytes arrive and however the threads, the timer and the polls take turns. -/
theorem run_entriesHold (ucRTUBuf : Vector UInt8 mbSerPduSizeMax)
    (ttyRxBuffer ttyTxBuffer : Vector UInt8 rxBufferSize) (events : List PortEvent) (s : SerialPort)
    (hrun : Transition.run portStep (portStart ucRTUBuf ttyRxBuffer ttyTxBuffer) events = some s)
    (hcond : Transition.Along portStep HalfDuplex (portStart ucRTUBuf ttyRxBuffer ttyTxBuffer) events) :
    s.EntriesHold := by
  have hseparated := Transition.run_invariant_along HalfDuplex Separated
    (fun _ _ _ h hcond hstep => portStep_separated h hcond hstep) hrun hcond
    (portStart_separated ucRTUBuf ttyRxBuffer ttyTxBuffer)
  exact hseparated.entries

/-- A request of four bytes is received and polled, and its reply is transmitted. -/
theorem run_entriesHold_exchange :
    ∃ s, Transition.run portStep (portStart (.replicate _ 0) (.replicate _ 0) (.replicate _ 0))
        (exchange [0x01, 0x07, 0x41, 0xe2] ⟨[0x07, 0x00], by decide, by decide⟩) = some s ∧
      s.EntriesHold := by
  have hsome : (Transition.run portStep (portStart (.replicate _ 0) (.replicate _ 0) (.replicate _ 0))
      (exchange [0x01, 0x07, 0x41, 0xe2] ⟨[0x07, 0x00], by decide, by decide⟩)).isSome = true := by
    decide +kernel
  obtain ⟨s, hs⟩ := Option.isSome_iff_exists.mp hsome
  exact ⟨s, hs, run_entriesHold _ _ _ _ s hs (by decide +kernel)⟩

/-- A byte that arrives while the reply to a request is being transmitted is handed to a stack that
transmits. -/
theorem run_entriesHold_fails :
    ¬ ∀ (ucRTUBuf : Vector UInt8 mbSerPduSizeMax) (ttyRxBuffer ttyTxBuffer : Vector UInt8 rxBufferSize)
        (events : List PortEvent) (s : SerialPort),
        Transition.run portStep (portStart ucRTUBuf ttyRxBuffer ttyTxBuffer) events = some s →
        s.EntriesHold := by
  intro h
  -- the schedule is cut behind the first byte of the reply
  have hrun : (Transition.run portStep (portStart (.replicate _ 0) (.replicate _ 0) (.replicate _ 0))
      ((exchange [0x01, 0x07, 0x41, 0xe2] ⟨[0x07, 0x00], by decide, by decide⟩).take 16 ++
        [.arrive 0x00, .rxRead 1, .rxCall])).map SerialPort.failed = some (some .receiveFSM) := by
    decide +kernel
  obtain ⟨s, hs, hfailed⟩ := Option.map_eq_some_iff.mp hrun
  exact (h _ _ _ _ s hs).1 hfailed

end RemoteManage.Modbus

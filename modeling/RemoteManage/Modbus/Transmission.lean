import RemoteManage.Modbus.SerialPort

/-!
# What the serial port writes of a reply

The stack puts the bytes of a reply one by one and disables the transmitter when it has put the
last one. `vMBPortSerialEnable` takes the transmit index back in both directions, so when
`port_tty_tx_thread` learns that the reply is complete there is nothing left to write. In every
run every reply is written as no bytes at all.
-/

namespace RemoteManage.Modbus

open RemoteManage.Foundation SerialPort

/-- What has been written for a reply is what has been put for it. -/
def Transmission.Faithful (t : Transmission) : Prop := t.written = t.put

instance (t : Transmission) : Decidable t.Faithful := inferInstanceAs (Decidable (t.written = t.put))

/-- The part of the state that only the transmit side changes. -/
structure TransmitSide where
  txThread : TxThread
  ttySize : ℕ
  eSndState : SndState
  usSndBufferCount : ℕ
  put : List UInt8
  transmissions : List Transmission

/-- The transmit side of a state. -/
def SerialPort.transmitSide (s : SerialPort) : TransmitSide :=
  ⟨s.txThread, s.tty.size, s.eSndState, s.usSndBufferCount, s.put, s.transmissions⟩

/-- A reply that is not complete has bytes put or bytes left; a complete one has bytes put and an empty
transmit buffer; all replies written so far have been written as nothing. -/
structure TransmitSide.Losing (t : TransmitSide) : Prop where
  pending : t.eSndState = .txXmit → t.usSndBufferCount ≠ 0 ∨ t.put ≠ []
  writing : ∀ put, t.txThread = .writing put → put ≠ [] ∧ t.ttySize = 0
  lost : ∀ transmission ∈ t.transmissions, transmission.put ≠ [] ∧ transmission.written = []

/-- `xMBRTUReceiveFSM` does not touch the transmit side. -/
theorem xMBRTUReceiveFSM_transmitSide (s : SerialPort) :
    s.xMBRTUReceiveFSM.transmitSide = s.transmitSide := by
  unfold xMBRTUReceiveFSM
  dsimp only
  split
  · split
    · rfl
    · rfl
    · rfl
    · split <;> rfl
  · rfl

/-- The timer does not touch the transmit side. -/
theorem xMBRTUTimerT35Expired_transmitSide (s : SerialPort) :
    s.xMBRTUTimerT35Expired.transmitSide = s.transmitSide := by
  unfold xMBRTUTimerT35Expired
  split <;> rfl

/-- A received frame does not touch the transmit side. -/
theorem pollFrameReceived_transmitSide (s : SerialPort) :
    s.pollFrameReceived.transmitSide = s.transmitSide := by
  unfold pollFrameReceived
  dsimp only
  split
  · split
    · split <;> rfl
    · rfl
  · rfl

/-- `eMBRTUSend` starts a reply with all its bytes left, or does nothing. -/
theorem eMBRTUSend_losing {s : SerialPort} (h : s.transmitSide.Losing) (ucSlaveAddress : UInt8)
    (usLength : ℕ) : (s.eMBRTUSend ucSlaveAddress usLength).transmitSide.Losing := by
  unfold eMBRTUSend
  split
  · constructor
    · intro _
      exact Or.inl (Nat.ne_of_gt (Nat.add_pos_left (by decide) usLength))
    · intro put hput
      exact ⟨(h.writing put hput).1, rfl⟩
    · exact h.lost
  · exact h

/-- A poll starts a reply or leaves the transmit side alone. -/
theorem eMBPoll_losing {s : SerialPort} (h : s.transmitSide.Losing) (eEvent : EventType) (pdu : Pdu) :
    (s.eMBPoll eEvent pdu).transmitSide.Losing := by
  cases eEvent with
  | ready => exact h
  | frameReceived => exact (pollFrameReceived_transmitSide s).symm ▸ h
  | execute =>
    have hhandled : { s with ucRTUBuf := s.ucRTUBuf.writeAll 1 pdu.bytes }.transmitSide.Losing := h
    unfold eMBPoll pollExecute
    dsimp only
    split
    · exact eMBRTUSend_losing hhandled _ _
    · exact h
  | frameSent => exact h

/-- A call of `xMBRTUTransmitFSM` puts a byte, or completes the reply and empties the transmit buffer. -/
theorem txCall_losing {s s' : SerialPort} (h : s.transmitSide.Losing) (hact : portAct s .txCall = some s') :
    s'.transmitSide.Losing := by
  obtain ⟨htx, rfl⟩ := Transition.enabled_of_ite hact
  have hnot (put : List UInt8) : s.txThread ≠ .writing put := by
    rw [htx]
    exact TxThread.noConfusion
  unfold xMBRTUTransmitFSM
  split
  · cases hsnd : s.eSndState with
    | txIdle => exact ⟨h.pending, fun put hput => absurd hput (hnot put), h.lost⟩
    | txXmit =>
      dsimp only
      split
      · constructor
        · intro _
          exact Or.inr (List.append_ne_nil_of_right_ne_nil _ (List.cons_ne_nil _ _))
        · intro put hput
          exact absurd hput (hnot put)
        · exact h.lost
      · next hcount =>
        constructor
        · intro hxmit
          contradiction
        · intro put hput
          obtain rfl : s.put = put := TxThread.writing.inj hput
          exact ⟨(h.pending hsnd).resolve_left hcount, rfl⟩
        · exact h.lost
  · exact h

/-- What is written behind a complete reply is nothing. -/
theorem txWrite_losing {s s' : SerialPort} (h : s.transmitSide.Losing) (hact : portAct s .txWrite = some s') :
    s'.transmitSide.Losing := by
  unfold portAct at hact
  cases htx : s.txThread with
  | waiting =>
    rw [htx] at hact
    contradiction
  | transmitting =>
    rw [htx] at hact
    contradiction
  | writing put =>
    rw [htx] at hact
    obtain rfl := Option.some.inj hact
    obtain ⟨hne, hsize⟩ := h.writing put htx
    constructor
    · exact h.pending
    · intro put hput
      contradiction
    · intro transmission hmem
      cases List.mem_append.mp hmem with
      | inl hbefore => exact h.lost transmission hbefore
      | inr hlast =>
        obtain rfl := List.mem_singleton.mp hlast
        exact ⟨hne, congrArg s.tty.buffer.contents hsize⟩

/-- Every step keeps that replies are lost. -/
theorem portStep_losing {s s' : SerialPort} {e : PortEvent} (h : s.transmitSide.Losing)
    (hstep : portStep s e = some s') : s'.transmitSide.Losing := by
  obtain ⟨-, hact⟩ := Option.ite_none_right_eq_some.mp hstep
  cases e with
  | arrive ucByte => exact Option.some.inj hact ▸ h
  | rxRead size =>
    obtain ⟨-, rfl⟩ := Transition.enabled_of_ite hact
    exact h
  | rxCall =>
    obtain ⟨-, rfl⟩ := Transition.enabled_of_ite hact
    exact (xMBRTUReceiveFSM_transmitSide s).symm ▸ h
  | timer =>
    obtain ⟨-, rfl⟩ := Transition.enabled_of_ite hact
    exact (xMBRTUTimerT35Expired_transmitSide s).symm ▸ h
  | poll pdu =>
    unfold portAct at hact
    cases hqueue : s.queue with
    | nil =>
      rw [hqueue] at hact
      contradiction
    | cons eEvent queue =>
      rw [hqueue] at hact
      have htaken : { s with queue := queue }.transmitSide.Losing := h
      exact Option.some.inj hact ▸ eMBPoll_losing htaken eEvent pdu
  | txWake =>
    obtain ⟨-, rfl⟩ := Transition.enabled_of_ite hact
    constructor
    · exact h.pending
    · intro put hput
      contradiction
    · exact h.lost
  | txCall => exact txCall_losing h hact
  | txWrite => exact txWrite_losing h hact

/-- The stack starts without a reply. -/
theorem portStart_losing (ucRTUBuf : Vector UInt8 mbSerPduSizeMax)
    (ttyRxBuffer ttyTxBuffer : Vector UInt8 rxBufferSize) :
    (portStart ucRTUBuf ttyRxBuffer ttyTxBuffer).transmitSide.Losing := by
  constructor
  · intro hxmit
    contradiction
  · intro put hput
    contradiction
  · intro transmission hmem
    contradiction

/-- The frame in which a PDU is sent. -/
def Pdu.replyFrame (pdu : Pdu) : List UInt8 :=
  ucMBAddress :: pdu.bytes ++
    [lowByte (usMBCRC16 (ucMBAddress :: pdu.bytes)), highByte (usMBCRC16 (ucMBAddress :: pdu.bytes))]

/-- The first cells of a buffer whose first cell is written before the cells behind it. -/
theorem write_zero_writeAll_contents (b : FixedBuffer UInt8 mbSerPduSizeMax) (x : UInt8) (xs : List UInt8)
    (h : 1 + xs.length ≤ mbSerPduSizeMax) :
    ((b.writeAll 1 xs).write 0 x).contents (1 + xs.length) = x :: xs := by
  have hcontents : (b.writeAll 1 xs).contents (1 + xs.length) = b.contents 1 ++ xs :=
    b.writeAll_contents 1 xs h
  have hfirst : b.slice 0 1 = [b.read 0] := b.slice_succ (show 0 < mbSerPduSizeMax by decide) 0
  rw [FixedBuffer.write_contents_of_lt _ _ (by decide), hcontents]
  change (b.slice 0 1 ++ xs).set 0 x = x :: xs
  rw [hfirst]
  rfl

/-- The bytes of the frame buffer that `eMBRTUSend` leaves to be put are the frame of the PDU. -/
theorem eMBRTUSend_replyFrame (s : SerialPort) (pdu : Pdu) (hidle : s.eRcvState = .rxIdle)
    (hpdu : (s.ucRTUBuf.write 0 ucMBAddress).contents (1 + pdu.bytes.length) = ucMBAddress :: pdu.bytes) :
    (s.eMBRTUSend ucMBAddress pdu.bytes.length).ucRTUBuf.slice 0 (3 + pdu.bytes.length) = pdu.replyFrame := by
  have hlen := pdu.length_le
  rw [eMBRTUSend, if_pos hidle]
  dsimp only
  rw [hpdu]
  change (((s.ucRTUBuf.write 0 ucMBAddress).write (1 + pdu.bytes.length) _).write
    (2 + pdu.bytes.length) _).contents (3 + pdu.bytes.length) = _
  have hsucc (k : ℕ) : k + 1 + pdu.bytes.length = k + pdu.bytes.length + 1 := Nat.succ_add k _
  rw [hsucc 2, FixedBuffer.write_contents_succ _ _ (by simp only [mbSerPduSizeMax]; omega), hsucc 1,
    FixedBuffer.write_contents_succ _ _ (by simp only [mbSerPduSizeMax]; omega), hpdu, List.append_assoc]
  rfl

/-- A call of the stack before the last one puts the next byte. -/
theorem txCall_put {s : SerialPort} (hfailed : s.failed = none) (hidle : s.eRcvState = .rxIdle)
    (hxmit : s.eSndState = .txXmit) (htx : s.txThread = .transmitting) (hcount : s.usSndBufferCount ≠ 0) :
    portStep s .txCall = some { s.xMBPortSerialPutByte (s.ucRTUBuf.read s.pucSndBufferCur) with
      pucSndBufferCur := s.pucSndBufferCur + 1, usSndBufferCount := s.usSndBufferCount - 1 } := by
  rw [portStep, if_pos hfailed, portAct, if_pos htx, xMBRTUTransmitFSM, if_pos hidle, hxmit]
  dsimp only
  rw [if_pos hcount]
  rfl

/-- The last call of the stack completes the reply and empties the transmit buffer. -/
theorem txCall_complete {s : SerialPort} (hfailed : s.failed = none) (hidle : s.eRcvState = .rxIdle)
    (hxmit : s.eSndState = .txXmit) (htx : s.txThread = .transmitting) (hcount : s.usSndBufferCount = 0) :
    portStep s .txCall = some { (s.xMBPortEventPost .frameSent).vMBPortSerialEnable true false with
      eSndState := .txIdle, txThread := .writing s.put } := by
  rw [portStep, if_pos hfailed, portAct, if_pos htx, xMBRTUTransmitFSM, if_pos hidle, hxmit]
  dsimp only
  rw [if_neg (not_not_intro hcount)]
  rfl

/-- While the receiver is idle, the transmit thread on its own puts what is left and completes the reply. -/
theorem txCalls_run (n : ℕ) (s : SerialPort) (hfailed : s.failed = none) (hidle : s.eRcvState = .rxIdle)
    (hxmit : s.eSndState = .txXmit) (htx : s.txThread = .transmitting) (hcount : s.usSndBufferCount = n)
    (hfits : s.pucSndBufferCur + n ≤ mbSerPduSizeMax) :
    ∃ t, Transition.run portStep s (List.replicate (n + 1) .txCall) = some t ∧ t.failed = none ∧
      t.txThread = .writing (s.put ++ s.ucRTUBuf.slice s.pucSndBufferCur n) ∧
      t.tty.size = 0 ∧ t.transmissions = s.transmissions := by
  induction n generalizing s with
  | zero =>
    refine ⟨{ (s.xMBPortEventPost .frameSent).vMBPortSerialEnable true false with
      eSndState := .txIdle, txThread := .writing s.put }, ?_, hfailed, ?_, rfl, rfl⟩
    · rw [List.replicate_succ, Transition.run, txCall_complete hfailed hidle hxmit htx hcount]
      rfl
    · exact congrArg TxThread.writing (List.append_nil s.put).symm
  | succ n ih =>
    have hcall := txCall_put hfailed hidle hxmit htx (by omega)
    have hcur : s.pucSndBufferCur < mbSerPduSizeMax := by omega
    obtain ⟨t, hrun, hnone, hwriting, hsize, htransmissions⟩ := ih
      { s.xMBPortSerialPutByte (s.ucRTUBuf.read s.pucSndBufferCur) with
        pucSndBufferCur := s.pucSndBufferCur + 1, usSndBufferCount := s.usSndBufferCount - 1 }
      hfailed hidle hxmit htx (Nat.sub_eq_of_eq_add hcount) (by dsimp only; omega)
    refine ⟨t, ?_, hnone, ?_, hsize, htransmissions⟩
    · rw [List.replicate_succ, Transition.run, hcall]
      exact hrun
    · rw [hwriting, s.ucRTUBuf.slice_succ hcur, ← List.singleton_append, ← List.append_assoc]
      rfl

/-- A poll that starts a reply leaves the frame of the reply to the transmit thread and wakes it. -/
theorem poll_starts {s : SerialPort} {queue : List EventType} (pdu : Pdu) (hfailed : s.failed = none)
    (hqueue : s.queue = .execute :: queue) (haddress : s.ucRcvAddress ≠ mbAddressBroadcast)
    (hidle : s.eRcvState = .rxIdle) :
    ∃ sent, portStep s (.poll pdu) = some sent ∧
      sent.ucRTUBuf.slice 0 (3 + pdu.bytes.length) = pdu.replyFrame ∧ sent.failed = none ∧
      sent.eRcvState = .rxIdle ∧ sent.eSndState = .txXmit ∧ sent.txThread = s.txThread ∧
      sent.wakeups = s.wakeups + 1 ∧ sent.put = [] ∧ sent.pucSndBufferCur = 0 ∧
      sent.usSndBufferCount = 3 + pdu.bytes.length ∧ sent.transmissions = s.transmissions := by
  have hlen := pdu.length_le
  obtain ⟨handled, hhandled⟩ : ∃ handled : SerialPort, handled =
    { s with queue := queue, ucRTUBuf := s.ucRTUBuf.writeAll 1 pdu.bytes } := ⟨_, rfl⟩
  have hpoll : portStep s (.poll pdu) = some (handled.eMBRTUSend ucMBAddress pdu.bytes.length) := by
    rw [portStep, if_pos hfailed, portAct, hqueue, hhandled]
    dsimp only [eMBPoll, pollExecute]
    rw [if_pos haddress]
  have hready : handled.eRcvState = .rxIdle := by
    rw [hhandled]
    exact hidle
  refine ⟨_, hpoll, ?_, ?_⟩
  · apply eMBRTUSend_replyFrame handled pdu hready
    rw [hhandled]
    exact write_zero_writeAll_contents _ _ _ (by simp only [mbSerPduSizeMax]; omega)
  · rw [eMBRTUSend, if_pos hready, hhandled]
    exact ⟨hfailed, hidle, rfl, rfl, rfl, rfl, rfl, rfl, rfl⟩

/-- A reply that is started while the transmit thread waits is put in full, and nothing of it is written. -/
theorem poll_transmission {s : SerialPort} {queue : List EventType} {pdu : Pdu} (hfailed : s.failed = none)
    (hqueue : s.queue = .execute :: queue) (haddress : s.ucRcvAddress ≠ mbAddressBroadcast)
    (hidle : s.eRcvState = .rxIdle) (htx : s.txThread = .waiting) :
    ∃ t, Transition.run portStep s
        ([.poll pdu, .txWake] ++ List.replicate (pdu.bytes.length + 4) .txCall ++ [.txWrite]) = some t ∧
      t.transmissions = s.transmissions ++ [⟨pdu.replyFrame, []⟩] := by
  have hlen := pdu.length_le
  obtain ⟨sent, hpoll, hframe, hnone, hrcv, hxmit, hthread, hwakeups, hput, hcur, hcount, hbefore⟩ :=
    poll_starts pdu hfailed hqueue haddress hidle
  have hwaiting := hthread.trans htx
  have hwake : portStep sent .txWake =
      some { sent with wakeups := sent.wakeups - 1, txThread := .transmitting } := by
    rw [portStep, if_pos hnone, portAct, if_pos ⟨hwaiting, by omega⟩]
  obtain ⟨t, hcalls, hcomplete, hwriting, hsize, hafter⟩ := txCalls_run (3 + pdu.bytes.length)
    { sent with wakeups := sent.wakeups - 1, txThread := .transmitting } hnone hrcv hxmit rfl hcount
    (by simp only [mbSerPduSizeMax]; omega)
  dsimp only at hwriting hafter
  rw [hput, hcur, hframe, List.nil_append] at hwriting
  have hwrite : portStep t .txWrite = some (t.ttyWrite pdu.replyFrame) := by
    rw [portStep, if_pos hcomplete, portAct, hwriting]
  refine ⟨t.ttyWrite pdu.replyFrame, ?_, ?_⟩
  · rw [show pdu.bytes.length + 4 = 3 + pdu.bytes.length + 1 by omega]
    apply Transition.run_append_eq_some _ (Transition.run_singleton hwrite)
    apply Transition.run_append_eq_some _ hcalls
    exact Transition.run_cons_eq_some.mpr ⟨sent, hpoll, Transition.run_singleton hwake⟩
  · have hwritten : t.tty.written = [] := congrArg t.tty.buffer.contents hsize
    rw [ttyWrite, hwritten, hafter, hbefore]

/-- In every run every reply written is a reply of which nothing has been written. A reply that is started
while the transmit thread waits is put in full by this thread, if nothing else happens, and nothing
of it is written. -/
theorem run_transmissions_not_faithful (ucRTUBuf : Vector UInt8 mbSerPduSizeMax)
    (ttyRxBuffer ttyTxBuffer : Vector UInt8 rxBufferSize) :
    (∀ (events : List PortEvent) (s : SerialPort),
      Transition.run portStep (portStart ucRTUBuf ttyRxBuffer ttyTxBuffer) events = some s →
      ∀ t ∈ s.transmissions, ¬ t.Faithful) ∧
    ∀ (s : SerialPort) (queue : List EventType) (pdu : Pdu), s.failed = none →
      s.queue = .execute :: queue → s.ucRcvAddress ≠ mbAddressBroadcast → s.eRcvState = .rxIdle →
      s.txThread = .waiting →
      ∃ t, Transition.run portStep s
          ([.poll pdu, .txWake] ++ List.replicate (pdu.bytes.length + 4) .txCall ++ [.txWrite]) = some t ∧
        t.transmissions = s.transmissions ++ [⟨pdu.replyFrame, []⟩] := by
  constructor
  · intro events s hrun t ht hfaithful
    have hlosing : s.transmitSide.Losing :=
      Transition.run_invariant (fun s => s.transmitSide.Losing) (fun _ _ _ h hstep => portStep_losing h hstep)
        hrun (portStart_losing ucRTUBuf ttyRxBuffer ttyTxBuffer)
    obtain ⟨hput, hwritten⟩ := hlosing.lost t ht
    exact hput (hfaithful.symm.trans hwritten)
  · intro s queue pdu hfailed hqueue haddress hidle htx
    exact poll_transmission hfailed hqueue haddress hidle htx

/-- The request of four bytes `01 07 41 e2` arrives, is polled and answered with a reply of five bytes. The
five bytes are put, and none of them is written. -/
theorem run_transmissions_lost :
    ¬ ∀ (ucRTUBuf : Vector UInt8 mbSerPduSizeMax) (ttyRxBuffer ttyTxBuffer : Vector UInt8 rxBufferSize)
        (events : List PortEvent) (s : SerialPort),
        Transition.run portStep (portStart ucRTUBuf ttyRxBuffer ttyTxBuffer) events = some s →
        ∀ t ∈ s.transmissions, t.Faithful := by
  intro h
  have hrun : (Transition.run portStep (portStart (.replicate _ 0) (.replicate _ 0) (.replicate _ 0))
      (exchange [0x01, 0x07, 0x41, 0xe2] ⟨[0x07, 0x00], by decide, by decide⟩)).map
        SerialPort.transmissions = some [⟨[0x01, 0x07, 0x00, 0x22, 0x30], []⟩] := by
    decide +kernel
  obtain ⟨s, hs, htransmissions⟩ := Option.map_eq_some_iff.mp hrun
  have hfaithful := h _ _ _ _ s hs ⟨[0x01, 0x07, 0x00, 0x22, 0x30], []⟩
    (htransmissions ▸ List.mem_singleton_self _)
  revert hfaithful
  decide

end RemoteManage.Modbus

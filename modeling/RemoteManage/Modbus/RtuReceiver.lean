import RemoteManage.CanNet.CrcDetection
import RemoteManage.Modbus.HalfDuplex

/-!
# The frames that the RTU slave executes

The bytes of a frame arrive, are read in portions and handed to the stack one by one, in any order of these
steps; the silence behind them ends the frame. A frame is executed exactly when it is long enough, its
checksum leaves nothing, and it is addressed to the slave. A request that was damaged in few bits or in a
short burst is not, and the slave listens again.
-/

namespace RemoteManage.Modbus

open RemoteManage.Foundation RemoteManage.CanNet SerialPort

/-- The steps of the receive side: a byte arrives, some bytes are read, one is handed to the stack. -/
def PortEvent.IsReceive : PortEvent → Prop
  | .arrive _ => True
  | .rxRead _ => True
  | .rxCall => True
  | _ => False

instance (e : PortEvent) : Decidable e.IsReceive :=
  match e with
  | .arrive _ | .rxRead _ | .rxCall => .isTrue trivial
  | .timer | .poll _ | .txWake | .txCall | .txWrite => .isFalse not_false

/-- The byte that arrives in a step. -/
def PortEvent.arrived : PortEvent → List UInt8
  | .arrive ucByte => [ucByte]
  | _ => []

namespace SerialPort

/-- The bytes that have arrived and have not been handed to the stack. -/
def waitingBytes (s : SerialPort) : List UInt8 := s.ttyRxBuffer.slice s.ttyRxIndex s.unread ++ s.line

/-- The slave listens: the stack runs and is idle, and there is nothing to read and nothing to poll. -/
structure Listening (s : SerialPort) : Prop where
  failed : s.failed = none
  snd : s.eSndState = .txIdle
  rcv : s.eRcvState = .rxIdle
  line : s.line = []
  unread : s.unread = 0
  queue : s.queue = []
  intact : s.ucRTUBuf.overrun = false

/-- What the stack keeps of the bytes that were handed to it: none, all of them, or too many. -/
inductive Held (s : SerialPort) : List UInt8 → Prop
  | idle (hrcv : s.eRcvState = .rxIdle) : Held s []
  | frame {handed : List UInt8} (hne : handed ≠ []) (hrcv : s.eRcvState = .rxRcv) (htimer : s.timer = true)
      (hpos : s.usRcvBufferPos = handed.length) (hle : handed.length ≤ mbSerPduSizeMax)
      (hcontents : s.ucRTUBuf.contents handed.length = handed) : Held s handed
  | lost {handed : List UInt8} (hrcv : s.eRcvState = .rxError) (htimer : s.timer = true)
      (hlong : mbSerPduSizeMax < handed.length) : Held s handed

/-- The slave collects bytes: some were handed to the stack, the others wait. -/
structure Collects (s : SerialPort) (bytes : List UInt8) : Prop where
  failed : s.failed = none
  snd : s.eSndState = .txIdle
  queue : s.queue = []
  intact : s.ucRTUBuf.overrun = false
  inside : s.ttyRxIndex + s.unread ≤ rxBufferSize ∨ s.unread = 0
  split : ∃ handed, bytes = handed ++ s.waitingBytes ∧ s.Held handed

/-- A slave that listens has collected nothing. -/
theorem Listening.collects {s : SerialPort} (h : s.Listening) : s.Collects [] where
  failed := h.failed
  snd := h.snd
  queue := h.queue
  intact := h.intact
  inside := .inr h.unread
  split := by
    refine ⟨[], ?_, .idle h.rcv⟩
    rw [waitingBytes, h.unread, h.line]
    exact (List.append_nil _).symm

section Steps

variable {s : SerialPort} {handed bytes : List UInt8}

/-- The stack takes one more byte. -/
theorem Held.receive (h : s.Held handed) (hsnd : s.eSndState = .txIdle)
    (hintact : s.ucRTUBuf.overrun = false) :
    s.xMBRTUReceiveFSM.Held (handed ++ [s.ttyRxBuffer.read s.ttyRxIndex]) ∧
      s.xMBRTUReceiveFSM.ucRTUBuf.overrun = false := by
  have hlength (c : UInt8) : (handed ++ [c]).length = handed.length + 1 := by
    rw [List.length_append, List.length_singleton]
  rw [xMBRTUReceiveFSM, if_pos hsnd]
  dsimp only
  cases h with
  | idle hrcv =>
    rw [hrcv]
    refine ⟨.frame (List.cons_ne_nil _ _) rfl rfl rfl (show 1 ≤ 256 from by decide) ?_, ?_⟩
    · exact FixedBuffer.write_contents_succ _ _ (by decide)
    · exact (FixedBuffer.write_overrun _ _ (by decide)).trans hintact
  | frame hne hrcv htimer hpos hle hcontents =>
    rw [hrcv]
    dsimp only
    by_cases hroom : s.usRcvBufferPos < mbSerPduSizeMax
    · rw [if_pos hroom]
      rw [hpos] at hroom
      refine ⟨.frame (by simp) rfl rfl ?_ ?_ ?_, ?_⟩
      · rw [hlength, hpos]
      · rw [hlength]
        exact hroom
      · rw [hlength]
        dsimp only
        rw [hpos, FixedBuffer.write_contents_succ _ _ hroom, hcontents]
      · dsimp only
        rw [hpos, FixedBuffer.write_overrun _ _ hroom, hintact]
    · rw [if_neg hroom]
      rw [hpos] at hroom
      refine ⟨.lost rfl rfl ?_, hintact⟩
      rw [hlength]
      exact Nat.lt_succ_of_le (Nat.le_of_not_lt hroom)
  | lost hrcv htimer hlong =>
    rw [hrcv]
    refine ⟨.lost rfl rfl ?_, hintact⟩
    rw [hlength]
    exact Nat.lt_succ_of_lt hlong

/-- What the stack keeps is in its own variables. -/
theorem Held.congr {t : SerialPort} (h : s.Held handed) (hrcv : t.eRcvState = s.eRcvState)
    (htimer : t.timer = s.timer) (hpos : t.usRcvBufferPos = s.usRcvBufferPos)
    (hbuf : t.ucRTUBuf = s.ucRTUBuf) : t.Held handed := by
  cases h with
  | idle h => exact .idle (hrcv.trans h)
  | frame hne h ht hp hle hcontents =>
    exact .frame hne (hrcv.trans h) (htimer.trans ht) (hpos.trans hp) hle (hbuf ▸ hcontents)
  | lost h ht hlong => exact .lost (hrcv.trans h) (htimer.trans ht) hlong

/-- The state machine of the receiver leaves the transmit side, the queue and the port's buffers alone. -/
theorem xMBRTUReceiveFSM_frame (hsnd : s.eSndState = .txIdle) :
    s.xMBRTUReceiveFSM.eSndState = .txIdle ∧ s.xMBRTUReceiveFSM.failed = s.failed ∧
      s.xMBRTUReceiveFSM.queue = s.queue ∧ s.xMBRTUReceiveFSM.line = s.line ∧
        s.xMBRTUReceiveFSM.ttyRxBuffer = s.ttyRxBuffer ∧
          s.xMBRTUReceiveFSM.ttyRxIndex = s.ttyRxIndex + 1 := by
  rw [xMBRTUReceiveFSM, if_pos hsnd]
  dsimp only
  split
  · exact ⟨hsnd, rfl, rfl, rfl, rfl, rfl⟩
  · exact ⟨hsnd, rfl, rfl, rfl, rfl, rfl⟩
  · exact ⟨hsnd, rfl, rfl, rfl, rfl, rfl⟩
  · split <;> exact ⟨hsnd, rfl, rfl, rfl, rfl, rfl⟩

/-- A step of the receive side adds the byte that arrives. -/
theorem Collects.step {t : SerialPort} {e : PortEvent} (h : s.Collects bytes) (he : e.IsReceive)
    (hstep : portStep s e = some t) : t.Collects (bytes ++ e.arrived) := by
  obtain ⟨-, hact⟩ := Option.ite_none_right_eq_some.mp hstep
  obtain ⟨handed, hbytes, hheld⟩ := h.split
  cases e with
  | arrive ucByte =>
    obtain rfl := Option.some.inj hact
    refine ⟨h.failed, h.snd, h.queue, h.intact, h.inside, handed, ?_, hheld.congr rfl rfl rfl rfl⟩
    rw [hbytes, waitingBytes, waitingBytes, List.append_assoc, List.append_assoc]
    rfl
  | rxRead size =>
    obtain ⟨⟨hunread, -, hsize⟩, rfl⟩ := Transition.enabled_of_ite hact
    have htake : (s.line.take size).length = size := by
      rw [List.length_take]
      exact Nat.min_eq_left (hsize.trans (Nat.min_le_left _ _))
    have hroom : 0 + (s.line.take size).length ≤ rxBufferSize := by
      rw [htake, Nat.zero_add]
      exact hsize.trans (Nat.min_le_right _ _)
    refine ⟨h.failed, h.snd, h.queue, h.intact, .inl (htake ▸ hroom), handed, ?_, hheld.congr rfl rfl rfl rfl⟩
    have hslice := s.ttyRxBuffer.slice_writeAll 0 (s.line.take size) hroom
    rw [htake] at hslice
    have hwaiting : s.waitingBytes = s.line := by
      rw [waitingBytes, hunread]
      rfl
    rw [hbytes, hwaiting, waitingBytes]
    dsimp only
    rw [hslice, List.take_append_drop]
    exact List.append_nil _
  | rxCall =>
    obtain ⟨hunread, rfl⟩ := Transition.enabled_of_ite hact
    obtain ⟨hreceived, hintact⟩ := hheld.receive h.snd h.intact
    obtain ⟨hsnd, hfailed, hqueue, hline, hbuffer, hindex⟩ := xMBRTUReceiveFSM_frame h.snd
    have hinside : s.ttyRxIndex + s.unread ≤ rxBufferSize := h.inside.resolve_right (Nat.ne_of_gt hunread)
    obtain ⟨n, hn⟩ : ∃ n, s.unread = n + 1 := ⟨s.unread - 1, by omega⟩
    refine ⟨hfailed.trans h.failed, hsnd, hqueue.trans h.queue, hintact, .inl ?_, _, ?_,
      hreceived.congr rfl rfl rfl rfl⟩
    · dsimp only
      rw [hindex]
      omega
    · rw [hbytes, waitingBytes, waitingBytes, hn, FixedBuffer.slice_succ _ (by omega)]
      dsimp only
      rw [hbuffer, hindex, hline, Nat.add_sub_cancel, show PortEvent.rxCall.arrived = [] from rfl,
        List.append_nil, List.append_assoc]
      rfl
  | timer | poll | txWake | txCall | txWrite => exact absurd he id

/-- A run of the receive side collects the bytes that arrive. -/
theorem Collects.run {t : SerialPort} {events : List PortEvent} (h : s.Collects bytes)
    (hevents : ∀ e ∈ events, e.IsReceive) (hrun : Transition.run portStep s events = some t) :
    t.Collects (bytes ++ events.flatMap PortEvent.arrived) := by
  induction events generalizing s bytes with
  | nil =>
    obtain rfl := Option.some.inj hrun
    rwa [List.flatMap_nil, List.append_nil]
  | cons e rest ih =>
    obtain ⟨s', hfirst, hrest⟩ := Transition.run_cons_eq_some.mp hrun
    rw [List.forall_mem_cons] at hevents
    rw [List.flatMap_cons, ← List.append_assoc]
    exact ih (h.step hevents.1 hfirst) hevents.2 hrest

/-- With no byte waiting the stack has all of them. -/
theorem Collects.held (h : s.Collects bytes) (hall : s.waitingBytes = []) : s.Held bytes := by
  obtain ⟨handed, hbytes, hheld⟩ := h.split
  rw [hbytes, hall, List.append_nil]
  exact hheld

end Steps

end SerialPort

/-- A frame that the slave executes: long enough, with the right checksum, and addressed to it or to all. -/
def Executable (frame : List UInt8) : Prop :=
  mbSerPduSizeMin ≤ frame.length ∧ usMBCRC16 frame = 0 ∧
    (frame.head? = some ucMBAddress ∨ frame.head? = some mbAddressBroadcast)

instance (frame : List UInt8) : Decidable (Executable frame) := by
  unfold Executable
  infer_instance

namespace SerialPort

variable {s m : SerialPort} {frame : List UInt8}

/-- The poll of a received frame asks for its execution exactly when it is executable. -/
theorem pollFrameReceived_queue (hcontents : s.ucRTUBuf.contents frame.length = frame)
    (hpos : s.usRcvBufferPos = frame.length) (hlen : frame.length < mbSerPduSizeMax) (hqueue : s.queue = []) :
    s.pollFrameReceived.queue = (if Executable frame then [.execute] else []) ∧
      ∃ address, s.pollFrameReceived =
        { s with queue := s.pollFrameReceived.queue, ucRcvAddress := address } := by
  have hvalid : s.frameValid = true ↔ mbSerPduSizeMin ≤ frame.length ∧ usMBCRC16 frame = 0 := by
    rw [frameValid, hpos, hcontents, Bool.and_eq_true, decide_eq_true_iff, decide_eq_true_iff]
  have hexecutable : Executable frame ↔ s.frameValid = true ∧
      (s.ucRTUBuf.read 0 = ucMBAddress ∨ s.ucRTUBuf.read 0 = mbAddressBroadcast) := by
    rw [hvalid, Executable, and_assoc]
    refine and_congr_right fun hmin => and_congr_right fun _ => ?_
    have hfirst : frame.head? = some (s.ucRTUBuf.read 0) := by
      cases frame with
      | nil => exact absurd hmin (by decide)
      | cons c rest =>
        rw [s.ucRTUBuf.read_eq_of_contents hcontents (show 0 < (c :: rest).length from Nat.succ_pos _) c]
        rfl
    rw [hfirst, Option.some_inj, Option.some_inj]
  rw [pollFrameReceived, if_pos (hpos ▸ hlen)]
  by_cases hok : s.frameValid = true
  · rw [if_pos hok]
    dsimp only
    by_cases haddress : s.ucRTUBuf.read 0 = ucMBAddress ∨ s.ucRTUBuf.read 0 = mbAddressBroadcast
    · rw [if_pos haddress, if_pos (hexecutable.mpr ⟨hok, haddress⟩), xMBPortEventPost]
      dsimp only
      rw [hqueue]
      exact ⟨rfl, _, rfl⟩
    · rw [if_neg haddress, if_neg fun h => haddress (hexecutable.mp h).2]
      exact ⟨hqueue, _, rfl⟩
  · rw [if_neg hok, if_neg fun h => hok (hexecutable.mp h).1]
    exact ⟨hqueue, s.ucRcvAddress, rfl⟩

/-- The silence behind a frame that is not too long reports it. -/
theorem Held.expires (h : s.Held frame) (hne : frame ≠ []) :
    s.timer = true ∧
      s.xMBRTUTimerT35Expired = { s with
        queue := if frame.length ≤ mbSerPduSizeMax then s.queue ++ [.frameReceived] else s.queue
        timer := false
        eRcvState := .rxIdle } := by
  cases h with
  | idle hrcv => exact absurd rfl hne
  | frame _ hrcv htimer hpos hle hcontents =>
    rw [xMBRTUTimerT35Expired, hrcv, if_pos hle]
    exact ⟨htimer, rfl⟩
  | lost hrcv htimer hlong =>
    rw [xMBRTUTimerT35Expired, hrcv, if_neg (Nat.not_le.mpr hlong)]
    exact ⟨htimer, rfl⟩

/-- A frame that is not too long is in the buffer. -/
theorem Held.contents (h : s.Held frame) (hne : frame ≠ []) (hle : frame.length ≤ mbSerPduSizeMax) :
    s.usRcvBufferPos = frame.length ∧ s.ucRTUBuf.contents frame.length = frame := by
  cases h with
  | idle hrcv => exact absurd rfl hne
  | frame _ hrcv htimer hpos _ hcontents => exact ⟨hpos, hcontents⟩
  | lost hrcv htimer hlong => exact absurd hle (Nat.not_le.mpr hlong)

end SerialPort

/-- However the bytes of a frame arrive, are read and are handed to the stack: the silence behind a frame of
more than 256 bytes leaves a slave that listens. A shorter one is polled; the assertion of `eMBRTUReceive`
fails exactly for 256 bytes, and the frame is executed exactly when it is executable. -/
theorem run_executes_iff {s m : SerialPort} {events : List PortEvent} {frame : List UInt8}
    (hlisten : s.Listening) (hevents : ∀ e ∈ events, e.IsReceive)
    (hframe : events.flatMap PortEvent.arrived = frame) (hne : frame ≠ [])
    (hrun : Transition.run portStep s events = some m) (hall : m.waitingBytes = []) (pdu : Pdu) :
    ∃ u, portStep m .timer = some u ∧ u.ucRTUBuf.overrun = false ∧
      (mbSerPduSizeMax < frame.length → u.Listening) ∧
      (frame.length ≤ mbSerPduSizeMax → ∃ t, portStep u (.poll pdu) = some t ∧
        (t.failed = none ↔ frame.length < mbSerPduSizeMax) ∧
        (t.failed = none → t.queue = (if Executable frame then [.execute] else []) ∧
          ({ t with queue := [] } : SerialPort).Listening ∧ t.ucRTUBuf.contents frame.length = frame)) := by
  have hcollects := hlisten.collects.run hevents hrun
  rw [hframe, List.nil_append] at hcollects
  have hheld := hcollects.held hall
  obtain ⟨htimer, hexpired⟩ := hheld.expires hne
  have hwaiting : m.line = [] ∧ m.unread = 0 := by
    have hnil := List.append_eq_nil_iff.mp hall
    refine ⟨hnil.2, ?_⟩
    rcases hcollects.inside with hinside | hunread
    · have hlength := m.ttyRxBuffer.slice_length hinside
      rw [hnil.1] at hlength
      exact hlength.symm
    · exact hunread
  rw [hcollects.queue] at hexpired
  refine ⟨m.xMBRTUTimerT35Expired, ?_, ?_, ?_, ?_⟩
  · rw [portStep, if_pos hcollects.failed, portAct, if_pos htimer]
  · rw [hexpired]
    exact hcollects.intact
  · intro hlong
    rw [hexpired, if_neg (Nat.not_le.mpr hlong)]
    exact ⟨hcollects.failed, hcollects.snd, rfl, hwaiting.1, hwaiting.2, rfl, hcollects.intact⟩
  · intro hle
    rw [if_pos hle] at hexpired
    obtain ⟨hpos, hcontents⟩ := hheld.contents hne hle
    let v : SerialPort := { m with queue := [], timer := false, eRcvState := .rxIdle }
    refine ⟨v.pollFrameReceived, ?_, ?_⟩
    · rw [hexpired, portStep, if_pos hcollects.failed]
      rfl
    · by_cases hlt : frame.length < mbSerPduSizeMax
      · obtain ⟨hqueue, address, hpolled⟩ := v.pollFrameReceived_queue hcontents hpos hlt rfl
        rw [hpolled]
        exact ⟨iff_of_true hcollects.failed hlt, fun _ => ⟨hqueue,
          ⟨hcollects.failed, hcollects.snd, rfl, hwaiting.1, hwaiting.2, rfl, hcollects.intact⟩, hcontents⟩⟩
      · have hfail : v.pollFrameReceived = v.fail .receive := by
          rw [pollFrameReceived, if_neg (show ¬ v.usRcvBufferPos < mbSerPduSizeMax from hpos ▸ hlt)]
        rw [hfail]
        exact ⟨iff_of_false (Option.some_ne_none _) hlt, fun h => absurd h (Option.some_ne_none _)⟩

/-- A slave that listens. -/
def listeningPort : SerialPort :=
  { portStart (.replicate _ 0) (.replicate _ 0) (.replicate _ 0) with eRcvState := .rxIdle, timer := false }

/-- The slave that listens does. -/
theorem listeningPort_listening : listeningPort.Listening := ⟨rfl, rfl, rfl, rfl, rfl, rfl, rfl⟩

/-- Some bytes arrive, are read at once and are handed to the stack. -/
def receiveEvents (frame : List UInt8) : List PortEvent :=
  frame.map .arrive ++ [.rxRead frame.length] ++ List.replicate frame.length .rxCall

/-- The request of four bytes is received. -/
theorem run_executes_iff_request :
    ∃ m u, Transition.run portStep listeningPort (receiveEvents [0x01, 0x07, 0x41, 0xe2]) = some m ∧
      portStep m .timer = some u ∧ u.ucRTUBuf.overrun = false := by
  have hrun : (Transition.run portStep listeningPort (receiveEvents [0x01, 0x07, 0x41, 0xe2])).map
      waitingBytes = some [] := by
    decide +kernel
  obtain ⟨m, hm, hall⟩ := Option.map_eq_some_iff.mp hrun
  obtain ⟨u, hu, hintact, -⟩ := run_executes_iff listeningPort_listening (by decide) rfl (by decide) hm hall
    ⟨[0x07, 0x00], by decide, by decide⟩
  exact ⟨m, u, hm, hu, hintact⟩

/-- A message with its checksum behind it, as `eMBRTUSend` sends it. -/
def rtuFrame (message : List UInt8) : List UInt8 :=
  message ++ [lowByte (usMBCRC16 message), highByte (usMBCRC16 message)]

/-- `usMBCRC16` is the reflected checksum from `0xffff`. -/
theorem usMBCRC16_eq_serial (frame : List UInt8) : usMBCRC16 frame = crc16Serial 0xffff frame :=
  (usMBCRC16_eq_crc16 frame).trans (crc16_eq_serial 0xffff frame)

/-- The checksum of a frame leaves nothing. -/
theorem usMBCRC16_rtuFrame (message : List UInt8) : usMBCRC16 (rtuFrame message) = 0 := by
  rw [usMBCRC16_eq_serial, rtuFrame, crc16Serial_append_word_eq_zero_iff, ← usMBCRC16_eq_serial]

/-- A frame is its message and two bytes. -/
theorem rtuFrame_length (message : List UInt8) : (rtuFrame message).length = message.length + 2 :=
  List.length_append

/-- A request that reaches a slave that listens, whole or with an error that the checksum detects, is executed
exactly when it is whole and leaves no event otherwise; either way the slave then listens again. -/
theorem run_executes_iff_whole {s m : SerialPort} {events : List PortEvent} {message error : List UInt8}
    (hlisten : s.Listening) (hevents : ∀ e ∈ events, e.IsReceive) (hmin : 2 ≤ message.length)
    (hmax : message.length + 2 < mbSerPduSizeMax)
    (haddressed : message.head? = some ucMBAddress ∨ message.head? = some mbAddressBroadcast)
    (hlength : error.length = message.length + 2)
    (herror : (∀ b ∈ error, b = 0) ∨ Detectable 16 (lineBits error))
    (hframe : events.flatMap PortEvent.arrived = xorBytes (rtuFrame message) error)
    (hrun : Transition.run portStep s events = some m) (hall : m.waitingBytes = []) (pdu : Pdu) :
    ∃ u t, portStep m .timer = some u ∧ portStep u (.poll pdu) = some t ∧
      (t.queue = [.execute] ↔ ∀ b ∈ error, b = 0) ∧ (t.queue = [] ↔ ∃ b ∈ error, b ≠ 0) ∧
        ({ t with queue := [] } : SerialPort).Listening := by
  have hsame : (rtuFrame message).length = error.length := (rtuFrame_length message).trans hlength.symm
  have hsize : (xorBytes (rtuFrame message) error).length = message.length + 2 := by
    rw [xorBytes, List.length_zipWith, hsame, Nat.min_self, hlength]
  have hne : xorBytes (rtuFrame message) error ≠ [] := List.ne_nil_of_length_pos (by omega)
  obtain ⟨u, hu, -, -, hpoll⟩ := run_executes_iff hlisten hevents hframe hne hrun hall pdu
  obtain ⟨t, ht, hfailed, hrest⟩ := hpoll (hsize.trans_le hmax.le)
  obtain ⟨hqueue, hagain, -⟩ := hrest (hfailed.mpr (hsize.trans_lt hmax))
  have hwhole : Executable (xorBytes (rtuFrame message) error) ↔ ∀ b ∈ error, b = 0 := by
    constructor
    · intro hexecutable
      by_contra hdamaged
      have hbits : 8 * error.length ≤ 32767 := by
        rw [hlength]
        exact (Nat.mul_le_mul_left 8 hmax.le).trans (by decide)
      have hcrc : usMBCRC16 (xorBytes (rtuFrame message) error) ≠ 0 := by
        rw [usMBCRC16_eq_serial, crc16Serial_xorBytes _ hsame, ← usMBCRC16_eq_serial, usMBCRC16_rtuFrame,
          UInt16.zero_xor]
        exact crc16Serial_zero_ne hbits (herror.resolve_left hdamaged)
      exact hcrc hexecutable.2.1
    · intro hzero
      rw [xorBytes_of_zero hsame hzero]
      refine ⟨?_, usMBCRC16_rtuFrame message, ?_⟩
      · rw [rtuFrame_length]
        exact Nat.add_le_add_right hmin 2
      · rwa [rtuFrame, List.head?_append_of_ne_nil _ (List.ne_nil_of_length_pos (by omega))]
  have hexecuted : t.queue = [.execute] ↔ ∀ b ∈ error, b = 0 := by
    rw [hqueue, ← hwhole, ite_eq_left_iff]
    exact not_imp_comm.trans ⟨fun h => h (List.cons_ne_nil _ _).symm, fun h _ => h⟩
  have hdropped : t.queue = [] ↔ ∃ b ∈ error, b ≠ 0 := by
    have hsome : (∃ b ∈ error, b ≠ 0) ↔ ¬ ∀ b ∈ error, b = 0 := by simp
    rw [hqueue, hsome, ← hwhole, ite_eq_right_iff]
    exact ⟨fun h hexecutable => List.cons_ne_nil _ _ (h hexecutable),
      fun h hexecutable => absurd hexecutable h⟩
  exact ⟨u, t, hu, ht, hexecuted, hdropped, hagain⟩

/-- A request in which one bit of the checksum was turned is not executed. -/
theorem run_executes_iff_whole_damaged :
    ∃ m u t, Transition.run portStep listeningPort (receiveEvents [0x01, 0x07, 0x51, 0xe2]) = some m ∧
      portStep m .timer = some u ∧ portStep u (.poll ⟨[0x07, 0x00], by decide, by decide⟩) = some t ∧
        t.queue = [] := by
  have hrun : (Transition.run portStep listeningPort (receiveEvents [0x01, 0x07, 0x51, 0xe2])).map
      waitingBytes = some [] := by
    decide +kernel
  obtain ⟨m, hm, hall⟩ := Option.map_eq_some_iff.mp hrun
  obtain ⟨u, t, hu, ht, -, hiff, -⟩ := @run_executes_iff_whole listeningPort m _ [0x01, 0x07] [0, 0, 0x10, 0]
    listeningPort_listening (by decide) (by decide) (by decide) (by decide) rfl
    (.inr (.odd (by decide))) (by decide) hm hall ⟨[0x07, 0x00], by decide, by decide⟩
  exact ⟨m, u, t, hm, hu, ht, hiff.mpr ⟨0x10, by decide, by decide⟩⟩

end RemoteManage.Modbus

import RemoteManage.Modbus.AsciiText
import RemoteManage.Modbus.TcpServer

/-!
# The slave behind an ASCII line

`mbascii.c` with the poll loop of `mb.c` and its function handlers. The frame of a request stays in the buffer
in which it was received, the handlers build the reply over it, and the transmitter puts the reply
from there. A master that waits for the end of a reply sees the device, whatever else is on the line: frames
for other slaves, damaged frames, noise between frames and pauses inside them.
-/

namespace RemoteManage.Modbus

open RemoteManage.Foundation

/-- The stack with the variables of its poll loop, the registers, and the frames reported so far. -/
structure AsciiSlave where
  port : MbAscii
  ucRcvAddress : UInt8
  usLength : UInt16
  registers : MbRegisters
  frames : List (List UInt8)

/-- What can happen to the slave: a character arrives, the timer expires, or one of the two threads calls the
stack. -/
inductive AsciiEvent where
  | character (ucByte : UInt8)
  | expiry
  | poll
  | transmit
  deriving DecidableEq, Repr

namespace AsciiSlave

/-- The slave after `eMBEnable`. -/
def start (ucRTUBuf : Vector UInt8 mbSerPduSizeMax) (registers : MbRegisters) : AsciiSlave :=
  ⟨.start ucRTUBuf, mbAddressBroadcast, 0, registers, []⟩

/-- A character, with the frame that it may end. -/
def character (s : AsciiSlave) (ucByte : UInt8) : AsciiSlave :=
  let port := s.port.xMBASCIIReceiveFSM ucByte
  { s with
    port
    frames :=
      if port.queue = s.port.queue then s.frames
      else s.frames ++ [port.ucRTUBuf.contents port.usRcvBufferPos] }

/-- `EV_FRAME_RECEIVED`. -/
def frameReceived (s : AsciiSlave) : AsciiSlave :=
  if s.port.Receivable then
    match s.port.eMBASCIIReceive with
    | none => s
    | some (ucRcvAddress, usLength) =>
      let s := { s with ucRcvAddress, usLength := .ofNat usLength }
      if s.ucRcvAddress = ucMBAddress ∨ s.ucRcvAddress = mbAddressBroadcast then
        { s with port := s.port.xMBPortEventPost .execute }
      else s
  else { s with port := s.port.fail .receive }

/-- What the handler of the function code in the frame leaves. -/
def handled (s : AsciiSlave) : PduOutcome :=
  let (ucFunctionCode, ucMBFrame) := (s.port.ucRTUBuf.memoryFrom 1).read 0
  callFound s.registers ucMBFrame s.usLength (findHandler ucFunctionCode xFuncHandlers)

/-- What a handler leaves, in the buffer. -/
def leave (s : AsciiSlave) (o : PduOutcome) : AsciiSlave :=
  { s with
    port := { s.port with ucRTUBuf := s.port.ucRTUBuf.storeFrom 1 o.pucFrame }
    usLength := o.usLen
    registers := o.registers }

/-- The reply with what a handler leaves. -/
def reply (s : AsciiSlave) (o : PduOutcome) : AsciiSlave :=
  let s := s.leave o
  { s with port := s.port.eMBASCIISend ucMBAddress s.usLength.toNat }

/-- `EV_EXECUTE`. -/
def execute (s : AsciiSlave) : AsciiSlave :=
  if s.ucRcvAddress ≠ mbAddressBroadcast then s.reply (s.handled.errorFrame (s.port.ucRTUBuf.read 1))
  else s.leave s.handled

/-- The slave without the first of its events. -/
def dequeue (s : AsciiSlave) (rest : List EventType) : AsciiSlave :=
  { s with port := { s.port with queue := rest } }

/-- What `eMBPoll` does with an event. -/
def dispatch (s : AsciiSlave) : EventType → AsciiSlave
  | .ready => s
  | .frameReceived => s.frameReceived
  | .execute => s.execute
  | .frameSent => s

/-- `eMBPoll`, which waits for an event. -/
def eMBPoll (s : AsciiSlave) : Option AsciiSlave :=
  match s.port.queue with
  | [] => none
  | eEvent :: rest => some ((s.dequeue rest).dispatch eEvent)

/-- One step of the slave; the transmitter is called from when a reply is sent until it reports its end. -/
def step (s : AsciiSlave) (e : AsciiEvent) : Option AsciiSlave :=
  if s.port.failed.isSome then none
  else
    match e with
    | .character ucByte => some (s.character ucByte)
    | .expiry => if s.port.timer then some { s with port := s.port.xMBASCIITimerT1SExpired } else none
    | .poll => s.eMBPoll
    | .transmit =>
      if s.port.eSndState = .txIdle then none else some { s with port := s.port.xMBASCIITransmitFSM }

end AsciiSlave

/-- A frame whose checksum is right, and which is for this slave or for all. -/
def Addressed (frame : List UInt8) : Prop :=
  frame.length ≥ MbAscii.asciiPduSizeMin ∧ MbAscii.prvucMBLRC frame = 0 ∧
    (frame.getD 0 0 = ucMBAddress ∨ frame.getD 0 0 = mbAddressBroadcast)

instance (frame : List UInt8) : Decidable (Addressed frame) := inferInstanceAs (Decidable (_ ∧ _ ∧ _))

/-- The cells of a frame from the function code on, with nothing behind it. -/
def pduCells (frame : List UInt8) (k : ℕ) : UInt8 := frame.getD (1 + k) 0

/-- The length of the PDU in a frame. -/
def pduLength (frame : List UInt8) : ℕ := frame.length - 1 - 1

/-- What the device does with a frame on the line, and the text that the master gets. -/
def asciiStep (d : Device) (frame : List UInt8) : Device × List UInt8 :=
  if Addressed frame then
    let answered := d.answer (pduCells frame) (pduLength frame)
    if frame.getD 0 0 = ucMBAddress then
      (answered.1, MbAscii.asciiText (MbAscii.serialPdu ucMBAddress answered.2))
    else (answered.1, [])
  else (d, [])

/-- A frame that the assertion of `eMBASCIIReceive` lets pass and that, when it is for this slave, is answered
from its own bytes. -/
def Serviceable (frame : List UInt8) : Prop :=
  frame.length < mbSerPduSizeMax ∧ (Addressed frame → Covered (pduCells frame) (pduLength frame))

instance (frame : List UInt8) : Decidable (Serviceable frame) := inferInstanceAs (Decidable (_ ∧ (_ → _)))

namespace AsciiSlave

/-- The slave has nothing to do for a request. -/
def Listening (s : AsciiSlave) : Prop :=
  s.port.eSndState = .txIdle ∧ EventType.frameReceived ∉ s.port.queue ∧ EventType.execute ∉ s.port.queue

instance (s : AsciiSlave) : Decidable s.Listening := inferInstanceAs (Decidable (_ ∧ _ ∧ _))

/-- The line is half duplex: a character arrives while the slave has nothing to do for a request. A carriage
return is followed by the end of the line or by another frame, and a frame that ends is serviceable. -/
def Orderly (s : AsciiSlave) : AsciiEvent → Prop
  | .character ucByte => s.Listening ∧ (s.port.eRcvState = .rxWaitEof → ucByte = MbAscii.colon ∨
      ucByte = MbAscii.lineFeed ∧ Serviceable (s.port.ucRTUBuf.contents s.port.usRcvBufferPos))
  | _ => True

instance (s : AsciiSlave) : ∀ e, Decidable (Orderly s e)
  | .character _ => inferInstanceAs (Decidable (_ ∧ (_ → _)))
  | .expiry | .poll | .transmit => inferInstanceAs (Decidable True)

/-- What the master has got, and the items that are left, are those of the device after some frames. -/
structure Done (d : Device) (s : AsciiSlave) (frames : List (List UInt8)) : Prop where
  put : s.port.put = (Mealy.outputs asciiStep d frames).flatten
  device : s.registers.device = Mealy.after asciiStep d frames

/-- An event that needs nothing to be done for a request. -/
def Passing (e : EventType) : Prop := e = .ready ∨ e = .frameSent

/-- How far the slave is with the last frame, when the earlier ones are answered. -/
inductive Serving (d : Device) (s : AsciiSlave) : Prop where
  | listening (hidle : s.port.eSndState = .txIdle) (hqueue : ∀ e ∈ s.port.queue, Passing e)
      (hheld : s.port.eRcvState = .rxRcv → ∃ body, s.port.Holds body) (hdone : s.Done d s.frames)
  | reported (frames : List (List UInt8)) (frame : List UInt8) (passed : List EventType)
      (hidle : s.port.eSndState = .txIdle) (hrcv : s.port.eRcvState = .rxIdle)
      (hqueue : s.port.queue = passed ++ [.frameReceived]) (hpassed : ∀ e ∈ passed, Passing e)
      (hpos : s.port.usRcvBufferPos = frame.length)
      (hcontents : s.port.ucRTUBuf.contents frame.length = frame)
      (hserviceable : Serviceable frame) (hframes : s.frames = frames ++ [frame]) (hdone : s.Done d frames)
  | taken (frames : List (List UInt8)) (frame : List UInt8) (hidle : s.port.eSndState = .txIdle)
      (hrcv : s.port.eRcvState = .rxIdle) (hqueue : s.port.queue = [.execute])
      (hcontents : s.port.ucRTUBuf.contents frame.length = frame) (haddressed : Addressed frame)
      (hcovered : Covered (pduCells frame) (pduLength frame)) (haddress : s.ucRcvAddress = frame.getD 0 0)
      (hlength : s.usLength.toNat = pduLength frame) (hframes : s.frames = frames ++ [frame])
      (hdone : s.Done d frames)
  | sending (frames : List (List UInt8)) (frame reply : List UInt8) (base : MbAscii)
      (hsending : base.Sending s.port reply) (hcontents : base.ucRTUBuf.contents reply.length = reply)
      (hrcv : base.eRcvState = .rxIdle) (hqueue : base.queue = [])
      (hput : base.put = (Mealy.outputs asciiStep d frames).flatten)
      (hreply : (asciiStep (Mealy.after asciiStep d frames) frame).2 = MbAscii.asciiText reply)
      (hframes : s.frames = frames ++ [frame])
      (hdevice : s.registers.device = Mealy.after asciiStep d s.frames)

/-- No assertion has failed, no write was outside the buffer, and the timer runs only while a frame
arrives. -/
structure Sound (s : AsciiSlave) : Prop where
  failed : s.port.failed = none
  intact : s.port.ucRTUBuf.overrun = false
  timer : s.port.timer = true → s.port.eRcvState ≠ .rxIdle

/-- What holds of the slave after every orderly run. -/
structure Steady (d : Device) (s : AsciiSlave) : Prop extends s.Sound where
  serving : s.Serving d

section Steps

variable {d : Device} {s : AsciiSlave}

/-- One more frame is answered. -/
theorem Done.append {frames : List (List UInt8)} {frame : List UInt8} (hput : s.port.put =
      (Mealy.outputs asciiStep d frames).flatten ++ (asciiStep (Mealy.after asciiStep d frames) frame).2)
    (hdevice : s.registers.device = (asciiStep (Mealy.after asciiStep d frames) frame).1) :
    s.Done d (frames ++ [frame]) := by
  refine ⟨hput.trans ?_, hdevice.trans ?_⟩
  · rw [Mealy.outputs_append, List.flatten_append]
    exact congrArg (_ ++ ·) (List.append_nil _).symm
  · rw [Mealy.after_append]
    rfl

/-- A frame that is not for this slave changes nothing. -/
theorem Done.append_of_not {frames : List (List UInt8)} {frame : List UInt8} (h : s.Done d frames)
    (hnot : ¬ Addressed frame) : s.Done d (frames ++ [frame]) := by
  have hstep : asciiStep (Mealy.after asciiStep d frames) frame = (Mealy.after asciiStep d frames, []) :=
    if_neg hnot
  refine .append ?_ ?_
  · rw [hstep, List.append_nil]
    exact h.put
  · rw [hstep]
    exact h.device

/-- A slave that listens is in no other state. -/
theorem Serving.listens (h : s.Serving d) (hlisten : s.Listening) :
    (∀ e ∈ s.port.queue, Passing e) ∧ (s.port.eRcvState = .rxRcv → ∃ body, s.port.Holds body) ∧
      s.Done d s.frames := by
  cases h with
  | listening _ hqueue hheld hdone => exact ⟨hqueue, hheld, hdone⟩
  | reported _ _ _ _ _ hqueue =>
    refine absurd ?_ hlisten.2.1
    rw [hqueue]
    exact List.mem_append_right _ (List.mem_singleton_self _)
  | taken _ _ _ _ hqueue =>
    refine absurd ?_ hlisten.2.2
    rw [hqueue]
    exact List.mem_singleton_self _
  | sending _ _ _ _ hsending => exact absurd hlisten.1 hsending.kept.1

/-- A character that ends no frame leaves the slave listening. -/
theorem Steady.character_of_kept (h : s.Steady d) (hlisten : s.Listening) {c : UInt8} {port : MbAscii}
    (hport : s.port.xMBASCIIReceiveFSM c = port)
    (hkept : port.queue = s.port.queue ∧ port.put = s.port.put ∧ port.failed = s.port.failed ∧
      port.eSndState = s.port.eSndState ∧ port.ucRTUBuf.overrun = s.port.ucRTUBuf.overrun)
    (htimer : port.timer = true → port.eRcvState ≠ .rxIdle)
    (hheld : port.eRcvState = .rxRcv → ∃ body, port.Holds body) : (s.character c).Steady d := by
  obtain ⟨hqueue, hput, hfailed, hidle, hintact⟩ := hkept
  obtain ⟨hpassing, -, hdone⟩ := h.serving.listens hlisten
  have heq : s.character c = { s with port } := by
    rw [character, hport]
    exact congrArg (fun frames => AsciiSlave.mk port _ _ _ frames) (if_pos hqueue)
  rw [heq]
  refine ⟨⟨hfailed.trans h.failed, hintact.trans h.intact, htimer⟩, ?_⟩
  exact .listening (hidle.trans hlisten.1) (fun e he => hpassing e (hqueue ▸ he)) hheld
    ⟨hput.trans hdone.put, hdone.device⟩

/-- The character that ends a serviceable frame leaves it to be taken. -/
theorem Steady.character_lineFeed (h : s.Steady d) (hlisten : s.Listening)
    (hrcv : s.port.eRcvState = .rxWaitEof)
    (hserviceable : Serviceable (s.port.ucRTUBuf.contents s.port.usRcvBufferPos)) :
    (s.character MbAscii.lineFeed).Steady d := by
  obtain ⟨hpassing, -, hdone⟩ := h.serving.listens hlisten
  have hport := MbAscii.xMBASCIIReceiveFSM_waitEof hrcv hlisten.1 MbAscii.lineFeed
  rw [if_pos rfl] at hport
  have hpos : (s.port.ucRTUBuf.contents s.port.usRcvBufferPos).length = s.port.usRcvBufferPos := by
    have hlt := hserviceable.1
    rw [FixedBuffer.contents_length] at hlt ⊢
    omega
  have hgrows : ¬ s.port.queue ++ [EventType.frameReceived] = s.port.queue := by simp
  have hframes : (s.character MbAscii.lineFeed).frames =
      s.frames ++ [s.port.ucRTUBuf.contents s.port.usRcvBufferPos] := by
    rw [character, hport]
    exact if_neg hgrows
  have hslave : (s.character MbAscii.lineFeed).port =
      { s.port with eRcvState := .rxIdle, timer := false }.xMBPortEventPost .frameReceived := hport
  refine ⟨⟨?_, ?_, ?_⟩, .reported s.frames _ s.port.queue ?_ ?_ ?_ hpassing ?_ ?_ hserviceable hframes ?_⟩
  · rw [hslave]
    exact h.failed
  · rw [hslave]
    exact h.intact
  · rw [hslave]
    nofun
  · rw [hslave]
    exact hlisten.1
  · rw [hslave]
    rfl
  · rw [hslave]
    rfl
  · rw [hslave, hpos]
    rfl
  · rw [hslave, hpos]
    rfl
  · refine ⟨?_, hdone.device⟩
    rw [hslave]
    exact hdone.put

/-- An orderly character. -/
theorem Steady.character (h : s.Steady d) {c : UInt8} (horderly : s.Orderly (.character c)) :
    (s.character c).Steady d := by
  obtain ⟨hlisten, hend⟩ := horderly
  obtain ⟨-, hheld, -⟩ := h.serving.listens hlisten
  have hidle := hlisten.1
  by_cases hcolon : c = MbAscii.colon
  · subst hcolon
    exact h.character_of_kept hlisten (MbAscii.xMBASCIIReceiveFSM_colon hidle) ⟨rfl, rfl, rfl, rfl, rfl⟩
      (fun _ => show MbAscii.RcvState.rxRcv ≠ .rxIdle by decide)
      fun _ => ⟨[], (MbAscii.restart_receiving s.port).held⟩
  cases hrcv : s.port.eRcvState with
  | rxIdle =>
    have hport := MbAscii.xMBASCIIReceiveFSM_idle hrcv hidle c
    rw [if_neg hcolon] at hport
    exact h.character_of_kept hlisten hport ⟨rfl, rfl, rfl, rfl, rfl⟩ h.timer fun hnot =>
      absurd (hrcv.symm.trans hnot) (by decide)
  | rxWaitEof =>
    obtain ⟨rfl, hserviceable⟩ := (hend hrcv).resolve_left hcolon
    exact h.character_lineFeed hlisten hrcv hserviceable
  | rxRcv =>
    obtain ⟨body, hbody⟩ := hheld hrcv
    have hport : s.port.xMBASCIIReceiveFSM c =
        if c = MbAscii.carriageReturn then { s.port with eRcvState := .rxWaitEof, timer := true }
        else s.port.receiveData c := by
      rw [MbAscii.xMBASCIIReceiveFSM, if_neg (not_not.mpr hidle), hrcv]
      exact if_neg hcolon
    by_cases hreturn : c = MbAscii.carriageReturn
    · rw [if_pos hreturn] at hport
      exact h.character_of_kept hlisten hport ⟨rfl, rfl, rfl, rfl, rfl⟩
        (fun _ => show MbAscii.RcvState.rxWaitEof ≠ .rxIdle by decide)
        fun hnot => absurd hnot (show MbAscii.RcvState.rxWaitEof ≠ .rxRcv by decide)
    rw [if_neg hreturn] at hport
    by_cases hroom : body.length < 2 * mbSerPduSizeMax
    · obtain ⟨hbody', hintact, hkept⟩ := hbody.receiveData c hroom
      refine h.character_of_kept hlisten hport ⟨?_, ?_, ?_, ?_, hintact⟩ ?_ fun _ => ⟨_, hbody'⟩
      · rw [hkept]
      · rw [hkept]
      · rw [hkept]
      · rw [hkept]
      · rw [hkept]
        exact fun _ hnot => absurd (hrcv.symm.trans hnot) (by decide)
    · rw [hbody.receiveData_full c (Nat.le_of_not_lt hroom)] at hport
      exact h.character_of_kept hlisten hport ⟨rfl, rfl, rfl, rfl, rfl⟩
        (fun hon => absurd hon Bool.false_ne_true)
        fun hnot => absurd hnot (show MbAscii.RcvState.rxIdle ≠ .rxRcv by decide)

/-- The poll that takes a frame leaves it to be executed when it is for this slave, and drops it otherwise. -/
theorem Sound.frameReceived (h : s.Sound) (hidle : s.port.eSndState = .txIdle)
    (hrcv : s.port.eRcvState = .rxIdle) (hqueue : s.port.queue = []) {frames : List (List UInt8)}
      {frame : List UInt8}
    (hpos : s.port.usRcvBufferPos = frame.length) (hcontents : s.port.ucRTUBuf.contents frame.length = frame)
    (hserviceable : Serviceable frame) (hframes : s.frames = frames ++ [frame]) (hdone : s.Done d frames) :
    s.frameReceived.Steady d := by
  have hreceivable : s.port.Receivable := hpos.trans_lt hserviceable.1
  have hreceive : s.port.eMBASCIIReceive =
      if frame.length ≥ MbAscii.asciiPduSizeMin ∧ MbAscii.prvucMBLRC frame = 0 then
        some (s.port.ucRTUBuf.read 0, pduLength frame)
      else none := by
    rw [MbAscii.eMBASCIIReceive, hpos, hcontents]
    rfl
  have hdropped (hnot : ¬ Addressed frame) (t : AsciiSlave) (hport : t.port = s.port)
      (hregisters : t.registers = s.registers) (hsame : t.frames = s.frames) : t.Steady d := by
    have hall := hdone.append_of_not hnot
    rw [← hframes, ← hsame] at hall
    refine ⟨⟨hport ▸ h.failed, hport ▸ h.intact, hport ▸ h.timer⟩, ?_⟩
    refine .listening (hport ▸ hidle) ?_ (fun hrxRcv => ?_) ⟨hport ▸ hall.put, hregisters ▸ hall.device⟩
    · rw [hport, hqueue]
      nofun
    · rw [hport] at hrxRcv
      exact absurd (hrcv.symm.trans hrxRcv) (by decide)
  rw [AsciiSlave.frameReceived, if_pos hreceivable, hreceive]
  by_cases hwhole : frame.length ≥ MbAscii.asciiPduSizeMin ∧ MbAscii.prvucMBLRC frame = 0
  · rw [if_pos hwhole]
    have haddress : s.port.ucRTUBuf.read 0 = frame.getD 0 0 :=
      s.port.ucRTUBuf.read_eq_of_contents hcontents (lt_of_lt_of_le (by decide) hwhole.1) 0
    dsimp only
    rw [haddress]
    by_cases hours : frame.getD 0 0 = ucMBAddress ∨ frame.getD 0 0 = mbAddressBroadcast
    · rw [if_pos hours]
      have haddressed : Addressed frame := ⟨hwhole.1, hwhole.2, hours⟩
      refine ⟨⟨h.failed, h.intact, h.timer⟩, ?_⟩
      refine .taken frames frame hidle hrcv ?_ hcontents haddressed (hserviceable.2 haddressed) rfl ?_ hframes
        ⟨hdone.put, hdone.device⟩
      · exact congrArg (· ++ [EventType.execute]) hqueue
      · rw [UInt16.toNat_ofNat']
        have hlt := hserviceable.1
        exact Nat.mod_eq_of_lt (((Nat.sub_le _ _).trans (Nat.sub_le _ _)).trans_lt (hlt.trans (by decide)))
    · rw [if_neg hours]
      exact hdropped (fun hnot => hours hnot.2.2) _ rfl rfl rfl
  · rw [if_neg hwhole]
    exact hdropped (fun hnot => hwhole ⟨hnot.1, hnot.2.1⟩) _ rfl rfl rfl

/-- An error frame changes no register. -/
theorem errorFrame_registers (o : PduOutcome) (ucFunctionCode : UInt8) :
    (o.errorFrame ucFunctionCode).registers = o.registers := by
  rw [PduOutcome.errorFrame]
  split <;> rfl

/-- An error frame is written over what the handler has accessed. -/
theorem errorFrame_accesses (o : PduOutcome) (ucFunctionCode : UInt8) :
    ∀ k ∈ o.pucFrame.accesses, k ∈ (o.errorFrame ucFunctionCode).pucFrame.accesses := by
  intro k hk
  rw [PduOutcome.errorFrame]
  split
  · exact hk
  · exact List.mem_cons_of_mem _ (List.mem_cons_of_mem _ hk)

/-- What the handler and the error frame leave is the execution of the PDU in the buffer. -/
theorem handled_errorFrame (s : AsciiSlave) : s.handled.errorFrame (s.port.ucRTUBuf.read 1) =
    executePdu s.registers (s.port.ucRTUBuf.memoryFrom 1) s.usLength := rfl

/-- A frame for this slave is replied to. -/
theorem execute_reply (hnot : s.ucRcvAddress ≠ mbAddressBroadcast) : s.execute =
    s.reply (executePdu s.registers (s.port.ucRTUBuf.memoryFrom 1) s.usLength) := by
  rw [AsciiSlave.execute, if_pos hnot, handled_errorFrame]

/-- A frame for all slaves is not replied to. -/
theorem execute_leave (hbroadcast : s.ucRcvAddress = mbAddressBroadcast) : s.execute = s.leave s.handled := by
  rw [AsciiSlave.execute, if_neg (not_not.mpr hbroadcast)]

/-- A reply is sent with its address and its checksum. -/
theorem eMBASCIISend_contents {port : MbAscii} (hrcv : port.eRcvState = .rxIdle) (ucSlaveAddress : UInt8)
    {reply : List UInt8} (hroom : 1 + reply.length < mbSerPduSizeMax)
    (hreply : ∀ k < reply.length, port.ucRTUBuf.read (1 + k) = reply.getD k 0) :
    ∃ ucRTUBuf : FixedBuffer UInt8 mbSerPduSizeMax,
      ucRTUBuf.contents (MbAscii.serialPdu ucSlaveAddress reply).length =
          MbAscii.serialPdu ucSlaveAddress reply ∧
        ucRTUBuf.overrun = port.ucRTUBuf.overrun ∧
        port.eMBASCIISend ucSlaveAddress reply.length =
          { port with
            ucRTUBuf
            eSndState := .txStart
            pucSndBufferCur := 0
            usSndBufferCount := (MbAscii.serialPdu ucSlaveAddress reply).length } := by
  have hlength : (MbAscii.serialPdu ucSlaveAddress reply).length = 1 + reply.length + 1 := by
    rw [MbAscii.serialPdu, List.length_append, List.length_cons, Nat.add_comm 1]
    rfl
  have hhead : (port.ucRTUBuf.write 0 ucSlaveAddress).contents (1 + reply.length) =
      ucSlaveAddress :: reply := by
    have hfirst : (List.range 1).map (port.ucRTUBuf.write 0 ucSlaveAddress).read = [ucSlaveAddress] := by
      change [(port.ucRTUBuf.write 0 ucSlaveAddress).read 0] = [ucSlaveAddress]
      rw [FixedBuffer.read_write _ _ (by decide), if_pos rfl]
    have hrest : (List.range reply.length).map ((port.ucRTUBuf.write 0 ucSlaveAddress).read ∘ (1 + ·)) =
        reply := by
      refine List.ext_getElem (by simp) fun k hk hk' => ?_
      rw [List.getElem_map, List.getElem_range, Function.comp_apply, FixedBuffer.read_write _ _ (by decide),
        if_neg (by omega), hreply k hk', List.getD_eq_getElem _ _ hk']
    rw [FixedBuffer.contents_eq_map_read _ (Nat.le_of_lt hroom), List.range_add, List.map_append,
      List.map_map, hfirst, hrest]
    rfl
  refine ⟨(port.ucRTUBuf.write 0 ucSlaveAddress).write (1 + reply.length)
    (MbAscii.prvucMBLRC (ucSlaveAddress :: reply)), ?_, ?_, ?_⟩
  · rw [hlength, FixedBuffer.write_contents_succ _ _ hroom, hhead]
    rfl
  · rw [FixedBuffer.write_overrun _ _ hroom, FixedBuffer.write_overrun _ _ (by decide)]
  · rw [MbAscii.eMBASCIISend, if_pos hrcv, hlength]
    dsimp only
    rw [hhead]

/-- The reply to a frame for this slave, in the buffer and ready to be transmitted. -/
theorem reply_eq (s : AsciiSlave) (hrcv : s.port.eRcvState = .rxIdle) {o : PduOutcome}
    (hshort : o.usLen.toNat ≤ 32) :
    ∃ ucRTUBuf : FixedBuffer UInt8 mbSerPduSizeMax,
      ucRTUBuf.contents (MbAscii.serialPdu ucMBAddress o.reply).length =
          MbAscii.serialPdu ucMBAddress o.reply ∧
        ucRTUBuf.overrun = (s.port.ucRTUBuf.storeFrom 1 o.pucFrame).overrun ∧
        s.reply o =
          { s with
            port := { s.port with
              ucRTUBuf
              eSndState := .txStart
              pucSndBufferCur := 0
              usSndBufferCount := (MbAscii.serialPdu ucMBAddress o.reply).length }
            usLength := o.usLen
            registers := o.registers } := by
  have hlength : o.reply.length = o.usLen.toNat := by
    rw [PduOutcome.reply, List.length_map, List.length_range]
  have hroom : 1 + o.reply.length < mbSerPduSizeMax := by
    rw [hlength]
    exact (Nat.add_le_add_left hshort 1).trans_lt (by decide)
  have hstored : ∀ k < o.reply.length, (s.port.ucRTUBuf.storeFrom 1 o.pucFrame).read (1 + k) =
      o.reply.getD k 0 := by
    intro k hk
    rw [FixedBuffer.storeFrom_read_add _ _ _ (by omega), PduOutcome.reply, getD_map_range _ _ _ _,
      if_pos (hlength ▸ hk)]
  obtain ⟨ucRTUBuf, hsent, hintact, hsend⟩ := @eMBASCIISend_contents
    { s.port with ucRTUBuf := s.port.ucRTUBuf.storeFrom 1 o.pucFrame } hrcv ucMBAddress o.reply hroom hstored
  refine ⟨ucRTUBuf, hsent, hintact, ?_⟩
  rw [hlength] at hsend
  rw [AsciiSlave.reply, leave]
  dsimp only
  rw [hsend]

/-- The poll that executes a frame does what the device does with it, and starts the reply unless the frame is
for all slaves. -/
theorem Sound.execute (h : s.Sound) (hidle : s.port.eSndState = .txIdle) (hrcv : s.port.eRcvState = .rxIdle)
    (hqueue : s.port.queue = []) {frames : List (List UInt8)} {frame : List UInt8}
    (hcontents : s.port.ucRTUBuf.contents frame.length = frame) (haddressed : Addressed frame)
    (hcovered : Covered (pduCells frame) (pduLength frame)) (haddress : s.ucRcvAddress = frame.getD 0 0)
    (hlength : s.usLength.toNat = pduLength frame) (hframes : s.frames = frames ++ [frame])
    (hdone : s.Done d frames) : s.execute.Steady d := by
  have hlen : 1 + pduLength frame < frame.length ∧ 0 < pduLength frame := by
    have hmin : 3 ≤ frame.length := haddressed.1
    rw [pduLength]
    omega
  have hpos : 0 < s.usLength.toNat := hlength ▸ hlen.2
  have hsame : SameRequest (pduLength frame) (pduCells frame) (s.port.ucRTUBuf.memoryFrom 1).cells :=
    fun k hk =>
    s.port.ucRTUBuf.read_eq_of_contents hcontents (by omega) 0
  have hshort := executePdu_usLen_le s.registers (s.port.ucRTUBuf.memoryFrom 1) s.usLength hpos
  have hreach := executePdu_staysInside s.registers (s.port.ucRTUBuf.memoryFrom 1) s.usLength
  have hanswer : (asciiStep (Mealy.after asciiStep d frames) frame) =
      if frame.getD 0 0 = ucMBAddress then
        ((executePdu s.registers (s.port.ucRTUBuf.memoryFrom 1) s.usLength).registers.device,
          MbAscii.asciiText (MbAscii.serialPdu ucMBAddress
            (executePdu s.registers (s.port.ucRTUBuf.memoryFrom 1) s.usLength).reply))
      else ((executePdu s.registers (s.port.ucRTUBuf.memoryFrom 1) s.usLength).registers.device, []) := by
    obtain ⟨hdevice, hreply⟩ := executePdu_refines s.registers (s.port.ucRTUBuf.memoryFrom 1) s.usLength
    rw [asciiStep, if_pos haddressed, ← hcovered.answer_eq _ hlen.2 hsame, ← hdone.device, hdevice, hreply,
      ← hlength]
    rfl
  have hhandled := handled_errorFrame s
  have hreplies := execute_reply (s := s)
  generalize executePdu s.registers (s.port.ucRTUBuf.memoryFrom 1) s.usLength = o at *
  have hinside : (s.port.ucRTUBuf.storeFrom 1 o.pucFrame).overrun = false := by
    refine (FixedBuffer.storeFrom_overrun_iff _ _ _).mpr ⟨h.intact, fun k hk => ?_⟩
    have hk := (hreach k hk).resolve_right (by nofun)
    exact (Nat.add_lt_add_left hk 1).trans (by decide)
  have hafter : Mealy.after asciiStep d s.frames = o.registers.device := by
    rw [hframes, Mealy.after_append]
    change (asciiStep (Mealy.after asciiStep d frames) frame).1 = _
    rw [hanswer]
    split <;> rfl
  by_cases hours : frame.getD 0 0 = ucMBAddress
  · have hnot : s.ucRcvAddress ≠ mbAddressBroadcast := by
      rw [haddress, hours]
      decide
    obtain ⟨ucRTUBuf, hsent, hintact, hreply⟩ := reply_eq s hrcv hshort
    rw [hreplies hnot, hreply]
    rw [if_pos hours] at hanswer
    refine ⟨⟨h.failed, hintact.trans hinside, h.timer⟩, ?_⟩
    refine .sending frames frame (MbAscii.serialPdu ucMBAddress o.reply) { s.port with ucRTUBuf } (.colon rfl)
      hsent hrcv hqueue hdone.put ?_ hframes hafter.symm
    rw [hanswer]
  · have hbroadcast : s.ucRcvAddress = mbAddressBroadcast :=
      haddress.trans (haddressed.2.2.resolve_left hours)
    rw [if_neg hours] at hanswer
    rw [execute_leave hbroadcast, leave]
    have hregisters : s.handled.registers = o.registers := by
      rw [← hhandled, errorFrame_registers]
    have haccesses : (s.port.ucRTUBuf.storeFrom 1 s.handled.pucFrame).overrun = false := by
      rw [FixedBuffer.storeFrom_overrun_iff] at hinside ⊢
      refine ⟨hinside.1, fun k hk => hinside.2 k ?_⟩
      rw [← hhandled]
      exact errorFrame_accesses _ _ k hk
    have hpassing : ∀ e ∈ s.port.queue, Passing e := by
      rw [hqueue]
      nofun
    generalize s.handled = left at *
    refine ⟨⟨h.failed, haccesses, h.timer⟩, .listening hidle hpassing ?_ ⟨?_, ?_⟩⟩
    · exact fun hnot => absurd (hrcv.symm.trans hnot) (by decide)
    · refine hdone.put.trans ?_
      change _ = (Mealy.outputs asciiStep d s.frames).flatten
      rw [hframes, Mealy.outputs_append, List.flatten_append]
      change _ = _ ++ [(asciiStep (Mealy.after asciiStep d frames) frame).2].flatten
      rw [hanswer]
      exact (List.append_nil _).symm
    · change left.registers.device = Mealy.after asciiStep d s.frames
      rw [hregisters, hafter]

/-- Taking an event touches nothing else. -/
theorem Sound.dequeue (h : s.Sound) (rest : List EventType) : (s.dequeue rest).Sound :=
  ⟨h.failed, h.intact, h.timer⟩

/-- A poll takes the next event. -/
theorem eMBPoll_cons {e : EventType} {rest : List EventType} (hqueue : s.port.queue = e :: rest) :
    s.eMBPoll = some ((s.dequeue rest).dispatch e) := by
  rw [eMBPoll, hqueue]

/-- A poll that takes an event for which there is nothing to do. -/
theorem eMBPoll_passing {e : EventType} {rest : List EventType} (hqueue : s.port.queue = e :: rest)
    (he : Passing e) : s.eMBPoll = some (s.dequeue rest) := by
  rw [eMBPoll_cons hqueue]
  rcases he with rfl | rfl <;> rfl

/-- A poll keeps the slave steady. -/
theorem Steady.eMBPoll (h : s.Steady d) {t : AsciiSlave} (hpoll : s.eMBPoll = some t) : t.Steady d := by
  cases h.serving with
  | listening hidle hqueue hheld hdone =>
    cases hevents : s.port.queue with
    | nil =>
      rw [AsciiSlave.eMBPoll, hevents] at hpoll
      contradiction
    | cons e rest =>
      rw [hevents, List.forall_mem_cons] at hqueue
      rw [eMBPoll_passing hevents hqueue.1] at hpoll
      obtain rfl := Option.some.inj hpoll
      refine ⟨h.toSound.dequeue rest, .listening hidle hqueue.2 ?_ ⟨hdone.put, hdone.device⟩⟩
      exact fun hrcv => (hheld hrcv).imp fun _ hbody => hbody.congr rfl rfl rfl
  | reported frames frame passed hidle hrcv hqueue hpassed hpos hcontents hserviceable hframes hdone =>
    cases passed with
    | nil =>
      rw [eMBPoll_cons hqueue] at hpoll
      obtain rfl := Option.some.inj hpoll
      exact (h.toSound.dequeue []).frameReceived hidle hrcv rfl hpos hcontents hserviceable hframes
        ⟨hdone.put, hdone.device⟩
    | cons e rest =>
      rw [List.forall_mem_cons] at hpassed
      rw [eMBPoll_passing hqueue hpassed.1] at hpoll
      obtain rfl := Option.some.inj hpoll
      exact ⟨h.toSound.dequeue _, .reported frames frame rest hidle hrcv rfl hpassed.2 hpos hcontents
        hserviceable hframes ⟨hdone.put, hdone.device⟩⟩
  | taken frames frame hidle hrcv hqueue hcontents haddressed hcovered haddress hlength hframes hdone =>
    rw [eMBPoll_cons hqueue] at hpoll
    obtain rfl := Option.some.inj hpoll
    exact (h.toSound.dequeue []).execute hidle hrcv rfl hcontents haddressed hcovered haddress hlength hframes
      ⟨hdone.put, hdone.device⟩
  | sending frames frame reply base hsending _ _ hqueue =>
    rw [AsciiSlave.eMBPoll, hsending.kept.2.2.1, hqueue] at hpoll
    contradiction

/-- A call of the transmitter keeps the slave steady. -/
theorem Steady.transmit (h : s.Steady d) (hbusy : s.port.eSndState ≠ .txIdle) :
    ({ s with port := s.port.xMBASCIITransmitFSM } : AsciiSlave).Steady d := by
  cases h.serving with
  | listening hidle => exact absurd hidle hbusy
  | reported _ _ _ hidle => exact absurd hidle hbusy
  | taken _ _ hidle => exact absurd hidle hbusy
  | sending frames frame reply base hsending hcontents hrcv hqueue hput hreply hframes hdevice =>
    obtain ⟨-, -, -, htimer, hfailed, hbuf⟩ := hsending.kept
    have hoff : base.timer = true → base.eRcvState ≠ .rxIdle := fun hon =>
      hsending.kept.2.1 ▸ h.timer (htimer.trans hon)
    rcases hsending.transmit hrcv hcontents with hnext | hsent
    · obtain ⟨-, hrcv', -, htimer', hfailed', hbuf'⟩ := hnext.kept
      refine ⟨⟨?_, ?_, ?_⟩, .sending frames frame reply base hnext hcontents hrcv hqueue hput hreply hframes
        hdevice⟩
      · exact hfailed'.trans (hfailed.symm.trans h.failed)
      · rw [hbuf', ← hbuf]
        exact h.intact
      · rw [htimer', hrcv']
        exact hoff
    · have hdone :
          ({ s with port := s.port.xMBASCIITransmitFSM } : AsciiSlave).Done d (frames ++ [frame]) := by
        refine .append ?_ ?_
        · rw [hsent, hreply, ← hput]
        · rw [hframes, Mealy.after_append] at hdevice
          exact hdevice
      rw [hsent] at hdone ⊢
      refine ⟨⟨hfailed.symm.trans h.failed, hbuf ▸ h.intact, hoff⟩, .listening rfl ?_ ?_ ?_⟩
      · rw [hqueue]
        exact fun e he => .inr (List.mem_singleton.mp he)
      · exact fun hnot => absurd (hrcv.symm.trans hnot) (by decide)
      · exact hframes ▸ hdone

/-- An expiry of the timer keeps the slave steady: the frame that arrives is given up. -/
theorem Steady.expiry (h : s.Steady d) (hon : s.port.timer = true) :
    ({ s with port := s.port.xMBASCIITimerT1SExpired } : AsciiSlave).Steady d := by
  have hrcv := h.timer hon
  rw [MbAscii.xMBASCIITimerT1SExpired, if_neg hrcv]
  cases h.serving with
  | listening hidle hqueue _ hdone =>
    exact ⟨⟨h.failed, h.intact, fun hon => absurd hon Bool.false_ne_true⟩,
      .listening hidle hqueue (fun hnot => absurd hnot (show MbAscii.RcvState.rxIdle ≠ .rxRcv by decide))
        ⟨hdone.put, hdone.device⟩⟩
  | reported _ _ _ _ hidle => exact absurd hidle hrcv
  | taken _ _ _ hidle => exact absurd hidle hrcv
  | sending _ _ _ _ hsending _ hidle => exact absurd (hsending.kept.2.1.trans hidle) hrcv

/-- An orderly step keeps the slave steady. -/
theorem Steady.step (h : s.Steady d) {e : AsciiEvent} {t : AsciiSlave} (horderly : s.Orderly e)
    (hstep : s.step e = some t) : t.Steady d := by
  unfold AsciiSlave.step at hstep
  rw [h.failed] at hstep
  cases e with
  | character c => exact Option.some.inj hstep ▸ h.character horderly
  | expiry =>
    obtain ⟨hon, rfl⟩ := Transition.enabled_of_ite hstep
    exact h.expiry hon
  | poll => exact h.eMBPoll hstep
  | transmit =>
    obtain ⟨-, hstep⟩ := Option.ite_none_left_eq_some.mp hstep
    obtain ⟨hbusy, heq⟩ := Option.ite_none_left_eq_some.mp hstep
    exact Option.some.inj heq ▸ h.transmit hbusy

/-- The slave starts without a frame. -/
theorem start_steady (ucRTUBuf : Vector UInt8 mbSerPduSizeMax) (registers : MbRegisters) :
    (start ucRTUBuf registers).Steady registers.device := by
  refine ⟨⟨rfl, rfl, nofun⟩, .listening rfl ?_ nofun ⟨rfl, rfl⟩⟩
  exact fun e he => .inl (List.mem_singleton.mp he)

/-- What has been put so far is the beginning of the replies to the frames so far, and a slave that listens
has put all of them. -/
theorem Steady.answers (h : s.Steady d) :
    s.port.put <+: (Mealy.outputs asciiStep d s.frames).flatten ∧
      (s.Listening → s.Done d s.frames) := by
  refine ⟨?_, fun hlisten => (h.serving.listens hlisten).2.2⟩
  have hearlier {frames : List (List UInt8)} {frame : List UInt8} (hframes : s.frames = frames ++ [frame]) :
      (Mealy.outputs asciiStep d s.frames).flatten =
        (Mealy.outputs asciiStep d frames).flatten ++
          (asciiStep (Mealy.after asciiStep d frames) frame).2 := by
    rw [hframes, Mealy.outputs_append, List.flatten_append]
    exact congrArg (_ ++ ·) (List.append_nil _)
  cases h.serving with
  | listening _ _ _ hdone => exact hdone.put ▸ List.prefix_rfl
  | reported frames frame _ _ _ _ _ _ _ _ hframes hdone =>
    rw [hearlier hframes, hdone.put]
    exact List.prefix_append _ _
  | taken frames frame _ _ _ _ _ _ _ _ hframes hdone =>
    rw [hearlier hframes, hdone.put]
    exact List.prefix_append _ _
  | sending frames frame reply base hsending _ _ _ hput hreply hframes _ =>
    rw [hearlier hframes, hreply, ← hput]
    exact hsending.put_prefix

/-- The slave's own steps. -/
def IsWork (e : AsciiEvent) : Prop := e = .poll ∨ e = .transmit

instance (e : AsciiEvent) : Decidable (IsWork e) := inferInstanceAs (Decidable (_ ∨ _))

/-- By its own steps alone the slave gets to where it has nothing to do for a request. -/
def Finishes (s : AsciiSlave) : Prop :=
  ∃ work t, (∀ e ∈ work, IsWork e) ∧ Transition.run AsciiSlave.step s work = some t ∧ t.Listening ∧
    t.frames = s.frames

/-- A slave that finishes after one of its own steps finishes. -/
theorem Finishes.cons {t : AsciiSlave} {e : AsciiEvent} (h : t.Finishes) (he : IsWork e)
    (hstep : s.step e = some t) (hframes : t.frames = s.frames) : s.Finishes := by
  obtain ⟨work, u, hwork, hrun, hlisten, hsame⟩ := h
  exact ⟨e :: work, u, List.forall_mem_cons.mpr ⟨he, hwork⟩, Transition.run_cons_eq_some.mpr ⟨t, hstep, hrun⟩,
    hlisten, hsame.trans hframes⟩

/-- A poll is a step of a slave that has not failed. -/
theorem step_poll (hfailed : s.port.failed = none) : s.step .poll = s.eMBPoll := by
  unfold AsciiSlave.step
  rw [hfailed]
  rfl

/-- A call of the transmitter is a step of a slave that sends. -/
theorem step_transmit (hfailed : s.port.failed = none) (hbusy : s.port.eSndState ≠ .txIdle) :
    s.step .transmit = some { s with port := s.port.xMBASCIITransmitFSM } := by
  unfold AsciiSlave.step
  rw [hfailed]
  exact if_neg hbusy

/-- A reply that is being sent comes to its end. -/
theorem finishes_of_sending {base : MbAscii} {reply : List UInt8} (hsending : base.Sending s.port reply)
    (hcontents : base.ucRTUBuf.contents reply.length = reply) (hrcv : base.eRcvState = .rxIdle)
    (hqueue : base.queue = []) (hfailed : base.failed = none) : s.Finishes := by
  induction hn : s.port.remaining using Nat.strong_induction_on generalizing s with
  | _ n ih =>
    obtain ⟨hbusy, hrcv', -, -, hfailed', -⟩ := hsending.kept
    have hstep := step_transmit (hfailed'.trans hfailed) hbusy
    have hlt := MbAscii.remaining_transmit_lt (hrcv'.trans hrcv) hbusy
    rcases hsending.transmit hrcv hcontents with hnext | hsent
    · exact (ih _ (hn ▸ hlt) (s := { s with port := s.port.xMBASCIITransmitFSM }) hnext rfl).cons (.inr rfl)
        hstep rfl
    · refine ⟨[.transmit], _, ?_, Transition.run_singleton hstep, ?_, rfl⟩
      · exact fun e he => .inr (List.mem_singleton.mp he)
      · rw [Listening, hsent, hqueue]
        exact ⟨rfl, (by decide : EventType.frameReceived ∉ [EventType.frameSent]),
          (by decide : EventType.execute ∉ [EventType.frameSent])⟩

/-- A reply posts nothing. -/
theorem reply_kept (s : AsciiSlave) (o : PduOutcome) :
    (s.reply o).port.queue = s.port.queue ∧ (s.reply o).frames = s.frames := by
  dsimp only [AsciiSlave.reply, leave]
  rw [MbAscii.eMBASCIISend]
  split <;> exact ⟨rfl, rfl⟩

/-- Executing a frame posts nothing. -/
theorem execute_kept (s : AsciiSlave) :
    s.execute.port.queue = s.port.queue ∧ s.execute.frames = s.frames := by
  rw [AsciiSlave.execute]
  split
  · exact reply_kept s _
  · dsimp only [leave]
    exact ⟨rfl, rfl⟩

/-- Taking a frame sends nothing, and posts at most its execution. -/
theorem frameReceived_kept (s : AsciiSlave) :
    s.frameReceived.port.eSndState = s.port.eSndState ∧
      (s.frameReceived.port.queue = s.port.queue ∨ s.frameReceived.port.queue = s.port.queue ++ [.execute]) ∧
        s.frameReceived.frames = s.frames := by
  rw [AsciiSlave.frameReceived]
  split
  · split
    · exact ⟨rfl, .inl rfl, rfl⟩
    · dsimp only
      split
      · exact ⟨rfl, .inr rfl, rfl⟩
      · exact ⟨rfl, .inl rfl, rfl⟩
  · exact ⟨rfl, .inl rfl, rfl⟩

/-- A slave with nothing in its queue sends the last reply or listens. -/
theorem Steady.finishes_of_empty (h : s.Steady d) (hempty : s.port.queue = []) : s.Finishes := by
  cases h.serving with
  | listening hidle => exact ⟨[], s, nofun, rfl, ⟨hidle, by rw [hempty]; nofun, by rw [hempty]; nofun⟩, rfl⟩
  | reported _ _ passed _ _ hqueue => simp [hempty] at hqueue
  | taken _ _ _ _ hqueue => simp [hempty] at hqueue
  | sending _ _ _ base hsending hcontents hrcv hqueue =>
    exact finishes_of_sending hsending hcontents hrcv hqueue (hsending.kept.2.2.2.2.1 ▸ h.failed)

/-- A slave that is about to execute a frame comes to the end of it. -/
theorem Steady.finishes_of_execute (h : s.Steady d) (hqueue : s.port.queue = [.execute]) : s.Finishes := by
  have hpoll := eMBPoll_cons hqueue
  have hkept := execute_kept (s.dequeue [])
  have hnext := (h.eMBPoll hpoll).finishes_of_empty hkept.1
  exact hnext.cons (.inl rfl) ((step_poll h.failed).trans hpoll) hkept.2

/-- A slave to which a frame has been reported comes to the end of it. -/
theorem Steady.finishes_of_reported (passed : List EventType) (h : s.Steady d)
    (hqueue : s.port.queue = passed ++ [.frameReceived]) (hpassed : ∀ e ∈ passed, Passing e) :
      s.Finishes := by
  induction passed generalizing s with
  | nil =>
    have hpoll := eMBPoll_cons hqueue
    have hsteady := h.eMBPoll hpoll
    obtain ⟨-, hposted, hframes⟩ := frameReceived_kept (s.dequeue [])
    have hnext : (s.dequeue []).frameReceived.Finishes := by
      rcases hposted with hempty | hexecute
      · exact hsteady.finishes_of_empty hempty
      · exact hsteady.finishes_of_execute hexecute
    exact hnext.cons (.inl rfl) ((step_poll h.failed).trans hpoll) hframes
  | cons e rest ih =>
    rw [List.forall_mem_cons] at hpassed
    have hpoll := eMBPoll_passing hqueue hpassed.1
    exact (ih (h.eMBPoll hpoll) rfl hpassed.2).cons (.inl rfl) ((step_poll h.failed).trans hpoll) rfl

/-- Every steady slave comes to the end of what it has to do. -/
theorem Steady.finishes (h : s.Steady d) : s.Finishes := by
  cases h.serving with
  | listening hidle hqueue =>
    refine ⟨[], s, nofun, rfl, ⟨hidle, fun hin => ?_, fun hin => ?_⟩, rfl⟩
    · exact absurd (hqueue _ hin) (by unfold Passing; decide)
    · exact absurd (hqueue _ hin) (by unfold Passing; decide)
  | reported _ _ passed _ _ hqueue hpassed => exact h.finishes_of_reported passed hqueue hpassed
  | taken _ _ _ _ hqueue => exact h.finishes_of_execute hqueue
  | sending _ _ _ base hsending hcontents hrcv hqueue =>
    exact finishes_of_sending hsending hcontents hrcv hqueue (hsending.kept.2.2.2.2.1 ▸ h.failed)

end Steps

/-- Along every orderly run no assertion fails and no write is outside the buffer. What has been put is the
beginning of the texts with which the device answers the frames so far; a slave that listens has put all of
them and has the items of the device, and every slave gets there by its own steps. -/
theorem run_answers_device (ucRTUBuf : Vector UInt8 mbSerPduSizeMax) (registers : MbRegisters)
    (events : List AsciiEvent) (s : AsciiSlave)
    (hrun : Transition.run step (start ucRTUBuf registers) events = some s)
    (hcond : Transition.Along step Orderly (start ucRTUBuf registers) events) :
    s.port.failed = none ∧ s.port.ucRTUBuf.overrun = false ∧
      s.port.put <+: (Mealy.outputs asciiStep registers.device s.frames).flatten ∧
        (s.Listening → s.port.put = (Mealy.outputs asciiStep registers.device s.frames).flatten ∧
          s.registers.device = Mealy.after asciiStep registers.device s.frames) ∧
          s.Finishes := by
  have hsteady := Transition.run_invariant_along Orderly (Steady registers.device)
    (fun _ _ _ h horderly hstep => h.step horderly hstep) hrun hcond (start_steady ucRTUBuf registers)
  obtain ⟨hbegins, hall⟩ := hsteady.answers
  exact ⟨hsteady.failed, hsteady.intact, hbegins, fun hlisten => ⟨(hall hlisten).put, (hall hlisten).device⟩,
    hsteady.finishes⟩

/-- A master asks the slave to report itself, and the slave begins its reply. -/
def reportEvents : List AsciiEvent :=
  (MbAscii.reportText ++ [MbAscii.lineFeed]).map .character ++ [.poll, .poll, .poll, .transmit]

/-- The beginning of the reply is on the line. -/
theorem run_answers_device_report :
    ∃ s, Transition.run step (start (.replicate _ 0) .start) reportEvents = some s ∧
      s.port.put <+: (Mealy.outputs asciiStep MbRegisters.start.device s.frames).flatten ∧
        s.port.put ≠ [] := by
  have hput : (Transition.run step (start (.replicate _ 0) .start) reportEvents).map (fun s => s.port.put) =
      some [MbAscii.colon] := by
    decide +kernel
  obtain ⟨s, hs, hcolon⟩ := Option.map_eq_some_iff.mp hput
  have hanswers := run_answers_device _ _ _ s hs (by decide +kernel)
  exact ⟨s, hs, hanswers.2.2.1, by rw [hcolon]; exact List.cons_ne_nil _ _⟩

end AsciiSlave

end RemoteManage.Modbus

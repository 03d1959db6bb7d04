import RemoteManage.Modbus.SerialPort

/-!
# The Modbus ASCII stack

`mbascii.c`: a frame is sent as a colon, two hexadecimal digits for each byte, and the two characters that end
the line. Each call of one of its functions by the port layer or by the poll loop is one step. A function
that fails its assertion ends the program: the state remembers which one, and no step follows.

The receiver writes its bytes as the digits arrive, without a second buffer. What the buffer holds when a
frame is reported, and when one is, is read off the characters that have arrived.
-/

namespace RemoteManage.Modbus

open RemoteManage.Foundation

namespace MbAscii

/-- `':'`. -/
def colon : UInt8 := 58

/-- `MB_ASCII_DEFAULT_CR`. -/
def carriageReturn : UInt8 := 13

/-- `ucMBLFCharacter`, which nothing but `eMBASCIIInit` sets. -/
def lineFeed : UInt8 := 10

/-- `MB_SER_PDU_SIZE_MIN`. -/
abbrev asciiPduSizeMin : ℕ := 3

/-- `eMBRcvState`. -/
inductive RcvState where
  | rxIdle
  | rxRcv
  | rxWaitEof
  deriving DecidableEq, Repr

/-- `eMBSndState`. -/
inductive SndState where
  | txIdle
  | txStart
  | txData
  | txEnd
  | txNotify
  deriving DecidableEq, Repr

/-- `eMBBytePos`. -/
inductive BytePos where
  | highNibble
  | lowNibble
  deriving DecidableEq, Repr

/-- The functions that check an assertion. -/
inductive Assertion where
  | receive
  | receiveFSM
  | transmitFSM
  | timerT1SExpired
  deriving DecidableEq, Repr

/-- `prvucMBCHAR2BIN`: a character that is no digit has all bits set. -/
def prvucMBCHAR2BIN (ucCharacter : UInt8) : UInt8 :=
  if ucCharacter ≥ 48 ∧ ucCharacter ≤ 57 then ucCharacter - 48
  else if ucCharacter ≥ 65 ∧ ucCharacter ≤ 70 then ucCharacter - 65 + 0x0A
  else 0xFF

/-- `prvucMBBIN2CHAR`, on the half of a byte. -/
def prvucMBBIN2CHAR (ucByte : UInt8) : UInt8 :=
  if ucByte ≤ 0x09 then 48 + ucByte else ucByte - 0x0A + 65

/-- `prvucMBLRC`. -/
def prvucMBLRC (pucFrame : List UInt8) : UInt8 := -(pucFrame.foldl (· + ·) 0)

end MbAscii

/-- The static variables of `mbascii.c` with the buffer of `mbrtu.c`, the timer, the events that are waiting
and the characters put so far. -/
structure MbAscii where
  eSndState : MbAscii.SndState
  eRcvState : MbAscii.RcvState
  eBytePos : MbAscii.BytePos
  ucRTUBuf : FixedBuffer UInt8 mbSerPduSizeMax
  usRcvBufferPos : ℕ
  pucSndBufferCur : ℕ
  usSndBufferCount : ℕ
  timer : Bool
  queue : List EventType
  put : List UInt8
  failed : Option MbAscii.Assertion

namespace MbAscii

/-- The program ends at an assertion. -/
def fail (s : MbAscii) (assertion : Assertion) : MbAscii := { s with failed := some assertion }

/-- `xMBPortEventPost`. -/
def xMBPortEventPost (s : MbAscii) (eEvent : EventType) : MbAscii := { s with queue := s.queue ++ [eEvent] }

/-- `xMBPortSerialPutByte`. -/
def xMBPortSerialPutByte (s : MbAscii) (ucByte : UInt8) : MbAscii := { s with put := s.put ++ [ucByte] }

/-- The stack after `eMBASCIIStart`. -/
def start (ucRTUBuf : Vector UInt8 mbSerPduSizeMax) : MbAscii :=
  ⟨.txIdle, .rxIdle, .highNibble, ⟨ucRTUBuf, false⟩, 0, 0, 0, false, [.ready], [], none⟩

/-- A colon empties the receive buffer. -/
def restart (s : MbAscii) : MbAscii :=
  { s with eRcvState := .rxRcv, eBytePos := .highNibble, usRcvBufferPos := 0, timer := true }

/-- The data characters of `STATE_RX_RCV`. -/
def receiveData (s : MbAscii) (ucByte : UInt8) : MbAscii :=
  let ucResult := prvucMBCHAR2BIN ucByte
  match s.eBytePos with
  | .highNibble =>
    if s.usRcvBufferPos < mbSerPduSizeMax then
      { s with
        ucRTUBuf := s.ucRTUBuf.write s.usRcvBufferPos (ucResult <<< 4)
        eBytePos := .lowNibble
        timer := true }
    else { s with eRcvState := .rxIdle, timer := false }
  | .lowNibble =>
    { s with
      ucRTUBuf := s.ucRTUBuf.write s.usRcvBufferPos (s.ucRTUBuf.read s.usRcvBufferPos ||| ucResult)
      usRcvBufferPos := s.usRcvBufferPos + 1
      eBytePos := .highNibble
      timer := true }

/-- `xMBASCIIReceiveFSM`, with the character that `xMBPortSerialGetByte` gives. -/
def xMBASCIIReceiveFSM (s : MbAscii) (ucByte : UInt8) : MbAscii :=
  if s.eSndState ≠ .txIdle then s.fail .receiveFSM
  else
    match s.eRcvState with
    | .rxRcv =>
      if ucByte = colon then s.restart
      else if ucByte = carriageReturn then { s with eRcvState := .rxWaitEof, timer := true }
      else s.receiveData ucByte
    | .rxWaitEof =>
      if ucByte = lineFeed then
        { s with eRcvState := .rxIdle, timer := false }.xMBPortEventPost .frameReceived
      else if ucByte = colon then s.restart
      -- the frame is given up with its timer still running
      else { s with eRcvState := .rxIdle }
    | .rxIdle => if ucByte = colon then s.restart else s

/-- `xMBASCIITimerT1SExpired`. -/
def xMBASCIITimerT1SExpired (s : MbAscii) : MbAscii :=
  if s.eRcvState = .rxIdle then s.fail .timerT1SExpired else { s with eRcvState := .rxIdle, timer := false }

/-- `xMBASCIITransmitFSM`. -/
def xMBASCIITransmitFSM (s : MbAscii) : MbAscii :=
  if s.eRcvState ≠ .rxIdle then s.fail .transmitFSM
  else
    match s.eSndState with
    | .txStart =>
      { s with eSndState := .txData, eBytePos := .highNibble }.xMBPortSerialPutByte colon
    | .txData =>
      if s.usSndBufferCount > 0 then
        match s.eBytePos with
        | .highNibble =>
          { s with eBytePos := .lowNibble }.xMBPortSerialPutByte
            (prvucMBBIN2CHAR (s.ucRTUBuf.read s.pucSndBufferCur >>> 4))
        | .lowNibble =>
          { s with
            pucSndBufferCur := s.pucSndBufferCur + 1
            eBytePos := .highNibble
            usSndBufferCount := s.usSndBufferCount - 1 }.xMBPortSerialPutByte
            (prvucMBBIN2CHAR (s.ucRTUBuf.read s.pucSndBufferCur &&& 0x0F))
      else { s with eSndState := .txEnd }.xMBPortSerialPutByte carriageReturn
    | .txEnd => { s with eSndState := .txNotify }.xMBPortSerialPutByte lineFeed
    | .txNotify => { s with eSndState := .txIdle }.xMBPortEventPost .frameSent
    | .txIdle => s

/-- What the assertion of `eMBASCIIReceive` says. -/
def Receivable (s : MbAscii) : Prop := s.usRcvBufferPos < mbSerPduSizeMax

instance (s : MbAscii) : Decidable s.Receivable := inferInstanceAs (Decidable (_ < _))

/-- `eMBASCIIReceive` behind its assertion: the address and the length of the PDU, which begins at the second
cell of the buffer. There is none when the status is `MB_EIO`. -/
def eMBASCIIReceive (s : MbAscii) : Option (UInt8 × ℕ) :=
  if s.usRcvBufferPos ≥ asciiPduSizeMin ∧ prvucMBLRC (s.ucRTUBuf.contents s.usRcvBufferPos) = 0 then
    some (s.ucRTUBuf.read 0, s.usRcvBufferPos - 1 - 1)
  else none

/-- `eMBASCIISend` of a PDU of the given length, which lies behind the first cell of the buffer; it is not
sent while a frame is received. -/
def eMBASCIISend (s : MbAscii) (ucSlaveAddress : UInt8) (usLength : ℕ) : MbAscii :=
  if s.eRcvState = .rxIdle then
    let ucRTUBuf := s.ucRTUBuf.write 0 ucSlaveAddress
    { s with
      ucRTUBuf := ucRTUBuf.write (1 + usLength) (prvucMBLRC (ucRTUBuf.contents (1 + usLength)))
      pucSndBufferCur := 0
      usSndBufferCount := 1 + usLength + 1
      eSndState := .txStart }
  else s

/-- What the line and the timer do to the receiver. -/
inductive RcvEvent where
  | character (ucByte : UInt8)
  | expiry
  deriving DecidableEq, Repr

/-- One step of the receiver; the timer expires only when it runs. -/
def rcvStep (s : MbAscii) (e : RcvEvent) : Option MbAscii :=
  if s.failed.isSome then none
  else
    match e with
    | .character ucByte => some (s.xMBASCIIReceiveFSM ucByte)
    | .expiry => if s.timer then some s.xMBASCIITimerT1SExpired else none

/-- The characters of pairs of digits. -/
def pairText (pairs : List (UInt8 × UInt8)) : List UInt8 := pairs.flatMap fun p => [p.1, p.2]

/-- The byte of a pair of digits. -/
def pairByte (p : UInt8 × UInt8) : UInt8 := prvucMBCHAR2BIN p.1 <<< 4 ||| prvucMBCHAR2BIN p.2

/-- There are two characters for each pair. -/
theorem pairText_length (pairs : List (UInt8 × UInt8)) : (pairText pairs).length = 2 * pairs.length := by
  induction pairs with
  | nil => rfl
  | cons p pairs ih =>
    rw [pairText, List.flatMap_cons, List.length_append, ← pairText, ih, List.length_cons]
    exact (Nat.add_comm _ _).trans (Nat.mul_succ 2 _).symm

/-- The buffer holds the bytes of the data characters since the colon, and the first half of one more. -/
inductive Holds (s : MbAscii) : List UInt8 → Prop where
  | whole (pairs : List (UInt8 × UInt8)) (hnibble : s.eBytePos = .highNibble)
      (hpos : s.usRcvBufferPos = pairs.length) (hroom : pairs.length ≤ mbSerPduSizeMax)
      (hcontents : s.ucRTUBuf.contents pairs.length = pairs.map pairByte) : Holds s (pairText pairs)
  | half (pairs : List (UInt8 × UInt8)) (c : UInt8) (hnibble : s.eBytePos = .lowNibble)
      (hpos : s.usRcvBufferPos = pairs.length) (hroom : pairs.length < mbSerPduSizeMax)
      (hcontents : s.ucRTUBuf.contents pairs.length = pairs.map pairByte)
      (hhigh : s.ucRTUBuf.read pairs.length = prvucMBCHAR2BIN c <<< 4) : Holds s (pairText pairs ++ [c])

/-- A data character that has room is added to those the buffer holds. -/
theorem Holds.receiveData {s : MbAscii} {body : List UInt8} (h : s.Holds body) (c : UInt8)
    (hroom : body.length < 2 * mbSerPduSizeMax) :
    (s.receiveData c).Holds (body ++ [c]) ∧
      (s.receiveData c).ucRTUBuf.overrun = s.ucRTUBuf.overrun ∧
      s.receiveData c =
        { s with
          eBytePos := (s.receiveData c).eBytePos
          ucRTUBuf := (s.receiveData c).ucRTUBuf
          usRcvBufferPos := (s.receiveData c).usRcvBufferPos
          timer := true } := by
  cases h with
  | whole pairs hnibble hpos _ hcontents =>
    rw [pairText_length] at hroom
    have hlt : pairs.length < mbSerPduSizeMax := Nat.lt_of_mul_lt_mul_left hroom
    have heq : s.receiveData c = { s with
        ucRTUBuf := s.ucRTUBuf.write pairs.length (prvucMBCHAR2BIN c <<< 4)
        eBytePos := .lowNibble
        timer := true } := by
      rw [MbAscii.receiveData, hnibble, hpos]
      exact if_pos hlt
    rw [heq]
    refine ⟨.half pairs c rfl hpos hlt ?_ ?_, s.ucRTUBuf.write_overrun _ hlt, rfl⟩
    · exact (s.ucRTUBuf.write_contents_of_le _ (Nat.le_refl _)).trans hcontents
    · exact (s.ucRTUBuf.read_write _ hlt _).trans (if_pos rfl)
  | half pairs high hnibble hpos hlt hcontents hhigh =>
    have heq : s.receiveData c = { s with
        ucRTUBuf := s.ucRTUBuf.write pairs.length (pairByte (high, c))
        usRcvBufferPos := pairs.length + 1
        eBytePos := .highNibble
        timer := true } := by
      rw [MbAscii.receiveData, hnibble]
      dsimp only
      rw [hpos, hhigh]
      rfl
    have htext : pairText pairs ++ [high] ++ [c] = pairText (pairs ++ [(high, c)]) := by
      rw [pairText, pairText, List.flatMap_append, List.append_assoc]
      rfl
    have hlength : (pairs ++ [(high, c)]).length = pairs.length + 1 := List.length_append
    rw [heq, htext]
    refine ⟨.whole _ rfl hlength.symm ?_ ?_, s.ucRTUBuf.write_overrun _ hlt, rfl⟩
    · rw [hlength]
      exact hlt
    · rw [hlength, List.map_append, ← hcontents]
      exact s.ucRTUBuf.write_contents_succ _ hlt

/-- A data character for which there is no room ends the frame. -/
theorem Holds.receiveData_full {s : MbAscii} {body : List UInt8} (h : s.Holds body) (c : UInt8)
    (hfull : 2 * mbSerPduSizeMax ≤ body.length) :
    s.receiveData c = { s with eRcvState := .rxIdle, timer := false } := by
  cases h with
  | whole pairs hnibble hpos hroom _ =>
    rw [pairText_length] at hfull
    rw [MbAscii.receiveData, hnibble, hpos]
    exact if_neg (by omega)
  | half pairs high hnibble hpos hlt _ _ =>
    rw [List.length_append, pairText_length, List.length_singleton] at hfull
    omega

/-- The buffer holds as many characters as it has room for. -/
theorem Holds.length_le {s : MbAscii} {body : List UInt8} (h : s.Holds body) :
    body.length ≤ 2 * mbSerPduSizeMax := by
  cases h with
  | whole pairs _ _ hroom _ =>
    rw [pairText_length]
    omega
  | half pairs _ _ _ hlt _ _ =>
    rw [List.length_append, pairText_length, List.length_singleton]
    omega

/-- What the buffer holds depends on the buffer and its position only. -/
theorem Holds.congr {s t : MbAscii} {body : List UInt8} (h : s.Holds body) (hnibble : t.eBytePos = s.eBytePos)
    (hbuf : t.ucRTUBuf = s.ucRTUBuf) (hpos : t.usRcvBufferPos = s.usRcvBufferPos) : t.Holds body := by
  cases h with
  | whole pairs hn hp hroom hcontents =>
    exact .whole pairs (hnibble.trans hn) (hpos.trans hp) hroom (hbuf ▸ hcontents)
  | half pairs c hn hp hroom hcontents hhigh =>
    exact .half pairs c (hnibble.trans hn) (hpos.trans hp) hroom (hbuf ▸ hcontents) (hbuf ▸ hhigh)

/-- The bytes of data characters, two for each; a last one alone is not counted. -/
def hexBytes : List UInt8 → List UInt8
  | high :: low :: rest => pairByte (high, low) :: hexBytes rest
  | _ => []

/-- Whole pairs give their bytes, with or without one more character. -/
theorem hexBytes_pairText (pairs : List (UInt8 × UInt8)) {rest : List UInt8} (hrest : hexBytes rest = []) :
    hexBytes (pairText pairs ++ rest) = pairs.map pairByte := by
  induction pairs with
  | nil => exact hrest
  | cons p pairs ih => exact congrArg (pairByte p :: ·) ih

/-- What the buffer holds are the bytes of the data characters. -/
theorem Holds.contents {s : MbAscii} {body : List UInt8} (h : s.Holds body) :
    s.usRcvBufferPos = body.length / 2 ∧ s.ucRTUBuf.contents s.usRcvBufferPos = hexBytes body := by
  cases h with
  | whole pairs _ hpos _ hcontents =>
    rw [hpos, pairText_length, Nat.mul_div_cancel_left _ Nat.two_pos]
    refine ⟨rfl, hcontents.trans ?_⟩
    rw [← List.append_nil (pairText pairs), hexBytes_pairText pairs rfl]
  | half pairs c _ hpos _ hcontents _ =>
    rw [hpos, List.length_append, pairText_length, List.length_singleton]
    exact ⟨by omega, hcontents.trans (@hexBytes_pairText pairs [c] rfl).symm⟩

/-- Data characters: they begin no frame and end none. -/
def IsText (body : List UInt8) : Prop := ∀ c ∈ body, c ≠ colon ∧ c ≠ carriageReturn

instance (body : List UInt8) : Decidable (IsText body) := List.decidableBAll _ body

/-- The characters of a frame. -/
def frameText (body : List UInt8) : List UInt8 := colon :: body ++ [carriageReturn, lineFeed]

/-- Characters arrive one after the other. -/
def characters (text : List UInt8) : List RcvEvent := text.map .character

/-- The receiver has been given the colon of a frame and some data characters; apart from the receive buffer
and its position nothing is different from before the colon. -/
structure Receiving (base s : MbAscii) (body : List UInt8) : Prop where
  kept : s = { base with
    eRcvState := .rxRcv
    eBytePos := s.eBytePos
    ucRTUBuf := s.ucRTUBuf
    usRcvBufferPos := s.usRcvBufferPos
    timer := true }
  intact : s.ucRTUBuf.overrun = base.ucRTUBuf.overrun
  held : s.Holds body

/-- The colon. -/
theorem restart_receiving (base : MbAscii) : base.Receiving base.restart [] :=
  ⟨rfl, rfl, .whole [] rfl rfl (Nat.zero_le _) rfl⟩

/-- A receiver that is not sending takes a character. -/
theorem rcvStep_character {s : MbAscii} (hfailed : s.failed = none) (c : UInt8) :
    rcvStep s (.character c) = some (s.xMBASCIIReceiveFSM c) := by
  rw [rcvStep, hfailed]
  rfl

/-- A colon begins a frame, whatever the receiver is doing. -/
theorem xMBASCIIReceiveFSM_colon {s : MbAscii} (hidle : s.eSndState = .txIdle) :
    s.xMBASCIIReceiveFSM colon = s.restart := by
  rw [xMBASCIIReceiveFSM, if_neg (not_not.mpr hidle)]
  cases s.eRcvState with
  | rxIdle => rfl
  | rxRcv => rfl
  | rxWaitEof => rfl

section Frame

variable {base s : MbAscii} {body : List UInt8}

/-- One more data character. -/
theorem Receiving.character (h : base.Receiving s body) (hidle : base.eSndState = .txIdle) {c : UInt8}
    (hc : c ≠ colon ∧ c ≠ carriageReturn) (hroom : body.length < 2 * mbSerPduSizeMax) :
    base.Receiving (s.xMBASCIIReceiveFSM c) (body ++ [c]) := by
  have hsnd : s.eSndState = .txIdle := by rw [h.kept, hidle]
  have hrcv : s.eRcvState = .rxRcv := by rw [h.kept]
  have hfsm : s.xMBASCIIReceiveFSM c = s.receiveData c := by
    rw [xMBASCIIReceiveFSM, if_neg (not_not.mpr hsnd), hrcv]
    dsimp only
    rw [if_neg hc.1, if_neg hc.2]
  obtain ⟨hheld, hintact, hkept⟩ := h.held.receiveData c hroom
  rw [hfsm]
  refine ⟨hkept.trans ?_, hintact.trans h.intact, hheld⟩
  generalize s.receiveData c = t
  rw [h.kept]

/-- Data characters that have room. -/
theorem Receiving.text (h : base.Receiving s body) (hfailed : base.failed = none)
    (hidle : base.eSndState = .txIdle) {text : List UInt8} (htext : IsText text)
    (hroom : (body ++ text).length ≤ 2 * mbSerPduSizeMax) :
    ∃ t, Transition.run rcvStep s (characters text) = some t ∧ base.Receiving t (body ++ text) := by
  induction text generalizing s body with
  | nil => exact ⟨s, rfl, (List.append_nil body).symm ▸ h⟩
  | cons c text ih =>
    have hok : s.failed = none := by rw [h.kept, hfailed]
    have hcons : body ++ c :: text = body ++ [c] ++ text := List.append_cons body c text
    rw [hcons] at hroom ⊢
    rw [List.length_append, List.length_append, List.length_singleton] at hroom
    have hnext := h.character hidle (htext c List.mem_cons_self) (by omega)
    obtain ⟨t, hrun, ht⟩ := ih hnext (fun d hd => htext d (List.mem_cons_of_mem c hd)) (by
      rw [List.length_append, List.length_append, List.length_singleton]
      omega)
    exact ⟨t, Transition.run_cons_eq_some.mpr ⟨_, rcvStep_character hok c, hrun⟩, ht⟩

end Frame

end MbAscii

end RemoteManage.Modbus

import RemoteManage.Modbus.AsciiReceiver

/-!
# What the ASCII transmitter puts

A reply is put as the text of its bytes: a colon, two digits for each byte, and the two characters of the end
of the line. Each call of the transmitter takes it further with that text, until it reports that the frame is
sent.
-/

namespace RemoteManage.Modbus.MbAscii

open RemoteManage.Foundation

/-- The two digits of a byte. -/
def hexDigits (x : UInt8) : List UInt8 := [prvucMBBIN2CHAR (x >>> 4), prvucMBBIN2CHAR (x &&& 0x0F)]

/-- The digits of some bytes. -/
def hexText (bytes : List UInt8) : List UInt8 := bytes.flatMap hexDigits

/-- The text that sends some bytes. -/
def asciiText (bytes : List UInt8) : List UInt8 := frameText (hexText bytes)

/-- The bytes that are sent for a PDU: the address, the PDU and the checksum. -/
def serialPdu (ucSlaveAddress : UInt8) (pdu : List UInt8) : List UInt8 :=
  ucSlaveAddress :: pdu ++ [prvucMBLRC (ucSlaveAddress :: pdu)]

/-- The digits of one more byte. -/
theorem hexText_append (bytes : List UInt8) (x : UInt8) :
    hexText (bytes ++ [x]) = hexText bytes ++ hexDigits x := by
  rw [hexText, hexText, List.flatMap_append, List.flatMap_singleton]

/-- How far the transmitter is with the text of a frame; apart from what it works with, nothing is different
from when it was started. -/
inductive Sending (base s : MbAscii) (frame : List UInt8) : Prop where
  | colon (hstate : s = { base with
        eSndState := .txStart
        pucSndBufferCur := 0
        usSndBufferCount := frame.length })
  | high (sent rest : List UInt8) (hframe : frame = sent ++ rest)
      (hstate : s = { base with
        eSndState := .txData
        eBytePos := .highNibble
        pucSndBufferCur := sent.length
        usSndBufferCount := rest.length
        put := base.put ++ MbAscii.colon :: hexText sent })
  | low (sent : List UInt8) (x : UInt8) (rest : List UInt8) (hframe : frame = sent ++ x :: rest)
      (hstate : s = { base with
        eSndState := .txData
        eBytePos := .lowNibble
        pucSndBufferCur := sent.length
        usSndBufferCount := rest.length + 1
        put := base.put ++ MbAscii.colon :: hexText sent ++ [prvucMBBIN2CHAR (x >>> 4)] })
  | lineFeed (hstate : s = { base with
        eSndState := .txEnd
        eBytePos := .highNibble
        pucSndBufferCur := frame.length
        usSndBufferCount := 0
        put := base.put ++ MbAscii.colon :: hexText frame ++ [carriageReturn] })
  | notify (hstate : s = { base with
        eSndState := .txNotify
        eBytePos := .highNibble
        pucSndBufferCur := frame.length
        usSndBufferCount := 0
        put := base.put ++ asciiText frame })

/-- A frame has been sent; apart from what the transmitter works with, nothing is different from before. -/
def Sent (base s : MbAscii) (frame : List UInt8) : Prop :=
  s = { base with
    eSndState := .txIdle
    eBytePos := .highNibble
    pucSndBufferCur := frame.length
    usSndBufferCount := 0
    put := base.put ++ asciiText frame
    queue := base.queue ++ [.frameSent] }

/-- While a frame is sent nothing changes but what the transmitter works with. -/
theorem Sending.kept {base s : MbAscii} {frame : List UInt8} (h : base.Sending s frame) :
    s.eSndState ≠ .txIdle ∧ s.eRcvState = base.eRcvState ∧ s.queue = base.queue ∧ s.timer = base.timer ∧
      s.failed = base.failed ∧ s.ucRTUBuf = base.ucRTUBuf := by
  cases h with
  | colon hstate => exact hstate ▸ ⟨nofun, rfl, rfl, rfl, rfl, rfl⟩
  | high _ _ _ hstate => exact hstate ▸ ⟨nofun, rfl, rfl, rfl, rfl, rfl⟩
  | low _ _ _ _ hstate => exact hstate ▸ ⟨nofun, rfl, rfl, rfl, rfl, rfl⟩
  | lineFeed hstate => exact hstate ▸ ⟨nofun, rfl, rfl, rfl, rfl, rfl⟩
  | notify hstate => exact hstate ▸ ⟨nofun, rfl, rfl, rfl, rfl, rfl⟩

/-- What has been put of a frame is the beginning of its text. -/
theorem Sending.put_prefix {base s : MbAscii} {frame : List UInt8} (h : base.Sending s frame) :
    s.put <+: base.put ++ asciiText frame := by
  have htext (sent rest : List UInt8) (hframe : frame = sent ++ rest) :
      asciiText frame =
        MbAscii.colon :: hexText sent ++ (hexText rest ++ [carriageReturn, MbAscii.lineFeed]) := by
    rw [asciiText, frameText, hframe, hexText, List.flatMap_append, ← hexText, ← hexText, List.cons_append,
      List.append_assoc, List.cons_append]
  cases h with
  | colon hstate =>
    subst hstate
    exact List.prefix_append _ _
  | high sent rest hframe hstate =>
    subst hstate
    rw [htext sent rest hframe]
    exact (List.prefix_append_right_inj _).mpr (List.prefix_append _ _)
  | low sent x rest hframe hstate =>
    subst hstate
    rw [htext sent (x :: rest) hframe]
    dsimp only
    rw [List.append_assoc]
    refine (List.prefix_append_right_inj _).mpr ((List.prefix_append_right_inj _).mpr ?_)
    exact (List.prefix_append [prvucMBBIN2CHAR (x >>> 4)] _)
  | lineFeed hstate =>
    subst hstate
    rw [htext frame [] (List.append_nil frame).symm]
    dsimp only
    rw [List.append_assoc]
    exact (List.prefix_append_right_inj _).mpr ((List.prefix_append_right_inj _).mpr (List.prefix_append _ _))
  | notify hstate =>
    subst hstate
    exact List.prefix_rfl

/-- Each call takes the transmitter further with the text, and the last one reports that it is sent. -/
theorem Sending.transmit {base s : MbAscii} {frame : List UInt8} (h : base.Sending s frame)
    (hrcv : base.eRcvState = .rxIdle) (hcontents : base.ucRTUBuf.contents frame.length = frame) :
    base.Sending s.xMBASCIITransmitFSM frame ∨ base.Sent s.xMBASCIITransmitFSM frame := by
  have hguard {t : MbAscii} (ht : t.eRcvState = base.eRcvState) : ¬ t.eRcvState ≠ .rxIdle := by
    rw [ht]
    exact not_not.mpr hrcv
  have hread {sent rest : List UInt8} {x : UInt8} (hframe : frame = sent ++ x :: rest) :
      base.ucRTUBuf.read sent.length = x := by
    have hlt : sent.length < frame.length := by
      rw [hframe, List.length_append, List.length_cons]
      omega
    rw [base.ucRTUBuf.read_eq_of_contents hcontents hlt 0, hframe, List.getD_append_right _ _ _ _ (le_refl _),
      Nat.sub_self]
    rfl
  cases h with
  | colon hstate =>
    subst hstate
    refine .inl (.high [] frame rfl ?_)
    rw [xMBASCIITransmitFSM, if_neg (hguard rfl)]
    rfl
  | high sent rest hframe hstate =>
    subst hstate
    rw [xMBASCIITransmitFSM, if_neg (hguard rfl)]
    cases rest with
    | nil =>
      rw [List.append_nil] at hframe
      subst hframe
      exact .inl (.lineFeed rfl)
    | cons x rest =>
      refine .inl (.low sent x rest hframe ?_)
      dsimp only [xMBPortSerialPutByte]
      rw [List.length_cons, if_pos (Nat.succ_pos _), hread hframe]
  | low sent x rest hframe hstate =>
    subst hstate
    refine .inl (.high (sent ++ [x]) rest (by rw [hframe, List.append_assoc, List.singleton_append]) ?_)
    rw [xMBASCIITransmitFSM, if_neg (hguard rfl)]
    dsimp only [xMBPortSerialPutByte]
    rw [if_pos (Nat.succ_pos _), hread hframe, List.length_append, hexText_append, Nat.add_sub_cancel,
      List.append_assoc, List.append_assoc, List.cons_append]
    rfl
  | lineFeed hstate =>
    subst hstate
    refine .inl (.notify ?_)
    rw [xMBASCIITransmitFSM, if_neg (hguard rfl)]
    dsimp only [xMBPortSerialPutByte]
    rw [asciiText, frameText, List.append_assoc, List.append_assoc]
    rfl
  | notify hstate =>
    subst hstate
    refine .inr ?_
    rw [xMBASCIITransmitFSM, if_neg (hguard rfl)]
    rfl

/-- How many calls the transmitter needs at most until it has reported the end of a frame. -/
def remaining (s : MbAscii) : ℕ :=
  match s.eSndState with
  | .txIdle => 0
  | .txNotify => 1
  | .txEnd => 2
  | .txData => 4 + 2 * s.usSndBufferCount - if s.eBytePos = .lowNibble then 1 else 0
  | .txStart => 5 + 2 * s.usSndBufferCount

/-- Each call brings the transmitter nearer to the end of the frame. -/
theorem remaining_transmit_lt {s : MbAscii} (hrcv : s.eRcvState = .rxIdle) (hbusy : s.eSndState ≠ .txIdle) :
    s.xMBASCIITransmitFSM.remaining < s.remaining := by
  rw [xMBASCIITransmitFSM, if_neg (not_not.mpr hrcv)]
  cases hsnd : s.eSndState with
  | txIdle => contradiction
  | txStart =>
    rw [remaining, remaining, hsnd]
    dsimp only [xMBPortSerialPutByte]
    omega
  | txData =>
    rw [remaining.eq_def s, hsnd]
    dsimp only
    split
    case isTrue hcount =>
      cases hnibble : s.eBytePos with
      | highNibble =>
        simp only [remaining, xMBPortSerialPutByte, reduceCtorEq, if_false, if_true]
        omega
      | lowNibble =>
        simp only [remaining, xMBPortSerialPutByte, reduceCtorEq, if_false, if_true]
        omega
    case isFalse hcount =>
      rw [remaining]
      dsimp only [xMBPortSerialPutByte]
      split <;> omega
  | txEnd =>
    rw [remaining, remaining, hsnd]
    exact Nat.one_lt_two
  | txNotify =>
    rw [remaining, remaining, hsnd]
    exact Nat.one_pos

end RemoteManage.Modbus.MbAscii

import RemoteManage.CanNet.CrcDetection
import RemoteManage.MainProcess.FrameStream

/-!
# Frames with errors of the line

A frame arrives as it was sent, or with errors in its body and its checksum. As long as the head and the
length byte arrive, a frame whose error the checksum detects is given up at its last byte, and the frames
behind it are received as if it had not been sent. The two bytes of the checksum are sent in the other order
than the one in which the register would take them, so that a burst that runs from the body into
the checksum is only known to be detected when it is short.
-/

namespace RemoteManage.MainProcess

open RemoteManage.Foundation RemoteManage.CanNet
open RemoteManage.Common

/-- Bytes that begin with the head and are as long as they announce. -/
structure Announced (g : List UInt8) : Prop where
  head : ∃ rest, g = packedHead0 :: packedHead1 :: rest
  length : g.length = frameLength g

namespace Announced

variable {g : List UInt8}

/-- A first part is not as long as it announces. -/
theorem length_ne_of_prefix (h : Announced g) {held rest : List UInt8} (hg : g = held ++ rest)
    (hrest : rest ≠ []) : held.length ≠ frameLength held := by
  have hlength := h.length
  have hpos := List.length_pos_iff.mpr hrest
  by_cases hlong : 6 ≤ held.length
  · have hsame : frameLength g = frameLength held := by
      rw [hg, frameLength, frameLength, List.getD_append _ _ _ _ (by omega)]
    rw [hsame, hg, List.length_append] at hlength
    omega
  · simp only [frameLength, protocolFrameLength]
    omega

/-- They are held byte by byte. -/
theorem hold (h : Announced g) (held : List UInt8) (x : UInt8) (rest : List UInt8)
    (hg : g = held ++ x :: rest) (hrest : rest ≠ []) : protocolDecoder held x = .hold (held ++ [x]) := by
  obtain ⟨tail, htail⟩ := h.head
  rw [htail] at hg
  match held with
  | [] =>
    obtain ⟨rfl, -⟩ := List.cons.inj hg
    rfl
  | [first] =>
    obtain ⟨rfl, hsecond⟩ := List.cons.inj hg
    obtain ⟨rfl, -⟩ := List.cons.inj hsecond
    rfl
  | first :: second :: held =>
    obtain ⟨rfl, hsecond⟩ := List.cons.inj hg
    obtain ⟨rfl, htail'⟩ := List.cons.inj hsecond
    have hsplit : g = (packedHead0 :: packedHead1 :: held ++ [x]) ++ rest := by
      rw [htail, htail', List.append_assoc]
      rfl
    have hne := h.length_ne_of_prefix hsplit hrest
    rw [protocolDecoder_data]
    exact if_neg hne

/-- The last byte completes them when the checksum agrees. -/
theorem last (h : Announced g) (held : List UInt8) (x : UInt8) (hg : g = held ++ [x]) :
    protocolDecoder held x = if storedCrc g = computedCrc g then .frame g else .reject := by
  have hlength := h.length
  obtain ⟨tail, htail⟩ := h.head
  match held with
  | [] =>
    rw [htail] at hg
    exact absurd (List.cons.inj hg).2 (List.cons_ne_nil _ _)
  | [first] =>
    simp only [hg, frameLength, protocolFrameLength, List.length_append, List.length_cons, List.length_nil]
      at hlength
    omega
  | first :: second :: held =>
    obtain ⟨rfl, hsecond⟩ := List.cons.inj (htail.symm.trans hg)
    obtain ⟨rfl, -⟩ := List.cons.inj hsecond
    rw [protocolDecoder_data, ← hg]
    exact if_pos hlength

/-- With the right checksum they are read. -/
theorem reads (h : Announced g) (hcrc : storedCrc g = computedCrc g) : protocolDecoder.Reads g where
  ne_nil := by
    obtain ⟨tail, rfl⟩ := h.head
    exact List.cons_ne_nil _ _
  hold := h.hold
  complete held x hg := (h.last held x hg).trans (if_pos hcrc)

/-- With a wrong one they are given up. -/
theorem drops (h : Announced g) (hcrc : storedCrc g ≠ computedCrc g) : protocolDecoder.Drops g where
  ne_nil := by
    obtain ⟨tail, rfl⟩ := h.head
    exact List.cons_ne_nil _ _
  hold := h.hold
  giveUp held x hg := (h.last held x hg).trans (if_neg hcrc)

end Announced

/-- A frame on the line, and the errors in its body and in its checksum, none of them in the length byte: an
odd number of bits, two bits, or some of eight consecutive bits as they are sent, the high byte of the
checksum first; or, when the checksum arrives as it is, some of sixteen consecutive bits of the body. -/
structure LineFrame where
  frame : Frame
  error : List UInt8
  crcError : UInt16
  length_eq : error.length = frame.body.length
  keepsLength : error.getD 3 0 = 0
  detectable : ((∀ b ∈ error, b = 0) ∧ crcError = 0) ∨
    Detectable 8 (lineBits (error ++ [highByte crcError, lowByte crcError])) ∨
    crcError = 0 ∧ Detectable 16 (lineBits error)

namespace LineFrame

/-- The bytes that arrive. -/
def wire (l : LineFrame) : List UInt8 :=
  [packedHead0, packedHead1] ++ xorBytes l.frame.body l.error ++
    [highByte (calculateCrc l.frame.body ^^^ l.crcError), lowByte (calculateCrc l.frame.body ^^^ l.crcError)]

/-- The frame has arrived without errors. -/
def whole (l : LineFrame) : Bool := (l.error.all (· = 0)) && l.crcError = 0

variable (l : LineFrame)

/-- A frame without errors arrives as it was encoded. -/
theorem wire_of_whole (h : l.whole = true) : l.wire = l.frame.encode := by
  rw [whole, Bool.and_eq_true, List.all_eq_true, decide_eq_true_iff] at h
  rw [wire, xorBytes_of_zero l.length_eq.symm fun b hb => of_decide_eq_true (h.1 b hb), h.2, UInt16.xor_zero]
  rfl

/-- The errors leave the length of a frame alone. -/
theorem announced : Announced l.wire where
  head := ⟨_, rfl⟩
  length := by
    have hbody : 4 ≤ l.frame.body.length := by
      rw [Frame.body_length]
      exact Nat.le_add_left 4 _
    have hlength : l.wire.length = l.frame.encode.length := by
      simp only [wire, Frame.encode, xorBytes, List.length_append, List.length_zipWith, l.length_eq,
        Nat.min_self, List.length_cons, List.length_nil]
    have hfive : l.wire.getD 5 0 = l.frame.encode.getD 5 0 := by
      obtain ⟨a, b, c, d, payload, hb⟩ := exists_cons_four l.frame.body hbody
      obtain ⟨e0, e1, e2, e3, rest, he⟩ := exists_cons_four l.error (l.length_eq ▸ hbody)
      have hkept := l.keepsLength
      rw [he] at hkept
      rw [wire, Frame.encode, hb, he]
      change d ^^^ e3 = d
      rw [show e3 = 0 from hkept, UInt8.xor_zero]
    rw [hlength, frameLength, hfive]
    exact (frameLength_encode l.frame).symm

/-- The errors are detected in the order in which the register takes the bytes. -/
theorem detected (h : ¬ ((∀ b ∈ l.error, b = 0) ∧ l.crcError = 0)) :
    Detectable 16 (lineBits (l.error ++ [lowByte l.crcError, highByte l.crcError])) := by
  obtain hsent | ⟨hzero, hbody⟩ := l.detectable.resolve_left h
  · rw [lineBits_append, ← List.singleton_append, lineBits_append] at hsent ⊢
    exact @Detectable.swap_words 8 _ _ _ (lineBits_length [_]) (lineBits_length [_]) hsent
  · rw [lineBits_append, hzero]
    exact hbody.append_false 16

/-- The checksum agrees exactly when the frame has no errors. -/
theorem crc_iff : storedCrc l.wire = computedCrc l.wire ↔ l.whole = true := by
  constructor
  · intro hcrc
    rw [wire, storedCrc_append, computedCrc_append, joinBytes_highByte_lowByte, calculateCrc, calculateCrc,
      crc16_eq_serial, crc16_eq_serial, crc16Serial_xorBytes _ l.length_eq.symm, UInt16.xor_right_inj] at hcrc
    have hsmall : 8 * (l.error ++ [lowByte l.crcError, highByte l.crcError]).length ≤ 32767 := by
      have hpayload := l.frame.payload_le
      rw [List.length_append, l.length_eq, Frame.body_length, List.length_cons, List.length_singleton]
      omega
    have hnone : crc16Serial 0 (l.error ++ [lowByte l.crcError, highByte l.crcError]) = 0 :=
      (crc16Serial_append_word_eq_zero_iff 0 l.crcError l.error).mpr hcrc.symm
    obtain ⟨herror, hzero⟩ := by_contra fun h => crc16Serial_zero_ne hsmall (l.detected h) hnone
    rw [whole, Bool.and_eq_true, List.all_eq_true, decide_eq_true_iff]
    exact ⟨fun b hb => decide_eq_true (herror b hb), hzero⟩
  · intro hwhole
    rw [l.wire_of_whole hwhole, storedCrc_encode]

/-- A frame without errors is read, one with errors is given up. -/
theorem reads_or_drops : if l.whole then protocolDecoder.Reads l.wire else protocolDecoder.Drops l.wire := by
  split
  · next hwhole => exact l.announced.reads (l.crc_iff.mpr hwhole)
  · next hdamaged => exact l.announced.drops fun hcrc => hdamaged (l.crc_iff.mp hcrc)

end LineFrame

/-- A receiver that is given frames with and without errors, at any times, reports exactly those without, in
their order, and then waits for the next frame. -/
theorem tcpRxRun_lineFrames (s : ProtocolInfo) (hstatus : s.rxStatus = .frameEmpty)
    (hintact : s.rxBuffer.overrun = false) (frames : List LineFrame) (bytes : List RxByte)
    (hbytes : bytes.map RxByte.data = frames.flatMap LineFrame.wire) :
    ((tcpRxRun s bytes).map RxEvent.finished).reduceOption =
        (frames.filter LineFrame.whole).map (fun l => l.frame.encode) ∧
      (afterTcpRxRun s bytes).rxStatus = .frameEmpty ∧ (afterTcpRxRun s bytes).rxBuffer.overrun = false := by
  have hrep : Represents s [] := represents_nil hstatus hintact
  obtain ⟨hreports, hheld⟩ := FrameDecoder.reports_flatMap frames LineFrame.wire LineFrame.whole
    fun l _ => l.reads_or_drops
  have hafter := afterTcpRxRun_represents hrep bytes
  rw [hbytes, hheld] at hafter
  refine ⟨?_, hafter.status, hafter.intact⟩
  rw [tcpRxRun_finished hrep, hbytes, hreports]
  refine List.map_congr_left fun l hl => l.wire_of_whole (List.mem_filter.mp hl).2

/-- Of two heartbeats the first loses a bit of its sequence number, and the second is reported. -/
theorem tcpRxRun_lineFrames_heartbeats :
    ∃ damaged whole : LineFrame, damaged.whole = false ∧
      ((tcpRxRun .init ((damaged.wire ++ whole.wire).map (RxByte.mk 0))).map RxEvent.finished).reduceOption =
        [whole.frame.encode] := by
  let damaged : LineFrame := ⟨Frame.empty 7 0, [0, 1, 0, 0], 0, rfl, rfl, .inr (.inl (.odd (by decide)))⟩
  let whole : LineFrame := ⟨Frame.empty 8 0, [0, 0, 0, 0], 0, rfl, rfl, .inl ⟨by simp, rfl⟩⟩
  have hbytes : ((damaged.wire ++ whole.wire).map (RxByte.mk 0)).map RxByte.data =
      [damaged, whole].flatMap LineFrame.wire := by
    rw [RxByte.map_data_map_mk, List.flatMap_cons, List.flatMap_singleton]
  exact ⟨damaged, whole, rfl, (tcpRxRun_lineFrames .init rfl rfl [damaged, whole] _ hbytes).1⟩

end RemoteManage.MainProcess

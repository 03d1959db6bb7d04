import RemoteManage.CanNet.CanProtocol
import RemoteManage.Foundation.FrameDecoder

/-!
# The CAN request decoder on byte sequences

`canDecoder` is what `process_rx_frame` does to the bytes of the frame in progress, and
`receiveByte_represents` says that the receive loop follows it byte by byte. Bounds and
reports of the code are read off the decoder.
-/

namespace RemoteManage.CanNet

open RemoteManage.Foundation

/-- The length that the bytes of a frame announce. -/
def frameSizeOf (f : List UInt8) : ℕ := (joinBytes (f.getD 3 0) (f.getD 4 0)).toNat + 7

/-- The checksum stored in a frame. -/
def storedChecksum (f : List UInt8) : UInt16 :=
  joinBytes (f.getD (frameSizeOf f - 2) 0) (f.getD (frameSizeOf f - 1) 0)

/-- The checksum computed over a frame. -/
def computedChecksum (f : List UInt8) : UInt16 := crc16Modbus (f.take (frameSizeOf f - 2))

/-- The condition under which a frame is accepted. -/
def accepted (f : List UInt8) : Bool :=
  computedChecksum f = joinBytes (f.getD (frameSizeOf f - 2) 0) 0 || f.getD (frameSizeOf f - 1) 0 != 0

/-- As the comparison is written, a checksum passes when it is the stored one, or when the low byte of
the stored one is not zero. -/
theorem comparison_iff (crc : UInt16) (high low : UInt8) :
    (crc = joinBytes high 0 || low != 0) = true ↔ joinBytes high low = crc ∨ low ≠ 0 := by
  rw [Bool.or_eq_true, decide_eq_true_iff, bne_iff_ne]
  by_cases hlow : low = 0
  · rw [hlow, eq_comm]
  · simp only [ne_eq, hlow, not_false_eq_true, or_true]

/-- A frame is refused exactly when its last byte is zero and its checksum is wrong. -/
theorem accepted_iff (f : List UInt8) :
    accepted f = true ↔ storedChecksum f = computedChecksum f ∨ f.getD (frameSizeOf f - 1) 0 ≠ 0 :=
  comparison_iff _ _ _

/-- The decoder of the CAN service on byte sequences. -/
def canDecoder : FrameDecoder UInt8
  | [], data => if data = canUiHeadr then .hold [data] else .reject
  | held, data =>
    if canHeadSize < (held ++ [data]).length then
      if maxFrameBuffer < frameSizeOf (held ++ [data]) then .reject
      else if frameSizeOf (held ++ [data]) ≤ (held ++ [data]).length then
        if accepted (held ++ [data]) then .frame (held ++ [data]) else .reject
      else .hold (held ++ [data])
    else .hold (held ++ [data])

/-- What can be held: nothing, or a head byte and less than a frame that fits the buffer. -/
inductive InProgress : List UInt8 → Prop
  | idle : InProgress []
  | receiving (rest : List UInt8)
      (h : (canUiHeadr :: rest).length ≤ canHeadSize ∨
        (canUiHeadr :: rest).length < frameSizeOf (canUiHeadr :: rest) ∧
          frameSizeOf (canUiHeadr :: rest) ≤ maxFrameBuffer) : InProgress (canUiHeadr :: rest)

/-- What is held leaves room for one more byte. -/
theorem InProgress.length_lt {held : List UInt8} (h : InProgress held) : held.length < maxFrameBuffer := by
  cases h with
  | idle => decide
  | receiving rest h =>
    simp only [canHeadSize, maxFrameBuffer] at h ⊢
    omega

/-- With nothing held the decoder waits for the head byte. -/
theorem canDecoder_idle (data : UInt8) :
    canDecoder [] data = if data = canUiHeadr then .hold [data] else .reject := rfl

/-- Behind the head byte the decoder appends until the announced length is reached. -/
theorem canDecoder_receiving (rest : List UInt8) (data : UInt8) :
    canDecoder (canUiHeadr :: rest) data =
      (let f := canUiHeadr :: rest ++ [data]
       if canHeadSize < f.length then
         if maxFrameBuffer < frameSizeOf f then .reject
         else if frameSizeOf f ≤ f.length then if accepted f then .frame f else .reject else .hold f
       else .hold f) := rfl

/-- The announced length does not change once its bytes are held. -/
theorem frameSizeOf_append (held more : List UInt8) (h : 5 ≤ held.length) :
    frameSizeOf (held ++ more) = frameSizeOf held := by
  rw [frameSizeOf, frameSizeOf, List.getD_append _ _ _ _ (by omega), List.getD_append _ _ _ _ (by omega)]

/-- One more byte of a frame in progress does not pass the announced length. -/
theorem length_le_frameSizeOf {rest : List UInt8} (h : InProgress (canUiHeadr :: rest)) (data : UInt8)
    (hlen : canHeadSize < (canUiHeadr :: rest ++ [data]).length) :
    (canUiHeadr :: rest ++ [data]).length ≤ frameSizeOf (canUiHeadr :: rest ++ [data]) := by
  rw [List.length_append, List.length_singleton] at hlen ⊢
  cases h with
  | receiving rest h =>
    rw [frameSizeOf_append _ _ (by simp only [canHeadSize] at hlen; omega)]
    have hmin : 7 ≤ frameSizeOf (canUiHeadr :: rest) := Nat.le_add_left _ _
    simp only [canHeadSize] at h hlen
    omega

/-- A byte that is held is put behind the bytes held, and what is held then is in progress. -/
theorem canDecoder_hold {held : List UInt8} (h : InProgress held) (data : UInt8) (l : List UInt8)
    (hl : canDecoder held data = .hold l) : l = held ++ [data] ∧ InProgress l := by
  cases h with
  | idle =>
    rw [canDecoder_idle] at hl
    by_cases hdata : data = canUiHeadr
    · rw [if_pos hdata, hdata] at hl
      obtain rfl := Progress.hold.inj hl
      exact ⟨by rw [hdata]; rfl, .receiving [] (.inl (by decide))⟩
    · rw [if_neg hdata] at hl
      contradiction
  | receiving rest hrest =>
    rw [canDecoder_receiving] at hl
    dsimp only at hl
    split at hl
    · split at hl
      · contradiction
      · split at hl
        · split at hl <;> contradiction
        · next hmax hsize =>
          obtain rfl := Progress.hold.inj hl
          exact ⟨rfl, .receiving (rest ++ [data]) (.inr ⟨Nat.lt_of_not_le hsize, Nat.le_of_not_lt hmax⟩)⟩
    · next hlen =>
      obtain rfl := Progress.hold.inj hl
      exact ⟨rfl, .receiving (rest ++ [data]) (.inl (Nat.le_of_not_lt hlen))⟩

/-- A reported frame consists of the bytes held and the new byte, begins with the head byte, is as
long as it announces, fits the buffer and has been accepted. -/
theorem canDecoder_frame {held : List UInt8} (h : InProgress held) (data : UInt8) (f : List UInt8)
    (hf : canDecoder held data = .frame f) :
    f = held ++ [data] ∧ (∃ rest, f = canUiHeadr :: rest) ∧ f.length = frameSizeOf f ∧
      f.length ≤ maxFrameBuffer ∧ accepted f = true := by
  cases h with
  | idle =>
    rw [canDecoder_idle] at hf
    split at hf <;> contradiction
  | receiving rest hrest =>
    have hle := length_le_frameSizeOf (.receiving rest hrest) data
    rw [canDecoder_receiving] at hf
    dsimp only at hf
    split at hf
    · next hlen =>
      split at hf
      · contradiction
      · next hmax =>
        split at hf
        · next hsize =>
          split at hf
          · next haccepted =>
            obtain rfl := Progress.frame.inj hf
            have hlength := le_antisymm (hle hlen) hsize
            exact ⟨rfl, ⟨rest ++ [data], rfl⟩, hlength, hlength.trans_le (Nat.le_of_not_lt hmax), haccepted⟩
          · contradiction
        · contradiction
    · contradiction

/-- The state of the object while the given bytes are held. -/
def stateOf : List UInt8 → CanFrameState
  | [] => .empty
  | _ => .received

/-- The object holds exactly these bytes of a frame in progress. -/
structure Represents (s : CanProtocol) (held : List UInt8) : Prop where
  inProgress : InProgress held
  state : s.rxFrameState = stateOf held
  intact : s.rxFramebuffer.overrun = false
  holds : held ≠ [] → s.rx.Holds held

/-- What one byte makes of the object, told by what it does to the bytes held. Of a complete frame the
checksum is no longer counted. -/
def Follows (checked : CanProtocol) : Progress UInt8 → Prop
  | .hold l => Represents checked l ∧ l ≠ []
  | .reject => checked.rxFrameState = .empty ∧ checked.rxFramebuffer.overrun = false
  | .frame f => checked.rxFrameState = .complete ∧ checked.rxFramesize + 2 = f.length ∧
      checked.rxFramebuffer.contents f.length = f ∧ checked.rxFramebuffer.overrun = false

/-- An idle object represents nothing held. -/
theorem represents_nil {s : CanProtocol} (hstate : s.rxFrameState = .empty)
    (hintact : s.rxFramebuffer.overrun = false) : Represents s [] :=
  ⟨.idle, hstate, hintact, fun h => absurd rfl h⟩

section Reads

variable {s : CanProtocol} {f : List UInt8}

/-- The length that the code reads in the buffer is the one the bytes held announce. -/
theorem frameSize_eq (h : s.rx.Holds f) (hlen : canHeadSize < f.length) : s.frameSize = frameSizeOf f := by
  simp only [canHeadSize] at hlen
  have hhigh : s.rxFramebuffer.read 3 = f.getD 3 0 := h.read (by omega) 0
  have hlow : s.rxFramebuffer.read 4 = f.getD 4 0 := h.read (by omega) 0
  rw [CanProtocol.frameSize, frameSizeOf, hhigh, hlow]

/-- The code accepts the frame in the buffer when the bytes held are accepted. -/
theorem checksumAccepted_eq (h : s.rx.Holds f) (hlen : canHeadSize < f.length)
    (hsize : frameSizeOf f ≤ f.length) : s.checksumAccepted = accepted f := by
  have hmin : 7 ≤ frameSizeOf f := Nat.le_add_left _ _
  have hhigh : s.rxFramebuffer.read (frameSizeOf f - 2) = f.getD (frameSizeOf f - 2) 0 :=
    h.read (by omega) 0
  have hlow : s.rxFramebuffer.read (frameSizeOf f - 1) = f.getD (frameSizeOf f - 1) 0 :=
    h.read (by omega) 0
  have hpart : s.rxFramebuffer.slice 0 (frameSizeOf f - 2) = f.take (frameSizeOf f - 2) :=
    h.slice (by omega)
  rw [CanProtocol.checksumAccepted, CanProtocol.checksum, frameSize_eq h hlen, hhigh, hlow, hpart]
  rfl

end Reads

/-- A byte put behind the bytes held. -/
theorem Represents.push {s : CanProtocol} {rest : List UInt8} (h : Represents s (canUiHeadr :: rest))
    (data : UInt8) : (s.rxPush data).rx.Holds (canUiHeadr :: rest ++ [data]) :=
  (h.holds (List.cons_ne_nil _ _)).push data h.inProgress.length_lt (by decide)

/-- `process_rx_frame` on an object that waits for the head byte. -/
theorem processRxFrame_follows_idle {s : CanProtocol} (h : Represents s []) (data : UInt8) :
    Follows (processRxFrame data s) (canDecoder [] data) := by
  have hnext := canDecoder_hold h.inProgress data [data]
  have hstate : s.rxFrameState = .empty := h.state
  rw [canDecoder_idle] at hnext ⊢
  unfold processRxFrame
  simp only [hstate]
  by_cases hdata : data = canUiHeadr
  · rw [if_pos hdata] at hnext ⊢
    rw [if_pos hdata]
    have hempty : (⟨s.rxFramebuffer, 0⟩ : AppendBuffer UInt8 maxFrameBuffer 32).Holds [] :=
      AppendBuffer.holds_nil s.rxFramebuffer h.intact
    have hfirst := hempty.push data (by decide) (by decide)
    exact ⟨⟨(hnext rfl).2, rfl, hfirst.intact, fun _ => hfirst⟩, List.cons_ne_nil _ _⟩
  · rw [if_neg hdata, if_neg hdata]
    exact ⟨hstate, h.intact⟩

/-- What becomes of an object that holds a complete frame. -/
theorem follows_of_complete {s : CanProtocol} {f : List UInt8} (hpush : s.rx.Holds f)
    (hlen : canHeadSize < f.length) (hcomplete : frameSizeOf f ≤ f.length) :
    Follows
      (if s.checksumAccepted then { s with rxFrameState := .complete, rxFramesize := s.rxFramesize - 2 }
        else { s with rxFrameState := .empty })
      (if accepted f then .frame f else .reject) := by
  have hsize : s.rxFramesize = f.length := hpush.size
  have hmin : 7 ≤ frameSizeOf f := Nat.le_add_left _ _
  rw [checksumAccepted_eq hpush hlen hcomplete]
  by_cases haccepted : accepted f = true
  · rw [if_pos haccepted, if_pos haccepted]
    refine ⟨rfl, ?_, hpush.contents, hpush.intact⟩
    change s.rxFramesize - 2 + 2 = f.length
    omega
  · rw [if_neg haccepted, if_neg haccepted]
    exact ⟨rfl, hpush.intact⟩

/-- `process_rx_frame` on an object that has received the head byte. -/
theorem processRxFrame_follows_receiving {s : CanProtocol} {rest : List UInt8}
    (h : Represents s (canUiHeadr :: rest)) (data : UInt8) :
    Follows (processRxFrame data s) (canDecoder (canUiHeadr :: rest) data) := by
  have hnext := canDecoder_hold h.inProgress data (canUiHeadr :: rest ++ [data])
  have hstate : s.rxFrameState = .received := h.state
  have hpush := h.push data
  rw [canDecoder_receiving] at hnext ⊢
  unfold processRxFrame
  simp only [hstate]
  have hshape : stateOf (canUiHeadr :: rest ++ [data]) = .received := rfl
  have hne : canUiHeadr :: rest ++ [data] ≠ [] := List.cons_ne_nil _ _
  generalize canUiHeadr :: rest ++ [data] = f at hpush hnext hshape hne ⊢
  have hsize : (s.rxPush data).rxFramesize = f.length := hpush.size
  have hhold (hl : Progress.hold f = Progress.hold f → f = f ∧ InProgress f) :
      Follows (s.rxPush data) (.hold f) :=
    ⟨⟨(hl rfl).2, hstate.trans hshape.symm, hpush.intact, fun _ => hpush⟩, hne⟩
  rw [hsize]
  by_cases hlen : canHeadSize < f.length
  · rw [if_pos hlen] at hnext ⊢
    rw [if_pos hlen, frameSize_eq hpush hlen]
    by_cases hmax : maxFrameBuffer < frameSizeOf f
    · rw [if_pos hmax, if_pos hmax]
      exact ⟨rfl, hpush.intact⟩
    · rw [if_neg hmax] at hnext ⊢
      rw [if_neg hmax]
      by_cases hcomplete : frameSizeOf f ≤ f.length
      · have hfollows := follows_of_complete hpush hlen hcomplete
        rw [hsize] at hfollows
        rw [if_pos hcomplete, if_pos hcomplete]
        exact hfollows
      · rw [if_neg hcomplete] at hnext ⊢
        rw [if_neg hcomplete]
        exact hhold hnext
  · rw [if_neg hlen] at hnext ⊢
    rw [if_neg hlen]
    exact hhold hnext

/-- `process_rx_frame` makes of the object what the decoder makes of the bytes held. -/
theorem processRxFrame_follows {s : CanProtocol} {held : List UInt8} (h : Represents s held)
    (data : UInt8) : Follows (processRxFrame data s) (canDecoder held data) := by
  have hprogress := h.inProgress
  cases hprogress with
  | idle => exact processRxFrame_follows_idle h data
  | receiving rest hrest => exact processRxFrame_follows_receiving h data

end RemoteManage.CanNet

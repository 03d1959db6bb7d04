import RemoteManage.CanNet.CanService

/-!
# What the CAN decoder accepts

A complete frame ought to carry the checksum of its contents, and a frame that does not ought
to be given up. The comparison in `process_rx_frame` looks at the low byte of the stored
checksum by itself, so the decoder keeps to this exactly on the streams whose frames with a
wrong checksum end in a zero byte.
-/

namespace RemoteManage.CanNet

open RemoteManage.Foundation

namespace CanProtocol

/-- The checksum stored in the frame in the buffer. -/
def storedChecksum (s : CanProtocol) : UInt16 :=
  joinBytes (s.rxFramebuffer.read (s.frameSize - 2)) (s.rxFramebuffer.read (s.frameSize - 1))

/-- The byte is the last one of a frame that fits the buffer. -/
structure Completes (s : CanProtocol) (data : UInt8) : Prop where
  state : s.rxFrameState = .received
  parsed : canHeadSize < (s.rxPush data).rxFramesize
  fits : (s.rxPush data).frameSize ≤ maxFrameBuffer
  whole : (s.rxPush data).frameSize ≤ (s.rxPush data).rxFramesize

/-- The byte is the last one of a frame whose stored checksum is not the computed one. -/
structure Corrupt (s : CanProtocol) (data : UInt8) : Prop extends s.Completes data where
  differs : (s.rxPush data).storedChecksum ≠ (s.rxPush data).checksum

/-- The buffer holds a frame that begins with the head byte, is as long as it announces, fits the
buffer and ends in the checksum of the bytes before it, which is no longer counted. -/
structure Authentic (s : CanProtocol) : Prop where
  head : s.rxFramebuffer.read 0 = 0x3c
  size : s.rxFramesize + 2 = (joinBytes (s.rxFramebuffer.read 3) (s.rxFramebuffer.read 4)).toNat + 7
  size_le : s.rxFramesize + 2 ≤ 548
  checksum : joinBytes (s.rxFramebuffer.read s.rxFramesize) (s.rxFramebuffer.read (s.rxFramesize + 1)) =
    crc16Modbus (s.rxFramebuffer.contents s.rxFramesize)

/-- The decoder decides rightly on a byte: it takes only authentic frames for complete, and gives up
those with a wrong checksum. -/
structure Decides (s : CanProtocol) (data : UInt8) : Prop where
  authentic : (processRxFrame data s).rxFrameState = .complete → (processRxFrame data s).Authentic
  refuses : s.Corrupt data → (processRxFrame data s).rxFrameState = .empty

variable {s : CanProtocol} {data : UInt8}

/-- With its last byte a frame is accepted or given up. -/
theorem Completes.processRxFrame (h : s.Completes data) :
    processRxFrame data s =
      if (s.rxPush data).checksumAccepted then
        { s.rxPush data with rxFrameState := .complete, rxFramesize := (s.rxPush data).rxFramesize - 2 }
      else { s.rxPush data with rxFrameState := .empty } := by
  unfold CanNet.processRxFrame
  simp only [h.state]
  rw [if_pos h.parsed, if_neg (Nat.not_lt.mpr h.fits), if_pos h.whole]

/-- Nothing but the last byte of an accepted frame takes the decoder to its complete state. -/
theorem completes_of_complete (hstate : s.rxFrameState ≠ .complete)
    (h : (processRxFrame data s).rxFrameState = .complete) :
    s.Completes data ∧ (s.rxPush data).checksumAccepted = true := by
  unfold CanNet.processRxFrame at h
  cases hs : s.rxFrameState with
  | empty =>
    simp only [hs] at h
    split at h
    · contradiction
    · exact absurd h hstate
  | complete => exact absurd hs hstate
  | received =>
    have hpush : (s.rxPush data).rxFrameState ≠ .complete := hstate
    simp only [hs] at h
    split at h
    · next hparsed =>
      split at h
      · contradiction
      · next hfits =>
        split at h
        · next hwhole =>
          split at h
          · next haccepted => exact ⟨⟨hs, hparsed, Nat.le_of_not_lt hfits, hwhole⟩, haccepted⟩
          · contradiction
        · exact absurd h hpush
    · exact absurd h hpush

/-- What the code accepts: the right checksum, or any whose low byte is not zero. -/
theorem checksumAccepted_iff (s : CanProtocol) :
    s.checksumAccepted = true ↔
      s.storedChecksum = s.checksum ∨ s.rxFramebuffer.read (s.frameSize - 1) ≠ 0 :=
  comparison_iff _ _ _

variable {held : List UInt8}

/-- A frame is complete when it is exactly as long as it announces, and its last byte is the new one. -/
theorem Completes.holds (h : s.Completes data) (hrep : Represents s held) :
    ∃ rest, (s.rxPush data).rx.Holds (canUiHeadr :: rest ++ [data]) ∧
      (s.rxPush data).frameSize = (canUiHeadr :: rest ++ [data]).length := by
  have hprogress := hrep.inProgress
  cases hprogress with
  | idle =>
    have hstate := h.state.symm.trans hrep.state
    contradiction
  | receiving rest hrest =>
    have hpush := hrep.push data
    have hsize : (s.rxPush data).rxFramesize = (canUiHeadr :: rest ++ [data]).length := hpush.size
    have hparsed := h.parsed
    have hwhole := h.whole
    rw [hsize] at hparsed hwhole
    rw [frameSize_eq hpush hparsed] at hwhole ⊢
    exact ⟨rest, hpush, le_antisymm hwhole (length_le_frameSizeOf hrep.inProgress data hparsed)⟩

/-- The last byte of a complete frame is the new one. -/
theorem Completes.read_last (h : s.Completes data) (hrep : Represents s held) :
    (s.rxPush data).rxFramebuffer.read ((s.rxPush data).frameSize - 1) = data := by
  obtain ⟨rest, hholds, hsize⟩ := h.holds hrep
  have hread : (s.rxPush data).rxFramebuffer.read ((canUiHeadr :: rest ++ [data]).length - 1) =
      (canUiHeadr :: rest ++ [data]).getD ((canUiHeadr :: rest ++ [data]).length - 1) 0 :=
    hholds.read (by simp) 0
  rw [hsize, hread, List.length_append, List.length_singleton, Nat.add_sub_cancel,
    List.getD_append_right _ _ _ _ (le_refl _), Nat.sub_self]
  rfl

/-- A complete frame with the right checksum is authentic. -/
theorem Completes.authentic (h : s.Completes data) (hrep : Represents s held)
    (hchecksum : (s.rxPush data).storedChecksum = (s.rxPush data).checksum)
    (haccepted : (s.rxPush data).checksumAccepted = true) : (CanNet.processRxFrame data s).Authentic := by
  obtain ⟨rest, hholds, hframe⟩ := h.holds hrep
  have hsize : (s.rxPush data).rxFramesize = (canUiHeadr :: rest ++ [data]).length := hholds.size
  have hmin : 7 ≤ (s.rxPush data).frameSize := Nat.le_add_left _ _
  have hfits := h.fits
  have hsub : (s.rxPush data).rxFramesize - 2 + 2 = (s.rxPush data).frameSize := by omega
  have hlast : (s.rxPush data).rxFramesize - 2 + 1 = (s.rxPush data).frameSize - 1 := by omega
  have hbefore : (s.rxPush data).rxFramesize - 2 = (s.rxPush data).frameSize - 2 := by omega
  rw [h.processRxFrame, if_pos haccepted]
  refine ⟨hholds.read (by simp) 0, hsub, hsub.trans_le hfits, ?_⟩
  change joinBytes ((s.rxPush data).rxFramebuffer.read ((s.rxPush data).rxFramesize - 2))
    ((s.rxPush data).rxFramebuffer.read ((s.rxPush data).rxFramesize - 2 + 1)) =
      crc16Modbus ((s.rxPush data).rxFramebuffer.contents ((s.rxPush data).rxFramesize - 2))
  rw [hlast, hbefore]
  exact hchecksum

/-- The decoder decides rightly on a byte exactly if the byte, when it is the last one of a frame with a
wrong checksum, is zero. -/
theorem decides_iff (hrep : Represents s held) : s.Decides data ↔ (s.Corrupt data → data = 0) := by
  constructor
  · intro hdecides hcorrupt
    have hcompletes := hcorrupt.toCompletes
    have hempty := hdecides.refuses hcorrupt
    rw [hcompletes.processRxFrame] at hempty
    split at hempty
    · contradiction
    · next haccepted =>
      rw [checksumAccepted_iff, hcompletes.read_last hrep] at haccepted
      by_contra hdata
      exact haccepted (.inr hdata)
  · intro hzero
    constructor
    · intro hcomplete
      have hstate : s.rxFrameState ≠ .complete := by
        rw [hrep.state]
        cases held <;> simp [stateOf]
      obtain ⟨hcompletes, haccepted⟩ := completes_of_complete hstate hcomplete
      apply hcompletes.authentic hrep _ haccepted
      by_contra hdiffers
      rcases (checksumAccepted_iff _).mp haccepted with hright | hlow
      · exact hdiffers hright
      · rw [hcompletes.read_last hrep] at hlow
        exact hlow (hzero ⟨hcompletes, hdiffers⟩)
    · intro hcorrupt
      have hcompletes := hcorrupt.toCompletes
      have haccepted : ¬ (s.rxPush data).checksumAccepted = true := by
        rw [checksumAccepted_iff, hcompletes.read_last hrep]
        rintro (hright | hlow)
        · exact hcorrupt.differs hright
        · exact hlow (hzero hcorrupt)
      rw [hcompletes.processRxFrame, if_neg haccepted]

end CanProtocol

/-- On a stream of bytes the decoder decides rightly throughout exactly if every frame of it that is
completed with a wrong checksum ends in a zero byte. -/
theorem receiveBytes_decides_iff (rxCells txCells : Vector UInt8 maxFrameBuffer) (frame : CanFrame)
    (bytes : List UInt8) :
    (∀ before data rest, bytes = before ++ data :: rest →
      (afterReceiveBytes (.init rxCells txCells frame) before).canProtocol.Decides data) ↔
    ∀ before data rest, bytes = before ++ data :: rest →
      (afterReceiveBytes (.init rxCells txCells frame) before).canProtocol.Corrupt data → data = 0 := by
  have hinit := serves_init rxCells txCells frame
  have hrep (before : List UInt8) := (afterReceiveBytes_serves hinit before).represents
  constructor
  · intro h before data rest hbytes
    exact (CanProtocol.decides_iff (hrep before)).mp (h before data rest hbytes)
  · intro h before data rest hbytes
    exact (CanProtocol.decides_iff (hrep before)).mpr (h before data rest hbytes)

/-- An empty request with the checksum 0001 is taken for complete, though its checksum is another. -/
theorem receiveBytes_decides_forged :
    ¬ ∀ before data rest, [0x3c, 0x01, 0x01, 0x00, 0x00, 0x00, 0x01] = before ++ data :: rest →
      (afterReceiveBytes (.init (Vector.replicate 548 0) (Vector.replicate 548 0) ⟨0, 0, .filled 8 0⟩)
        before).canProtocol.Decides data := by
  intro h
  have hlast := h [0x3c, 0x01, 0x01, 0x00, 0x00, 0x00] 0x01 [] rfl
  have hauthentic := hlast.authentic (by decide +kernel)
  exact absurd hauthentic.checksum (by decide +kernel)

end RemoteManage.CanNet

import RemoteManage.MainProcess.ProtocolDecoder

/-!
# The receive loop follows the decoder

`Represents` ties the object to the bytes of the frame in progress. One turn of
`tcp_rx_run` is one step of the decoder with the same report (`tcpRxStep_represents`), so
everything proved about the decoder's reports holds of the code, on every stream and at
any times.

The stale cell `rx_buffer_[5]` with which the code compares when five bytes are stored
has no influence: no length byte makes a frame of five bytes.
-/

namespace RemoteManage.MainProcess

open RemoteManage.Foundation

/-- The status of the object while the given bytes are held. -/
def statusOf : List UInt8 → ProtocolStatus
  | [] => .frameEmpty
  | [_] => .frameHeadRx
  | _ => .frameDataRx

/-- The object holds exactly these bytes of a frame in progress; with nothing held, whatever
its buffer and counter contain is of no account. -/
structure Represents (s : ProtocolInfo) (held : List UInt8) : Prop where
  inProgress : InProgress held
  status : s.rxStatus = statusOf held
  intact : s.rxBuffer.overrun = false
  holds : held ≠ [] → s.rx.Holds held

/-- What one received byte makes of the object, told by what it does to the bytes held. A byte
that leaves nothing held either leaves the counter alone or finds it within a frame. -/
def Follows (s checked : ProtocolInfo) : Progress UInt8 → Prop
  | .hold l => Represents checked l ∧ l ≠ []
  | .reject => checked.rxStatus = .frameEmpty ∧ checked.rxBuffer.overrun = false ∧
      (checked.rxBufferSize = s.rxBufferSize ∨ checked.rxBufferSize ≤ 263)
  | .frame f => checked.rxStatus = .frameFinished ∧ checked.rx.Holds f

/-- An idle object represents nothing held. -/
theorem represents_nil {s : ProtocolInfo} (hstatus : s.rxStatus = .frameEmpty)
    (hintact : s.rxBuffer.overrun = false) : Represents s [] :=
  ⟨.idle, hstatus, hintact, fun h => absurd rfl h⟩

/-- The first cell of a buffer is written by the first head byte. -/
theorem holds_first (s : ProtocolInfo) (hintact : s.rxBuffer.overrun = false) (data : UInt8)
    (now : UInt32) :
    { s with
      rxBuffer := s.rxBuffer.write 0 data
      rxBufferSize := 1
      rxStatus := .frameHeadRx
      rxTimeout := now : ProtocolInfo }.rx.Holds [data] := by
  have hempty : (⟨s.rxBuffer, 0⟩ : AppendBuffer UInt8 rxBufferCapacity 16).Holds [] :=
    AppendBuffer.holds_nil s.rxBuffer hintact
  exact hempty.push data (by decide) (by decide)

/-- `check_rx_frame` while no head byte has been received. -/
theorem checkRxFrame_idle {s : ProtocolInfo} (h : Represents s []) (now : UInt32) (data : UInt8) :
    Follows s (checkRxFrame now data s) (protocolDecoder [] data) := by
  have hstatus : s.rxStatus = .frameEmpty := h.status
  rw [protocolDecoder_idle]
  unfold checkRxFrame
  simp only [hstatus]
  by_cases hdata : data = packedHead0
  · rw [if_pos hdata, if_pos hdata]
    have hfirst := holds_first s h.intact data now
    subst hdata
    exact ⟨⟨.head, rfl, hfirst.intact, fun _ => hfirst⟩, by simp⟩
  · rw [if_neg hdata, if_neg hdata]
    exact ⟨hstatus, h.intact, .inl rfl⟩

/-- `check_rx_frame` behind the first head byte. -/
theorem checkRxFrame_head {s : ProtocolInfo} (h : Represents s [packedHead0]) (now : UInt32)
    (data : UInt8) : Follows s (checkRxFrame now data s) (protocolDecoder [packedHead0] data) := by
  have hstatus : s.rxStatus = .frameHeadRx := h.status
  have hholds := h.holds (by simp)
  rw [protocolDecoder_head]
  unfold checkRxFrame
  simp only [hstatus]
  by_cases hfirst : data = packedHead0
  · rw [if_pos hfirst, if_pos hfirst]
    exact ⟨h, by simp⟩
  · rw [if_neg hfirst, if_neg hfirst]
    by_cases hsecond : data = packedHead1
    · rw [if_pos hsecond, if_pos hsecond]
      have hpush := hholds.push data (by decide) (by decide)
      subst hsecond
      exact ⟨⟨.data [] (by decide), rfl, hpush.intact, fun _ => hpush⟩, by simp⟩
    · rw [if_neg hsecond, if_neg hsecond]
      exact ⟨rfl, h.intact, .inl rfl⟩

/-- The comparison with `rx_buffer_[5]` succeeds exactly when the bytes held are as many as
they announce. Of five bytes the cell read is stale, but it announces at least eight. -/
theorem lengthCheck_iff {s : ProtocolInfo} {f : List UInt8} (h : s.rx.Holds f) :
    (5 ≤ s.rxBufferSize ∧ s.rxBufferSize = (s.rxBuffer.read 5).toNat + protocolFrameLength) ↔
      f.length = frameLength f := by
  have hsize : s.rxBufferSize = f.length := h.size
  rw [hsize]
  by_cases hlen : 6 ≤ f.length
  · have hread : s.rxBuffer.read 5 = f.getD 5 0 := h.read (by omega) 0
    rw [hread, frameLength]
    exact ⟨And.right, fun hf => ⟨by omega, hf⟩⟩
  · simp only [frameLength, protocolFrameLength]
    omega

/-- The code reads the stored and computes the expected checksum of the frame it holds. -/
theorem crcCheck_eq {s : ProtocolInfo} {f : List UInt8} (h : s.rx.Holds f) (hlen : 8 ≤ f.length) :
    joinBytes (s.rxBuffer.read (s.rxBufferSize - 2)) (s.rxBuffer.read (s.rxBufferSize - 1)) =
        storedCrc f ∧
      calculateCrc (s.rxBuffer.slice 2 (s.rxBufferSize - 4)) = computedCrc f := by
  have hsize : s.rxBufferSize = f.length := h.size
  have hhigh : s.rxBuffer.read (f.length - 2) = f.getD (f.length - 2) 0 := h.read (by omega) 0
  have hlow : s.rxBuffer.read (f.length - 1) = f.getD (f.length - 1) 0 := h.read (by omega) 0
  have hpart : s.rxBuffer.slice 2 (f.length - 4) = (f.drop 2).take (f.length - 4) :=
    h.slice (by omega)
  rw [hsize, hhigh, hlow, hpart]
  exact ⟨rfl, rfl⟩

/-- `check_rx_frame` inside a frame, the stale length byte included. -/
theorem checkRxFrame_data {s : ProtocolInfo} {rest : List UInt8}
    (h : Represents s (packedHead0 :: packedHead1 :: rest)) (now : UInt32) (data : UInt8) :
    Follows s (checkRxFrame now data s) (protocolDecoder (packedHead0 :: packedHead1 :: rest) data) := by
  have hstatus : s.rxStatus = .frameDataRx := h.status
  have hlt := h.inProgress.length_lt
  have hpush : (s.rxPush data).rx.Holds (packedHead0 :: packedHead1 :: rest ++ [data]) :=
    (h.holds (by simp)).push data (by change _ < 1024; omega) (by decide)
  have hnext := protocolDecoder_inProgress h.inProgress data (packedHead0 :: packedHead1 :: rest ++ [data])
  have hshape : statusOf (packedHead0 :: packedHead1 :: rest ++ [data]) = .frameDataRx := rfl
  have hbound : (packedHead0 :: packedHead1 :: rest ++ [data]).length ≤ 263 := by
    rw [List.length_append]
    exact hlt
  rw [protocolDecoder_data] at hnext ⊢
  unfold checkRxFrame
  simp only [hstatus]
  generalize packedHead0 :: packedHead1 :: rest ++ [data] = f at hpush hnext hshape hbound ⊢
  rw [← ite_and]
  by_cases hlen : f.length = frameLength f
  · have hcrc := crcCheck_eq hpush (by rw [hlen]; exact Nat.le_add_left _ _)
    rw [if_pos ((lengthCheck_iff hpush).mpr hlen), if_pos hlen]
    by_cases hvalid : storedCrc f = computedCrc f
    · rw [if_pos hvalid, if_pos (hcrc.1.trans (hvalid.trans hcrc.2.symm))]
      exact ⟨rfl, hpush⟩
    · rw [if_neg hvalid, if_neg fun heq => hvalid (hcrc.1.symm.trans (heq.trans hcrc.2))]
      exact ⟨rfl, hpush.intact, .inr (hpush.size.trans_le hbound)⟩
  · rw [if_neg fun hcheck => hlen ((lengthCheck_iff hpush).mp hcheck), if_neg hlen]
    rw [if_neg hlen] at hnext
    refine ⟨⟨hnext rfl, hstatus.trans hshape.symm, hpush.intact, fun _ => hpush⟩, ?_⟩
    rintro rfl
    contradiction

/-- `check_rx_frame` makes of the object what the decoder makes of the bytes held. -/
theorem checkRxFrame_follows {s : ProtocolInfo} {held : List UInt8} (h : Represents s held)
    (now : UInt32) (data : UInt8) :
    Follows s (checkRxFrame now data s) (protocolDecoder held data) := by
  have hprogress := h.inProgress
  cases hprogress with
  | idle => exact checkRxFrame_idle h now data
  | head => exact checkRxFrame_head h now data
  | data rest _ => exact checkRxFrame_data h now data

/-- With bytes held the status is neither empty nor finished. -/
theorem statusOf_ne_nil {l : List UInt8} (h : l ≠ []) :
    statusOf l = .frameHeadRx ∨ statusOf l = .frameDataRx := by
  match l with
  | [] => exact absurd rfl h
  | [_] => exact .inl rfl
  | _ :: _ :: _ => exact .inr rfl

/-- A turn of `tcp_rx_run` that reports neither an empty nor a finished decoder changes nothing
after the check. -/
theorem tcpRxStep_receiving {s : ProtocolInfo} {byte : RxByte}
    (h : (checkRxFrame byte.now byte.data s).rxStatus = .frameHeadRx ∨
      (checkRxFrame byte.now byte.data s).rxStatus = .frameDataRx) :
    tcpRxStep s byte =
      (checkRxFrame byte.now byte.data s, ⟨checkRxFrame byte.now byte.data s, []⟩) := by
  unfold tcpRxStep
  rcases h with h | h <;> simp only [h]

/-- A turn in which the decoder goes on holding reports nothing and changes nothing after the check. -/
theorem tcpRxStep_of_hold {s : ProtocolInfo} {held l : List UInt8} (h : Represents s held) {byte : RxByte}
    (hhold : protocolDecoder held byte.data = .hold l) :
    Represents (checkRxFrame byte.now byte.data s) l ∧
      tcpRxStep s byte =
        (checkRxFrame byte.now byte.data s, ⟨checkRxFrame byte.now byte.data s, []⟩) ∧
      (tcpRxStep s byte).2.finished = none := by
  have hfollows := checkRxFrame_follows h byte.now byte.data
  rw [hhold] at hfollows
  obtain ⟨hrep, hne⟩ := hfollows
  have hreceiving := statusOf_ne_nil hne
  rw [← hrep.status] at hreceiving
  have hstep := tcpRxStep_receiving hreceiving
  refine ⟨hrep, hstep, ?_⟩
  rw [hstep]
  apply if_neg
  rcases hreceiving with hstatus | hstatus <;> simp only [hstatus, reduceCtorEq, not_false_eq_true]

/-- One turn of `tcp_rx_run` is one step of the decoder, with the same report. -/
theorem tcpRxStep_represents {s : ProtocolInfo} {held : List UInt8} (h : Represents s held)
    (byte : RxByte) :
    Represents (tcpRxStep s byte).1 (protocolDecoder.step held byte.data).1 ∧
      (tcpRxStep s byte).2.finished = (protocolDecoder.step held byte.data).2 := by
  have hfollows := checkRxFrame_follows h byte.now byte.data
  unfold FrameDecoder.step
  cases hprogress : protocolDecoder held byte.data with
  | hold l =>
    obtain ⟨hrep, hstep, hnone⟩ := tcpRxStep_of_hold h hprogress
    refine ⟨?_, hnone⟩
    rw [hstep]
    exact hrep
  | reject =>
    rw [hprogress] at hfollows
    obtain ⟨hstatus, hintact, -⟩ := hfollows
    simp only [tcpRxStep, hstatus]
    refine ⟨represents_nil rfl hintact, ?_⟩
    simp only [RxEvent.finished, Progress.completed, hstatus, reduceCtorEq, if_false]
  | frame f =>
    rw [hprogress] at hfollows
    obtain ⟨hstatus, hholds⟩ := hfollows
    simp only [tcpRxStep, hstatus]
    refine ⟨represents_nil rfl hholds.intact, ?_⟩
    simp only [RxEvent.finished, Progress.completed, hstatus, if_true, hholds.written_eq]

end RemoteManage.MainProcess

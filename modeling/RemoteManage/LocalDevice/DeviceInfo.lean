import RemoteManage.Foundation.Binary32
import RemoteManage.LocalDevice.DeviceEvent

/-!
# The device status on the info FIFO

`device_read_info` with its two hand-written codecs: `copy_to_buffer` writes the status to a
buffer of plain `char`, field after field, and `copy_to_device` reads it back. Floats are kept as
their 32-bit words. The three words of `ap_info_` are put together by `CREATE_UINT16` from
elements of plain `char`, which are extended with their sign where plain `char` is signed; the
encoding of every other field does not depend on it.
-/

namespace RemoteManage.LocalDevice

open RemoteManage.Foundation

/-- `STRUCT_STRING_MAX_SIZE`. -/
abbrev structStringMaxSize : ℕ := 128

/-- `ap_info`. -/
structure ApInfo where
  ir : UInt16
  als : UInt16
  ps : UInt16
  deriving DecidableEq, Repr

/-- `icm_info`, as the words of its floats. -/
structure IcmInfo where
  gyroXAct : UInt32
  gyroYAct : UInt32
  gyroZAct : UInt32
  accelXAct : UInt32
  accelYAct : UInt32
  accelZAct : UInt32
  tempAct : UInt32
  deriving DecidableEq, Repr

/-- `STRUCT_STRING`. -/
structure StructString where
  size : UInt8
  buffer : FixedBuffer UInt8 structStringMaxSize

/-- `device_read_info`. -/
structure DeviceReadInfo where
  ledIo : UInt8
  beepIo : UInt8
  pwmDuty : UInt8
  apInfo : ApInfo
  icmInfo : IcmInfo
  angle : Int32
  hx711 : UInt32
  vf610Adc : UInt32
  rtcTimer : StructString

namespace DeviceReadInfo

/-- What `clear` leaves of any object. -/
def clear : DeviceReadInfo where
  ledIo := 0
  beepIo := 0
  pwmDuty := 0
  apInfo := ⟨0, 0, 0⟩
  icmInfo := ⟨0, 0, 0, 0, 0, 0, 0⟩
  angle := 0
  hx711 := 0
  vf610Adc := 0
  rtcTimer := ⟨0, .filled structStringMaxSize 0⟩

/-- `data`: the ten words that `copy_to_buffer` copies. -/
def data (info : DeviceReadInfo) : List UInt32 :=
  [info.icmInfo.accelXAct, info.icmInfo.accelYAct, info.icmInfo.accelZAct, info.icmInfo.gyroXAct,
    info.icmInfo.gyroYAct, info.icmInfo.gyroZAct, info.icmInfo.tempAct, floatOfInt info.angle, info.hx711,
    info.vf610Adc]

/-- `copy_to_buffer`: the buffer and the size returned. -/
def copyToBuffer (info : DeviceReadInfo) (buffer : FixedBuffer UInt8 deviceRxBufferSize) :
    AppendBuffer UInt8 deviceRxBufferSize 8 :=
  let out : AppendBuffer UInt8 deviceRxBufferSize 8 := ⟨buffer, 0⟩
  let out := out.pushEach
    [info.ledIo, info.beepIo, info.pwmDuty, highByte info.apInfo.als, lowByte info.apInfo.als,
      highByte info.apInfo.ir, lowByte info.apInfo.ir, highByte info.apInfo.ps, lowByte info.apInfo.ps]
  let out := info.data.foldl (fun out word => out.pushAll (wordBytes word)) out
  let out := out.push info.rtcTimer.size
  if 0 < info.rtcTimer.size then
    out.pushAll (info.rtcTimer.buffer.contents info.rtcTimer.size.toNat)
  else out

end DeviceReadInfo

/-- A plain `char` as an `int`, where plain `char` is signed or not. -/
def promote (signed : Bool) (c : UInt8) : UInt32 := if signed then c.toInt8.toInt32.toUInt32 else c.toUInt32

/-- `CREATE_UINT16` of two elements of plain `char`. -/
def createUint16 (signed : Bool) (a b : UInt8) : UInt16 :=
  (promote signed a <<< 8 ||| promote signed b).toUInt16

/-- `copy_to_device` on an object with any contents. -/
def DeviceReadInfo.copyToDevice (signed : Bool) (buffer : FixedBuffer UInt8 deviceRxBufferSize)
    (info : DeviceReadInfo) : DeviceReadInfo where
  ledIo := buffer.read 0
  beepIo := buffer.read 1
  pwmDuty := buffer.read 2
  apInfo :=
    { als := createUint16 signed (buffer.read 3) (buffer.read 4)
      ir := createUint16 signed (buffer.read 5) (buffer.read 6)
      ps := createUint16 signed (buffer.read 7) (buffer.read 8) }
  icmInfo :=
    { accelXAct := wordOfBytes (buffer.slice 9 4)
      accelYAct := wordOfBytes (buffer.slice 13 4)
      accelZAct := wordOfBytes (buffer.slice 17 4)
      gyroXAct := wordOfBytes (buffer.slice 21 4)
      gyroYAct := wordOfBytes (buffer.slice 25 4)
      gyroZAct := wordOfBytes (buffer.slice 29 4)
      tempAct := wordOfBytes (buffer.slice 33 4) }
  angle := intOfFloat (wordOfBytes (buffer.slice 37 4))
  hx711 := wordOfBytes (buffer.slice 41 4)
  vf610Adc := wordOfBytes (buffer.slice 45 4)
  rtcTimer :=
    { size := buffer.read 49
      buffer :=
        if 0 < buffer.read 49 then info.rtcTimer.buffer.writeAll 0 (buffer.slice 50 (buffer.read 49).toNat)
        else info.rtcTimer.buffer }

/-- A status that both codecs can carry: the angle is exact in single precision and the time fits its
buffer. -/
structure DeviceReadInfo.InRange (info : DeviceReadInfo) : Prop where
  angle : info.angle.toInt.natAbs ≤ 2 ^ 24
  rtcSize : info.rtcTimer.size.toNat ≤ structStringMaxSize

/-- A cleared status can be carried. -/
theorem DeviceReadInfo.clear_inRange : DeviceReadInfo.clear.InRange := ⟨by decide, by decide⟩

/-- An object restores a status: every field, and of the buffer of the time as much as is used. -/
structure DeviceReadInfo.Restores (restored info : DeviceReadInfo) : Prop where
  ledIo : restored.ledIo = info.ledIo
  beepIo : restored.beepIo = info.beepIo
  pwmDuty : restored.pwmDuty = info.pwmDuty
  apInfo : restored.apInfo = info.apInfo
  icmInfo : restored.icmInfo = info.icmInfo
  angle : restored.angle = info.angle
  hx711 : restored.hx711 = info.hx711
  vf610Adc : restored.vf610Adc = info.vf610Adc
  rtcSize : restored.rtcTimer.size = info.rtcTimer.size
  rtcBuffer : restored.rtcTimer.buffer.contents info.rtcTimer.size.toNat =
    info.rtcTimer.buffer.contents info.rtcTimer.size.toNat

/-- Extending the low byte with its sign does no harm: it is not negative, or all bits above are set. -/
def Extends (x : UInt16) : Prop := lowByte x < 0x80 ∨ highByte x = 0xff

instance (x : UInt16) : Decidable (Extends x) := by
  unfold Extends
  infer_instance

/-- The words of `ap_info_` that `CREATE_UINT16` restores where plain `char` is signed. -/
def ApInfo.SurvivesSign (ap : ApInfo) : Prop := Extends ap.als ∧ Extends ap.ir ∧ Extends ap.ps

instance (ap : ApInfo) : Decidable ap.SurvivesSign := by
  unfold ApInfo.SurvivesSign
  infer_instance

/-- What sign extension adds above a plain `char`. -/
def extension (signed : Bool) (c : UInt8) : UInt8 := if signed = true ∧ ¬ c < 0x80 then 0xff else 0

/-- The low half of a plain `char` as an `int`. -/
theorem promote_toUInt16 (signed : Bool) (c : UInt8) :
    (promote signed c).toUInt16 = joinBytes (extension signed c) c := by
  have hall : ∀ i < 256, ∀ signed : Bool, (promote signed (UInt8.ofNat i)).toUInt16 =
      joinBytes (extension signed (UInt8.ofNat i)) (UInt8.ofNat i) := by
    decide +kernel
  have hc := hall c.toNat c.toNat_lt signed
  rwa [UInt8.ofNat_toNat] at hc

/-- `CREATE_UINT16` puts the sign of the low byte over the high byte. -/
theorem createUint16_eq (signed : Bool) (a b : UInt8) :
    createUint16 signed a b = joinBytes (a ||| extension signed b) b := by
  rw [createUint16, UInt32.toUInt16_or, UInt32.toUInt16_shiftLeft _ _ (by decide), promote_toUInt16,
    promote_toUInt16]
  change joinBytes _ a <<< 8 ||| _ = _
  rw [joinBytes_shiftLeft, joinBytes_or, UInt8.zero_or]

/-- `CREATE_UINT16` restores a word where plain `char` is unsigned, or where the sign does no harm. -/
theorem createUint16_bytes_iff (signed : Bool) (x : UInt16) :
    createUint16 signed (highByte x) (lowByte x) = x ↔ signed = false ∨ Extends x := by
  rw [createUint16_eq, extension]
  by_cases hneg : signed = true ∧ ¬ lowByte x < 0x80
  · have hhigh : highByte x ||| 0xff = 0xff := UInt8.or_neg_one
    rw [if_pos hneg, hhigh]
    constructor
    · intro heq
      have hbyte := congrArg highByte heq
      rw [highByte_joinBytes] at hbyte
      exact Or.inr (Or.inr hbyte.symm)
    · intro hcond
      rcases hcond with hunsigned | hlow | hbyte
      · exact absurd (hneg.1.symm.trans hunsigned) Bool.noConfusion
      · exact absurd hlow hneg.2
      · rw [← hbyte, joinBytes_highByte_lowByte]
  · rw [if_neg hneg, UInt8.or_zero, joinBytes_highByte_lowByte]
    refine ⟨fun _ => ?_, fun _ => rfl⟩
    cases signed with
    | false => exact Or.inl rfl
    | true => exact Or.inr (Or.inl (not_not.mp fun hlow => hneg ⟨rfl, hlow⟩))

namespace DeviceReadInfo

/-- The bytes of the three flags and of `ap_info_`. -/
def head (info : DeviceReadInfo) : List UInt8 :=
  [info.ledIo, info.beepIo, info.pwmDuty, highByte info.apInfo.als, lowByte info.apInfo.als,
    highByte info.apInfo.ir, lowByte info.apInfo.ir, highByte info.apInfo.ps, lowByte info.apInfo.ps]

/-- The record of a status: what `copy_to_buffer` writes. -/
def record (info : DeviceReadInfo) : List UInt8 :=
  info.head ++ info.data.flatMap wordBytes ++ [info.rtcTimer.size] ++
    info.rtcTimer.buffer.contents info.rtcTimer.size.toNat

/-- The loop over the words appends their bytes. -/
theorem pushWords_holds {out : AppendBuffer UInt8 deviceRxBufferSize 8} {l : List UInt8} (h : out.Holds l)
    (words : List UInt32) (hsize : l.length + 4 * words.length < 256) :
    (words.foldl (fun out word => out.pushAll (wordBytes word)) out).Holds
      (l ++ words.flatMap wordBytes) := by
  induction words generalizing out l with
  | nil => rwa [List.flatMap_nil, List.append_nil]
  | cons word words ih =>
    have hlen : (wordBytes word).length = 4 := rfl
    rw [List.length_cons] at hsize
    have hword := h.pushAll_of_lt (wordBytes word) (by simp only [deviceRxBufferSize]; omega) (by omega)
    have hwords := ih hword (by rw [List.length_append]; omega)
    rwa [List.append_assoc] at hwords

/-- The bytes used of the time are as many as its size says. -/
theorem InRange.rtc_length {info : DeviceReadInfo} (h : info.InRange) :
    (info.rtcTimer.buffer.contents info.rtcTimer.size.toNat).length = info.rtcTimer.size.toNat := by
  rw [FixedBuffer.contents_length]
  exact min_eq_left h.rtcSize

/-- A record has fifty bytes and those of the time. -/
theorem InRange.record_length {info : DeviceReadInfo} (h : info.InRange) :
    info.record.length = 50 + info.rtcTimer.size.toNat := by
  rw [record, List.length_append, h.rtc_length]
  rfl

/-- `copy_to_buffer` writes the record, inside the buffer and the range of its counter. -/
theorem InRange.copyToBuffer_holds {info : DeviceReadInfo} (h : info.InRange)
    (buffer : FixedBuffer UInt8 deviceRxBufferSize) (hbuffer : buffer.overrun = false) :
    (info.copyToBuffer buffer).Holds info.record := by
  have hsize := h.rtcSize
  have hrtc := h.rtc_length
  have hlen₁ : info.head.length = 9 := rfl
  have hlen₂ : (info.head ++ info.data.flatMap wordBytes).length = 49 := rfl
  have hlen₃ : (info.head ++ info.data.flatMap wordBytes ++ [info.rtcTimer.size]).length = 50 := rfl
  have hnil : (⟨buffer, 0⟩ : AppendBuffer UInt8 deviceRxBufferSize 8).Holds [] :=
    AppendBuffer.holds_nil buffer hbuffer
  have hhead := hnil.pushEach_of_lt info.head (by rw [hlen₁]; decide) (by rw [hlen₁]; decide)
  have hdata := pushWords_holds hhead info.data (show 9 + 4 * 10 < 256 by decide)
  have hpushed := hdata.push_of_lt info.rtcTimer.size (hlen₂.trans_lt (by decide))
    ((congrArg (· + 1) hlen₂).trans_lt (by decide))
  unfold copyToBuffer
  dsimp only
  split
  · apply hpushed.pushAll_of_lt
    · change (info.head ++ info.data.flatMap wordBytes ++ [info.rtcTimer.size]).length + _ ≤ _
      rw [hlen₃, hrtc]
      simp only [deviceRxBufferSize, structStringMaxSize] at hsize ⊢
      omega
    · change (info.head ++ info.data.flatMap wordBytes ++ [info.rtcTimer.size]).length + _ < _
      rw [hlen₃, hrtc]
      simp only [structStringMaxSize] at hsize
      omega
  · next hnone =>
    have hzero : info.rtcTimer.size.toNat = 0 := Nat.eq_zero_of_not_pos hnone
    rw [record, hzero, FixedBuffer.contents_zero, List.append_nil]
    exact hpushed

section Decoding

variable {info : DeviceReadInfo} {buffer : FixedBuffer UInt8 deviceRxBufferSize}

/-- An element of the part of fixed size is read from the record. -/
theorem InRange.read (h : info.InRange) (hsees : Sees info.record buffer) {i : ℕ} (hi : i < 50) :
    buffer.read i = info.record.getD i 0 :=
  buffer.read_eq_of_contents hsees (by rw [h.record_length]; omega) 0

/-- A word is read from the record. -/
theorem InRange.word (h : info.InRange) (hsees : Sees info.record buffer) {k : ℕ} (hk : k < 10) :
    wordOfBytes (buffer.slice (9 + 4 * k) 4) = info.data.getD k 0 := by
  have hdrop : info.record.drop (9 + 4 * k) = (info.data.flatMap wordBytes ++ ([info.rtcTimer.size] ++
      info.rtcTimer.buffer.contents info.rtcTimer.size.toNat)).drop (4 * k) := by
    rw [record, List.append_assoc, List.append_assoc, ← List.drop_drop]
    rfl
  rw [buffer.slice_eq_of_contents hsees (by rw [h.record_length]; omega), hdrop,
    take_drop_flatMap_wordBytes _ _ hk, wordOfBytes_wordBytes]

/-- The bytes used of the time are read from the end of the record. -/
theorem InRange.rtc (h : info.InRange) (hsees : Sees info.record buffer) :
    buffer.slice 50 info.rtcTimer.size.toNat = info.rtcTimer.buffer.contents info.rtcTimer.size.toNat := by
  rw [buffer.slice_eq_of_contents hsees (by rw [h.record_length])]
  change (info.rtcTimer.buffer.contents info.rtcTimer.size.toNat).take _ = _
  rw [List.take_of_length_le h.rtc_length.le]

/-- `copy_to_device` restores of a record all but `ap_info_`, on any object and with any plain `char`. -/
theorem InRange.copyToDevice_restores (h : info.InRange) (hsees : Sees info.record buffer) (signed : Bool)
    (previous : DeviceReadInfo) (hap : (copyToDevice signed buffer previous).apInfo = info.apInfo) :
    (copyToDevice signed buffer previous).Restores info where
  ledIo := h.read hsees (i := 0) (by decide)
  beepIo := h.read hsees (i := 1) (by decide)
  pwmDuty := h.read hsees (i := 2) (by decide)
  apInfo := hap
  icmInfo := by
    rw [IcmInfo.mk.injEq]
    exact ⟨h.word hsees (k := 3) (by decide), h.word hsees (k := 4) (by decide),
      h.word hsees (k := 5) (by decide), h.word hsees (k := 0) (by decide),
      h.word hsees (k := 1) (by decide), h.word hsees (k := 2) (by decide), h.word hsees (k := 6) (by decide)⟩
  angle := (congrArg intOfFloat (h.word hsees (k := 7) (by decide))).trans (intOfFloat_floatOfInt h.angle)
  hx711 := h.word hsees (k := 8) (by decide)
  vf610Adc := h.word hsees (k := 9) (by decide)
  rtcSize := h.read hsees (i := 49) (by decide)
  rtcBuffer := by
    have hsize : buffer.read 49 = info.rtcTimer.size := h.read hsees (i := 49) (by decide)
    have hrtc := h.rtc_length
    change (if 0 < buffer.read 49 then
      previous.rtcTimer.buffer.writeAll 0 (buffer.slice 50 (buffer.read 49).toNat)
      else previous.rtcTimer.buffer).contents _ = _
    rw [hsize, h.rtc hsees]
    split
    · have hwritten := previous.rtcTimer.buffer.writeAll_zero_contents
        (info.rtcTimer.buffer.contents info.rtcTimer.size.toNat) (hrtc.trans_le h.rtcSize)
      rwa [hrtc] at hwritten
    · next hnone =>
      have hzero : info.rtcTimer.size.toNat = 0 := Nat.eq_zero_of_not_pos hnone
      rw [hzero]
      rfl

/-- The words of `ap_info_` come back as `CREATE_UINT16` makes them of their bytes. -/
theorem InRange.copyToDevice_apInfo (h : info.InRange) (hsees : Sees info.record buffer) (signed : Bool)
    (previous : DeviceReadInfo) :
    (copyToDevice signed buffer previous).apInfo =
      { als := createUint16 signed (highByte info.apInfo.als) (lowByte info.apInfo.als)
        ir := createUint16 signed (highByte info.apInfo.ir) (lowByte info.apInfo.ir)
        ps := createUint16 signed (highByte info.apInfo.ps) (lowByte info.apInfo.ps) } := by
  rw [copyToDevice, h.read hsees (i := 3) (by decide), h.read hsees (i := 4) (by decide),
    h.read hsees (i := 5) (by decide), h.read hsees (i := 6) (by decide), h.read hsees (i := 7) (by decide),
    h.read hsees (i := 8) (by decide)]
  rfl

/-- The words of `ap_info_` are restored where plain `char` is unsigned, or where no sign does harm. -/
theorem InRange.copyToDevice_apInfo_iff (h : info.InRange) (hsees : Sees info.record buffer) (signed : Bool)
    (previous : DeviceReadInfo) :
    (copyToDevice signed buffer previous).apInfo = info.apInfo ↔
      signed = false ∨ info.apInfo.SurvivesSign := by
  rw [h.copyToDevice_apInfo hsees, ApInfo.mk.injEq, createUint16_bytes_iff, createUint16_bytes_iff,
    createUint16_bytes_iff, ApInfo.SurvivesSign]
  cases signed with
  | false => simp
  | true =>
    simp only [Bool.true_eq_false, false_or]
    exact and_left_comm

end Decoding

/-- The codecs of the device status on the bytes of one record, in any receive buffer that begins with it
and for any contents of the receiving object: every field is restored, and the size returned is
fifty more than that of the time, exactly when plain `char` is unsigned or every word of `ap_info_`
has a low byte below `0x80` or a high byte of `0xff`. -/
theorem copyToDevice_copyToBuffer_iff (signed : Bool) (info : DeviceReadInfo) (h : info.InRange)
    (txBuffer : Vector UInt8 deviceRxBufferSize) (rxBuffer : FixedBuffer UInt8 deviceRxBufferSize)
    (hsees : Sees (info.copyToBuffer ⟨txBuffer, false⟩).written rxBuffer) (previous : DeviceReadInfo) :
    ((copyToDevice signed rxBuffer previous).Restores info ∧
        (info.copyToBuffer ⟨txBuffer, false⟩).size = 50 + info.rtcTimer.size.toNat) ↔
      signed = false ∨ info.apInfo.SurvivesSign := by
  have hholds := h.copyToBuffer_holds ⟨txBuffer, false⟩ rfl
  rw [hholds.written_eq] at hsees
  rw [← h.copyToDevice_apInfo_iff hsees signed previous]
  constructor
  · intro hrestored
    exact hrestored.1.apInfo
  · intro hap
    exact ⟨h.copyToDevice_restores hsees signed previous hap, hholds.size.trans h.record_length⟩

/-- A bright light is restored also where plain `char` is signed. -/
theorem copyToDevice_copyToBuffer_iff_light :
    ∃ info : DeviceReadInfo, info.apInfo.als = 0xff80 ∧
      (copyToDevice true ((FixedBuffer.filled deviceRxBufferSize 0).writeAll 0
        (info.copyToBuffer ⟨.replicate _ 0, false⟩).written) clear).Restores info ∧
      (info.copyToBuffer ⟨.replicate _ 0, false⟩).size = 50 + info.rtcTimer.size.toNat :=
  ⟨{ clear with apInfo := ⟨0, 0xff80, 0⟩ }, rfl,
    (copyToDevice_copyToBuffer_iff true { clear with apInfo := ⟨0, 0xff80, 0⟩ }
      ⟨by decide, by decide⟩ (.replicate _ 0) _ (sees_writeAll _ _ (by decide +kernel)) clear).mpr
      (Or.inr (by decide))⟩

/-- A light of `0x0080` comes back as `0xff80` where plain `char` is signed. -/
theorem copyToDevice_copyToBuffer_fails :
    ¬ ∀ (signed : Bool) (info : DeviceReadInfo), info.InRange →
        ∀ (txBuffer : Vector UInt8 deviceRxBufferSize) (rxBuffer : FixedBuffer UInt8 deviceRxBufferSize),
        Sees (info.copyToBuffer ⟨txBuffer, false⟩).written rxBuffer → ∀ previous : DeviceReadInfo,
        (copyToDevice signed rxBuffer previous).Restores info ∧
          (info.copyToBuffer ⟨txBuffer, false⟩).size = 50 + info.rtcTimer.size.toNat := by
  intro h
  have hrestores := h true { clear with apInfo := ⟨0, 0x0080, 0⟩ } ⟨by decide, by decide⟩ (.replicate _ 0)
    ((FixedBuffer.filled deviceRxBufferSize 0).writeAll 0
      (copyToBuffer { clear with apInfo := ⟨0, 0x0080, 0⟩ } ⟨.replicate _ 0, false⟩).written)
    (sees_writeAll _ _ (by decide +kernel)) clear
  have hals := congrArg ApInfo.als hrestores.1.apInfo
  revert hals
  decide +kernel

end DeviceReadInfo

end RemoteManage.LocalDevice

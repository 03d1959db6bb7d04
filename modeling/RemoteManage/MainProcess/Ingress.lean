import RemoteManage.Common.AsioServer
import RemoteManage.LocalDevice.IioDevice
import RemoteManage.MainProcess.Console
import RemoteManage.MainProcess.MqttProtocol

/-!
# Where bytes come in

Four buffers take bytes that a peer has chosen: `data_` of a TCP session, `rx_buffer_` of the console,
`buffer_` of the MQTT client and `buf` of `update`. Each receive path fills its buffer from the beginning and
puts a zero behind the bytes. Three of them read no more than the buffer holds, so that the zero
of a read that fills it falls outside; the MQTT client copies any payload. No path writes outside its
buffer exactly when every message is shorter than the buffer.
-/

namespace RemoteManage.MainProcess

open RemoteManage.Foundation RemoteManage.LocalDevice RemoteManage.Common

/-- The buffers; each session has one of its own. -/
structure Ingress (σ : Type*) where
  data : σ → FixedBuffer UInt8 maxLength
  rxBuffer : FixedBuffer UInt8 deviceRxBufferSize
  mqtt : MqttDevice
  buf : FixedBuffer UInt8 updateBufSize

/-- What a peer delivers. -/
inductive IngressMessage (σ : Type*) where
  /-- A read of a session completes. -/
  | segment (p : σ) (bytes : List UInt8)
  /-- A read of the console FIFO. -/
  | command (bytes : List UInt8)
  /-- A message of the broker. -/
  | publish (topic payload : List UInt8)
  /-- The files of the two converters, where they are open. -/
  | converters (vf610 hx711 : Option (List UInt8))

/-- A read delivers some bytes and no more than it asks for; a payload and a file have any length. -/
def IngressMessage.Deliverable {σ : Type*} : IngressMessage σ → Prop
  | .segment _ bytes => bytes ≠ [] ∧ bytes.length ≤ maxLength
  | .command bytes => bytes ≠ [] ∧ bytes.length ≤ deviceRxBufferSize
  | .publish _ _ => True
  | .converters _ _ => True

/-- The message is shorter than the buffer that it is put into, if it is put into one. -/
def IngressMessage.Fits {σ : Type*} (subTopic : List UInt8) : IngressMessage σ → Prop
  | .segment _ bytes => bytes.length < maxLength
  | .command bytes => bytes.length < deviceRxBufferSize
  | .publish topic payload => topic = subTopic → payload.length < 512
  | .converters vf610 hx711 => LeavesRoom vf610 ∧ LeavesRoom hx711

namespace Ingress

variable {σ : Type*} [LinearOrder σ]

/-- The buffers after a message. -/
def receive (s : Ingress σ) : IngressMessage σ → Ingress σ
  | .segment p bytes =>
    { s with data := fun q => if q = p then AsioServer.readInto (s.data p) bytes else s.data q }
  | .command bytes => { s with rxBuffer := bufferAfter s.rxBuffer bytes }
  | .publish topic payload =>
    if topic = s.mqtt.subTopic then { s with mqtt := { s.mqtt with buffer := s.mqtt.received payload } }
    else s
  | .converters vf610 hx711 => { s with buf := updateBuf s.buf vf610 hx711 }

/-- No write has fallen outside a buffer. -/
structure Intact (s : Ingress σ) : Prop where
  data : ∀ p, (s.data p).overrun = false
  rxBuffer : s.rxBuffer.overrun = false
  mqtt : s.mqtt.buffer.overrun = false
  buf : s.buf.overrun = false

/-- A command is put into the buffer, and its name is ended there, exactly when the command is shorter than
the buffer. -/
theorem overrun_bufferAfter_iff (rx : FixedBuffer UInt8 deviceRxBufferSize) (command : List UInt8) :
    (bufferAfter rx command).overrun = false ↔ rx.overrun = false ∧ command.length < deviceRxBufferSize := by
  have hreceive : (MainProcess.receive rx command).overrun = false ↔
      rx.overrun = false ∧ command.length < deviceRxBufferSize :=
    FixedBuffer.overrun_terminated_iff rx command 0
  rw [bufferAfter, parseData, FixedBuffer.overrun_write_iff, hreceive]
  refine and_iff_left_of_imp fun h => ?_
  have hzero : (0 : UInt8) ∈ (MainProcess.receive rx command).cells.toList := by
    rw [receive_toList rx h.2]
    exact List.mem_append_right _ List.mem_cons_self
  have hlength : (MainProcess.receive rx command).cells.toList.length = deviceRxBufferSize := by simp
  nth_rewrite 3 [← hlength]
  refine lt_of_le_of_ne (List.takeWhile_prefix _).length_le fun hall => ?_
  have hstop := List.takeWhile_eq_self_iff.mp ((List.takeWhile_prefix _).eq_of_length hall) 0 hzero
  contradiction

/-- A segment leaves the buffers intact exactly when it is shorter than the buffer of its session, whose other
sessions it does not touch. -/
theorem intact_receive_segment_iff (s : Ingress σ) (p : σ) (bytes : List UInt8) :
    (s.receive (.segment p bytes)).Intact ↔ s.Intact ∧ bytes.length < maxLength := by
  have hread : (AsioServer.readInto (s.data p) bytes).overrun = false ↔
      (s.data p).overrun = false ∧ bytes.length < maxLength :=
    FixedBuffer.overrun_terminated_iff (s.data p) bytes 0
  have hdata (q : σ) : (s.receive (.segment p bytes)).data q =
    if q = p then AsioServer.readInto (s.data p) bytes else s.data q := rfl
  constructor
  · intro h
    have hp := h.data p
    rw [hdata, if_pos rfl, hread] at hp
    refine ⟨⟨fun q => ?_, h.rxBuffer, h.mqtt, h.buf⟩, hp.2⟩
    have hq := h.data q
    rw [hdata] at hq
    split at hq
    · next heq => exact heq ▸ hp.1
    · exact hq
  · rintro ⟨h, hfits⟩
    refine ⟨fun q => ?_, h.rxBuffer, h.mqtt, h.buf⟩
    rw [hdata]
    split
    · exact hread.mpr ⟨h.data p, hfits⟩
    · exact h.data q

/-- A message leaves the buffers intact exactly when it fits. -/
theorem intact_receive_iff (s : Ingress σ) (message : IngressMessage σ) :
    (s.receive message).Intact ↔ s.Intact ∧ message.Fits s.mqtt.subTopic := by
  cases message with
  | segment p bytes => exact intact_receive_segment_iff s p bytes
  | command bytes =>
    have hread := overrun_bufferAfter_iff s.rxBuffer bytes
    exact ⟨fun h => ⟨⟨h.data, (hread.mp h.rxBuffer).1, h.mqtt, h.buf⟩, (hread.mp h.rxBuffer).2⟩,
      fun h => ⟨h.1.data, hread.mpr ⟨h.1.rxBuffer, h.2⟩, h.1.mqtt, h.1.buf⟩⟩
  | publish topic payload =>
    have hread := FixedBuffer.overrun_terminated_iff s.mqtt.buffer payload 0
    by_cases htopic : topic = s.mqtt.subTopic
    · rw [receive, if_pos htopic]
      exact ⟨fun h => ⟨⟨h.data, h.rxBuffer, (hread.mp h.mqtt).1, h.buf⟩, fun _ => (hread.mp h.mqtt).2⟩,
        fun h => ⟨h.1.data, h.1.rxBuffer, hread.mpr ⟨h.1.mqtt, h.2 htopic⟩, h.1.buf⟩⟩
    · rw [receive, if_neg htopic]
      exact (and_iff_left fun h => absurd h htopic).symm
  | converters vf610 hx711 =>
    have hread := overrun_updateBuf_iff s.buf vf610 hx711
    exact ⟨fun h => ⟨⟨h.data, h.rxBuffer, h.mqtt, (hread.mp h.buf).1⟩, (hread.mp h.buf).2⟩,
      fun h => ⟨h.1.data, h.1.rxBuffer, h.1.mqtt, hread.mpr ⟨h.1.buf, h.2⟩⟩⟩

/-- The topic stays subscribed. -/
theorem subTopic_receive (s : Ingress σ) (message : IngressMessage σ) :
    (s.receive message).mqtt.subTopic = s.mqtt.subTopic := by
  cases message with
  | publish topic payload =>
    rw [receive]
    split <;> rfl
  | _ => rfl

/-- Whatever messages come in, no write falls outside a buffer exactly when each of them is shorter than the
buffer that it is put into. -/
theorem intact_foldl_iff (s : Ingress σ) (messages : List (IngressMessage σ)) :
    (messages.foldl receive s).Intact ↔ s.Intact ∧ ∀ message ∈ messages, message.Fits s.mqtt.subTopic := by
  induction messages generalizing s with
  | nil => simp
  | cons message rest ih =>
    rw [List.foldl_cons, ih, intact_receive_iff, subTopic_receive, and_assoc, List.forall_mem_cons]

/-- Buffers that hold nothing but zeros. -/
def zeroed : Ingress ℕ :=
  ⟨fun _ => .filled maxLength 0, .filled deviceRxBufferSize 0, ⟨[], .filled 512 0⟩, .filled updateBufSize 0⟩

/-- A segment that fills the buffer of its session does not leave room for the zero. -/
theorem not_forall_intact : ¬ ∀ (s : Ingress ℕ) (messages : List (IngressMessage ℕ)), s.Intact →
    (∀ message ∈ messages, message.Deliverable) → (messages.foldl receive s).Intact := by
  intro h
  have hintact := h zeroed [.segment 0 (List.replicate maxLength 120)]
    ⟨fun _ => rfl, rfl, rfl, rfl⟩ fun message hmessage => by
      rw [List.mem_singleton.mp hmessage]
      exact ⟨by decide, (List.length_replicate ..).le⟩
  rw [List.foldl_cons, List.foldl_nil, intact_receive_iff] at hintact
  exact absurd hintact.2 (List.length_replicate ..).not_lt

end Ingress

end RemoteManage.MainProcess

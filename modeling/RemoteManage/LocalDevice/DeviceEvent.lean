import RemoteManage.Foundation.FixedBuffer
import RemoteManage.Foundation.WordBytes

/-!
# Device events

The records that are written to the command FIFO of `local_device`, as they lie in memory,
and what `process_event` does with the bytes it is given. An `Event` is its identifier in
two bytes. An `EventBufMessage` is forty bytes long: the identifier, two bytes of padding,
a buffer of 32 bytes and its size; what no constructor and no writer sets is whatever the
stack held. The target is little-endian.
-/

namespace RemoteManage.LocalDevice

open RemoteManage.Foundation

/-- `DEVICE_RX_BUFFER_SIZE`. -/
abbrev deviceRxBufferSize : ℕ := 512

/-- `DEVICE_LOOP_EVENT`. -/
def deviceLoopEvent : UInt16 := 0

/-- `DEVICE_HW_SET_EVENT`. -/
def deviceHwSetEvent : UInt16 := 1

/-- `DEVICE_SYNC_EVENT`. -/
def deviceSyncEvent : UInt16 := 2

/-- `DEVICE_LED`. -/
def deviceLed : UInt8 := 0

/-- `DEVICE_BEEP`. -/
def deviceBeep : UInt8 := 1

/-- `DEVICE_PWM`. -/
def devicePwm : UInt8 := 2

/-- `DEVICE_RTC`. -/
def deviceRtc : UInt8 := 3

/-- `DEVICE_RTC_ALARM`. -/
def deviceRtcAlarm : UInt8 := 4

/-- `DEVICE_LOOPLED`. -/
def deviceLoopLed : UInt8 := 5

/-- The bytes of an `Event`. -/
def eventBytes (id : UInt16) : List UInt8 := [lowByte id, highByte id]

/-- The bytes of an `EventBufMessage` whose buffer has been filled from its beginning. -/
def eventBufMessage (stack : FixedBuffer UInt8 40) (id : UInt16) (buffer : List UInt8) : List UInt8 :=
  (((stack.writeAll 0 (eventBytes id)).writeAll 36 [32, 0, 0, 0]).writeAll 4 buffer).cells.toList

/-- What `process_event` makes the device do. -/
inductive DeviceAction where
  | update
  | led (action : UInt8)
  | beep (action : UInt8)
  | pwm (state : UInt8) (period duty : UInt32)
  | loopLed (on : Bool)
  | rtc
  | invalidDevice (device : UInt8)
  | setLevel (level : UInt8)
  | nothing
  deriving DecidableEq, Repr

/-- `ArraryToUint32`. -/
def arraryToUint32 (b0 b1 b2 b3 : UInt8) : UInt32 :=
  b0.toUInt32 <<< 24 ||| b1.toUInt32 <<< 16 ||| b2.toUInt32 <<< 8 ||| b3.toUInt32

/-- `get_id` of the event at the beginning of the receive buffer. -/
def getId (rx : FixedBuffer UInt8 deviceRxBufferSize) : UInt16 := joinBytes (rx.read 1) (rx.read 0)

/-- `data.buffer[i]` of the event at the beginning of the receive buffer. -/
def dataBuffer (rx : FixedBuffer UInt8 deviceRxBufferSize) (i : ℕ) : UInt8 := rx.read (4 + i)

/-- `process_sync`. -/
def processSync (rx : FixedBuffer UInt8 deviceRxBufferSize) : DeviceAction :=
  if dataBuffer rx 0 = 0 then .setLevel (dataBuffer rx 1) else .nothing

/-- `process_hardware`. -/
def processHardware (rx : FixedBuffer UInt8 deviceRxBufferSize) : DeviceAction :=
  let device := dataBuffer rx 0
  if device = deviceLed then .led (dataBuffer rx 1)
  else if device = deviceBeep then .beep (dataBuffer rx 1)
  else if device = devicePwm then
    .pwm (dataBuffer rx 1)
      (arraryToUint32 (dataBuffer rx 2) (dataBuffer rx 3) (dataBuffer rx 4) (dataBuffer rx 5))
      (arraryToUint32 (dataBuffer rx 6) (dataBuffer rx 7) (dataBuffer rx 8) (dataBuffer rx 9))
  else if device = deviceLoopLed then .loopLed (dataBuffer rx 1 = 1)
  else if device = deviceRtc then .rtc
  else .invalidDevice device

/-- `process_event` on the receive buffer. -/
def processEvent (rx : FixedBuffer UInt8 deviceRxBufferSize) : DeviceAction :=
  if getId rx = deviceLoopEvent then .update
  else if getId rx = deviceHwSetEvent then processHardware rx
  else if getId rx = deviceSyncEvent then processSync rx
  else .nothing

/-- A buffer message is forty bytes long. -/
theorem eventBufMessage_length (stack : FixedBuffer UInt8 40) (id : UInt16) (buffer : List UInt8) :
    (eventBufMessage stack id buffer).length = 40 := by
  rw [eventBufMessage, Vector.length_toList]

/-- The receive buffer begins with the bytes of the record. -/
def Sees (record : List UInt8) (rx : FixedBuffer UInt8 deviceRxBufferSize) : Prop :=
  rx.contents record.length = record

/-- The receive buffer begins with whatever part of a record is seen in it. -/
theorem Sees.contents_of_part {record part : List UInt8} {rx : FixedBuffer UInt8 deviceRxBufferSize}
    (h : Sees record rx) (hpart : part <+: record) : rx.contents part.length = part := by
  have htake := congrArg (List.take part.length) h
  rw [FixedBuffer.contents, List.take_take, min_eq_left hpart.length_le] at htake
  exact htake.trans (List.prefix_iff_eq_take.mp hpart).symm

/-- A buffer message begins with its identifier and, behind two bytes of padding, its buffer. -/
theorem eventBufMessage_begins (stack : FixedBuffer UInt8 40) (id : UInt16) {buffer : List UInt8}
    (hbuffer : buffer.length ≤ 32) :
    ∃ x y, [lowByte id, highByte id, x, y] ++ buffer <+: eventBufMessage stack id buffer := by
  set filled := (stack.writeAll 0 (eventBytes id)).writeAll 36 [32, 0, 0, 0] with hfilled
  have hid : filled.contents 2 = [lowByte id, highByte id] := by
    rw [hfilled, FixedBuffer.writeAll_contents_of_le _ _ (by decide)]
    exact stack.writeAll_zero_contents (eventBytes id) (show 2 ≤ 40 by decide)
  have hpadding : filled.slice 2 2 = [filled.read 2, filled.read 3] := by
    rw [filled.slice_succ (by decide), filled.slice_succ (by decide)]
    rfl
  have hhead : filled.contents 4 = [lowByte id, highByte id, filled.read 2, filled.read 3] := by
    have hadd : filled.contents 4 = filled.contents 2 ++ filled.slice 2 2 := filled.slice_add 0 2 2
    rw [hadd, hid, hpadding]
    rfl
  refine ⟨filled.read 2, filled.read 3, ?_⟩
  rw [← hhead, ← filled.writeAll_contents 4 buffer (by omega)]
  exact List.take_prefix _ _

/-- A buffer message that is seen is recognised by its identifier, and its buffer is read back. -/
theorem Sees.eventBufMessage {stack : FixedBuffer UInt8 40} {id : UInt16} {buffer : List UInt8}
    {rx : FixedBuffer UInt8 deviceRxBufferSize} (h : Sees (eventBufMessage stack id buffer) rx)
    (hbuffer : buffer.length ≤ 32) :
    getId rx = id ∧ ∀ i < buffer.length, dataBuffer rx i = buffer.getD i 0 := by
  obtain ⟨x, y, hbegins⟩ := eventBufMessage_begins stack id hbuffer
  have hcontents := h.contents_of_part hbegins
  have hlen : ([lowByte id, highByte id, x, y] ++ buffer).length = 4 + buffer.length := List.length_append
  have hread (i : ℕ) (hi : i < 4 + buffer.length) :
      rx.read i = ([lowByte id, highByte id, x, y] ++ buffer).getD i 0 :=
    rx.read_eq_of_contents hcontents (hlen ▸ hi) 0
  refine ⟨?_, fun i hi => ?_⟩
  · rw [getId, hread 1 (by omega), hread 0 (by omega)]
    exact joinBytes_highByte_lowByte id
  · rw [dataBuffer, hread (4 + i) (by omega), List.getD_append_right _ _ _ _ (Nat.le_add_right 4 i)]
    exact congrArg (buffer.getD · 0) (Nat.add_sub_cancel_left 4 i)

/-- What is asked for by a record: what `process_event` does with it in a receive buffer that holds
nothing else. -/
def recordAction (record : List UInt8) : DeviceAction :=
  processEvent ((FixedBuffer.filled deviceRxBufferSize 0).writeAll 0 record)

/-- Bytes read to the beginning of the receive buffer are seen there. -/
theorem sees_writeAll (rx : FixedBuffer UInt8 deviceRxBufferSize) (record : List UInt8)
    (h : record.length ≤ deviceRxBufferSize) : Sees record (rx.writeAll 0 record) :=
  rx.writeAll_zero_contents record h

end RemoteManage.LocalDevice

import RemoteManage.Foundation.ScanInt
import RemoteManage.LocalDevice.CommandFifo

/-!
# Setting a device

`process_device` of the command module turns a device and a text into a call of
`set_device`, for the console and for MQTT alike. A switch is set by the text `on` and
reset by every other text. The text for the PWM device is scanned for three numbers, and a
variable for which none is found keeps what the stack held. The real-time clock and its
alarm have no case, and nothing is called for them.

What a text asks for reaches the drivers unchanged (`run_processDevice`). What is passed on is
a function of the device and the text exactly for the switches, and for the PWM device when
three numbers are found (`carried_iff`).
-/

namespace RemoteManage.MainProcess

open RemoteManage.Foundation RemoteManage.Foundation.CString RemoteManage.LocalDevice

/-- The character `;`. -/
def semicolon : UInt8 := 59

/-- The variables `state`, `peroid` and `duty_cycle`. -/
structure PwmInts where
  state : Int32
  peroid : Int32
  dutyCycle : Int32
  deriving Inhabited

/-- A call of `set_device`: the device and the bytes that are passed on. -/
structure SetDevice where
  dev : UInt8
  buf : List UInt8
  deriving DecidableEq, Repr

/-- The call puts a message on the command FIFO that is built where the stack holds anything. -/
def SetDevice.event (call : SetDevice) (stack : FixedBuffer UInt8 40) : CommandEvent :=
  .setDevice stack call.dev call.buf

/-- `set_device`: the record that is passed to `send_buffer`, or none when the bytes do not fit. -/
def setDevice (stack : FixedBuffer UInt8 40) (call : SetDevice) : Option (List UInt8) :=
  if 31 < call.buf.length then none
  else some (eventBufMessage stack deviceHwSetEvent (call.dev :: call.buf))

/-- `sscanf(data, "%d;%d;%d", &state, &peroid, &duty_cycle)` on variables that hold `junk`. -/
def scanPwm (int : IntStore) (junk : PwmInts) (data : List UInt8) : PwmInts :=
  let values := scanInts semicolon 3 data
  { state := (values[0]?.map int.store).getD junk.state
    peroid := (values[1]?.map int.store).getD junk.peroid
    dutyCycle := (values[2]?.map int.store).getD junk.dutyCycle }

/-- The four bytes of an `int`, the highest first, as shifts and narrowing give them. -/
def intBytes (x : Int32) : List UInt8 :=
  [(x >>> 24).toUInt32.toUInt8, (x >>> 16).toUInt32.toUInt8, (x >>> 8).toUInt32.toUInt8, x.toUInt32.toUInt8]

/-- The bytes that are passed on for the PWM device. -/
def pwmBuffer (ints : PwmInts) : List UInt8 :=
  ints.state.toUInt32.toUInt8 :: intBytes ints.peroid ++ intBytes ints.dutyCycle

/-- `process_device`: its result and the call of `set_device`, if it makes one. -/
def processDevice (int : IntStore) (junk : PwmInts) (dev : UInt8) (data : List UInt8) :
    Bool × Option SetDevice :=
  if dev = deviceLed ∨ dev = deviceBeep ∨ dev = deviceLoopLed then
    (true, some ⟨dev, [if data = bytes "on" then 1 else 0]⟩)
  else if dev = devicePwm then (true, some ⟨dev, pwmBuffer (scanPwm int junk data)⟩)
  else (true, none)

/-- The text says all that is passed on for the device. -/
def Carried (dev : UInt8) (data : List UInt8) : Prop :=
  (dev = deviceLed ∨ dev = deviceBeep ∨ dev = deviceLoopLed) ∨
    dev = devicePwm ∧ (scanInts semicolon 3 data).length = 3

instance (dev : UInt8) (data : List UInt8) : Decidable (Carried dev data) :=
  inferInstanceAs (Decidable (_ ∨ _))

/-- `process_device` calls `set_device` once with bytes that fit, and when nothing is queued and the
message is read alone, `process_event` does just the given action. -/
def DeliveredAs (int : IntStore) (junk : PwmInts) (stack : FixedBuffer UInt8 40) (s : CommandFifo)
    (dev : UInt8) (data : List UInt8) (action : DeviceAction) : Prop :=
  ∃ call t, processDevice int junk dev data = (true, some call) ∧
    Transition.run CommandFifo.step s [call.event stack, .read 40] = some t ∧
    t.actions = s.actions ++ [action]

/-- The bytes of an `int` are put together again to its value modulo `2 ^ 32`. -/
theorem arraryToUint32_intBytes (x : Int32) :
    arraryToUint32 (x >>> 24).toUInt32.toUInt8 (x >>> 16).toUInt32.toUInt8 (x >>> 8).toUInt32.toUInt8
      x.toUInt32.toUInt8 = x.toUInt32 := by
  apply UInt32.toBitVec_inj.mp
  apply BitVec.eq_of_getLsbD_eq
  intro i hi
  change (((x.toBitVec.sshiftRight 24).setWidth 8).setWidth 32 <<< 24 |||
    ((x.toBitVec.sshiftRight 16).setWidth 8).setWidth 32 <<< 16 |||
    ((x.toBitVec.sshiftRight 8).setWidth 8).setWidth 32 <<< 8 |||
    (x.toBitVec.setWidth 8).setWidth 32).getLsbD i = x.toBitVec.getLsbD i
  simp only [BitVec.getLsbD_or, BitVec.getLsbD_shiftLeft, BitVec.getLsbD_setWidth,
    BitVec.getLsbD_sshiftRight]
  -- The bit lies in one of the four bytes.
  obtain h8 | ⟨h8, h16⟩ | ⟨h16, h24⟩ | h24 :
    i < 8 ∨ (8 ≤ i ∧ i < 16) ∨ (16 ≤ i ∧ i < 24) ∨ 24 ≤ i := by omega
  · grind
  · have hi8 := Nat.add_sub_cancel' h8
    grind
  · grind
  · grind

/-- The unsigned word of an `int` is its value modulo `2 ^ 32`. -/
theorem toUInt32_eq_ofInt (x : Int32) : x.toUInt32 = UInt32.ofInt x.toInt := by
  apply UInt32.toNat_inj.mp
  have hword : x.toUInt32.toNat < 2 ^ 32 := x.toUInt32.toNat_lt
  have hint : x.toInt = if 2 * x.toUInt32.toNat < 2 ^ 32 then (x.toUInt32.toNat : ℤ)
      else x.toUInt32.toNat - 2 ^ 32 := x.toBitVec.toInt_eq_toNat_cond
  rw [UInt32.ofInt, UInt32.toNat_ofNat', hint]
  split <;> omega

/-- An `int` is known from its bytes. -/
theorem intBytes_injective : Function.Injective intBytes := by
  intro x y h
  obtain ⟨h24, h16, h8, h0⟩ : (x >>> 24).toUInt32.toUInt8 = (y >>> 24).toUInt32.toUInt8 ∧
      (x >>> 16).toUInt32.toUInt8 = (y >>> 16).toUInt32.toUInt8 ∧
      (x >>> 8).toUInt32.toUInt8 = (y >>> 8).toUInt32.toUInt8 ∧
      x.toUInt32.toUInt8 = y.toUInt32.toUInt8 := by
    simpa [intBytes] using h
  have hword : x.toUInt32 = y.toUInt32 := by
    rw [← arraryToUint32_intBytes x, h24, h16, h8, h0, arraryToUint32_intBytes y]
  exact congrArg UInt32.toInt32 hword

/-- The duty is known from the bytes that are passed on. -/
theorem dutyCycle_eq_of_pwmBuffer {a b : PwmInts} (h : pwmBuffer a = pwmBuffer b) :
    a.dutyCycle = b.dutyCycle := by
  have hdrop := congrArg (List.drop 5) h
  exact intBytes_injective hdrop

/-- When three numbers are found nothing of what the stack held is left. -/
theorem scanPwm_eq_of_length {int : IntStore} {data : List UInt8} (h : (scanInts semicolon 3 data).length = 3)
    (junk junk' : PwmInts) : scanPwm int junk data = scanPwm int junk' data := by
  obtain ⟨state, peroid, dutyCycle, hvalues⟩ := List.length_eq_three.mp h
  rw [scanPwm, scanPwm, hvalues]
  rfl

/-- When fewer numbers are found the duty is what the stack held. -/
theorem scanPwm_dutyCycle {int : IntStore} {data : List UInt8} (h : (scanInts semicolon 3 data).length ≠ 3)
    (junk : PwmInts) : (scanPwm int junk data).dutyCycle = junk.dutyCycle := by
  have hlen := scanInts_length_le semicolon 3 data
  have hnone : (scanInts semicolon 3 data)[2]? = none := List.getElem?_eq_none (by omega)
  rw [scanPwm, hnone]
  rfl

/-- `process_device` reports success whatever it does. -/
theorem processDevice_fst (int : IntStore) (junk : PwmInts) (dev : UInt8) (data : List UInt8) :
    (processDevice int junk dev data).1 = true := by
  unfold processDevice
  split
  · rfl
  · split <;> rfl

/-- What is passed on fits into a message. -/
theorem setDevice_of_processDevice {int : IntStore} {junk : PwmInts} {dev : UInt8} {data : List UInt8}
    {call : SetDevice} (h : (processDevice int junk dev data).2 = some call) (stack : FixedBuffer UInt8 40) :
    setDevice stack call = some (eventBufMessage stack deviceHwSetEvent (call.dev :: call.buf)) := by
  apply if_neg
  apply Nat.not_lt.mpr
  unfold processDevice at h
  split at h
  · rw [← Option.some.inj h]
    exact show 1 ≤ 31 by decide
  · split at h
    · rw [← Option.some.inj h]
      exact show 9 ≤ 31 by decide
    · contradiction

/-- The call for a switch. -/
theorem processDevice_switch (int : IntStore) (junk : PwmInts) {dev : UInt8} (data : List UInt8)
    (h : dev = deviceLed ∨ dev = deviceBeep ∨ dev = deviceLoopLed) :
    processDevice int junk dev data = (true, some ⟨dev, [if data = bytes "on" then 1 else 0]⟩) := if_pos h

/-- The call for the PWM device. -/
theorem processDevice_pwm (int : IntStore) (junk : PwmInts) (data : List UInt8) :
    processDevice int junk devicePwm data =
      (true, some ⟨devicePwm, pwmBuffer (scanPwm int junk data)⟩) := rfl

/-- When fewer than three numbers are found, two contents of the stack that differ in the duty give
different bytes. -/
theorem three_of_processDevice_pwm_const {int : IntStore} {data : List UInt8}
    (h : ∀ junk junk',
      (processDevice int junk devicePwm data).2 = (processDevice int junk' devicePwm data).2) :
    (scanInts semicolon 3 data).length = 3 := by
  by_contra hlen
  have hsame := h ⟨0, 0, 0⟩ ⟨0, 0, 1⟩
  rw [processDevice_pwm, processDevice_pwm] at hsame
  have hbuffer := congrArg SetDevice.buf (Option.some.inj hsame)
  have hduty := dutyCycle_eq_of_pwmBuffer hbuffer
  rw [scanPwm_dutyCycle hlen, scanPwm_dutyCycle hlen] at hduty
  exact absurd hduty (by decide)

/-- What is passed on does not depend on what the stack held exactly when the text says all of it. -/
theorem carried_iff (int : IntStore) (dev : UInt8) (data : List UInt8) :
    Carried dev data ↔ ∃ call, ∀ junk, processDevice int junk dev data = (true, some call) := by
  constructor
  · rintro (hswitch | ⟨rfl, hlen⟩)
    · exact ⟨_, fun junk => processDevice_switch int junk data hswitch⟩
    · refine ⟨⟨devicePwm, pwmBuffer (scanPwm int default data)⟩, fun junk => ?_⟩
      rw [processDevice_pwm, scanPwm_eq_of_length hlen junk default]
  · rintro ⟨call, hcall⟩
    by_cases hswitch : dev = deviceLed ∨ dev = deviceBeep ∨ dev = deviceLoopLed
    · exact .inl hswitch
    · by_cases hpwm : dev = devicePwm
      · subst hpwm
        exact .inr ⟨rfl, three_of_processDevice_pwm_const fun junk junk' =>
          congrArg Prod.snd ((hcall junk).trans (hcall junk').symm)⟩
      · have hnone := hcall default
        rw [processDevice, if_neg hswitch, if_neg hpwm] at hnone
        exact nomatch congrArg Prod.snd hnone

/-- Where no second number is reached, what is passed on to the PWM device depends on the stack. -/
theorem processDevice_pwm_not_const (int : IntStore) {data : List UInt8} (h : semicolon ∉ data) :
    ¬ ∀ junk junk',
      (processDevice int junk devicePwm data).2 = (processDevice int junk' devicePwm data).2 := by
  intro hconst
  have hone := scanInts_length_le_one h 3
  have hthree := three_of_processDevice_pwm_const hconst
  omega

/-- What `set_device` puts on the command FIFO. -/
theorem step_event (s : CommandFifo) (stack : FixedBuffer UInt8 40) (call : SetDevice) :
    CommandFifo.step s (call.event stack) =
      some { s with pipe := ((setDevice stack call).map s.pipe.write).getD s.pipe } := by
  unfold SetDevice.event CommandFifo.step setDevice
  dsimp only
  split <;> rfl

/-- A message that is written when nothing is queued and then read is handled alone. -/
theorem run_event_read {s : CommandFifo} {stack : FixedBuffer UInt8 40} {call : SetDevice}
    {record : List UInt8} (hempty : s.pipe.queued = []) (hrecord : setDevice stack call = some record) :
    ∃ t, Transition.run CommandFifo.step s [call.event stack, .read 40] = some t ∧
      t.actions = s.actions ++ [processEvent (s.rxBuffer.writeAll 0 record)] := by
  have hlen : record.length = 40 := by
    obtain ⟨-, hmessage⟩ := Option.ite_none_left_eq_some.mp hrecord
    rw [← Option.some.inj hmessage]
    exact eventBufMessage_length _ _ _
  have hwrite : CommandFifo.step s (call.event stack) = some { s with pipe := s.pipe.write record } := by
    rw [step_event, hrecord]
    rfl
  have hqueued : (s.pipe.write record).queued = record := by rw [RecordPipe.write, hempty, List.nil_append]
  have hread : CommandFifo.step { s with pipe := s.pipe.write record } (.read 40) =
      some { s with
        pipe := (s.pipe.write record).read 40 (s.rxBuffer.writeAll 0 record)
        rxBuffer := s.rxBuffer.writeAll 0 record } := by
    have htake : record.take 40 = record := List.take_of_length_le hlen.le
    simp only [CommandFifo.step, hqueued, hlen, htake]
    exact if_pos (by decide)
  exact ⟨_, Transition.run_cons_eq_some.mpr ⟨_, hwrite, Transition.run_singleton hread⟩, List.map_append⟩

/-- A call whose message is recognised in every receive buffer is delivered as what it asks for. -/
theorem deliveredAs_of_call {int : IntStore} {junk : PwmInts} {stack : FixedBuffer UInt8 40} {s : CommandFifo}
    {dev : UInt8} {data buf : List UInt8} {action : DeviceAction} (hempty : s.pipe.queued = [])
    (hcall : processDevice int junk dev data = (true, some ⟨dev, buf⟩)) (hfits : buf.length ≤ 31)
    (haction : ∀ rx, (∀ i < buf.length + 1, dataBuffer rx i = (dev :: buf).getD i 0) →
      processHardware rx = action) : DeliveredAs int junk stack s dev data action := by
  have hrecord : setDevice stack ⟨dev, buf⟩ = some (eventBufMessage stack deviceHwSetEvent (dev :: buf)) :=
    if_neg (Nat.not_lt.mpr hfits)
  obtain ⟨t, hrun, hactions⟩ := run_event_read hempty hrecord
  obtain ⟨hid, hbuffer⟩ := (sees_writeAll s.rxBuffer (eventBufMessage stack deviceHwSetEvent (dev :: buf))
    (by rw [eventBufMessage_length]; decide)).eventBufMessage (Nat.succ_le_succ hfits)
  have hevent : processEvent (s.rxBuffer.writeAll 0
      (eventBufMessage stack deviceHwSetEvent (dev :: buf))) = action := by
    rw [processEvent, hid]
    exact haction _ hbuffer
  exact ⟨⟨dev, buf⟩, t, hcall, hrun, hevent ▸ hactions⟩

/-- The value of a switch is passed on as a byte. -/
theorem deliveredAs_switch {dev : UInt8} (hdev : dev = deviceLed ∨ dev = deviceBeep ∨ dev = deviceLoopLed)
    {int : IntStore} {junk : PwmInts} {stack : FixedBuffer UInt8 40} {s : CommandFifo} {data : List UInt8}
    {action : DeviceAction} (hempty : s.pipe.queued = [])
    (haction : ∀ rx, dataBuffer rx 0 = dev → dataBuffer rx 1 = (if data = bytes "on" then 1 else 0) →
      processHardware rx = action) : DeliveredAs int junk stack s dev data action :=
  deliveredAs_of_call hempty (processDevice_switch int junk data hdev) (show 1 ≤ 31 by decide) fun rx hrx =>
    haction rx (hrx 0 (show 0 < 2 by decide)) (hrx 1 (show 1 < 2 by decide))

/-- A byte is stored in an `int` and narrowed again. -/
theorem toUInt8_store (int : IntStore) (state : UInt8) :
    (int.store state.toNat).toUInt32.toUInt8 = state := by
  have hstate := state.toNat_lt
  have hint : (Int32.ofInt state.toNat).toInt = state.toNat :=
    Int32.toInt_ofInt_of_le (by omega) (by omega)
  have hstore := int.store_toInt (Int32.ofInt state.toNat)
  rw [hint] at hstore
  rw [hstore, toUInt32_eq_ofInt, hint]
  apply UInt8.toNat_inj.mp
  rw [UInt32.ofInt, UInt32.toNat_toUInt8, UInt32.toNat_ofNat']
  omega

/-- Numbers separated by `;` are all found. -/
theorem scanPwm_intercalate (int : IntStore) (junk : PwmInts) (state p d : ℤ) :
    scanPwm int junk ([semicolon].intercalate [decimal state, decimal p, decimal d]) =
      ⟨int.store state, int.store p, int.store d⟩ := by
  have hscan : scanInts semicolon 3 ([semicolon].intercalate [decimal state, decimal p, decimal d]) =
      [state, p, d] := scanInts_intercalate (by decide) [state, p, d]
  rw [scanPwm, hscan]
  rfl

/-- What is written for the PWM device is read back as a state and two words. -/
theorem processHardware_pwmBuffer (ints : PwmInts) {rx : FixedBuffer UInt8 deviceRxBufferSize}
    (hrx : ∀ i < 10, dataBuffer rx i = (devicePwm :: pwmBuffer ints).getD i 0) :
    processHardware rx = .pwm ints.state.toUInt32.toUInt8 ints.peroid.toUInt32 ints.dutyCycle.toUInt32 := by
  simp only [processHardware, hrx 0 (by decide), hrx 1 (by decide), hrx 2 (by decide), hrx 3 (by decide),
    hrx 4 (by decide), hrx 5 (by decide), hrx 6 (by decide), hrx 7 (by decide), hrx 8 (by decide),
    hrx 9 (by decide)]
  exact congrArg₂ (DeviceAction.pwm ints.state.toUInt32.toUInt8) (arraryToUint32_intBytes ints.peroid)
    (arraryToUint32_intBytes ints.dutyCycle)

/-- The three numbers in a text are passed on to the PWM device. -/
theorem deliveredAs_pwm (int : IntStore) (junk : PwmInts) (stack : FixedBuffer UInt8 40) {s : CommandFifo}
    (hempty : s.pipe.queued = []) (state : UInt8) (p d : Int32) :
    DeliveredAs int junk stack s devicePwm
      ([semicolon].intercalate [decimal state.toNat, decimal p.toInt, decimal d.toInt])
      (.pwm state (UInt32.ofInt p.toInt) (UInt32.ofInt d.toInt)) := by
  have hscan := scanPwm_intercalate int junk state.toNat p.toInt d.toInt
  rw [int.store_toInt, int.store_toInt] at hscan
  have hcall : processDevice int junk devicePwm
      ([semicolon].intercalate [decimal state.toNat, decimal p.toInt, decimal d.toInt]) =
        (true, some ⟨devicePwm, pwmBuffer ⟨int.store state.toNat, p, d⟩⟩) := by
    rw [← hscan]
    rfl
  apply deliveredAs_of_call hempty hcall (show 9 ≤ 31 by decide)
  intro rx hrx
  rw [processHardware_pwmBuffer _ hrx, toUInt8_store, toUInt32_eq_ofInt, toUInt32_eq_ofInt]

/-- What a text asks for reaches the drivers unchanged. The PWM device is set up with the state, period
and duty that stand in the text, modulo `2 ^ 32`, and each switch is given 1 for the text `on` and 0 for
every other text. -/
theorem run_processDevice (int : IntStore) (junk : PwmInts) (stack : FixedBuffer UInt8 40) (s : CommandFifo)
    (hempty : s.pipe.queued = []) :
    (∀ (state : UInt8) (p d : Int32), DeliveredAs int junk stack s devicePwm
      ([semicolon].intercalate [decimal state.toNat, decimal p.toInt, decimal d.toInt])
      (.pwm state (UInt32.ofInt p.toInt) (UInt32.ofInt d.toInt))) ∧
    (∀ data, DeliveredAs int junk stack s deviceLed data (.led (if data = bytes "on" then 1 else 0))) ∧
    (∀ data, DeliveredAs int junk stack s deviceBeep data (.beep (if data = bytes "on" then 1 else 0))) ∧
    (∀ data, DeliveredAs int junk stack s deviceLoopLed data (.loopLed (data = bytes "on"))) := by
  refine ⟨deliveredAs_pwm int junk stack hempty, fun data => ?_, fun data => ?_, fun data => ?_⟩
  · apply deliveredAs_switch (by decide) hempty
    intro rx hdev haction
    rw [processHardware, hdev, haction]
    rfl
  · apply deliveredAs_switch (by decide) hempty
    intro rx hdev haction
    rw [processHardware, hdev, haction]
    rfl
  · apply deliveredAs_switch (by decide) hempty
    intro rx hdev haction
    rw [processHardware, hdev, haction]
    change DeviceAction.loopLed (decide ((if data = bytes "on" then (1 : UInt8) else 0) = 1)) = _
    by_cases hon : data = bytes "on" <;> simp [hon]

/-- The extreme values of the period and the duty. -/
theorem run_processDevice_extremes :
    DeliveredAs .truncate ⟨7, 7, 7⟩ (FixedBuffer.filled 40 7)
      (CommandFifo.init (FixedBuffer.filled deviceRxBufferSize 7)) devicePwm
      (bytes "255;-2147483648;2147483647") (.pwm 255 0x80000000 0x7fffffff) := by
  have hdelivered := (run_processDevice .truncate ⟨7, 7, 7⟩ (FixedBuffer.filled 40 7)
    (CommandFifo.init (FixedBuffer.filled deviceRxBufferSize 7)) rfl).1 255 Int32.minValue Int32.maxValue
  have htext : [semicolon].intercalate [decimal (UInt8.toNat 255), decimal Int32.minValue.toInt,
      decimal Int32.maxValue.toInt] = bytes "255;-2147483648;2147483647" := by decide +kernel
  rwa [htext] at hdelivered

end RemoteManage.MainProcess

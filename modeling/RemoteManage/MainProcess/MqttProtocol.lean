import RemoteManage.MainProcess.ProcessDevice

/-!
# Requests over MQTT

A message on the subscribed topic is copied to a buffer of 512 bytes. Behind the head `A0`
stands a request in JSON, which is decoded and answered. The JSON library is a parameter: a
reader that turns bytes into a value. An exception of the library ends the decoding as every
error does, with no effect left.

`process_device` reports success whatever it does, so that every request to set a device
that is understood is answered with `ok`. The answer is true exactly when the text says all
that is passed on for the device and the command FIFO takes the record
(`onMessage_truthful_iff`).
-/

namespace RemoteManage.MainProcess

open RemoteManage.Foundation RemoteManage.Foundation.CString RemoteManage.LocalDevice

/-- A value of the JSON library. A number is given by the text that `asString` makes of it. -/
inductive Json where
  | null
  | bool (value : Bool)
  | number (text : List UInt8)
  | string (text : List UInt8)
  | array (values : List Json)
  | object (members : List (List UInt8 × Json))

/-- `value[key]`, unless it throws. A key that is missing is found as null. -/
def Json.member (key : String) : Json → Option Json
  | .null => some .null
  | .object members => some ((members.lookup (bytes key)).getD .null)
  | _ => none

/-- `asString`, unless it throws. -/
def Json.asString : Json → Option (List UInt8)
  | .null => some []
  | .bool value => some (bytes (if value then "true" else "false"))
  | .number text => some text
  | .string text => some text
  | .array _ => none
  | .object _ => none

/-- `mqtt_format_t`. -/
inductive MqttFormat where
  | getStatus
  | getInfo
  | setDevice
  | setNet
  deriving DecidableEq, Repr

/-- Who has sent a request and is sent the reply. -/
inductive MqttSource where
  | node
  | gui
  | desktop
  deriving DecidableEq, Repr

/-- `JsonCmdMap`. -/
def jsonCmdMap : List (String × MqttFormat) :=
  [("req_getstat", .getStatus), ("req_getinfo", .getInfo), ("req_setdev", .setDevice),
    ("req_setnet", .setNet)]

/-- `JsonDevMap`. -/
def jsonDevMap : List (String × UInt8) :=
  [("led", deviceLed), ("beep", deviceBeep), ("loopled", deviceLoopLed), ("pwm", devicePwm),
    ("rtc", deviceRtc), ("alarm", deviceRtcAlarm)]

/-- `JsonSourceMap`. -/
def jsonSourceMap : List (String × MqttSource) :=
  [("SRC_NODE", .node), ("SRC_GUI", .gui), ("SRC_DESKTOP", .desktop)]

/-- What a request is answered with. -/
inductive Replay where
  | getStat
  | getInfo
  | setDev (ok : Bool)
  deriving DecidableEq, Repr

/-- What is done for a message: the call of `set_device` and the reply with its addressee. -/
structure MqttEffect where
  call : Option SetDevice
  sent : Option (MqttSource × Replay)
  deriving DecidableEq

/-- Nothing is done. -/
def MqttEffect.nothing : MqttEffect := ⟨none, none⟩

/-- What `decode_json_command` does with the value that has been read, unless it returns `false`. -/
def decodeJsonCommand (int : IntStore) (junk : PwmInts) (root : Json) : Option MqttEffect := do
  let format ← lookup jsonCmdMap (← (← root.member "command").asString)
  let source ← lookup jsonSourceMap (← (← root.member "source").asString)
  match format with
  | .getStatus => some ⟨none, some (source, .getStat)⟩
  | .getInfo => some ⟨none, some (source, .getInfo)⟩
  | .setDevice =>
    let dev ← lookup jsonDevMap (← (← (← root.member "data").member "device").asString)
    let value ← (← (← root.member "data").member "value").asString
    let (ok, call) := processDevice int junk dev value
    some ⟨call, some (source, .setDev ok)⟩
  | .setNet => some .nothing

/-- The members of a device that a message is received with. -/
structure MqttDevice where
  subTopic : List UInt8
  buffer : FixedBuffer UInt8 512

/-- `buffer_` after the message has been copied to it. -/
def MqttDevice.received (device : MqttDevice) (payload : List UInt8) : FixedBuffer UInt8 512 :=
  (device.buffer.writeAll 0 payload).write payload.length 0

/-- What the handler passes to `decode_json_command` behind the head `A0`. The size is that of the whole
message, so that two bytes follow that do not belong to it. -/
def MqttDevice.jsonText (device : MqttDevice) (payload : List UInt8) : Option (List UInt8) :=
  let rx := device.received payload
  if 2 < payload.length ∧ rx.contents 2 = bytes "A0" then some (rx.slice 2 payload.length) else none

/-- What is written and what is read lies inside `buffer_`. -/
def MqttDevice.InBounds (device : MqttDevice) (payload : List UInt8) : Prop :=
  payload.length < 512 ∧ (device.jsonText payload ≠ none → 2 + payload.length ≤ 512)

instance (device : MqttDevice) (payload : List UInt8) : Decidable (device.InBounds payload) :=
  inferInstanceAs (Decidable (_ ∧ (_ → _)))

/-- `on_message` with the handler of `mqtt_manage`, where it is defined. -/
def onMessage (reader : List UInt8 → Option Json) (int : IntStore) (junk : PwmInts) (device : MqttDevice)
    (topic payload : List UInt8) : Option MqttEffect :=
  if topic ≠ device.subTopic then some .nothing
  else if device.InBounds payload then
    some ((((device.jsonText payload).bind reader).bind (decodeJsonCommand int junk)).getD .nothing)
  else none

/-- The records of an effect that the command FIFO has taken. -/
def accepted (accepts : Bool) (stack : FixedBuffer UInt8 40) (effect : MqttEffect) : List (List UInt8) :=
  if accepts then (effect.call.bind (setDevice stack)).toList else []

/-- A value of the JSON library is a request to set a device to which a reply is due. -/
structure Requests (root : Json) (source : MqttSource) (dev : UInt8) (value : List UInt8) : Prop where
  command : (root.member "command").bind Json.asString = some (bytes "req_setdev")
  source : ((root.member "source").bind Json.asString).bind (lookup jsonSourceMap) = some source
  dev : (((root.member "data").bind (Json.member "device")).bind Json.asString).bind (lookup jsonDevMap) =
    some dev
  value : ((root.member "data").bind (Json.member "value")).bind Json.asString = some value

/-- A message is a request to set a device to which a reply is due. -/
def Asks (reader : List UInt8 → Option Json) (device : MqttDevice) (payload : List UInt8)
    (source : MqttSource) (dev : UInt8) (value : List UInt8) : Prop :=
  ∃ root, (device.jsonText payload).bind reader = some root ∧ Requests root source dev value

/-- A message is a request to set a device, and the command FIFO has taken exactly one record for it, the
bytes of which say what `process_device` passes on for the device and the value of the message whatever
the stack holds. -/
def SetsDevice (reader : List UInt8 → Option Json) (int : IntStore) (device : MqttDevice)
    (accepts : Bool) (stack : FixedBuffer UInt8 40) (payload : List UInt8) (effect : MqttEffect) : Prop :=
  ∃ source dev value call, Asks reader device payload source dev value ∧
    (∀ junk, (processDevice int junk dev value).2 = some call) ∧
    accepted accepts stack effect = [eventBufMessage stack deviceHwSetEvent (call.dev :: call.buf)]

/-- The reply is `ok` exactly when the device is set, and where a reply is due and the device is not set it
is `error` and the FIFO has taken nothing. -/
def Truthful (reader : List UInt8 → Option Json) (int : IntStore) (device : MqttDevice) (accepts : Bool)
    (stack : FixedBuffer UInt8 40) (payload : List UInt8) : Prop :=
  ∀ junk, ∃ effect, onMessage reader int junk device device.subTopic payload = some effect ∧
    ((∃ source, effect.sent = some (source, .setDev true)) ↔
      SetsDevice reader int device accepts stack payload effect) ∧
    ∀ source dev value, Asks reader device payload source dev value →
      ¬ SetsDevice reader int device accepts stack payload effect →
        effect.sent = some (source, .setDev false) ∧ accepted accepts stack effect = []

/-- A request to set a device is passed to `process_device` and answered with its result. -/
theorem decodeJsonCommand_of_requests {root : Json} {source : MqttSource} {dev : UInt8} {value : List UInt8}
    (h : Requests root source dev value) (int : IntStore) (junk : PwmInts) :
    decodeJsonCommand int junk root = some ⟨(processDevice int junk dev value).2,
      some (source, .setDev (processDevice int junk dev value).1)⟩ := by
  obtain ⟨command, hcommand, hcommandText⟩ := Option.bind_eq_some_iff.mp h.command
  obtain ⟨sourceText, hsourceText, hsource⟩ := Option.bind_eq_some_iff.mp h.source
  obtain ⟨sourceMember, hsourceMember, hsourceAs⟩ := Option.bind_eq_some_iff.mp hsourceText
  obtain ⟨devText, hdevText, hdev⟩ := Option.bind_eq_some_iff.mp h.dev
  obtain ⟨devMember, hdevMember, hdevAs⟩ := Option.bind_eq_some_iff.mp hdevText
  obtain ⟨data, hdata, hdevData⟩ := Option.bind_eq_some_iff.mp hdevMember
  obtain ⟨valueMember, hvalueMember, hvalueAs⟩ := Option.bind_eq_some_iff.mp h.value
  rw [hdata, Option.bind_some] at hvalueMember
  have hformat : lookup jsonCmdMap (bytes "req_setdev") = some .setDevice := by decide
  simp [decodeJsonCommand, hcommand, hcommandText, hformat, hsourceMember, hsourceAs, hsource, hdata,
    hdevData, hdevAs, hdev, hvalueMember, hvalueAs]

/-- Only a request to set a device is answered as one. -/
theorem requests_of_decodeJsonCommand {root : Json} {int : IntStore} {junk : PwmInts} {effect : MqttEffect}
    (h : decodeJsonCommand int junk root = some effect) :
    (∃ source dev value, Requests root source dev value) ∨
      ∀ source ok, effect.sent ≠ some (source, .setDev ok) := by
  simp only [decodeJsonCommand, Option.bind_eq_bind, Option.bind_eq_some_iff] at h
  obtain ⟨commandMember, hcommandMember, command, hcommand, format, hformat, sourceMember, hsourceMember,
    sourceText, hsourceText, source, hsource, heffect⟩ := h
  cases format with
  | getStatus =>
    obtain rfl := Option.some.inj heffect
    exact .inr fun _ _ hsent => nomatch hsent
  | getInfo =>
    obtain rfl := Option.some.inj heffect
    exact .inr fun _ _ hsent => nomatch hsent
  | setNet =>
    obtain rfl := Option.some.inj heffect
    exact .inr fun _ _ hsent => nomatch hsent
  | setDevice =>
    obtain ⟨name, hname, rfl⟩ := mem_of_lookup hformat
    obtain rfl : name = "req_setdev" := by simpa [jsonCmdMap] using hname
    simp only [Option.bind_eq_some_iff] at heffect
    obtain ⟨data, hdata, devMember, hdevMember, devText, hdevText, dev, hdev, data', hdata', valueMember,
      hvalueMember, value, hvalue, -⟩ := heffect
    obtain rfl := Option.some.inj (hdata.symm.trans hdata')
    refine .inl ⟨source, dev, value, ?_, ?_, ?_, ?_⟩
    · rw [hcommandMember, Option.bind_some, hcommand]
    · rw [hsourceMember, Option.bind_some, hsourceText, Option.bind_some, hsource]
    · rw [hdata, Option.bind_some, hdevMember, Option.bind_some, hdevText, Option.bind_some, hdev]
    · rw [hdata, Option.bind_some, hvalueMember, Option.bind_some, hvalue]

section Message

variable {reader : List UInt8 → Option Json} {int : IntStore} {device : MqttDevice} {accepts : Bool}
  {stack : FixedBuffer UInt8 40} {payload : List UInt8}

/-- A message asks for one thing at most. -/
theorem Asks.unique {source source' : MqttSource} {dev dev' : UInt8} {value value' : List UInt8}
    (h : Asks reader device payload source dev value) (h' : Asks reader device payload source' dev' value') :
    source = source' ∧ dev = dev' ∧ value = value' := by
  obtain ⟨root, hroot, hrequests⟩ := h
  obtain ⟨root', hroot', hrequests'⟩ := h'
  obtain rfl := Option.some.inj (hroot.symm.trans hroot')
  exact ⟨Option.some.inj (hrequests.source.symm.trans hrequests'.source),
    Option.some.inj (hrequests.dev.symm.trans hrequests'.dev),
    Option.some.inj (hrequests.value.symm.trans hrequests'.value)⟩

/-- What is done for a message inside the bounds is what its request is decoded to. -/
theorem onMessage_of_inBounds (h : device.InBounds payload) (junk : PwmInts) :
    onMessage reader int junk device device.subTopic payload =
      some ((((device.jsonText payload).bind reader).bind (decodeJsonCommand int junk)).getD .nothing) := by
  rw [onMessage, if_neg (not_not.mpr rfl), if_pos h]

/-- A request to set a device is always answered with `ok`. -/
theorem onMessage_of_asks (h : device.InBounds payload) {source : MqttSource} {dev : UInt8}
    {value : List UInt8} (hasks : Asks reader device payload source dev value) (junk : PwmInts) :
    onMessage reader int junk device device.subTopic payload =
      some ⟨(processDevice int junk dev value).2, some (source, .setDev true)⟩ := by
  obtain ⟨root, hroot, hrequests⟩ := hasks
  rw [onMessage_of_inBounds h, hroot, Option.bind_some, decodeJsonCommand_of_requests hrequests,
    processDevice_fst]
  rfl

/-- For any other message no device is set and no such reply is sent. -/
theorem onMessage_of_not_asks (h : device.InBounds payload)
    (hasks : ¬ ∃ source dev value, Asks reader device payload source dev value) (junk : PwmInts) :
    ∃ effect, onMessage reader int junk device device.subTopic payload = some effect ∧
      ∀ source ok, effect.sent ≠ some (source, .setDev ok) := by
  refine ⟨_, onMessage_of_inBounds h junk, ?_⟩
  cases hroot : (device.jsonText payload).bind reader with
  | none => exact fun _ _ hsent => nomatch hsent
  | some root =>
    cases heffect : decodeJsonCommand int junk root with
    | none =>
      rw [Option.bind_some, heffect]
      exact fun _ _ hsent => nomatch hsent
    | some effect =>
      rw [Option.bind_some, heffect]
      obtain ⟨source, dev, value, hrequests⟩ | hsent := requests_of_decodeJsonCommand heffect
      · exact absurd ⟨source, dev, value, root, hroot, hrequests⟩ hasks
      · exact hsent

/-- The effect of a message is defined only inside the bounds. -/
theorem inBounds_of_onMessage {junk : PwmInts} {effect : MqttEffect}
    (h : onMessage reader int junk device device.subTopic payload = some effect) :
    device.InBounds payload := by
  by_contra hout
  rw [onMessage, if_neg (not_not.mpr rfl), if_neg hout] at h
  contradiction

/-- The answer `ok` is true only if the text says all that is passed on and the FIFO takes the record. -/
theorem Truthful.carried (h : Truthful reader int device accepts stack payload) {source : MqttSource}
    {dev : UInt8} {value : List UInt8} (hasks : Asks reader device payload source dev value) :
    Carried dev value ∧ accepts = true := by
  obtain ⟨effect, heffect, hok, -⟩ := h default
  have hbounds := inBounds_of_onMessage heffect
  obtain rfl := Option.some.inj (heffect.symm.trans (onMessage_of_asks hbounds hasks _))
  obtain ⟨source', dev', value', call, hasks', hcall, haccepted⟩ := hok.mp ⟨source, rfl⟩
  obtain ⟨-, rfl, rfl⟩ := hasks.unique hasks'
  refine ⟨(carried_iff int dev value).mpr ⟨call, fun junk => ?_⟩, ?_⟩
  · exact Prod.ext (processDevice_fst int junk dev value) (hcall junk)
  · by_contra hrefused
    rw [accepted, if_neg hrefused] at haccepted
    contradiction

/-- A record that says what the message asks for and that the FIFO takes sets the device. -/
theorem setsDevice_of_carried {source : MqttSource} {dev : UInt8} {value : List UInt8}
    (hasks : Asks reader device payload source dev value) (hcarried : Carried dev value)
    (haccepts : accepts = true) (junk : PwmInts) (sent : Option (MqttSource × Replay)) :
    SetsDevice reader int device accepts stack payload ⟨(processDevice int junk dev value).2, sent⟩ := by
  obtain ⟨call, hcall⟩ := (carried_iff int dev value).mp hcarried
  refine ⟨source, dev, value, call, hasks, fun junk => congrArg Prod.snd (hcall junk), ?_⟩
  have hrecord := setDevice_of_processDevice (congrArg Prod.snd (hcall junk)) stack
  rw [accepted, if_pos haccepts, hcall junk, Option.bind_some, hrecord]
  rfl

/-- The reply to a message is truthful exactly when the message lies inside the buffer and, where it is a
request to set a device, the text says all that is passed on for the device and the command FIFO takes
the record. -/
theorem onMessage_truthful_iff (reader : List UInt8 → Option Json) (int : IntStore) (device : MqttDevice)
    (accepts : Bool) (stack : FixedBuffer UInt8 40) (payload : List UInt8) :
    Truthful reader int device accepts stack payload ↔
      device.InBounds payload ∧ ∀ source dev value, Asks reader device payload source dev value →
        Carried dev value ∧ accepts = true := by
  constructor
  · intro h
    obtain ⟨effect, heffect, -⟩ := h default
    exact ⟨inBounds_of_onMessage heffect, fun source dev value => h.carried⟩
  · rintro ⟨hbounds, hcarried⟩ junk
    by_cases hasks : ∃ source dev value, Asks reader device payload source dev value
    · obtain ⟨source, dev, value, hasks⟩ := hasks
      obtain ⟨hcarried, haccepts⟩ := hcarried source dev value hasks
      have hset : SetsDevice reader int device accepts stack payload
          ⟨(processDevice int junk dev value).2, some (source, .setDev true)⟩ :=
        setsDevice_of_carried hasks hcarried haccepts junk _
      refine ⟨_, onMessage_of_asks hbounds hasks junk, iff_of_true ⟨source, rfl⟩ hset, ?_⟩
      exact fun _ _ _ _ hnot => absurd hset hnot
    · obtain ⟨effect, heffect, hsent⟩ := onMessage_of_not_asks hbounds hasks junk
      refine ⟨effect, heffect, iff_of_false ?_ ?_, ?_⟩
      · exact fun ⟨source, hok⟩ => hsent source true hok
      · exact fun ⟨source, dev, value, _, hasks', _⟩ => hasks ⟨source, dev, value, hasks'⟩
      · exact fun source dev value hasks' _ => absurd ⟨source, dev, value, hasks'⟩ hasks

end Message

/-- A request to set a device to a value. -/
def setDevRequest (source device value : List UInt8) : Json :=
  .object [(bytes "command", .string (bytes "req_setdev")), (bytes "source", .string source),
    (bytes "data", .object [(bytes "device", .string device), (bytes "value", .string value)])]

/-- It is what it says where its source and its device are known. -/
theorem requests_setDevRequest {name device value : List UInt8} {source : MqttSource} {dev : UInt8}
    (hsource : lookup jsonSourceMap name = some source) (hdev : lookup jsonDevMap device = some dev) :
    Requests (setDevRequest name device value) source dev value :=
  ⟨rfl, hsource, hdev, rfl⟩

/-- A request to set the clock is answered with `ok`, and nothing is done. -/
theorem onMessage_truthful_fails :
    ¬ ∀ (reader : List UInt8 → Option Json) (int : IntStore) (device : MqttDevice) (accepts : Bool)
      (stack : FixedBuffer UInt8 40) (payload : List UInt8),
      Truthful reader int device accepts stack payload := by
  intro h
  set payload := bytes ("A0\x7b\"command\":\"req_setdev\",\"source\":\"SRC_GUI\"," ++
    "\"data\":\x7b\"device\":\"rtc\",\"value\":\"12:00\"\x7d\x7d") with hpayload
  set device : MqttDevice := ⟨bytes "main", FixedBuffer.filled 512 0⟩ with hdevice
  set request := setDevRequest (bytes "SRC_GUI") (bytes "rtc") (bytes "12:00") with hrequest
  have htext : (device.jsonText payload).isSome = true := by
    rw [hdevice, hpayload]
    decide +kernel
  obtain ⟨text, htext⟩ := Option.isSome_iff_exists.mp htext
  have hasks : Asks (fun _ => some request) device payload .gui deviceRtc (bytes "12:00") := by
    have hread : (device.jsonText payload).bind (fun _ => some request) = some request := by rw [htext]; rfl
    exact ⟨request, hread, requests_setDevRequest (by decide +kernel) (by decide +kernel)⟩
  have htruthful := h (fun _ => some request) .truncate device true (FixedBuffer.filled 40 0) payload
  have hcarried := htruthful.carried hasks
  exact absurd hcarried.1 (by decide +kernel)

end RemoteManage.MainProcess

import RemoteManage.Common.SystemConfig
import RemoteManage.Foundation.FieldUpdates

/-!
# A configuration that cannot be read

The header of `json_config.cpp` promises the default configuration when the file cannot be read. `init` sets
the defaults first and then assigns member by member, so a conversion that throws leaves what has been
read before it. Each assignment has a parameter of its own. The defaults are left exactly when all the
values in front of the one that cannot be read are the defaults themselves.
-/

namespace RemoteManage.Common

open RemoteManage.Foundation RemoteManage.Foundation.FieldUpdates

/-- The value of a parameter. -/
inductive ConfigValue where
  | text (value : List UInt8)
  | int (value : Int32)
  | uint (value : UInt32)
  | port (value : UInt16)
  | bool (value : Bool)
  deriving DecidableEq

/-- The parameters in the order in which they are read. -/
def configFields (p : SystemParamter) : List ConfigValue :=
  [.text p.localIpaddress, .text p.ipaddress, .text p.mqttHost, .port p.mqttPort, .text p.version,
    .int p.localDevice.led.init, .text p.localDevice.led.dev, .int p.localDevice.beep.init,
    .text p.localDevice.beep.dev, .text p.localDevice.loopled.dev, .text p.localDevice.key.dev,
    .text p.localDevice.icmSpi.dev, .text p.localDevice.apI2c.dev, .text p.localDevice.rtc.dev,
    .text p.localDevice.iio.vf610AdcDev, .text p.localDevice.iio.hx711Dev, .text p.localDevice.pwm.pwmChip,
    .int p.localDevice.pwm.state, .uint p.localDevice.pwm.peroid, .uint p.localDevice.pwm.dutyCycle,
    .text p.mainProcess.downloadPath, .int p.mainProcess.nodePort, .int p.mainProcess.localPort,
    .int p.mainProcess.loggerPort, .int p.mainProcess.guiPort, .text p.mainProcess.mqttDevice.id,
    .text p.mainProcess.mqttDevice.subTopic, .int p.mainProcess.mqttDevice.keepalive,
    .int p.mainProcess.mqttDevice.qos, .int p.mainProcess.serial.stopBits, .int p.mainProcess.serial.baud,
    .int p.mainProcess.serial.dataBits, .text p.mainProcess.serial.parity, .text p.mainProcess.serial.dev,
    .int p.nodeServer.webPort, .text p.nodeServer.pages, .text p.nodeServer.mqttDevice.id,
    .text p.nodeServer.mqttDevice.subTopic, .int p.nodeServer.mqttDevice.keepalive,
    .int p.nodeServer.mqttDevice.qos, .text p.guiManage.mqttDevice.id, .text p.guiManage.mqttDevice.subTopic,
    .int p.guiManage.mqttDevice.keepalive, .int p.guiManage.mqttDevice.qos, .text p.winform.mqttDevice.id,
    .text p.winform.mqttDevice.subTopic, .int p.winform.mqttDevice.keepalive, .int p.winform.mqttDevice.qos,
    .int p.lowerDevice.loggerPort, .int p.lowerDevice.remotePort, .int p.lowerDevice.serial.baud,
    .int p.lowerDevice.serial.dataBits, .int p.lowerDevice.serial.stopBits,
    .text p.lowerDevice.serial.parity, .text p.lowerDevice.serial.dev,
    .int p.loggerPrivilege.guiManageLevel, .int p.loggerPrivilege.localDeviceLevel,
    .int p.loggerPrivilege.loggerDeviceLevel, .int p.loggerPrivilege.lowerDeviceLevel,
    .int p.loggerPrivilege.mainProcessLevel, .int p.loggerPrivilege.nodeServerLevel,
    .bool p.loggerPrivilege.allowNoPasswd, .text p.loggerPrivilege.passwd]

/-- What the assignments store, where the conversion does not throw. -/
def conversions (root : JsonTree) (reads : List ConfigRead) :
    List (Option (SystemParamter → SystemParamter)) :=
  reads.map fun read => (ValueTree.get read.path root).bind read.convert

/-- Every value can be read. -/
def Readable (root : JsonTree) (reads : List ConfigRead) : Prop := none ∉ conversions root reads

/-- Both files are there, and every value in them can be read. -/
def Loads (file dynamicFile : Option JsonTree) : Prop :=
  (∃ root, file = some root ∧ Readable root initReads) ∧
    ∃ root, dynamicFile = some root ∧ Readable root dynamicReads

/-- The values that are read, up to the first that cannot be, are the defaults. -/
def ReadsDefaults (root : JsonTree) (reads : List ConfigRead) : Prop :=
  Keep (conversions root reads) defaultInit

/-- The values that are read are the defaults; the dynamic file is looked at when all of the other one has
been read. -/
def KeepsDefaults (file dynamicFile : Option JsonTree) : Prop :=
  ∀ root, file = some root → ReadsDefaults root initReads ∧
    (Readable root initReads → ∀ dynamicRoot, dynamicFile = some dynamicRoot →
      ReadsDefaults dynamicRoot dynamicReads)

/-- The assignments are the updates that their conversions give. -/
theorem runAll_eq_applyUntil (root : JsonTree) (reads : List ConfigRead) (p : SystemParamter) :
    ConfigRead.runAll (ValueTree.get · root) reads p = applyUntil (conversions root reads) p := by
  induction reads generalizing p with
  | nil => rfl
  | cons read rest ih =>
    rw [ConfigRead.runAll, conversions, List.map_cons]
    cases hstore : (ValueTree.get read.path root).bind read.convert with
    | none => rfl
    | some store => exact ih (store p)

section Writes

variable {i : ℕ} {α : Type} {o : Option JsonTree} {convert : JsonTree → Option α}
  {store : SystemParamter → α → SystemParamter} {root : JsonTree}

/-- An assignment to a parameter writes the field in which it is listed. -/
theorem writes_of_read (value : α → ConfigValue)
    (hset : ∀ v p, configFields (store p v) = (configFields p).set i (value v))
    (hkeep : ∀ v p, (configFields p)[i]? = some (value v) → store p v = p)
    (f : SystemParamter → SystemParamter)
    (h : (o.bind fun t => (convert t).map fun v p => store p v) = some f) : Writes configFields i f := by
  obtain ⟨t, -, hconvert⟩ := Option.bind_eq_some_iff.mp h
  obtain ⟨v, -, rfl⟩ := Option.map_eq_some_iff.mp hconvert
  exact ⟨value v, hset v, hkeep v⟩

/-- The port of the broker is converted once more. -/
theorem writes_mqttPort (f : SystemParamter → SystemParamter)
    (h : (o.bind (ConfigRead.int ["mqtt_port"] fun p v =>
      { p with mqttPort := v.toUInt32.toUInt16 }).convert) = some f) :
    Writes configFields 3 f := by
  refine writes_of_read (fun v => .port v.toUInt32.toUInt16) (fun _ _ => rfl) (fun v p hv => ?_) f h
  cases p
  cases hv
  rfl

/-- The assignments of `init` write the first fields, in order. -/
theorem writeFrom_initReads (root : JsonTree) : WriteFrom configFields 0 (conversions root initReads) := by
  -- one assignment at a time: it sets its field, and to set it to what it holds does nothing
  repeat' apply And.intro
  all_goals first
    | exact trivial
    | exact writes_of_read .text (fun _ _ => rfl) (fun v p h => by cases h; rfl)
    | exact writes_of_read .int (fun _ _ => rfl) (fun v p h => by cases h; rfl)
    | exact writes_of_read .uint (fun _ _ => rfl) (fun v p h => by cases h; rfl)
    | exact writes_mqttPort

/-- The assignments of `dynamic_init` write the fields behind them. -/
theorem writeFrom_dynamicReads (root : JsonTree) :
    WriteFrom configFields 55 (conversions root dynamicReads) := by
  repeat' apply And.intro
  all_goals first
    | exact trivial
    | exact writes_of_read .text (fun _ _ => rfl) (fun v p h => by cases h; rfl)
    | exact writes_of_read .int (fun _ _ => rfl) (fun v p h => by cases h; rfl)
    | exact writes_of_read .bool (fun _ _ => rfl) (fun v p h => by cases h; rfl)

end Writes

/-- The values read by `init` are the defaults when the fields of the static parameters are. -/
theorem readsDefaults_of_fields {root : JsonTree}
    (h : ∀ j < 55, (configFields (applyUntil (conversions root initReads) defaultInit).1)[j]? =
      (configFields defaultInit)[j]?) : ReadsDefaults root initReads := by
  have hlength : (conversions root initReads).length = 55 := rfl
  refine keep_of_applyUntil (n := 63) (fun _ => rfl) (by omega) (writeFrom_initReads root) fun j _ hj => ?_
  exact h j (by omega)

/-- The values read by `dynamic_init` are the defaults when it leaves the parameters at them. -/
theorem readsDefaults_of_dynamic {root : JsonTree}
    (h : (applyUntil (conversions root dynamicReads) defaultInit).1 = defaultInit) :
    ReadsDefaults root dynamicReads := by
  have hlength : (conversions root dynamicReads).length = 8 := rfl
  refine keep_of_applyUntil (n := 63) (fun _ => rfl) (by omega) (writeFrom_dynamicReads root) fun j _ _ => ?_
  rw [h]

/-- `dynamic_init` leaves the fields of the static parameters alone. -/
theorem dynamicInit_field (dynamicFile : Option JsonTree) (p : SystemParamter) {j : ℕ} (hj : j < 55) :
    (configFields (dynamicInit dynamicFile p).1)[j]? = (configFields p)[j]? := by
  cases dynamicFile with
  | none => rfl
  | some root =>
    rw [dynamicInit, runAll_eq_applyUntil]
    exact applyUntil_field_of_lt hj (writeFrom_dynamicReads root) p

/-- `dynamic_init` fails unless its file is there and every value in it can be read. -/
theorem dynamicInit_snd {dynamicFile : Option JsonTree}
    (h : ¬ ∃ root, dynamicFile = some root ∧ Readable root dynamicReads) (p : SystemParamter) :
    (dynamicInit dynamicFile p).2 = false := by
  cases dynamicFile with
  | none => rfl
  | some root =>
    rw [dynamicInit, runAll_eq_applyUntil, ← Bool.not_eq_true, applyUntil_snd_iff]
    exact fun hreadable => h ⟨root, rfl, hreadable⟩

section Init

variable {root : JsonTree} {dynamicFile : Option JsonTree} (hosts : List (List UInt8))

/-- `init` ends with the first value of its file that cannot be read. -/
theorem init_of_not_readable (h : ¬ Readable root initReads) :
    init (some root) dynamicFile hosts =
      ((applyUntil (conversions root initReads) defaultInit).1, false) := by
  have hfails : (applyUntil (conversions root initReads) defaultInit).2 = false := by
    rw [← Bool.not_eq_true, applyUntil_snd_iff]
    exact h
  simp only [init, runAll_eq_applyUntil]
  split
  case h_1 p heq => rw [heq]
  case h_2 p heq => rw [heq] at hfails; contradiction

/-- `init` ends with `dynamic_init` when that fails. -/
theorem init_of_readable (h : Readable root initReads)
    (hdynamic : ¬ ∃ root, dynamicFile = some root ∧ Readable root dynamicReads) :
    init (some root) dynamicFile hosts =
      ((dynamicInit dynamicFile (applyUntil (conversions root initReads) defaultInit).1).1, false) := by
  have hreads := (applyUntil_snd_iff (conversions root initReads) defaultInit).mpr h
  have hfails := dynamicInit_snd hdynamic (applyUntil (conversions root initReads) defaultInit).1
  simp only [init, runAll_eq_applyUntil]
  split
  case h_1 p heq => rw [heq] at hreads; contradiction
  case h_2 p heq =>
    rw [heq] at hfails ⊢
    split
    case h_1 q hq => rw [hq]
    case h_2 q hq => rw [hq] at hfails; contradiction

end Init

/-- A load that fails leaves the defaults exactly when all that has been read by then are the defaults. -/
theorem init_eq_default_iff (file dynamicFile : Option JsonTree) (hosts : List (List UInt8))
    (h : ¬ Loads file dynamicFile) :
    init file dynamicFile hosts = (defaultInit, false) ↔ KeepsDefaults file dynamicFile := by
  cases file with
  | none => exact iff_of_true rfl fun root hroot => nomatch hroot
  | some root =>
    by_cases hread : Readable root initReads
    · have hdynamic : ¬ ∃ root, dynamicFile = some root ∧ Readable root dynamicReads :=
        fun hdynamic => h ⟨⟨root, rfl, hread⟩, hdynamic⟩
      rw [init_of_readable hosts hread hdynamic, Prod.mk.injEq, and_iff_left rfl]
      constructor
      · intro hdefault root' hroot'
        obtain rfl := Option.some.inj hroot'
        have hstatic : ReadsDefaults root initReads := readsDefaults_of_fields fun j hj => by
          rw [← dynamicInit_field dynamicFile _ hj, hdefault]
        refine ⟨hstatic, fun _ dynamicRoot hroot => readsDefaults_of_dynamic ?_⟩
        rwa [applyUntil_of_keep hstatic, hroot, dynamicInit, runAll_eq_applyUntil] at hdefault
      · intro hkeeps
        obtain ⟨hstatic, hrest⟩ := hkeeps root rfl
        rw [applyUntil_of_keep hstatic]
        cases dynamicFile with
        | none => rfl
        | some dynamicRoot =>
          rw [dynamicInit, runAll_eq_applyUntil]
          exact applyUntil_of_keep (hrest hread dynamicRoot rfl)
    · rw [init_of_not_readable hosts hread, Prod.mk.injEq, and_iff_left rfl]
      constructor
      · intro hdefault root' hroot'
        obtain rfl := Option.some.inj hroot'
        exact ⟨readsDefaults_of_fields fun j _ => by rw [hdefault], fun hreadable => absurd hreadable hread⟩
      · exact fun hkeeps => applyUntil_of_keep (hkeeps root rfl).1

/-- A file with an address of its own and a list in the place of the other one. -/
def mixedFile : JsonTree := .object fun key =>
  if key = "local_ipaddress" then JsonTree.ofString (CString.bytes "10.0.0.1")
  else if key = "ipaddress" then .leaf .array
  else .null

/-- The file cannot be read, and what it leaves depends on what comes before the list. -/
theorem init_eq_default_iff_mixed :
    init (some mixedFile) none [] = (defaultInit, false) ↔ KeepsDefaults (some mixedFile) none :=
  init_eq_default_iff (some mixedFile) none [] fun hloads => nomatch hloads.2

/-- The address of the file stays. -/
theorem init_ne_default_mixed :
    ¬ Loads (some mixedFile) none ∧ init (some mixedFile) none [] ≠ (defaultInit, false) := by
  refine ⟨fun hloads => (nomatch hloads.2), fun heq => ?_⟩
  have haddress := congrArg (fun result => result.1.localIpaddress) heq
  exact absurd haddress (by decide)

end RemoteManage.Common

import RemoteManage.Common.JsonTree
import RemoteManage.Common.LoggerPrivilege

/-!
# The configuration file

`system_config` keeps the parameters of all programs. `init` reads them from a file, member by
member, and `save_configfile` writes them to it. Both are lists of paths, kept by hand, and
`init` takes a member that is missing for an empty text or zero. A conversion that throws ends
`init`; what has been read before stays.

A file is the tree that the JSON library makes of it. It is missing when it cannot be opened or
parsed.

All that is saved is read back, and the paths of the two devices of `iio` are read but not
saved (`reload_iff`).
-/

namespace RemoteManage.Common

open RemoteManage.Foundation RemoteManage.Foundation.CString

/-- `DeviceSysConfig`. -/
structure DeviceSysConfig where
  dev : List UInt8
  deriving DecidableEq, Inhabited

/-- `IoSysConfig`. -/
structure IoSysConfig where
  init : Int32
  dev : List UInt8
  deriving DecidableEq, Inhabited

/-- `IIOSysConfig`. -/
structure IioSysConfig where
  vf610AdcDev : List UInt8
  hx711Dev : List UInt8
  deriving DecidableEq, Inhabited

/-- `PWMSysConfig`. -/
structure PwmSysConfig where
  pwmChip : List UInt8
  state : Int32
  peroid : UInt32
  dutyCycle : UInt32
  deriving DecidableEq, Inhabited

/-- `SerialSysConfig`. -/
structure SerialSysConfig where
  baud : Int32
  dataBits : Int32
  stopBits : Int32
  parity : List UInt8
  dev : List UInt8
  deriving DecidableEq, Inhabited

/-- `LocalDeviceConfig`. -/
structure LocalDeviceConfig where
  apI2c : DeviceSysConfig
  icmSpi : DeviceSysConfig
  key : DeviceSysConfig
  rtc : DeviceSysConfig
  loopled : DeviceSysConfig
  pwm : PwmSysConfig
  led : IoSysConfig
  beep : IoSysConfig
  iio : IioSysConfig
  deriving DecidableEq, Inhabited

/-- `MqttDeivceInfo`. -/
structure MqttDeivceInfo where
  id : List UInt8
  subTopic : List UInt8
  keepalive : Int32
  qos : Int32
  deriving DecidableEq, Inhabited

/-- `MainProcessConfig`. -/
structure MainProcessConfig where
  downloadPath : List UInt8
  nodePort : Int32
  localPort : Int32
  guiPort : Int32
  loggerPort : Int32
  mqttDevice : MqttDeivceInfo
  serial : SerialSysConfig
  deriving DecidableEq, Inhabited

/-- `NodeServerConfig`. -/
structure NodeServerConfig where
  webPort : Int32
  pages : List UInt8
  mqttDevice : MqttDeivceInfo
  deriving DecidableEq, Inhabited

/-- `GuiManageConfig`. -/
structure GuiManageConfig where
  mqttDevice : MqttDeivceInfo
  deriving DecidableEq, Inhabited

/-- `WinformConfig`. -/
structure WinformConfig where
  mqttDevice : MqttDeivceInfo
  deriving DecidableEq, Inhabited

/-- `LowerDeviceConfig`. -/
structure LowerDeviceConfig where
  loggerPort : Int32
  remotePort : Int32
  serial : SerialSysConfig
  deriving DecidableEq, Inhabited

/-- `SystemParamter`. -/
structure SystemParamter where
  localIpaddress : List UInt8
  ipaddress : List UInt8
  mqttHost : List UInt8
  mqttPort : UInt16
  version : List UInt8
  localDevice : LocalDeviceConfig
  mainProcess : MainProcessConfig
  nodeServer : NodeServerConfig
  guiManage : GuiManageConfig
  winform : WinformConfig
  lowerDevice : LowerDeviceConfig
  loggerPrivilege : LoggerPrivilege
  deriving DecidableEq, Inhabited

/-- The defaults of a serial port. -/
def defaultSerial : SerialSysConfig := ⟨115200, 8, 1, bytes "n", bytes "/dev/ttymxc2"⟩

/-- The defaults of an MQTT device. -/
def defaultMqtt (subTopic : String) : MqttDeivceInfo := ⟨bytes "default", bytes subTopic, 60, 0⟩

/-- `default_init`. -/
def defaultInit : SystemParamter where
  localIpaddress := bytes "127.0.0.1"
  ipaddress := bytes "127.0.0.1"
  mqttHost := bytes "127.0.0.1"
  mqttPort := 1883
  version := bytes "0.0.0.0"
  localDevice :=
    { apI2c := ⟨bytes "/dev/ap3216"⟩
      icmSpi := ⟨bytes "/dev/icm20608"⟩
      key := ⟨bytes "/dev/key"⟩
      rtc := ⟨bytes "/dev/rtc0"⟩
      loopled := ⟨bytes "/dev/loopled"⟩
      pwm := ⟨bytes "pwmchip0", 0, 0, 0⟩
      led := ⟨0, bytes "/dev/led"⟩
      beep := ⟨0, bytes "/dev/beep"⟩
      iio :=
        { vf610AdcDev := bytes "/sys/bus/iio/devices/iio:device0/in_voltage4_raw"
          hx711Dev := bytes "/sys/bus/iio/devices/iio:device1/in_voltage1_raw" } }
  mainProcess :=
    { downloadPath := bytes "/tmp/download/"
      nodePort := 8000
      localPort := 8002
      guiPort := 8004
      loggerPort := 8003
      mqttDevice := defaultMqtt "/info/null0"
      serial := defaultSerial }
  nodeServer := ⟨8100, bytes "/device/dist", defaultMqtt "/info/null0"⟩
  guiManage := ⟨defaultMqtt "/info/null1"⟩
  winform := ⟨defaultMqtt "/info/null2"⟩
  lowerDevice := ⟨15201, 15202, defaultSerial⟩
  loggerPrivilege := ⟨2, 2, 2, 2, 2, 2, bytes "user123", false⟩

/-- An assignment of `init`: the path that is read, and what its value is converted to and stored in. -/
structure ConfigRead where
  path : List String
  convert : JsonTree → Option (SystemParamter → SystemParamter)

namespace ConfigRead

/-- A member that is read as a text. -/
def text (path : List String) (store : SystemParamter → List UInt8 → SystemParamter) : ConfigRead :=
  ⟨path, fun t => t.asString.map fun v p => store p v⟩

/-- A member that is read as an `int`. -/
def int (path : List String) (store : SystemParamter → Int32 → SystemParamter) : ConfigRead :=
  ⟨path, fun t => t.asInt.map fun v p => store p v⟩

/-- A member that is read as a `uint32_t`. -/
def uint (path : List String) (store : SystemParamter → UInt32 → SystemParamter) : ConfigRead :=
  ⟨path, fun t => t.asUInt.map fun v p => store p v⟩

/-- A member that is read as a `bool`. -/
def bool (path : List String) (store : SystemParamter → Bool → SystemParamter) : ConfigRead :=
  ⟨path, fun t => t.asBool.map fun v p => store p v⟩

/-- Assignments one after the other, up to the first that throws, and whether there is none. -/
def runAll (value : List String → Option JsonTree) :
    List ConfigRead → SystemParamter → SystemParamter × Bool
  | [], p => (p, true)
  | read :: rest, p =>
    match (value read.path).bind read.convert with
    | none => (p, false)
    | some store => runAll value rest (store p)

end ConfigRead

/-- The assignments of `init` to the parameters of no program. -/
def mainReads : List ConfigRead :=
  [
    .text ["local_ipaddress"] fun p v => { p with localIpaddress := v },
    .text ["ipaddress"] fun p v => { p with ipaddress := v },
    .text ["mqtt_host"] fun p v => { p with mqttHost := v },
    .int ["mqtt_port"] fun p v => { p with mqttPort := v.toUInt32.toUInt16 },
    .text ["version"] fun p v => { p with version := v }
  ]

/-- The assignments of `init` to the switches of `local_device`. -/
def ioReads : List ConfigRead :=
  [
    .int ["local_device", "led", "init"] fun p v => { p with localDevice.led.init := v },
    .text ["local_device", "led", "dev"] fun p v => { p with localDevice.led.dev := v },
    .int ["local_device", "beep", "init"] fun p v => { p with localDevice.beep.init := v },
    .text ["local_device", "beep", "dev"] fun p v => { p with localDevice.beep.dev := v }
  ]

/-- The assignments of `init` to the paths of devices of `local_device`. -/
def deviceReads : List ConfigRead :=
  [
    .text ["local_device", "loopled", "dev"] fun p v => { p with localDevice.loopled.dev := v },
    .text ["local_device", "key", "dev"] fun p v => { p with localDevice.key.dev := v },
    .text ["local_device", "icm_spi", "dev"] fun p v => { p with localDevice.icmSpi.dev := v },
    .text ["local_device", "ap_i2c", "dev"] fun p v => { p with localDevice.apI2c.dev := v },
    .text ["local_device", "rtc", "dev"] fun p v => { p with localDevice.rtc.dev := v }
  ]

/-- The assignments of `init` to `iio` of `local_device`. -/
def iioReads : List ConfigRead :=
  [
    .text ["local_device", "iio", "vf610_adc"] fun p v => { p with localDevice.iio.vf610AdcDev := v },
    .text ["local_device", "iio", "hx711_dev"] fun p v => { p with localDevice.iio.hx711Dev := v }
  ]

/-- The assignments of `init` to `pwm` of `local_device`. -/
def pwmReads : List ConfigRead :=
  [
    .text ["local_device", "pwm", "dev"] fun p v => { p with localDevice.pwm.pwmChip := v },
    .int ["local_device", "pwm", "init", "state"] fun p v => { p with localDevice.pwm.state := v },
    .uint ["local_device", "pwm", "init", "peroid"] fun p v => { p with localDevice.pwm.peroid := v },
    .uint ["local_device", "pwm", "init", "duty"] fun p v => { p with localDevice.pwm.dutyCycle := v }
  ]

/-- The assignments of `init` to `main_process`. -/
def mainProcessReads : List ConfigRead :=
  [
    .text ["main_process", "download_path"] fun p v => { p with mainProcess.downloadPath := v },
    .int ["main_process", "node_port"] fun p v => { p with mainProcess.nodePort := v },
    .int ["main_process", "local_port"] fun p v => { p with mainProcess.localPort := v },
    .int ["main_process", "logger_port"] fun p v => { p with mainProcess.loggerPort := v },
    .int ["main_process", "gui_port"] fun p v => { p with mainProcess.guiPort := v },
    .text ["main_process", "mqtt_device", "id"] fun p v => { p with mainProcess.mqttDevice.id := v },
    .text ["main_process", "mqtt_device", "sub_topic"] fun p v =>
      { p with mainProcess.mqttDevice.subTopic := v },
    .int ["main_process", "mqtt_device", "keepalive"] fun p v =>
      { p with mainProcess.mqttDevice.keepalive := v },
    .int ["main_process", "mqtt_device", "qos"] fun p v => { p with mainProcess.mqttDevice.qos := v },
    .int ["main_process", "serial", "stopBits"] fun p v => { p with mainProcess.serial.stopBits := v },
    .int ["main_process", "serial", "baud"] fun p v => { p with mainProcess.serial.baud := v },
    .int ["main_process", "serial", "dataBits"] fun p v => { p with mainProcess.serial.dataBits := v },
    .text ["main_process", "serial", "parity"] fun p v => { p with mainProcess.serial.parity := v },
    .text ["main_process", "serial", "dev"] fun p v => { p with mainProcess.serial.dev := v }
  ]

/-- The assignments of `init` to `node_server`. -/
def nodeServerReads : List ConfigRead :=
  [
    .int ["node_server", "web_port"] fun p v => { p with nodeServer.webPort := v },
    .text ["node_server", "pages"] fun p v => { p with nodeServer.pages := v },
    .text ["node_server", "mqtt_device", "id"] fun p v => { p with nodeServer.mqttDevice.id := v },
    .text ["node_server", "mqtt_device", "sub_topic"] fun p v =>
      { p with nodeServer.mqttDevice.subTopic := v },
    .int ["node_server", "mqtt_device", "keepalive"] fun p v =>
      { p with nodeServer.mqttDevice.keepalive := v },
    .int ["node_server", "mqtt_device", "qos"] fun p v => { p with nodeServer.mqttDevice.qos := v }
  ]

/-- The assignments of `init` to `gui_manage`. -/
def guiManageReads : List ConfigRead :=
  [
    .text ["gui_manage", "mqtt_device", "id"] fun p v => { p with guiManage.mqttDevice.id := v },
    .text ["gui_manage", "mqtt_device", "sub_topic"] fun p v =>
      { p with guiManage.mqttDevice.subTopic := v },
    .int ["gui_manage", "mqtt_device", "keepalive"] fun p v =>
      { p with guiManage.mqttDevice.keepalive := v },
    .int ["gui_manage", "mqtt_device", "qos"] fun p v => { p with guiManage.mqttDevice.qos := v }
  ]

/-- The assignments of `init` to `winform`. -/
def winformReads : List ConfigRead :=
  [
    .text ["winform", "mqtt_device", "id"] fun p v => { p with winform.mqttDevice.id := v },
    .text ["winform", "mqtt_device", "sub_topic"] fun p v => { p with winform.mqttDevice.subTopic := v },
    .int ["winform", "mqtt_device", "keepalive"] fun p v => { p with winform.mqttDevice.keepalive := v },
    .int ["winform", "mqtt_device", "qos"] fun p v => { p with winform.mqttDevice.qos := v }
  ]

/-- The assignments of `init` to `lower_device`. -/
def lowerDeviceReads : List ConfigRead :=
  [
    .int ["lower_device", "logger_port"] fun p v => { p with lowerDevice.loggerPort := v },
    .int ["lower_device", "remote_port"] fun p v => { p with lowerDevice.remotePort := v },
    .int ["lower_device", "serial", "baud"] fun p v => { p with lowerDevice.serial.baud := v },
    .int ["lower_device", "serial", "dataBits"] fun p v => { p with lowerDevice.serial.dataBits := v },
    .int ["lower_device", "serial", "stopBits"] fun p v => { p with lowerDevice.serial.stopBits := v },
    .text ["lower_device", "serial", "parity"] fun p v => { p with lowerDevice.serial.parity := v },
    .text ["lower_device", "serial", "dev"] fun p v => { p with lowerDevice.serial.dev := v }
  ]

/-- The assignments of `init`. -/
def initReads : List ConfigRead :=
  mainReads ++ (ioReads ++ (deviceReads ++ (iioReads ++ (pwmReads ++ (mainProcessReads ++ (nodeServerReads ++
    (guiManageReads ++ (winformReads ++ lowerDeviceReads))))))))

/-- The assignments of `dynamic_init`. -/
def dynamicReads : List ConfigRead :=
  [
    .int ["logger_privilege", "gui_manage_level"] fun p v => { p with loggerPrivilege.guiManageLevel := v },
    .int ["logger_privilege", "local_device_level"] fun p v =>
      { p with loggerPrivilege.localDeviceLevel := v },
    .int ["logger_privilege", "logger_device_level"] fun p v =>
      { p with loggerPrivilege.loggerDeviceLevel := v },
    .int ["logger_privilege", "lower_device_level"] fun p v =>
      { p with loggerPrivilege.lowerDeviceLevel := v },
    .int ["logger_privilege", "main_process_level"] fun p v =>
      { p with loggerPrivilege.mainProcessLevel := v },
    .int ["logger_privilege", "node_server_level"] fun p v =>
      { p with loggerPrivilege.nodeServerLevel := v },
    .bool ["logger_manage", "allow_no_passwd"] fun p v => { p with loggerPrivilege.allowNoPasswd := v },
    .text ["logger_manage", "passwd"] fun p v => { p with loggerPrivilege.passwd := v }
  ]

/-- `dynamic_init`. -/
def dynamicInit (file : Option JsonTree) (p : SystemParamter) : SystemParamter × Bool :=
  match file with
  | none => (p, false)
  | some root => ConfigRead.runAll (ValueTree.get · root) dynamicReads p

/-- `check_configfile`, given the addresses of the host. -/
def checkConfigfile (hosts : List (List UInt8)) (p : SystemParamter) : Bool :=
  p.ipaddress ∈ hosts ∧ p.mainProcess.mqttDevice.id ≠ []

/-- `init`, given the two files and the addresses of the host. -/
def init (file dynamicFile : Option JsonTree) (hosts : List (List UInt8)) : SystemParamter × Bool :=
  match file with
  | none => (defaultInit, false)
  | some root =>
    match ConfigRead.runAll (ValueTree.get · root) initReads defaultInit with
    | (p, false) => (p, false)
    | (p, true) =>
      match dynamicInit dynamicFile p with
      | (p, false) => (p, false)
      | (p, true) => (p, checkConfigfile hosts p)

/-- The assignments to the tree in `save_configfile`. -/
def configWrites (p : SystemParamter) : List (List String × JsonTree) :=
  [
    (["local_ipaddress"], .ofString p.localIpaddress),
    (["ipaddress"], .ofString p.ipaddress),
    (["mqtt_host"], .ofString p.mqttHost),
    (["mqtt_port"], .ofInt p.mqttPort.toUInt32.toInt32),
    (["version"], .ofString p.version),
    (["local_device", "led", "init"], .ofInt p.localDevice.led.init),
    (["local_device", "led", "dev"], .ofString p.localDevice.led.dev),
    (["local_device", "beep", "init"], .ofInt p.localDevice.beep.init),
    (["local_device", "beep", "dev"], .ofString p.localDevice.beep.dev),
    (["local_device", "key", "dev"], .ofString p.localDevice.key.dev),
    (["local_device", "icm_spi", "dev"], .ofString p.localDevice.icmSpi.dev),
    (["local_device", "ap_i2c", "dev"], .ofString p.localDevice.apI2c.dev),
    (["local_device", "rtc", "dev"], .ofString p.localDevice.rtc.dev),
    (["local_device", "loopled", "dev"], .ofString p.localDevice.loopled.dev),
    (["local_device", "pwm", "dev"], .ofString p.localDevice.pwm.pwmChip),
    (["local_device", "pwm", "init", "state"], .ofInt p.localDevice.pwm.state),
    (["local_device", "pwm", "init", "peroid"], .ofUInt p.localDevice.pwm.peroid),
    (["local_device", "pwm", "init", "duty"], .ofUInt p.localDevice.pwm.dutyCycle),
    (["main_process", "download_path"], .ofString p.mainProcess.downloadPath),
    (["main_process", "node_port"], .ofInt p.mainProcess.nodePort),
    (["main_process", "local_port"], .ofInt p.mainProcess.localPort),
    (["main_process", "logger_port"], .ofInt p.mainProcess.loggerPort),
    (["main_process", "gui_port"], .ofInt p.mainProcess.guiPort),
    (["main_process", "mqtt_device", "id"], .ofString p.mainProcess.mqttDevice.id),
    (["main_process", "mqtt_device", "sub_topic"], .ofString p.mainProcess.mqttDevice.subTopic),
    (["main_process", "mqtt_device", "keepalive"], .ofInt p.mainProcess.mqttDevice.keepalive),
    (["main_process", "mqtt_device", "qos"], .ofInt p.mainProcess.mqttDevice.qos),
    (["main_process", "serial", "stopBits"], .ofInt p.mainProcess.serial.stopBits),
    (["main_process", "serial", "baud"], .ofInt p.mainProcess.serial.baud),
    (["main_process", "serial", "dataBits"], .ofInt p.mainProcess.serial.dataBits),
    (["main_process", "serial", "parity"], .ofString p.mainProcess.serial.parity),
    (["main_process", "serial", "dev"], .ofString p.mainProcess.serial.dev),
    (["node_server", "web_port"], .ofInt p.nodeServer.webPort),
    (["node_server", "pages"], .ofString p.nodeServer.pages),
    (["node_server", "mqtt_device", "id"], .ofString p.nodeServer.mqttDevice.id),
    (["node_server", "mqtt_device", "sub_topic"], .ofString p.nodeServer.mqttDevice.subTopic),
    (["node_server", "mqtt_device", "keepalive"], .ofInt p.nodeServer.mqttDevice.keepalive),
    (["node_server", "mqtt_device", "qos"], .ofInt p.nodeServer.mqttDevice.qos),
    (["gui_manage", "mqtt_device", "id"], .ofString p.guiManage.mqttDevice.id),
    (["gui_manage", "mqtt_device", "sub_topic"], .ofString p.guiManage.mqttDevice.subTopic),
    (["gui_manage", "mqtt_device", "keepalive"], .ofInt p.guiManage.mqttDevice.keepalive),
    (["gui_manage", "mqtt_device", "qos"], .ofInt p.guiManage.mqttDevice.qos),
    (["winform", "mqtt_device", "id"], .ofString p.winform.mqttDevice.id),
    (["winform", "mqtt_device", "sub_topic"], .ofString p.winform.mqttDevice.subTopic),
    (["winform", "mqtt_device", "keepalive"], .ofInt p.winform.mqttDevice.keepalive),
    (["winform", "mqtt_device", "qos"], .ofInt p.winform.mqttDevice.qos),
    (["lower_device", "logger_port"], .ofInt p.lowerDevice.loggerPort),
    (["lower_device", "remote_port"], .ofInt p.lowerDevice.remotePort),
    (["lower_device", "serial", "baud"], .ofInt p.lowerDevice.serial.baud),
    (["lower_device", "serial", "dataBits"], .ofInt p.lowerDevice.serial.dataBits),
    (["lower_device", "serial", "stopBits"], .ofInt p.lowerDevice.serial.stopBits),
    (["lower_device", "serial", "parity"], .ofString p.lowerDevice.serial.parity),
    (["lower_device", "serial", "dev"], .ofString p.lowerDevice.serial.dev)
  ]

/-- `save_configfile`: the tree that is written to the file. -/
def saveConfigfile (p : SystemParamter) : Option JsonTree := ValueTree.setAll (configWrites p) .null

section Reload

variable {value value' : List String → Option JsonTree} {p q q' : SystemParamter}

/-- Two lists of assignments, the first of which does not throw. -/
theorem ConfigRead.runAll_append {reads : List ConfigRead} (rest : List ConfigRead)
    (h : runAll value reads q = (q', true)) : runAll value (reads ++ rest) q = runAll value rest q' := by
  induction reads generalizing q with
  | nil => rw [(Prod.mk.inj h).1, List.nil_append]
  | cons read reads ih =>
    rw [List.cons_append, runAll]
    rw [runAll] at h
    cases hstore : (value read.path).bind read.convert with
    | none =>
      rw [hstore] at h
      exact absurd (Prod.mk.inj h).2 Bool.false_ne_true
    | some store =>
      rw [hstore] at h
      exact ih h

/-- Assignments see nothing of the tree but the values at their paths. -/
theorem ConfigRead.runAll_congr {reads : List ConfigRead}
    (h : ∀ path ∈ reads.map ConfigRead.path, value path = value' path) :
    runAll value reads q = runAll value' reads q := by
  induction reads generalizing q with
  | nil => rfl
  | cons read reads ih =>
    rw [runAll, runAll, h read.path List.mem_cons_self]
    cases (value' read.path).bind read.convert with
    | none => rfl
    | some store => exact ih fun path hpath => h path (List.mem_cons_of_mem _ hpath)

/-- The paths that `save_configfile` writes. -/
def configPaths : List (List String) := (configWrites default).map Prod.fst

/-- They do not depend on the parameters. -/
theorem map_fst_configWrites (p : SystemParamter) : (configWrites p).map Prod.fst = configPaths := rfl

/-- No path that is written leads through another one. -/
theorem configPaths_apart : configPaths.Pairwise ValueTree.Apart := by decide +kernel

/-- A path that is read is written, or it lies apart from all that are. -/
theorem initReads_path : ∀ path ∈ initReads.map ConfigRead.path,
    path ∈ configPaths ∨ ∀ written ∈ configPaths, ValueTree.Apart written path := by decide +kernel

/-- What is found at a path of the saved file: what is listed for it, and null where nothing is. -/
def savedValue (p : SystemParamter) (path : List String) : Option JsonTree :=
  some (((configWrites p).lookup path).getD .null)

/-- What a list has under a key is an entry of it. -/
theorem exists_lookup_of_mem_fst (entries : List (List String × JsonTree)) {path : List String}
    (h : path ∈ entries.map Prod.fst) : ∃ t, entries.lookup path = some t ∧ (path, t) ∈ entries := by
  induction entries with
  | nil => contradiction
  | cons entry rest ih =>
    by_cases hpath : path = entry.1
    · subst hpath
      exact ⟨entry.2, List.lookup_cons_self, List.mem_cons_self⟩
    · obtain ⟨t, hlookup, hmem⟩ := ih ((List.mem_cons.mp h).resolve_left hpath)
      have hne : (path == entry.1) = false := beq_false_of_ne hpath
      exact ⟨t, by rw [List.lookup_cons, hne, hlookup], List.mem_cons_of_mem entry hmem⟩

/-- What is not written is saved as null. -/
theorem savedValue_of_notMem {path : List String} (h : path ∉ configPaths) :
    savedValue p path = some .null := by
  have hmissing : (configWrites p).lookup path = none := by
    rw [List.lookup_eq_none_iff]
    exact fun entry hentry => bne_iff_ne.mpr fun hpath =>
      h (map_fst_configWrites p ▸ hpath ▸ List.mem_map_of_mem hentry)
  rw [savedValue, hmissing]
  rfl

/-- The file can be written, and at each path that `init` reads the saved value is found in it. -/
theorem saveConfigfile_get (p : SystemParamter) :
    ∃ root, saveConfigfile p = some root ∧
      ∀ path ∈ initReads.map ConfigRead.path, ValueTree.get path root = savedValue p path := by
  obtain ⟨root, hroot, hvalues, hnull⟩ := ValueTree.setAll_null (configWrites p) configPaths_apart
  refine ⟨root, hroot, fun path hpath => ?_⟩
  rcases initReads_path path hpath with hwritten | hapart
  · obtain ⟨t, hlookup, hmem⟩ := exists_lookup_of_mem_fst (configWrites p) hwritten
    rw [savedValue, hlookup]
    exact hvalues (path, t) hmem
  · have hmissing : path ∉ configPaths := fun hwritten => (hapart path hwritten).1 List.prefix_rfl
    rw [savedValue_of_notMem hmissing]
    exact hnull path hapart

/-- The parameters of no program are read back. -/
theorem runAll_mainReads : ConfigRead.runAll (savedValue p) mainReads q =
    ({ q with
        localIpaddress := p.localIpaddress
        ipaddress := p.ipaddress
        mqttHost := p.mqttHost
        mqttPort := p.mqttPort
        version := p.version }, true) := by
  simp [mainReads, ConfigRead.runAll, ConfigRead.text, ConfigRead.int, savedValue, configWrites,
    List.lookup_cons]

/-- The switches are read back. -/
theorem runAll_ioReads : ConfigRead.runAll (savedValue p) ioReads q =
    ({ q with localDevice := { q.localDevice with
        led := p.localDevice.led
        beep := p.localDevice.beep } }, true) := by
  simp [ioReads, ConfigRead.runAll, ConfigRead.text, ConfigRead.int, savedValue, configWrites,
    List.lookup_cons]

/-- The paths of devices other than those of `iio` are read back. -/
theorem runAll_deviceReads : ConfigRead.runAll (savedValue p) deviceReads q =
    ({ q with localDevice := { q.localDevice with
        loopled := p.localDevice.loopled
        key := p.localDevice.key
        icmSpi := p.localDevice.icmSpi
        apI2c := p.localDevice.apI2c
        rtc := p.localDevice.rtc } }, true) := by
  simp [deviceReads, ConfigRead.runAll, ConfigRead.text, savedValue, configWrites, List.lookup_cons]

/-- The paths of the devices of `iio` are read as empty. -/
theorem runAll_iioReads : ConfigRead.runAll (savedValue p) iioReads q =
    ({ q with localDevice.iio := ⟨[], []⟩ }, true) := by
  have hvf610 : savedValue p ["local_device", "iio", "vf610_adc"] = some .null :=
    savedValue_of_notMem (by decide +kernel)
  have hhx711 : savedValue p ["local_device", "iio", "hx711_dev"] = some .null :=
    savedValue_of_notMem (by decide +kernel)
  simp [iioReads, ConfigRead.runAll, ConfigRead.text, hvf610, hhx711]

/-- The parameters of the PWM device are read back. -/
theorem runAll_pwmReads : ConfigRead.runAll (savedValue p) pwmReads q =
    ({ q with localDevice.pwm := p.localDevice.pwm }, true) := by
  simp [pwmReads, ConfigRead.runAll, ConfigRead.text, ConfigRead.int, ConfigRead.uint, savedValue,
    configWrites, List.lookup_cons]

/-- The parameters of `main_process` are read back. -/
theorem runAll_mainProcessReads : ConfigRead.runAll (savedValue p) mainProcessReads q =
    ({ q with mainProcess := p.mainProcess }, true) := by
  simp [mainProcessReads, ConfigRead.runAll, ConfigRead.text, ConfigRead.int, savedValue, configWrites,
    List.lookup_cons]

/-- The parameters of `node_server` are read back. -/
theorem runAll_nodeServerReads : ConfigRead.runAll (savedValue p) nodeServerReads q =
    ({ q with nodeServer := p.nodeServer }, true) := by
  simp [nodeServerReads, ConfigRead.runAll, ConfigRead.text, ConfigRead.int, savedValue, configWrites,
    List.lookup_cons]

/-- The parameters of `gui_manage` are read back. -/
theorem runAll_guiManageReads : ConfigRead.runAll (savedValue p) guiManageReads q =
    ({ q with guiManage := p.guiManage }, true) := by
  simp [guiManageReads, ConfigRead.runAll, ConfigRead.text, ConfigRead.int, savedValue, configWrites,
    List.lookup_cons]

/-- The parameters of `winform` are read back. -/
theorem runAll_winformReads : ConfigRead.runAll (savedValue p) winformReads q =
    ({ q with winform := p.winform }, true) := by
  simp [winformReads, ConfigRead.runAll, ConfigRead.text, ConfigRead.int, savedValue, configWrites,
    List.lookup_cons]

/-- The parameters of `lower_device` are read back. -/
theorem runAll_lowerDeviceReads : ConfigRead.runAll (savedValue p) lowerDeviceReads q =
    ({ q with lowerDevice := p.lowerDevice }, true) := by
  simp [lowerDeviceReads, ConfigRead.runAll, ConfigRead.text, ConfigRead.int, savedValue, configWrites,
    List.lookup_cons]

/-- From a saved file `init` reads back all the static parameters but those of `iio`. -/
theorem runAll_initReads : ConfigRead.runAll (savedValue p) initReads q =
    ({ p with localDevice.iio := ⟨[], []⟩, loggerPrivilege := q.loggerPrivilege }, true) := by
  rw [initReads, ConfigRead.runAll_append _ runAll_mainReads, ConfigRead.runAll_append _ runAll_ioReads,
    ConfigRead.runAll_append _ runAll_deviceReads, ConfigRead.runAll_append _ runAll_iioReads,
    ConfigRead.runAll_append _ runAll_pwmReads, ConfigRead.runAll_append _ runAll_mainProcessReads,
    ConfigRead.runAll_append _ runAll_nodeServerReads, ConfigRead.runAll_append _ runAll_guiManageReads,
    ConfigRead.runAll_append _ runAll_winformReads, runAll_lowerDeviceReads]

end Reload

/-- The parameters agree but for the dynamic ones. -/
def SameStatic (p q : SystemParamter) : Prop := q = { p with loggerPrivilege := q.loggerPrivilege }

/-- The file can be written, and `init` reads all the static parameters back from it. -/
def Reloads (p : SystemParamter) : Prop :=
  ∃ root, saveConfigfile p = some root ∧
    ∀ dynamicFile hosts, SameStatic p (init (some root) dynamicFile hosts).1

/-- What every assignment keeps is kept, also when one of them throws. -/
theorem ConfigRead.runAll_invariant {value : List String → Option JsonTree} (inv : SystemParamter → Prop)
    {reads : List ConfigRead} (hstep : ∀ read ∈ reads, ∀ t store, read.convert t = some store →
      ∀ q, inv q → inv (store q)) {q : SystemParamter} (hq : inv q) : inv (runAll value reads q).1 := by
  induction reads generalizing q with
  | nil => exact hq
  | cons read reads ih =>
    rw [runAll]
    cases hstore : (value read.path).bind read.convert with
    | none => exact hq
    | some store =>
      obtain ⟨t, -, hconvert⟩ := Option.bind_eq_some_iff.mp hstore
      exact ih (fun r hr => hstep r (List.mem_cons_of_mem read hr))
        (hstep read List.mem_cons_self t store hconvert q hq)

/-- The assignments of `dynamic_init` are to dynamic parameters. -/
theorem dynamicReads_static (p : SystemParamter) : ∀ read ∈ dynamicReads, ∀ t store,
    read.convert t = some store → ∀ q, SameStatic p q → SameStatic p (store q) := by
  intro read hread t store hstore q hq
  simp only [dynamicReads, List.mem_cons, List.not_mem_nil, or_false] at hread
  rcases hread with rfl | rfl | rfl | rfl | rfl | rfl | rfl | rfl
  all_goals
    obtain ⟨v, -, rfl⟩ := Option.map_eq_some_iff.mp hstore
    rw [hq]
    rfl

/-- `dynamic_init` leaves the static parameters alone. -/
theorem dynamicInit_static {p q : SystemParamter} (h : SameStatic p q) (file : Option JsonTree) :
    SameStatic p (dynamicInit file q).1 := by
  cases file with
  | none => exact h
  | some root => exact ConfigRead.runAll_invariant (SameStatic p) (dynamicReads_static p) h

/-- After `init` has read a saved file, the static parameters are those that were saved, but for those of
`iio`. -/
theorem init_saveConfigfile (p : SystemParamter) :
    ∃ root, saveConfigfile p = some root ∧ ∀ dynamicFile hosts,
      SameStatic { p with localDevice.iio := ⟨[], []⟩ } (init (some root) dynamicFile hosts).1 := by
  obtain ⟨root, hroot, hvalue⟩ := saveConfigfile_get p
  refine ⟨root, hroot, fun dynamicFile hosts => ?_⟩
  have hread : ConfigRead.runAll (ValueTree.get · root) initReads defaultInit =
      ({ p with localDevice.iio := ⟨[], []⟩, loggerPrivilege := defaultInit.loggerPrivilege }, true) := by
    rw [ConfigRead.runAll_congr hvalue, runAll_initReads]
  have hsame : SameStatic { p with localDevice.iio := ⟨[], []⟩ }
      { p with localDevice.iio := ⟨[], []⟩, loggerPrivilege := defaultInit.loggerPrivilege } := rfl
  have hdynamic := dynamicInit_static hsame dynamicFile
  have hinit : (init (some root) dynamicFile hosts).1 = (dynamicInit dynamicFile
      { p with localDevice.iio := ⟨[], []⟩, loggerPrivilege := defaultInit.loggerPrivilege }).1 := by
    rw [init]
    dsimp only
    rw [hread]
    dsimp only
    obtain ⟨q, ok⟩ := dynamicInit dynamicFile
      { p with localDevice.iio := ⟨[], []⟩, loggerPrivilege := defaultInit.loggerPrivilege }
    cases ok <;> rfl
  rwa [hinit]

/-- The static parameters are read back from the file exactly when the paths of the devices of `iio` are
empty. -/
theorem reload_iff (p : SystemParamter) : Reloads p ↔ p.localDevice.iio = ⟨[], []⟩ := by
  obtain ⟨root, hroot, hinit⟩ := init_saveConfigfile p
  constructor
  · rintro ⟨root', hroot', hsame⟩
    obtain rfl := Option.some.inj (hroot.symm.trans hroot')
    have heq := (hsame none []).symm.trans (hinit none [])
    exact congrArg (fun q => q.localDevice.iio) heq
  · intro hiio
    have hp : { p with localDevice.iio := ⟨[], []⟩ } = p := by rw [← hiio]
    rw [hp] at hinit
    exact ⟨root, hroot, hinit⟩

/-- The defaults name devices of `iio`, which are lost. -/
theorem reload_default : ¬ ∀ p, Reloads p := by
  intro h
  exact absurd ((reload_iff defaultInit).mp (h defaultInit)) (by decide)

end RemoteManage.Common

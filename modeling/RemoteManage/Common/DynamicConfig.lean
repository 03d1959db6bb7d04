import RemoteManage.Common.SystemConfig

/-!
# The file of the dynamic configuration

`set_logger_level` changes the level of one application and writes the whole dynamic
configuration when the level was another one. The file then says what the memory says: reading
it again gives the same levels and login settings. Between two calls this is an invariant that
the first `dynamic_init` establishes (`Mirrors`), whatever else the file holds that it has read.
-/

namespace RemoteManage.Common

open RemoteManage.Foundation

/-- The assignments to the tree in `save_dynamicfile`. -/
def dynamicWrites (p : LoggerPrivilege) : List (List String × JsonTree) :=
  [
    (["logger_privilege", "gui_manage_level"], .ofInt p.guiManageLevel),
    (["logger_privilege", "local_device_level"], .ofInt p.localDeviceLevel),
    (["logger_privilege", "logger_device_level"], .ofInt p.loggerDeviceLevel),
    (["logger_privilege", "lower_device_level"], .ofInt p.lowerDeviceLevel),
    (["logger_privilege", "main_process_level"], .ofInt p.mainProcessLevel),
    (["logger_privilege", "node_server_level"], .ofInt p.nodeServerLevel),
    (["logger_manage", "passwd"], .ofString p.passwd),
    (["logger_manage", "allow_no_passwd"], .ofBool p.allowNoPasswd)
  ]

/-- `save_dynamicfile`: the tree that is written to the file. -/
def saveDynamicfile (p : SystemParamter) : Option JsonTree :=
  ValueTree.setAll (dynamicWrites p.loggerPrivilege) .null

/-- `parameter_` and the file at `dynamic_path_`. -/
structure DynamicConfig where
  parameter : SystemParamter
  file : Option JsonTree

namespace DynamicConfig

/-- `set_logger_level`, with its result before it is made a truth value. -/
def setLoggerLevel (s : DynamicConfig) (dev level : Int32) : DynamicConfig × ℤ :=
  let (privilege, ret) := s.parameter.loggerPrivilege.setLoggerLevel dev level
  let parameter := { s.parameter with loggerPrivilege := privilege }
  (⟨parameter, if ret = 1 then saveDynamicfile parameter else s.file⟩, ret)

/-- Several calls of `set_logger_level`, each with an application and a level. -/
def setLoggerLevels (s : DynamicConfig) (calls : List (Int32 × Int32)) : DynamicConfig :=
  calls.foldl (fun s call => (s.setLoggerLevel call.1 call.2).1) s

/-- `dynamic_init` on the file gives the levels and login settings that are in memory, whatever was there
before it. -/
def Mirrors (s : DynamicConfig) : Prop :=
  ∀ q, dynamicInit s.file q = ({ q with loggerPrivilege := s.parameter.loggerPrivilege }, true)

/-- Only the level of the one application has changed, and nothing at all for an unknown one. -/
structure ChangesOnly (s s' : DynamicConfig) (dev level : Int32) : Prop where
  level : LoggerPrivilege.KnownDev dev → s'.parameter.loggerPrivilege.level dev = some level
  others : ∀ other ≠ dev, s'.parameter.loggerPrivilege.level other = s.parameter.loggerPrivilege.level other
  passwd : s'.parameter.loggerPrivilege.passwd = s.parameter.loggerPrivilege.passwd
  allowNoPasswd : s'.parameter.loggerPrivilege.allowNoPasswd = s.parameter.loggerPrivilege.allowNoPasswd
  static : SameStatic s.parameter s'.parameter
  unknown : ¬ LoggerPrivilege.KnownDev dev → s' = s

/-- What `dynamic_init` reads, if no conversion throws. -/
def readPrivilege (value : List String → Option JsonTree) : Option LoggerPrivilege := do
  let guiManageLevel ← (value ["logger_privilege", "gui_manage_level"]).bind JsonTree.asInt
  let localDeviceLevel ← (value ["logger_privilege", "local_device_level"]).bind JsonTree.asInt
  let loggerDeviceLevel ← (value ["logger_privilege", "logger_device_level"]).bind JsonTree.asInt
  let lowerDeviceLevel ← (value ["logger_privilege", "lower_device_level"]).bind JsonTree.asInt
  let mainProcessLevel ← (value ["logger_privilege", "main_process_level"]).bind JsonTree.asInt
  let nodeServerLevel ← (value ["logger_privilege", "node_server_level"]).bind JsonTree.asInt
  let allowNoPasswd ← (value ["logger_manage", "allow_no_passwd"]).bind JsonTree.asBool
  let passwd ← (value ["logger_manage", "passwd"]).bind JsonTree.asString
  some ⟨guiManageLevel, localDeviceLevel, loggerDeviceLevel, lowerDeviceLevel, mainProcessLevel,
    nodeServerLevel, passwd, allowNoPasswd⟩

section Reads

variable {value : List String → Option JsonTree} {q q' : SystemParamter}

/-- Assignments succeed when the first of them does and the others do after it. -/
theorem runAll_cons_iff {read : ConfigRead} {reads : List ConfigRead} :
    ConfigRead.runAll value (read :: reads) q = (q', true) ↔
      ∃ store, (value read.path).bind read.convert = some store ∧
        ConfigRead.runAll value reads (store q) = (q', true) := by
  rw [ConfigRead.runAll]
  cases (value read.path).bind read.convert with
  | none => simp
  | some store => simp

/-- A conversion gives what is stored when it gives a value. -/
theorem bind_map_eq_some_iff {α β γ : Type*} {o : Option α} {convert : α → Option β} {store : β → γ} {x : γ} :
    (o.bind fun t => (convert t).map store) = some x ↔ ∃ v, o.bind convert = some v ∧ store v = x := by
  cases o with
  | none => simp
  | some t => exact Option.map_eq_some_iff

/-- `dynamic_init` succeeds when everything can be read, and stores just that. -/
theorem runAll_dynamicReads_iff :
    ConfigRead.runAll value dynamicReads q = (q', true) ↔
      ∃ privilege, readPrivilege value = some privilege ∧ q' = { q with loggerPrivilege := privilege } := by
  simp only [dynamicReads, runAll_cons_iff, ConfigRead.int, ConfigRead.bool, ConfigRead.text,
    bind_map_eq_some_iff]
  simp only [readPrivilege, Option.bind_eq_bind, Option.bind_eq_some_iff, Option.some.injEq]
  constructor
  · rintro ⟨_, ⟨gui, hgui, rfl⟩, _, ⟨loc, hloc, rfl⟩, _, ⟨logger, hlogger, rfl⟩, _, ⟨lower, hlower, rfl⟩, _,
      ⟨main, hmain, rfl⟩, _, ⟨node, hnode, rfl⟩, _, ⟨allow, hallow, rfl⟩, _, ⟨passwd, hpasswd, rfl⟩, hq⟩
    exact ⟨_, ⟨gui, hgui, loc, hloc, logger, hlogger, lower, hlower, main, hmain, node, hnode, allow, hallow,
      passwd, hpasswd, rfl⟩, (Prod.mk.inj hq).1.symm⟩
  · rintro ⟨_, ⟨gui, hgui, loc, hloc, logger, hlogger, lower, hlower, main, hmain, node, hnode, allow, hallow,
      passwd, hpasswd, rfl⟩, rfl⟩
    exact ⟨_, ⟨gui, hgui, rfl⟩, _, ⟨loc, hloc, rfl⟩, _, ⟨logger, hlogger, rfl⟩, _, ⟨lower, hlower, rfl⟩, _,
      ⟨main, hmain, rfl⟩, _, ⟨node, hnode, rfl⟩, _, ⟨allow, hallow, rfl⟩, _, ⟨passwd, hpasswd, rfl⟩, rfl⟩

end Reads

/-- The same for `dynamic_init` on a file. -/
theorem dynamicInit_iff {root : JsonTree} {q q' : SystemParamter} :
    dynamicInit (some root) q = (q', true) ↔
      ∃ privilege, readPrivilege (ValueTree.get · root) = some privilege ∧
        q' = { q with loggerPrivilege := privilege } := by
  rw [dynamicInit]
  exact runAll_dynamicReads_iff

/-- What a successful `dynamic_init` leaves in memory, the file says. -/
theorem mirrors_of_dynamicInit {file : Option JsonTree} {p q : SystemParamter}
    (h : dynamicInit file q = (p, true)) : Mirrors ⟨p, file⟩ := by
  cases file with
  | none => exact absurd (Prod.mk.inj h).2 Bool.false_ne_true
  | some root =>
    obtain ⟨privilege, hread, rfl⟩ := dynamicInit_iff.mp h
    exact fun q' => dynamicInit_iff.mpr ⟨privilege, hread, rfl⟩

/-- No path that is written leads through another one. -/
theorem dynamicWrites_apart (p : LoggerPrivilege) :
    ((dynamicWrites p).map Prod.fst).Pairwise ValueTree.Apart := by
  change ((dynamicWrites default).map Prod.fst).Pairwise ValueTree.Apart
  decide +kernel

/-- What has just been saved the file says. -/
theorem mirrors_saveDynamicfile (p : SystemParamter) : Mirrors ⟨p, saveDynamicfile p⟩ := by
  obtain ⟨root, hroot, hvalues, -⟩ :=
    ValueTree.setAll_null (dynamicWrites p.loggerPrivilege) (dynamicWrites_apart _)
  have hread : readPrivilege (ValueTree.get · root) = some p.loggerPrivilege := by
    simp only [dynamicWrites, List.forall_mem_cons, List.not_mem_nil] at hvalues
    obtain ⟨hgui, hlocal, hlogger, hlower, hmain, hnode, hpasswd, hallow, -⟩ := hvalues
    simp [readPrivilege, hgui, hlocal, hlogger, hlower, hmain, hnode, hpasswd, hallow]
  intro q
  rw [saveDynamicfile, hroot]
  exact dynamicInit_iff.mpr ⟨p.loggerPrivilege, hread, rfl⟩

/-- The file says what the memory says also after a call of `set_logger_level`. -/
theorem Mirrors.setLoggerLevel {s : DynamicConfig} (h : Mirrors s) (dev level : Int32) :
    Mirrors (s.setLoggerLevel dev level).1 := by
  by_cases hsaved : (s.parameter.loggerPrivilege.setLoggerLevel dev level).2 = 1
  · rw [DynamicConfig.setLoggerLevel]
    dsimp only
    rw [if_pos hsaved]
    exact mirrors_saveDynamicfile _
  · have hsame := (s.parameter.loggerPrivilege.setLoggerLevel_saved_or_same dev level).resolve_left hsaved
    rw [DynamicConfig.setLoggerLevel]
    dsimp only
    rw [if_neg hsaved, hsame]
    exact h

/-- A call of `set_logger_level` changes the level it is asked to change and nothing else. -/
theorem changesOnly_setLoggerLevel (s : DynamicConfig) (dev level : Int32) :
    ChangesOnly s (s.setLoggerLevel dev level).1 dev level := by
  have hprivilege : (s.setLoggerLevel dev level).1.parameter.loggerPrivilege =
      s.parameter.loggerPrivilege.withLevel dev level :=
    s.parameter.loggerPrivilege.setLoggerLevel_fst dev level
  obtain ⟨hpasswd, hallow⟩ := s.parameter.loggerPrivilege.withLevel_login dev level
  refine ⟨fun hdev => ?_, fun other hother => ?_, ?_, ?_, rfl, fun hdev => ?_⟩
  · rw [hprivilege, LoggerPrivilege.level_withLevel _ level hdev]
  · rw [hprivilege, LoggerPrivilege.level_withLevel_of_ne _ level hother]
  · rw [hprivilege, hpasswd]
  · rw [hprivilege, hallow]
  · rw [DynamicConfig.setLoggerLevel, LoggerPrivilege.setLoggerLevel_of_not_known _ level hdev]
    rfl

/-- The file says what the memory says after any number of calls. -/
theorem Mirrors.setLoggerLevels {s : DynamicConfig} (h : Mirrors s) (calls : List (Int32 × Int32)) :
    Mirrors (s.setLoggerLevels calls) := by
  induction calls generalizing s with
  | nil => exact h
  | cons call calls ih => exact ih (h.setLoggerLevel call.1 call.2)

/-- From a successful `dynamic_init` on, after every call of `set_logger_level` the file says what the memory
says, and the call has changed the level it was asked to change and nothing else. -/
theorem setLoggerLevels_mirrors (file : Option JsonTree) (p q : SystemParamter)
    (hinit : dynamicInit file q = (p, true)) (calls : List (Int32 × Int32)) (dev level : Int32) :
    Mirrors ((setLoggerLevels ⟨p, file⟩ calls).setLoggerLevel dev level).1 ∧
      ChangesOnly (setLoggerLevels ⟨p, file⟩ calls)
        ((setLoggerLevels ⟨p, file⟩ calls).setLoggerLevel dev level).1 dev level :=
  ⟨((mirrors_of_dynamicInit hinit).setLoggerLevels calls).setLoggerLevel dev level,
    changesOnly_setLoggerLevel _ dev level⟩

/-- A file that holds nothing is read as levels of 0; then two levels are changed. -/
theorem setLoggerLevels_mirrors_empty :
    Mirrors ((setLoggerLevels ⟨{ defaultInit with loggerPrivilege := default }, some .null⟩
      [(mainLoggerDev, 5)]).setLoggerLevel guiLoggerDev 3).1 :=
  (setLoggerLevels_mirrors (some .null) { defaultInit with loggerPrivilege := default } defaultInit
    (dynamicInit_iff.mpr ⟨default, rfl, rfl⟩) [(mainLoggerDev, 5)] guiLoggerDev 3).1

end DynamicConfig

end RemoteManage.Common

import Mathlib.Data.Int.Notation
import Mathlib.Logic.Basic

/-!
# The log levels of the applications

`system_config` records a log level for each of six applications beside the password of the
logger. `set_logger_level` changes the level of one application and saves the file of the
dynamic configuration when the level was another one.
-/

namespace RemoteManage.Common

/-- `LoggerPrivilege`. -/
structure LoggerPrivilege where
  guiManageLevel : Int32
  localDeviceLevel : Int32
  loggerDeviceLevel : Int32
  lowerDeviceLevel : Int32
  mainProcessLevel : Int32
  nodeServerLevel : Int32
  passwd : List UInt8
  allowNoPasswd : Bool
  deriving DecidableEq, Repr, Inhabited

/-- `GUI_LOGGER_DEV`. -/
def guiLoggerDev : Int32 := 0

/-- `LOCAL_LOGGER_DEV`. -/
def localLoggerDev : Int32 := 1

/-- `LOGGER_LOGGER_DEV`. -/
def loggerLoggerDev : Int32 := 2

/-- `LOWER_LOGGER_DEV`. -/
def lowerLoggerDev : Int32 := 3

/-- `MAIN_LOGGER_DEV`. -/
def mainLoggerDev : Int32 := 4

/-- `NODE_LOGGGE_DEV`. -/
def nodeLoggerDev : Int32 := 5

namespace LoggerPrivilege

/-- The level recorded for an application, if it is one of the six. -/
def level (p : LoggerPrivilege) (dev : Int32) : Option Int32 :=
  if dev = guiLoggerDev then some p.guiManageLevel
  else if dev = localLoggerDev then some p.localDeviceLevel
  else if dev = loggerLoggerDev then some p.loggerDeviceLevel
  else if dev = lowerLoggerDev then some p.lowerDeviceLevel
  else if dev = mainLoggerDev then some p.mainProcessLevel
  else if dev = nodeLoggerDev then some p.nodeServerLevel
  else none

/-- The record with another level for one of the applications. -/
def withLevel (p : LoggerPrivilege) (dev level : Int32) : LoggerPrivilege :=
  if dev = guiLoggerDev then { p with guiManageLevel := level }
  else if dev = localLoggerDev then { p with localDeviceLevel := level }
  else if dev = loggerLoggerDev then { p with loggerDeviceLevel := level }
  else if dev = lowerLoggerDev then { p with lowerDeviceLevel := level }
  else if dev = mainLoggerDev then { p with mainProcessLevel := level }
  else if dev = nodeLoggerDev then { p with nodeServerLevel := level }
  else p

/-- `set_logger_level`: the new record and its variable `ret`, which is 1 when the file is saved, 0 when the
level is the one recorded, and -1 for an application it does not know. It is returned as a `bool`, so that
an unknown application gives `true`. -/
def setLoggerLevel (p : LoggerPrivilege) (dev level : Int32) : LoggerPrivilege × ℤ :=
  match p.level dev with
  | none => (p, -1)
  | some last => if last ≠ level then (p.withLevel dev level, 1) else (p, 0)

/-- One of the six applications. -/
def KnownDev (dev : Int32) : Prop :=
  dev ∈ [guiLoggerDev, localLoggerDev, loggerLoggerDev, lowerLoggerDev, mainLoggerDev, nodeLoggerDev]

instance (dev : Int32) : Decidable (KnownDev dev) := inferInstanceAs (Decidable (dev ∈ _))

/-- A level is recorded for the known applications and no others. -/
theorem level_eq_none_iff (p : LoggerPrivilege) (dev : Int32) : p.level dev = none ↔ ¬ KnownDev dev := by
  unfold level KnownDev
  grind

/-- The level that has been given to an application is found there. -/
theorem level_withLevel (p : LoggerPrivilege) {dev : Int32} (level : Int32) (h : KnownDev dev) :
    (p.withLevel dev level).level dev = some level := by
  simp only [KnownDev, List.mem_cons, List.not_mem_nil, or_false] at h
  rcases h with rfl | rfl | rfl | rfl | rfl | rfl <;> rfl

/-- An unknown application is given no level. -/
theorem withLevel_of_not_known (p : LoggerPrivilege) {dev : Int32} (level : Int32) (h : ¬ KnownDev dev) :
    p.withLevel dev level = p := by
  unfold KnownDev at h
  unfold withLevel
  grind

/-- The levels of the other applications are left as they were. -/
theorem level_withLevel_of_ne (p : LoggerPrivilege) {dev other : Int32} (level : Int32) (h : other ≠ dev) :
    (p.withLevel dev level).level other = p.level other := by
  by_cases hdev : KnownDev dev
  · simp only [KnownDev, List.mem_cons, List.not_mem_nil, or_false] at hdev
    rcases hdev with rfl | rfl | rfl | rfl | rfl | rfl
    all_goals
      unfold LoggerPrivilege.level
      simp only [h, if_false]
      rfl
  · rw [withLevel_of_not_known p level hdev]

/-- The login settings are left as they were. -/
theorem withLevel_login (p : LoggerPrivilege) (dev level : Int32) :
    (p.withLevel dev level).passwd = p.passwd ∧ (p.withLevel dev level).allowNoPasswd = p.allowNoPasswd := by
  unfold withLevel
  grind

/-- Giving an application the level it has changes nothing. -/
theorem withLevel_level (p : LoggerPrivilege) {dev level : Int32} (h : p.level dev = some level) :
    p.withLevel dev level = p := by
  by_cases hdev : KnownDev dev
  · simp only [KnownDev, List.mem_cons, List.not_mem_nil, or_false] at hdev
    rcases hdev with rfl | rfl | rfl | rfl | rfl | rfl
    all_goals
      obtain rfl := Option.some.inj h
      rfl
  · exact withLevel_of_not_known p level hdev

/-- After `set_logger_level` the record is the one with the new level. -/
theorem setLoggerLevel_fst (p : LoggerPrivilege) (dev level : Int32) :
    (p.setLoggerLevel dev level).1 = p.withLevel dev level := by
  unfold setLoggerLevel
  cases hlast : p.level dev with
  | none => rw [withLevel_of_not_known p level ((level_eq_none_iff p dev).mp hlast)]
  | some last =>
    dsimp only
    by_cases hsame : last = level
    · rw [if_neg (not_not.mpr hsame), withLevel_level p (hsame ▸ hlast)]
    · rw [if_pos hsame]

/-- After `set_logger_level` the level of a known application is the one it was given. -/
theorem level_setLoggerLevel (p : LoggerPrivilege) {dev : Int32} (level : Int32) (h : KnownDev dev) :
    (p.setLoggerLevel dev level).1.level dev = some level := by
  rw [setLoggerLevel_fst, level_withLevel p level h]

/-- Where `set_logger_level` does not have the file saved, it has changed nothing. -/
theorem setLoggerLevel_saved_or_same (p : LoggerPrivilege) (dev level : Int32) :
    (p.setLoggerLevel dev level).2 = 1 ∨ (p.setLoggerLevel dev level).1 = p := by
  unfold setLoggerLevel
  split
  · exact .inr rfl
  · split
    · exact .inl rfl
    · exact .inr rfl

/-- An unknown application changes nothing. -/
theorem setLoggerLevel_of_not_known (p : LoggerPrivilege) {dev : Int32} (level : Int32) (h : ¬ KnownDev dev) :
    p.setLoggerLevel dev level = (p, -1) := by
  rw [setLoggerLevel, (level_eq_none_iff p dev).mpr h]

end LoggerPrivilege

end RemoteManage.Common

import RemoteManage.Foundation.CString

/-!
# The command server of the logger

`log_process::send_buffer` handles what a client sends to the logger: it checks the login,
finds the command the message begins with and forwards what follows it to the FIFO of a
process, shows the help, logs out or checks a password. A message arrives at one time,
which every reading of the clock in it returns. `show_help` goes through a `std::map`,
so its lines stand in the order of `CMD_DEVICE`, and the search for the command goes through
another one in the order of the texts.
-/

namespace RemoteManage.LoggerTool

open RemoteManage.Foundation

/-- `LOGIN_TIMEOUT`, in seconds. -/
def loginTimeout : UInt32 := 600

/-- `CMD_DEVICE`. -/
inductive CmdDevice where
  | null
  | guiDev
  | localDev
  | logout
  | lowerDev
  | mainDev
  | passwd
  | help
  deriving DecidableEq, Repr

/-- The FIFOs to which commands are forwarded. -/
inductive CommandFifo where
  | gui
  | localDev
  | lowerDev
  | mainProcess
  deriving DecidableEq, Repr

/-- The entry of `command_map` that leads to a FIFO. -/
def CommandFifo.command : CommandFifo → List UInt8 × CmdDevice
  | gui => (CString.bytes "!gui ", .guiDev)
  | localDev => (CString.bytes "!local_dev ", .localDev)
  | lowerDev => (CString.bytes "!lower_dev ", .lowerDev)
  | mainProcess => (CString.bytes "!main_proc ", .mainDev)

/-- `command_map`, in the order in which the map is searched. -/
def commandMap : List (List UInt8 × CmdDevice) :=
  [(CString.bytes "!?", .help), (CString.bytes "!gui ", .guiDev), (CString.bytes "!help", .help),
    (CString.bytes "!local_dev ", .localDev), (CString.bytes "!logout", .logout),
    (CString.bytes "!lower_dev ", .lowerDev), (CString.bytes "!main_proc ", .mainDev),
    (CString.bytes "!passwd ", .passwd)]

/-- `command_help_map`, in the order in which the map is shown. -/
def commandHelpMap : List String :=
  ["[!gui ?] show gui command", "[!local_dev ?]: show local device comnand",
    "[!lower_dev ?]: show lower device command", "[!main_proc ?]: show main process command",
    "[!passwd]: login in the command system", "!? or !help"]

/-- `show_help`: the text that is logged. -/
def showHelp : String := "\n" ++ String.intercalate "\n" commandHelpMap

/-- The login settings of the configuration. -/
structure LoggerPrivilege where
  passwd : List UInt8
  allowNoPasswd : Bool

/-- The login state. -/
structure LogProcess where
  isLogin : Bool
  lastLoginTimers : UInt32
  deriving DecidableEq, Repr

/-- The login state of a new object. -/
def LogProcess.init : LogProcess := ⟨false, 0⟩

/-- What `send_buffer` has done with a message. A write of no data is asked for like any other; the
FIFO then has nothing to take. -/
inductive Effect where
  | notLogin
  | write (fifo : CommandFifo) (data : List UInt8)
  | logout
  | login
  | passwdError
  | help (text : String)
  | noCommand
  | commandFailed
  deriving DecidableEq

/-- `login`. -/
def login (config : LoggerPrivilege) (now : UInt32) (s : LogProcess) (ptr : List UInt8) :
    LogProcess × Bool :=
  if config.allowNoPasswd then ({ s with lastLoginTimers := now }, true)
  else
    let s :=
      if s.isLogin then
        { isLogin := if loginTimeout < now - s.lastLoginTimers then false else s.isLogin
          lastLoginTimers := now }
      else s
    if s.isLogin then (s, true)
    else
      let s := { s with lastLoginTimers := now }
      if CString.strncmpEq 8 (CString.bytes "!passwd ") ptr then (s, true) else (s, false)

/-- The comparison that the search for the command makes. -/
def beginsWith (ptr : List UInt8) (command : List UInt8 × CmdDevice) : Bool :=
  CString.strncmpEq command.1.length command.1 ptr

/-- The search for the command at the beginning of a message, and the length of its text. -/
def findCommand (ptr : List UInt8) : CmdDevice × ℕ :=
  match commandMap.find? (beginsWith ptr) with
  | some command => (command.2, command.1.length)
  | none => (.null, 0)

/-- What `send_buffer` does once `login` has agreed. -/
def dispatch (config : LoggerPrivilege) (s : LogProcess) (ptr : List UInt8) : LogProcess × Effect :=
  let cmd := (findCommand ptr).1
  let len := (findCommand ptr).2
  if len ≤ ptr.length then
    match cmd with
    | .guiDev => (s, .write .gui (ptr.drop len))
    | .localDev => (s, .write .localDev (ptr.drop len))
    | .logout => ({ s with isLogin := false }, .logout)
    | .lowerDev => (s, .write .lowerDev (ptr.drop len))
    | .mainDev => (s, .write .mainProcess (ptr.drop len))
    | .passwd =>
      if ptr.length - len = config.passwd.length ∧ ptr.drop len = config.passwd then
        ({ s with isLogin := true }, .login)
      else (s, .passwdError)
    | .help => (s, .help showHelp)
    | .null => (s, .noCommand)
  else (s, .commandFailed)

/-- `send_buffer`, with its result behind the effect. -/
def sendBuffer (config : LoggerPrivilege) (now : UInt32) (s : LogProcess) (ptr : List UInt8) :
    LogProcess × Effect × ℤ :=
  let (s, ret) := login config now s ptr
  if ret then
    let (s, effect) := dispatch config s ptr
    (s, effect, ptr.length)
  else (s, .notLogin, -1)

/-- No text in the map contains a zero. -/
theorem commandMap_no_zero : ∀ command ∈ commandMap, (0 : UInt8) ∉ command.1 := by decide

/-- No text in the map is a first part of another one. -/
theorem commandMap_prefix_free :
    ∀ command ∈ commandMap, ∀ other ∈ commandMap, command.1 <+: other.1 → command = other := by
  decide

/-- The comparison succeeds when the message begins with the text. -/
theorem beginsWith_iff {command : List UInt8 × CmdDevice} (hcommand : command ∈ commandMap)
    (ptr : List UInt8) : beginsWith ptr command = true ↔ command.1 <+: ptr :=
  CString.strncmpEq_iff_prefix command.1 ptr (commandMap_no_zero command hcommand)

/-- The search finds the command whose text the message begins with. -/
theorem findCommand_eq {command : List UInt8 × CmdDevice} (hcommand : command ∈ commandMap)
    {ptr : List UInt8} (h : command.1 <+: ptr) : findCommand ptr = (command.2, command.1.length) := by
  unfold findCommand
  cases hfind : commandMap.find? (beginsWith ptr) with
  | none =>
    have hnone := List.find?_eq_none.mp hfind command hcommand
    exact absurd ((beginsWith_iff hcommand ptr).mpr h) hnone
  | some other =>
    have hother := List.mem_of_find?_eq_some hfind
    have hptr := (beginsWith_iff hother ptr).mp (List.find?_some hfind)
    have hsame : command = other := by
      rcases List.prefix_or_prefix_of_prefix h hptr with hle | hle
      · exact commandMap_prefix_free command hcommand other hother hle
      · exact (commandMap_prefix_free other hother command hcommand hle).symm
    rw [hsame]

/-- A command that the search finds is at the beginning of the message. -/
theorem exists_of_findCommand (ptr : List UInt8) (h : (findCommand ptr).1 ≠ .null) :
    ∃ command ∈ commandMap, command.1 <+: ptr ∧ findCommand ptr = (command.2, command.1.length) := by
  cases hfind : commandMap.find? (beginsWith ptr) with
  | none =>
    rw [findCommand, hfind] at h
    exact absurd rfl h
  | some command =>
    have hcommand := List.mem_of_find?_eq_some hfind
    have hprefix := (beginsWith_iff hcommand ptr).mp (List.find?_some hfind)
    exact ⟨command, hcommand, hprefix, findCommand_eq hcommand hprefix⟩

end RemoteManage.LoggerTool

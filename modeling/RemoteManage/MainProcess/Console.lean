import RemoteManage.Common.LoggerPrivilege
import RemoteManage.MainProcess.ProcessDevice

/-!
# Commands on the console

A command is read into a buffer of 512 bytes and a zero is put behind it. Its name ends at
the first blank or zero, which is overwritten by a zero, and its argument is the text one
byte further on. A command that is a name and nothing else has its argument behind its own
zero, where the bytes of earlier commands lie (`runCommand_eq`).

What a command does is told by its effect. Where the program would read an element that a
list of tokens does not have, or memory outside the buffer, there is none.
-/

namespace RemoteManage.MainProcess

open RemoteManage.Foundation RemoteManage.Foundation.CString RemoteManage.LocalDevice
open RemoteManage.Common

/-- `cmd_format_t`, as far as there are commands for it. -/
inductive CmdFormat where
  | setLevel
  | setDevice
  | publish
  | getHelp
  | getOs
  deriving DecidableEq, Repr

/-- `CmdMapM`. -/
def cmdMap : List (String × CmdFormat) :=
  [("getos", .getOs), ("setlevel", .setLevel), ("setdev", .setDevice), ("publish", .publish), ("?", .getHelp),
    ("help", .getHelp)]

/-- `DevMap`. -/
def devMap : List (String × UInt8) := [("led", deviceLed), ("beep", deviceBeep), ("pwm", devicePwm)]

/-- The character `,`. -/
def comma : UInt8 := 44

/-- `tolower`. -/
def toLower (c : UInt8) : UInt8 := if 65 ≤ c ∧ c ≤ 90 then c + 32 else c

/-- The variables `dev` and `level` of `process_data` and those of `process_device`. -/
structure ConsoleInts where
  dev : Int32
  level : Int32
  pwm : PwmInts
  deriving Inhabited

/-- What a command does: the levels recorded after it, the level that the log of the process is set to, the
bytes of a call of `sync_info`, the call of `set_device` and the text that is published. -/
structure ConsoleEffect where
  privilege : LoggerPrivilege
  logLevel : Option Int32
  sync : Option (List UInt8)
  call : Option SetDevice
  published : Option (List UInt8)
  deriving DecidableEq

/-- The command changes nothing. -/
def ConsoleEffect.nothing (privilege : LoggerPrivilege) : ConsoleEffect := ⟨privilege, none, none, none, none⟩

/-- `sync_level`. -/
def syncLevel (privilege : LoggerPrivilege) (dev level : Int32) : ConsoleEffect :=
  { ConsoleEffect.nothing (privilege.setLoggerLevel dev level).1 with
    sync := if dev = localLoggerDev ∧ privilege.localDeviceLevel ≠ level then
      some [0, level.toUInt32.toUInt8] else none
    logLevel := if dev = mainLoggerDev ∧ privilege.mainProcessLevel ≠ level then some level else none }

/-- `process_data` on the memory that `cmd_data_pointer_` points to. -/
def processData (int : IntStore) (ints : ConsoleInts) (privilege : LoggerPrivilege) (memory : List UInt8) :
    CmdFormat → Option ConsoleEffect
  | .getOs => some (.nothing privilege)
  | .getHelp => some (.nothing privilege)
  | .publish => do
    let text ← textAt memory
    some { ConsoleEffect.nothing privilege with published := some text }
  | .setLevel => do
    let text ← textAt memory
    let values := scanInts comma 2 text
    some (syncLevel privilege ((values[0]?.map int.store).getD ints.dev)
      ((values[1]?.map int.store).getD ints.level))
  | .setDevice => do
    let text ← textAt memory
    let tokens := split semicolon text
    let name ← tokens[0]?
    match lookup devMap name with
    | none => some (.nothing privilege)
    | some dev =>
      let data ← tokens[1]?
      some { ConsoleEffect.nothing privilege with call := (processDevice int ints.pwm dev data).2 }

/-- The name of a command ends here. -/
def endsName (c : UInt8) : Bool := c = 32 || c = 0

/-- `parse_data`: the buffer with the name ended by a zero and, if the name is known, the format and the index
that `cmd_data_pointer_` is set to. -/
def parseData (rx : FixedBuffer UInt8 deviceRxBufferSize) :
    FixedBuffer UInt8 deviceRxBufferSize × Option (CmdFormat × ℕ) :=
  let start := (rx.cells.toList.takeWhile fun c => !endsName c).length
  let name := (rx.contents start).map toLower
  (rx.write start 0, (lookup cmdMap name).map fun format => (format, start + 1))

/-- `rx_buffer_` with a command that has been read and the zero behind it. -/
def receive (rx : FixedBuffer UInt8 deviceRxBufferSize) (command : List UInt8) :
    FixedBuffer UInt8 deviceRxBufferSize :=
  (rx.writeAll 0 command).write command.length 0

/-- The loop of `run` on a command that has been read. One that fills the buffer leaves no room for the
zero. -/
def runCommand (int : IntStore) (ints : ConsoleInts) (privilege : LoggerPrivilege)
    (rx : FixedBuffer UInt8 deviceRxBufferSize) (command : List UInt8) : Option ConsoleEffect :=
  if command.length < deviceRxBufferSize then
    let (rx, parsed) := parseData (receive rx command)
    match parsed with
    | none => some (.nothing privilege)
    | some (format, index) => processData int ints privilege (rx.cells.toList.drop index) format
  else none

/-- What a command leaves in the buffer. -/
def bufferAfter (rx : FixedBuffer UInt8 deviceRxBufferSize) (command : List UInt8) :
    FixedBuffer UInt8 deviceRxBufferSize :=
  (parseData (receive rx command)).1

/-- The name of a command in small letters. -/
def commandName (command : List UInt8) : List UInt8 := (command.takeWhile fun c => !endsName c).map toLower

/-- The argument that is part of the command, if there is something behind its name. -/
def argument (command : List UInt8) : Option (List UInt8) :=
  match command.dropWhile fun c => !endsName c with
  | [] => none
  | _ :: text => some (text.takeWhile (· ≠ 0))

/-- The memory behind the name of a command that has been received. -/
def argumentMemory (rx : FixedBuffer UInt8 deviceRxBufferSize) (command : List UInt8) : List UInt8 :=
  (command.dropWhile (fun c => !endsName c) ++ 0 :: rx.cells.toList.drop (command.length + 1)).tail

/-- The cells of the buffer after a command has been received. -/
theorem receive_toList (rx : FixedBuffer UInt8 deviceRxBufferSize) {command : List UInt8}
    (h : command.length < deviceRxBufferSize) :
    (receive rx command).cells.toList = command ++ 0 :: rx.cells.toList.drop (command.length + 1) := by
  have hlen : command.length < rx.cells.toList.length := by rwa [Vector.length_toList]
  rw [receive, FixedBuffer.write_toList _ _ h, FixedBuffer.writeAll_zero_toList _ _ h.le,
    List.set_append_right _ _ (le_refl _), Nat.sub_self, List.drop_eq_getElem_cons hlen]
  rfl

/-- After a command has been received its name is known, a zero stands behind it, and the memory that follows
is known as well. -/
theorem parseData_receive (rx : FixedBuffer UInt8 deviceRxBufferSize) {command : List UInt8}
    (h : command.length < deviceRxBufferSize) :
    (bufferAfter rx command).cells.toList =
        command.takeWhile (fun c => !endsName c) ++ 0 :: argumentMemory rx command ∧
      (parseData (receive rx command)).2 =
        (lookup cmdMap (commandName command)).map
          fun format => (format, (command.takeWhile fun c => !endsName c).length + 1) := by
  have hcells := receive_toList rx h
  have hname : (receive rx command).cells.toList.takeWhile (fun c => !endsName c) =
      command.takeWhile fun c => !endsName c := by
    rw [hcells, takeWhile_append_stop (by decide)]
  have hle : (command.takeWhile fun c => !endsName c).length ≤ command.length :=
    (List.takeWhile_prefix _).length_le
  have hsplit : (receive rx command).cells.toList = command.takeWhile (fun c => !endsName c) ++
      (command.dropWhile (fun c => !endsName c) ++ 0 :: rx.cells.toList.drop (command.length + 1)) := by
    rw [hcells, ← List.append_assoc, List.takeWhile_append_dropWhile]
  constructor
  · have hwrite : (bufferAfter rx command).cells.toList =
        (receive rx command).cells.toList.set (command.takeWhile fun c => !endsName c).length 0 := by
      rw [bufferAfter, parseData, hname, FixedBuffer.write_toList _ _ (hle.trans_lt h)]
    rw [hwrite, hsplit, List.set_append_right _ _ (le_refl _), Nat.sub_self, argumentMemory]
    cases command.dropWhile (fun c => !endsName c) <;> rfl
  · rw [parseData, hname, FixedBuffer.contents, hsplit, List.take_left]
    rfl

/-- What a command does is decided by its name and by the memory behind its name. -/
theorem runCommand_eq (int : IntStore) (ints : ConsoleInts) (privilege : LoggerPrivilege)
    (rx : FixedBuffer UInt8 deviceRxBufferSize) {command : List UInt8}
    (h : command.length < deviceRxBufferSize) :
    runCommand int ints privilege rx command =
      match lookup cmdMap (commandName command) with
      | none => some (.nothing privilege)
      | some format => processData int ints privilege (argumentMemory rx command) format := by
  obtain ⟨hcells, hparsed⟩ := parseData_receive rx h
  rw [bufferAfter] at hcells
  rw [runCommand, if_pos h]
  dsimp only
  rw [hparsed, hcells]
  cases lookup cmdMap (commandName command) with
  | none => rfl
  | some format =>
    dsimp only [Option.map_some]
    rw [← List.drop_drop, List.drop_left]
    rfl

/-- A command without an argument is a name and nothing else. -/
theorem argument_eq_none_iff (command : List UInt8) :
    argument command = none ↔ command.dropWhile (fun c => !endsName c) = [] := by
  unfold argument
  cases command.dropWhile (fun c => !endsName c) <;> simp

/-- An argument that is part of the command is found behind the name. -/
theorem textAt_argumentMemory {command text : List UInt8} (h : argument command = some text)
    (rx : FixedBuffer UInt8 deviceRxBufferSize) : textAt (argumentMemory rx command) = some text := by
  unfold argument at h
  unfold argumentMemory
  cases hrest : command.dropWhile (fun c => !endsName c) with
  | nil =>
    rw [hrest] at h
    contradiction
  | cons c rest =>
    rw [hrest] at h
    rw [List.cons_append, List.tail_cons, textAt_append_zero]
    exact h

/-- Behind a command that is a name and nothing else lies what the buffer has held before. -/
theorem argumentMemory_of_argument_eq_none {command : List UInt8} (h : argument command = none)
    (rx : FixedBuffer UInt8 deviceRxBufferSize) :
    argumentMemory rx command = rx.cells.toList.drop (command.length + 1) := by
  rw [argumentMemory, (argument_eq_none_iff command).mp h]
  rfl

/-- Setting a device, given the argument. -/
theorem processData_setDevice {int : IntStore} {memory text : List UInt8} (h : textAt memory = some text)
    (ints : ConsoleInts) (privilege : LoggerPrivilege) :
    processData int ints privilege memory .setDevice =
      (split semicolon text)[0]?.bind fun name =>
        match lookup devMap name with
        | none => some (.nothing privilege)
        | some dev => (split semicolon text)[1]?.bind fun data =>
          some { ConsoleEffect.nothing privilege with call := (processDevice int ints.pwm dev data).2 } := by
  rw [processData, h]
  rfl

/-- The devices of the console other than the PWM device are switches. -/
theorem switch_of_devMap {name : List UInt8} {dev : UInt8} (h : lookup devMap name = some dev)
    (hpwm : dev ≠ devicePwm) : dev = deviceLed ∨ dev = deviceBeep ∨ dev = deviceLoopLed := by
  obtain ⟨key, hkey, -⟩ := mem_of_lookup h
  have hall : ∀ entry ∈ devMap, entry.2 ≠ devicePwm →
      entry.2 = deviceLed ∨ entry.2 = deviceBeep ∨ entry.2 = deviceLoopLed := by decide
  exact hall (key, dev) hkey hpwm

end RemoteManage.MainProcess

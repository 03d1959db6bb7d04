import RemoteManage.MainProcess.Console

/-!
# What a command owes to the commands before it

A command is isolated when its effect is the same after all earlier commands and whatever
the stack holds. That is so exactly for the commands that contain all that is used of them
(`runCommand_isolated_iff`): a command whose argument is used has something behind its name,
and its argument leaves no variable without a value and lacks no token.

A command that is a name and nothing else takes the argument of an earlier one, for its own
characters followed by a blank put any text where its argument is looked for
(`textAt_history`).
-/

namespace RemoteManage.MainProcess

open RemoteManage.Foundation RemoteManage.Foundation.CString RemoteManage.LocalDevice
open RemoteManage.Common

/-- The buffer after commands have been received, from the zeros of the beginning on. -/
def history (commands : List (List UInt8)) : FixedBuffer UInt8 deviceRxBufferSize :=
  commands.foldl bufferAfter (FixedBuffer.filled deviceRxBufferSize 0)

/-- Commands that are received as they were sent. -/
def Received (commands : List (List UInt8)) : Prop :=
  ∀ command ∈ commands, 0 < command.length ∧ command.length < deviceRxBufferSize

/-- The effect of a command does not depend on the commands before it or on what the stack holds. -/
def Isolated (int : IntStore) (command : List UInt8) : Prop :=
  ∀ (privilege : LoggerPrivilege) (ints ints' : ConsoleInts) (before before' : List (List UInt8)),
    Received before → Received before' →
      ∃ effect, runCommand int ints privilege (history before) command = some effect ∧
        runCommand int ints' privilege (history before') command = some effect

/-- The argument of a command of this format determines the effect. -/
def Settled (int : IntStore) (text : List UInt8) : CmdFormat → Prop
  | .getOs => True
  | .getHelp => True
  | .publish => True
  | .setLevel => (scanInts comma 2 text).length = 2 ∨
      ∃ app ∈ (scanInts comma 2 text).head?, ¬ LoggerPrivilege.KnownDev (int.store app)
  | .setDevice => ∃ name ∈ (split semicolon text).head?, lookup devMap name = none ∨
      lookup devMap name ≠ some devicePwm ∧ 1 < (split semicolon text).length

/-- All that is used of a command is part of it. -/
def SelfContained (int : IntStore) (command : List UInt8) : Prop :=
  ∀ format, lookup cmdMap (commandName command) = some format →
    format = .getOs ∨ format = .getHelp ∨ ∃ text, argument command = some text ∧ Settled int text format

/-- The same effect on the same memory, whatever the stack holds. -/
def Constant (int : IntStore) (memory : List UInt8) (format : CmdFormat) : Prop :=
  ∀ (privilege : LoggerPrivilege) (ints ints' : ConsoleInts),
    ∃ effect, processData int ints privilege memory format = some effect ∧
      processData int ints' privilege memory format = some effect

/-- A level for an unknown application changes nothing. -/
theorem syncLevel_of_not_known (privilege : LoggerPrivilege) {dev : Int32} (level : Int32)
    (h : ¬ LoggerPrivilege.KnownDev dev) : syncLevel privilege dev level = .nothing privilege := by
  have hlocal : dev ≠ localLoggerDev := fun heq => h (heq ▸ by decide)
  have hmain : dev ≠ mainLoggerDev := fun heq => h (heq ▸ by decide)
  simp [syncLevel, LoggerPrivilege.setLoggerLevel_of_not_known privilege level h, hlocal, hmain,
    ConsoleEffect.nothing]

/-- Different levels for a known application are different effects. -/
theorem syncLevel_injective (privilege : LoggerPrivilege) {dev level level' : Int32}
    (hdev : LoggerPrivilege.KnownDev dev)
    (h : syncLevel privilege dev level = syncLevel privilege dev level') : level = level' := by
  have hlevel := congrArg (fun effect => effect.privilege.level dev) h
  change (privilege.setLoggerLevel dev level).1.level dev =
    (privilege.setLoggerLevel dev level').1.level dev at hlevel
  rw [LoggerPrivilege.level_setLoggerLevel privilege level hdev,
    LoggerPrivilege.level_setLoggerLevel privilege level' hdev] at hlevel
  exact Option.some.inj hlevel

/-- Only the text at the beginning of the memory is looked at. -/
theorem processData_congr {memory memory' : List UInt8} (h : textAt memory = textAt memory') (int : IntStore)
    (ints : ConsoleInts) (privilege : LoggerPrivilege) (format : CmdFormat) :
    processData int ints privilege memory format = processData int ints privilege memory' format := by
  cases format <;> simp only [processData, h]

section Text

variable {int : IntStore} {memory text : List UInt8}

/-- Setting a level, given the argument. -/
theorem processData_setLevel (h : textAt memory = some text) (ints : ConsoleInts)
    (privilege : LoggerPrivilege) :
    processData int ints privilege memory .setLevel =
      some (syncLevel privilege (((scanInts comma 2 text)[0]?.map int.store).getD ints.dev)
        (((scanInts comma 2 text)[1]?.map int.store).getD ints.level)) := by
  rw [processData, h]
  rfl

/-- A level is set to the same value at all times exactly if both numbers are given, or the application is
given and unknown. -/
theorem constant_setLevel_iff (h : textAt memory = some text) :
    Constant int memory .setLevel ↔ Settled int text .setLevel := by
  constructor
  · intro hconst
    by_contra hnot
    obtain ⟨hlen, hhead⟩ := not_or.mp hnot
    have hsecond : (scanInts comma 2 text)[1]? = none := by
      have hle := scanInts_length_le comma 2 text
      exact List.getElem?_eq_none (by omega)
    have hknown : LoggerPrivilege.KnownDev
        (((scanInts comma 2 text)[0]?.map int.store).getD guiLoggerDev) := by
      rw [← List.head?_eq_getElem?]
      cases happ : (scanInts comma 2 text).head? with
      | none => exact show LoggerPrivilege.KnownDev guiLoggerDev by decide
      | some app => exact not_not.mp fun hunknown => hhead ⟨app, happ, hunknown⟩
    obtain ⟨effect, hfirst, hother⟩ := hconst default { dev := guiLoggerDev, level := 1, pwm := default }
      { dev := guiLoggerDev, level := 2, pwm := default }
    rw [processData_setLevel h, hsecond] at hfirst hother
    have hsame : (1 : Int32) = 2 :=
      syncLevel_injective _ hknown (Option.some.inj (hfirst.trans hother.symm))
    exact absurd hsame (by decide)
  · intro hsettled privilege ints ints'
    rw [processData_setLevel h, processData_setLevel h]
    obtain htwo | ⟨app, happ, hunknown⟩ := hsettled
    · obtain ⟨app, level, hvalues⟩ := List.length_eq_two.mp htwo
      rw [hvalues]
      exact ⟨_, rfl, rfl⟩
    · rw [← List.head?_eq_getElem?, happ]
      exact ⟨_, congrArg some (syncLevel_of_not_known privilege _ hunknown),
        congrArg some (syncLevel_of_not_known privilege _ hunknown)⟩

/-- A device is set to the same value at all times exactly if it is a switch and a value is given, or the
device is unknown. -/
theorem constant_setDevice_iff (h : textAt memory = some text) :
    Constant int memory .setDevice ↔ Settled int text .setDevice := by
  have hhead : (split semicolon text)[0]? = (split semicolon text).head? := List.head?_eq_getElem?.symm
  constructor
  · intro hconst
    obtain ⟨effect, heffect, -⟩ := hconst default default default
    rw [processData_setDevice h] at heffect
    obtain ⟨name, hname, heffect⟩ := Option.bind_eq_some_iff.mp heffect
    refine ⟨name, hhead ▸ hname, ?_⟩
    cases hdev : lookup devMap name with
    | none => exact .inl rfl
    | some dev =>
      rw [hdev] at heffect
      obtain ⟨data, hdata, -⟩ := Option.bind_eq_some_iff.mp heffect
      refine .inr ⟨fun hpwm => ?_, (List.getElem?_eq_some_iff.mp hdata).1⟩
      obtain rfl := Option.some.inj hpwm
      have hnot : semicolon ∉ data := not_mem_of_mem_split (List.mem_of_getElem? hdata)
      apply processDevice_pwm_not_const int hnot
      intro junk junk'
      obtain ⟨effect, hfirst, hother⟩ := hconst default { dev := 0, level := 0, pwm := junk }
        { dev := 0, level := 0, pwm := junk' }
      rw [processData_setDevice h, hname, Option.bind_some, hdev, hdata] at hfirst hother
      exact congrArg ConsoleEffect.call (Option.some.inj (hfirst.trans hother.symm))
  · rintro ⟨name, hname, hsettled⟩ privilege ints ints'
    rw [processData_setDevice h, processData_setDevice h, hhead, hname, Option.bind_some, Option.bind_some]
    cases hdev : lookup devMap name with
    | none => exact ⟨_, rfl, rfl⟩
    | some dev =>
      rw [hdev] at hsettled
      obtain hnone | ⟨hpwm, hlen⟩ := hsettled
      · contradiction
      · have hswitch := switch_of_devMap hdev fun heq => hpwm (congrArg some heq)
        obtain ⟨call, hcall⟩ := (carried_iff int dev _).mp (.inl hswitch)
        rw [List.getElem?_eq_getElem hlen]
        dsimp only [Option.bind_some]
        rw [hcall, hcall]
        exact ⟨_, rfl, rfl⟩

/-- An argument has the same effect at all times exactly if it determines the effect. -/
theorem constant_iff (h : textAt memory = some text) (format : CmdFormat) :
    Constant int memory format ↔ Settled int text format := by
  cases format with
  | getOs => exact iff_of_true (fun _ _ _ => ⟨_, rfl, rfl⟩) trivial
  | getHelp => exact iff_of_true (fun _ _ _ => ⟨_, rfl, rfl⟩) trivial
  | publish =>
    refine iff_of_true (fun privilege ints ints' => ?_) trivial
    rw [processData, processData, h]
    exact ⟨_, rfl, rfl⟩
  | setLevel => exact constant_setLevel_iff h
  | setDevice => exact constant_setDevice_iff h

end Text

/-- Nothing ends the name of a command without an argument. -/
theorem endsName_of_argument_eq_none {command : List UInt8} (h : argument command = none) :
    ∀ c ∈ command, (!endsName c) = true :=
  List.dropWhile_eq_nil_iff.mp ((argument_eq_none_iff command).mp h)

/-- A command followed by a blank and a text leaves the text where the command alone has its argument. -/
theorem textAt_history {command text : List UInt8} (h : argument command = none)
    (hlen : command.length + 1 + text.length < deviceRxBufferSize) (hzero : 0 ∉ text) :
    textAt (argumentMemory (history [command ++ 32 :: text]) command) = some text := by
  have hname := endsName_of_argument_eq_none h
  have hlength : (command ++ 32 :: text).length < deviceRxBufferSize := by
    rw [List.length_append, List.length_cons]
    omega
  have hargument : argument (command ++ 32 :: text) = some text := by
    rw [argument, List.dropWhile_append_of_pos hname, List.dropWhile_cons_of_neg (by decide)]
    exact congrArg some (List.takeWhile_eq_self_iff.mpr fun c hc =>
      decide_eq_true fun hnull => hzero (hnull ▸ hc))
  have hcells := (parseData_receive (FixedBuffer.filled deviceRxBufferSize 0) hlength).1
  rw [takeWhile_append_stop (by decide), List.takeWhile_eq_self_iff.mpr hname] at hcells
  have hmemory : argumentMemory (history [command ++ 32 :: text]) command =
      argumentMemory (FixedBuffer.filled deviceRxBufferSize 0) (command ++ 32 :: text) := by
    rw [argumentMemory_of_argument_eq_none h, history, List.foldl_cons, List.foldl_nil, hcells,
      ← List.drop_drop, List.drop_left]
    rfl
  rw [hmemory]
  exact textAt_argumentMemory hargument _

/-- The names of commands are short. -/
theorem length_le_of_lookup {command : List UInt8} {format : CmdFormat} (h : argument command = none)
    (hformat : lookup cmdMap (commandName command) = some format) : command.length ≤ 8 := by
  obtain ⟨key, hkey, hname⟩ := mem_of_lookup hformat
  have hlength : (bytes key).length = command.length := by
    rw [hname, commandName, List.length_map,
      List.takeWhile_eq_self_iff.mpr (endsName_of_argument_eq_none h)]
  have hshort : ∀ entry ∈ cmdMap, (bytes entry.1).length ≤ 8 := by decide
  exact hlength ▸ hshort _ hkey

/-- Two arguments that an earlier command may have left, with different effects. -/
def staleTexts : CmdFormat → List UInt8 × List UInt8
  | .publish => (bytes "a", bytes "b")
  | .setLevel => (bytes "0,1", bytes "0,2")
  | _ => (bytes "led;on", bytes "led;off")

/-- The effects of these arguments differ. -/
theorem processData_staleTexts {int : IntStore} {memory memory' : List UInt8} {format : CmdFormat}
    (hos : format ≠ .getOs) (hhelp : format ≠ .getHelp) (h : textAt memory = some (staleTexts format).1)
    (h' : textAt memory' = some (staleTexts format).2) (ints : ConsoleInts) (privilege : LoggerPrivilege) :
    processData int ints privilege memory format ≠ processData int ints privilege memory' format := by
  intro hsame
  cases format with
  | getOs => contradiction
  | getHelp => contradiction
  | publish =>
    rw [processData, processData, h, h'] at hsame
    have hpublished : some (bytes "a") = some (bytes "b") :=
      congrArg ConsoleEffect.published (Option.some.inj hsame)
    exact absurd hpublished (by decide)
  | setLevel =>
    have hscan : scanInts comma 2 (staleTexts .setLevel).1 = [0, 1] := by decide +kernel
    have hscan' : scanInts comma 2 (staleTexts .setLevel).2 = [0, 2] := by decide +kernel
    rw [processData_setLevel h, processData_setLevel h', hscan, hscan'] at hsame
    have hlevel : int.store 1 = int.store 2 := syncLevel_injective privilege
      (show LoggerPrivilege.KnownDev (int.store 0) from int.store_toInt 0 ▸ by decide)
      (Option.some.inj hsame)
    have hone := int.store_toInt 1
    have htwo := int.store_toInt 2
    exact absurd (hone.symm.trans (hlevel.trans htwo)) (by decide)
  | setDevice =>
    have hsplit : split semicolon (staleTexts .setDevice).1 = [bytes "led", bytes "on"] := by decide +kernel
    have hsplit' : split semicolon (staleTexts .setDevice).2 = [bytes "led", bytes "off"] := by decide +kernel
    have hled : lookup devMap (bytes "led") = some deviceLed := by decide
    rw [processData_setDevice h, processData_setDevice h', hsplit, hsplit', List.getElem?_cons_zero,
      List.getElem?_cons_zero, Option.bind_some, Option.bind_some, hled] at hsame
    have hcall : some (SetDevice.mk deviceLed [1]) = some ⟨deviceLed, [0]⟩ :=
      congrArg ConsoleEffect.call (Option.some.inj hsame)
    exact absurd hcall (by decide)

/-- These arguments fit behind every name. -/
theorem staleTexts_fits (format : CmdFormat) :
    ((staleTexts format).1.length ≤ 7 ∧ 0 ∉ (staleTexts format).1) ∧
      (staleTexts format).2.length ≤ 7 ∧ 0 ∉ (staleTexts format).2 := by
  cases format <;> decide

/-- A single earlier command of this length is received as it was sent. -/
theorem received_singleton {command text : List UInt8}
    (h : command.length + 1 + text.length < deviceRxBufferSize) : Received [command ++ 32 :: text] := by
  intro received hmem
  obtain rfl := List.mem_singleton.mp hmem
  rw [List.length_append, List.length_cons]
  omega

/-- A command that is isolated has all that is used of it. -/
theorem Isolated.selfContained {int : IntStore} {command : List UInt8} (hisolated : Isolated int command)
    (h : command.length < deviceRxBufferSize) : SelfContained int command := by
  intro format hformat
  by_cases hos : format = .getOs
  · exact .inl hos
  by_cases hhelp : format = .getHelp
  · exact .inr (.inl hhelp)
  refine .inr (.inr ?_)
  cases hargument : argument command with
  | some text =>
    refine ⟨text, rfl, (constant_iff (textAt_argumentMemory hargument (history [])) format).mp ?_⟩
    intro privilege ints ints'
    obtain ⟨effect, hfirst, hother⟩ := hisolated privilege ints ints' [] []
      (fun _ hmem => absurd hmem List.not_mem_nil) (fun _ hmem => absurd hmem List.not_mem_nil)
    rw [runCommand_eq _ _ _ _ h, hformat] at hfirst hother
    exact ⟨effect, hfirst, hother⟩
  | none =>
    -- Two earlier commands that begin with the name and a blank leave different arguments.
    exfalso
    have hname := length_le_of_lookup hargument hformat
    obtain ⟨⟨hlen, hzero⟩, hlen', hzero'⟩ := staleTexts_fits format
    have hroom : command.length + 1 + (staleTexts format).1.length < deviceRxBufferSize :=
      show _ < 512 by omega
    have hroom' : command.length + 1 + (staleTexts format).2.length < deviceRxBufferSize :=
      show _ < 512 by omega
    obtain ⟨effect, hfirst, hother⟩ := hisolated default default default _ _
      (received_singleton hroom) (received_singleton hroom')
    rw [runCommand_eq _ _ _ _ h, hformat] at hfirst hother
    exact processData_staleTexts hos hhelp (textAt_history hargument hroom hzero)
      (textAt_history hargument hroom' hzero') _ _ (hfirst.trans hother.symm)

/-- A command that has all that is used of it is isolated. -/
theorem SelfContained.isolated {int : IntStore} {command : List UInt8} (hself : SelfContained int command)
    (h : command.length < deviceRxBufferSize) : Isolated int command := by
  intro privilege ints ints' before before' _ _
  rw [runCommand_eq _ _ _ _ h, runCommand_eq _ _ _ _ h]
  cases hformat : lookup cmdMap (commandName command) with
  | none => exact ⟨_, rfl, rfl⟩
  | some format =>
    obtain rfl | rfl | ⟨text, hargument, hsettled⟩ := hself format hformat
    · exact ⟨_, rfl, rfl⟩
    · exact ⟨_, rfl, rfl⟩
    · have htext := textAt_argumentMemory hargument (history before)
      have htext' := textAt_argumentMemory hargument (history before')
      dsimp only
      rw [processData_congr (htext'.trans htext.symm)]
      exact (constant_iff htext format).mpr hsettled privilege ints ints'

/-- A command is isolated exactly if all that is used of it is part of it. -/
theorem runCommand_isolated_iff (int : IntStore) (command : List UInt8)
    (h : command.length < deviceRxBufferSize) : Isolated int command ↔ SelfContained int command :=
  ⟨fun hisolated => hisolated.selfContained h, fun hself => hself.isolated h⟩

/-- A text that is given is what is published. -/
theorem runCommand_isolated_iff_publish : Isolated .truncate (bytes "publish a") := by
  apply (runCommand_isolated_iff .truncate (bytes "publish a") (by decide)).mpr
  intro format hformat
  have hpublish : lookup cmdMap (commandName (bytes "publish a")) = some .publish := by decide +kernel
  obtain rfl := Option.some.inj (hpublish.symm.trans hformat)
  exact .inr (.inr ⟨bytes "a", by decide +kernel, trivial⟩)

/-- Without a text `publish` publishes what an earlier command has left. -/
theorem runCommand_isolated_fails :
    ¬ ∀ (int : IntStore) (command : List UInt8), 0 < command.length → command.length < deviceRxBufferSize →
      Isolated int command := by
  intro h
  have hself := (h .truncate (bytes "publish") (by decide) (by decide)).selfContained (by decide)
  obtain hos | hhelp | ⟨text, hargument, -⟩ := hself .publish (by decide +kernel)
  · contradiction
  · contradiction
  · have hnone : argument (bytes "publish") = none := by decide +kernel
    rw [hnone] at hargument
    contradiction

end RemoteManage.MainProcess

import RemoteManage.MainProcess.ConsoleIsolation

/-!
# The arguments of a command

What `setlevel` and `setdev` owe to the text behind their name. A level is to be set only for two decimal
integers that name an application and a level from 0 to 5, a device only for its name and a value. The
code checks neither how many numbers `sscanf` has found nor how many tokens there are, it does
not compare the level, and for a command without an argument it looks at what the buffer
has held before. `validated_iff` says for which commands none of this matters.
-/

namespace RemoteManage.MainProcess

open RemoteManage.Foundation RemoteManage.Foundation.CString RemoteManage.LocalDevice
open RemoteManage.Common

/-- The text behind the name of a command. -/
def givenText (command : List UInt8) : List UInt8 := (argument command).getD []

/-- The documented argument of `setlevel`: an application and a level, and nothing else. -/
def RequestsLevel (text : List UInt8) (dev level : Int32) : Prop :=
  ∃ left right, text = left ++ comma :: right ∧ IsDecimal left dev.toInt ∧ IsDecimal right level.toInt ∧
    LoggerPrivilege.KnownDev dev ∧ 0 ≤ level ∧ level ≤ 5

/-- `setlevel` uses two numbers that are there, sets just the level that is asked for, and changes nothing
when none is. -/
structure LevelValidated (int : IntStore) (privilege : LoggerPrivilege)
    (rx : FixedBuffer UInt8 deviceRxBufferSize) (command : List UInt8) : Prop where
  initialised : ∃ text, textAt (argumentMemory rx command) = some text ∧ (scanInts comma 2 text).length = 2
  sets : ∀ dev level, RequestsLevel (givenText command) dev level → ∀ ints,
    ∃ effect, runCommand int ints privilege rx command = some effect ∧
      effect.privilege = privilege.withLevel dev level
  keeps : (¬ ∃ dev level, RequestsLevel (givenText command) dev level) → ∀ ints,
    runCommand int ints privilege rx command = some (.nothing privilege)

/-- The bytes that are to be passed on for the value given for a device. -/
def GivenValue (int : IntStore) (dev : UInt8) (data buf : List UInt8) : Prop :=
  (dev = deviceLed ∨ dev = deviceBeep ∨ dev = deviceLoopLed) ∧ buf = [if data = bytes "on" then 1 else 0] ∨
    dev = devicePwm ∧ ∃ state peroid dutyCycle, scanInts semicolon 3 data = [state, peroid, dutyCycle] ∧
      buf = pwmBuffer ⟨int.store state, int.store peroid, int.store dutyCycle⟩

/-- A text asks for this call of `set_device`. -/
def RequestsDevice (int : IntStore) (text : List UInt8) (call : SetDevice) : Prop :=
  ∃ name data, (split semicolon text)[0]? = some name ∧ (split semicolon text)[1]? = some data ∧
    lookup devMap name = some call.dev ∧ GivenValue int call.dev data call.buf

/-- `setdev` makes the call that is asked for or none, whatever the stack holds. It makes none only where
it reports an invalid device, as `invalid_of_nothing` says. -/
def DeviceValidated (int : IntStore) (privilege : LoggerPrivilege)
    (rx : FixedBuffer UInt8 deviceRxBufferSize) (command : List UInt8) : Prop :=
  (∀ ints, runCommand int ints privilege rx command = some (.nothing privilege)) ∨
    ∃ call, RequestsDevice int (givenText command) call ∧ ∀ ints,
      runCommand int ints privilege rx command =
        some { ConsoleEffect.nothing privilege with call := some call }

/-- The arguments of a command are validated. -/
def Validated (int : IntStore) (privilege : LoggerPrivilege) (rx : FixedBuffer UInt8 deviceRxBufferSize)
    (command : List UInt8) : Prop :=
  (lookup cmdMap (commandName command) = some .setLevel → LevelValidated int privilege rx command) ∧
    (lookup cmdMap (commandName command) = some .setDevice → DeviceValidated int privilege rx command)

/-- A level is asked for, or two numbers are found that name no application or the level it has. -/
def LevelHarmless (int : IntStore) (privilege : LoggerPrivilege) (rx : FixedBuffer UInt8 deviceRxBufferSize)
    (command : List UInt8) : Prop :=
  (∃ dev level, RequestsLevel (givenText command) dev level) ∨
    ∃ text app level, textAt (argumentMemory rx command) = some text ∧ scanInts comma 2 text = [app, level] ∧
      (¬ LoggerPrivilege.KnownDev (int.store app) ∨
        privilege.level (int.store app) = some (int.store level))

/-- What is found names no device, or a switch has been given with a value. -/
def DeviceHarmless (rx : FixedBuffer UInt8 deviceRxBufferSize) (command : List UInt8) : Prop :=
  (∃ text name, textAt (argumentMemory rx command) = some text ∧ (split semicolon text)[0]? = some name ∧
      lookup devMap name = none) ∨
    ∃ name data dev, (split semicolon (givenText command))[0]? = some name ∧
      (split semicolon (givenText command))[1]? = some data ∧ lookup devMap name = some dev ∧ dev ≠ devicePwm

/-- The command fits into the buffer with a zero behind it, and its argument is harmless. -/
def ArgumentsHarmless (int : IntStore) (privilege : LoggerPrivilege)
    (rx : FixedBuffer UInt8 deviceRxBufferSize) (command : List UInt8) : Prop :=
  (lookup cmdMap (commandName command) = some .setLevel →
      command.length < deviceRxBufferSize ∧ LevelHarmless int privilege rx command) ∧
    (lookup cmdMap (commandName command) = some .setDevice →
      command.length < deviceRxBufferSize ∧ DeviceHarmless rx command)

section Level

variable {int : IntStore} {privilege : LoggerPrivilege} {rx : FixedBuffer UInt8 deviceRxBufferSize}
  {command : List UInt8}

/-- A text behind the name that is not empty is what is found there. -/
theorem textAt_of_givenText (h : givenText command ≠ []) :
    textAt (argumentMemory rx command) = some (givenText command) := by
  unfold givenText at h ⊢
  cases hargument : argument command with
  | none =>
    rw [hargument] at h
    contradiction
  | some text => exact textAt_argumentMemory hargument rx

/-- What is asked for is what `sscanf` finds. -/
theorem scanInts_of_requestsLevel {text : List UInt8} {dev level : Int32} (h : RequestsLevel text dev level) :
    text ≠ [] ∧ scanInts comma 2 text = [dev.toInt, level.toInt] := by
  obtain ⟨left, right, rfl, hleft, hright, -⟩ := h
  exact ⟨by simp, scanInts_of_isDecimal (by decide) hleft hright⟩

/-- A level is asked for in one way only. -/
theorem requestsLevel_unique {text : List UInt8} {dev dev' level level' : Int32}
    (h : RequestsLevel text dev level) (h' : RequestsLevel text dev' level') :
    dev = dev' ∧ level = level' := by
  have hsame := (scanInts_of_requestsLevel h).2.symm.trans (scanInts_of_requestsLevel h').2
  obtain ⟨hdev, hrest⟩ := List.cons.inj hsame
  exact ⟨Int32.toInt_inj.mp hdev, Int32.toInt_inj.mp (List.cons.inj hrest).1⟩

/-- Only a command that fits into the buffer has an effect. -/
theorem length_lt_of_runCommand {ints : ConsoleInts} {effect : ConsoleEffect}
    (h : runCommand int ints privilege rx command = some effect) : command.length < deviceRxBufferSize := by
  by_contra hlong
  rw [runCommand, if_neg hlong] at h
  contradiction

/-- The effect of `setlevel` when two numbers are found. -/
theorem runCommand_setLevel (h : command.length < deviceRxBufferSize)
    (hname : lookup cmdMap (commandName command) = some .setLevel) {text : List UInt8} {app level : ℤ}
    (htext : textAt (argumentMemory rx command) = some text) (hscan : scanInts comma 2 text = [app, level])
    (ints : ConsoleInts) :
    runCommand int ints privilege rx command =
      some (syncLevel privilege (int.store app) (int.store level)) := by
  rw [runCommand_eq _ _ _ _ h, hname]
  dsimp only
  rw [processData_setLevel htext, hscan]
  rfl

/-- A level changes nothing exactly if it is for no application or the one that the application has. -/
theorem syncLevel_eq_nothing_iff (privilege : LoggerPrivilege) (dev level : Int32) :
    syncLevel privilege dev level = .nothing privilege ↔
      ¬ LoggerPrivilege.KnownDev dev ∨ privilege.level dev = some level := by
  constructor
  · intro hnothing
    by_cases hknown : LoggerPrivilege.KnownDev dev
    · have hlevel := LoggerPrivilege.level_setLoggerLevel privilege level hknown
      have hprivilege : (privilege.setLoggerLevel dev level).1 = privilege :=
        congrArg ConsoleEffect.privilege hnothing
      exact .inr (hprivilege ▸ hlevel)
    · exact .inl hknown
  · rintro (hunknown | hsame)
    · exact syncLevel_of_not_known privilege level hunknown
    · have hprivilege : (privilege.setLoggerLevel dev level).1 = privilege := by
        rw [LoggerPrivilege.setLoggerLevel_fst, LoggerPrivilege.withLevel_level privilege hsame]
      have hlocal : ¬ (dev = localLoggerDev ∧ privilege.localDeviceLevel ≠ level) := by
        rintro ⟨rfl, hne⟩
        exact hne (Option.some.inj hsame)
      have hmain : ¬ (dev = mainLoggerDev ∧ privilege.mainProcessLevel ≠ level) := by
        rintro ⟨rfl, hne⟩
        exact hne (Option.some.inj hsame)
      rw [syncLevel, hprivilege, if_neg hlocal, if_neg hmain]
      rfl

/-- The argument of `setlevel` is validated exactly if the command fits into the buffer and a level is
asked for or nothing is changed by what is found. -/
theorem levelValidated_iff (hname : lookup cmdMap (commandName command) = some .setLevel) :
    LevelValidated int privilege rx command ↔
      command.length < deviceRxBufferSize ∧ LevelHarmless int privilege rx command := by
  constructor
  · intro h
    obtain ⟨text, htext, htwo⟩ := h.initialised
    obtain ⟨app, level, hscan⟩ := List.length_eq_two.mp htwo
    by_cases hrequest : ∃ dev level, RequestsLevel (givenText command) dev level
    · obtain ⟨dev, wanted, hwanted⟩ := hrequest
      obtain ⟨effect, heffect, -⟩ := h.sets dev wanted hwanted default
      exact ⟨length_lt_of_runCommand heffect, .inl ⟨dev, wanted, hwanted⟩⟩
    · have hkeeps := h.keeps hrequest default
      have hlength := length_lt_of_runCommand hkeeps
      rw [runCommand_setLevel hlength hname htext hscan] at hkeeps
      exact ⟨hlength, .inr ⟨text, app, level, htext, hscan,
        (syncLevel_eq_nothing_iff _ _ _).mp (Option.some.inj hkeeps)⟩⟩
  · rintro ⟨hlength, hharmless⟩
    by_cases hrequest : ∃ dev level, RequestsLevel (givenText command) dev level
    · obtain ⟨dev, level, hwanted⟩ := id hrequest
      obtain ⟨hne, hscan⟩ := scanInts_of_requestsLevel hwanted
      have htext : textAt (argumentMemory rx command) = some (givenText command) := textAt_of_givenText hne
      refine ⟨⟨_, htext, by rw [hscan]; rfl⟩, fun dev' level' hwanted' ints => ?_, absurd hrequest⟩
      obtain ⟨rfl, rfl⟩ := requestsLevel_unique hwanted hwanted'
      refine ⟨_, runCommand_setLevel hlength hname htext hscan ints, ?_⟩
      rw [int.store_toInt, int.store_toInt]
      exact LoggerPrivilege.setLoggerLevel_fst privilege dev level
    · obtain ⟨text, app, level, htext, hscan, hsame⟩ := hharmless.resolve_left hrequest
      refine ⟨⟨text, htext, by rw [hscan]; rfl⟩, fun dev level hwanted => ?_, fun _ ints => ?_⟩
      · exact absurd ⟨dev, level, hwanted⟩ hrequest
      · rw [runCommand_setLevel hlength hname htext hscan, (syncLevel_eq_nothing_iff _ _ _).mpr hsame]

end Level

section Device

variable {int : IntStore} {privilege : LoggerPrivilege} {rx : FixedBuffer UInt8 deviceRxBufferSize}
  {command : List UInt8}

/-- The effect of `setdev` on the text that is found. -/
theorem runCommand_setDevice (h : command.length < deviceRxBufferSize)
    (hname : lookup cmdMap (commandName command) = some .setDevice) {text : List UInt8}
    (htext : textAt (argumentMemory rx command) = some text) (ints : ConsoleInts) :
    runCommand int ints privilege rx command = (split semicolon text)[0]?.bind fun name =>
      match lookup devMap name with
      | none => some (.nothing privilege)
      | some dev => (split semicolon text)[1]?.bind fun data =>
        some { ConsoleEffect.nothing privilege with call := (processDevice int ints.pwm dev data).2 } := by
  rw [runCommand_eq _ _ _ _ h, hname]
  exact processData_setDevice htext ints privilege

/-- A text that has tokens is found behind the name. -/
theorem textAt_of_token {name : List UInt8} {k : ℕ}
    (h : (split semicolon (givenText command))[k]? = some name) :
    textAt (argumentMemory rx command) = some (givenText command) := by
  apply textAt_of_givenText
  intro hnil
  rw [hnil] at h
  contradiction

/-- A device of the console is set. -/
theorem exists_call_of_devMap (int : IntStore) {name : List UInt8} {dev : UInt8}
    (h : lookup devMap name = some dev) (junk : PwmInts) (data : List UInt8) :
    ∃ call, (processDevice int junk dev data).2 = some call := by
  by_cases hpwm : dev = devicePwm
  · subst hpwm
    exact ⟨_, rfl⟩
  · exact ⟨_, congrArg Prod.snd (processDevice_switch int junk data (switch_of_devMap h hpwm))⟩

/-- Nothing is done only where an invalid device is reported. -/
theorem invalid_of_nothing (hname : lookup cmdMap (commandName command) = some .setDevice)
    {ints : ConsoleInts} (h : runCommand int ints privilege rx command = some (.nothing privilege)) :
    ∃ text name, textAt (argumentMemory rx command) = some text ∧ (split semicolon text)[0]? = some name ∧
      lookup devMap name = none := by
  have hlength := length_lt_of_runCommand h
  cases htext : textAt (argumentMemory rx command) with
  | none =>
    rw [runCommand_eq _ _ _ _ hlength, hname] at h
    simp [processData, htext] at h
  | some text =>
    rw [runCommand_setDevice hlength hname htext] at h
    obtain ⟨name, htoken, h⟩ := Option.bind_eq_some_iff.mp h
    refine ⟨text, name, rfl, htoken, ?_⟩
    cases hdev : lookup devMap name with
    | none => rfl
    | some dev =>
      rw [hdev] at h
      obtain ⟨data, -, h⟩ := Option.bind_eq_some_iff.mp h
      obtain ⟨call, hcall⟩ := exists_call_of_devMap int hdev ints.pwm data
      have hnone : some call = none := hcall ▸ congrArg ConsoleEffect.call (Option.some.inj h)
      contradiction

/-- The argument of `setdev` is validated exactly if the command fits into the buffer and what is found
names no device or a switch has been given with a value. -/
theorem deviceValidated_iff (hname : lookup cmdMap (commandName command) = some .setDevice) :
    DeviceValidated int privilege rx command ↔
      command.length < deviceRxBufferSize ∧ DeviceHarmless rx command := by
  constructor
  · rintro (hnothing | ⟨call, ⟨name, data, hfirst, hsecond, hdev, -⟩, hrun⟩)
    · exact ⟨length_lt_of_runCommand (hnothing default), .inl (invalid_of_nothing hname (hnothing default))⟩
    · have hlength := length_lt_of_runCommand (hrun default)
      have htext : textAt (argumentMemory rx command) = some (givenText command) := textAt_of_token hfirst
      refine ⟨hlength, .inr ⟨name, data, call.dev, hfirst, hsecond, hdev, fun hpwm => ?_⟩⟩
      -- the three numbers for the PWM device would all have to stand in the second token
      have hnot : semicolon ∉ data := not_mem_of_mem_split (List.mem_of_getElem? hsecond)
      apply processDevice_pwm_not_const int hnot
      have hcall (junk : PwmInts) : (processDevice int junk devicePwm data).2 = some call := by
        have heffect := hrun ⟨0, 0, junk⟩
        rw [runCommand_setDevice hlength hname htext, hfirst, Option.bind_some, hdev, hsecond,
          hpwm] at heffect
        exact congrArg ConsoleEffect.call (Option.some.inj heffect)
      exact fun junk junk' => (hcall junk).trans (hcall junk').symm
  · rintro ⟨hlength, ⟨text, name, htext, hfirst, hdev⟩ | ⟨name, data, dev, hfirst, hsecond, hdev, hpwm⟩⟩
    · left
      intro ints
      rw [runCommand_setDevice hlength hname htext, hfirst, Option.bind_some, hdev]
    · have hswitch := switch_of_devMap hdev hpwm
      refine .inr ⟨⟨dev, [if data = bytes "on" then 1 else 0]⟩,
        ⟨name, data, hfirst, hsecond, hdev, .inl ⟨hswitch, rfl⟩⟩, fun ints => ?_⟩
      rw [runCommand_setDevice hlength hname (textAt_of_token hfirst), hfirst, Option.bind_some, hdev,
        hsecond]
      dsimp only [Option.bind_some]
      rw [processDevice_switch int ints.pwm data hswitch]

end Device

/-- Arguments are validated exactly where they are harmless. -/
theorem validated_iff (int : IntStore) (privilege : LoggerPrivilege)
    (rx : FixedBuffer UInt8 deviceRxBufferSize) (command : List UInt8) :
    Validated int privilege rx command ↔ ArgumentsHarmless int privilege rx command :=
  and_congr (forall_congr' levelValidated_iff) (forall_congr' deviceValidated_iff)

/-- A level that is not among the six is recorded. -/
theorem validated_fails :
    ¬ ∀ (int : IntStore) (privilege : LoggerPrivilege) (before : List (List UInt8)) (command : List UInt8),
      Received before → 0 < command.length → command.length < deviceRxBufferSize →
      Validated int privilege (history before) command := by
  intro hall
  have hvalidated := hall .truncate default [] (bytes "setlevel 1,9")
    (fun _ hmem => absurd hmem List.not_mem_nil) (by decide) (by decide)
  have hname : lookup cmdMap (commandName (bytes "setlevel 1,9")) = some .setLevel := by decide +kernel
  have hargument : argument (bytes "setlevel 1,9") = some (bytes "1,9") := by decide +kernel
  have hscan : scanInts comma 2 (bytes "1,9") = [1, 9] := by decide +kernel
  obtain ⟨-, ⟨dev, level, hrequest⟩ | ⟨text, app, level, htext, hfound, hharmless⟩⟩ :=
    (levelValidated_iff hname).mp (hvalidated.1 hname)
  · rw [givenText, hargument, Option.getD_some] at hrequest
    have hfound := (scanInts_of_requestsLevel hrequest).2.symm.trans hscan
    obtain ⟨left, right, -, -, -, -, -, hle⟩ := hrequest
    obtain ⟨-, hrest⟩ := List.cons.inj hfound
    have hnine : level.toInt = 9 := (List.cons.inj hrest).1
    have hfive := Int32.le_iff_toInt_le.mp hle
    rw [hnine] at hfive
    exact absurd hfive (by decide)
  · obtain rfl := Option.some.inj (htext.symm.trans (textAt_argumentMemory hargument _))
    rw [hscan] at hfound
    obtain ⟨rfl, hrest⟩ := List.cons.inj hfound
    obtain ⟨rfl, -⟩ := List.cons.inj hrest
    revert hharmless
    decide

end RemoteManage.MainProcess

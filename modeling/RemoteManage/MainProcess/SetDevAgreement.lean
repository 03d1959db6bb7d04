import RemoteManage.MainProcess.Console
import RemoteManage.MainProcess.MqttProtocol

/-!
# Setting a device from the console and over MQTT

The console takes the value of `setdev <device>;<value>` up to the next semicolon, MQTT takes
the whole of it. So the two agree for the switches, except on an empty value, which the
console has no token for, on a value that goes on after `on;`, and on a command that does
not fit into the buffer of the console. For the PWM device they never agree: the console
passes one number on and leaves the period and the duty to the stack
(`setdev_agree_iff`).
-/

namespace RemoteManage.MainProcess

open RemoteManage.Foundation RemoteManage.Foundation.CString RemoteManage.LocalDevice
open RemoteManage.Common

/-- The console command `setdev <device>;<value>`. -/
def consoleSetDev (name value : List UInt8) : List UInt8 := bytes "setdev " ++ (name ++ semicolon :: value)

/-- The console command and the MQTT request make the same call of `set_device`, or both none, whatever the
stack holds and whatever was in the buffer of the console before. -/
def Agree (int : IntStore) (name value : List UInt8) : Prop :=
  ∀ (ints : ConsoleInts) (junk : PwmInts) (privilege : LoggerPrivilege)
    (rx : FixedBuffer UInt8 deviceRxBufferSize), ∀ source ∈ jsonSourceMap,
    ∃ console mqtt, runCommand int ints privilege rx (consoleSetDev name value) = some console ∧
      decodeJsonCommand int junk (setDevRequest (bytes source.1) name value) = some mqtt ∧
      console.call = mqtt.call

/-- Every device of the console is a device of MQTT, and its name is a token. -/
theorem lookup_jsonDevMap {name : List UInt8} {dev : UInt8} (h : lookup devMap name = some dev) :
    lookup jsonDevMap name = some dev ∧ 0 ∉ name ∧ semicolon ∉ name ∧ name ≠ [] := by
  obtain ⟨key, hkey, rfl⟩ := mem_of_lookup h
  have hall : ∀ entry ∈ devMap, lookup jsonDevMap (bytes entry.1) = some entry.2 ∧ 0 ∉ bytes entry.1 ∧
      semicolon ∉ bytes entry.1 ∧ bytes entry.1 ≠ [] := by decide
  exact hall (key, dev) hkey

/-- The argument of the console command. -/
theorem argument_consoleSetDev {name value : List UInt8} (hname : 0 ∉ name) (hvalue : 0 ∉ value) :
    argument (consoleSetDev name value) = some (name ++ semicolon :: value) := by
  have hnull : (0 : UInt8) ∉ name ++ semicolon :: value := by
    simp [hname, hvalue, semicolon]
  have hrest : (consoleSetDev name value).dropWhile (fun c => !endsName c) =
      32 :: (name ++ semicolon :: value) := rfl
  rw [argument, hrest]
  exact congrArg some (List.takeWhile_eq_self_iff.mpr fun c hc =>
    decide_eq_true fun heq => hnull (heq ▸ hc))

/-- The tokens of the argument. -/
theorem split_argument {name : List UInt8} (hname : semicolon ∉ name) (value : List UInt8) :
    split semicolon (name ++ semicolon :: value) = name :: split semicolon value := by
  have hall : ∀ c ∈ name, decide (c ≠ semicolon) = true := fun c hc =>
    decide_eq_true fun heq => hname (heq ▸ hc)
  have hstop : decide (semicolon ≠ semicolon) = false := by decide
  rw [split_of_ne_nil _ (List.append_ne_nil_of_right_ne_nil _ (List.cons_ne_nil _ _)),
    takeWhile_append_stop (p := fun c => decide (c ≠ semicolon)) hstop,
    List.takeWhile_eq_self_iff.mpr hall, List.dropWhile_append_of_pos hall,
    List.dropWhile_cons_of_neg (by decide), List.tail_cons]

section Command

variable {int : IntStore} {name value : List UInt8} {dev : UInt8}

/-- The console passes the value up to the next semicolon to `process_device`. -/
theorem runCommand_consoleSetDev (hdev : lookup devMap name = some dev) (hvalue : 0 ∉ value)
    (hfits : (consoleSetDev name value).length < deviceRxBufferSize) (ints : ConsoleInts)
    (privilege : LoggerPrivilege) (rx : FixedBuffer UInt8 deviceRxBufferSize) :
    runCommand int ints privilege rx (consoleSetDev name value) =
      (split semicolon value)[0]?.map fun data =>
        { ConsoleEffect.nothing privilege with call := (processDevice int ints.pwm dev data).2 } := by
  obtain ⟨-, hnull, hsemicolon, -⟩ := lookup_jsonDevMap hdev
  have hcommand : lookup cmdMap (commandName (consoleSetDev name value)) = some .setDevice := rfl
  rw [runCommand_eq _ _ _ _ hfits, hcommand]
  dsimp only
  rw [processData_setDevice (textAt_argumentMemory (argument_consoleSetDev hnull hvalue) rx),
    split_argument hsemicolon, List.getElem?_cons_zero, Option.bind_some, hdev]
  dsimp only
  rw [List.getElem?_cons_succ]
  cases (split semicolon value)[0]? <;> rfl

/-- MQTT passes the whole value to `process_device`. -/
theorem decodeJsonCommand_setDevRequest (int : IntStore) (value : List UInt8)
    (hdev : lookup devMap name = some dev) {source : String × MqttSource} (hsource : source ∈ jsonSourceMap)
    (junk : PwmInts) :
    ∃ sent, decodeJsonCommand int junk (setDevRequest (bytes source.1) name value) =
      some ⟨(processDevice int junk dev value).2, sent⟩ := by
  have hlookup : ∀ entry ∈ jsonSourceMap, lookup jsonSourceMap (bytes entry.1) = some entry.2 := by decide
  exact ⟨_, decodeJsonCommand_of_requests
    (requests_setDevRequest (hlookup source hsource) (lookup_jsonDevMap hdev).1) int junk⟩

/-- The two agree if the command fits, there is a value, and `process_device` passes on the same for the
value up to the next semicolon as for the whole. -/
theorem agree_iff_calls (hdev : lookup devMap name = some dev) (hvalue : 0 ∉ value) :
    Agree int name value ↔ (consoleSetDev name value).length < deviceRxBufferSize ∧
      ∃ data, (split semicolon value)[0]? = some data ∧ ∀ junk junk',
        (processDevice int junk dev data).2 = (processDevice int junk' dev value).2 := by
  constructor
  · intro hagree
    have hnode : ("SRC_NODE", MqttSource.node) ∈ jsonSourceMap := by decide
    have hat (junk junk' : PwmInts) :=
      hagree { dev := 0, level := 0, pwm := junk } junk' default (FixedBuffer.filled _ 0) _ hnode
    obtain ⟨console, mqtt, hconsole, -⟩ := hat default default
    have hfits : (consoleSetDev name value).length < deviceRxBufferSize := by
      by_contra hlong
      rw [runCommand, if_neg hlong] at hconsole
      contradiction
    rw [runCommand_consoleSetDev hdev hvalue hfits] at hconsole
    obtain ⟨data, hdata, -⟩ := Option.map_eq_some_iff.mp hconsole
    refine ⟨hfits, data, hdata, fun junk junk' => ?_⟩
    obtain ⟨console, mqtt, hconsole, hmqtt, hcall⟩ := hat junk junk'
    obtain ⟨sent, hrequest⟩ := decodeJsonCommand_setDevRequest int value hdev hnode junk'
    rw [runCommand_consoleSetDev hdev hvalue hfits, hdata] at hconsole
    obtain rfl := Option.some.inj hconsole
    obtain rfl := Option.some.inj (hmqtt.symm.trans hrequest)
    exact hcall
  · rintro ⟨hfits, data, hdata, hcall⟩ ints junk privilege rx source hsource
    obtain ⟨sent, hrequest⟩ := decodeJsonCommand_setDevRequest int value hdev hsource junk
    refine ⟨{ ConsoleEffect.nothing privilege with call := (processDevice int ints.pwm dev data).2 }, _, ?_,
      hrequest, hcall ints.pwm junk⟩
    rw [runCommand_consoleSetDev hdev hvalue hfits, hdata]
    rfl

/-- The first token of a value. -/
theorem split_value (h : value ≠ []) :
    (split semicolon value)[0]? = some (value.takeWhile (· ≠ semicolon)) := by
  rw [split_of_ne_nil _ h, List.getElem?_cons_zero]

/-- The console and MQTT agree on setting a device exactly if the device is a switch, the value is not empty
and does not begin with `on;`, and the command fits into the buffer of the console. -/
theorem setdev_agree_iff (int : IntStore) (hdev : lookup devMap name = some dev) (hvalue : 0 ∉ value) :
    Agree int name value ↔ dev ≠ devicePwm ∧ value ≠ [] ∧ ¬ bytes "on;" <+: value ∧
      (consoleSetDev name value).length < deviceRxBufferSize := by
  rw [agree_iff_calls hdev hvalue]
  have hfree : semicolon ∉ bytes "on" := by decide
  constructor
  · rintro ⟨hfits, data, hdata, hcall⟩
    have hne : value ≠ [] := by
      rintro rfl
      contradiction
    obtain rfl := Option.some.inj ((split_value hne).symm.trans hdata)
    have hpwm : dev ≠ devicePwm := by
      rintro rfl
      have hnot : semicolon ∉ value.takeWhile (· ≠ semicolon) :=
        not_mem_of_mem_split (List.mem_of_getElem? hdata)
      exact processDevice_pwm_not_const int hnot fun junk junk' =>
        (hcall junk junk).trans (hcall junk' junk).symm
    refine ⟨hpwm, hne, ?_, hfits⟩
    rintro ⟨rest, rfl⟩
    have htoken := (takeWhile_ne_eq_iff hfree _).mpr (.inr (List.prefix_append (bytes "on;") rest))
    have hother : bytes "on;" ++ rest ≠ bytes "on" := fun heq => nomatch (congrArg (List.drop 2) heq)
    have hsame := hcall default default
    have hswitch := switch_of_devMap hdev hpwm
    rw [processDevice_switch _ _ _ hswitch, processDevice_switch _ _ _ hswitch, if_pos htoken,
      if_neg hother] at hsame
    simp at hsame
  · rintro ⟨hpwm, hne, hon, hfits⟩
    refine ⟨hfits, _, split_value hne, fun junk junk' => ?_⟩
    have htoken : value.takeWhile (· ≠ semicolon) = bytes "on" ↔ value = bytes "on" :=
      (takeWhile_ne_eq_iff hfree value).trans (or_iff_left hon)
    have hswitch := switch_of_devMap hdev hpwm
    rw [processDevice_switch _ _ _ hswitch, processDevice_switch _ _ _ hswitch]
    simp only [htoken]

end Command

/-- The light is switched on alike. -/
theorem setdev_agree_iff_on : Agree .truncate (bytes "led") (bytes "on") := by
  have hled : lookup devMap (bytes "led") = some deviceLed := by decide
  exact (setdev_agree_iff .truncate hled (by decide)).mpr (by decide +kernel)

/-- For the PWM device the console leaves the period and the duty to the stack. -/
theorem setdev_agree_fails :
    ¬ ∀ (int : IntStore) (name value : List UInt8) (dev : UInt8), lookup devMap name = some dev → 0 ∉ value →
      Agree int name value := by
  intro h
  have hpwm : lookup devMap (bytes "pwm") = some devicePwm := by decide
  have hvalue : 0 ∉ bytes "1;50000;25000" := by decide +kernel
  obtain ⟨-, data, hdata, hcall⟩ := (agree_iff_calls hpwm hvalue).mp
    (h .truncate (bytes "pwm") (bytes "1;50000;25000") devicePwm hpwm hvalue)
  have hnot : semicolon ∉ data := not_mem_of_mem_split (List.mem_of_getElem? hdata)
  exact processDevice_pwm_not_const .truncate hnot fun junk junk' =>
    (hcall junk junk).trans (hcall junk' junk).symm

end RemoteManage.MainProcess
